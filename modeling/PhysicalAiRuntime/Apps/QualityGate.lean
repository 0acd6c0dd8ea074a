import PhysicalAiRuntime.Apps.StopThreads

/-! The Episode Action prompt of `record.py` against the stop threads. A stop thread whose recording
ended at the maximal duration is still in `input()` when the prompt waits, and may be given the
answer that is meant for it. -/
namespace PhysicalAiRuntime.Apps.RecordLoop
open Trace
set_option autoImplicit false
set_option maxHeartbeats 250000

/-! ## What the prompt is owed -/

def PromptWaiting (s : RecordLoop) : Prop := s.phase = .gate ∧ .main ∈ s.input.blocked

instance (s : RecordLoop) : Decidable s.PromptWaiting := inferInstanceAs (Decidable (_ ∧ _))

/-- A line that is entered while the prompt waits goes to the prompt. -/
def Consumed (s : RecordLoop) (l : Label) : Prop :=
  s.PromptWaiting → ∀ text k, l = .enter (.line text) k →
    (s.step l).input.delivered = s.input.delivered ++ [(.main, .line text)]

/-- The recording that a line discards, entered while the prompt waits. -/
def discards (s : RecordLoop) : Label → Option ℕ
  | .enter (.line text) _ =>
    if s.PromptWaiting ∧ gateChoice text = .discard then some s.recording else none
  | _ => none

/-- The recordings that the operator discards in a run. -/
def discarded (s : RecordLoop) : List Label → List ℕ
  | [] => []
  | l :: ls => (s.discards l).toList ++ discarded (s.step l) ls

/-- Every answer reaches the prompt, and no recording is saved that was discarded. -/
def Heeded (s : RecordLoop) (ls : List Label) : Prop :=
  Follows step Consumed s ls ∧
    ∀ n ∈ s.discarded ls, ∀ e ∈ (run step s ls).savedEpisodes, e.recording ≠ n

/-- When a line is entered while the prompt waits, no stop thread of a recording that ran into the
maximal duration is still in `input()`. -/
def Answered (s : RecordLoop) (l : Label) : Prop :=
  s.PromptWaiting → ∀ text k, l = .enter (.line text) k →
    ∀ n ∈ s.timedOut, .stop n ∉ s.input.blocked

/-- The label without the reader that is picked. -/
def Label.script : Label → Label
  | .enter entry _ => .enter entry 0
  | l => l

/-- The same happens, but the entries may go to other readers. -/
def Redelivers (ls ls' : List Label) : Prop := ls.map Label.script = ls'.map Label.script

/-! ## Who is given the answer -/

/-- While the prompt waits, a line goes to somebody. -/
theorem PromptWaiting.receiver {s : RecordLoop} (h : s.PromptWaiting) (k : ℕ) :
    ∃ r, s.input.receiver k = some r := by
  cases hreceiver : s.input.receiver k with
  | some r => exact ⟨r, rfl⟩
  | none =>
    have hmain := h.2
    rw [SharedInput.receiver_none hreceiver] at hmain
    exact absurd hmain List.not_mem_nil

/-- The readers that are blocked while the prompt waits are the main thread and threads of
recordings that timed out. -/
theorem Tied.blocked {s : RecordLoop} (h : s.Tied) (hwaiting : s.PromptWaiting) {n : ℕ}
    (hn : .stop n ∈ s.input.blocked) : n ∈ s.timedOut := by
  have hreading := h.reading n hn
  have hlive : s.phase ≠ .ended := by
    rw [hwaiting.1]
    decide
  rcases h.closed hlive n (List.getElem?_eq_some_iff.mp hreading).1 with hrecording | hfinished | hn
  · rw [hwaiting.1] at hrecording
    cases hrecording.1
  · rw [hreading] at hfinished
    cases hfinished
  · exact hn

theorem consumed_of_answered {s : RecordLoop} (h : s.Tied) {l : Label} (hanswered : s.Answered l) :
    s.Consumed l := by
  intro hwaiting text k hl
  subst hl
  obtain ⟨r, hreceiver⟩ := hwaiting.receiver k
  rw [delivered_enter hreceiver]
  cases r with
  | main => rfl
  | stop n =>
    have hblocked := SharedInput.receiver_mem hreceiver
    exact absurd hblocked (hanswered hwaiting text k rfl n (h.blocked hwaiting hblocked))

theorem follows_consumed {s : RecordLoop} (h : s.Tied) {ls : List Label}
    (hls : Follows step Answered s ls) : Follows step Consumed s ls :=
  follows_of_invariant Tied (fun _ l hs _ => step_tied hs l)
    (fun _ _ hs hl => consumed_of_answered hs hl) h hls

/-! ## What is saved -/

/-- What a step does to the recordings. -/
inductive EpisodeMoves (s t : RecordLoop) : Prop where
  | keeps (saved : t.savedEpisodes = s.savedEpisodes)
      (count : t.stopThreads.length = s.stopThreads.length)
      (opens : t.phase.isOpen → s.phase.isOpen)
  | starts (saved : t.savedEpisodes = s.savedEpisodes)
      (count : t.stopThreads.length = s.stopThreads.length + 1)
  | saves (path : Option EpisodePath) (gate : s.phase = .gate) (closed : t.phase.isOpen = false)
      (saved : t.savedEpisodes = s.savedEpisodes ++ [⟨s.stopThreads.length - 1, path⟩])
      (count : t.stopThreads.length = s.stopThreads.length)

theorem EpisodeMoves.of_same {s t u : RecordLoop} (h : EpisodeMoves t u)
    (hsaved : t.savedEpisodes = s.savedEpisodes)
    (hcount : t.stopThreads.length = s.stopThreads.length) (hphase : t.phase = s.phase) :
    EpisodeMoves s u := by
  cases h with
  | keeps saved count opens =>
    exact EpisodeMoves.keeps (saved.trans hsaved) (count.trans hcount) (hphase ▸ opens)
  | starts saved count => exact EpisodeMoves.starts (saved.trans hsaved) (by rw [count, hcount])
  | saves path gate closed saved count =>
    exact EpisodeMoves.saves path (hphase.symm.trans gate) closed (by rw [saved, hsaved, hcount])
      (count.trans hcount)

theorem Quiet.episodes {s t : RecordLoop} (h : Quiet s t) : EpisodeMoves s t :=
  EpisodeMoves.keeps h.saved (congrArg List.length h.threads) h.opens

theorem choose_episodes {s : RecordLoop} (hgate : s.phase = .gate) (text : String) :
    EpisodeMoves s (s.choose text) := by
  have hopen : s.phase.isOpen = true := by
    rw [hgate]
    rfl
  unfold choose
  cases gateChoice text with
  | save => exact EpisodeMoves.saves _ hgate rfl rfl rfl
  | _ => exact EpisodeMoves.keeps rfl rfl fun _ => hopen

theorem answer_episodes (s : RecordLoop) (e : Entry) : EpisodeMoves s (s.answer e) := by
  cases e with
  | eof => exact (finish_quiet s).episodes
  | line text =>
    unfold answer
    cases hphase : s.phase with
    | ready => exact EpisodeMoves.keeps rfl rfl fun h => by cases h
    | gate => exact choose_episodes hphase text
    | _ => exact (Quiet.refl s).episodes

theorem receive_episodes (s : RecordLoop) (r : Reader) (e : Entry) :
    EpisodeMoves s (s.receive r e) := by
  cases r with
  | main => exact answer_episodes s e
  | stop n => exact EpisodeMoves.keeps rfl List.length_set id

theorem ask_episodes (s : RecordLoop) (r : Reader) : EpisodeMoves s (s.ask r) := by
  unfold ask
  cases (s.input.ask r).2 with
  | none => exact EpisodeMoves.keeps rfl rfl id
  | some e => exact (receive_episodes _ r e).of_same rfl rfl rfl

theorem iterate_episodes {s : RecordLoop} (hphase : s.phase = .recording) (elapsed : ℚ) :
    EpisodeMoves s (s.iterate elapsed) := by
  have hopen : s.phase.isOpen = true := by
    rw [hphase]
    rfl
  unfold iterate
  split
  · exact EpisodeMoves.keeps rfl rfl fun _ => hopen
  · split
    · exact EpisodeMoves.keeps rfl rfl fun _ => hopen
    · exact EpisodeMoves.keeps rfl rfl id

theorem thread_episodes (s : RecordLoop) (n : ℕ) : EpisodeMoves s (s.thread n) := by
  unfold thread
  split
  · exact (ask_episodes _ _).of_same rfl List.length_set rfl
  · exact EpisodeMoves.keeps rfl List.length_set id
  · exact (Quiet.refl s).episodes

theorem step_episodes (s : RecordLoop) (l : Label) : EpisodeMoves s (s.step l) := by
  have hmain : ∀ t, MainMoves s t → EpisodeMoves s t := by
    intro t hmoves
    cases hmoves with
    | quiet hquiet => exact hquiet.episodes
    | asks => exact ask_episodes s .main
    | engages hphase => exact EpisodeMoves.starts rfl (List.length_append)
    | iterates hphase elapsed => exact iterate_episodes hphase elapsed
  cases l with
  | enter e k =>
    change EpisodeMoves s (s.enter e k)
    unfold enter
    cases s.input.receiver k with
    | none => exact EpisodeMoves.keeps rfl rfl id
    | some r => exact (receive_episodes _ r e).of_same rfl rfl rfl
  | thread n => exact thread_episodes s n
  | _ => exact hmain _ (mainStep_moves s _)

/-- The saved recordings have begun, and one whose answer is due is not among them. -/
structure Fresh (s : RecordLoop) : Prop where
  saved : ∀ e ∈ s.savedEpisodes, e.recording < s.stopThreads.length
  due : s.phase.isOpen → 0 < s.stopThreads.length ∧
    ∀ e ∈ s.savedEpisodes, e.recording + 1 < s.stopThreads.length

theorem step_fresh {s : RecordLoop} (h : s.Fresh) (l : Label) : (s.step l).Fresh := by
  cases step_episodes s l with
  | keeps saved count opens =>
    refine ⟨?_, fun hopen => ?_⟩
    · rw [saved, count]
      exact h.saved
    · rw [saved, count]
      exact h.due (opens hopen)
  | starts saved count =>
    refine ⟨?_, fun _ => ?_⟩
    · rw [saved, count]
      exact fun e he => Nat.lt_succ_of_lt (h.saved e he)
    · rw [saved, count]
      exact ⟨Nat.succ_pos _, fun e he => Nat.succ_lt_succ (h.saved e he)⟩
  | saves path gate closed saved count =>
    refine ⟨?_, fun hopen => ?_⟩
    · rw [saved, count]
      intro e he
      rcases List.mem_append.mp he with hold | hnew
      · exact h.saved e hold
      · rw [List.mem_singleton.mp hnew]
        have hpos := (h.due (by rw [gate]; rfl)).1
        exact Nat.sub_lt hpos Nat.one_pos
    · rw [closed] at hopen
      cases hopen

/-- Recording `n` is over and was not saved. -/
structure Settled (n : ℕ) (s : RecordLoop) : Prop where
  begun : n < s.stopThreads.length
  unsaved : ∀ e ∈ s.savedEpisodes, e.recording ≠ n
  past : s.phase.isOpen → n + 1 < s.stopThreads.length

theorem step_settled {n : ℕ} {s : RecordLoop} (h : s.Settled n) (l : Label) :
    (s.step l).Settled n := by
  cases step_episodes s l with
  | keeps saved count opens =>
    refine ⟨?_, ?_, fun hopen => ?_⟩
    · rw [count]
      exact h.begun
    · rw [saved]
      exact h.unsaved
    · rw [count]
      exact h.past (opens hopen)
  | starts saved count =>
    refine ⟨?_, ?_, fun _ => ?_⟩
    · rw [count]
      exact Nat.lt_succ_of_lt h.begun
    · rw [saved]
      exact h.unsaved
    · rw [count]
      exact Nat.succ_lt_succ h.begun
  | saves path gate closed saved count =>
    refine ⟨?_, ?_, fun hopen => ?_⟩
    · rw [count]
      exact h.begun
    · rw [saved]
      intro e he
      rcases List.mem_append.mp he with hold | hnew
      · exact h.unsaved e hold
      · have hpast := h.past (by rw [gate]; rfl)
        rw [List.mem_singleton.mp hnew]
        exact Nat.ne_of_gt (Nat.lt_sub_of_add_lt hpast)
    · rw [closed] at hopen
      cases hopen

/-- A discard that reaches the prompt settles its recording. -/
theorem settled_of_discards {s : RecordLoop} (h : s.Fresh) {l : Label} {n : ℕ}
    (hconsumed : s.Consumed l) (hdiscards : s.discards l = some n) : (s.step l).Settled n := by
  unfold discards at hdiscards
  split at hdiscards
  · next text k =>
    split at hdiscards
    · next hboth =>
      obtain ⟨hwaiting, hchoice⟩ := hboth
      obtain ⟨r, hreceiver⟩ := hwaiting.receiver k
      have hmain := hconsumed hwaiting text k rfl
      rw [delivered_enter hreceiver] at hmain
      have hr : r = .main := by simpa using hmain
      subst hr
      have hstep : s.step (.enter (.line text) k) =
          { s with input := s.input.give .main (.line text), phase := .discarding } := by
        change s.enter (.line text) k = _
        rw [enter_of_receiver hreceiver]
        unfold receive answer choose
        simp only [hwaiting.1, hchoice]
      obtain ⟨hpos, hdue⟩ := h.due (by rw [hwaiting.1]; rfl)
      rw [← Option.some.inj hdiscards, hstep]
      refine ⟨Nat.sub_lt hpos Nat.one_pos, fun e he => ?_, fun hopen => by cases hopen⟩
      exact Nat.ne_of_lt (Nat.lt_sub_of_add_lt (hdue e he))
    · cases hdiscards
  · cases hdiscards

/-- Along a run in which every answer reaches the prompt no discarded recording is saved. -/
theorem unsaved_of_consumed {s : RecordLoop} (h : s.Fresh) {ls : List Label}
    (hls : Follows step Consumed s ls) :
    ∀ n ∈ s.discarded ls, ∀ e ∈ (run step s ls).savedEpisodes, e.recording ≠ n := by
  induction ls generalizing s with
  | nil => exact fun n hn => absurd hn List.not_mem_nil
  | cons l ls ih =>
    intro n hn
    rcases List.mem_append.mp hn with hfirst | hrest
    · have hsettled := settled_of_discards h hls.1 (Option.mem_toList.mp hfirst)
      exact (run_invariant' (Settled n) (fun _ l hs => step_settled hs l) hsettled ls).unsaved
    · exact ih (step_fresh h l) hls.2 n hrest

/-! ## Other deliveries of the same entries -/

/-- If the prompt is answered under every delivery, no stop thread competes with it. -/
theorem answered_of_redelivered {s : RecordLoop} {ls : List Label}
    (h : ∀ ls', Redelivers ls ls' → Follows step Consumed s ls') : Follows step Answered s ls := by
  by_contra hnot
  obtain ⟨pre, l, post, rfl, -, hfails⟩ := follows_first_failure hnot
  unfold Answered at hfails
  push Not at hfails
  obtain ⟨hwaiting, text, k, rfl, n, -, hblocked⟩ := hfails
  -- the line goes to the stop thread instead
  obtain ⟨k', hreceiver⟩ := SharedInput.exists_receiver hblocked
  have hsame : Redelivers (pre ++ .enter (.line text) k :: post)
      (pre ++ .enter (.line text) k' :: post) := by
    unfold Redelivers
    rw [List.map_append, List.map_append]
    rfl
  obtain ⟨-, hconsumed, -⟩ := (follows_append _ _ _).mp (h _ hsame)
  have hmain := hconsumed hwaiting text k' rfl
  rw [delivered_enter hreceiver] at hmain
  simp at hmain

theorem init_fresh (targetEpisodes : ℤ) (maxDurationS : Option ℚ) :
    (init targetEpisodes maxDurationS).Fresh := by
  refine ⟨fun _ he => absurd he List.not_mem_nil, fun hopen => ?_⟩
  change (if 1 ≤ targetEpisodes then Phase.staging else Phase.ended).isOpen = true at hopen
  split at hopen
  · cases hopen
  · cases hopen

theorem heeded_of_consumed {targetEpisodes : ℤ} {maxDurationS : Option ℚ} {ls : List Label}
    (h : Follows step Consumed (init targetEpisodes maxDurationS) ls) :
    Heeded (init targetEpisodes maxDurationS) ls :=
  ⟨h, unsaved_of_consumed (init_fresh targetEpisodes maxDurationS) h⟩

/-- A session whose recordings are all ended by their ENTER heeds every answer. -/
theorem heeded_of_none_timedOut {targetEpisodes : ℤ} {maxDurationS : Option ℚ} {ls : List Label}
    (h : Follows step (fun s _ => s.timedOut = []) (init targetEpisodes maxDurationS) ls) :
    Heeded (init targetEpisodes maxDurationS) ls := by
  refine heeded_of_consumed (follows_consumed (init_tied targetEpisodes maxDurationS) ?_)
  refine follows_of_invariant (fun _ => True) (fun _ _ _ _ => trivial) ?_ trivial h
  intro s l _ hnone _ text k _ n hn
  rw [hnone] at hn
  exact absurd hn List.not_mem_nil

/-- **The answers of the quality gate.** A run heeds them in which no line is entered while the
prompt waits beside the stop thread of a recording that timed out, and only such runs heed them
whichever readers their entries go to. -/
theorem quality_gate_iff (targetEpisodes : ℤ) (maxDurationS : Option ℚ) (ls : List Label) :
    (Follows step Answered (init targetEpisodes maxDurationS) ls →
      Heeded (init targetEpisodes maxDurationS) ls) ∧
    ((∀ ls', Redelivers ls ls' → Heeded (init targetEpisodes maxDurationS) ls') ↔
      ∀ ls', Redelivers ls ls' → Follows step Answered (init targetEpisodes maxDurationS) ls') := by
  have htied := init_tied targetEpisodes maxDurationS
  refine ⟨fun h => heeded_of_consumed (follows_consumed htied h), fun h ls' hls => ?_,
    fun h ls' hls => heeded_of_consumed (follows_consumed htied (h ls' hls))⟩
  exact answered_of_redelivered fun ls'' hls' => (h ls'' (hls.trans hls')).1

/-- The recording runs into its maximal duration, and its thread is given the `d`. -/
def swallowedDiscard : List Label :=
  [.staged, .ask, .enter (.line "") 0, .engaged true, .thread 0, .iterate 60,
    .concluded (some ⟨["data", "episode_1"]⟩) true, .ask, .enter (.line "d") 1,
    .enter (.line "") 0]

/-- The ENTER after it saves the discarded recording. -/
theorem swallowed_discard_saved :
    (init 1 (some 60)).discarded swallowedDiscard = [0] ∧
      (run step (init 1 (some 60)) swallowedDiscard).savedEpisodes =
        [⟨0, some ⟨["data", "episode_1"]⟩⟩] ∧
      ¬ Heeded (init 1 (some 60)) swallowedDiscard := by
  have hdiscarded : (init 1 (some 60)).discarded swallowedDiscard = [0] := by decide +kernel
  have hsaved : (run step (init 1 (some 60)) swallowedDiscard).savedEpisodes =
      [⟨0, some ⟨["data", "episode_1"]⟩⟩] := by
    decide +kernel
  refine ⟨hdiscarded, hsaved, fun ⟨_, hunsaved⟩ => ?_⟩
  rw [hdiscarded, hsaved] at hunsaved
  exact hunsaved 0 (List.mem_singleton.mpr rfl) _ (List.mem_singleton.mpr rfl) rfl

end PhysicalAiRuntime.Apps.RecordLoop
