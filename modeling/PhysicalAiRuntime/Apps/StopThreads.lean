import PhysicalAiRuntime.Apps.RecordLoop

/-! What a step of the recorder's loop does to its stop threads and to the standard input. A thread
is blocked only inside `input()`, and nothing but its own call gives it a line. -/
namespace PhysicalAiRuntime.Apps.RecordLoop
open Trace
set_option autoImplicit false
set_option maxHeartbeats 250000

/-! ## Stop threads in `input()` -/

/-- The stop threads are blocked only in `input()`, and a recording that is over has either been
ended by its thread or timed out. -/
structure Tied (s : RecordLoop) : Prop where
  reading : ∀ n, .stop n ∈ s.input.blocked → s.stopThreads[n]? = some .reading
  closed : s.phase ≠ .ended → ∀ n < s.stopThreads.length,
    (s.phase = .recording ∧ n + 1 = s.stopThreads.length) ∨
      s.stopThreads[n]? = some .finished ∨ n ∈ s.timedOut

/-- What leaves the threads alone and ends no recording. -/
structure Frame (s t : RecordLoop) : Prop where
  threads : t.stopThreads = s.stopThreads
  timedOut : t.timedOut = s.timedOut
  blocked : ∀ n, .stop n ∈ t.input.blocked → .stop n ∈ s.input.blocked
  phase : t.phase = .ended ∨ (s.phase ≠ .ended ∧ (s.phase = .recording → t.phase = .recording))

theorem Tied.frame {s t : RecordLoop} (h : s.Tied) (hframe : Frame s t) : t.Tied := by
  refine ⟨fun n hn => ?_, fun hopen n hn => ?_⟩
  · rw [hframe.threads]
    exact h.reading n (hframe.blocked n hn)
  · rw [hframe.threads] at hn ⊢
    rw [hframe.timedOut]
    obtain ⟨hlive, hkept⟩ := hframe.phase.resolve_left hopen
    exact (h.closed hlive n hn).imp_left fun hlast => ⟨hkept hlast.1, hlast.2⟩

/-- A thread that is not blocked moves on, unless it has set its event. -/
theorem Tied.setThread {s : RecordLoop} (h : s.Tied) {n : ℕ} (hblocked : .stop n ∉ s.input.blocked)
    (hopen : s.stopThreads[n]? ≠ some .finished) (t : StopThread) : (s.setThread n t).Tied := by
  refine ⟨fun m hm => ?_, fun hlive m hm => ?_⟩
  · have hne : n ≠ m := by
      rintro rfl
      exact hblocked hm
    change (s.stopThreads.set n t)[m]? = _
    rw [List.getElem?_set_ne hne]
    exact h.reading m hm
  · change m < (s.stopThreads.set n t).length at hm
    change (_ ∧ m + 1 = (s.stopThreads.set n t).length) ∨ (s.stopThreads.set n t)[m]? = _ ∨ _
    rw [List.length_set] at hm ⊢
    refine (h.closed hlive m hm).imp_right fun hover => hover.imp_left fun hfinished => ?_
    have hne : n ≠ m := by
      rintro rfl
      exact hopen hfinished
    rw [List.getElem?_set_ne hne]
    exact hfinished

/-- A recording is under way, or its answer is still due. -/
def Phase.isOpen : Phase → Bool
  | .recording | .releasing | .gate | .replaying => true
  | _ => false

/-- What moreover saves nothing, opens nothing and reads nothing. -/
structure Quiet (s t : RecordLoop) : Prop extends Frame s t where
  saved : t.savedEpisodes = s.savedEpisodes
  entries : t.input.entries = s.input.entries
  opens : t.phase.isOpen → s.phase.isOpen

theorem finish_quiet (s : RecordLoop) : Quiet s s.finish :=
  ⟨⟨rfl, rfl, fun _ hn => (SharedInput.mem_leave_blocked.mp hn).2, Or.inl rfl⟩, rfl,
    rfl, fun h => by cases h⟩

theorem Frame.refl (s : RecordLoop) : Frame s s :=
  ⟨rfl, rfl, fun _ hn => hn, (eq_or_ne s.phase .ended).imp_right fun hne => ⟨hne, id⟩⟩

theorem Frame.trans {s t u : RecordLoop} (h : Frame s t) (h' : Frame t u) : Frame s u := by
  refine ⟨h'.threads.trans h.threads, h'.timedOut.trans h.timedOut,
    fun n hn => h.blocked n (h'.blocked n hn), ?_⟩
  rcases h'.phase with hended | ⟨hlive, hkept⟩
  · exact Or.inl hended
  · obtain ⟨hlive', hkept'⟩ := h.phase.resolve_left hlive
    exact Or.inr ⟨hlive', fun hrecording => hkept (hkept' hrecording)⟩

/-- Between two recordings the main thread may go anywhere. -/
theorem frame_between {s t : RecordLoop} {p : Phase} (hp : s.phase = p)
    (hbetween : p ≠ .ended ∧ p ≠ .recording) (hthreads : t.stopThreads = s.stopThreads)
    (htimed : t.timedOut = s.timedOut) (hinput : t.input = s.input) : Frame s t := by
  subst hp
  refine ⟨hthreads, htimed, fun n hn => ?_, Or.inr ⟨hbetween.1, fun h => absurd h hbetween.2⟩⟩
  rw [← hinput]
  exact hn

theorem Quiet.refl (s : RecordLoop) : Quiet s s := ⟨Frame.refl s, rfl, rfl, id⟩

theorem Quiet.trans {s t u : RecordLoop} (h : Quiet s t) (h' : Quiet t u) : Quiet s u :=
  ⟨h.toFrame.trans h'.toFrame, h'.saved.trans h.saved, h'.entries.trans h.entries,
    fun hopen => h.opens (h'.opens hopen)⟩

theorem choose_frame {s : RecordLoop} (hgate : s.phase = .gate) (text : String) :
    Frame s (s.choose text) := by
  unfold choose
  cases gateChoice text with
  | _ => exact frame_between hgate (by decide) rfl rfl rfl

theorem answer_frame (s : RecordLoop) (e : Entry) : Frame s (s.answer e) := by
  cases e with
  | eof => exact (finish_quiet s).toFrame
  | line text =>
    unfold answer
    cases hphase : s.phase with
    | ready => exact frame_between hphase (by decide) rfl rfl rfl
    | gate => exact choose_frame hphase text
    | _ => exact Frame.refl s

theorem concluded_quiet {s : RecordLoop} (hphase : s.phase = .releasing)
    (episodePath : Option EpisodePath) (isDir : Bool) :
    Quiet s (s.concluded episodePath isDir) := by
  have hopen : s.phase.isOpen = true := by
    rw [hphase]
    rfl
  unfold concluded
  cases finalizedEpisodeDirectory episodePath isDir with
  | error e => exact finish_quiet s
  | ok path =>
    dsimp only
    split
    · exact ⟨frame_between hphase (by decide) rfl rfl rfl, rfl, rfl, fun _ => hopen⟩
    · refine Quiet.trans ?_ (finish_quiet _)
      exact ⟨frame_between hphase (by decide) rfl rfl rfl, rfl, rfl, fun _ => hopen⟩

theorem cleaned_quiet {s : RecordLoop} (hphase : s.phase = .discarding) (isDir : Bool) :
    Quiet s (s.cleaned isDir) := by
  unfold cleaned
  cases s.lastRecordedPath with
  | none => exact ⟨frame_between hphase (by decide) rfl rfl rfl, rfl, rfl, fun h => by cases h⟩
  | some path =>
    dsimp only
    split
    · exact ⟨frame_between hphase (by decide) rfl rfl rfl, rfl, rfl, fun h => by cases h⟩
    · exact ⟨frame_between hphase (by decide) rfl rfl rfl, rfl, rfl, fun h => by cases h⟩

theorem nextEpisode_closed (s : RecordLoop) : s.nextEpisode.phase.isOpen = false := by
  unfold nextEpisode
  split
  · rfl
  · rfl

/-- What a step of the main thread does. -/
inductive MainMoves (s : RecordLoop) : RecordLoop → Prop where
  | quiet {t : RecordLoop} (h : Quiet s t) : MainMoves s t
  | asks : MainMoves s (s.ask .main)
  | engages (h : s.phase = .engaging) : MainMoves s
      { s with stopThreads := s.stopThreads ++ [.started], phase := .recording }
  | iterates (h : s.phase = .recording) (elapsed : ℚ) : MainMoves s (s.iterate elapsed)

theorem mainStep_moves (s : RecordLoop) (l : Label) : MainMoves s (s.mainStep l) := by
  have hnext : ∀ {p : Phase} (t : RecordLoop), s.phase = p → p ≠ .ended ∧ p ≠ .recording →
      t.stopThreads = s.stopThreads → t.timedOut = s.timedOut → t.input = s.input →
      t.savedEpisodes = s.savedEpisodes → MainMoves s t.nextEpisode := by
    intro p t hp hbetween hthreads htimed hinput hsaved
    refine MainMoves.quiet
      ⟨frame_between hp hbetween hthreads htimed hinput, hsaved, ?_, fun h => ?_⟩
    · change t.input.entries = _
      rw [hinput]
    · rw [nextEpisode_closed] at h
      cases h
  unfold mainStep
  split
  · exact MainMoves.quiet (Quiet.refl s)
  · exact MainMoves.quiet (finish_quiet s)
  · next hstaging =>
    exact MainMoves.quiet
      ⟨frame_between hstaging (by decide) rfl rfl rfl, rfl, rfl, fun h => by cases h⟩
  · exact MainMoves.asks
  · next hengaging => exact MainMoves.engages hengaging
  · exact MainMoves.quiet (finish_quiet s)
  · next elapsed hrecording => exact MainMoves.iterates hrecording elapsed
  · next hreleasing => exact MainMoves.quiet (concluded_quiet hreleasing _ _)
  · exact MainMoves.asks
  · next hdiscarding => exact MainMoves.quiet (cleaned_quiet hdiscarding _)
  · next hjoining => exact hnext s hjoining (by decide) rfl rfl rfl rfl
  · next hreplaying =>
    refine MainMoves.quiet ⟨frame_between hreplaying (by decide) rfl rfl rfl, rfl, rfl, fun _ => ?_⟩
    rw [hreplaying]
    rfl
  · next hquitting => exact hnext _ hquitting (by decide) rfl rfl rfl rfl
  · exact MainMoves.quiet (Quiet.refl s)

/-! ## Every step keeps the threads tied -/

theorem ask_main_tied {s : RecordLoop} (h : s.Tied) : (s.ask .main).Tied := by
  unfold ask
  cases hqueue : s.input.queue with
  | nil =>
    obtain ⟨hnone, -, hblocked, -⟩ := SharedInput.ask_of_nil hqueue .main
    rw [hnone]
    refine h.frame ⟨rfl, rfl, fun n hn => ?_, (Frame.refl s).phase⟩
    change .stop n ∈ (s.input.ask .main).1.blocked at hn
    rw [hblocked, List.mem_insert_iff] at hn
    exact hn.resolve_left (by simp)
  | cons e rest =>
    obtain ⟨hsome, -, hblocked, -⟩ := SharedInput.ask_of_cons hqueue .main
    rw [hsome]
    refine (h.frame (t := { s with input := (s.input.ask .main).1 }) ?_).frame (answer_frame _ e)
    refine ⟨rfl, rfl, fun n hn => ?_, (Frame.refl s).phase⟩
    change .stop n ∈ (s.input.ask .main).1.blocked at hn
    rw [hblocked] at hn
    exact hn

/-- The thread of a delivery was reading. -/
theorem enter_tied {s : RecordLoop} (h : s.Tied) (e : Entry) (k : ℕ) : (s.enter e k).Tied := by
  unfold enter
  cases hreceiver : s.input.receiver k with
  | none =>
    obtain ⟨-, hblocked, -⟩ := SharedInput.enter_of_none hreceiver e
    refine h.frame ⟨rfl, rfl, fun n hn => ?_, (Frame.refl s).phase⟩
    change .stop n ∈ (s.input.enter e k).blocked at hn
    rw [hblocked] at hn
    exact hn
  | some r =>
    rw [SharedInput.enter_of_receiver hreceiver]
    have hgiven : RecordLoop.Tied { s with input := s.input.give r e } :=
      h.frame ⟨rfl, rfl, fun n hn => ((SharedInput.mem_give_blocked e).mp hn).2,
        (Frame.refl s).phase⟩
    cases r with
    | main => exact hgiven.frame (answer_frame _ e)
    | stop n =>
      refine hgiven.setThread (fun hn => ((SharedInput.mem_give_blocked e).mp hn).1 rfl) ?_ _
      change s.stopThreads[n]? ≠ _
      rw [h.reading n (SharedInput.receiver_mem hreceiver)]
      decide

/-- A thread that calls `input()` is given the head of the queue, or waits. -/
theorem ask_stop_tied {s : RecordLoop} (h : s.Tied) {n : ℕ}
    (hreading : s.stopThreads[n]? = some .reading) (hfree : .stop n ∉ s.input.blocked) :
    (s.ask (.stop n)).Tied := by
  unfold ask
  cases hqueue : s.input.queue with
  | nil =>
    obtain ⟨hnone, -, hblocked, -⟩ := SharedInput.ask_of_nil hqueue (.stop n)
    rw [hnone]
    refine ⟨fun m hm => ?_, h.closed⟩
    change .stop m ∈ (s.input.ask (.stop n)).1.blocked at hm
    rw [hblocked, List.mem_insert_iff] at hm
    rcases hm with hm | hm
    · injection hm with hm
      subst hm
      exact hreading
    · exact h.reading m hm
  | cons e rest =>
    obtain ⟨hsome, -, hblocked, -⟩ := SharedInput.ask_of_cons hqueue (.stop n)
    rw [hsome]
    have hgiven : RecordLoop.Tied { s with input := (s.input.ask (.stop n)).1 } := by
      refine h.frame ⟨rfl, rfl, fun m hm => ?_, (Frame.refl s).phase⟩
      change .stop m ∈ (s.input.ask (.stop n)).1.blocked at hm
      rw [hblocked] at hm
      exact hm
    refine hgiven.setThread ?_ ?_ _
    · change .stop n ∉ (s.input.ask (.stop n)).1.blocked
      rw [hblocked]
      exact hfree
    · change s.stopThreads[n]? ≠ _
      rw [hreading]
      decide

theorem thread_tied {s : RecordLoop} (h : s.Tied) (n : ℕ) : (s.thread n).Tied := by
  have hfree : s.stopThreads[n]? ≠ some .reading → .stop n ∉ s.input.blocked :=
    fun hne hn => hne (h.reading n hn)
  unfold thread
  cases hthread : s.stopThreads[n]? with
  | none => exact h
  | some t =>
    rw [hthread] at hfree
    cases t with
    | reading => exact h
    | finished => exact h
    | failed => exact h
    | returned => exact h.setThread (hfree (by decide)) (by rw [hthread]; decide) .finished
    | started =>
      have hblocked := hfree (by decide)
      have hcalled := h.setThread hblocked (by rw [hthread]; decide) .reading
      have hreading : (s.setThread n .reading).stopThreads[n]? = some .reading :=
        List.getElem?_set_self (List.getElem?_eq_some_iff.mp hthread).1
      exact ask_stop_tied hcalled hreading hblocked

/-- A recording ends by its thread, or times out. -/
theorem iterate_tied {s : RecordLoop} (h : s.Tied) (hphase : s.phase = .recording)
    (elapsed : ℚ) : (s.iterate elapsed).Tied := by
  have hlive : s.phase ≠ .ended := by
    rw [hphase]
    decide
  have hlast : ∀ n < s.stopThreads.length,
      n = s.recording ∨ s.stopThreads[n]? = some .finished ∨ n ∈ s.timedOut := by
    intro n hn
    refine (h.closed hlive n hn).imp_left fun hlast => ?_
    unfold recording
    omega
  unfold iterate
  split
  · rename_i hset
    refine ⟨h.reading, fun _ n hn => Or.inr ?_⟩
    rcases hlast n hn with hsame | hover
    · rw [hsame]
      exact Or.inl hset
    · exact hover
  · split
    · refine ⟨h.reading, fun _ n hn => Or.inr ?_⟩
      rcases hlast n hn with hsame | hover
      · exact Or.inr (List.mem_append_right _ (List.mem_singleton.mpr hsame))
      · exact hover.imp_right fun hmem => List.mem_append_left _ hmem
    · exact ⟨h.reading, h.closed⟩

/-- The thread of a new recording has not asked yet. -/
theorem engaged_tied {s : RecordLoop} (h : s.Tied) (hphase : s.phase = .engaging) :
    RecordLoop.Tied
      { s with stopThreads := s.stopThreads ++ [StopThread.started], phase := .recording } := by
  refine ⟨fun n hn => ?_, fun _ n hn => ?_⟩
  · have hreading := h.reading n hn
    change (s.stopThreads ++ [StopThread.started])[n]? = _
    rw [List.getElem?_append_left (List.getElem?_eq_some_iff.mp hreading).1]
    exact hreading
  · change n < (s.stopThreads ++ [StopThread.started]).length at hn
    change (_ ∧ n + 1 = (s.stopThreads ++ [StopThread.started]).length) ∨
      (s.stopThreads ++ [StopThread.started])[n]? = _ ∨ _
    rw [List.length_append, List.length_singleton] at hn ⊢
    by_cases hnew : n = s.stopThreads.length
    · exact Or.inl ⟨rfl, by rw [hnew]⟩
    · have hold : n < s.stopThreads.length := by omega
      rw [List.getElem?_append_left hold]
      refine Or.inr ((h.closed ?_ n hold).resolve_left fun hrecording => ?_)
      · rw [hphase]
        decide
      · rw [hphase] at hrecording
        cases hrecording.1

theorem step_tied {s : RecordLoop} (h : s.Tied) (l : Label) : (s.step l).Tied := by
  have hmain : ∀ t, MainMoves s t → t.Tied := by
    intro t hmoves
    cases hmoves with
    | quiet hquiet => exact h.frame hquiet.toFrame
    | asks => exact ask_main_tied h
    | engages hphase => exact engaged_tied h hphase
    | iterates hphase elapsed => exact iterate_tied h hphase elapsed
  cases l with
  | enter e k => exact enter_tied h e k
  | thread n => exact thread_tied h n
  | _ => exact hmain _ (mainStep_moves s _)

theorem init_tied (targetEpisodes : ℤ) (maxDurationS : Option ℚ) :
    (init targetEpisodes maxDurationS).Tied :=
  ⟨fun _ hn => absurd hn List.not_mem_nil, fun _ _ hn => absurd hn (Nat.not_lt_zero _)⟩

/-! ## Deliveries -/

theorem choose_input (s : RecordLoop) (text : String) : (s.choose text).input = s.input := by
  unfold choose
  cases gateChoice text with
  | _ => rfl

theorem answer_input (s : RecordLoop) (e : Entry) :
    (s.answer e).input = s.input ∨ (s.answer e).input = s.input.leave .main := by
  cases e with
  | eof => exact Or.inr rfl
  | line text =>
    unfold answer
    cases s.phase with
    | gate => exact Or.inl (choose_input s text)
    | _ => exact Or.inl rfl

/-- What a reader does with an entry delivers and queues nothing. -/
theorem receive_input (s : RecordLoop) (r : Reader) (e : Entry) :
    (s.receive r e).input.delivered = s.input.delivered ∧
      (s.receive r e).input.entries = s.input.entries := by
  cases r with
  | main =>
    change (s.answer e).input.delivered = _ ∧ (s.answer e).input.entries = _
    rcases answer_input s e with h | h
    · rw [h]
      exact ⟨rfl, rfl⟩
    · rw [h]
      exact ⟨rfl, rfl⟩
  | stop n => exact ⟨rfl, rfl⟩

theorem enter_of_receiver {s : RecordLoop} {k : ℕ} {r : Reader}
    (h : s.input.receiver k = some r) (e : Entry) :
    s.enter e k = { s with input := s.input.give r e }.receive r e := by
  unfold enter
  rw [h, SharedInput.enter_of_receiver h]

/-- A reader that is picked is given the line. -/
theorem delivered_enter {s : RecordLoop} {k : ℕ} {r : Reader}
    (h : s.input.receiver k = some r) (e : Entry) :
    (s.step (.enter e k)).input.delivered = s.input.delivered ++ [(r, e)] := by
  change (s.enter e k).input.delivered = _
  rw [enter_of_receiver h]
  exact (receive_input _ r e).1

/-! ## Every entry is read once, in order -/

def Label.entry? : Label → Option Entry
  | .enter entry _ => some entry
  | _ => none

theorem ask_entries (s : RecordLoop) (r : Reader) :
    (s.ask r).input.entries = s.input.entries := by
  have hasked : ∀ t : RecordLoop, t.input = (s.input.ask r).1 →
      t.input.entries = s.input.entries := by
    intro t ht
    rw [ht]
    exact SharedInput.ask_entries s.input r
  unfold ask
  cases (s.input.ask r).2 with
  | none => exact hasked _ rfl
  | some e => exact (receive_input _ r e).2.trans (hasked _ rfl)

theorem enter_entries (s : RecordLoop) (e : Entry) (k : ℕ) :
    (s.enter e k).input.entries = s.input.entries ++ [e] := by
  have hentered := SharedInput.enter_entries s.input e k
  unfold enter
  cases s.input.receiver k with
  | none => exact hentered
  | some r => exact (receive_input _ r e).2.trans hentered

theorem thread_entries (s : RecordLoop) (n : ℕ) :
    (s.thread n).input.entries = s.input.entries := by
  unfold thread
  split
  · exact ask_entries _ _
  · rfl
  · rfl

theorem iterate_entries (s : RecordLoop) (elapsed : ℚ) :
    (s.iterate elapsed).input.entries = s.input.entries := by
  unfold iterate
  split
  · rfl
  · split
    · rfl
    · rfl

theorem step_entries (s : RecordLoop) (l : Label) :
    (s.step l).input.entries = s.input.entries ++ l.entry?.toList := by
  have hmain : ∀ t, MainMoves s t → t.input.entries = s.input.entries ++ [] := by
    intro t hmoves
    rw [List.append_nil]
    cases hmoves with
    | quiet hquiet => exact hquiet.entries
    | asks => exact ask_entries s .main
    | engages hphase => rfl
    | iterates hphase elapsed => exact iterate_entries s elapsed
  cases l with
  | enter e k => exact enter_entries s e k
  | thread n =>
    change _ = s.input.entries ++ []
    rw [List.append_nil]
    exact thread_entries s n
  | _ => exact hmain _ (mainStep_moves s _)

/-- What has been read in a run, and what is still queued, is what was entered. -/
theorem run_entries (targetEpisodes : ℤ) (maxDurationS : Option ℚ) (ls : List Label) :
    (run step (init targetEpisodes maxDurationS) ls).input.entries =
      ls.filterMap Label.entry? :=
  @run_collect_filterMap _ _ step _ (fun s => s.input.entries) _ step_entries
    (init targetEpisodes maxDurationS) ls

end PhysicalAiRuntime.Apps.RecordLoop
