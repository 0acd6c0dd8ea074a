import PhysicalAiRuntime.Apps.StopThreads

/-! What `record.py` leaves behind: the episodes it counts as saved and the directories it removes,
against the directories that the recorder finalized in the run. -/
namespace PhysicalAiRuntime.Apps.RecordLoop
open Trace
set_option autoImplicit false
set_option maxHeartbeats 250000

/-- The recordings that a step learns the directory of, by number. -/
def finalized (s : RecordLoop) : Label → List (ℕ × EpisodePath)
  | .concluded episodePath isDir =>
    if s.phase = .releasing then
      match finalizedEpisodeDirectory episodePath isDir with
      | .ok path => [(s.recording, path)]
      | .error _ => []
    else []
  | _ => []

/-- The directory of the latest recording is known, and its episode is not decided on. -/
def Phase.isPending : Phase → Bool
  | .gate | .replaying | .discarding => true
  | _ => false

/-- A recording was started, and its directory is not known. -/
def Phase.isUnderway : Phase → Bool
  | .recording | .releasing => true
  | _ => false

/-- The loop is inside an episode. -/
def Phase.isEpisode : Phase → Bool
  | .joining | .quitting | .ended => false
  | _ => true

/-- What no step changes but those that say so. -/
structure Stays (s t : RecordLoop) : Prop where
  saved : t.savedEpisodes = s.savedEpisodes
  removed : t.removed = s.removed
  count : t.stopThreads.length = s.stopThreads.length
  target : t.targetEpisodes = s.targetEpisodes
  index : t.currentEpIdx = s.currentEpIdx
  known : t.lastRecordedPath = s.lastRecordedPath

theorem Stays.refl (s : RecordLoop) : Stays s s := ⟨rfl, rfl, rfl, rfl, rfl, rfl⟩

/-- What a step does to the recordings, the saved episodes and the removed directories, where it
learns the directories of `done`. -/
inductive DatasetMoves (s t : RecordLoop) : List (ℕ × EpisodePath) → Prop where
  | keeps (stays : Stays s t) (pending : t.phase.isPending → s.phase.isPending)
      (underway : t.phase.isUnderway → s.phase.isUnderway)
      (episode : t.phase.isEpisode → s.phase.isEpisode ∨ s.currentEpIdx ≤ s.targetEpisodes)
      (ended : s.phase = .ended → t.phase = .ended) : DatasetMoves s t []
  | readies (saved : t.savedEpisodes = s.savedEpisodes) (removed : t.removed = s.removed)
      (count : t.stopThreads.length = s.stopThreads.length)
      (target : t.targetEpisodes = s.targetEpisodes) (index : t.currentEpIdx = s.currentEpIdx)
      (phase : s.phase = .ready) (next : t.phase = .engaging) : DatasetMoves s t []
  | starts (saved : t.savedEpisodes = s.savedEpisodes) (removed : t.removed = s.removed)
      (count : t.stopThreads.length = s.stopThreads.length + 1)
      (target : t.targetEpisodes = s.targetEpisodes) (index : t.currentEpIdx = s.currentEpIdx)
      (phase : s.phase = .engaging) (next : t.phase = .recording) : DatasetMoves s t []
  | concludes (path : EpisodePath) (known : t.lastRecordedPath = some path)
      (saved : t.savedEpisodes = s.savedEpisodes) (removed : t.removed = s.removed)
      (count : t.stopThreads.length = s.stopThreads.length)
      (target : t.targetEpisodes = s.targetEpisodes) (index : t.currentEpIdx = s.currentEpIdx)
      (phase : s.phase = .releasing) (next : t.phase = .gate ∨ t.phase = .ended) :
      DatasetMoves s t [(s.recording, path)]
  | saves (saved : t.savedEpisodes = s.savedEpisodes ++ [⟨s.recording, s.lastRecordedPath⟩])
      (removed : t.removed = s.removed) (count : t.stopThreads.length = s.stopThreads.length)
      (target : t.targetEpisodes = s.targetEpisodes) (index : t.currentEpIdx = s.currentEpIdx + 1)
      (phase : s.phase = .gate) (next : t.phase = .joining) : DatasetMoves s t []
  | removes (path : EpisodePath) (known : s.lastRecordedPath = some path)
      (saved : t.savedEpisodes = s.savedEpisodes) (removed : t.removed = s.removed ++ [path])
      (count : t.stopThreads.length = s.stopThreads.length)
      (target : t.targetEpisodes = s.targetEpisodes) (index : t.currentEpIdx = s.currentEpIdx)
      (phase : s.phase = .discarding) (next : t.phase = .joining) : DatasetMoves s t []
  | quits (saved : t.savedEpisodes = s.savedEpisodes) (removed : t.removed = s.removed)
      (count : t.stopThreads.length = s.stopThreads.length) 
      (target : t.targetEpisodes = s.targetEpisodes) (next : t.phase = .ended) : DatasetMoves s t []

theorem DatasetMoves.refl (s : RecordLoop) : DatasetMoves s s [] :=
  .keeps (Stays.refl s) id id Or.inl id

theorem finish_moves (s : RecordLoop) : DatasetMoves s s.finish [] :=
  .quits rfl rfl rfl rfl rfl

theorem choose_moves {s : RecordLoop} (hgate : s.phase = .gate) (text : String) :
    DatasetMoves s (s.choose text) [] := by
  have hstays : ∀ phase : Phase, phase.isUnderway = false →
      DatasetMoves s { s with phase := phase } [] := by
    intro phase hphase
    refine .keeps ⟨rfl, rfl, rfl, rfl, rfl, rfl⟩ (fun _ => by rw [hgate]; rfl) (fun h => ?_)
      (fun _ => Or.inl (by rw [hgate]; rfl)) fun h => ?_
    · rw [hphase] at h
      cases h
    · rw [hgate] at h
      cases h
  unfold choose
  cases gateChoice text with
  | save => exact .saves rfl rfl rfl rfl rfl hgate rfl
  | discard => exact hstays .discarding rfl
  | replay => exact hstays .replaying rfl
  | quit => exact hstays .quitting rfl
  | unknown => exact .refl s

theorem answer_moves (s : RecordLoop) (e : Entry) : DatasetMoves s (s.answer e) [] := by
  cases e with
  | eof => exact finish_moves s
  | line text =>
    unfold answer
    cases hphase : s.phase with
    | ready => exact .readies rfl rfl rfl rfl rfl hphase rfl
    | gate => exact choose_moves hphase text
    | _ => exact .refl s

theorem receive_moves (s : RecordLoop) (r : Reader) (e : Entry) :
    DatasetMoves s (s.receive r e) [] := by
  cases r with
  | main => exact answer_moves s e
  | stop n => exact .keeps ⟨rfl, rfl, List.length_set, rfl, rfl, rfl⟩ id id Or.inl id

/-- What is moved from does not depend on the input or on how far the threads are. -/
theorem DatasetMoves.of_same {s s' t : RecordLoop} {done : List (ℕ × EpisodePath)}
    (h : DatasetMoves s' t done) (hs : Stays s s') (hphase : s'.phase = s.phase) :
    DatasetMoves s t done := by
  have hrecording : s'.recording = s.recording := by
    unfold recording
    rw [hs.count]
  cases h with
  | keeps stays pending underway episode ended =>
    refine .keeps ⟨stays.saved.trans hs.saved, stays.removed.trans hs.removed,
      stays.count.trans hs.count, stays.target.trans hs.target, stays.index.trans hs.index,
      stays.known.trans hs.known⟩ ?_ ?_ ?_ ?_
    · exact hphase ▸ pending
    · exact hphase ▸ underway
    · rw [← hphase, ← hs.index, ← hs.target]
      exact episode
    · exact hphase ▸ ended
  | readies saved removed count target index phase next =>
    exact .readies (saved.trans hs.saved) (removed.trans hs.removed) (count.trans hs.count)
      (target.trans hs.target) (index.trans hs.index) (hphase.symm.trans phase) next
  | starts saved removed count target index phase next =>
    exact .starts (saved.trans hs.saved) (removed.trans hs.removed) (by rw [count, hs.count])
      (target.trans hs.target) (index.trans hs.index) (hphase.symm.trans phase) next
  | concludes path known saved removed count target index phase next =>
    rw [hrecording]
    exact .concludes path known (saved.trans hs.saved) (removed.trans hs.removed)
      (count.trans hs.count) (target.trans hs.target) (index.trans hs.index)
      (hphase.symm.trans phase) next
  | saves saved removed count target index phase next =>
    exact .saves (by rw [saved, hs.saved, hs.known, hrecording]) (removed.trans hs.removed)
      (count.trans hs.count) (target.trans hs.target) (by rw [index, hs.index])
      (hphase.symm.trans phase) next
  | removes path known saved removed count target index phase next =>
    exact .removes path (hs.known.symm.trans known) (saved.trans hs.saved)
      (by rw [removed, hs.removed]) (count.trans hs.count) (target.trans hs.target)
      (index.trans hs.index) (hphase.symm.trans phase) next
  | quits saved removed count target next =>
    exact .quits (saved.trans hs.saved) (removed.trans hs.removed) (count.trans hs.count)
      (target.trans hs.target) next

theorem ask_moves (s : RecordLoop) (r : Reader) : DatasetMoves s (s.ask r) [] := by
  unfold ask
  cases (s.input.ask r).2 with
  | none => exact .keeps ⟨rfl, rfl, rfl, rfl, rfl, rfl⟩ id id Or.inl id
  | some e => exact (receive_moves _ r e).of_same ⟨rfl, rfl, rfl, rfl, rfl, rfl⟩ rfl

theorem thread_moves (s : RecordLoop) (n : ℕ) : DatasetMoves s (s.thread n) [] := by
  unfold thread
  split
  · exact (ask_moves _ _).of_same ⟨rfl, rfl, List.length_set, rfl, rfl, rfl⟩ rfl
  · exact .keeps ⟨rfl, rfl, List.length_set, rfl, rfl, rfl⟩ id id Or.inl id
  · exact .refl s

theorem iterate_moves {s : RecordLoop} (hphase : s.phase = .recording) (elapsed : ℚ) :
    DatasetMoves s (s.iterate elapsed) [] := by
  have hunderway : s.phase.isUnderway = true := by
    rw [hphase]
    rfl
  have hepisode : s.phase.isEpisode = true := by
    rw [hphase]
    rfl
  have hended : s.phase ≠ .ended := by
    rw [hphase]
    decide
  unfold iterate
  split
  · exact .keeps ⟨rfl, rfl, rfl, rfl, rfl, rfl⟩ (fun h => by cases h) (fun _ => hunderway)
      (fun _ => Or.inl hepisode) fun h => absurd h hended
  · split
    · exact .keeps ⟨rfl, rfl, rfl, rfl, rfl, rfl⟩ (fun h => by cases h) (fun _ => hunderway)
        (fun _ => Or.inl hepisode) fun h => absurd h hended
    · exact .keeps ⟨rfl, rfl, rfl, rfl, rfl, rfl⟩ id id Or.inl id

theorem nextEpisode_moves {s : RecordLoop} (hphase : s.phase = .joining) :
    DatasetMoves s s.nextEpisode [] := by
  unfold nextEpisode
  by_cases hle : s.currentEpIdx ≤ s.targetEpisodes
  · rw [if_pos hle]
    exact .keeps ⟨rfl, rfl, rfl, rfl, rfl, rfl⟩ (fun h => by cases h) (fun h => by cases h)
      (fun _ => Or.inr hle) fun h => absurd (hphase.symm.trans h) (by decide)
  · rw [if_neg hle]
    exact .quits rfl rfl rfl rfl rfl

theorem concluded_moves {s : RecordLoop} (hphase : s.phase = .releasing)
    (episodePath : Option EpisodePath) (isDir : Bool) :
    DatasetMoves s (s.concluded episodePath isDir) (finalized s (.concluded episodePath isDir)) := by
  simp only [concluded, finalized, if_pos hphase]
  cases finalizedEpisodeDirectory episodePath isDir with
  | error e => exact finish_moves s
  | ok path =>
    by_cases helapsed : s.elapsed.isSome = true
    · simp only [if_pos helapsed]
      exact .concludes path rfl rfl rfl rfl rfl rfl hphase (Or.inl rfl)
    · simp only [if_neg helapsed]
      exact .concludes path rfl rfl rfl rfl rfl rfl hphase (Or.inr rfl)

theorem cleaned_moves {s : RecordLoop} (hphase : s.phase = .discarding) (isDir : Bool) :
    DatasetMoves s (s.cleaned isDir) [] := by
  have hjoins : DatasetMoves s { s with phase := .joining } [] :=
    .keeps ⟨rfl, rfl, rfl, rfl, rfl, rfl⟩ (fun h => by cases h) (fun h => by cases h)
      (fun h => by cases h) fun h => absurd (hphase.symm.trans h) (by decide)
  unfold cleaned
  split
  · next path hpath =>
    split
    · exact .removes path hpath rfl rfl rfl rfl rfl hphase rfl
    · exact hjoins
  · exact hjoins

theorem mainStep_dataset (s : RecordLoop) (l : Label) :
    DatasetMoves s (s.mainStep l) (finalized s l) := by
  have hnothing : ∀ k, s.phase ≠ .releasing → finalized s k = [] := by
    intro k hphase
    unfold finalized
    split
    · exact if_neg hphase
    · rfl
  unfold mainStep
  split
  · next hended =>
    rw [hnothing _ (by rw [hended]; decide)]
    exact .refl s
  · exact finish_moves s
  · next hstaging =>
    exact .keeps ⟨rfl, rfl, rfl, rfl, rfl, rfl⟩ (fun h => by cases h) (fun h => by cases h)
      (fun _ => Or.inl (by rw [hstaging]; rfl)) fun h => absurd (hstaging.symm.trans h) (by decide)
  · exact ask_moves s .main
  · next hengaging => exact .starts rfl rfl List.length_append rfl rfl hengaging rfl
  · exact finish_moves s
  · next elapsed hrecording => exact iterate_moves hrecording elapsed
  · next hreleasing => exact concluded_moves hreleasing _ _
  · exact ask_moves s .main
  · next hdiscarding => exact cleaned_moves hdiscarding _
  · next hjoining => exact nextEpisode_moves hjoining
  · next hreplaying =>
    exact .keeps ⟨rfl, rfl, rfl, rfl, rfl, rfl⟩ (fun _ => by rw [hreplaying]; rfl)
      (fun h => by cases h) (fun _ => Or.inl (by rw [hreplaying]; rfl))
      fun h => absurd (hreplaying.symm.trans h) (by decide)
  · next hquitting =>
    have hend : ({ s with currentEpIdx := s.targetEpisodes + 1 } : RecordLoop).nextEpisode.phase =
        .ended := by
      unfold nextEpisode
      rw [if_neg (by simp)]
    refine .quits ?_ ?_ ?_ ?_ hend <;> (unfold nextEpisode; rfl)
  · next k _ _ _ _ _ _ _ _ _ hconcluded _ _ _ _ _ =>
    have hnone : finalized s k = [] := by
      cases k with
      | concluded episodePath isDir =>
        exact if_neg fun hphase => hconcluded episodePath isDir hphase rfl
      | _ => rfl
    rw [hnone]
    exact .refl s

theorem step_dataset (s : RecordLoop) (l : Label) :
    DatasetMoves s (s.step l) (finalized s l) := by
  cases l with
  | enter e k =>
    change DatasetMoves s (s.enter e k) []
    unfold enter
    cases s.input.receiver k with
    | none => exact .keeps ⟨rfl, rfl, rfl, rfl, rfl, rfl⟩ id id Or.inl id
    | some r => exact (receive_moves _ r e).of_same ⟨rfl, rfl, rfl, rfl, rfl, rfl⟩ rfl
  | thread n => exact thread_moves s n
  | _ => exact mainStep_dataset s _

/-! ## What is kept -/

/-- The state against the directories that were finalized so far, `removed` being the recordings
whose directory was removed. -/
structure Kept (s : RecordLoop) (done : List (ℕ × EpisodePath)) (removed : List ℕ) : Prop where
  begun : ∀ x ∈ done, x.1 < s.stopThreads.length
  ordered : (done.map Prod.fst).Pairwise (· < ·)
  underway : s.phase.isUnderway → 0 < s.stopThreads.length ∧
    ∀ x ∈ done, x.1 + 1 < s.stopThreads.length
  pending : s.phase.isPending → ∃ path, s.lastRecordedPath = some path ∧
    (s.recording, path) ∈ done ∧ 0 < s.stopThreads.length
  saved : ∀ e ∈ s.savedEpisodes, ∃ path, e.path = some path ∧ (e.recording, path) ∈ done
  savedOrdered : (s.savedEpisodes.map SavedEpisode.recording).Pairwise (· < ·)
  undecided : s.phase.isPending → s.recording ∉ removed ∧
    ∀ e ∈ s.savedEpisodes, e.recording < s.recording
  gone : ∀ path ∈ s.removed, ∃ n ∈ removed, (n, path) ∈ done
  parted : ∀ n ∈ removed, n ∈ done.map Prod.fst ∧ ∀ e ∈ s.savedEpisodes, e.recording ≠ n
  counted : s.savedEpisodes.length ≤ s.targetEpisodes.toNat
  indexed : s.phase ≠ .ended → s.currentEpIdx = s.savedEpisodes.length + 1
  within : s.phase.isEpisode → s.currentEpIdx ≤ s.targetEpisodes

theorem kept_init (targetEpisodes : ℤ) (maxDurationS : Option ℚ) :
    Kept (init targetEpisodes maxDurationS) [] [] := by
  have hphase : (init targetEpisodes maxDurationS).phase =
      if 1 ≤ targetEpisodes then .staging else .ended := rfl
  have hclosed : (init targetEpisodes maxDurationS).phase.isUnderway = false ∧
      (init targetEpisodes maxDurationS).phase.isPending = false := by
    rw [hphase]
    split <;> exact ⟨rfl, rfl⟩
  refine ⟨fun _ hx => (by cases hx), List.Pairwise.nil, fun h => ?_, fun h => ?_,
    fun _ he => (by cases he), List.Pairwise.nil, fun h => ?_, fun _ hp => (by cases hp),
    fun _ hn => (by cases hn), Nat.zero_le _, fun _ => rfl, fun h => ?_⟩
  · rw [hclosed.1] at h
    cases h
  · rw [hclosed.2] at h
    cases h
  · rw [hclosed.2] at h
    cases h
  · rw [hphase] at h
    by_cases hle : 1 ≤ targetEpisodes
    · exact hle
    · rw [if_neg hle] at h
      cases h

/-- Nothing is required of a phase that is not of the kind. -/
theorem phase_absurd {kind : Phase → Bool} {p q : Phase} {P : Prop} (h : p = q)
    (hq : kind q = false) (hp : kind p = true) : P := by
  rw [h, hq] at hp
  cases hp

theorem kept_moves {s t : RecordLoop} {done out : List (ℕ × EpisodePath)} {removed : List ℕ}
    (h : Kept s done removed) (hmoves : DatasetMoves s t out) :
    ∃ removed', Kept t (done ++ out) removed' := by
  have hrecording : t.stopThreads.length = s.stopThreads.length → t.recording = s.recording :=
    fun hcount => by rw [recording, recording, hcount]
  cases hmoves with
  | keeps stays pending underway episode ended =>
    refine ⟨removed, ?_⟩
    rw [List.append_nil]
    obtain ⟨hsaved, hremoved, hcount, htarget, hindex, hknown⟩ := stays
    refine ⟨?_, h.ordered, fun hu => ?_, fun hp => ?_, ?_, ?_, fun hp => ?_, ?_, ?_, ?_,
      fun hne => ?_, fun he => ?_⟩
    · rw [hcount]
      exact h.begun
    · rw [hcount]
      exact h.underway (underway hu)
    · rw [hknown, hcount, hrecording hcount]
      exact h.pending (pending hp)
    · rw [hsaved]
      exact h.saved
    · rw [hsaved]
      exact h.savedOrdered
    · rw [hsaved, hrecording hcount]
      exact h.undecided (pending hp)
    · rw [hremoved]
      exact h.gone
    · rw [hsaved]
      exact h.parted
    · rw [hsaved, htarget]
      exact h.counted
    · rw [hsaved, hindex]
      exact h.indexed fun hs => hne (ended hs)
    · rw [hindex, htarget]
      exact (episode he).elim h.within id
  | readies hsaved hremoved hcount htarget hindex phase next =>
    refine ⟨removed, ?_⟩
    rw [List.append_nil]
    refine ⟨by rw [hcount]; exact h.begun, h.ordered, phase_absurd next rfl,
      phase_absurd next rfl, by rw [hsaved]; exact h.saved, by rw [hsaved]; exact h.savedOrdered,
      phase_absurd next rfl, by rw [hremoved]; exact h.gone, by rw [hsaved]; exact h.parted,
      by rw [hsaved, htarget]; exact h.counted, fun _ => ?_, fun _ => ?_⟩
    · rw [hsaved, hindex]
      exact h.indexed (by rw [phase]; decide)
    · rw [hindex, htarget]
      exact h.within (by rw [phase]; rfl)
  | starts hsaved hremoved hcount htarget hindex phase next =>
    refine ⟨removed, ?_⟩
    rw [List.append_nil]
    refine ⟨?_, h.ordered, fun _ => ?_, phase_absurd next rfl, by rw [hsaved]; exact h.saved,
      by rw [hsaved]; exact h.savedOrdered, phase_absurd next rfl, by rw [hremoved]; exact h.gone,
      by rw [hsaved]; exact h.parted, by rw [hsaved, htarget]; exact h.counted, fun _ => ?_,
      fun _ => ?_⟩
    · rw [hcount]
      exact fun x hx => Nat.lt_succ_of_lt (h.begun x hx)
    · rw [hcount]
      exact ⟨Nat.succ_pos _, fun x hx => Nat.succ_lt_succ (h.begun x hx)⟩
    · rw [hsaved, hindex]
      exact h.indexed (by rw [phase]; decide)
    · rw [hindex, htarget]
      exact h.within (by rw [phase]; rfl)
  | concludes path hknown hsaved hremoved hcount htarget hindex phase next =>
    refine ⟨removed, ?_⟩
    obtain ⟨hpos, hearlier⟩ := h.underway (by rw [phase]; rfl)
    have hbefore : ∀ x ∈ done, x.1 < s.recording := by
      intro x hx
      have hx := hearlier x hx
      unfold recording
      omega
    have hclosed : t.phase.isUnderway = false := by
      rcases next with hn | hn <;> rw [hn] <;> rfl
    refine ⟨?_, ?_, fun hu => ?_, fun _ => ?_, ?_, by rw [hsaved]; exact h.savedOrdered,
      fun _ => ⟨fun hmem => ?_, ?_⟩, ?_, ?_, by rw [hsaved, htarget]; exact h.counted,
      fun _ => ?_, fun _ => ?_⟩
    · rw [hcount]
      intro x hx
      rcases List.mem_append.mp hx with hold | hnew
      · exact h.begun x hold
      · rw [List.mem_singleton.mp hnew]
        exact Nat.sub_lt hpos Nat.one_pos
    · rw [List.map_append, List.pairwise_append]
      refine ⟨h.ordered, List.pairwise_singleton _ _, fun n hn m hm => ?_⟩
      obtain ⟨x, hx, rfl⟩ := List.mem_map.mp hn
      rw [List.map_singleton, List.mem_singleton] at hm
      rw [hm]
      exact hbefore x hx
    · rw [hclosed] at hu
      cases hu
    · rw [hrecording hcount, hcount]
      exact ⟨path, hknown, List.mem_append_right _ (List.mem_singleton.mpr rfl), hpos⟩
    · rw [hsaved]
      intro e he
      obtain ⟨p, hp, hmem⟩ := h.saved e he
      exact ⟨p, hp, List.mem_append_left _ hmem⟩
    · rw [hrecording hcount] at hmem
      obtain ⟨x, hx, he⟩ := List.mem_map.mp (h.parted _ hmem).1
      exact absurd he (Nat.ne_of_lt (hbefore x hx))
    · rw [hsaved, hrecording hcount]
      intro e he
      obtain ⟨p, -, hmem⟩ := h.saved e he
      exact hbefore _ hmem
    · rw [hremoved]
      intro p hp
      obtain ⟨n, hn, hmem⟩ := h.gone p hp
      exact ⟨n, hn, List.mem_append_left _ hmem⟩
    · rw [hsaved]
      intro n hn
      refine ⟨?_, (h.parted n hn).2⟩
      rw [List.map_append]
      exact List.mem_append_left _ (h.parted n hn).1
    · rw [hsaved, hindex]
      exact h.indexed (by rw [phase]; decide)
    · rw [hindex, htarget]
      exact h.within (by rw [phase]; rfl)
  | saves hsaved hremoved hcount htarget hindex phase next =>
    refine ⟨removed, ?_⟩
    rw [List.append_nil]
    obtain ⟨path, hpath, hdone, -⟩ := h.pending (by rw [phase]; rfl)
    obtain ⟨hkept, hlast⟩ := h.undecided (by rw [phase]; rfl)
    have hnumber := h.indexed (by rw [phase]; decide)
    have hwithin := h.within (by rw [phase]; rfl)
    refine ⟨by rw [hcount]; exact h.begun, h.ordered, phase_absurd next rfl,
      phase_absurd next rfl, ?_, ?_, phase_absurd next rfl, by rw [hremoved]; exact h.gone, ?_, ?_,
      fun _ => ?_, phase_absurd next rfl⟩
    · rw [hsaved]
      intro e he
      rcases List.mem_append.mp he with hold | hnew
      · exact h.saved e hold
      · rw [List.mem_singleton.mp hnew]
        exact ⟨path, hpath, hdone⟩
    · rw [hsaved, List.map_append, List.pairwise_append]
      refine ⟨h.savedOrdered, List.pairwise_singleton _ _, fun n hn m hm => ?_⟩
      obtain ⟨e, he, rfl⟩ := List.mem_map.mp hn
      rw [List.map_singleton, List.mem_singleton] at hm
      rw [hm]
      exact hlast e he
    · rw [hsaved]
      intro n hn
      refine ⟨(h.parted n hn).1, fun e he => ?_⟩
      rcases List.mem_append.mp he with hold | hnew
      · exact (h.parted n hn).2 e hold
      · rw [List.mem_singleton.mp hnew]
        intro heq
        have heq : s.recording = n := heq
        rw [heq] at hkept
        exact hkept hn
    · rw [hsaved, htarget, List.length_append, List.length_singleton]
      omega
    · rw [hsaved, hindex, hnumber, List.length_append, List.length_singleton]
      push_cast
      omega
  | removes path hknown hsaved hremoved hcount htarget hindex phase next =>
    refine ⟨removed ++ [s.recording], ?_⟩
    rw [List.append_nil]
    obtain ⟨path', hpath, hdone, -⟩ := h.pending (by rw [phase]; rfl)
    obtain rfl : path' = path := Option.some.inj (hpath.symm.trans hknown)
    obtain ⟨-, hlast⟩ := h.undecided (by rw [phase]; rfl)
    refine ⟨by rw [hcount]; exact h.begun, h.ordered, phase_absurd next rfl,
      phase_absurd next rfl, by rw [hsaved]; exact h.saved, by rw [hsaved]; exact h.savedOrdered,
      phase_absurd next rfl, ?_, ?_, by rw [hsaved, htarget]; exact h.counted, fun _ => ?_,
      phase_absurd next rfl⟩
    · rw [hremoved]
      intro p hp
      rcases List.mem_append.mp hp with hold | hnew
      · obtain ⟨n, hn, hmem⟩ := h.gone p hold
        exact ⟨n, List.mem_append_left _ hn, hmem⟩
      · rw [List.mem_singleton.mp hnew]
        exact ⟨s.recording, List.mem_append_right _ (List.mem_singleton.mpr rfl), hdone⟩
    · rw [hsaved]
      intro n hn
      rcases List.mem_append.mp hn with hold | hnew
      · exact h.parted n hold
      · rw [List.mem_singleton.mp hnew]
        exact ⟨List.mem_map_of_mem hdone, fun e he => Nat.ne_of_lt (hlast e he)⟩
    · rw [hsaved, hindex]
      exact h.indexed (by rw [phase]; decide)
  | quits hsaved hremoved hcount htarget next =>
    refine ⟨removed, ?_⟩
    rw [List.append_nil]
    exact ⟨by rw [hcount]; exact h.begun, h.ordered, phase_absurd next rfl,
      phase_absurd next rfl, by rw [hsaved]; exact h.saved, by rw [hsaved]; exact h.savedOrdered,
      phase_absurd next rfl, by rw [hremoved]; exact h.gone, by rw [hsaved]; exact h.parted,
      by rw [hsaved, htarget]; exact h.counted, fun hne => absurd next hne,
      phase_absurd next rfl⟩

theorem kept_run {s : RecordLoop} {done : List (ℕ × EpisodePath)} {removed : List ℕ}
    (h : Kept s done removed) (ls : List Label) :
    ∃ removed', Kept (run step s ls) (done ++ outputs step finalized s ls) removed' := by
  induction ls generalizing s done removed with
  | nil =>
    refine ⟨removed, ?_⟩
    rw [outputs_nil, List.append_nil]
    exact h
  | cons l ls ih =>
    obtain ⟨removed', hstep⟩ := kept_moves h (step_dataset s l)
    obtain ⟨removed'', hrun⟩ := ih hstep
    refine ⟨removed'', ?_⟩
    rw [outputs_cons, ← List.append_assoc]
    exact hrun

theorem step_target (s : RecordLoop) (l : Label) : (s.step l).targetEpisodes = s.targetEpisodes := by
  have hmoves := step_dataset s l
  generalize finalized s l = out at hmoves
  cases hmoves with
  | keeps stays pending underway episode ended => exact stays.target
  | readies saved removed count target index phase next => exact target
  | starts saved removed count target index phase next => exact target
  | concludes path known saved removed count target index phase next => exact target
  | saves saved removed count target index phase next => exact target
  | removes path known saved removed count target index phase next => exact target
  | quits saved removed count target next => exact target

/-- **The dataset.** In every run of the recording loop: no more episodes are saved than were asked
for, each from a recording of its own and with the directory that the recorder finalized for it; and
the directories that are removed are those of recordings that are not saved, then or later. So no
saved directory is removed, where the recorder finalizes each recording in a directory of its own. -/
theorem dataset_kept (targetEpisodes : ℤ) (maxDurationS : Option ℚ) (ls : List Label) :
    let s := run step (init targetEpisodes maxDurationS) ls
    let done := outputs step finalized (init targetEpisodes maxDurationS) ls
    s.savedEpisodes.length ≤ targetEpisodes.toNat ∧
    (s.savedEpisodes.map SavedEpisode.recording).Pairwise (· < ·) ∧
    (∀ e ∈ s.savedEpisodes, ∃ path, e.path = some path ∧ (e.recording, path) ∈ done) ∧
    (∀ path ∈ s.removed, ∃ n, (n, path) ∈ done ∧ ∀ e ∈ s.savedEpisodes, e.recording ≠ n) ∧
    ((done.map Prod.snd).Nodup →
      ∀ e ∈ s.savedEpisodes, ∀ path ∈ s.removed, e.path ≠ some path) := by
  intro s done
  obtain ⟨removed, h⟩ := kept_run (kept_init targetEpisodes maxDurationS) ls
  rw [List.nil_append] at h
  have htarget : s.targetEpisodes = targetEpisodes :=
    run_invariant' (fun s => s.targetEpisodes = targetEpisodes)
      (fun s l hs => (step_target s l).trans hs) rfl ls
  have hgone : ∀ path ∈ s.removed, ∃ n, (n, path) ∈ done ∧
      ∀ e ∈ s.savedEpisodes, e.recording ≠ n := by
    intro path hpath
    obtain ⟨n, hn, hmem⟩ := h.gone path hpath
    exact ⟨n, hmem, (h.parted n hn).2⟩
  refine ⟨htarget ▸ h.counted, h.savedOrdered, h.saved, hgone, fun hnodup e he path hpath heq => ?_⟩
  obtain ⟨n, hmem, hne⟩ := hgone path hpath
  obtain ⟨path', hpath', hmem'⟩ := h.saved e he
  obtain rfl : path' = path := Option.some.inj (hpath'.symm.trans heq)
  have hsame := List.inj_on_of_nodup_map hnodup hmem hmem' rfl
  exact hne e he (congrArg Prod.fst hsame).symm

end PhysicalAiRuntime.Apps.RecordLoop
