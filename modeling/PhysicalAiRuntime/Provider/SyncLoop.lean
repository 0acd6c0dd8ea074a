import Mathlib.Data.List.Nodup
import Mathlib.Logic.Function.Basic
import PhysicalAiRuntime.Foundations.PyError
import PhysicalAiRuntime.Foundations.Trace

/-! The background loop that synchronous calls share. The threads that call `_run_sync`, and the
threads of the loops, take their steps in any order; what holds `_SYNC_LOOP_LOCK` is one step. Calls
and loops are numbered as they are made. -/
namespace PhysicalAiRuntime.Provider
set_option autoImplicit false
set_option maxHeartbeats 250000

/-- How far a call of `_run_sync` is. -/
inductive SyncPhase where
  /-- `_ensure_sync_loop` has returned. -/
  | ensured
  /-- `run_coroutine_threadsafe` has returned. -/
  | submitted
  /-- The loop has begun the coroutine. -/
  | started
  | completed
  /-- `future.result()` has returned. -/
  | returned
  deriving DecidableEq, Repr

/-- A call whose thread was interrupted is not resumed, but its coroutine goes on. -/
structure SyncCall where
  loop : ℕ
  phase : SyncPhase
  interrupted : Bool
  deriving DecidableEq, Repr

/-- An asyncio loop: the calls whose coroutine waits for its first step, and those it has begun. -/
structure SyncLoop where
  running : Bool
  callbacks : List ℕ
  started : List ℕ

structure SyncLoops where
  loops : ℕ → SyncLoop
  created : ℕ
  /-- `_SYNC_LOOP`. -/
  current : Option ℕ
  calls : ℕ → SyncCall
  made : ℕ

inductive SyncStep where
  | call (context : String) (insideLoop : Bool)
  /-- The thread of a loop enters `run_forever`. -/
  | runForever (k : ℕ)
  | submit (c : ℕ)
  /-- A loop takes its next callback. -/
  | turn (k : ℕ)
  | complete (c : ℕ)
  | resume (c : ℕ)
  /-- A `KeyboardInterrupt` in the thread of the call. -/
  | interrupt (c : ℕ)
  deriving DecidableEq, Repr

namespace SyncLoops

def init : SyncLoops := ⟨fun _ => ⟨false, [], []⟩, 0, none, fun _ => ⟨0, .ensured, false⟩, 0⟩

def setLoop (s : SyncLoops) (k : ℕ) (l : SyncLoop) : SyncLoops :=
  { s with loops := Function.update s.loops k l }

def setCall (s : SyncLoops) (c : ℕ) (call : SyncCall) : SyncLoops :=
  { s with calls := Function.update s.calls c call }

/-- `_ensure_sync_loop`: the loop it returns is created here, with its thread, or was before. -/
def ensureSyncLoop (s : SyncLoops) : SyncLoops × ℕ :=
  match s.current with
  | none => ({ s with created := s.created + 1, current := some s.created }, s.created)
  | some k =>
    if (s.loops k).running then (s, k)
    else ({ s with created := s.created + 1, current := some s.created }, s.created)

/-- `_run_sync` up to the return of `_ensure_sync_loop`. -/
def runSync (s : SyncLoops) (context : String) (insideLoop : Bool) : Outcome SyncLoops ℕ :=
  if insideLoop then
    (s, .error ⟨.runtimeError, context ++ " cannot run inside an asyncio loop"⟩)
  else
    let (s', k) := s.ensureSyncLoop
    ({ s'.setCall s.made ⟨k, .ensured, false⟩ with made := s.made + 1 }, .ok s.made)

def submit (s : SyncLoops) (c : ℕ) : SyncLoops :=
  let call := s.calls c
  if c < s.made ∧ call.phase = .ensured ∧ call.interrupted = false then
    let loop := s.loops call.loop
    (s.setLoop call.loop { loop with callbacks := loop.callbacks ++ [c] }).setCall c
      { call with phase := .submitted }
  else s

def turn (s : SyncLoops) (k : ℕ) : SyncLoops :=
  match s.loops k with
  | ⟨true, c :: rest, started⟩ =>
    (s.setLoop k ⟨true, rest, started ++ [c]⟩).setCall c { s.calls c with phase := .started }
  | _ => s

def step (s : SyncLoops) : SyncStep → SyncLoops
  | .call context insideLoop => (s.runSync context insideLoop).1
  | .runForever k => if k < s.created then s.setLoop k { s.loops k with running := true } else s
  | .submit c => s.submit c
  | .turn k => s.turn k
  | .complete c =>
    if (s.calls c).phase = .started then s.setCall c { s.calls c with phase := .completed } else s
  | .resume c =>
    if (s.calls c).phase = .completed ∧ (s.calls c).interrupted = false then
      s.setCall c { s.calls c with phase := .returned }
    else s
  | .interrupt c => s.setCall c { s.calls c with interrupted := true }

/-! ## What the loops hold -/

def begun : SyncPhase → Bool
  | .ensured => false
  | .submitted => false
  | _ => true

structure Inv (s : SyncLoops) : Prop where
  current : ∀ k, s.current = some k → k + 1 = s.created
  none : s.current = none → s.created = 0
  callLoop : ∀ c < s.made, (s.calls c).loop < s.created
  fresh : ∀ c, s.made ≤ c → (s.calls c).phase = .ensured
  callbacks : ∀ k c, c ∈ (s.loops k).callbacks ↔
    (s.calls c).loop = k ∧ (s.calls c).phase = .submitted
  started : ∀ k c, c ∈ (s.loops k).started ↔
    (s.calls c).loop = k ∧ begun (s.calls c).phase = true
  nodup : ∀ k, ((s.loops k).started ++ (s.loops k).callbacks).Nodup
  running : ∀ k, (s.loops k).started ≠ [] → (s.loops k).running = true

theorem inv_init : init.Inv where
  current k h := by cases h
  none _ := rfl
  callLoop c h := by cases h
  fresh _ _ := rfl
  callbacks k c := by simp [init]
  started k c := by simp [init, begun]
  nodup k := by simp [init]
  running k h := absurd rfl h

variable {s : SyncLoops}

/-- Either the current loop runs and is returned, or a new one is. -/
theorem ensureSyncLoop_cases (s : SyncLoops) :
    (∃ k, s.current = some k ∧ (s.loops k).running = true ∧ s.ensureSyncLoop = (s, k)) ∨
    ((∀ k, s.current = some k → (s.loops k).running = false) ∧ s.ensureSyncLoop =
      ({ s with created := s.created + 1, current := some s.created }, s.created)) := by
  unfold ensureSyncLoop
  cases hc : s.current with
  | none => exact Or.inr ⟨fun k h => (by cases h), rfl⟩
  | some k =>
    cases hr : (s.loops k).running with
    | true => exact Or.inl ⟨k, rfl, hr, by simp [hr]⟩
    | false =>
      refine Or.inr ⟨fun k' h => ?_, by simp [hr]⟩
      cases h
      exact hr

/-- A call changes neither the loops nor the earlier calls. -/
theorem runSync_cases (s : SyncLoops) (context : String) :
    ∃ k created, (s.runSync context false).1 =
      { s with
        created := created
        current := some k
        calls := Function.update s.calls s.made ⟨k, .ensured, false⟩
        made := s.made + 1 } ∧
      ((s.current = some k ∧ (s.loops k).running = true ∧ created = s.created) ∨
        ((∀ k, s.current = some k → (s.loops k).running = false) ∧
          k = s.created ∧ created = s.created + 1)) := by
  have hrun : (s.runSync context false).1 = { s.ensureSyncLoop.1.setCall s.made
      ⟨s.ensureSyncLoop.2, .ensured, false⟩ with made := s.made + 1 } := rfl
  rw [hrun]
  obtain ⟨k, hk, hr, he⟩ | ⟨hr, he⟩ := ensureSyncLoop_cases s
  · refine ⟨k, s.created, ?_, Or.inl ⟨hk, hr, rfl⟩⟩
    rw [he, ← hk]
    rfl
  · refine ⟨s.created, s.created + 1, ?_, Or.inr ⟨hr, rfl, rfl⟩⟩
    rw [he]
    rfl

theorem inv_call (h : s.Inv) (context : String) (insideLoop : Bool) :
    (s.runSync context insideLoop).1.Inv := by
  cases insideLoop with
  | true => exact h
  | false =>
    obtain ⟨k, created, he, hk⟩ := runSync_cases s context
    have hcreated : k + 1 = created ∧ s.created ≤ created := by
      obtain ⟨hcur, -, rfl⟩ | ⟨-, rfl, rfl⟩ := hk
      · exact ⟨h.current k hcur, Nat.le_refl _⟩
      · exact ⟨rfl, Nat.le_succ _⟩
    have hfresh := h.fresh s.made (Nat.le_refl _)
    rw [he]
    refine ⟨fun k' hk' => ?_, fun hn => (by cases hn), fun c hc => ?_, fun c hc => ?_, ?_, ?_,
      h.nodup, h.running⟩
    · cases hk'
      exact hcreated.1
    · simp only [Function.update_apply]
      by_cases hcm : c = s.made
      · simp only [hcm, if_true]
        omega
      · have hlt := h.callLoop c (Nat.lt_of_le_of_ne (Nat.le_of_lt_succ hc) hcm)
        simp only [hcm, if_false]
        omega
    · have hne : c ≠ s.made := by
        have : s.made + 1 ≤ c := hc
        omega
      simp only [Function.update_apply, hne, if_false]
      exact h.fresh c (Nat.le_of_succ_le hc)
    · intro k' c
      rw [h.callbacks]
      by_cases hcm : c = s.made
      · simp [hcm, hfresh]
      · simp [hcm]
    · intro k' c
      rw [h.started]
      by_cases hcm : c = s.made
      · simp [hcm, hfresh, begun]
      · simp [hcm]

theorem inv_runForever (h : s.Inv) (k : ℕ) : (s.step (.runForever k)).Inv := by
  change (if k < s.created then s.setLoop k { s.loops k with running := true } else s).Inv
  by_cases hk : k < s.created
  · rw [if_pos hk]
    have hloop : ∀ j, ((s.setLoop k { s.loops k with running := true }).loops j).callbacks =
        (s.loops j).callbacks ∧
        ((s.setLoop k { s.loops k with running := true }).loops j).started =
        (s.loops j).started := by
      intro j
      by_cases hj : j = k
      · subst hj
        simp [setLoop]
      · simp [setLoop, hj]
    refine ⟨h.current, h.none, h.callLoop, h.fresh, fun j c => ?_, fun j c => ?_, fun j => ?_,
      fun j hne => ?_⟩
    · rw [(hloop j).1]
      exact h.callbacks j c
    · rw [(hloop j).2]
      exact h.started j c
    · rw [(hloop j).1, (hloop j).2]
      exact h.nodup j
    · by_cases hj : j = k
      · subst hj
        simp [setLoop]
      · rw [(hloop j).2] at hne
        simpa [setLoop, hj] using h.running j hne
  · rw [if_neg hk]
    exact h

/-- A call that moves on without being begun or submitted. -/
theorem inv_setCall (h : s.Inv) {c : ℕ} {call : SyncCall} (hloop : call.loop = (s.calls c).loop)
    (hbegun : begun call.phase = begun (s.calls c).phase)
    (hsubmitted : call.phase = .submitted ↔ (s.calls c).phase = .submitted)
    (hfresh : s.made ≤ c → call.phase = .ensured) : (s.setCall c call).Inv := by
  refine ⟨h.current, h.none, fun d hd => ?_, fun d hd => ?_, fun k d => ?_, fun k d => ?_,
    h.nodup, h.running⟩
  · by_cases hdc : d = c
    · subst hdc
      simpa [setCall, hloop] using h.callLoop d hd
    · simpa [setCall, hdc] using h.callLoop d hd
  · by_cases hdc : d = c
    · subst hdc
      simpa [setCall] using hfresh hd
    · simpa [setCall, hdc] using h.fresh d hd
  · by_cases hdc : d = c
    · subst hdc
      simpa [setCall, hloop, hsubmitted] using h.callbacks k d
    · simpa [setCall, hdc] using h.callbacks k d
  · by_cases hdc : d = c
    · subst hdc
      simpa [setCall, hloop, hbegun] using h.started k d
    · simpa [setCall, hdc] using h.started k d

theorem inv_submit (h : s.Inv) (c : ℕ) : (s.submit c).Inv := by
  unfold submit
  by_cases hc : c < s.made ∧ (s.calls c).phase = .ensured ∧ (s.calls c).interrupted = false
  · simp only [if_pos hc]
    have hnot : c ∉ (s.loops (s.calls c).loop).started ++ (s.loops (s.calls c).loop).callbacks := by
      rw [List.mem_append, h.started, h.callbacks, hc.2.1]
      simp [begun]
    refine ⟨h.current, h.none, fun d hd => ?_, fun d hd => ?_, fun k d => ?_, fun k d => ?_,
      fun k => ?_, fun k => ?_⟩
    · by_cases hdc : d = c
      · subst hdc
        simpa [setCall, setLoop] using h.callLoop d hd
      · simpa [setCall, setLoop, hdc] using h.callLoop d hd
    · have hdc : d ≠ c := fun he => absurd (he ▸ hc.1) (Nat.not_lt.mpr hd)
      simpa [setCall, setLoop, hdc] using h.fresh d hd
    · have hold := h.callbacks k d
      by_cases hk : k = (s.calls c).loop
      · subst hk
        by_cases hdc : d = c
        · subst hdc
          simp [setCall, setLoop]
        · simpa [setCall, setLoop, hdc] using hold
      · by_cases hdc : d = c
        · subst hdc
          simpa [setCall, setLoop, hk, hc.2.1, Ne.symm hk] using hold
        · simpa [setCall, setLoop, hk, hdc] using hold
    · have hold := h.started k d
      by_cases hk : k = (s.calls c).loop
      · subst hk
        by_cases hdc : d = c
        · subst hdc
          simpa [setCall, setLoop, begun, hc.2.1] using hold
        · simpa [setCall, setLoop, hdc] using hold
      · by_cases hdc : d = c
        · subst hdc
          simpa [setCall, setLoop, hk, begun, hc.2.1] using hold
        · simpa [setCall, setLoop, hk, hdc] using hold
    · by_cases hk : k = (s.calls c).loop
      · subst hk
        simp only [setCall, setLoop, Function.update_self]
        rw [← List.append_assoc, List.nodup_append_comm]
        exact List.nodup_cons.mpr ⟨hnot, h.nodup _⟩
      · simpa [setCall, setLoop, hk] using h.nodup k
    · by_cases hk : k = (s.calls c).loop
      · subst hk
        simpa [setCall, setLoop] using h.running (s.calls c).loop
      · simpa [setCall, setLoop, hk] using h.running k
  · simp only [if_neg hc]
    exact h

/-- A turn does nothing, or begins the first coroutine that waits. -/
theorem turn_cases (s : SyncLoops) (k : ℕ) :
    s.turn k = s ∧ ((s.loops k).running = true → (s.loops k).callbacks = []) ∨
    ∃ c rest, (s.loops k).running = true ∧ (s.loops k).callbacks = c :: rest ∧
      s.turn k = (s.setLoop k ⟨true, rest, (s.loops k).started ++ [c]⟩).setCall c
        { s.calls c with phase := .started } := by
  unfold turn
  cases hl : s.loops k with
  | mk running callbacks started =>
    cases running with
    | false => exact Or.inl ⟨rfl, fun h => (by cases h)⟩
    | true =>
      cases callbacks with
      | nil => exact Or.inl ⟨rfl, fun _ => rfl⟩
      | cons c rest => exact Or.inr ⟨c, rest, rfl, rfl, rfl⟩

theorem inv_turn (h : s.Inv) (k : ℕ) : (s.turn k).Inv := by
  obtain ⟨he, -⟩ | ⟨c, rest, hr, hcb, he⟩ := turn_cases s k
  · rw [he]
    exact h
  · rw [he]
    have hc := (h.callbacks k c).mp (by rw [hcb]; exact List.mem_cons_self)
    have hnodup := h.nodup k
    rw [hcb] at hnodup
    have hrest : c ∉ rest := by
      have htail := (List.nodup_append.mp hnodup).2.1
      exact (List.nodup_cons.mp htail).1
    refine ⟨h.current, h.none, fun d hd => ?_, fun d hd => ?_, fun j d => ?_, fun j d => ?_,
      fun j => ?_, fun j => ?_⟩
    · by_cases hdc : d = c
      · subst hdc
        simpa [setCall, setLoop] using h.callLoop d hd
      · simpa [setCall, setLoop, hdc] using h.callLoop d hd
    · have hdc : d ≠ c := by
        intro hdc
        have hensured := h.fresh d hd
        rw [hdc, hc.2] at hensured
        cases hensured
      simpa [setCall, setLoop, hdc] using h.fresh d hd
    · have hold := h.callbacks j d
      by_cases hj : j = k
      · subst hj
        rw [hcb] at hold
        by_cases hdc : d = c
        · subst hdc
          simpa [setCall, setLoop] using hrest
        · simpa [setCall, setLoop, hdc] using hold
      · by_cases hdc : d = c
        · subst hdc
          have hne : k ≠ j := Ne.symm hj
          simpa [setCall, setLoop, hj, hc.1, hne] using hold
        · simpa [setCall, setLoop, hj, hdc] using hold
    · have hold := h.started j d
      by_cases hj : j = k
      · subst hj
        by_cases hdc : d = c
        · subst hdc
          simp [setCall, setLoop, begun, hc.1]
        · simpa [setCall, setLoop, hdc] using hold
      · by_cases hdc : d = c
        · subst hdc
          have hne : k ≠ j := Ne.symm hj
          simpa [setCall, setLoop, hj, hc.1, hne] using hold
        · simpa [setCall, setLoop, hj, hdc] using hold
    · by_cases hj : j = k
      · subst hj
        simpa [setCall, setLoop] using hnodup
      · simpa [setCall, setLoop, hj] using h.nodup j
    · by_cases hj : j = k
      · subst hj
        simp [setCall, setLoop]
      · simpa [setCall, setLoop, hj] using h.running j

theorem inv_step (h : s.Inv) (l : SyncStep) : (s.step l).Inv := by
  cases l with
  | call context insideLoop => exact inv_call h context insideLoop
  | runForever k => exact inv_runForever h k
  | submit c => exact inv_submit h c
  | turn k => exact inv_turn h k
  | complete c =>
    change (if (s.calls c).phase = .started then _ else s).Inv
    by_cases hc : (s.calls c).phase = .started
    · rw [if_pos hc]
      refine inv_setCall h rfl (by simp [begun, hc]) (by simp [hc]) fun hm => ?_
      rw [h.fresh c hm] at hc
      cases hc
    · rw [if_neg hc]
      exact h
  | resume c =>
    change (if (s.calls c).phase = .completed ∧ _ then _ else s).Inv
    by_cases hc : (s.calls c).phase = .completed ∧ (s.calls c).interrupted = false
    · rw [if_pos hc]
      refine inv_setCall h rfl (by simp [begun, hc.1]) (by simp [hc.1]) fun hm => ?_
      rw [h.fresh c hm] at hc
      cases hc.1
    · rw [if_neg hc]
      exact h
  | interrupt c => exact inv_setCall h rfl rfl Iff.rfl (h.fresh c)

theorem inv_run (ls : List SyncStep) : (Trace.run step init ls).Inv :=
  Trace.run_invariant' Inv (fun _ l h => inv_step h l) inv_init ls

/-! ## Coroutines run once -/

/-- The calls that a step hands to loop `k`. -/
def submitted (k : ℕ) (s : SyncLoops) : SyncStep → List ℕ
  | .submit c =>
    if c < s.made ∧ (s.calls c).phase = .ensured ∧ (s.calls c).interrupted = false ∧
      (s.calls c).loop = k then [c] else []
  | _ => []

/-- What a loop has begun and what it is about to begin, in order. -/
def handed (k : ℕ) (s : SyncLoops) : List ℕ := (s.loops k).started ++ (s.loops k).callbacks

theorem handed_submit (s : SyncLoops) (k c : ℕ) :
    handed k (s.submit c) = handed k s ++ submitted k s (.submit c) := by
  unfold submit submitted handed
  by_cases hc : c < s.made ∧ (s.calls c).phase = .ensured ∧ (s.calls c).interrupted = false
  · simp only [if_pos hc]
    by_cases hk : (s.calls c).loop = k
    · subst hk
      simp [setCall, setLoop, hc]
    · simp [setCall, setLoop, hk, Ne.symm hk]
  · have hnot : ¬ (c < s.made ∧ (s.calls c).phase = .ensured ∧ (s.calls c).interrupted = false ∧
        (s.calls c).loop = k) := fun h => hc ⟨h.1, h.2.1, h.2.2.1⟩
    simp only [if_neg hc, if_neg hnot, List.append_nil]

/-- A turn moves a call from the one list to the other. -/
theorem handed_turn (s : SyncLoops) (j k : ℕ) : handed k (s.turn j) = handed k s := by
  obtain ⟨he, -⟩ | ⟨c, rest, hr, hcb, he⟩ := turn_cases s j
  · rw [he]
  · rw [he]
    unfold handed
    by_cases hk : k = j
    · subst hk
      simp [setCall, setLoop, hcb]
    · simp [setCall, setLoop, hk]

theorem handed_step (k : ℕ) (s : SyncLoops) (l : SyncStep) :
    handed k (s.step l) = handed k s ++ submitted k s l := by
  cases l with
  | submit c => exact handed_submit s k c
  | turn j => exact (handed_turn s j k).trans (List.append_nil _).symm
  | call context insideLoop =>
    rw [show submitted k s (.call context insideLoop) = [] from rfl, List.append_nil]
    cases insideLoop with
    | true => rfl
    | false =>
      obtain ⟨j, created, he, -⟩ := runSync_cases s context
      change handed k (s.runSync context false).1 = handed k s
      rw [he]
      rfl
  | runForever j =>
    rw [show submitted k s (.runForever j) = [] from rfl, List.append_nil]
    change handed k (if j < s.created then s.setLoop j _ else s) = handed k s
    by_cases hj : j < s.created
    · rw [if_pos hj]
      unfold handed
      by_cases hk : k = j
      · subst hk
        simp [setLoop]
      · simp [setLoop, hk]
    · rw [if_neg hj]
  | complete c =>
    rw [show submitted k s (.complete c) = [] from rfl, List.append_nil]
    change handed k (if _ then _ else s) = handed k s
    split <;> rfl
  | resume c =>
    rw [show submitted k s (.resume c) = [] from rfl, List.append_nil]
    change handed k (if _ then _ else s) = handed k s
    split <;> rfl
  | interrupt c => exact (List.append_nil _).symm

theorem handed_run (k : ℕ) (ls : List SyncStep) :
    handed k (Trace.run step init ls) = Trace.outputs step (submitted k) init ls :=
  Trace.run_outputs (handed_step k) init ls

/-- The thread of a loop, left to itself, begins everything that was handed to the loop. -/
theorem turns_drain (k : ℕ) (n : ℕ) (s : SyncLoops) (hr : (s.loops k).running = true)
    (hn : (s.loops k).callbacks.length = n) :
    ((Trace.run step s (List.replicate n (.turn k))).loops k).started = handed k s := by
  induction n generalizing s with
  | zero =>
    rw [List.length_eq_zero_iff] at hn
    simp [handed, hn]
  | succ n ih =>
    obtain ⟨-, hempty⟩ | ⟨c, rest, -, hcb, he⟩ := turn_cases s k
    · rw [hempty hr] at hn
      cases hn
    · have hnow : (s.turn k).loops k = ⟨true, rest, (s.loops k).started ++ [c]⟩ := by
        rw [he]
        simp [setCall, setLoop]
      have hlen : ((s.turn k).loops k).callbacks.length = n := by
        rw [hcb] at hn
        rw [hnow]
        exact Nat.succ.inj hn
      rw [List.replicate_succ, Trace.run_cons]
      refine (ih (s.turn k) (by rw [hnow]) hlen).trans ?_
      exact handed_turn s k k

theorem created_of_handed {s : SyncLoops} (h : s.Inv) {k c : ℕ} (hc : c ∈ handed k s) :
    (s.calls c).loop = k ∧ k < s.created := by
  have hloop : (s.calls c).loop = k := by
    rcases List.mem_append.mp hc with hs | hcb
    · exact ((h.started k c).mp hs).1
    · exact ((h.callbacks k c).mp hcb).1
  have hmade : c < s.made := by
    by_contra hnot
    have hphase := h.fresh c (Nat.le_of_not_lt hnot)
    rcases List.mem_append.mp hc with hs | hcb
    · have hb := ((h.started k c).mp hs).2
      rw [hphase] at hb
      cases hb
    · have hb := ((h.callbacks k c).mp hcb).2
      rw [hphase] at hb
      cases hb
  exact ⟨hloop, hloop ▸ h.callLoop c hmade⟩

/-- **Coroutines run once.** In every run, whatever the order of the threads: each loop begins the
coroutines it was handed in the order of their submission, none twice and none that another loop was
handed; and if from there on its thread alone goes on, it begins all of them. -/
theorem coroutines_begun_once (ls : List SyncStep) (k : ℕ) :
    let s := Trace.run step init ls
    let due := Trace.outputs step (submitted k) init ls
    (s.loops k).started <+: due ∧ due.Nodup ∧ (∀ c ∈ due, (s.calls c).loop = k) ∧
      ((Trace.run step s (.runForever k ::
        List.replicate (s.loops k).callbacks.length (.turn k))).loops k).started = due := by
  intro s due
  have h : s.Inv := inv_run ls
  have hdue : handed k s = due := handed_run k ls
  refine ⟨?_, ?_, ?_, ?_⟩
  · rw [← hdue]
    exact List.prefix_append _ _
  · rw [← hdue]
    exact h.nodup k
  · intro c hc
    rw [← hdue] at hc
    exact (created_of_handed h hc).1
  · rw [Trace.run_cons]
    by_cases hk : k < s.created
    · have he : s.step (.runForever k) = s.setLoop k { s.loops k with running := true } := if_pos hk
      rw [← hdue, he]
      refine (turns_drain k _ _ ?_ ?_).trans ?_
      · simp [setLoop]
      · simp [setLoop]
      · simp [handed, setLoop]
    · have hempty : handed k s = [] := by
        rw [List.eq_nil_iff_forall_not_mem]
        exact fun c hc => hk (created_of_handed h hc).2
      have he : s.step (.runForever k) = s := if_neg hk
      obtain ⟨hs, hcb⟩ := List.append_eq_nil_iff.mp hempty
      rw [he, hcb, ← hdue, hempty]
      exact hs

/-! ## How many loops there are -/

/-- A call that finds no loop yet, or a running one. -/
def FindsLoop (s : SyncLoops) : SyncStep → Prop
  | .call _ false => ∀ k, s.current = some k → (s.loops k).running = true
  | _ => True

/-- A call is made when no other is in progress. -/
def Sequential (s : SyncLoops) : SyncStep → Prop
  | .call _ false => ∀ c < s.made, (s.calls c).phase = .returned
  | _ => True

theorem setCall_loop {c : ℕ} {call : SyncCall} (hcall : call.loop = (s.calls c).loop) (d : ℕ) :
    ((s.setCall c call).calls d).loop = (s.calls d).loop := by
  by_cases hd : d = c
  · subst hd
    simpa [setCall] using hcall
  · simp [setCall, hd]

theorem setLoop_running {k : ℕ} {loop : SyncLoop}
    (hloop : (s.loops k).running = true → loop.running = true) {j : ℕ}
    (hj : (s.loops j).running = true) : ((s.setLoop k loop).loops j).running = true := by
  by_cases hjk : j = k
  · subst hjk
    simpa [setLoop] using hloop hj
  · simpa [setLoop, hjk] using hj

/-- A step that is not a call makes no loop, stops none and moves no call to another. -/
theorem step_frame (s : SyncLoops) {l : SyncStep} (hl : ∀ context, l ≠ .call context false) :
    ∃ loops calls, s.step l = { s with loops := loops, calls := calls } ∧
      (∀ k, (s.loops k).running = true → (loops k).running = true) ∧
      ∀ c, (calls c).loop = (s.calls c).loop := by
  have hnothing : ∃ loops calls, s = { s with loops := loops, calls := calls } ∧
      (∀ k, (s.loops k).running = true → (loops k).running = true) ∧
      ∀ c, (calls c).loop = (s.calls c).loop := ⟨s.loops, s.calls, rfl, fun _ h => h, fun _ => rfl⟩
  cases l with
  | call context insideLoop =>
    cases insideLoop with
    | true => exact hnothing
    | false => exact absurd rfl (hl context)
  | runForever k =>
    simp only [step]
    split
    · exact ⟨_, s.calls, rfl, fun j => setLoop_running fun _ => rfl, fun _ => rfl⟩
    · exact hnothing
  | submit c =>
    change ∃ loops calls, s.submit c = _ ∧ _
    unfold submit
    simp only
    split
    · refine ⟨_, _, rfl, fun j => ?_, setCall_loop rfl⟩
      refine setLoop_running ?_
      exact fun h => h
    · exact hnothing
  | turn k =>
    change ∃ loops calls, s.turn k = _ ∧ _
    obtain ⟨he, -⟩ | ⟨c, rest, -, -, he⟩ := turn_cases s k
    · rw [he]
      exact hnothing
    · exact ⟨_, _, he, fun j => setLoop_running fun _ => rfl, setCall_loop rfl⟩
  | complete c =>
    simp only [step]
    split
    · exact ⟨s.loops, _, rfl, fun _ h => h, setCall_loop rfl⟩
    · exact hnothing
  | resume c =>
    simp only [step]
    split
    · exact ⟨s.loops, _, rfl, fun _ h => h, setCall_loop rfl⟩
    · exact hnothing
  | interrupt c => exact ⟨s.loops, _, rfl, fun _ h => h, setCall_loop rfl⟩

/-- A step is a call from outside the loops, or it is not. -/
theorem call_or_not (l : SyncStep) :
    (∃ context, l = .call context false) ∨ ∀ context, l ≠ .call context false := by
  by_cases hl : ∃ context, l = .call context false
  · exact Or.inl hl
  · exact Or.inr fun context he => hl ⟨context, he⟩

/-- Loop `k` is the current one and runs, and the calls from number `m` on are on it. -/
def Settled (k m : ℕ) (s : SyncLoops) : Prop :=
  s.current = some k ∧ (s.loops k).running = true ∧ m ≤ s.made ∧
    ∀ c, m ≤ c → c < s.made → (s.calls c).loop = k

theorem settled_step {k m : ℕ} (h : s.Settled k m) (l : SyncStep) :
    (s.step l).Settled k m ∧ (s.step l).created = s.created := by
  obtain ⟨hcur, hr, hm, hcalls⟩ := h
  obtain ⟨context, rfl⟩ | hl := call_or_not l
  · obtain ⟨j, created, he, ⟨hj, -, rfl⟩ | ⟨hnot, -⟩⟩ := runSync_cases s context
    · obtain rfl : k = j := Option.some.inj (hcur.symm.trans hj)
      change (s.runSync context false).1.Settled k m ∧
        (s.runSync context false).1.created = s.created
      rw [he]
      refine ⟨⟨rfl, hr, Nat.le_succ_of_le hm, fun c hmc hc => ?_⟩, rfl⟩
      by_cases hcm : c = s.made
      · subst hcm
        simp
      · have hlt : c < s.made := Nat.lt_of_le_of_ne (Nat.le_of_lt_succ hc) hcm
        simpa [hcm] using hcalls c hmc hlt
    · rw [hnot k hcur] at hr
      cases hr
  · obtain ⟨loops, calls, he, hrunning, hloop⟩ := step_frame s hl
    rw [he]
    exact ⟨⟨hcur, hrunning k hr, hm, fun c hmc hc => (hloop c).trans (hcalls c hmc hc)⟩, rfl⟩

theorem settled_run {k m : ℕ} (ls : List SyncStep) (h : s.Settled k m) :
    (Trace.run step s ls).Settled k m ∧ (Trace.run step s ls).created = s.created := by
  induction ls generalizing s with
  | nil => exact ⟨h, rfl⟩
  | cons l ls ih =>
    obtain ⟨hl, hcreated⟩ := settled_step h l
    obtain ⟨hrun, hrest⟩ := ih hl
    exact ⟨hrun, hrest.trans hcreated⟩

theorem created_le (s : SyncLoops) (l : SyncStep) : s.created ≤ (s.step l).created := by
  obtain ⟨context, rfl⟩ | hl := call_or_not l
  · obtain ⟨j, created, he, hcreated⟩ := runSync_cases s context
    change s.created ≤ (s.runSync context false).1.created
    rw [he]
    change s.created ≤ created
    omega
  · obtain ⟨loops, calls, he, -⟩ := step_frame s hl
    exact Nat.le_of_eq (by rw [he])

theorem created_run (s : SyncLoops) (ls : List SyncStep) :
    s.created ≤ (Trace.run step s ls).created := by
  induction ls generalizing s with
  | nil => exact Nat.le_refl _
  | cons l ls ih => exact Nat.le_trans (created_le s l) (ih (s.step l))

/-- A step leaves at most one loop exactly when, being a call, it finds none or a running one. -/
theorem findsLoop_iff (h : s.Inv) (hone : s.created ≤ 1) (l : SyncStep) :
    s.FindsLoop l ↔ (s.step l).created ≤ 1 := by
  obtain ⟨context, rfl⟩ | hl := call_or_not l
  · obtain ⟨j, created, he, hcase⟩ := runSync_cases s context
    change (∀ k, s.current = some k → (s.loops k).running = true) ↔
      (s.runSync context false).1.created ≤ 1
    rw [he]
    obtain ⟨hj, hr, rfl⟩ | ⟨hnot, -, rfl⟩ := hcase
    · refine ⟨fun _ => hone, fun _ k hk => ?_⟩
      obtain rfl : j = k := Option.some.inj (hj.symm.trans hk)
      exact hr
    · constructor
      · intro hf
        cases hc : s.current with
        | none => exact Nat.succ_le_of_lt (by rw [h.none hc]; exact Nat.one_pos)
        | some k =>
          have hrunning := hf k hc
          rw [hnot k hc] at hrunning
          cases hrunning
      · intro hle k hk
        have hk1 := h.current k hk
        change s.created + 1 ≤ 1 at hle
        omega
  · obtain ⟨loops, calls, he, -⟩ := step_frame s hl
    rw [he]
    refine ⟨fun _ => hone, fun _ => ?_⟩
    cases l with
    | call context insideLoop =>
      cases insideLoop with
      | true => trivial
      | false => exact absurd rfl (hl context)
    | _ => trivial

theorem one_loop_iff (h : s.Inv) (hone : s.created ≤ 1) (ls : List SyncStep) :
    (Trace.run step s ls).created ≤ 1 ↔ Trace.Follows step FindsLoop s ls := by
  induction ls generalizing s with
  | nil => exact ⟨fun _ => trivial, fun _ => hone⟩
  | cons l ls ih =>
    rw [Trace.run_cons, Trace.follows_cons, findsLoop_iff h hone l]
    constructor
    · intro hle
      have hnext := Nat.le_trans (created_run (s.step l) ls) hle
      exact ⟨hnext, (ih (inv_step h l) hnext).mp hle⟩
    · rintro ⟨hnext, hls⟩
      exact (ih (inv_step h l) hnext).mpr hls

/-- The newest loop was made for a call. -/
def Made (s : SyncLoops) : Prop :=
  ∀ k, s.current = some k → ∃ c < s.made, (s.calls c).loop = k

theorem made_step (h : s.Made) (l : SyncStep) : (s.step l).Made := by
  obtain ⟨context, rfl⟩ | hl := call_or_not l
  · obtain ⟨j, created, he, -⟩ := runSync_cases s context
    change (s.runSync context false).1.Made
    rw [he]
    intro k hk
    cases hk
    exact ⟨s.made, Nat.lt_succ_self _, by simp⟩
  · obtain ⟨loops, calls, he, -, hloop⟩ := step_frame s hl
    rw [he]
    intro k hk
    obtain ⟨c, hc, hk⟩ := h k hk
    exact ⟨c, hc, (hloop c).trans hk⟩

theorem findsLoop_of_sequential (h : s.Inv) (hm : s.Made) {l : SyncStep} (hl : s.Sequential l) :
    s.FindsLoop l := by
  cases l with
  | call context insideLoop =>
    cases insideLoop with
    | true => trivial
    | false =>
      intro k hk
      obtain ⟨c, hc, hloop⟩ := hm k hk
      have hstarted := (h.started k c).mpr ⟨hloop, by rw [hl c hc]; rfl⟩
      exact h.running k (List.ne_nil_of_mem hstarted)
  | _ => trivial

/-- **One loop.** In every run there is at most one loop exactly when every call finds none or a
running one; calls made one after the other do. From any moment on at which the newest loop runs, no
other is made, and all calls go to it. -/
theorem one_loop (ls : List SyncStep) :
    ((Trace.run step init ls).created ≤ 1 ↔ Trace.Follows step FindsLoop init ls) ∧
    (Trace.Follows step Sequential init ls → (Trace.run step init ls).created ≤ 1) ∧
    ∀ k more, (Trace.run step init ls).current = some k →
      ((Trace.run step init ls).loops k).running = true →
      (Trace.run step init (ls ++ more)).created = (Trace.run step init ls).created ∧
      ∀ c, (Trace.run step init ls).made ≤ c → c < (Trace.run step init (ls ++ more)).made →
        ((Trace.run step init (ls ++ more)).calls c).loop = k := by
  have hiff := one_loop_iff inv_init (Nat.zero_le 1) ls
  refine ⟨hiff, fun hseq => hiff.mpr ?_, fun k more hcur hr => ?_⟩
  · refine Trace.follows_of_invariant (fun s => s.Inv ∧ s.Made)
      (fun s l h _ => ⟨inv_step h.1 l, made_step h.2 l⟩)
      (fun s l h hl => findsLoop_of_sequential h.1 h.2 hl) ⟨inv_init, ?_⟩ hseq
    intro k hk
    cases hk
  · have hsettled : (Trace.run step init ls).Settled k (Trace.run step init ls).made :=
      ⟨hcur, hr, Nat.le_refl _, fun c hle hlt => absurd hlt (Nat.not_lt.mpr hle)⟩
    rw [Trace.run_append]
    obtain ⟨⟨-, -, -, hcalls⟩, hcreated⟩ := settled_run more hsettled
    exact ⟨hcreated, hcalls⟩

/-- Two calls that overlap at the start get a loop each. -/
example : (Trace.run step init [.call "plan" false, .call "plan" false]).created = 2 := by decide

end SyncLoops
end PhysicalAiRuntime.Provider
