import Mathlib.Algebra.Field.Rat
import Mathlib.Data.List.Induction
import Mathlib.Logic.Function.Basic
import PhysicalAiRuntime.Foundations.Deque
import PhysicalAiRuntime.Foundations.Dict
import PhysicalAiRuntime.Foundations.Trace

/-! `MemoryReplayBuffer` and its scopes. The list that `last_episode` reads is emptied by the entry
of a scope and grows with every step; what it should be is a piece of the log of all steps. -/
namespace PhysicalAiRuntime.Recording
open Trace
set_option autoImplicit false
set_option maxHeartbeats 250000

variable {ω κ ρ ι : Type} {c : ℕ}

/-! ## The buffer -/

/-- The arguments of a step, and the time. -/
structure StepCall (ω κ ρ : Type) where
  observation : ω
  action : κ
  reward : ℚ
  nextObservation : Option ω
  done : Bool
  info : Option (Dict String ρ)
  time : ℚ

/-- One entry; `id` tells it from entries with the same fields. -/
structure Transition (ω κ ρ : Type) where
  id : ℕ
  observation : ω
  action : κ
  reward : ℚ
  nextObservation : Option ω
  done : Bool
  info : Dict String ρ
  time : ℚ

def StepCall.entry (call : StepCall ω κ ρ) (id : ℕ) : Transition ω κ ρ where
  id := id
  observation := call.observation
  action := call.action
  reward := call.reward
  nextObservation := call.nextObservation
  done := call.done
  info := call.info.getD Dict.empty
  time := call.time

structure MemoryReplayBuffer (c : ℕ) (ω κ ρ : Type) where
  buffer : Deque c (Transition ω κ ρ)
  currentEpisode : List (Transition ω κ ρ)
  /-- The entries created so far. -/
  created : ℕ

namespace MemoryReplayBuffer

def new : MemoryReplayBuffer c ω κ ρ := ⟨Deque.empty, [], 0⟩

def step (b : MemoryReplayBuffer c ω κ ρ) (call : StepCall ω κ ρ) : MemoryReplayBuffer c ω κ ρ :=
  let entry := call.entry b.created
  ⟨b.buffer.append entry, b.currentEpisode ++ [entry], b.created + 1⟩

/-- `MemoryEpisodeScope.__enter__`. -/
def enter (b : MemoryReplayBuffer c ω κ ρ) : MemoryReplayBuffer c ω κ ρ :=
  { b with currentEpisode := [] }

/-- `MemoryEpisodeScope.__exit__`. -/
def exit (b : MemoryReplayBuffer c ω κ ρ) : MemoryReplayBuffer c ω κ ρ := b

def lastEpisode (b : MemoryReplayBuffer c ω κ ρ) : List (Transition ω κ ρ) := b.currentEpisode

end MemoryReplayBuffer

inductive MemoryEvent (ω κ ρ ι : Type) where
  | step (call : StepCall ω κ ρ)
  /-- A step through the scope `i`, which hands it on. -/
  | scopeStep (i : ι) (call : StepCall ω κ ρ)
  | enter (i : ι)
  | exit (i : ι)

namespace MemoryEvent

def apply (b : MemoryReplayBuffer c ω κ ρ) : MemoryEvent ω κ ρ ι → MemoryReplayBuffer c ω κ ρ
  | .step call => b.step call
  | .scopeStep _ call => b.step call
  | .enter _ => b.enter
  | .exit _ => b.exit

def stepCall : MemoryEvent ω κ ρ ι → Option (StepCall ω κ ρ)
  | .step call => some call
  | .scopeStep _ call => some call
  | _ => none

end MemoryEvent

/-! ## The log and the episodes in it -/

/-- The entries of all steps. -/
def log (events : List (MemoryEvent ω κ ρ ι)) : List (Transition ω κ ρ) :=
  (events.filterMap MemoryEvent.stepCall).mapIdx fun id call => call.entry id

theorem log_concat (events : List (MemoryEvent ω κ ρ ι)) (e : MemoryEvent ω κ ρ ι) :
    log (events ++ [e]) = log events ++ (e.stepCall.map fun call =>
      call.entry (log events).length).toList := by
  unfold log
  rw [List.filterMap_append, List.mapIdx_append, List.length_mapIdx]
  cases h : e.stepCall with
  | none => simp [h]
  | some call => simp [h]

theorem log_step {events : List (MemoryEvent ω κ ρ ι)} {e : MemoryEvent ω κ ρ ι}
    {call : StepCall ω κ ρ} (h : e.stepCall = some call) :
    log (events ++ [e]) = log events ++ [call.entry (log events).length] := by
  rw [log_concat, h]
  rfl

theorem log_other {events : List (MemoryEvent ω κ ρ ι)} {e : MemoryEvent ω κ ρ ι}
    (h : e.stepCall = none) : log (events ++ [e]) = log events := by
  rw [log_concat, h]
  exact List.append_nil _

/-- The place of an entry in the log is its own. -/
theorem ids_log (events : List (MemoryEvent ω κ ρ ι)) :
    (log events).map Transition.id = List.range (log events).length := by
  induction events using List.reverseRecOn with
  | nil => rfl
  | append_singleton es e ih =>
    cases h : e.stepCall with
    | none => rw [log_other h, ih]
    | some call =>
      rw [log_step h, List.map_append, ih, List.length_append, List.length_singleton,
        List.range_succ]
      rfl

/-- Where the scopes begin and end, in numbers of steps: an exit closes the latest entry of its
scope that is still open. -/
structure Ledger (ι : Type) where
  steps : ℕ
  /-- At the most recent entry of any scope. -/
  entered : ℕ
  opened : ι → List ℕ
  /-- At the entry and the exit of the most recently closed scope. -/
  closed : ℕ × ℕ

namespace Ledger

def new : Ledger ι := ⟨0, 0, fun _ => [], (0, 0)⟩

def close [DecidableEq ι] (l : Ledger ι) (i : ι) : Ledger ι :=
  match l.opened i with
  | [] => l
  | start :: rest => { l with
      opened := Function.update l.opened i rest
      closed := (start, l.steps) }

def record [DecidableEq ι] (l : Ledger ι) : MemoryEvent ω κ ρ ι → Ledger ι
  | .step _ => { l with steps := l.steps + 1 }
  | .scopeStep _ _ => { l with steps := l.steps + 1 }
  | .enter i => { l with
      entered := l.steps
      opened := Function.update l.opened i (l.steps :: l.opened i) }
  | .exit i => l.close i

end Ledger

def ledger [DecidableEq ι] (events : List (MemoryEvent ω κ ρ ι)) : Ledger ι := run Ledger.record Ledger.new events

/-- The entries between the entry and the exit of the most recently closed scope. -/
def closedEpisode [DecidableEq ι] (events : List (MemoryEvent ω κ ρ ι)) : List (Transition ω κ ρ) :=
  let closed := (ledger events).closed
  ((log events).drop closed.1).take (closed.2 - closed.1)

/-- The steps since the most recent entry are those of the most recently closed scope: it is the
last one entered and nothing came after it, or there are none on either side. -/
def Sealed (l : Ledger ι) : Prop :=
  (l.entered = l.closed.1 ∧ l.steps = l.closed.2) ∨
    (l.entered = l.steps ∧ l.closed.1 = l.closed.2)

/-! ## What the buffer holds -/

/-- The buffer and the ledger agree with the log. -/
structure Agrees (b : MemoryReplayBuffer c ω κ ρ) (l : Ledger ι)
    (entries : List (Transition ω κ ρ)) : Prop where
  created : b.created = entries.length
  steps : l.steps = entries.length
  buffer : b.buffer.items = entries.drop (entries.length - c)
  current : b.currentEpisode = entries.drop l.entered
  entered : l.entered ≤ l.steps
  opened : ∀ i, ∀ n ∈ l.opened i, n ≤ l.steps
  closed : l.closed.1 ≤ l.closed.2 ∧ l.closed.2 ≤ l.steps

theorem Agrees.append {b : MemoryReplayBuffer c ω κ ρ} {l : Ledger ι}
    {entries : List (Transition ω κ ρ)} (h : Agrees b l entries) (call : StepCall ω κ ρ) :
    Agrees (b.step call) { l with steps := l.steps + 1 }
      (entries ++ [call.entry entries.length]) := by
  have hlength : (entries ++ [call.entry entries.length]).length = entries.length + 1 := by
    rw [List.length_append, List.length_singleton]
  have hentered : l.entered ≤ entries.length := h.steps ▸ h.entered
  refine {
    created := ?_
    steps := ?_
    buffer := ?_
    current := ?_
    entered := Nat.le_succ_of_le h.entered
    opened := fun i n hn => Nat.le_succ_of_le (h.opened i n hn)
    closed := ⟨h.closed.1, Nat.le_succ_of_le h.closed.2⟩ }
  · rw [hlength, ← h.created]
    rfl
  · rw [hlength, ← h.steps]
  · rw [← h.created]
    exact Deque.append_items h.buffer (call.entry b.created)
  · rw [List.drop_append_of_le_length hentered, ← h.current, ← h.created]
    rfl

variable [DecidableEq ι]

theorem Agrees.enter {b : MemoryReplayBuffer c ω κ ρ} {l : Ledger ι}
    {entries : List (Transition ω κ ρ)} (h : Agrees b l entries) (i : ι) :
    Agrees b.enter (l.record (.enter i : MemoryEvent ω κ ρ ι)) entries := by
  refine {
    created := h.created
    steps := h.steps
    buffer := h.buffer
    current := ?_
    entered := Nat.le_refl _
    opened := ?_
    closed := h.closed }
  · exact (List.drop_of_length_le (h.steps ▸ Nat.le_refl _)).symm
  · intro j n hn
    change n ∈ Function.update l.opened i (l.steps :: l.opened i) j at hn
    by_cases hj : j = i
    · subst hj
      rw [Function.update_self, List.mem_cons] at hn
      cases hn with
      | inl heq => exact heq ▸ Nat.le_refl _
      | inr hold => exact h.opened j n hold
    · rw [Function.update_of_ne hj] at hn
      exact h.opened j n hn

theorem Agrees.exit {b : MemoryReplayBuffer c ω κ ρ} {l : Ledger ι}
    {entries : List (Transition ω κ ρ)} (h : Agrees b l entries) (i : ι) :
    Agrees b.exit (l.close i) entries := by
  unfold Ledger.close
  cases hopened : l.opened i with
  | nil => exact h
  | cons start rest =>
    refine {
      created := h.created
      steps := h.steps
      buffer := h.buffer
      current := h.current
      entered := h.entered
      opened := ?_
      closed := ?_ }
    · intro j n hn
      change n ∈ Function.update l.opened i rest j at hn
      by_cases hj : j = i
      · subst hj
        rw [Function.update_self] at hn
        exact h.opened j n (hopened ▸ List.mem_cons_of_mem start hn)
      · rw [Function.update_of_ne hj] at hn
        exact h.opened j n hn
    · exact ⟨h.opened i start (hopened ▸ List.mem_cons_self), Nat.le_refl _⟩

theorem agrees_run (events : List (MemoryEvent ω κ ρ ι)) :
    Agrees (run MemoryEvent.apply (MemoryReplayBuffer.new (c := c)) events) (ledger events)
      (log events) := by
  induction events using List.reverseRecOn with
  | nil =>
    exact ⟨rfl, rfl, List.drop_nil.symm, rfl, Nat.le_refl 0, fun i n hn => (List.not_mem_nil hn).elim,
      Nat.le_refl 0, Nat.le_refl 0⟩
  | append_singleton es e ih =>
    unfold ledger at ih ⊢
    rw [run_append, run_append, run_cons, run_cons, run_nil, run_nil]
    cases e with
    | step call =>
      rw [log_step rfl]
      exact ih.append call
    | scopeStep i call =>
      rw [log_step rfl]
      exact ih.append call
    | enter i =>
      rw [log_other rfl]
      exact ih.enter i
    | exit i =>
      rw [log_other rfl]
      exact ih.exit i

/-! ## Last episode -/

/-- Two pieces of a list of distinct entries are the same where they begin and end alike, or where
both are empty. -/
theorem drop_eq_piece_iff {α : Type} {f : α → ℕ} {xs : List α} {e a b : ℕ}
    (hids : xs.map f = List.range xs.length) (he : e ≤ xs.length) (hab : a ≤ b)
    (hb : b ≤ xs.length) :
    xs.drop e = (xs.drop a).take (b - a) ↔
      (e = a ∧ xs.length = b) ∨ (e = xs.length ∧ a = b) := by
  constructor
  · intro heq
    have hlength := congrArg List.length heq
    rw [List.length_drop, List.length_take, List.length_drop] at hlength
    by_cases hempty : e = xs.length
    · exact Or.inr ⟨hempty, by omega⟩
    · have hmap := congrArg (fun ys => (ys.map f).head?) heq
      rw [List.map_drop, List.map_take, List.map_drop, hids, List.head?_take,
        if_neg (by omega), List.head?_drop, List.head?_drop, List.getElem?_range (by omega),
        List.getElem?_range (by omega)] at hmap
      have hstart := Option.some.inj hmap
      exact Or.inl ⟨hstart, by omega⟩
  · intro h
    rcases h with ⟨rfl, rfl⟩ | ⟨rfl, rfl⟩
    · rw [List.take_of_length_le]
      rw [List.length_drop]
    · rw [Nat.sub_self, List.take_zero, List.drop_length]

/-- **Last episode.** After every sequence of calls the buffer holds the last entries of all, and
`last_episode` the most recently closed episode if and only if that is sealed. -/
theorem last_episode_iff (events : List (MemoryEvent ω κ ρ ι)) :
    let b := run MemoryEvent.apply (MemoryReplayBuffer.new (c := c)) events
    b.buffer.items = (log events).drop ((log events).length - c) ∧
      (b.lastEpisode = closedEpisode events ↔ Sealed (ledger events)) := by
  intro b
  have h : Agrees b (ledger events) (log events) := agrees_run events
  refine ⟨h.buffer, ?_⟩
  have hclosed := h.closed
  have hentered := h.entered
  rw [h.steps] at hclosed hentered
  unfold closedEpisode Sealed
  rw [h.steps]
  change b.currentEpisode = _ ↔ _
  rw [h.current]
  exact drop_eq_piece_iff (ids_log events) hentered hclosed.1 hclosed.2

def rewarded (reward : ℚ) : StepCall Unit Unit Unit := ⟨(), (), reward, none, false, none, 0⟩

/-- An episode of one step, and a step after it. -/
def stepAfterExit : List (MemoryEvent Unit Unit Unit Unit) :=
  [.enter (), .step (rewarded 1), .exit (), .step (rewarded 0)]

/-- The step after the exit is counted in. -/
theorem step_after_exit_in_last_episode :
    let b := run MemoryEvent.apply (MemoryReplayBuffer.new (c := 100)) stepAfterExit
    b.lastEpisode.map Transition.reward = [1, 0] ∧
      (closedEpisode stepAfterExit).map Transition.reward = [1] ∧
      b.lastEpisode ≠ closedEpisode stepAfterExit := by
  intro b
  have hlast : b.lastEpisode.map Transition.reward = [1, 0] := rfl
  have hclosed : (closedEpisode stepAfterExit).map Transition.reward = [1] := rfl
  refine ⟨hlast, hclosed, fun heq => ?_⟩
  rw [heq, hclosed] at hlast
  cases hlast

end PhysicalAiRuntime.Recording
