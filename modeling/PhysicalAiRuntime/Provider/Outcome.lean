import PhysicalAiRuntime.Provider.Executions

/-! What a `PlanExecution` reports of its goal. The goal ends with one status; `wait` and `cancel`
set `state`, `done` and `canceled` independently of each other, so whether the fields tell the truth
depends on the order of the calls and on how each of them ended. -/
namespace PhysicalAiRuntime.Provider
open Authority
set_option autoImplicit false
set_option maxHeartbeats 250000

/-- How a `wait` on the goal ends. The transport does not raise the client's own exception. -/
inductive WaitAnswer where
  | timedOut
  | raised (e : PyError) (transport : e.kind ≠ .trajectoryCanceledError)
  | terminal (errorString : String)

def WaitAnswer.resultAnswer (status : ActionProviderClient.GoalStatus) :
    WaitAnswer → ActionProviderClient.ResultAnswer
  | .timedOut => .timedOut
  | .raised e _ => .raised e
  | .terminal errorString => .result status errorString

def WaitAnswer.isTerminal : WaitAnswer → Bool
  | .terminal _ => true
  | _ => false

/-- A call on the execution, or anything that others do to the client in between. -/
inductive OutcomeCall where
  | wait (answer : WaitAnswer)
  | cancel (answer : ActionProviderClient.CancelAnswer)
  | elsewhere (client : ActionProviderClient)

/-- An execution with its client. `received` says that a wait has received the status of the goal,
`issued` that a cancel request for the goal was sent by this execution, `returned` that a `cancel()`
has returned. -/
structure Watched where
  client : ActionProviderClient
  execution : PlanExecution
  received : Bool
  issued : Bool
  returned : Bool

def terminalState : ActionProviderClient.GoalStatus → PlanExecutionState
  | .succeeded => .completed
  | .canceled => .canceled
  | .other _ => .failed

namespace Watched

def init (client : ActionProviderClient) (part : String) (handle : GoalHandle) : Watched :=
  ⟨client, PlanExecution.new part handle, false, false, false⟩

def step (status : ActionProviderClient.GoalStatus) (s : Watched) : OutcomeCall → Watched
  | .wait answer =>
    let (client, execution, _) := s.execution.wait s.client (answer.resultAnswer status)
    { s with
      client := client
      execution := execution
      received := s.received || answer.isTerminal }
  | .cancel answer =>
    let (client, asked, execution, result) := s.execution.cancel s.client answer
    { s with
      client := client
      execution := execution
      issued := s.issued || (asked == some s.execution.handle)
      returned := s.returned || result.isOk }
  | .elsewhere client => { s with client := client }

structure Truthful (status : ActionProviderClient.GoalStatus) (s : Watched) : Prop where
  final : s.received = true → s.execution.state = terminalState status ∧
    s.execution.done = true ∧ (s.execution.canceled = true ↔ status = .canceled)
  pending : s.received = false → s.execution.done = false

/-- The call leaves a truthful execution, and a wait that receives a canceled goal returns exactly
when this execution had sent a cancel request. -/
def CallTruthful (status : ActionProviderClient.GoalStatus) (s : Watched) (call : OutcomeCall) :
    Prop :=
  Truthful status (s.step status call) ∧ ∀ errorString, call = .wait (.terminal errorString) →
    status = .canceled →
    ((s.execution.wait s.client (.result status errorString)).2.2 = .ok () ↔ s.issued = true)

/-- The calls after which the execution still tells the truth: no status but the two named ones,
no success after a `cancel()` that returned, no canceled goal when a request was sent without its
`cancel()` returning or the other way round, and after the status nothing that times out, fails or
returns from `cancel()`. -/
def CallAllowed (status : ActionProviderClient.GoalStatus) (s : Watched) : OutcomeCall → Prop
  | .wait (.terminal _) =>
    match status with
    | .succeeded => s.returned = false
    | .canceled => s.returned = s.issued
    | .other _ => False
  | .wait _ => s.received = false
  | .cancel answer => s.received = false ∨
      ((s.client.goalHandles.get? s.execution.part).isSome = true ∧ answer ≠ .answered)
  | .elsewhere _ => True

/-! ## The two methods -/

theorem wait_raised (x : PlanExecution) (client : ActionProviderClient) {e : PyError}
    (he : e.kind ≠ .trajectoryCanceledError) :
    ∃ state, (state = .timedOut ∨ state = .failed) ∧
      (x.wait client (.raised e)).2.1 = { x with state := state } := by
  unfold PlanExecution.wait ActionProviderClient.waitJointTrajectory
  cases hk : e.kind with
  | timeoutError => exact ⟨.timedOut, Or.inl rfl, by simp [hk]⟩
  | trajectoryCanceledError => exact absurd hk he
  | _ => exact ⟨.failed, Or.inr rfl, by simp [hk]⟩

theorem wait_succeeded (x : PlanExecution) (client : ActionProviderClient)
    (errorString : String) :
    (x.wait client (.result .succeeded errorString)).2.1 =
      { x with done := true, state := .completed } := rfl

theorem wait_canceled (x : PlanExecution) (client : ActionProviderClient) (errorString : String) :
    (x.wait client (.result .canceled errorString)).2.1 =
        { x with done := true, canceled := true, state := .canceled } ∧
      ((x.wait client (.result .canceled errorString)).2.2 = .ok () ↔
        x.cancelRequested = true) := by
  refine ⟨rfl, ?_⟩
  unfold PlanExecution.wait ActionProviderClient.waitJointTrajectory
  cases x.cancelRequested <;> simp

theorem wait_other (x : PlanExecution) (client : ActionProviderClient) (code : ℕ)
    (errorString : String) :
    (x.wait client (.result (.other code) errorString)).2.1 = { x with state := .failed } := rfl

/-- A `cancel()` that returns overwrites the state; one that raises changes no field. -/
theorem cancel_cases (x : PlanExecution) (client : ActionProviderClient)
    (answer : ActionProviderClient.CancelAnswer) :
    (((client.goalHandles.get? x.part).isSome = true ∧ answer ≠ .answered) ∧
      (x.cancel client answer).2.2.1 = x ∧ (x.cancel client answer).2.2.2.isOk = false) ∨
    (¬ ((client.goalHandles.get? x.part).isSome = true ∧ answer ≠ .answered) ∧
      (x.cancel client answer).2.2.1 =
        { x with canceled := true, cancelRequested := true, state := .cancelRequested } ∧
      (x.cancel client answer).2.2.2.isOk = true) := by
  cases hs : client.goalHandles.get? x.part with
  | none =>
    rw [PlanExecution.cancel_none hs]
    exact Or.inr ⟨fun h => absurd h.1 Bool.false_ne_true, rfl, rfl⟩
  | some handle =>
    unfold PlanExecution.cancel ActionProviderClient.cancelJointTrajectory
    rw [hs]
    cases answer with
    | timedOut => exact Or.inl ⟨⟨rfl, by simp⟩, rfl, rfl⟩
    | raised e => exact Or.inl ⟨⟨rfl, by simp⟩, rfl, rfl⟩
    | answered => exact Or.inr ⟨fun h => h.2 rfl, rfl, rfl⟩

/-! ## Runs -/

/-- What holds as long as every call was allowed. -/
structure Inv (status : ActionProviderClient.GoalStatus) (s : Watched) : Prop where
  truthful : Truthful status s
  requested : s.execution.cancelRequested = s.returned
  canceled : s.received = false → s.execution.canceled = s.returned
  completed : s.received = true → status = .succeeded → s.returned = false
  named : s.received = true → status = .succeeded ∨ status = .canceled

variable {status : ActionProviderClient.GoalStatus} {s : Watched}

theorem Inv.state_ne (h : Inv status s) {state : PlanExecutionState}
    (hstate : state = .timedOut ∨ state = .failed ∨ state = .cancelRequested) :
    s.received = true → state ≠ terminalState status := by
  intro hr
  rcases h.named hr with rfl | rfl <;> rcases hstate with rfl | rfl | rfl <;> simp [terminalState]

/-- A call that receives no status but sets the state keeps the truth exactly if none was received
before. -/
theorem truthful_overwritten {s' : Watched} {state : PlanExecutionState} (h : Inv status s)
    (hreceived : s'.received = s.received) (hdone : s'.execution.done = s.execution.done)
    (hstate : s'.execution.state = state)
    (hother : state = .timedOut ∨ state = .failed ∨ state = .cancelRequested) :
    Truthful status s' ↔ s.received = false := by
  constructor
  · intro ht
    by_contra hr
    rw [Bool.not_eq_false] at hr
    have hfinal := (ht.final (hreceived.trans hr)).1
    rw [hstate] at hfinal
    exact h.state_ne hother hr hfinal
  · intro hr
    rw [hr] at hreceived
    refine ⟨fun hx => ?_, fun _ => ?_⟩
    · rw [hreceived] at hx
      exact absurd hx Bool.false_ne_true
    · rw [hdone]
      exact h.truthful.pending hr

theorem callTruthful_notTerminal {call : OutcomeCall}
    (hcall : ∀ errorString, call ≠ .wait (.terminal errorString)) :
    CallTruthful status s call ↔ Truthful status (s.step status call) :=
  ⟨fun h => h.1, fun h => ⟨h, fun errorString he => absurd he (hcall errorString)⟩⟩

theorem callTruthful_timedOut (h : Inv status s) :
    CallTruthful status s (.wait .timedOut) ↔ s.received = false := by
  rw [callTruthful_notTerminal (by simp)]
  exact truthful_overwritten h (by simp [step, WaitAnswer.isTerminal]) rfl rfl (Or.inl rfl)

theorem callTruthful_raised (h : Inv status s) {e : PyError}
    (he : e.kind ≠ .trajectoryCanceledError) :
    CallTruthful status s (.wait (.raised e he)) ↔ s.received = false := by
  obtain ⟨state, hstate, hx⟩ := wait_raised s.execution s.client he
  have hexecution : (s.step status (.wait (.raised e he))).execution =
      { s.execution with state := state } := hx
  rw [callTruthful_notTerminal (by simp)]
  have hreceived : (s.step status (.wait (.raised e he))).received = s.received := by
    simp [step, WaitAnswer.isTerminal]
  have hdone := congrArg PlanExecution.done hexecution
  have hset := congrArg PlanExecution.state hexecution
  exact truthful_overwritten h hreceived hdone hset (hstate.elim Or.inl fun hf =>
    Or.inr (Or.inl hf))

theorem received_terminal (status : ActionProviderClient.GoalStatus) (s : Watched)
    (errorString : String) :
    (s.step status (.wait (.terminal errorString))).received = true := by
  simp [step, WaitAnswer.isTerminal]

theorem callTruthful_succeeded (h : Inv .succeeded s) (errorString : String) :
    CallTruthful .succeeded s (.wait (.terminal errorString)) ↔ s.returned = false := by
  have hreceived := received_terminal .succeeded s errorString
  have hx : (s.step .succeeded (.wait (.terminal errorString))).execution =
      { s.execution with done := true, state := .completed } :=
    wait_succeeded s.execution s.client errorString
  constructor
  · intro ht
    cases hr : s.received with
    | true => exact h.completed hr rfl
    | false =>
      have hcanceled := (ht.1.final hreceived).2.2
      rw [hx] at hcanceled
      rw [← h.canceled hr]
      simpa using hcanceled
  · intro hreturned
    have hcanceled : s.execution.canceled = false := by
      cases hr : s.received with
      | true => simpa using (h.truthful.final hr).2.2
      | false => rw [h.canceled hr, hreturned]
    refine ⟨⟨fun _ => ?_, fun hr => ?_⟩, fun _ _ hs => by cases hs⟩
    · rw [hx]
      exact ⟨rfl, rfl, by simp [hcanceled]⟩
    · rw [hreceived] at hr
      cases hr

theorem callTruthful_canceled (h : Inv .canceled s) (errorString : String) :
    CallTruthful .canceled s (.wait (.terminal errorString)) ↔ s.returned = s.issued := by
  have hreceived := received_terminal .canceled s errorString
  have hx : (s.step .canceled (.wait (.terminal errorString))).execution =
      { s.execution with done := true, canceled := true, state := .canceled } :=
    (wait_canceled s.execution s.client errorString).1
  have htruthful : Truthful .canceled (s.step .canceled (.wait (.terminal errorString))) := by
    refine ⟨fun _ => ?_, fun hr => ?_⟩
    · rw [hx]
      exact ⟨rfl, rfl, by simp⟩
    · rw [hreceived] at hr
      cases hr
  have hreturns := (wait_canceled s.execution s.client errorString).2
  rw [h.requested] at hreturns
  constructor
  · intro ht
    have hissued := ht.2 errorString rfl rfl
    rw [hreturns] at hissued
    exact Bool.eq_iff_iff.mpr hissued
  · intro heq
    refine ⟨htruthful, fun text he _ => ?_⟩
    cases he
    rw [hreturns, heq]

/-- A status other than the two named ones leaves the execution undone. -/
theorem callTruthful_other {code : ℕ} (h : Inv (.other code) s) (errorString : String) :
    ¬ CallTruthful (.other code) s (.wait (.terminal errorString)) := by
  intro ht
  have hdone := (ht.1.final (received_terminal (.other code) s errorString)).2.1
  have hx : (s.step (.other code) (.wait (.terminal errorString))).execution =
      { s.execution with state := .failed } :=
    wait_other s.execution s.client code errorString
  rw [hx] at hdone
  cases hr : s.received with
  | true => rcases h.named hr with hs | hs <;> cases hs
  | false =>
    have hpending := h.truthful.pending hr
    rw [show s.execution.done = true from hdone] at hpending
    cases hpending

theorem callTruthful_cancel (h : Inv status s) (answer : ActionProviderClient.CancelAnswer) :
    CallTruthful status s (.cancel answer) ↔ s.received = false ∨
      ((s.client.goalHandles.get? s.execution.part).isSome = true ∧ answer ≠ .answered) := by
  rw [callTruthful_notTerminal (by simp)]
  rcases cancel_cases s.execution s.client answer with ⟨hraises, hx, -⟩ | ⟨hreturns, hx, -⟩
  · have hexecution : (s.step status (.cancel answer)).execution = s.execution := hx
    refine ⟨fun _ => Or.inr hraises, fun _ => ⟨fun hr => ?_, fun hr => ?_⟩⟩
    · rw [hexecution]
      exact h.truthful.final hr
    · rw [hexecution]
      exact h.truthful.pending hr
  · have hexecution : (s.step status (.cancel answer)).execution =
        { s.execution with canceled := true, cancelRequested := true, state := .cancelRequested } :=
      hx
    have hiff : Truthful status (s.step status (.cancel answer)) ↔ s.received = false := by
      refine truthful_overwritten h rfl ?_ ?_ (Or.inr (Or.inr rfl)) <;> rw [hexecution]
    rw [hiff]
    exact ⟨Or.inl, fun hor => hor.resolve_right hreturns⟩

/-- Under the invariant the allowed calls are exactly those that keep the truth. -/
theorem callTruthful_iff (h : Inv status s) (call : OutcomeCall) :
    CallTruthful status s call ↔ CallAllowed status s call := by
  cases call with
  | wait answer =>
    cases answer with
    | timedOut => exact callTruthful_timedOut h
    | raised e he => exact callTruthful_raised h he
    | terminal errorString =>
      cases status with
      | succeeded => exact callTruthful_succeeded h errorString
      | canceled => exact callTruthful_canceled h errorString
      | other code =>
        exact ⟨fun ht => callTruthful_other h errorString ht, fun hf => absurd hf id⟩
  | cancel answer => exact callTruthful_cancel h answer
  | elsewhere client =>
    rw [callTruthful_notTerminal (by simp)]
    exact ⟨fun _ => trivial, fun _ => ⟨h.truthful.final, h.truthful.pending⟩⟩

theorem inv_init (status : ActionProviderClient.GoalStatus) (client : ActionProviderClient)
    (part : String) (handle : GoalHandle) : Inv status (init client part handle) where
  truthful := ⟨fun hr => absurd hr Bool.false_ne_true, fun _ => rfl⟩
  requested := rfl
  canceled _ := rfl
  completed hr := absurd hr Bool.false_ne_true
  named hr := absurd hr Bool.false_ne_true

/-- A wait that times out or fails keeps the invariant while no status was received. -/
theorem inv_interrupted {s' : Watched} {state : PlanExecutionState} (h : Inv status s)
    (htruthful : Truthful status s') (hpending : s.received = false)
    (hreceived : s'.received = s.received) (hreturned : s'.returned = s.returned)
    (hexecution : s'.execution = { s.execution with state := state }) : Inv status s' := by
  have hnot : s'.received ≠ true := by
    rw [hreceived, hpending]
    exact Bool.false_ne_true
  refine ⟨htruthful, ?_, fun _ => ?_, fun hr => absurd hr hnot, fun hr => absurd hr hnot⟩
  · rw [hexecution, hreturned]
    exact h.requested
  · rw [hexecution, hreturned]
    exact h.canceled hpending

theorem inv_terminal (h : Inv status s) (errorString : String)
    (hallowed : CallAllowed status s (.wait (.terminal errorString)))
    (htruthful : Truthful status (s.step status (.wait (.terminal errorString)))) :
    Inv status (s.step status (.wait (.terminal errorString))) := by
  have hr := received_terminal status s errorString
  cases status with
  | succeeded =>
    exact ⟨htruthful, h.requested, fun hf => absurd (hf.symm.trans hr) Bool.false_ne_true,
      fun _ _ => hallowed, fun _ => Or.inl rfl⟩
  | canceled =>
    refine ⟨htruthful, h.requested, fun hf => absurd (hf.symm.trans hr) Bool.false_ne_true,
      fun _ hs => ?_, fun _ => Or.inr rfl⟩
    cases hs
  | other code => exact absurd hallowed id

theorem inv_cancel (h : Inv status s) (answer : ActionProviderClient.CancelAnswer)
    (hallowed : CallAllowed status s (.cancel answer))
    (htruthful : Truthful status (s.step status (.cancel answer))) :
    Inv status (s.step status (.cancel answer)) := by
  rcases cancel_cases s.execution s.client answer with ⟨-, hx, hok⟩ | ⟨hreturns, hx, hok⟩
  · have hexecution : (s.step status (.cancel answer)).execution = s.execution := hx
    have hreturned : (s.step status (.cancel answer)).returned = s.returned := by
      simp [step, hok]
    refine ⟨htruthful, ?_, fun hr => ?_, fun hr hs => ?_, h.named⟩
    · rw [hexecution, hreturned]
      exact h.requested
    · rw [hexecution, hreturned]
      exact h.canceled hr
    · rw [hreturned]
      exact h.completed hr hs
  · have hpending : s.received = false := hallowed.resolve_right hreturns
    have hexecution : (s.step status (.cancel answer)).execution =
        { s.execution with canceled := true, cancelRequested := true,
                           state := .cancelRequested } := hx
    have hreturned : (s.step status (.cancel answer)).returned = true := by
      simp [step, hok]
    refine ⟨htruthful, ?_, fun _ => ?_,
      fun hr => absurd (hpending.symm.trans hr) Bool.false_ne_true, h.named⟩
    · rw [hexecution, hreturned]
    · rw [hexecution, hreturned]

theorem inv_step (h : Inv status s) {call : OutcomeCall} (hcall : CallAllowed status s call) :
    Inv status (s.step status call) := by
  have htruthful := ((callTruthful_iff h call).mpr hcall).1
  cases call with
  | wait answer =>
    cases answer with
    | timedOut =>
      exact inv_interrupted h htruthful hcall (by simp [step, WaitAnswer.isTerminal]) rfl rfl
    | raised e he =>
      obtain ⟨state, -, hx⟩ := wait_raised s.execution s.client he
      exact inv_interrupted h htruthful hcall (by simp [step, WaitAnswer.isTerminal]) rfl hx
    | terminal errorString => exact inv_terminal h errorString hcall htruthful
  | cancel answer => exact inv_cancel h answer hcall htruthful
  | elsewhere client =>
    exact ⟨htruthful, h.requested, h.canceled, h.completed, h.named⟩

/-- **Outcome of a plan execution.** A sequence of calls leaves the execution truthful after every
call exactly when every call is allowed where it is made. -/
theorem outcome_truthful_iff (status : ActionProviderClient.GoalStatus)
    (client : ActionProviderClient) (part : String) (handle : GoalHandle)
    (calls : List OutcomeCall) :
    Trace.Follows (step status) (CallTruthful status) (init client part handle) calls ↔
      Trace.Follows (step status) (CallAllowed status) (init client part handle) calls := by
  have hinit : Inv status (init client part handle) := inv_init status client part handle
  exact Trace.follows_congr (Inv status) (fun s call h _ => callTruthful_iff h call)
    (fun s call h _ hcall => inv_step h hcall) hinit (Trace.follows_true _ calls)

/-- A goal that succeeded is reported as not completed once `cancel()` is called after it. -/
theorem outcome_overwritten :
    ¬ Trace.Follows (step .succeeded) (CallTruthful .succeeded)
      (init { ActionProviderClient.new none with
        goalHandles := Dict.ofPairs [("arm", ⟨1, true⟩)] } "arm" ⟨1, true⟩)
      [.wait (.terminal ""), .cancel .answered] := by
  intro h
  have hstate := (h.2.1.1.final rfl).1
  cases hstate

end Watched
end PhysicalAiRuntime.Provider
