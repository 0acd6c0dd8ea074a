import PhysicalAiRuntime.Foundations.Trace
import PhysicalAiRuntime.Provider.Client

/-! `PlanExecution`, and runs of any number of executions over one bound command client. The client
keeps one goal handle a part and does not look whose it is; which calls still reach the goal of
their own execution follows from the order the calls were made in. -/
namespace PhysicalAiRuntime.Provider
open Authority
set_option autoImplicit false
set_option maxHeartbeats 250000

inductive PlanExecutionState where
  | accepted
  | completed
  | cancelRequested
  | canceled
  | failed
  | timedOut
  deriving DecidableEq, Repr

structure PlanExecution where
  part : String
  handle : GoalHandle
  state : PlanExecutionState
  done : Bool
  canceled : Bool
  cancelRequested : Bool
  deriving DecidableEq, Repr

namespace PlanExecution

def new (part : String) (handle : GoalHandle) : PlanExecution :=
  ⟨part, handle, .accepted, false, false, false⟩

/-- `wait`, with the answer its own handle gives. -/
def wait (x : PlanExecution) (client : ActionProviderClient)
    (answer : ActionProviderClient.ResultAnswer) :
    ActionProviderClient × PlanExecution × Except PyError Unit :=
  match client.waitJointTrajectory x.part answer with
  | (client', .ok ()) => (client', { x with done := true, state := .completed }, .ok ())
  | (client', .error e) =>
    match e.kind with
    | .timeoutError => (client', { x with state := .timedOut }, .error e)
    | .trajectoryCanceledError =>
      (client', { x with done := true, canceled := true, state := .canceled },
        if x.cancelRequested then .ok () else .error e)
    | _ => (client', { x with state := .failed }, .error e)

/-- `cancel`, and the handle that was asked to cancel. -/
def cancel (x : PlanExecution) (client : ActionProviderClient)
    (answer : ActionProviderClient.CancelAnswer) :
    ActionProviderClient × Option GoalHandle × PlanExecution × Except PyError Unit :=
  match client.cancelJointTrajectory x.part answer with
  | (client', asked, .error e) => (client', asked, x, .error e)
  | (client', asked, .ok ()) =>
    (client', asked,
      { x with canceled := true, cancelRequested := true, state := .cancelRequested }, .ok ())

/-- A wait leaves the client as its call does, and keeps the handle. -/
theorem wait_forwards (x : PlanExecution) (client : ActionProviderClient)
    (answer : ActionProviderClient.ResultAnswer) :
    (x.wait client answer).1 = (client.waitJointTrajectory x.part answer).1 ∧
      (x.wait client answer).2.1.handle = x.handle := by
  unfold wait
  cases h : client.waitJointTrajectory x.part answer with
  | mk client' result =>
    cases result with
    | ok _ => exact ⟨rfl, rfl⟩
    | error e => cases he : e.kind <;> simp [he]

theorem cancel_none {x : PlanExecution} {client : ActionProviderClient}
    (h : client.goalHandles.get? x.part = none) (answer : ActionProviderClient.CancelAnswer) :
    x.cancel client answer = (client, none,
      { x with canceled := true, cancelRequested := true, state := .cancelRequested }, .ok ()) := by
  unfold cancel ActionProviderClient.cancelJointTrajectory
  rw [h]

/-- With a handle in the slot, the handle is asked and forgotten, and the call returns exactly when
the request is answered. -/
theorem cancel_some {x : PlanExecution} {client : ActionProviderClient} {h : GoalHandle}
    (hs : client.goalHandles.get? x.part = some h) (answer : ActionProviderClient.CancelAnswer) :
    (x.cancel client answer).1 = { client with goalHandles := client.goalHandles.erase x.part } ∧
    (x.cancel client answer).2.1 = some h ∧
    (x.cancel client answer).2.2.1.handle = x.handle ∧
    ((x.cancel client answer).2.2.2 = .ok () ↔ answer = .answered) := by
  unfold cancel ActionProviderClient.cancelJointTrajectory
  rw [hs]
  cases answer <;> simp

theorem cancel_handle (x : PlanExecution) (client : ActionProviderClient)
    (answer : ActionProviderClient.CancelAnswer) :
    (x.cancel client answer).2.2.1.handle = x.handle := by
  cases hs : client.goalHandles.get? x.part with
  | none => rw [cancel_none hs]
  | some h => exact (cancel_some hs answer).2.2.1

end PlanExecution

/-! ## Runs of executions -/

/-- What became of the slot of a part: the goal of a new execution was put in, or it was emptied. -/
inductive SlotChange where
  | started (part : String) (goalId : ℕ)
  | emptied (part : String)
  deriving DecidableEq, Repr

/-- The goal started last on a part, if no call has emptied the slot since. -/
def openGoal (part : String) (history : List SlotChange) : Option ℕ :=
  history.foldl (fun current change =>
    match change with
    | .started p goalId => if p = part then some goalId else current
    | .emptied p => if p = part then none else current) none

@[simp] theorem openGoal_started (part p : String) (goalId : ℕ) (history : List SlotChange) :
    openGoal part (history ++ [.started p goalId]) =
      if p = part then some goalId else openGoal part history := by
  simp [openGoal, List.foldl_append]

@[simp] theorem openGoal_emptied (part p : String) (history : List SlotChange) :
    openGoal part (history ++ [.emptied p]) =
      if p = part then none else openGoal part history := by
  simp [openGoal, List.foldl_append]

/-- A bound client and the executions started through it. `goals` numbers the goals, `history`
records which calls started a goal or emptied a slot, `observed` the goals whose result came back,
`answered` the goals whose cancel request was answered. -/
structure Plans where
  client : ActionProviderClient
  executions : List PlanExecution
  goals : ℕ
  history : List SlotChange
  observed : List ℕ
  answered : List ℕ

inductive PlanCall where
  | start (part : String) (trajectory : ActionValue) (jointNames : List String) (now : Stamp)
      (answer : ActionProviderClient.StartAnswer)
  | wait (x : ℕ) (answer : ActionProviderClient.ResultAnswer)
  | cancel (x : ℕ) (answer : ActionProviderClient.CancelAnswer)

/-- The action server gives each goal a number of its own. -/
def numbered (goalId : ℕ) : ActionProviderClient.StartAnswer → ActionProviderClient.StartAnswer
  | .answered handle => .answered { handle with goalId := goalId }
  | answer => answer

def isResult : ActionProviderClient.ResultAnswer → Bool
  | .result _ _ => true
  | _ => false

namespace Plans

def init (profile : Option (Dict String PartConfig)) (grant : LeaseGrant) : Plans where
  client := { ActionProviderClient.new profile with
    leaseId := grant.leaseId
    bindings := grant.endpoints }
  executions := []
  goals := 0
  history := []
  observed := []
  answered := []

def start (s : Plans) (part : String) (trajectory : ActionValue) (jointNames : List String)
    (now : Stamp) (answer : ActionProviderClient.StartAnswer) : Plans :=
  match s.client.startJointTrajectory part trajectory jointNames now (numbered s.goals answer) with
  | (client, _, .error _) => { s with client := client, goals := s.goals + 1 }
  | (client, _, .ok handle) =>
    { s with
      client := client
      executions := s.executions ++ [PlanExecution.new part handle]
      goals := s.goals + 1
      history := s.history ++ [.started part handle.goalId] }

def wait (s : Plans) (x : ℕ) (answer : ActionProviderClient.ResultAnswer) : Plans :=
  match s.executions[x]? with
  | none => s
  | some X =>
    let (client, X', _) := X.wait s.client answer
    { s with
      client := client
      executions := s.executions.set x X'
      history := if isResult answer then s.history ++ [.emptied X.part] else s.history
      observed := if isResult answer then s.observed ++ [X.handle.goalId] else s.observed }

def cancel (s : Plans) (x : ℕ) (answer : ActionProviderClient.CancelAnswer) : Plans :=
  match s.executions[x]? with
  | none => s
  | some X =>
    let (client, asked, X', _) := X.cancel s.client answer
    { s with
      client := client
      executions := s.executions.set x X'
      history := s.history ++ [.emptied X.part]
      answered := match answer with
        | .answered => s.answered ++ (asked.map GoalHandle.goalId).toList
        | _ => s.answered }

def step (s : Plans) : PlanCall → Plans
  | .start part trajectory jointNames now answer => s.start part trajectory jointNames now answer
  | .wait x answer => s.wait x answer
  | .cancel x answer => s.cancel x answer

/-! ## The slot and the history -/

/-- The slot of a part holds the goal that the history leaves open. -/
structure Inv (s : Plans) : Prop where
  slot : ∀ part, s.client.goalHandles.get? part =
    (openGoal part s.history).map fun goalId => ⟨goalId, true⟩
  accepted : ∀ X ∈ s.executions, X.handle.accepted = true

/-- A start that raises leaves the slots alone; one that returns fills the slot of its part. -/
theorem start_goalHandles (c : ActionProviderClient) (part : String) (trajectory : ActionValue)
    (jointNames : List String) (now : Stamp) (answer : ActionProviderClient.StartAnswer) :
    (∃ e, (c.startJointTrajectory part trajectory jointNames now answer).2.2 = .error e ∧
      (c.startJointTrajectory part trajectory jointNames now answer).1.goalHandles =
        c.goalHandles) ∨
    ∃ handle, answer = .answered handle ∧ handle.accepted = true ∧
      (c.startJointTrajectory part trajectory jointNames now answer).2.2 = .ok handle ∧
      (c.startJointTrajectory part trajectory jointNames now answer).1.goalHandles =
        c.goalHandles.set part handle := by
  unfold ActionProviderClient.startJointTrajectory
  cases hc : c.startCheck part trajectory jointNames with
  | error e => exact Or.inl ⟨e, rfl, rfl⟩
  | ok r =>
    obtain ⟨c', m⟩ := r
    have hg := (ActionProviderClient.startCheck_stores hc).2
    cases answer with
    | serverUnavailable => exact Or.inl ⟨_, rfl, hg⟩
    | dispatchRaised e => exact Or.inl ⟨_, rfl, hg⟩
    | acceptTimedOut => exact Or.inl ⟨_, rfl, hg⟩
    | acceptRaised e => exact Or.inl ⟨_, rfl, hg⟩
    | answered handle =>
      by_cases ha : handle.accepted = true
      · refine Or.inr ⟨handle, rfl, ha, ?_⟩
        simp [ActionProviderClient.startAccept, ha, hg]
      · refine Or.inl ?_
        simp [ActionProviderClient.startAccept, ha, hg]

theorem inv_init (profile : Option (Dict String PartConfig)) (grant : LeaseGrant) :
    (init profile grant).Inv :=
  ⟨fun _ => rfl, fun _ hX => absurd hX List.not_mem_nil⟩

theorem inv_start {s : Plans} (h : s.Inv) (part : String) (trajectory : ActionValue)
    (jointNames : List String) (now : Stamp) (answer : ActionProviderClient.StartAnswer) :
    (s.start part trajectory jointNames now answer).Inv := by
  have hcall := start_goalHandles s.client part trajectory jointNames now
    (numbered s.goals answer)
  unfold start
  generalize s.client.startJointTrajectory part trajectory jointNames now
    (numbered s.goals answer) = call at hcall ⊢
  obtain ⟨client, goal, result⟩ := call
  rcases hcall with ⟨e, hr, hg⟩ | ⟨handle, hanswer, hacc, hr, hg⟩
  · cases hr
    refine ⟨fun p => ?_, h.accepted⟩
    change client.goalHandles.get? p = _
    rw [show client.goalHandles = s.client.goalHandles from hg]
    exact h.slot p
  · cases hr
    refine ⟨fun p => ?_, fun X hX => ?_⟩
    · change client.goalHandles.get? p = (openGoal p (s.history ++ [_])).map _
      rw [show client.goalHandles = s.client.goalHandles.set part handle from hg,
        Dict.get?_set, openGoal_started]
      by_cases hp : p = part
      · subst hp
        simp [← hacc]
      · rw [if_neg hp, if_neg (Ne.symm hp)]
        exact h.slot p
    · rcases List.mem_append.mp hX with hX | hX
      · exact h.accepted X hX
      · rw [List.mem_singleton.mp hX]
        exact hacc

theorem slot_emptied {s : Plans} (h : s.Inv) (part p : String) :
    (s.client.goalHandles.erase part).get? p =
      (openGoal p (s.history ++ [.emptied part])).map fun goalId => ⟨goalId, true⟩ := by
  rw [Dict.get?_erase, openGoal_emptied]
  by_cases hp : p = part
  · simp [hp]
  · rw [if_neg hp, if_neg (Ne.symm hp)]
    exact h.slot p

theorem accepted_set {s : Plans} (h : s.Inv) {x : ℕ} {X X' : PlanExecution}
    (hx : s.executions[x]? = some X) (hh : X'.handle = X.handle) :
    ∀ Y ∈ s.executions.set x X', Y.handle.accepted = true := by
  intro Y hY
  rcases List.mem_or_eq_of_mem_set hY with hmem | rfl
  · exact h.accepted Y hmem
  · rw [hh]
    exact h.accepted X (List.mem_of_getElem? hx)

theorem inv_wait {s : Plans} (h : s.Inv) (x : ℕ) (answer : ActionProviderClient.ResultAnswer) :
    (s.wait x answer).Inv := by
  unfold wait
  cases hx : s.executions[x]? with
  | none => exact h
  | some X =>
    refine ⟨fun p => ?_, accepted_set h hx (X.wait_forwards s.client answer).2⟩
    change (X.wait s.client answer).1.goalHandles.get? p = (openGoal p (if _ then _ else _)).map _
    rw [(X.wait_forwards _ _).1]
    cases answer with
    | timedOut => exact h.slot p
    | raised e => exact h.slot p
    | result status errorString => exact slot_emptied h X.part p

theorem inv_cancel {s : Plans} (h : s.Inv) (x : ℕ) (answer : ActionProviderClient.CancelAnswer) :
    (s.cancel x answer).Inv := by
  unfold cancel
  cases hx : s.executions[x]? with
  | none => exact h
  | some X =>
    refine ⟨fun p => ?_, accepted_set h hx (X.cancel_handle s.client answer)⟩
    change (X.cancel s.client answer).1.goalHandles.get? p = _
    rw [← slot_emptied h X.part p]
    cases hs : s.client.goalHandles.get? X.part with
    | none =>
      rw [PlanExecution.cancel_none hs, Dict.get?_erase]
      by_cases hp : p = X.part
      · rw [if_pos hp, hp, hs]
      · rw [if_neg hp]
    | some handle => rw [(PlanExecution.cancel_some hs answer).1]

theorem inv_step {s : Plans} (h : s.Inv) (l : PlanCall) : (s.step l).Inv := by
  cases l with
  | start part trajectory jointNames now answer =>
    exact inv_start h part trajectory jointNames now answer
  | wait x answer => exact inv_wait h x answer
  | cancel x answer => exact inv_cancel h x answer

/-! ## Which calls reach their own goal -/

def ForgetsOnly (own : GoalHandle) (before after : ActionProviderClient) : Prop :=
  ∀ part handle, before.goalHandles.get? part = some handle →
    after.goalHandles.get? part = some handle ∨ handle = own

/-- What a call made through execution `x` may do to the goals: it forgets its own handle only, it
asks only its own goal to cancel, and a `cancel` that returns has had that request answered unless
the goal was already known to be over or to be canceling. -/
def ReachesOwnGoal (s : Plans) : PlanCall → Prop
  | .start _ _ _ _ _ => True
  | .wait x answer => ∀ X, s.executions[x]? = some X →
    ForgetsOnly X.handle s.client (X.wait s.client answer).1
  | .cancel x answer => ∀ X, s.executions[x]? = some X →
    ForgetsOnly X.handle s.client (X.cancel s.client answer).1 ∧
    (∀ handle, (X.cancel s.client answer).2.1 = some handle → handle = X.handle) ∧
    ((X.cancel s.client answer).2.2.2 = .ok () → X.handle.goalId ∉ s.observed →
      X.handle.goalId ∉ s.answered →
      (X.cancel s.client answer).2.1 = some X.handle ∧ answer = .answered)

/-- The calls that were made leave the goal of `X` open on its part, or leave none open there. -/
def OpenOrNone (s : Plans) (X : PlanExecution) : Prop :=
  openGoal X.part s.history = none ∨ openGoal X.part s.history = some X.handle.goalId

/-- A wait sees a result, and a cancel is made, while the goal of the execution is the open one of
its part; where no goal is open, a cancel comes after the goal was over or its cancel answered. -/
def InOrder (s : Plans) : PlanCall → Prop
  | .start _ _ _ _ _ => True
  | .wait x answer => ∀ X, s.executions[x]? = some X → isResult answer = true → s.OpenOrNone X
  | .cancel x _ => ∀ X, s.executions[x]? = some X → s.OpenOrNone X ∧
    (openGoal X.part s.history = none →
      X.handle.goalId ∈ s.observed ∨ X.handle.goalId ∈ s.answered)

theorem forgetsOnly_refl (own : GoalHandle) (c : ActionProviderClient) : ForgetsOnly own c c :=
  fun _ _ h => Or.inl h

theorem forgetsOnly_erase (own : GoalHandle) (c : ActionProviderClient) (part : String) :
    ForgetsOnly own c { c with goalHandles := c.goalHandles.erase part } ↔
      ∀ handle, c.goalHandles.get? part = some handle → handle = own := by
  constructor
  · intro h handle hs
    rcases h part handle hs with hkept | heq
    · rw [Dict.get?_erase_self] at hkept
      cases hkept
    · exact heq
  · intro h p handle hs
    by_cases hp : p = part
    · exact Or.inr (h handle (hp ▸ hs))
    · refine Or.inl ?_
      rw [Dict.get?_erase, if_neg hp]
      exact hs

/-- The slot holds nothing but the handle of `X` exactly when the history says so. -/
theorem Inv.slot_own {s : Plans} (h : s.Inv) {X : PlanExecution} (hX : X ∈ s.executions) :
    (∀ handle, s.client.goalHandles.get? X.part = some handle → handle = X.handle) ↔
      s.OpenOrNone X := by
  have hacc := h.accepted X hX
  unfold OpenOrNone
  rw [h.slot X.part]
  cases openGoal X.part s.history with
  | none => simp
  | some goalId =>
    simp only [Option.map_some, Option.some.injEq, forall_eq', reduceCtorEq, false_or]
    constructor
    · intro he
      rw [← he]
    · intro he
      rw [he, ← hacc]

theorem wait_iff {s : Plans} (h : s.Inv) (x : ℕ) (answer : ActionProviderClient.ResultAnswer) :
    s.ReachesOwnGoal (.wait x answer) ↔ s.InOrder (.wait x answer) := by
  refine forall_congr' fun X => forall_congr' fun hx => ?_
  rw [(X.wait_forwards _ _).1]
  cases answer with
  | timedOut => exact ⟨fun _ hr => absurd hr Bool.false_ne_true, fun _ => forgetsOnly_refl _ _⟩
  | raised e => exact ⟨fun _ hr => absurd hr Bool.false_ne_true, fun _ => forgetsOnly_refl _ _⟩
  | result status errorString =>
    have hiff := (forgetsOnly_erase X.handle s.client X.part).trans
      (h.slot_own (List.mem_of_getElem? hx))
    exact ⟨fun hf _ => hiff.mp hf, fun ho => hiff.mpr (ho rfl)⟩

theorem cancel_iff {s : Plans} (h : s.Inv) (x : ℕ) (answer : ActionProviderClient.CancelAnswer) :
    s.ReachesOwnGoal (.cancel x answer) ↔ s.InOrder (.cancel x answer) := by
  refine forall_congr' fun X => forall_congr' fun hx => ?_
  have hown := h.slot_own (List.mem_of_getElem? hx)
  have hslot := h.slot X.part
  cases hs : s.client.goalHandles.get? X.part with
  | none =>
    rw [hs] at hslot
    have hnone : openGoal X.part s.history = none := Option.map_eq_none_iff.mp hslot.symm
    rw [PlanExecution.cancel_none hs]
    constructor
    · intro hr
      refine ⟨Or.inl hnone, fun _ => ?_⟩
      by_contra hc
      rw [not_or] at hc
      have hsent := hr.2.2 rfl hc.1 hc.2
      cases hsent.1
    · intro ho
      refine ⟨forgetsOnly_refl _ _, fun _ hf => ?_, fun _ hobs hans => ?_⟩
      · cases hf
      rcases ho.2 hnone with hm | hm
      · exact absurd hm hobs
      · exact absurd hm hans
  | some handle =>
    obtain ⟨hclient, hasked, -, hok⟩ := PlanExecution.cancel_some hs answer
    have hsome : openGoal X.part s.history ≠ none := by
      intro hn
      rw [hs, hn] at hslot
      cases hslot
    rw [hclient, hasked, forgetsOnly_erase, hown]
    constructor
    · intro hr
      exact ⟨hr.1, fun hn => absurd hn hsome⟩
    · intro ho
      have heq : handle = X.handle := hown.mpr ho.1 handle hs
      refine ⟨ho.1, fun other hother => ?_, fun hreturns _ _ => ?_⟩
      · rw [← Option.some.inj hother]
        exact heq
      · exact ⟨congrArg some heq, hok.mp hreturns⟩

/-- **Calls reach their own goal.** Over any run of calls on a bound client, every call made through
an execution touches and reaches the goal of that execution exactly when the calls come in order. -/
theorem calls_reach_own_goal_iff (profile : Option (Dict String PartConfig)) (grant : LeaseGrant)
    (calls : List PlanCall) :
    Trace.Follows step ReachesOwnGoal (init profile grant) calls ↔
      Trace.Follows step InOrder (init profile grant) calls := by
  refine Trace.follows_congr Inv ?_ (fun s l h _ _ => inv_step h l) (inv_init profile grant)
    (Trace.follows_true _ calls)
  intro s l h _
  cases l with
  | start part trajectory jointNames now answer => exact Iff.rfl
  | wait x answer => exact wait_iff h x answer
  | cancel x answer => exact cancel_iff h x answer

/-! ## Two executions on the arm -/

def armGrant : LeaseGrant :=
  ⟨"lease-1", Dict.ofPairs [(("arm", "joint_trajectory"),
    ⟨"arm", "joint_trajectory", "/arm/follow_joint_trajectory", true⟩)]⟩

def armTrajectory : ActionValue :=
  .jointTrajectory ⟨Header.default, ["joint"], [⟨[1], [], [], ⟨1, 0⟩⟩]⟩

def armStart : PlanCall := .start "arm" armTrajectory ["joint"] ⟨0, 0⟩ (.answered ⟨0, true⟩)

/-- With a second execution running on the part, `cancel` of the first one asks the second to
cancel; and `cancel` after a cancel request that timed out returns without asking anybody. -/
theorem cancel_misses_own_goal :
    ¬ Trace.Follows step ReachesOwnGoal (init none armGrant)
      [armStart, armStart, .cancel 0 .answered] ∧
    ¬ Trace.Follows step ReachesOwnGoal (init none armGrant)
      [armStart, .cancel 0 .timedOut, .cancel 0 .answered] := by
  constructor
  · intro h
    have hx : (Trace.run step (init none armGrant) [armStart, armStart]).executions[0]? =
        some (PlanExecution.new "arm" ⟨0, true⟩) := by
      decide +kernel
    have hasked : ((PlanExecution.new "arm" ⟨0, true⟩).cancel
        (Trace.run step (init none armGrant) [armStart, armStart]).client .answered).2.1 =
        some ⟨1, true⟩ := by
      decide +kernel
    have hwrong := (h.2.2.1 _ hx).2.1 _ hasked
    exact absurd hwrong (by decide)
  · intro h
    have hx : (Trace.run step (init none armGrant)
        [armStart, .cancel 0 .timedOut]).executions[0]? =
        some (PlanExecution.new "arm" ⟨0, true⟩) := by
      decide +kernel
    have hreturns : ((PlanExecution.new "arm" ⟨0, true⟩).cancel
        (Trace.run step (init none armGrant) [armStart, .cancel 0 .timedOut]).client
        .answered).2.2.2 = .ok () := by
      decide +kernel
    have hasked : ((PlanExecution.new "arm" ⟨0, true⟩).cancel
        (Trace.run step (init none armGrant) [armStart, .cancel 0 .timedOut]).client
        .answered).2.1 = none := by
      decide +kernel
    have hlost := (h.2.2.1 _ hx).2.2 hreturns (by decide +kernel) (by decide +kernel)
    cases hasked.symm.trans hlost.1

end Plans
end PhysicalAiRuntime.Provider
