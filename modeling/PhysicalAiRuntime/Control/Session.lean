import Mathlib.Data.NNRat.Defs
import Mathlib.Logic.Function.Basic
import PhysicalAiRuntime.Authority.Client
import PhysicalAiRuntime.Provider.Client

/-! `Agent`, `Session` and the control stack of `Robot`, over one `ExecutionManagerClient`. The
process state is a `World`; an operation gets from its caller what the services, the clocks and the
transport answer. `__enter__` is cut where it waits: `enterClaim` runs up to the wait for the
confirming status, `enterPoll` is one iteration of that wait. -/
namespace PhysicalAiRuntime.Control
open Authority Provider
set_option autoImplicit false
set_option maxHeartbeats 250000

structure Action where
  part : String
  command : String
  value : ActionValue
  deriving DecidableEq, Repr

/-- The authority snapshot of an observation, the part of it that lease fencing reads. -/
structure Observation where
  allocations : Dict String Allocation

def Observation.allocationLease (o : Observation) (part sourceInstance : String) : Option String :=
  match o.allocations.get? part with
  | none => none
  | some allocation =>
    if allocation.sourceInstance ≠ sourceInstance then none
    else if allocation.leaseId = "" then none
    else some allocation.leaseId

structure ControlDiagnostics where
  sent : ℕ := 0
  inactiveDrops : ℕ := 0
  staleObservationDrops : ℕ := 0
  displacedExits : ℕ := 0
  deriving DecidableEq, Repr

/-! ## Agents -/

structure Agent where
  name : String
  sourceRole : SourceRole
  sourceInstance : String
  metadata : List (String × String)
  resources : Dict String String
  config : Option (Dict String PartConfig)

namespace Agent

def parts (a : Agent) : List String := a.resources.keys

def requireValidResult (result : ActionValue) : Except PyError Unit := rejectInvalidResult result

def send (action : Action) (client : ActionProviderClient) (now : Stamp) :
    Except PyError (ActionProviderClient × Publication) :=
  if action.command = "joint_trajectory" then
    .error ⟨.notImplementedError, "use robot.execute(part, plan) under an active control scope"⟩
  else do
    requireValidResult action.value
    ActionProviderClient.requireCommandForKind action.value action.command
    client.send action.part action.command action.value now

def partJointNames (a : Agent) (part : String) : Except PyError (List String) :=
  match a.config.bind fun parts => parts.get? part with
  | some config => .ok config.jointNames
  | none => .error ⟨.valueError,
      "profile joint names are required to send a result for part " ++ pyRepr part⟩

/-- The checks of `execute` before the goal is started, and the joint names it passes on. -/
def executeChecks (a : Agent) (part : String) (plan : ActionValue) :
    Except PyError (List String) :=
  match plan.attrs.points with
  | none => .error ⟨.typeError, "plan must have trajectory points"⟩
  | some points => do
    requireValidResult plan
    if points.isEmpty then
      .error ⟨.valueError, "cannot execute a plan without trajectory points"⟩
    else a.partJointNames part

def execute (a : Agent) (part : String) (plan : ActionValue) (client : ActionProviderClient)
    (now : Stamp) (answer : ActionProviderClient.StartAnswer) :
    ActionProviderClient × Option Goal × Except PyError GoalHandle :=
  match a.executeChecks part plan with
  | .error e => (client, none, .error e)
  | .ok jointNames => client.startJointTrajectory part plan jointNames now answer

end Agent

/-! ## Sessions -/

structure SessionConfig where
  source : Agent
  parts : List String
  preempt : Bool
  acquireTimeout : ℚ
  parts_ne : parts ≠ []
  parts_subset : ∀ p ∈ parts, p ∈ source.resources.keys
  acquireTimeout_pos : 0 < acquireTimeout

def pyReprList (names : List String) : String :=
  "[" ++ ", ".intercalate (names.map pyRepr) ++ "]"

def control (source : Agent) (parts : Option (List String)) (preempt : Bool)
    (acquireTimeout : ℚ) : Except PyError SessionConfig :=
  let requested := parts.getD source.parts
  if hne : requested = [] then
    .error ⟨.valueError, "source " ++ pyRepr source.name ++ " has no configured Parts"⟩
  else if hsub : ∀ p ∈ requested, p ∈ source.resources.keys then
    if hpos : 0 < acquireTimeout then
      .ok ⟨source, requested, preempt, acquireTimeout, hne, hsub, hpos⟩
    else .error ⟨.valueError, "acquire_timeout must be positive"⟩
  else
    let unknown := (requested.filter fun p => p ∉ source.resources.keys).dedup
    .error ⟨.valueError, "source " ++ pyRepr source.name ++ " is not configured for Parts " ++
      pyReprList (unknown.mergeSort fun a b => decide (a ≤ b))⟩

def SessionConfig.resources (c : SessionConfig) : Dict String String :=
  Dict.ofPairs (c.parts.filterMap fun part =>
    (c.source.resources.get? part).map fun contract => (part, contract))

structure Session where
  config : SessionConfig
  leaseId : Option String
  entered : Bool
  client : ActionProviderClient
  diagnostics : ControlDiagnostics

/-- `__init__`, on a fork of the source's command client. -/
def Session.new (config : SessionConfig) (sourceClient : ActionProviderClient) : Session :=
  ⟨config, none, false, sourceClient.fork, {}⟩

def Session.unbindClient (s : Session) : Session := { s with client := s.client.unbind }

def Session.closed (s : Session) : Session := { s.unbindClient with entered := false }

def truthy : Option String → Bool
  | none => false
  | some leaseId => leaseId ≠ ""

def Session.owns (s : Session) (part : String) (allocations : Dict String Allocation) : Bool :=
  match allocations.get? part with
  | none => false
  | some allocation =>
    allocation.authorityState = .owned ∧ some allocation.leaseId = s.leaseId

theorem Session.owns_iff {s : Session} {part : String} {allocations : Dict String Allocation} :
    s.owns part allocations = true ↔ ∃ a, allocations.get? part = some a ∧
      a.authorityState = .owned ∧ some a.leaseId = s.leaseId := by
  unfold Session.owns
  cases allocations.get? part <;> simp

theorem truthy_iff {leaseId : Option String} :
    truthy leaseId = true ↔ ∃ l, leaseId = some l ∧ l ≠ "" := by
  cases leaseId <;> simp [truthy]

/-! ## The process state -/

/-- One process: its clock, the authority client, the control stack and the sessions of the robot,
indexed by `ι`. `waiting i` is the deadline of the wait `__enter__` of session `i` is in. The last
seven fields record what an observer sees and are read by no operation. -/
structure World (ι : Type) where
  now : ℚ
  selection : ExecutionManagerClient
  controlStack : List ι
  session : ι → Session
  waiting : ι → Option ℚ
  published : List Publication
  dispatched : List Goal
  released : List String
  /-- The grant of the latest successful claim of a session, and how many there were. -/
  grant : ι → Option LeaseGrant
  entries : ι → ℕ
  lastStatus : Option (ℚ × AuthorityStatus)
  popRefusals : ℕ

namespace World
variable {ι : Type} [DecidableEq ι]

def init (now : ℚ) (timeouts : Timeouts) (config : ι → SessionConfig)
    (sourceClient : ι → ActionProviderClient) : World ι where
  now := now
  selection := ExecutionManagerClient.init timeouts
  controlStack := []
  session := fun i => Session.new (config i) (sourceClient i)
  waiting := fun _ => none
  published := []
  dispatched := []
  released := []
  grant := fun _ => none
  entries := fun _ => 0
  lastStatus := none
  popRefusals := 0

def setSession (w : World ι) (i : ι) (s : Session) : World ι :=
  { w with session := Function.update w.session i s }

@[simp] theorem setSession_self (w : World ι) (i : ι) (s : Session) :
    (w.setSession i s).session i = s := by
  simp [setSession]

theorem setSession_ne (w : World ι) {i j : ι} (s : Session) (h : j ≠ i) :
    (w.setSession i s).session j = w.session j := by
  simp [setSession, h]

/-! ## Callbacks and the clock -/

inductive Callback where
  | status (message : AuthorityStatus)
  | event (message : AuthorityEvent)
  | advance (elapsed : ℚ≥0)

def callback (w : World ι) : Callback → World ι
  | .status message =>
    { w with
      selection := w.selection.onStatus w.now message
      lastStatus := some (w.now, message) }
  | .event message => { w with selection := w.selection.onEvent message }
  | .advance elapsed => { w with now := w.now + elapsed }

/-! ## Authority checks -/

def allocations (w : World ι) : Dict String Allocation := w.selection.getAllocations w.now

def active (w : World ι) (i : ι) : Bool :=
  let s := w.session i
  s.entered && truthy s.leaseId && s.config.parts.all fun part => s.owns part w.allocations

def activeFor (w : World ι) (i : ι) (part : String) : Bool :=
  let s := w.session i
  decide (part ∈ s.config.parts) && s.entered && truthy s.leaseId && s.owns part w.allocations

def isExplicitlyDisplaced (w : World ι) (i : ι) : Bool :=
  let s := w.session i
  if ¬ truthy s.leaseId then true
  else
    (s.config.parts.any fun part =>
      match w.allocations.get? part with
      | none => false
      | some allocation => allocation.leaseId ≠ "" ∧ some allocation.leaseId ≠ s.leaseId) ||
    (w.selection.getEvents s.leaseId).any fun event => event.type = .preempted

/-! ## The control stack -/

def pushControl (w : World ι) (i : ι) : World ι :=
  { w with controlStack := w.controlStack ++ [i] }

def popControl (w : World ι) (i : ι) : Outcome (World ι) Unit :=
  if w.controlStack.getLast? ≠ some i then
    ({ w with popRefusals := w.popRefusals + 1 },
      .error ⟨.runtimeError, "control sessions must exit in stack order"⟩)
  else ({ w with controlStack := w.controlStack.dropLast }, .ok ())

def controlFor (w : World ι) (part : String) : Except PyError ι :=
  if w.controlStack.isEmpty then
    .error ⟨.runtimeError, "send_action/execute requires an active agent.run(robot) scope"⟩
  else match w.controlStack.reverse.find? fun i => part ∈ (w.session i).config.parts with
    | some i => .ok i
    | none => .error ⟨.runtimeError, "no active control scope owns part " ++ pyRepr part ++
        "; use an explicit Session when nested scopes do not cover it"⟩

/-! ## Entry and exit -/

/-- `_release_claim`: the exception of a failed release is returned, not raised. -/
def releaseClaim (w : World ι) (i : ι) (answer : ReleaseAnswer) : World ι × Option PyError :=
  match (w.session i).leaseId with
  | none => (w, none)
  | some leaseId =>
    if leaseId = "" then (w, none)
    else
      let (sent, result) := ExecutionManagerClient.release leaseId answer
      ({ w with released := if sent then w.released ++ [leaseId] else w.released },
        match result with
        | .ok () => none
        | .error e => some e)

/-- The `finally` block of `__enter__` and `__exit__`: unbind, leave the stack, be no longer
entered. A refused pop skips the last step. -/
def leave (w : World ι) (i : ι) : Outcome (World ι) Unit :=
  match (w.setSession i (w.session i).unbindClient).popControl i with
  | (w', .error e) => (w', .error e)
  | (w', .ok ()) => (w'.setSession i (w.session i).closed, .ok ())

def recordGrant (w : World ι) (i : ι) (grant : LeaseGrant) : World ι :=
  { w.setSession i { w.session i with leaseId := some grant.leaseId } with
    grant := Function.update w.grant i (some grant)
    entries := Function.update w.entries i (w.entries i + 1) }

/-- Entered, pushed and waiting for the status, with the client that was bound. -/
def beginWait (w : World ι) (i : ι) (client : ActionProviderClient) : World ι :=
  let s := w.session i
  { (w.setSession i { s with client := client, entered := true }).pushControl i with
    waiting := Function.update w.waiting i (some (w.now + s.config.acquireTimeout)) }

def claimFor (s : Session) (answer : ClaimAnswer) : Except PyError LeaseGrant :=
  ExecutionManagerClient.claim s.config.source.sourceRole s.config.source.sourceInstance
    s.config.resources s.config.preempt s.config.source.metadata answer

/-- `__enter__` up to the wait: claim, bind, push. -/
def enterClaim (w : World ι) (i : ι) (answer : ClaimAnswer) : Outcome (World ι) Unit :=
  let s := w.session i
  if s.entered then (w, .error ⟨.runtimeError, "control session is already entered"⟩)
  else
    match claimFor s answer with
    | .error e => (w, .error e)
    | .ok grant =>
      match s.client.bind grant with
      | .error e => (w.recordGrant i grant, .error e)
      | .ok client => ((w.recordGrant i grant).beginWait i client, .ok ())

/-- One iteration of the wait of `__enter__`; `none` means that it sleeps and looks again. -/
def enterPoll (w : World ι) (i : ι) (deadline : ℚ) (answer : ReleaseAnswer) :
    World ι × Option (Except PyError Unit) :=
  if w.active i then ({ w with waiting := Function.update w.waiting i none }, some (.ok ()))
  else if deadline ≤ w.now then
    let (w', result) := (w.releaseClaim i answer).1.leave i
    ({ w' with waiting := Function.update w'.waiting i none },
      some (match result with
        | .error e => .error e
        | .ok () => .error ⟨.timeoutError, "timed out waiting for lease " ++
            pyRepr ((w.session i).leaseId.getD "") ++ " authority"⟩))
  else (w, none)

/-- The wait of `__enter__`; `history` holds the callbacks and the time that pass in each sleep.
`none` means that the history ends before the wait does. -/
def awaitActive (i : ι) (deadline : ℚ) (answer : ReleaseAnswer) :
    World ι → List (List Callback) → Option (Outcome (World ι) Unit)
  | w, [] =>
    match w.enterPoll i deadline answer with
    | (w', some result) => some (w', result)
    | (_, none) => none
  | w, sleep :: history =>
    match w.enterPoll i deadline answer with
    | (w', some result) => some (w', result)
    | (w', none) => awaitActive i deadline answer (sleep.foldl callback w') history

def enter (w : World ι) (i : ι) (claim : ClaimAnswer) (history : List (List Callback))
    (release : ReleaseAnswer) : Option (Outcome (World ι) Unit) :=
  match w.enterClaim i claim with
  | (w', .error e) => some (w', .error e)
  | (w', .ok ()) =>
    awaitActive i (w'.now + (w'.session i).config.acquireTimeout) release w' history

/-- The `try` block of `__exit__`, with the exception of a failed release. -/
def exitRelease (w : World ι) (i : ι) (answer : ReleaseAnswer) : World ι × Option PyError :=
  let s := w.session i
  if w.isExplicitlyDisplaced i then
    (w.setSession i { s with diagnostics :=
      { s.diagnostics with displacedExits := s.diagnostics.displacedExits + 1 } }, none)
  else w.releaseClaim i answer

/-- `Session.__exit__`; `bodyRaised` says that the body ended in an exception. -/
def exit (w : World ι) (i : ι) (bodyRaised : Bool) (answer : ReleaseAnswer) :
    Outcome (World ι) Unit :=
  let (w', releaseError) := w.exitRelease i answer
  match w'.leave i with
  | (w'', .error e) => (w'', .error e)
  | (w'', .ok ()) =>
    match releaseError with
    | none => (w'', .ok ())
    | some e => if bodyRaised then (w'', .ok ()) else (w'', .error e)

/-! ## Commands -/

def notOwned (s : Session) (part : String) : PyError :=
  ⟨.valueError, "control source " ++ pyRepr s.config.source.name ++
    " does not own requested resource " ++ pyRepr part ++ " in this scope"⟩

/-- An observation was passed whose snapshot does not give the part to this lease. -/
def staleObservation (s : Session) (part : String) : Option Observation → Bool
  | none => false
  | some o => o.allocationLease part s.config.source.sourceInstance ≠ s.leaseId

def publish (w : World ι) (i : ι) (client : ActionProviderClient) (publication : Publication) :
    World ι :=
  let s := w.session i
  { w.setSession i { s with
      client := client
      diagnostics := { s.diagnostics with sent := s.diagnostics.sent + 1 } } with
    published := w.published ++ [publication] }

def act (w : World ι) (i : ι) (action : Action) (observation : Option Observation) (now : Stamp) :
    Outcome (World ι) Unit :=
  let s := w.session i
  if action.part ∉ s.config.parts then (w, .error (notOwned s action.part))
  else if ¬ w.activeFor i action.part then
    (w.setSession i { s with diagnostics :=
      { s.diagnostics with inactiveDrops := s.diagnostics.inactiveDrops + 1 } }, .ok ())
  else if staleObservation s action.part observation then
    (w.setSession i { s with diagnostics :=
      { s.diagnostics with
        staleObservationDrops := s.diagnostics.staleObservationDrops + 1 } }, .ok ())
  else
    match Agent.send action s.client now with
    | .error e => (w, .error e)
    | .ok (client, publication) => (w.publish i client publication, .ok ())

def execute (w : World ι) (i : ι) (part : String) (plan : ActionValue)
    (observation : Option Observation) (now : Stamp)
    (answer : ActionProviderClient.StartAnswer) : Outcome (World ι) GoalHandle :=
  let s := w.session i
  if part ∉ s.config.parts then (w, .error (notOwned s part))
  else if ¬ w.activeFor i part then
    (w, .error ⟨.runtimeError, "cannot execute a plan from an inactive control scope"⟩)
  else if staleObservation s part observation then
    (w, .error ⟨.runtimeError, "cannot execute a plan from a stale observation"⟩)
  else
    let (client, goal, result) := s.config.source.execute part plan s.client now answer
    let s := { s with client := client }
    let w := { w.setSession i s with dispatched := w.dispatched ++ goal.toList }
    match result with
    | .error e => (w, .error e)
    | .ok handle =>
      (w.setSession i { s with
          diagnostics := { s.diagnostics with sent := s.diagnostics.sent + 1 } }, .ok handle)

/-- `PlanExecution.wait` on an execution started through session `i`. -/
def waitPlan (w : World ι) (i : ι) (part : String)
    (answer : ActionProviderClient.ResultAnswer) : Outcome (World ι) Unit :=
  let s := w.session i
  let (client, result) := s.client.waitJointTrajectory part answer
  (w.setSession i { s with client := client }, result)

/-- `PlanExecution.cancel` on an execution started through session `i`. -/
def cancelPlan (w : World ι) (i : ι) (part : String)
    (answer : ActionProviderClient.CancelAnswer) : Outcome (World ι) Unit :=
  let s := w.session i
  let (client, _, result) := s.client.cancelJointTrajectory part answer
  (w.setSession i { s with client := client }, result)

def sendAction (w : World ι) (action : Action) (observation : Option Observation) (now : Stamp) :
    Outcome (World ι) Unit :=
  match w.controlFor action.part with
  | .error e => (w, .error e)
  | .ok i => w.act i action observation now

def robotExecute (w : World ι) (part : String) (plan : ActionValue)
    (observation : Option Observation) (now : Stamp)
    (answer : ActionProviderClient.StartAnswer) : Outcome (World ι) GoalHandle :=
  match w.controlFor part with
  | .error e => (w, .error e)
  | .ok i => w.execute i part plan observation now answer

end World
end PhysicalAiRuntime.Control
