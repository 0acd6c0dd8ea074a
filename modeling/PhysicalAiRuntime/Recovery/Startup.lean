import PhysicalAiRuntime.Foundations.Feed
import PhysicalAiRuntime.Foundations.Trace
import PhysicalAiRuntime.Authority.Client
import PhysicalAiRuntime.Recovery.ExecutionManager

/-! `Context.prepare_execution` and `ExecutionManagerClient.clear_fault` in several processes over
one Execution Manager. The main thread of a process is cut where it reads the status cache, sends a
request or waits; requests are served in any order and at any time, also after their caller has
given up, and status messages arrive in order with any delay. -/
namespace PhysicalAiRuntime.Recovery
open Authority
set_option autoImplicit false
set_option maxHeartbeats 250000

abbrev Snapshot := Dict String Allocation

def authorityState (snapshot : Snapshot) (name : String) : AuthorityState :=
  match snapshot.get? name with
  | none => .unowned
  | some item => item.authorityState

def faulted (resources : Dict String String) (snapshot : Snapshot) : Dict String String :=
  resources.filter fun e => authorityState snapshot e.1 == .fault

/-! ## One process -/

/-- How a service call ends for a caller that gets no response. -/
inductive CallFailure where
  | timedOut
  | raised (e : PyError)
  | empty
  deriving DecidableEq, Repr

def CallFailure.claimAnswer : CallFailure → ClaimAnswer
  | .timedOut => .timedOut
  | .raised e => .raised e
  | .empty => .empty

def CallFailure.releaseAnswer : CallFailure → ReleaseAnswer
  | .timedOut => .timedOut
  | .raised e => .raised e
  | .empty => .empty

inductive Phase where
  | idle
  | describing (deadline : ℚ)
  | undescribed (deadline : ℚ)
  | clearing (resources : Dict String String)
  | claiming (targets : Dict String String) (call : ℕ)
  | releasing (targets : Dict String String) (leaseId : String) (call : ℕ)
  | settling (targets : Dict String String) (deadline : ℚ)
  deriving DecidableEq

structure Process where
  client : ExecutionManagerClient
  position : Option ℕ
  timeoutSec : ℚ
  contracts : Dict String String
  executionPrepared : Bool
  phase : Phase
  returned : Option (Except PyError Snapshot)

namespace Process

def new (timeouts : Timeouts) (timeoutSec : ℚ) (contracts : Dict String String) : Process :=
  ⟨ExecutionManagerClient.init timeouts, none, timeoutSec, contracts, false, .idle, none⟩

def describeAuthority (p : Process) (now : ℚ) : Snapshot := p.client.getAllocations now

def raises (p : Process) (e : PyError) : Process :=
  { p with phase := .idle, returned := some (.error e) }

def prepared (p : Process) (snapshot : Snapshot) : Process :=
  { p with phase := .idle, executionPrepared := true, returned := some (.ok snapshot) }

/-- `prepare_execution` up to its first snapshot. -/
def prepareExecution (p : Process) (now : ℚ) (timeoutSec : Option ℚ) (available : Bool) :
    Process :=
  let timeout := timeoutSec.getD p.timeoutSec
  if timeout ≤ 0 then p.raises ⟨.valueError, "timeout_sec must be positive"⟩
  else if p.executionPrepared then
    { p with returned := some (.ok (p.describeAuthority now)) }
  else if ¬ available then
    p.raises ⟨.executionManagerUnavailableError,
      "Execution Manager is unavailable at /execution_manager/claim"⟩
  else { p with phase := .describing (now + timeout) }

def described (p : Process) (snapshot : Snapshot) : Process :=
  if (faulted p.contracts snapshot).isEmpty then p.prepared snapshot
  else { p with phase := .clearing (faulted p.contracts snapshot) }

/-- One snapshot of the loop, or the deadline check after an empty one. -/
def pollSnapshot (p : Process) (now : ℚ) : Process :=
  match p.phase with
  | .describing deadline =>
    if (p.describeAuthority now).isEmpty then { p with phase := .undescribed deadline }
    else p.described (p.describeAuthority now)
  | .undescribed deadline =>
    if now < deadline then { p with phase := .describing deadline }
    else p.described Dict.empty
  | _ => p

/-- `clear_fault` up to the request it sends, if it sends one. -/
def clearFault (p : Process) (now : ℚ) (available : Bool) (call : ℕ) :
    Process × Option ClaimRequest :=
  match p.phase with
  | .clearing resources =>
    let snapshot := p.describeAuthority now
    let targets := faulted resources snapshot
    if targets.isEmpty then (p.prepared snapshot, none)
    else
      match ExecutionManagerClient.claimRequest .policy "rmi_clear_fault" targets true
        [("reason", "clear_fault")] with
      | .error e => (p.raises e, none)
      | .ok request =>
        if available then ({ p with phase := .claiming targets call }, some request)
        else (p.raises ⟨.executionManagerUnavailableError,
          "Execution Manager is unavailable at /execution_manager/claim"⟩, none)
  | _ => (p, none)

def claimAnswered (p : Process) (answer : ClaimAnswer) (available : Bool) (call : ℕ) :
    Process × Option String :=
  match p.phase with
  | .claiming targets _ =>
    match ExecutionManagerClient.claimResult targets answer with
    | .error e => (p.raises e, none)
    | .ok grant =>
      if grant.leaseId ≠ "" ∧ available then
        ({ p with phase := .releasing targets grant.leaseId call }, some grant.leaseId)
      else match (ExecutionManagerClient.release grant.leaseId .unavailable).2 with
        | .error e => (p.raises e, none)
        | .ok () => (p, none)
  | _ => (p, none)

def releaseAnswered (p : Process) (now : ℚ) (answer : ReleaseAnswer) : Process :=
  match p.phase with
  | .releasing targets leaseId _ =>
    match (ExecutionManagerClient.release leaseId answer).2 with
    | .error e => p.raises e
    | .ok () => { p with phase := .settling targets (now + p.client.timeoutSec) }
  | _ => p

/-- A target is still in FAULT, or still owned by `clear_fault` itself. -/
def pending (targets : Dict String String) (snapshot : Snapshot) : Bool :=
  targets.keys.any fun name => match snapshot.get? name with
    | none => false
    | some item => item.authorityState == .fault ||
        (item.authorityState == .owned && item.sourceInstance == "rmi_clear_fault")

/-- One round of the settling loop, or the return after it. -/
def settle (p : Process) (now : ℚ) : Process :=
  match p.phase with
  | .settling targets deadline =>
    if now < deadline ∧ pending targets (p.describeAuthority now) then p
    else p.prepared (p.describeAuthority now)
  | _ => p

def onStatus (p : Process) (now : ℚ) (position : ℕ) (message : AuthorityStatus) : Process :=
  { p with client := p.client.onStatus now message, position := some position }

end Process

/-! ## Processes, requests in flight and the manager -/

variable {ι : Type} [DecidableEq ι]

inductive Request where
  | claim (request : ClaimRequest)
  | release (leaseId : String)
  deriving DecidableEq, Repr

inductive Answer where
  | claim (response : ClaimResponse)
  | release (success : Bool) (message : String)
  deriving DecidableEq, Repr

/-- The `resources` of a `clear_fault` call, and the position of the status message it read. -/
structure ClearFaultCall where
  resources : Dict String String
  basis : Option ℕ

/-- A request with its caller and, once it was served, its answer. -/
structure Call (ι : Type) where
  client : ι
  request : Request
  clearFault : Option ClearFaultCall
  answer : Option Answer

structure Grant (ι : Type) where
  client : ι
  leaseId : String
  deriving DecidableEq

/-- A status message, with the number of leases granted before it. -/
structure Publication where
  status : AuthorityStatus
  grants : ℕ

structure System (ι : Type) where
  manager : ExecutionManager
  grants : List (Grant ι)
  published : List Publication
  calls : List (Call ι)
  process : ι → Process
  now : ℚ

inductive Label (ι : Type) where
  | prepare (i : ι) (timeoutSec : Option ℚ) (available : Bool)
  | poll (i : ι)
  | clear (i : ι) (available : Bool)
  | receive (i : ι) (available : Bool)
  | fail (i : ι) (failure : CallFailure)
  | settle (i : ι)
  | enter (i : ι) (request : ClaimRequest)
  /-- A Session sends the release of a lease granted to its process. -/
  | exit (i : ι) (leaseId : String)
  | serve (call : ℕ)
  | fault (resource : String)
  | publish
  | deliver (i : ι) (position : ℕ)
  | tick (elapsed : ℚ≥0)

namespace System

def init (roleCode : SourceRole → ℕ) (process : ι → Process) (now : ℚ) : System ι :=
  ⟨ExecutionManager.new roleCode, [], [], [], process, now⟩

def setProcess (s : System ι) (i : ι) (p : Process) : System ι :=
  { s with process := Function.update s.process i p }

def send (s : System ι) (call : Call ι) : System ι := { s with calls := s.calls ++ [call] }

def clear (s : System ι) (i : ι) (available : Bool) : System ι :=
  match (s.process i).phase, (s.process i).clearFault s.now available s.calls.length with
  | .clearing resources, (p, some request) =>
    (s.setProcess i p).send
      ⟨i, .claim request, some ⟨resources, (s.process i).position⟩, none⟩
  | _, (p, _) => s.setProcess i p

/-- The main thread of process `i` gets the answer it waits for. -/
def receive (s : System ι) (i : ι) (available : Bool) : System ι :=
  match (s.process i).phase with
  | .claiming _ call =>
    match (s.calls[call]?).bind Call.answer with
    | some (.claim response) =>
      match (s.process i).claimAnswered (.response response) available s.calls.length with
      | (p, none) => s.setProcess i p
      | (p, some leaseId) => (s.setProcess i p).send ⟨i, .release leaseId, none, none⟩
    | _ => s
  | .releasing _ _ call =>
    match (s.calls[call]?).bind Call.answer with
    | some (.release success message) =>
      s.setProcess i ((s.process i).releaseAnswered s.now (.response success message))
    | _ => s
  | _ => s

def fail (s : System ι) (i : ι) (failure : CallFailure) : System ι :=
  match (s.process i).phase with
  | .claiming _ _ => s.setProcess i ((s.process i).claimAnswered failure.claimAnswer false 0).1
  | .releasing _ _ _ =>
    s.setProcess i ((s.process i).releaseAnswered s.now failure.releaseAnswer)
  | _ => s

def exit (s : System ι) (i : ι) (leaseId : String) : System ι :=
  if ⟨i, leaseId⟩ ∈ s.grants then s.send ⟨i, .release leaseId, none, none⟩ else s

def serveClaim (s : System ι) (n : ℕ) (c : Call ι) (request : ClaimRequest) : System ι :=
  let (manager, response) := s.manager.claim request
  { s with
    manager := manager
    grants := s.grants ++ if response.success then [⟨c.client, response.leaseId⟩] else []
    calls := s.calls.set n { c with answer := some (.claim response) } }

def serveRelease (s : System ι) (n : ℕ) (c : Call ι) (leaseId : String) : System ι :=
  { s with
    manager := s.manager.release leaseId
    calls := s.calls.set n { c with answer := some (.release true "") } }

/-- The manager serves call `n`, once. -/
def serve (s : System ι) (n : ℕ) : System ι :=
  match s.calls[n]? with
  | some ⟨client, .claim request, clearFault, none⟩ =>
    s.serveClaim n ⟨client, .claim request, clearFault, none⟩ request
  | some ⟨client, .release leaseId, clearFault, none⟩ =>
    s.serveRelease n ⟨client, .release leaseId, clearFault, none⟩ leaseId
  | _ => s

def publish (s : System ι) : System ι :=
  { s with published := s.published ++ [⟨s.manager.status, s.grants.length⟩] }

/-- Status messages may be skipped, but arrive in order. -/
def deliver (s : System ι) (i : ι) (position : ℕ) : System ι :=
  match s.published[position]? with
  | none => s
  | some message =>
    if Feed.CanRead s.published (s.process i).position position then
      s.setProcess i ((s.process i).onStatus s.now position message.status)
    else s

def step (s : System ι) : Label ι → System ι
  | .prepare i timeoutSec available =>
    if (s.process i).phase = .idle then
      s.setProcess i ((s.process i).prepareExecution s.now timeoutSec available)
    else s
  | .poll i => s.setProcess i ((s.process i).pollSnapshot s.now)
  | .clear i available => s.clear i available
  | .receive i available => s.receive i available
  | .fail i failure => s.fail i failure
  | .settle i => s.setProcess i ((s.process i).settle s.now)
  | .enter i request => s.send ⟨i, .claim request, none, none⟩
  | .exit i leaseId => s.exit i leaseId
  | .serve n => s.serve n
  | .fault resource => { s with manager := s.manager.fault resource }
  | .publish => s.publish
  | .deliver i position => s.deliver i position
  | .tick elapsed => { s with now := s.now + elapsed }

end System
end PhysicalAiRuntime.Recovery
