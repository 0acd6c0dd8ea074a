import PhysicalAiRuntime.Foundations.Dict
import PhysicalAiRuntime.Foundations.PyError

/-! The messages and services of the graph-wide Execution Manager, as far as the RMI client reads
or fills them. -/
namespace PhysicalAiRuntime.Authority
set_option autoImplicit false

/-- `ResourceAuthority.authority_state`; `unknown` is a code outside the four named ones. -/
inductive AuthorityState where
  | unowned
  | transitioning
  | owned
  | fault
  | unknown (code : ℕ)
  deriving DecidableEq, Repr

inductive SourceRole where
  | policy
  | teleop
  | planner
  deriving DecidableEq, Repr

structure ResourceAuthority where
  resource : String
  authorityState : AuthorityState
  leaseId : String
  sourceRole : ℕ
  sourceInstance : String
  commandContract : String
  requestedController : String
  observedControllers : List String
  deriving DecidableEq, Repr

structure AuthorityStatus where
  resources : List ResourceAuthority
  deriving DecidableEq, Repr

inductive AuthorityEventType where
  | preempted
  | other (code : ℕ)
  deriving DecidableEq, Repr

structure AuthorityEvent where
  type : AuthorityEventType
  leaseId : String
  deriving DecidableEq, Repr

/-- What the client caches of one resource. -/
structure Allocation where
  authorityState : AuthorityState
  leaseId : String
  sourceRole : ℕ
  sourceInstance : String
  commandContract : String
  requestedController : String
  observedControllers : List String
  deriving DecidableEq, Repr

def ResourceAuthority.allocation (item : ResourceAuthority) : Allocation where
  authorityState := item.authorityState
  leaseId := item.leaseId
  sourceRole := item.sourceRole
  sourceInstance := item.sourceInstance
  commandContract := item.commandContract
  requestedController := item.requestedController
  observedControllers := item.observedControllers

def AuthorityStatus.allocations (m : AuthorityStatus) : Dict String Allocation :=
  Dict.ofPairs (m.resources.map fun item => (item.resource, item.allocation))

structure EndpointBinding where
  resource : String
  commandContract : String
  endpoint : String
  isAction : Bool
  deriving DecidableEq, Repr

structure LeaseGrant where
  leaseId : String
  endpoints : Dict (String × String) EndpointBinding
  deriving DecidableEq

structure ClaimRequest where
  sourceRole : SourceRole
  sourceInstance : String
  preempt : Bool
  metadata : List (String × String)
  resources : List (String × String)
  deriving DecidableEq, Repr

structure ClaimResponse where
  success : Bool
  message : String
  leaseId : String
  endpoints : List EndpointBinding
  deriving DecidableEq, Repr

inductive ClaimAnswer where
  /-- The service does not come up in time: no request is sent. -/
  | unavailable
  | timedOut
  | raised (e : PyError)
  | empty
  | response (r : ClaimResponse)
  deriving DecidableEq, Repr

inductive ReleaseAnswer where
  /-- The service does not come up in time: no request is sent. -/
  | unavailable
  /-- The call raises before its request is sent. -/
  | unsent (e : PyError)
  | timedOut
  | raised (e : PyError)
  | empty
  | response (success : Bool) (message : String)
  deriving DecidableEq, Repr

/-- The release request has left the client. -/
def ReleaseAnswer.sends : ReleaseAnswer → Bool
  | .unavailable | .unsent _ => false
  | .timedOut | .raised _ | .empty | .response _ _ => true

end PhysicalAiRuntime.Authority
