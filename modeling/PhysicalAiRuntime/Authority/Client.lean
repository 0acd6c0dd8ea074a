import Mathlib.Data.Rat.Defs
import Mathlib.Algebra.Order.Ring.Rat
import PhysicalAiRuntime.Foundations.Deque
import PhysicalAiRuntime.Authority.Messages

/-! `ExecutionManagerClient`: the claim and release calls, and the status cache that expires
`status_timeout_sec` after the last status message. -/
namespace PhysicalAiRuntime.Authority
set_option autoImplicit false
set_option maxHeartbeats 250000

@[irreducible] def eventCapacity : ℕ := 2048

structure Timeouts where
  timeoutSec : ℚ
  statusTimeoutSec : ℚ
  timeoutSec_pos : 0 < timeoutSec
  statusTimeoutSec_pos : 0 < statusTimeoutSec

/-- The defaults of the constructor. -/
def Timeouts.default : Timeouts := ⟨5, 3, by decide, by decide⟩

structure ExecutionManagerClient extends Timeouts where
  lastStatusMonotonic : Option ℚ
  allocations : Dict String Allocation
  events : Deque eventCapacity AuthorityEvent

namespace ExecutionManagerClient

def init (timeouts : Timeouts) : ExecutionManagerClient :=
  ⟨timeouts, none, Dict.empty, Deque.empty⟩

def new (timeoutSec statusTimeoutSec : ℚ) : Except PyError ExecutionManagerClient :=
  if ht : 0 < timeoutSec then
    if hs : 0 < statusTimeoutSec then
      .ok (init ⟨timeoutSec, statusTimeoutSec, ht, hs⟩)
    else .error ⟨.valueError, "status_timeout_sec must be positive"⟩
  else .error ⟨.valueError, "timeout_sec must be positive"⟩

/-! ## Status and events -/

def onStatus (c : ExecutionManagerClient) (now : ℚ) (message : AuthorityStatus) :
    ExecutionManagerClient :=
  { c with lastStatusMonotonic := some now, allocations := message.allocations }

def onEvent (c : ExecutionManagerClient) (message : AuthorityEvent) : ExecutionManagerClient :=
  { c with events := c.events.append message }

/-- The last status message is at most `status_timeout_sec` old. -/
def statusFresh (c : ExecutionManagerClient) (now : ℚ) : Bool :=
  match c.lastStatusMonotonic with
  | none => false
  | some t => ¬ c.statusTimeoutSec < now - t

def getAllocations (c : ExecutionManagerClient) (now : ℚ) : Dict String Allocation :=
  if c.statusFresh now then c.allocations else Dict.empty

def getEvents (c : ExecutionManagerClient) (leaseId : Option String) : List AuthorityEvent :=
  match leaseId with
  | none => c.events.items
  | some l => c.events.items.filter fun event => event.leaseId = l

/-- An allocation is served only from a message that has not expired. -/
theorem getAllocations_some {c : ExecutionManagerClient} {now : ℚ} {part : String} {a : Allocation}
    (h : (c.getAllocations now).get? part = some a) :
    ∃ t, c.lastStatusMonotonic = some t ∧ now - t ≤ c.statusTimeoutSec ∧
      c.allocations.get? part = some a := by
  unfold getAllocations statusFresh at h
  cases ht : c.lastStatusMonotonic with
  | none => simp [ht] at h
  | some t =>
    rw [ht] at h
    by_cases hlt : c.statusTimeoutSec < now - t
    · simp [hlt] at h
    · simp only [hlt, not_false_eq_true, decide_true, if_true] at h
      exact ⟨t, rfl, not_lt.mp hlt, h⟩

/-! ## Claim -/

def claimRequest (sourceRole : SourceRole) (sourceInstance : String)
    (resources : Dict String String) (preempt : Bool) (metadata : List (String × String)) :
    Except PyError ClaimRequest :=
  if sourceInstance = "" then .error ⟨.valueError, "source_instance must not be empty"⟩
  else if resources.isEmpty then .error ⟨.valueError, "claim requires at least one resource"⟩
  else .ok
    { sourceRole := sourceRole
      sourceInstance := sourceInstance
      preempt := preempt
      metadata := metadata
      resources := resources.entries }

def responseBindings (r : ClaimResponse) : Dict (String × String) EndpointBinding :=
  Dict.ofPairs (r.endpoints.map fun item => ((item.resource, item.commandContract), item))

def endpointsComplete (resources : Dict String String) (r : ClaimResponse) : Bool :=
  (∀ k ∈ (responseBindings r).keys, k ∈ resources.entries) ∧
    (∀ k ∈ resources.entries, k ∈ (responseBindings r).keys)

def claimResult (resources : Dict String String) : ClaimAnswer → Except PyError LeaseGrant
  | .unavailable => .error ⟨.executionManagerUnavailableError,
      "Execution Manager is unavailable at /execution_manager/claim"⟩
  | .timedOut => .error ⟨.timeoutError, "control claim timed out"⟩
  | .raised e => .error e
  | .empty => .error ⟨.runtimeError, "empty Execution Manager response"⟩
  | .response r =>
    if ¬ r.success then .error ⟨.runtimeError, r.message⟩
    else if ¬ endpointsComplete resources r then
      .error ⟨.runtimeError, "Execution Manager returned incomplete endpoint bindings"⟩
    else .ok ⟨r.leaseId, responseBindings r⟩

def claim (sourceRole : SourceRole) (sourceInstance : String) (resources : Dict String String)
    (preempt : Bool) (metadata : List (String × String)) (answer : ClaimAnswer) :
    Except PyError LeaseGrant := do
  let _ ← claimRequest sourceRole sourceInstance resources preempt metadata
  claimResult resources answer

/-- A grant repeats the lease id of a successful response, and binds the requested pairs. -/
theorem claim_ok {sourceRole : SourceRole} {sourceInstance : String}
    {resources : Dict String String} {preempt : Bool} {metadata : List (String × String)}
    {answer : ClaimAnswer} {g : LeaseGrant}
    (h : claim sourceRole sourceInstance resources preempt metadata answer = .ok g) :
    ∃ r, answer = .response r ∧ r.success = true ∧ endpointsComplete resources r = true ∧
      g = ⟨r.leaseId, responseBindings r⟩ := by
  obtain ⟨q, -, hr⟩ := except_bind_ok h
  cases answer with
  | response r =>
    unfold claimResult at hr
    by_cases hs : r.success = true
    · by_cases hc : endpointsComplete resources r = true
      · simp only [hs, hc, not_true_eq_false, if_false] at hr
        exact ⟨r, rfl, hs, hc, (Except.ok.inj hr).symm⟩
      · simp [hs, hc] at hr
    · simp [hs] at hr
  | unavailable => cases hr
  | timedOut => cases hr
  | raised e => cases hr
  | empty => cases hr

/-! ## Release -/

/-- `release`: whether a request with `leaseId` was sent, and how the call ends. -/
def release (leaseId : String) : ReleaseAnswer → Bool × Except PyError Unit
  | answer =>
    if leaseId = "" then (false, .error ⟨.valueError, "lease_id must not be empty"⟩)
    else match answer with
      | .unavailable => (false, .error ⟨.executionManagerUnavailableError,
          "Execution Manager is unavailable at /execution_manager/release"⟩)
      | .unsent e => (false, .error e)
      | .timedOut => (true, .error ⟨.timeoutError, "control release timed out"⟩)
      | .raised e => (true, .error e)
      | .empty => (true, .error ⟨.runtimeError, "empty Execution Manager response"⟩)
      | .response success message =>
        (true, if ¬ success then .error ⟨.runtimeError, message⟩ else .ok ())

/-- A request leaves the client exactly when there is a lease to name and the call sends it. -/
theorem release_sent_iff (leaseId : String) (answer : ReleaseAnswer) :
    (release leaseId answer).1 = true ↔ leaseId ≠ "" ∧ answer.sends = true := by
  unfold release
  by_cases h : leaseId = ""
  · simp [h]
  · cases answer <;> simp [h, ReleaseAnswer.sends]

end ExecutionManagerClient
end PhysicalAiRuntime.Authority
