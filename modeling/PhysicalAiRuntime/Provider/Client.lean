import PhysicalAiRuntime.Authority.Messages
import PhysicalAiRuntime.Provider.Payload

/-! `ActionProviderClient`: the lease-bound command client of one session. Streaming commands go
through lazily created publishers, trajectories through lazily created action clients; both are
cached per binding and dropped on `unbind`. -/
namespace PhysicalAiRuntime.Provider
open Authority
set_option autoImplicit false
set_option maxHeartbeats 250000

inductive MessageType where
  | leasedJointReference
  | leasedPoseReference
  | leasedTwistReference
  deriving DecidableEq, Repr

structure Publisher where
  messageType : MessageType
  endpoint : String
  deriving DecidableEq, Repr

inductive Payload where
  | joint (m : JointTrajectory)
  | pose (m : CartesianTrajectory)
  | twist (m : TwistStamped)
  deriving DecidableEq, Repr

def Payload.messageType : Payload → MessageType
  | .joint _ => .leasedJointReference
  | .pose _ => .leasedPoseReference
  | .twist _ => .leasedTwistReference

def Payload.stamped (now : Stamp) : Payload → Payload
  | .joint m => .joint { m with header := { m.header with stamp := now } }
  | .pose m => .pose { m with header := { m.header with stamp := now } }
  | .twist m => .twist { m with header := { m.header with stamp := now } }

structure Envelope where
  stamp : Stamp
  leaseId : String
  command : Payload
  deriving DecidableEq, Repr

structure Publication where
  publisher : Publisher
  envelope : Envelope
  deriving DecidableEq, Repr

structure Goal where
  stamp : Stamp
  leaseId : String
  resource : String
  trajectory : JointTrajectory
  deriving DecidableEq, Repr

/-- An action client object; `createdFor` is the lease bound when it was created. -/
structure ActionClient where
  endpoint : String
  createdFor : String
  deriving DecidableEq, Repr

/-- The handle of an answered goal request; `goalId` tells goals apart. -/
structure GoalHandle where
  goalId : ℕ
  accepted : Bool
  deriving DecidableEq, Repr

/-- What the command client reads of a part of the profile. -/
structure PartConfig where
  jointNames : List String
  baseFrame : Option String
  tcpFrame : Option String
  deriving DecidableEq, Repr

structure ActionProviderClient where
  profile : Option (Dict String PartConfig)
  leaseId : String
  bindings : Dict (String × String) EndpointBinding
  publishers : Dict (String × String) Publisher
  actionClients : Dict String ActionClient
  goalHandles : Dict String GoalHandle
  deriving DecidableEq

namespace ActionProviderClient

def new (profile : Option (Dict String PartConfig)) : ActionProviderClient :=
  ⟨profile, "", Dict.empty, Dict.empty, Dict.empty, Dict.empty⟩

def fork (c : ActionProviderClient) : ActionProviderClient := new c.profile

def bind (c : ActionProviderClient) (grant : LeaseGrant) : Except PyError ActionProviderClient :=
  if c.leaseId ≠ "" then .error ⟨.runtimeError, "command client is already bound to a lease"⟩
  else .ok { c with leaseId := grant.leaseId, bindings := grant.endpoints }

/-- `unbind`, whose destroyed publishers and action clients raise nothing. -/
def unbind (c : ActionProviderClient) : ActionProviderClient := new c.profile

/-- No lease, and nothing that was made for one. -/
structure Unbound (c : ActionProviderClient) : Prop where
  leaseId : c.leaseId = ""
  bindings : c.bindings = Dict.empty
  publishers : c.publishers = Dict.empty
  actionClients : c.actionClients = Dict.empty
  goalHandles : c.goalHandles = Dict.empty

theorem unbound_new (profile : Option (Dict String PartConfig)) : (new profile).Unbound :=
  ⟨rfl, rfl, rfl, rfl, rfl⟩

theorem unbound_fork (c : ActionProviderClient) : c.fork.Unbound := unbound_new c.profile

theorem unbound_unbind (c : ActionProviderClient) : c.unbind.Unbound := unbound_new c.profile

/-! ## Bindings and profile lookups -/

def requireBinding (c : ActionProviderClient) (part command : String) :
    Except PyError EndpointBinding :=
  if c.leaseId = "" then .error ⟨.runtimeError, "command client has no active lease"⟩
  else match c.bindings.get? (part, command) with
    | some binding => .ok binding
    | none => .error ⟨.keyError,
        "lease has no " ++ pyRepr command ++ " binding for resource " ++ pyRepr part⟩

theorem requireBinding_ok {c : ActionProviderClient} {part command : String} {b : EndpointBinding}
    (h : c.requireBinding part command = .ok b) :
    c.leaseId ≠ "" ∧ c.bindings.get? (part, command) = some b := by
  unfold requireBinding at h
  by_cases hl : c.leaseId = ""
  · simp [hl] at h
  · rw [if_neg hl] at h
    cases hb : c.bindings.get? (part, command) with
    | none => simp [hb] at h
    | some b' =>
      rw [hb] at h
      exact ⟨hl, congrArg some (Except.ok.inj h)⟩

/-- `self.profile.parts[part]` under a profile. -/
def profilePart (parts : Dict String PartConfig) (part : String) : Except PyError PartConfig :=
  match parts.get? part with
  | some config => .ok config
  | none => .error ⟨.keyError, pyRepr part⟩

/-- `value or default` on an optional string. -/
def orElse (value : Option String) (default : String) : String :=
  match value with
  | none => default
  | some s => if s = "" then default else s

def jointNames (c : ActionProviderClient) (part : String) : Except PyError (List String) :=
  match c.profile with
  | none => .ok []
  | some parts => do return (← profilePart parts part).jointNames

def baseFrame (c : ActionProviderClient) (part : String) : Except PyError String :=
  match c.profile with
  | none => .ok "base_link"
  | some parts => do return orElse (← profilePart parts part).baseFrame "base_link"

def tcpFrame (c : ActionProviderClient) (part : String) : Except PyError String :=
  match c.profile with
  | none => .ok ""
  | some parts => do return orElse (← profilePart parts part).tcpFrame ""

/-! ## Streaming commands -/

/-- The two kind checks `Agent.send` and `send` share. -/
def requireCommandForKind (value : ActionValue) (command : String) : Except PyError Unit :=
  match value with
  | .resolveResult _ =>
    if command ≠ "joint_reference" then
      .error ⟨.valueError, "ResolveResult requires command='joint_reference'"⟩
    else .ok ()
  | .poseHorizonResult _ =>
    if command ≠ "pose_reference" then
      .error ⟨.valueError, "PoseHorizonResult requires command='pose_reference'"⟩
    else .ok ()
  | _ => .ok ()

/-- The payload of a streaming command: a native message is passed on as it is. -/
def streamPayload (c : ActionProviderClient) (part command : String) (message : ActionValue) :
    Except PyError Payload :=
  if command = "joint_reference" then
    match message with
    | .jointTrajectory m => .ok (.joint m)
    | value => do
      return .joint (← jointTrajectoryFromSpec value (← c.jointNames part) false)
  else if command = "pose_reference" then
    match message with
    | .cartesianTrajectory m => .ok (.pose m)
    | value => do
      return .pose (← cartesianTrajectoryFromSpec value (← c.baseFrame part) (← c.tcpFrame part))
  else if command = "twist_reference" then
    match message with
    | .twistStamped m => .ok (.twist m)
    | value => do return .twist (← twistStampedFromSpec value (← c.baseFrame part))
  else .error ⟨.keyError, "unsupported streaming command " ++ pyRepr command⟩

/-- `_publisher`: the cached publisher of a binding, or a new one on its endpoint. -/
def publisher (c : ActionProviderClient) (part command : String) (binding : EndpointBinding)
    (messageType : MessageType) : ActionProviderClient × Publisher :=
  match c.publishers.get? (part, command) with
  | some p => (c, p)
  | none =>
    let p : Publisher := ⟨messageType, binding.endpoint⟩
    ({ c with publishers := c.publishers.set (part, command) p }, p)

def send (c : ActionProviderClient) (part command : String) (message : ActionValue) (now : Stamp) :
    Except PyError (ActionProviderClient × Publication) := do
  let binding ← c.requireBinding part command
  rejectInvalidResult message
  requireCommandForKind message command
  let payload ← c.streamPayload part command message
  let (c', p) := c.publisher part command binding payload.messageType
  return (c', ⟨p, ⟨now, c.leaseId, payload.stamped now⟩⟩)

/-- What a successful `send` says of the client: it was bound to the pair, the envelope carries its
lease, and the publisher is the cached one or one newly made on the endpoint of the binding. -/
theorem send_ok {c c' : ActionProviderClient} {part command : String} {message : ActionValue}
    {now : Stamp} {p : Publication} (h : c.send part command message now = .ok (c', p)) :
    c.leaseId ≠ "" ∧ p.envelope.leaseId = c.leaseId ∧
    ∃ b, c.bindings.get? (part, command) = some b ∧
      ((c.publishers.get? (part, command) = some p.publisher ∧ c' = c) ∨
        (p.publisher.endpoint = b.endpoint ∧
          c' = { c with publishers := c.publishers.set (part, command) p.publisher })) := by
  obtain ⟨b, hb, h⟩ := except_bind_ok h
  obtain ⟨-, -, h⟩ := except_bind_ok h
  obtain ⟨-, -, h⟩ := except_bind_ok h
  obtain ⟨payload, -, h⟩ := except_bind_ok h
  obtain ⟨hl, hb⟩ := requireBinding_ok hb
  unfold publisher at h
  cases hp : c.publishers.get? (part, command) with
  | some q =>
    rw [hp] at h
    obtain ⟨rfl, rfl⟩ := Prod.mk.inj (Except.ok.inj h)
    exact ⟨hl, rfl, b, hb, Or.inl ⟨rfl, rfl⟩⟩
  | none =>
    rw [hp] at h
    obtain ⟨rfl, rfl⟩ := Prod.mk.inj (Except.ok.inj h)
    exact ⟨hl, rfl, b, hb, Or.inr ⟨rfl, rfl⟩⟩

/-! ## Trajectory goals

`start_joint_trajectory` suspends twice: while it waits for the action server and while it waits
for the goal to be accepted. Its three uninterrupted sections are the definitions below. -/

/-- From the entry to the first `await`: the binding, the converted trajectory, and the client
with the part's action client cached. -/
def startCheck (c : ActionProviderClient) (part : String) (trajectory : ActionValue)
    (jointNames : List String) : Except PyError (ActionProviderClient × JointTrajectory) := do
  let binding ← c.requireBinding part "joint_trajectory"
  let trajectory ← jointTrajectoryFromSpec trajectory jointNames true
  match c.actionClients.get? part with
  | some _ => return (c, trajectory)
  | none =>
    let client : ActionClient := ⟨binding.endpoint, c.leaseId⟩
    return ({ c with actionClients := c.actionClients.set part client }, trajectory)

/-- Once the server is ready: the goal that is sent. It reads the lease id anew. -/
def startDispatch (c : ActionProviderClient) (part : String) (trajectory : JointTrajectory)
    (now : Stamp) : Goal :=
  ⟨now, c.leaseId, part, trajectory⟩

def startAccept (c : ActionProviderClient) (part : String) (handle : GoalHandle) :
    Except PyError ActionProviderClient :=
  if handle.accepted = false then
    .error ⟨.controllerClientError, "Execution Manager rejected trajectory"⟩
  else .ok { c with goalHandles := c.goalHandles.set part handle }

inductive StartAnswer where
  /-- The action server does not become ready in time. -/
  | serverUnavailable
  | dispatchRaised (e : PyError)
  | acceptTimedOut
  | acceptRaised (e : PyError)
  | answered (handle : GoalHandle)
  deriving DecidableEq, Repr

/-- `start_joint_trajectory` run without interruption: the client it leaves, the goal it
dispatched, and the handle or the exception. -/
def startJointTrajectory (c : ActionProviderClient) (part : String) (trajectory : ActionValue)
    (jointNames : List String) (now : Stamp) (answer : StartAnswer) :
    ActionProviderClient × Option Goal × Except PyError GoalHandle :=
  match c.startCheck part trajectory jointNames with
  | .error e => (c, none, .error e)
  | .ok (c', message) =>
    let goal := c'.startDispatch part message now
    match answer with
    | .serverUnavailable =>
      (c', none, .error ⟨.timeoutError, "leased trajectory action unavailable"⟩)
    | .dispatchRaised e => (c', none, .error e)
    | .acceptTimedOut =>
      (c', some goal, .error ⟨.timeoutError, "send leased trajectory timed out"⟩)
    | .acceptRaised e => (c', some goal, .error e)
    | .answered handle =>
      match c'.startAccept part handle with
      | .error e => (c', some goal, .error e)
      | .ok c'' => (c'', some goal, .ok handle)

inductive GoalStatus where
  | succeeded
  | canceled
  | other (code : ℕ)
  deriving DecidableEq, Repr

/-- How a wait on `handle.get_result_async()` ends; `errorString` is read off the result. -/
inductive ResultAnswer where
  | timedOut
  | raised (e : PyError)
  | result (status : GoalStatus) (errorString : String)
  deriving DecidableEq, Repr

/-- `wait_joint_trajectory`: the slot of the part is emptied as soon as a result is there,
whatever goal the result belongs to. -/
def waitJointTrajectory (c : ActionProviderClient) (part : String) :
    ResultAnswer → Outcome ActionProviderClient Unit
  | .timedOut => (c, .error ⟨.timeoutError, "wait for leased trajectory timed out"⟩)
  | .raised e => (c, .error e)
  | .result status errorString =>
    ({ c with goalHandles := c.goalHandles.erase part },
      match status with
      | .succeeded => .ok ()
      | .canceled => .error ⟨.trajectoryCanceledError, "trajectory goal was canceled"⟩
      | .other code => .error ⟨.controllerClientError,
          if errorString = "" then "trajectory status " ++ toString code else errorString⟩)

inductive CancelAnswer where
  | timedOut
  | raised (e : PyError)
  | answered
  deriving DecidableEq, Repr

/-- `cancel_joint_trajectory`: the handle that is asked to cancel, if the slot holds one. -/
def cancelJointTrajectory (c : ActionProviderClient) (part : String) (answer : CancelAnswer) :
    ActionProviderClient × Option GoalHandle × Except PyError Unit :=
  match c.goalHandles.get? part with
  | none => (c, none, .ok ())
  | some handle =>
    ({ c with goalHandles := c.goalHandles.erase part }, some handle,
      match answer with
      | .timedOut => .error ⟨.timeoutError, "cancel trajectory timed out"⟩
      | .raised e => .error e
      | .answered => .ok ())

/-! ## What the trajectory calls leave alone -/

structure SameStreams (c c' : ActionProviderClient) : Prop where
  leaseId : c'.leaseId = c.leaseId
  bindings : c'.bindings = c.bindings
  publishers : c'.publishers = c.publishers

theorem SameStreams.refl (c : ActionProviderClient) : SameStreams c c := ⟨rfl, rfl, rfl⟩

/-- `startCheck` keeps the action client of the part, or stores one made for the bound lease. -/
theorem startCheck_ok {c c' : ActionProviderClient} {part : String} {trajectory : ActionValue}
    {jointNames : List String} {m : JointTrajectory}
    (h : c.startCheck part trajectory jointNames = .ok (c', m)) :
    c' = c ∨ ∃ client : ActionClient, client.createdFor = c.leaseId ∧
      c' = { c with actionClients := c.actionClients.set part client } := by
  obtain ⟨b, -, h⟩ := except_bind_ok h
  obtain ⟨t, -, h⟩ := except_bind_ok h
  cases ha : c.actionClients.get? part with
  | some a =>
    rw [ha] at h
    exact Or.inl (Prod.mk.inj (Except.ok.inj h)).1.symm
  | none =>
    rw [ha] at h
    exact Or.inr ⟨_, rfl, (Prod.mk.inj (Except.ok.inj h)).1.symm⟩

theorem startCheck_sameStreams {c c' : ActionProviderClient} {part : String}
    {trajectory : ActionValue} {jointNames : List String} {m : JointTrajectory}
    (h : c.startCheck part trajectory jointNames = .ok (c', m)) : SameStreams c c' := by
  obtain rfl | ⟨client, -, rfl⟩ := startCheck_ok h
  · exact SameStreams.refl c'
  · exact ⟨rfl, rfl, rfl⟩

theorem startCheck_stores {c c' : ActionProviderClient} {part : String} {trajectory : ActionValue}
    {jointNames : List String} {m : JointTrajectory}
    (h : c.startCheck part trajectory jointNames = .ok (c', m)) :
    (∀ p a, c'.actionClients.get? p = some a →
      c.actionClients.get? p = some a ∨ a.createdFor = c.leaseId) ∧
    c'.goalHandles = c.goalHandles := by
  obtain rfl | ⟨client, hlease, rfl⟩ := startCheck_ok h
  · exact ⟨fun _ _ hp => Or.inl hp, rfl⟩
  · refine ⟨fun p a hp => ?_, rfl⟩
    rw [Dict.get?_set] at hp
    by_cases hpart : p = part
    · rw [if_pos hpart] at hp
      cases hp
      exact Or.inr hlease
    · rw [if_neg hpart] at hp
      exact Or.inl hp

theorem startAccept_sameStreams {c c' : ActionProviderClient} {part : String} {handle : GoalHandle}
    (h : c.startAccept part handle = .ok c') : SameStreams c c' := by
  unfold startAccept at h
  by_cases ha : handle.accepted = false
  · simp [ha] at h
  · rw [if_neg ha] at h
    cases h
    exact ⟨rfl, rfl, rfl⟩

theorem startJointTrajectory_sameStreams (c : ActionProviderClient) (part : String)
    (trajectory : ActionValue) (jointNames : List String) (now : Stamp) (answer : StartAnswer) :
    SameStreams c (c.startJointTrajectory part trajectory jointNames now answer).1 := by
  unfold startJointTrajectory
  cases hc : c.startCheck part trajectory jointNames with
  | error e => exact SameStreams.refl c
  | ok r =>
    have h1 := startCheck_sameStreams hc
    cases answer with
    | answered handle =>
      cases ha : r.1.startAccept part handle with
      | error e => simpa [ha] using h1
      | ok c'' =>
        have h2 := startAccept_sameStreams ha
        simp only [ha]
        exact ⟨h2.leaseId.trans h1.leaseId, h2.bindings.trans h1.bindings,
          h2.publishers.trans h1.publishers⟩
    | serverUnavailable => exact h1
    | dispatchRaised e => exact h1
    | acceptTimedOut => exact h1
    | acceptRaised e => exact h1

theorem waitJointTrajectory_sameStreams (c : ActionProviderClient) (part : String)
    (answer : ResultAnswer) : SameStreams c (c.waitJointTrajectory part answer).1 := by
  cases answer <;> exact ⟨rfl, rfl, rfl⟩

theorem cancelJointTrajectory_sameStreams (c : ActionProviderClient) (part : String)
    (answer : CancelAnswer) : SameStreams c (c.cancelJointTrajectory part answer).1 := by
  unfold cancelJointTrajectory
  cases c.goalHandles.get? part <;> exact ⟨rfl, rfl, rfl⟩

/-! ## Bound and unbound clients -/

/-- The client holds the lease of `g` with exactly its bindings, and every cached publisher is on
the endpoint of one of them. -/
structure BoundTo (c : ActionProviderClient) (g : LeaseGrant) : Prop where
  leaseId : c.leaseId = g.leaseId
  bindings : c.bindings = g.endpoints
  publishers : ∀ key p, c.publishers.get? key = some p →
    ∃ b, g.endpoints.get? key = some b ∧ p.endpoint = b.endpoint

theorem boundTo_bind {c : ActionProviderClient} (h : c.Unbound) (g : LeaseGrant) :
    BoundTo { c with leaseId := g.leaseId, bindings := g.endpoints } g := by
  refine ⟨rfl, rfl, fun key p hp => ?_⟩
  rw [show c.publishers = Dict.empty from h.publishers, Dict.get?_empty] at hp
  cases hp

theorem BoundTo.of_sameStreams {c c' : ActionProviderClient} {g : LeaseGrant} (h : c.BoundTo g)
    (hs : c.SameStreams c') : c'.BoundTo g where
  leaseId := hs.leaseId.trans h.leaseId
  bindings := hs.bindings.trans h.bindings
  publishers key p hp := h.publishers key p (by rw [← hs.publishers]; exact hp)

/-- A bound client publishes for a pair of its grant only, on the endpoint of that pair, under the
lease of the grant; and it stays bound. -/
theorem BoundTo.send {c c' : ActionProviderClient} {g : LeaseGrant} (hc : c.BoundTo g)
    {part command : String} {message : ActionValue} {now : Stamp} {p : Publication}
    (h : c.send part command message now = .ok (c', p)) :
    c'.BoundTo g ∧ p.envelope.leaseId = g.leaseId ∧
      ∃ b, g.endpoints.get? (part, command) = some b ∧ p.publisher.endpoint = b.endpoint := by
  obtain ⟨-, hl, b, hb, hcases⟩ := send_ok h
  rw [hc.leaseId] at hl
  rw [hc.bindings] at hb
  rcases hcases with ⟨hp, rfl⟩ | ⟨he, rfl⟩
  · exact ⟨hc, hl, hc.publishers _ _ hp⟩
  · refine ⟨⟨hc.leaseId, hc.bindings, fun key q hq => ?_⟩, hl, b, hb, he⟩
    rw [Dict.get?_set] at hq
    by_cases hk : key = (part, command)
    · rw [if_pos hk] at hq
      cases hq
      exact ⟨b, hk ▸ hb, he⟩
    · rw [if_neg hk] at hq
      exact hc.publishers key q hq

theorem Unbound.send {c : ActionProviderClient} (hc : c.Unbound) (part command : String)
    (message : ActionValue) (now : Stamp) : ∃ e, c.send part command message now = .error e := by
  cases h : c.send part command message now with
  | error e => exact ⟨e, rfl⟩
  | ok r => exact absurd hc.leaseId (send_ok h).1

theorem Unbound.startJointTrajectory {c : ActionProviderClient} (hc : c.Unbound) (part : String)
    (trajectory : ActionValue) (jointNames : List String) (now : Stamp) (answer : StartAnswer) :
    (c.startJointTrajectory part trajectory jointNames now answer).1 = c := by
  unfold ActionProviderClient.startJointTrajectory
  cases h : c.startCheck part trajectory jointNames with
  | error e => rfl
  | ok r =>
    obtain ⟨b, hb, -⟩ := except_bind_ok h
    exact absurd hc.leaseId (requireBinding_ok hb).1

theorem Unbound.waitJointTrajectory {c : ActionProviderClient} (hc : c.Unbound) (part : String)
    (answer : ResultAnswer) : (c.waitJointTrajectory part answer).1.Unbound := by
  cases answer with
  | result status errorString =>
    refine ⟨hc.leaseId, hc.bindings, hc.publishers, hc.actionClients, ?_⟩
    change c.goalHandles.erase part = Dict.empty
    rw [hc.goalHandles, Dict.erase_empty]
  | timedOut => exact hc
  | raised e => exact hc

theorem Unbound.cancelJointTrajectory {c : ActionProviderClient} (hc : c.Unbound) (part : String)
    (answer : CancelAnswer) : (c.cancelJointTrajectory part answer).1.Unbound := by
  unfold ActionProviderClient.cancelJointTrajectory
  rw [hc.goalHandles, Dict.get?_empty]
  exact hc

end ActionProviderClient
end PhysicalAiRuntime.Provider
