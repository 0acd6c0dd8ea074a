import Mathlib.Algebra.Order.Ring.Rat
import PhysicalAiRuntime.Authority.Client

/-! The joint state that `Robot` keeps for its observations. The callback of the subscription and a
reader take turns under the lock; the allocations of an observation are read after it. -/
namespace PhysicalAiRuntime.Sensing
open Authority
set_option autoImplicit false
set_option maxHeartbeats 250000

variable {α : Type}

/-- A `JointState`, with the stamp of its header in seconds. -/
structure JointState (α : Type) where
  stampS : ℚ
  name : List String
  position : List α
  velocity : List α
  effort : List α

structure JointData (α : Type) where
  jointNames : List String
  jointPositions : List α
  jointVelocities : List α
  jointEfforts : List α

def JointState.data (message : JointState α) : JointData α :=
  ⟨message.name, message.position, message.velocity, message.effort⟩

structure RobotState (α : Type) where
  latestState : Option (JointData α)
  sourceTimeS : ℚ
  receiveTimeS : ℚ

structure Observation (α : Type) where
  data : JointData α
  sourceTimeS : ℚ
  receiveTimeS : ℚ
  allocations : Dict String Allocation

namespace RobotState

def init : RobotState α := ⟨none, 0, 0⟩

/-- `update_joint_state` at the time of the node's clock. -/
def updateJointState (_ : RobotState α) (message : JointState α) (received : ℚ) : RobotState α :=
  ⟨some message.data, if message.stampS ≤ 0 then received else message.stampS, received⟩

def isReady (r : RobotState α) : Bool := r.latestState.isSome

def unavailable : PyError :=
  ⟨.runtimeError, "robot state is unavailable; call wait_until_ready()"⟩

/-- `state`; the client answers with its `allocations` after the lock is given back. -/
def state (r : RobotState α) (allocations : Dict String Allocation) :
    Except PyError (Observation α) :=
  match r.latestState with
  | none => .error unavailable
  | some data => .ok ⟨data, r.sourceTimeS, r.receiveTimeS, allocations⟩

/-- The state can be read as soon as the robot is ready, and not before. -/
theorem state_ok_iff (r : RobotState α) (allocations : Dict String Allocation) :
    (∃ o, r.state allocations = .ok o) ↔ r.isReady = true := by
  unfold state isReady
  cases r.latestState with
  | none => simp
  | some data => simp

end RobotState
end PhysicalAiRuntime.Sensing
