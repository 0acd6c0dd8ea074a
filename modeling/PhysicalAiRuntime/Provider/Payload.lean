import PhysicalAiRuntime.Foundations.Binary64
import PhysicalAiRuntime.Foundations.PyError

/-! The application's result types, the ROS messages they become, and the converters between
them. Numbers are rationals; where the converters compute with them, the results are rounded to
double precision. The converters read a value by attribute probing, so a value is first read off as
the attributes it has (`ActionValue.attrs`). -/
namespace PhysicalAiRuntime.Provider
set_option autoImplicit false
set_option maxHeartbeats 250000

/-! ## Messages -/

structure Stamp where
  sec : ℤ
  nanosec : ℕ
  deriving DecidableEq, Repr

/-- `sec` is the integer assigned to it. -/
structure Duration where
  sec : ℤ
  nanosec : UInt32
  deriving DecidableEq, Repr

structure Header where
  stamp : Stamp
  frameId : String
  deriving DecidableEq, Repr

def Header.default : Header := ⟨⟨0, 0⟩, ""⟩

structure JointTrajectoryPoint where
  positions : List ℚ
  velocities : List ℚ
  accelerations : List ℚ
  timeFromStart : Duration
  deriving DecidableEq, Repr

structure JointTrajectory where
  header : Header
  jointNames : List String
  points : List JointTrajectoryPoint
  deriving DecidableEq, Repr

structure Vector3 where
  x : ℚ
  y : ℚ
  z : ℚ
  deriving DecidableEq, Repr

structure Quaternion where
  x : ℚ
  y : ℚ
  z : ℚ
  w : ℚ
  deriving DecidableEq, Repr

structure CartesianTrajectoryPoint where
  position : Vector3
  orientation : Quaternion
  timeFromStart : Duration
  deriving DecidableEq, Repr

structure CartesianTrajectory where
  header : Header
  trackedFrame : String
  points : List CartesianTrajectoryPoint
  deriving DecidableEq, Repr

structure TwistStamped where
  header : Header
  linear : Vector3
  angular : Vector3
  deriving DecidableEq, Repr

/-! ## Result types -/

structure PlanPoint where
  positions : List ℚ
  velocities : Option (List ℚ)
  accelerations : Option (List ℚ)
  timeFromStartS : ℚ
  deriving DecidableEq, Repr

structure PlanResult where
  valid : Bool
  reason : String
  jointNames : Option (List String)
  points : List PlanPoint
  deriving DecidableEq, Repr

structure ResolveResult where
  valid : Bool
  reason : String
  jointNames : Option (List String)
  positions : Option (List ℚ)
  deriving DecidableEq, Repr

structure JointHorizonPoint where
  positions : List ℚ
  velocities : Option (List ℚ)
  timeFromStartS : ℚ
  deriving DecidableEq, Repr

structure JointHorizonResult where
  valid : Bool
  reason : String
  points : List JointHorizonPoint
  deriving DecidableEq, Repr

structure PoseHorizonPoint where
  positionXyz : List ℚ
  orientationWxyz : List ℚ
  timeFromStartS : ℚ
  deriving DecidableEq, Repr

structure PoseHorizonResult where
  valid : Bool
  reason : String
  points : List PoseHorizonPoint
  deriving DecidableEq, Repr

/-- The kinds of value an `Action` carries; `positions` is a bare list or tuple, `twist` an object
with `linear` and `angular`. -/
inductive ActionValue where
  | none
  | positions (values : List ℚ)
  | jointTrajectory (m : JointTrajectory)
  | cartesianTrajectory (m : CartesianTrajectory)
  | twistStamped (m : TwistStamped)
  | planResult (r : PlanResult)
  | resolveResult (r : ResolveResult)
  | jointHorizonResult (r : JointHorizonResult)
  | poseHorizonResult (r : PoseHorizonResult)
  | posePoint (p : PoseHorizonPoint)
  | twist (linear angular : List ℚ)
  deriving DecidableEq, Repr

/-! ## Attribute probing -/

/-- What `getattr` finds on a point; `none` is a missing attribute or the value `None`. -/
structure PointAttrs where
  positions : Option (List ℚ) := none
  velocities : Option (List ℚ) := none
  accelerations : Option (List ℚ) := none
  timeFromStartS : Option ℚ := none
  positionXyz : Option (List ℚ) := none
  orientationWxyz : Option (List ℚ) := none

/-- What `getattr` finds on a value. -/
structure ValueAttrs where
  valid : Option Bool := none
  reason : String := ""
  jointNames : Option (List String) := none
  points : Option (List PointAttrs) := none
  self : PointAttrs := {}
  linear : Option (List ℚ) := none
  angular : Option (List ℚ) := none

def JointTrajectoryPoint.attrs (p : JointTrajectoryPoint) : PointAttrs :=
  { positions := some p.positions
    velocities := some p.velocities
    accelerations := some p.accelerations }

def PlanPoint.attrs (p : PlanPoint) : PointAttrs :=
  { positions := some p.positions
    velocities := p.velocities
    accelerations := p.accelerations
    timeFromStartS := some p.timeFromStartS }

def JointHorizonPoint.attrs (p : JointHorizonPoint) : PointAttrs :=
  { positions := some p.positions
    velocities := p.velocities
    timeFromStartS := some p.timeFromStartS }

def PoseHorizonPoint.attrs (p : PoseHorizonPoint) : PointAttrs :=
  { timeFromStartS := some p.timeFromStartS
    positionXyz := some p.positionXyz
    orientationWxyz := some p.orientationWxyz }

def ActionValue.attrs : ActionValue → ValueAttrs
  | .none => {}
  | .positions _ => {}
  | .jointTrajectory m =>
    { jointNames := some m.jointNames, points := some (m.points.map JointTrajectoryPoint.attrs) }
  | .cartesianTrajectory m => { points := some (m.points.map fun _ => {}) }
  | .twistStamped _ => {}
  | .planResult r =>
    { valid := some r.valid
      reason := r.reason
      jointNames := r.jointNames
      points := some (r.points.map PlanPoint.attrs) }
  | .resolveResult r =>
    { valid := some r.valid
      reason := r.reason
      jointNames := r.jointNames
      self := { positions := r.positions } }
  | .jointHorizonResult r =>
    { valid := some r.valid
      reason := r.reason
      points := some (r.points.map JointHorizonPoint.attrs) }
  | .poseHorizonResult r =>
    { valid := some r.valid
      reason := r.reason
      points := some (r.points.map PoseHorizonPoint.attrs) }
  | .posePoint p => { self := p.attrs }
  | .twist linear angular => { linear := some linear, angular := some angular }

/-! ## Converters -/

/-- The nanoseconds, split at the second. -/
def Duration.ofNanoseconds (nanoseconds : ℤ) : Duration :=
  ⟨nanoseconds / 1000000000, UInt32.ofNat (nanoseconds % 1000000000).toNat⟩

def setDuration (seconds : ℚ) : Duration :=
  Duration.ofNanoseconds
    (roundHalfEven (Binary64.round (Binary64.round seconds * 1000000000)))

def rejectInvalidResult (value : ActionValue) : Except PyError Unit :=
  match value.attrs.valid with
  | some false =>
    .error ⟨.valueError, "cannot send invalid planning result: " ++ value.attrs.reason⟩
  | _ => .ok ()

/-- One point of a result, as `_joint_trajectory_from_spec` copies it. -/
def jointPointFromSpec (value : PointAttrs) : Except PyError JointTrajectoryPoint :=
  match value.positions with
  | none => .error ⟨.attributeError, "object has no attribute 'positions'"⟩
  | some positions => .ok
    { positions := positions
      velocities := value.velocities.getD []
      accelerations := value.accelerations.getD []
      timeFromStart := setDuration (value.timeFromStartS.getD 0) }

/-- The message `_joint_trajectory_from_spec` builds before it checks it. -/
def jointMessageFromSpec (trajectory : ActionValue) (defaultJointNames : List String) :
    Except PyError JointTrajectory :=
  match trajectory with
  | .jointTrajectory message => .ok message
  | .positions values => .ok
    { header := Header.default
      jointNames := defaultJointNames
      points := [⟨values, [], [], ⟨0, 0⟩⟩] }
  | value => do
    let points ← (value.attrs.points.getD []).mapM jointPointFromSpec
    let names := value.attrs.jointNames.getD []
    return {
      header := Header.default
      jointNames := if names = [] then defaultJointNames else names
      points := points }

/-- `float(sec) + float(nanosec) * 1e-9`. -/
def Duration.seconds (d : Duration) : ℚ :=
  Binary64.round (Binary64.round d.sec +
    Binary64.round (d.nanosec.toNat * Binary64.round (1 / 1000000000)))

def checkJointPoints (jointNames : List String) (requireIncreasingTime : Bool) :
    ℚ → List JointTrajectoryPoint → Except PyError Unit
  | _, [] => .ok ()
  | previous, point :: points =>
    if point.positions.length ≠ jointNames.length then
      .error ⟨.valueError, "joint trajectory positions do not match joint_names"⟩
    else if requireIncreasingTime ∧ point.timeFromStart.seconds ≤ previous then
      .error ⟨.valueError, "trajectory time_from_start must be strictly increasing"⟩
    else checkJointPoints jointNames requireIncreasingTime point.timeFromStart.seconds points

def jointTrajectoryFromSpec (trajectory : ActionValue) (defaultJointNames : List String)
    (requireIncreasingTime : Bool) : Except PyError JointTrajectory := do
  let message ← jointMessageFromSpec trajectory defaultJointNames
  if message.jointNames = [] ∨ message.points = [] then
    .error ⟨.valueError, "joint trajectory requires joint_names and points"⟩
  else do
    checkJointPoints message.jointNames requireIncreasingTime (-1) message.points
    return message

def unpack3 : List ℚ → Except PyError Vector3
  | [x, y, z] => .ok ⟨x, y, z⟩
  | _ => .error ⟨.valueError, "wrong number of values to unpack (expected 3)"⟩

def unpackWxyz : List ℚ → Except PyError Quaternion
  | [w, x, y, z] => .ok ⟨x, y, z, w⟩
  | _ => .error ⟨.valueError, "wrong number of values to unpack (expected 4)"⟩

def posePointFromSpec (item : PointAttrs) : Except PyError CartesianTrajectoryPoint :=
  match item.positionXyz, item.orientationWxyz with
  | none, _ => .error ⟨.attributeError, "object has no attribute 'position_xyz'"⟩
  | some xyz, none => do
    let _ ← unpack3 xyz
    .error ⟨.attributeError, "object has no attribute 'orientation_wxyz'"⟩
  | some xyz, some wxyz => do
    let position ← unpack3 xyz
    let orientation ← unpackWxyz wxyz
    return ⟨position, orientation, setDuration (item.timeFromStartS.getD 0)⟩

def cartesianTrajectoryFromSpec (value : ActionValue) (baseFrame tcpFrame : String) :
    Except PyError CartesianTrajectory := do
  let self := value.attrs.self
  let items := value.attrs.points.getD
    (if self.positionXyz.isSome ∧ self.orientationWxyz.isSome then [self] else [])
  let points ← items.mapM posePointFromSpec
  if points = [] then .error ⟨.valueError, "pose reference requires points"⟩
  else return ⟨{ Header.default with frameId := baseFrame }, tcpFrame, points⟩

def twistStampedFromSpec (value : ActionValue) (baseFrame : String) :
    Except PyError TwistStamped := do
  let linear ← unpack3 (value.attrs.linear.getD [0, 0, 0])
  let angular ← unpack3 (value.attrs.angular.getD [0, 0, 0])
  return ⟨{ Header.default with frameId := baseFrame }, linear, angular⟩

end PhysicalAiRuntime.Provider
