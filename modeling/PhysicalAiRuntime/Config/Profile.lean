import PhysicalAiRuntime.Authority.Messages
import PhysicalAiRuntime.Config.Value

/-! `EmbodimentConfig.from_dict`: the checks of a profile in the order in which the source makes
them, with the text of each error, and the configuration that an accepted profile becomes. -/
namespace PhysicalAiRuntime.Config
open Authority
set_option autoImplicit false
set_option maxHeartbeats 250000

structure ControllerConfig where
  name : String
  implementation : String
  commandInterface : String
  rosActions : Dict String String
  rosTopics : Dict String String

structure PartConfig where
  name : Key
  partType : String
  jointNames : List String
  controllerManager : String
  controllers : Dict Key ControllerConfig
  defaultController : String
  parent : Option String
  baseFrame : Option String
  flangeFrame : Option String
  tcpFrame : Option String

structure CameraSensorConfig where
  name : Key
  rosTopic : String
  encoding : String
  fps : ℤ
  resolution : ℤ × ℤ
  qosProfile : String

structure AgentConfig where
  name : Key
  sourceRole : SourceRole
  resources : Dict Key String
  frequency : Option PyFloat

structure EmbodimentConfig where
  name : String
  parts : Dict Key PartConfig
  groups : Dict Key (List Key)
  metadata : Dict Key Value
  hostRoles : Dict Key Value
  cameras : Dict Key CameraSensorConfig
  agents : Dict Key AgentConfig
  recording : Dict Key Value
  features : Dict Key Value
  calibration : Dict Key Value
  streams : Dict Key Value
  rawData : Dict Key Value

/-! ## Routing files -/

def bindExecutionManagerRouting (host : Host) (root : Dict Key Value)
    (sourcePath : Option String) : Except PyError (Dict Key Value) :=
  match field root "execution_manager_config" .none with
  | .none => .ok root
  | reference => do
    require (¬ (field root "groups" .none).truthy) ⟨.valueError,
      "groups belong to the Execution Manager capability file; " ++
        "do not duplicate them in the RMI profile"⟩
    let emPath ← resolvePackageFile host reference sourcePath "execution_manager_config"
    let em ← mapping (← host.readYaml emPath) emPath
    match em.get? (.str "groups") with
    | none => .error ⟨.keyError, "'groups'"⟩
    | some groups => return root.set (.str "groups") groups

def bindRecorderStreamContract (host : Host) (root : Dict Key Value)
    (sourcePath : Option String) : Except PyError (Dict Key Value) :=
  match field root "recorder" .none with
  | .dict items =>
    match (Dict.ofPairs items).get? (.str "config") with
    | none => .ok root
    | some reference => do
      let path ← resolvePackageFile host reference sourcePath "recorder.config"
      return root.set (.str "recorder") (.dict (items ++ [(.str "contract_path", .str path)]))
  | _ => .ok root

/-- The root mapping that the checks read. -/
def bindRoot (host : Host) (data : Value) (sourcePath : Option String) :
    Except PyError (Dict Key Value) := do
  let root ← mapping data "profile"
  require (.str "provider_selection" ∉ root.keys) ⟨.valueError,
    "provider_selection is removed; declare dynamic agents with source_role and resources"⟩
  let root ← bindExecutionManagerRouting host root sourcePath
  bindRecorderStreamContract host root sourcePath

/-! ## Parts -/

def controllerConfig (path : String) (value : Value) : Except PyError ControllerConfig := do
  let controller ← mapping value path
  let actions ← endpoints (field controller "ros_actions" (.dict [])) (path ++ ".ros_actions")
  let topics ← endpoints (field controller "ros_topics" (.dict [])) (path ++ ".ros_topics")
  require (¬ (actions.isEmpty ∧ topics.isEmpty)) ⟨.valueError,
    path ++ " must declare ros_actions or ros_topics"⟩
  let name ← string (field controller "name" .none) (path ++ ".name")
  let implementation ←
    string (field controller "implementation" .none) (path ++ ".implementation")
  let commandInterface ←
    string (field controller "command_interface" .none) (path ++ ".command_interface")
  return ⟨name, implementation, commandInterface, actions, topics⟩

def jointNames (value : Value) (path : String) : Except PyError (List String) :=
  let names : Option (List String) := match value with
    | .list items => items.mapM Value.nonEmptyString
    | _ => none
  match names with
  | some names => .ok names
  | none => .error ⟨.typeError, path ++ " must be a list of non-empty strings"⟩

def partConfig (name : Key) (value : Value) : Except PyError PartConfig := do
  let path := "groups." ++ name.text
  let rawPart ← mapping value path
  let rawControllers ← mapping (field rawPart "controllers" .none) (path ++ ".controllers")
  require (¬ rawControllers.isEmpty) ⟨.valueError, path ++ ".controllers must not be empty"⟩
  let controllers ← rawControllers.mapM fun contract value =>
    controllerConfig (path ++ ".controllers." ++ contract.text) value
  let default ←
    string (field rawPart "default_controller" .none) (path ++ ".default_controller")
  require (.str default ∈ controllers.keys) ⟨.valueError,
    path ++ ".default_controller must be a controller contract"⟩
  let joints ← jointNames (field rawPart "joint_names" .none) (path ++ ".joint_names")
  let partType ← string (field rawPart "type" .none) (path ++ ".type")
  let controllerManager ←
    string (field rawPart "controller_manager" .none) (path ++ ".controller_manager")
  let parent ← optionalString (field rawPart "parent_group" .none) (path ++ ".parent_group")
  let baseFrame ← optionalString (field rawPart "base_frame" .none) (path ++ ".base_frame")
  let flangeFrame ← optionalString (field rawPart "flange_frame" .none) (path ++ ".flange_frame")
  let tcpFrame ← optionalString (field rawPart "tcp_frame" .none) (path ++ ".tcp_frame")
  return ⟨name, partType, joints, controllerManager, controllers, default, parent, baseFrame,
    flangeFrame, tcpFrame⟩

/-- The check of `parent_group`, once every part is there. -/
def checkParents (parts : Dict Key PartConfig) : Except PyError Unit :=
  parts.entries.forM fun e => match e.2.parent with
    | none => .ok ()
    | some parent => require (.str parent ∈ parts.keys) ⟨.valueError,
        "part " ++ e.2.name.repr ++ " references unknown parent " ++ pyRepr parent⟩

def groupMembers (host : Host) (parts : Dict Key PartConfig) (name : Key) (value : Value) :
    Except PyError (List Key) := do
  let path := "compound_groups." ++ name.text
  let group ← mapping value path
  match field group "included_groups" .none with
  | .list (member :: members) => do
    let keys ← (member :: members).mapM Value.key
    let unknown := ((member :: members).zip keys).filter fun e => e.2 ∉ parts.keys
    require (unknown = []) ⟨.valueError,
      path ++ " references unknown groups: " ++ host.repr (unknown.map Prod.fst)⟩
    return keys
  | _ => .error ⟨.typeError, path ++ ".included_groups must be a non-empty list"⟩

/-! ## Agents -/

def followJointTrajectory (part : PartConfig) : Bool :=
  part.controllers.entries.any fun e => "follow_joint_trajectory" ∈ e.2.rosActions.keys

/-- The contracts that the validator lets an agent name for a part. -/
def available (part : PartConfig) : List String :=
  (part.controllers.entries.flatMap fun e => e.2.rosTopics.keys) ++
    if followJointTrajectory part then ["joint_trajectory"] else []

def agentResource (parts : Dict Key PartConfig) (path : String) (resource : Key)
    (command : Value) : Except PyError String := do
  let command ← string command (path ++ ".resources." ++ resource.text)
  match parts.get? resource with
  | none => .error ⟨.valueError, path ++ " references unknown resource " ++ resource.repr⟩
  | some part => do
    require (command ∈ available part) ⟨.valueError,
      path ++ ".resources." ++ resource.text ++ " references unsupported command " ++
        pyRepr command⟩
    return command

def sourceRole : String → Option SourceRole
  | "POLICY" => some .policy
  | "TELEOP" => some .teleop
  | "PLANNER" => some .planner
  | _ => none

/-- `x <= 0.0`. -/
def PyFloat.nonPositive : PyFloat → Bool
  | .finite q => q ≤ 0
  | .infinite negative => negative
  | .nan => false

/-- `float(n)`, which is exact here. -/
def PyFloat.ofInt (n : ℤ) : Except PyError PyFloat :=
  if n.natAbs < 2 ^ 1024 - 2 ^ 970 then .ok (.finite n)
  else .error ⟨.overflowError, "int too large to convert to float"⟩

def agentFrequency (value : Value) (path : String) : Except PyError (Option PyFloat) :=
  let refused : PyError := ⟨.valueError, path ++ ".frequency must be positive"⟩
  match value with
  | .none => .ok none
  | .int n => do
    require (¬ n ≤ 0) refused
    return some (← PyFloat.ofInt n)
  | .float x => do
    require (¬ x.nonPositive) refused
    return some x
  | _ => .error refused

def agentConfig (host : Host) (parts : Dict Key PartConfig) (name : Key) (value : Value) :
    Except PyError AgentConfig := do
  let path := "agents." ++ name.text
  let rawAgent ← mapping value path
  let roleName ← string (field rawAgent "source_role" .none) (path ++ ".source_role")
  match sourceRole (host.upper roleName) with
  | none => .error ⟨.valueError, path ++ ".source_role must be POLICY, TELEOP, or PLANNER"⟩
  | some role => do
    let resources ← mapping (field rawAgent "resources" .none) (path ++ ".resources")
    require (¬ resources.isEmpty) ⟨.valueError, path ++ ".resources must not be empty"⟩
    let validated ← resources.mapM (agentResource parts path)
    let frequency ← agentFrequency (field rawAgent "frequency" .none) path
    return ⟨name, role, validated, frequency⟩

/-! ## Cameras -/

def cameraResolution (value : Value) : Option (ℤ × ℤ) :=
  match value with
  | .list [height, width] => do
    let height ← height.asInt
    let width ← width.asInt
    if 0 < height ∧ 0 < width then some (height, width) else none
  | _ => none

/-- `int(value)`. -/
def toInt (host : Host) (value : Value) : Except PyError ℤ :=
  match value with
  | .bool b => .ok (Value.boolInt b)
  | .int n => .ok n
  | .float (.finite q) => .ok (q.num.tdiv q.den)
  | .float (.infinite _) =>
    .error ⟨.overflowError, "cannot convert float infinity to integer"⟩
  | .float .nan => .error ⟨.valueError, "cannot convert float NaN to integer"⟩
  | .str s => host.int s
  | _ => .error ⟨.typeError, "int() argument must be a string or a real number"⟩

def cameraConfig (host : Host) (name : Key) (value : Value) :
    Except PyError CameraSensorConfig := do
  let path := "sensors.cameras." ++ name.text
  let camera ← mapping value path
  match cameraResolution (field camera "resolution" (.list [.int 480, .int 640])) with
  | none => .error ⟨.typeError, path ++ ".resolution must contain two positive integers"⟩
  | some resolution => do
    let rosTopic ← string (field camera "ros_topic" .none) (path ++ ".ros_topic")
    let fps ← toInt host (field camera "fps" (.int 30))
    return {
      name := name
      rosTopic := rosTopic
      encoding := host.str (field camera "encoding" (.str "rgb8"))
      fps := fps
      resolution := resolution
      qosProfile := host.str (field camera "qos_profile" (.str "sensor_data")) }

/-! ## Profiles -/

def fromDict (host : Host) (data : Value) (sourcePath : Option String) :
    Except PyError EmbodimentConfig := do
  let root ← bindRoot host data sourcePath
  let metadata ← mapping (field root "metadata" .none) "metadata"
  let name ← string (field metadata "name" .none) "metadata.name"
  let rawParts ← mapping (field root "groups" .none) "groups"
  require (¬ rawParts.isEmpty) ⟨.valueError, "groups must not be empty"⟩
  let parts ← rawParts.mapM partConfig
  checkParents parts
  let rawGroups ← mapping (field root "compound_groups" (.dict [])) "compound_groups"
  let groups ← rawGroups.mapM (groupMembers host parts)
  let hostRoles ← mapping (field root "host_roles" (.dict [])) "host_roles"
  let rawAgents ← mapping (field root "agents" (.dict [])) "agents"
  let agents ← rawAgents.mapM (agentConfig host parts)
  let recording ← mapping (field root "recorder" (.dict [])) "recorder"
  let features ← mapping (field root "features" (.dict [])) "features"
  let calibration ← mapping (field root "calibration" (.dict [])) "calibration"
  let streams ← mapping (field root "streams" (.dict [])) "streams"
  let sensors ← mapping (field root "sensors" (.dict [])) "sensors"
  let rawCameras ← mapping (field sensors "cameras" (.dict [])) "sensors.cameras"
  let cameras ← rawCameras.mapM (cameraConfig host)
  return {
    name := name
    parts := parts
    groups := groups
    metadata := metadata
    hostRoles := hostRoles
    cameras := cameras
    agents := agents
    recording := recording
    features := features
    calibration := calibration
    streams := streams
    rawData := root }

end PhysicalAiRuntime.Config
