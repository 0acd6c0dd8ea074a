import PhysicalAiRuntime.Config.Profile
import PhysicalAiRuntime.Foundations.Trace
import PhysicalAiRuntime.Recording.EpisodeScope

/-! `Context`: the agents, cameras, sensors and the recorder it makes for the application, each once
under its name. Objects that the application hands over are compared by identity; a subscription is
known by its number, and so is the camera or sensor that made it. -/
namespace PhysicalAiRuntime.Process
open Config Authority Recording
set_option autoImplicit false
set_option maxHeartbeats 250000
set_option linter.unusedSectionVars false

variable {Obj : Type} [DecidableEq Obj]

inductive MessageType where
  | image
  | compressedImage
  | other (name : String)
  deriving DecidableEq, Repr

structure Agent (Obj : Type) where
  name : String
  sourceRole : SourceRole
  sourceInstance : String
  metadata : Dict String String
  resources : Dict Key String
  frequency : Option PyFloat
  robot : Obj
  sensors : List Obj

/-- A `Sensor`, or a `Camera` as one. -/
structure Stream (Obj : Type) where
  subscription : ℕ
  name : Key
  topic : String
  messageType : MessageType
  converter : Option Obj
  historySize : ℤ

/-- A call that the context makes on its node or on what it holds. -/
inductive ContextCall where
  | closeRecorder (n : ℕ)
  | shutdownExecutor
  | joinSpinThread
  | destroySubscription (n : ℕ)
  | destroyClaimClient
  | destroyReleaseClient
  | closeSelector
  | destroyNode
  | rclpyShutdown
  deriving DecidableEq, Repr

/-- The `provider_selector`: an `ExecutionManagerClient` on the context's node, with its two
subscriptions, or an object of the application. -/
inductive Selector where
  | executionManagerClient (status events : ℕ)
  | other
  deriving DecidableEq, Repr

/-- What `close` of the selector calls. -/
def Selector.closing : Selector → List ContextCall
  | .executionManagerClient status events =>
    [.destroySubscription status, .destroySubscription events, .destroyClaimClient,
      .destroyReleaseClient]
  | .other => [.closeSelector]

structure Context (Obj : Type) where
  profile : EmbodimentConfig
  robot : Obj
  ownsNode : Bool
  closed : Bool
  agents : Dict String (Agent Obj)
  cameras : Dict String (Stream Obj)
  cameraHistorySizes : Dict String ℤ
  sensors : Dict String (Stream Obj)
  sensorSpecs : Dict String (String × MessageType × ℤ)
  recorder : Option ℕ
  recorderConfig : Option Obj
  recorders : ℕ
  executor : Bool
  spinThread : Bool
  selector : Selector
  stateSubscription : ℕ
  subscriptions : ℕ
  calls : List ContextCall

/-- The arguments of `__init__` that say what it makes: the default selector, where the application
gives none, and an executor. -/
structure ContextOptions where
  defaultSelector : Bool
  ownsNode : Bool
  spinNode : Bool

namespace Context

/-- `__init__`, with the subscriptions of the default selector and that of the joint states. -/
def init (profile : EmbodimentConfig) (robot : Obj) (options : ContextOptions) : Context Obj where
  profile := profile
  robot := robot
  ownsNode := options.ownsNode
  closed := false
  agents := Dict.empty
  cameras := Dict.empty
  cameraHistorySizes := Dict.empty
  sensors := Dict.empty
  sensorSpecs := Dict.empty
  recorder := none
  recorderConfig := none
  recorders := 0
  executor := options.spinNode
  spinThread := options.spinNode
  selector := if options.defaultSelector then .executionManagerClient 0 1 else .other
  stateSubscription := if options.defaultSelector then 2 else 0
  subscriptions := if options.defaultSelector then 3 else 1
  calls := []

end Context

/-! ## Agents -/

/-- `==` of two floats. -/
def floatEq : PyFloat → PyFloat → Bool
  | .nan, _ => false
  | _, .nan => false
  | x, y => x = y

def frequencyEq : Option PyFloat → Option PyFloat → Bool
  | none, none => true
  | some x, some y => floatEq x y
  | _, _ => false

/-- `x <= 0.0`. -/
def nonPositive : PyFloat → Bool
  | .finite q => q ≤ 0
  | .infinite negative => negative
  | .nan => false

/-- `==` of two dictionaries, whatever the order of their items. -/
def SameItems (d e : Dict String String) : Prop := ∀ k ∈ d.keys ++ e.keys, d.get? k = e.get? k

instance decidableSameItems (d e : Dict String String) : Decidable (SameItems d e) :=
  inferInstanceAs (Decidable (∀ k ∈ d.keys ++ e.keys, d.get? k = e.get? k))

/-- The arguments of `make_agent` after its name. -/
structure AgentRequest (Obj : Type) where
  robot : Option Obj
  sensors : List Obj
  frequency : Option PyFloat
  sourceInstance : Option String
  metadata : Dict String String

/-- `source_instance or name`. -/
def AgentRequest.instanceName (q : AgentRequest Obj) (name : String) : String :=
  match q.sourceInstance with
  | none => name
  | some s => if s = "" then name else s

/-- The test whether an agent can be reused. -/
def AgentRequest.Fits (q : AgentRequest Obj) (name : String) (robot : Obj)
    (frequency : Option PyFloat) (agent : Agent Obj) : Prop :=
  agent.robot = robot ∧ agent.sensors = q.sensors ∧
    frequencyEq agent.frequency frequency = true ∧
    agent.sourceInstance = q.instanceName name ∧ SameItems agent.metadata q.metadata

instance decidableFits (q : AgentRequest Obj) (name : String) (robot : Obj)
    (frequency : Option PyFloat) (agent : Agent Obj) :
    Decidable (q.Fits name robot frequency agent) :=
  inferInstanceAs (Decidable (_ ∧ _ ∧ _ ∧ _ ∧ _))

namespace Context

def makeAgent (s : Context Obj) (name : String) (q : AgentRequest Obj) :
    Outcome (Context Obj) (Agent Obj) :=
  let robot := q.robot.getD s.robot
  match s.profile.agents.get? (.str name) with
  | none => (s, .error ⟨.keyError, "agent " ++ pyRepr name ++
      " is not declared in the application profile"⟩)
  | some config =>
    let frequency := if q.frequency.isNone then config.frequency else q.frequency
    match s.agents.get? name with
    | some agent =>
      if q.Fits name robot frequency agent then (s, .ok agent)
      else (s, .error ⟨.valueError, "agent " ++ pyRepr name ++
        " already exists with different robot, sensors, " ++
        "frequency, source_instance, or metadata"⟩)
    | none =>
      if frequency.any nonPositive then
        (s, .error ⟨.valueError, "agent frequency must be positive"⟩)
      else
        let agent := ⟨name, config.sourceRole, q.instanceName name, q.metadata, config.resources,
          frequency, robot, q.sensors⟩
        ({ s with agents := s.agents.set name agent }, .ok agent)

end Context

/-! ## Cameras and sensors -/

/-- `Sensor.__init__`; `subscribe` answers `create_subscription`, which makes subscription `n`. -/
def newStream (n : ℕ) (name : Key) (topic : String) (messageType : MessageType)
    (converter : Option Obj) (historySize : ℤ) (subscribe : Except PyError Unit) :
    Except PyError (Stream Obj) :=
  if ¬ name.value.truthy then .error ⟨.valueError, "sensor name must not be empty"⟩
  else if topic = "" then .error ⟨.valueError, "sensor topic must not be empty"⟩
  else if historySize ≤ 0 then
    .error ⟨.valueError, "sample buffer capacity must be positive"⟩
  else match subscribe with
    | .error e => .error e
    | .ok _ => .ok ⟨n, name, topic, messageType, converter, historySize⟩

/-- `_camera_message_type`, where `lower` is `str.lower`. -/
def cameraMessageType (lower : String → String) (encoding : String) : MessageType :=
  if lower encoding ∈ ["jpeg", "jpg", "mjpeg"] then .compressedImage else .image

namespace Context

def makeCamera (s : Context Obj) (lower : String → String) (name : String)
    (converter : Option Obj) (historySize : ℤ) (subscribe : Except PyError Unit) :
    Outcome (Context Obj) (Stream Obj) :=
  match s.cameras.get? name with
  | some camera =>
    if converter.isSome then
      (s, .error ⟨.valueError, "camera " ++ pyRepr name ++
        " already exists; configure its converter once"⟩)
    else match s.cameraHistorySizes.get? name with
      | none => (s, .error ⟨.keyError, pyRepr name⟩)
      | some existing =>
        if historySize ≠ existing then
          (s, .error ⟨.valueError, "camera " ++ pyRepr name ++
            " already exists with history_size=" ++ toString existing⟩)
        else (s, .ok camera)
  | none =>
    match s.profile.cameras.get? (.str name) with
    | none => (s, .error ⟨.keyError, "unknown profile camera " ++ pyRepr name⟩)
    | some config =>
      match newStream s.subscriptions config.name config.rosTopic
          (cameraMessageType lower config.encoding) converter historySize subscribe with
      | .error e => (s, .error e)
      | .ok camera =>
        ({ s with
            cameras := s.cameras.set name camera
            cameraHistorySizes := s.cameraHistorySizes.set name historySize
            subscriptions := s.subscriptions + 1 }, .ok camera)

def makeSensor (s : Context Obj) (name topic : String) (messageType : MessageType)
    (converter : Option Obj) (historySize : ℤ) (subscribe : Except PyError Unit) :
    Outcome (Context Obj) (Stream Obj) :=
  match s.sensors.get? name with
  | some sensor =>
    match s.sensorSpecs.get? name with
    | none => (s, .error ⟨.keyError, pyRepr name⟩)
    | some existing =>
      if (topic, messageType, historySize) ≠ existing then
        (s, .error ⟨.valueError, "sensor " ++ pyRepr name ++
          " already exists with different topic, message_type, or history_size"⟩)
      else if converter.isSome then
        (s, .error ⟨.valueError, "sensor " ++ pyRepr name ++
          " already exists; configure its converter once"⟩)
      else (s, .ok sensor)
  | none =>
    match newStream s.subscriptions (.str name) topic messageType converter historySize
        subscribe with
    | .error e => (s, .error e)
    | .ok sensor =>
      ({ s with
          sensors := s.sensors.set name sensor
          sensorSpecs := s.sensorSpecs.set name (topic, messageType, historySize)
          subscriptions := s.subscriptions + 1 }, .ok sensor)

/-- `make_recorder`; `client` answers the factory, or is the client that was handed over. -/
def makeRecorder (s : Context Obj) (config : Option Obj) (client : Except PyError Unit) :
    Outcome (Context Obj) ℕ :=
  match s.recorder with
  | some recorder =>
    if config.isSome ∧ config ≠ s.recorderConfig then
      (s, .error ⟨.valueError,
        "recorder already exists; configure it once via make_recorder()"⟩)
    else (s, .ok recorder)
  | none =>
    match client with
    | .error e => (s, .error e)
    | .ok _ =>
      ({ s with
          recorderConfig := config
          recorder := some s.recorders
          recorders := s.recorders + 1 }, .ok s.recorders)

/-! ## Closing -/

/-- The `try` blocks of `close`, in order; `rclpyOk` is `rclpy.ok()` once the node is destroyed. -/
def closing (s : Context Obj) (rclpyOk : Bool) : List (List ContextCall) :=
  s.recorder.toList.map (fun n => [.closeRecorder n]) ++
  (if s.executor then [[.shutdownExecutor]] else []) ++
  (if s.spinThread then [[.joinSpinThread]] else []) ++
  s.cameras.entries.map (fun e => [.destroySubscription e.2.subscription]) ++
  s.sensors.entries.map (fun e => [.destroySubscription e.2.subscription]) ++
  [s.selector.closing, [.destroySubscription s.stateSubscription]] ++
  if s.ownsNode then [.destroyNode] :: if rclpyOk then [[.rclpyShutdown]] else [] else []

/-- The calls of one block, up to the one that raises. -/
def block (answer : ContextCall → Except Raised Unit) :
    List ContextCall → List ContextCall × Except Raised Unit
  | [] => ([], .ok ())
  | c :: rest =>
    match answer c with
    | .error e => ([c], .error e)
    | .ok () =>
      let (calls, result) := block answer rest
      (c :: calls, result)

/-- Each block is guarded against every `Exception`. -/
def untilInterrupt (answer : ContextCall → Except Raised Unit) :
    List (List ContextCall) → List ContextCall × Except Raised Unit
  | [] => ([], .ok ())
  | group :: rest =>
    match block answer group with
    | (calls, .error .interrupt) => (calls, .error .interrupt)
    | (calls, _) =>
      let (more, result) := untilInterrupt answer rest
      (calls ++ more, result)

/-- `close`; a member is cleared behind its guarded call. -/
def close (s : Context Obj) (answer : ContextCall → Except Raised Unit) (rclpyOk : Bool) :
    Context Obj × Except Raised Unit :=
  if s.closed then (s, .ok ())
  else
    let (calls, result) := untilInterrupt answer (s.closing rclpyOk)
    let passed := fun c => decide (c ∈ calls ∧ answer c ≠ .error .interrupt)
    ({ s with
        closed := true
        recorder := s.recorder.filter fun n => !passed (.closeRecorder n)
        executor := s.executor && !passed .shutdownExecutor
        spinThread := s.spinThread && !passed .joinSpinThread
        calls := s.calls ++ calls }, result)

end Context

inductive ContextUse (Obj : Type) where
  | makeAgent (name : String) (request : AgentRequest Obj)
  | makeCamera (name : String) (converter : Option Obj) (historySize : ℤ)
      (subscribe : Except PyError Unit)
  | makeSensor (name topic : String) (messageType : MessageType) (converter : Option Obj)
      (historySize : ℤ) (subscribe : Except PyError Unit)
  | makeRecorder (config : Option Obj) (client : Except PyError Unit)
  | close (answer : ContextCall → Except Raised Unit) (rclpyOk : Bool)

def Context.step (lower : String → String) (s : Context Obj) : ContextUse Obj → Context Obj
  | .makeAgent name request => (s.makeAgent name request).1
  | .makeCamera name converter historySize subscribe =>
    (s.makeCamera lower name converter historySize subscribe).1
  | .makeSensor name topic messageType converter historySize subscribe =>
    (s.makeSensor name topic messageType converter historySize subscribe).1
  | .makeRecorder config client => (s.makeRecorder config client).1
  | .close answer rclpyOk => (s.close answer rclpyOk).1

/-! ## One object under a name -/

inductive Kind where
  | agent
  | camera
  | sensor
  deriving DecidableEq, Repr

inductive Made (Obj : Type) where
  | agent (a : Agent Obj)
  | stream (x : Stream Obj)

/-- What a use asks for, under which name. -/
def ContextUse.slot : ContextUse Obj → Option (Kind × String)
  | .makeAgent name _ => some (.agent, name)
  | .makeCamera name _ _ _ => some (.camera, name)
  | .makeSensor name _ _ _ _ _ => some (.sensor, name)
  | .makeRecorder _ _ => none
  | .close _ _ => none

namespace Context

/-- What a use returns, unless it raises. -/
def made (lower : String → String) (s : Context Obj) : ContextUse Obj → Option (Made Obj)
  | .makeAgent name request => (s.makeAgent name request).2.toOption.map .agent
  | .makeCamera name converter historySize subscribe =>
    (s.makeCamera lower name converter historySize subscribe).2.toOption.map .stream
  | .makeSensor name topic messageType converter historySize subscribe =>
    (s.makeSensor name topic messageType converter historySize subscribe).2.toOption.map .stream
  | .makeRecorder _ _ => none
  | .close _ _ => none

def find (s : Context Obj) : Kind × String → Option (Made Obj)
  | (.agent, name) => (s.agents.get? name).map .agent
  | (.camera, name) => (s.cameras.get? name).map .stream
  | (.sensor, name) => (s.sensors.get? name).map .stream

end Context

/-- The object is what the use asks for, in this profile and for this robot. -/
def Asked (lower : String → String) (profile : EmbodimentConfig) (robot : Obj) :
    ContextUse Obj → Made Obj → Prop
  | .makeAgent name q, .agent a => ∃ config, profile.agents.get? (.str name) = some config ∧
      a.name = name ∧ a.sourceRole = config.sourceRole ∧ a.resources = config.resources ∧
      a.robot = q.robot.getD robot ∧ a.sensors = q.sensors ∧
      a.frequency = (if q.frequency.isNone then config.frequency else q.frequency) ∧
      a.sourceInstance = q.instanceName name ∧ ∀ k, a.metadata.get? k = q.metadata.get? k
  | .makeCamera name converter historySize _, .stream x =>
    ∃ config, profile.cameras.get? (.str name) = some config ∧ x.name = config.name ∧
      x.topic = config.rosTopic ∧ x.messageType = cameraMessageType lower config.encoding ∧
      x.historySize = historySize ∧ (converter.isSome → x.converter = converter)
  | .makeSensor name topic messageType converter historySize _, .stream x =>
    x.name = .str name ∧ x.topic = topic ∧ x.messageType = messageType ∧
      x.historySize = historySize ∧ (converter.isSome → x.converter = converter)
  | _, _ => False

theorem floatEq_eq {x y : PyFloat} (h : floatEq x y = true) : x = y := by
  cases x <;> cases y <;> simp_all [floatEq]

theorem frequencyEq_eq {x y : Option PyFloat} (h : frequencyEq x y = true) : x = y := by
  cases x with
  | none =>
    cases y with
    | none => rfl
    | some y => cases h
  | some x =>
    cases y with
    | none => cases h
    | some y => exact congrArg some (floatEq_eq h)

theorem get?_of_sameItems {d e : Dict String String} (h : SameItems d e) (k : String) :
    d.get? k = e.get? k := by
  by_cases hk : k ∈ d.keys ++ e.keys
  · exact h k hk
  · rw [List.mem_append, not_or] at hk
    have hnone : ∀ f : Dict String String, k ∉ f.keys → f.get? k = none := by
      intro f hf
      rw [← Dict.get?_isSome_iff, Bool.not_eq_true, Option.isSome_eq_false_iff] at hf
      exact Option.isNone_iff_eq_none.mp hf
    rw [hnone d hk.1, hnone e hk.2]

theorem newStream_ok {n : ℕ} {name : Key} {topic : String} {messageType : MessageType}
    {converter : Option Obj} {historySize : ℤ} {subscribe : Except PyError Unit} {x : Stream Obj}
    (h : newStream n name topic messageType converter historySize subscribe = .ok x) :
    x = ⟨n, name, topic, messageType, converter, historySize⟩ := by
  unfold newStream at h
  by_cases hname : ¬ name.value.truthy
  · rw [if_pos hname] at h
    cases h
  · rw [if_neg hname] at h
    by_cases htopic : topic = ""
    · rw [if_pos htopic] at h
      cases h
    · rw [if_neg htopic] at h
      by_cases hsize : historySize ≤ 0
      · rw [if_pos hsize] at h
        cases h
      · rw [if_neg hsize] at h
        cases subscribe with
        | error e => cases h
        | ok _ => exact (Except.ok.inj h).symm

namespace Context
variable (lower : String → String) {s : Context Obj}

/-- The registries of arguments are those of the objects, and agents and cameras are declared. -/
structure Registered (s : Context Obj) : Prop where
  agents : ∀ name a, s.agents.get? name = some a → a.name = name ∧
    ∃ config, s.profile.agents.get? (.str name) = some config ∧
      a.sourceRole = config.sourceRole ∧ a.resources = config.resources
  cameras : ∀ name x, s.cameras.get? name = some x →
    s.cameraHistorySizes.get? name = some x.historySize ∧
    ∃ config, s.profile.cameras.get? (.str name) = some config ∧ x.name = config.name ∧
      x.topic = config.rosTopic ∧ x.messageType = cameraMessageType lower config.encoding
  sensors : ∀ name x, s.sensors.get? name = some x → x.name = .str name ∧
    s.sensorSpecs.get? name = some (x.topic, x.messageType, x.historySize)

/-- A call that makes or finds an agent leaves it in the registry, and all others there. -/
theorem makeAgent_cases (s : Context Obj) (name : String) (q : AgentRequest Obj) :
    (s.makeAgent name q).1 = s ∧ (∀ a, (s.makeAgent name q).2 = .ok a →
      s.agents.get? name = some a ∧ ∃ config, s.profile.agents.get? (.str name) = some config ∧
        q.Fits name (q.robot.getD s.robot)
          (if q.frequency.isNone then config.frequency else q.frequency) a) ∨
    ∃ config, s.profile.agents.get? (.str name) = some config ∧ s.agents.get? name = none ∧
      let agent := ⟨name, config.sourceRole, q.instanceName name, q.metadata, config.resources,
        if q.frequency.isNone then config.frequency else q.frequency, q.robot.getD s.robot,
        q.sensors⟩
      s.makeAgent name q = ({ s with agents := s.agents.set name agent }, .ok agent) := by
  unfold makeAgent
  cases hconfig : s.profile.agents.get? (.str name) with
  | none => exact Or.inl ⟨rfl, fun a h => by cases h⟩
  | some config =>
    cases hagent : s.agents.get? name with
    | some agent =>
      by_cases hfits : q.Fits name (q.robot.getD s.robot)
          (if q.frequency.isNone then config.frequency else q.frequency) agent
      · refine Or.inl ⟨?_, fun a h => ?_⟩
        · simp only [if_pos hfits]
        · simp only [if_pos hfits] at h
          cases h
          exact ⟨rfl, config, rfl, hfits⟩
      · refine Or.inl ⟨?_, fun a h => ?_⟩
        · simp only [if_neg hfits]
        · simp only [if_neg hfits] at h
          cases h
    | none =>
      by_cases hpos : (if q.frequency.isNone then config.frequency else q.frequency).any
          nonPositive = true
      · refine Or.inl ⟨?_, fun a h => ?_⟩
        · simp only [if_pos hpos]
        · simp only [if_pos hpos] at h
          cases h
      · refine Or.inr ⟨config, rfl, rfl, ?_⟩
        simp only [if_neg hpos]

theorem makeCamera_cases (s : Context Obj) (name : String) (converter : Option Obj)
    (historySize : ℤ) (subscribe : Except PyError Unit) :
    (s.makeCamera lower name converter historySize subscribe).1 = s ∧
      (∀ x, (s.makeCamera lower name converter historySize subscribe).2 = .ok x →
        s.cameras.get? name = some x ∧ s.cameraHistorySizes.get? name = some historySize ∧
          converter = none) ∨
    ∃ config, s.profile.cameras.get? (.str name) = some config ∧ s.cameras.get? name = none ∧
      let camera := ⟨s.subscriptions, config.name, config.rosTopic,
        cameraMessageType lower config.encoding, converter, historySize⟩
      s.makeCamera lower name converter historySize subscribe = ({ s with
        cameras := s.cameras.set name camera
        cameraHistorySizes := s.cameraHistorySizes.set name historySize
        subscriptions := s.subscriptions + 1 }, .ok camera) := by
  unfold makeCamera
  cases hcamera : s.cameras.get? name with
  | some camera =>
    refine Or.inl ?_
    by_cases hconverter : converter.isSome = true
    · simp only [if_pos hconverter]
      exact ⟨trivial, fun x h => by cases h⟩
    · simp only [if_neg hconverter]
      cases hsize : s.cameraHistorySizes.get? name with
      | none => exact ⟨rfl, fun x h => by cases h⟩
      | some existing =>
        by_cases hne : historySize ≠ existing
        · simp only [if_pos hne]
          exact ⟨trivial, fun x h => by cases h⟩
        · simp only [if_neg hne]
          refine ⟨trivial, fun x h => ?_⟩
          cases h
          exact ⟨rfl, congrArg some (not_not.mp hne).symm,
            Option.not_isSome_iff_eq_none.mp hconverter⟩
  | none =>
    cases hconfig : s.profile.cameras.get? (.str name) with
    | none => exact Or.inl ⟨rfl, fun x h => by cases h⟩
    | some config =>
      cases hnew : newStream s.subscriptions config.name config.rosTopic
          (cameraMessageType lower config.encoding) converter historySize subscribe with
      | error e =>
        refine Or.inl ⟨?_, fun x h => ?_⟩
        · simp only [hnew]
        · simp only [hnew] at h
          cases h
      | ok x =>
        refine Or.inr ⟨config, rfl, rfl, ?_⟩
        simp only [hnew, newStream_ok hnew]

theorem makeSensor_cases (s : Context Obj) (name topic : String) (messageType : MessageType)
    (converter : Option Obj) (historySize : ℤ) (subscribe : Except PyError Unit) :
    (s.makeSensor name topic messageType converter historySize subscribe).1 = s ∧
      (∀ x, (s.makeSensor name topic messageType converter historySize subscribe).2 = .ok x →
        s.sensors.get? name = some x ∧
          s.sensorSpecs.get? name = some (topic, messageType, historySize) ∧ converter = none) ∨
    s.sensors.get? name = none ∧
      let sensor := ⟨s.subscriptions, .str name, topic, messageType, converter, historySize⟩
      s.makeSensor name topic messageType converter historySize subscribe = ({ s with
        sensors := s.sensors.set name sensor
        sensorSpecs := s.sensorSpecs.set name (topic, messageType, historySize)
        subscriptions := s.subscriptions + 1 }, .ok sensor) := by
  unfold makeSensor
  cases hsensor : s.sensors.get? name with
  | some sensor =>
    refine Or.inl ?_
    cases hspec : s.sensorSpecs.get? name with
    | none => exact ⟨rfl, fun x h => by cases h⟩
    | some existing =>
      by_cases hne : (topic, messageType, historySize) ≠ existing
      · simp only [if_pos hne]
        exact ⟨trivial, fun x h => by cases h⟩
      · simp only [if_neg hne]
        by_cases hconverter : converter.isSome = true
        · simp only [if_pos hconverter]
          exact ⟨trivial, fun x h => by cases h⟩
        · simp only [if_neg hconverter]
          refine ⟨trivial, fun x h => ?_⟩
          cases h
          exact ⟨rfl, congrArg some (not_not.mp hne).symm,
            Option.not_isSome_iff_eq_none.mp hconverter⟩
  | none =>
    cases hnew : newStream s.subscriptions (.str name) topic messageType converter historySize
        subscribe with
    | error e => exact Or.inl ⟨rfl, fun x h => by cases h⟩
    | ok x =>
      refine Or.inr ⟨rfl, ?_⟩
      simp only [newStream_ok hnew]

/-- What a step does to the registries. -/
inductive Changes (s : Context Obj) : Context Obj → Prop where
  | nothing (t : Context Obj) (hprofile : t.profile = s.profile) (hrobot : t.robot = s.robot)
      (hselector : t.selector = s.selector)
      (hstate : t.stateSubscription = s.stateSubscription)
      (hsubscriptions : t.subscriptions = s.subscriptions) (hagents : t.agents = s.agents)
      (hcameras : t.cameras = s.cameras)
      (hsizes : t.cameraHistorySizes = s.cameraHistorySizes) (hsensors : t.sensors = s.sensors)
      (hspecs : t.sensorSpecs = s.sensorSpecs) : Changes s t
  | agent (name : String) (config : AgentConfig) (a : Agent Obj)
      (hconfig : s.profile.agents.get? (.str name) = some config)
      (hnone : s.agents.get? name = none) (hname : a.name = name)
      (hrole : a.sourceRole = config.sourceRole) (hresources : a.resources = config.resources) :
      Changes s { s with agents := s.agents.set name a }
  | camera (name : String) (config : CameraSensorConfig) (x : Stream Obj)
      (hconfig : s.profile.cameras.get? (.str name) = some config)
      (hnone : s.cameras.get? name = none) (hsubscription : x.subscription = s.subscriptions)
      (hname : x.name = config.name) (htopic : x.topic = config.rosTopic)
      (htype : x.messageType = cameraMessageType lower config.encoding) :
      Changes s { s with
        cameras := s.cameras.set name x
        cameraHistorySizes := s.cameraHistorySizes.set name x.historySize
        subscriptions := s.subscriptions + 1 }
  | sensor (name : String) (x : Stream Obj) (hnone : s.sensors.get? name = none)
      (hsubscription : x.subscription = s.subscriptions) (hname : x.name = .str name) :
      Changes s { s with
        sensors := s.sensors.set name x
        sensorSpecs := s.sensorSpecs.set name (x.topic, x.messageType, x.historySize)
        subscriptions := s.subscriptions + 1 }

theorem step_changes (s : Context Obj) (l : ContextUse Obj) : Changes lower s (s.step lower l) := by
  have hnothing : Changes lower s s := .nothing s rfl rfl rfl rfl rfl rfl rfl rfl rfl rfl
  cases l with
  | makeAgent name request =>
    change Changes lower s (s.makeAgent name request).1
    obtain ⟨he, -⟩ | ⟨config, hconfig, hnone, he⟩ := makeAgent_cases s name request
    · rw [he]
      exact hnothing
    · rw [he]
      exact .agent name config _ hconfig hnone rfl rfl rfl
  | makeCamera name converter historySize subscribe =>
    change Changes lower s (s.makeCamera lower name converter historySize subscribe).1
    obtain ⟨he, -⟩ | ⟨config, hconfig, hnone, he⟩ :=
      makeCamera_cases lower s name converter historySize subscribe
    · rw [he]
      exact hnothing
    · rw [he]
      exact .camera name config ⟨_, _, _, _, converter, historySize⟩ hconfig hnone rfl rfl rfl rfl
  | makeSensor name topic messageType converter historySize subscribe =>
    change Changes lower s
      (s.makeSensor name topic messageType converter historySize subscribe).1
    obtain ⟨he, -⟩ | ⟨hnone, he⟩ :=
      makeSensor_cases s name topic messageType converter historySize subscribe
    · rw [he]
      exact hnothing
    · rw [he]
      exact .sensor name ⟨_, _, topic, messageType, converter, historySize⟩ hnone rfl rfl
  | makeRecorder config client =>
    simp only [step, makeRecorder]
    split
    · split <;> exact hnothing
    · split
      · exact hnothing
      · exact .nothing _ rfl rfl rfl rfl rfl rfl rfl rfl rfl rfl
  | close answer rclpyOk =>
    simp only [step, close]
    split
    · exact hnothing
    · exact .nothing _ rfl rfl rfl rfl rfl rfl rfl rfl rfl rfl

theorem map_get?_set {α : Type} {d : Dict String α} {name : String} (v : α)
    (hnone : d.get? name = none) {f : α → Made Obj} {other : String} {x : Made Obj}
    (h : (d.get? other).map f = some x) : ((d.set name v).get? other).map f = some x := by
  rw [Dict.get?_set]
  by_cases ho : other = name
  · rw [ho, hnone] at h
    cases h
  · rw [if_neg ho]
    exact h

/-- A step keeps the profile and the robot, and what is registered under a name. -/
theorem step_keeps (s : Context Obj) (l : ContextUse Obj) :
    (s.step lower l).profile = s.profile ∧ (s.step lower l).robot = s.robot ∧
    ∀ slot x, s.find slot = some x → (s.step lower l).find slot = some x := by
  have hchanges := step_changes lower s l
  generalize s.step lower l = t at hchanges ⊢
  cases hchanges with
  | nothing _ hprofile hrobot _ _ _ hagents hcameras _ hsensors _ =>
    refine ⟨hprofile, hrobot, fun slot x h => ?_⟩
    unfold find at h ⊢
    rw [hagents, hcameras, hsensors]
    exact h
  | agent name config a _ hnone _ _ _ =>
    refine ⟨rfl, rfl, fun ⟨kind, other⟩ x h => ?_⟩
    cases kind with
    | agent => exact map_get?_set a hnone h
    | camera => exact h
    | sensor => exact h
  | camera name config y _ hnone _ _ _ _ =>
    refine ⟨rfl, rfl, fun ⟨kind, other⟩ x h => ?_⟩
    cases kind with
    | agent => exact h
    | camera => exact map_get?_set y hnone h
    | sensor => exact h
  | sensor name y hnone _ _ =>
    refine ⟨rfl, rfl, fun ⟨kind, other⟩ x h => ?_⟩
    cases kind with
    | agent => exact h
    | camera => exact h
    | sensor => exact map_get?_set y hnone h

theorem registered_step (h : s.Registered lower) (l : ContextUse Obj) :
    (s.step lower l).Registered lower := by
  have hchanges := step_changes lower s l
  generalize s.step lower l = t at hchanges ⊢
  cases hchanges with
  | nothing _ hprofile _ _ _ _ hagents hcameras hsizes hsensors hspecs =>
    refine ⟨?_, ?_, ?_⟩
    · rw [hagents, hprofile]
      exact h.agents
    · rw [hcameras, hsizes, hprofile]
      exact h.cameras
    · rw [hsensors, hspecs]
      exact h.sensors
  | agent name config b hconfig _ hname hrole hresources =>
    refine ⟨fun other a ha => ?_, h.cameras, h.sensors⟩
    rw [Dict.get?_set] at ha
    by_cases ho : other = name
    · rw [if_pos ho] at ha
      cases ha
      exact ⟨hname.trans ho.symm, config, ho ▸ hconfig, hrole, hresources⟩
    · rw [if_neg ho] at ha
      exact h.agents other a ha
  | camera name config y hconfig _ _ hname htopic htype =>
    refine ⟨h.agents, fun other x hx => ?_, h.sensors⟩
    rw [Dict.get?_set] at hx ⊢
    by_cases ho : other = name
    · rw [if_pos ho] at hx ⊢
      cases hx
      exact ⟨rfl, config, ho ▸ hconfig, hname, htopic, htype⟩
    · rw [if_neg ho] at hx ⊢
      exact h.cameras other x hx
  | sensor name y _ _ hname =>
    refine ⟨h.agents, h.cameras, fun other x hx => ?_⟩
    rw [Dict.get?_set] at hx ⊢
    by_cases ho : other = name
    · rw [if_pos ho] at hx ⊢
      cases hx
      exact ⟨ho ▸ hname, rfl⟩
    · rw [if_neg ho] at hx ⊢
      exact h.sensors other x hx

theorem ok_of_made {α : Type} {r : Except PyError α} {f : α → Made Obj} {x : Made Obj}
    (h : r.toOption.map f = some x) : ∃ a, r = .ok a ∧ x = f a := by
  cases r with
  | error e => cases h
  | ok a => exact ⟨a, rfl, (Option.some.inj h).symm⟩

/-- What a use returns is registered under its name, and is what it asked for. -/
theorem made_registered (h : s.Registered lower) {l : ContextUse Obj} {x : Made Obj}
    (hx : s.made lower l = some x) : ∃ slot, l.slot = some slot ∧
      (s.step lower l).find slot = some x ∧ Asked lower s.profile s.robot l x := by
  cases l with
  | makeAgent name request =>
    obtain ⟨a, hok, rfl⟩ := ok_of_made hx
    refine ⟨(.agent, name), rfl, ?_⟩
    change ((s.makeAgent name request).1.agents.get? name).map _ = _ ∧ _
    obtain ⟨he, hfound⟩ | ⟨config, hconfig, hnone, he⟩ := makeAgent_cases s name request
    · obtain ⟨hget, config, hconfig, hrobot, hsensors, hfreq, hinst, hmeta⟩ := hfound a hok
      obtain ⟨hname, config', hconfig', hrole, hres⟩ := h.agents name a hget
      obtain rfl : config = config' := Option.some.inj (hconfig.symm.trans hconfig')
      refine ⟨?_, config, hconfig, hname, hrole, hres, hrobot, hsensors, frequencyEq_eq hfreq,
        hinst, get?_of_sameItems hmeta⟩
      rw [he, hget]
      rfl
    · rw [he] at hok ⊢
      cases hok
      refine ⟨?_, config, hconfig, rfl, rfl, rfl, rfl, rfl, rfl, rfl, fun _ => rfl⟩
      simp
  | makeCamera name converter historySize subscribe =>
    obtain ⟨y, hok, rfl⟩ := ok_of_made hx
    refine ⟨(.camera, name), rfl, ?_⟩
    change ((s.makeCamera lower name converter historySize subscribe).1.cameras.get? name).map _ =
      _ ∧ _
    obtain ⟨he, hfound⟩ | ⟨config, hconfig, hnone, he⟩ :=
      makeCamera_cases lower s name converter historySize subscribe
    · obtain ⟨hget, hsize, hconverter⟩ := hfound y hok
      obtain ⟨hsize', config, hconfig, hname, htopic, htype⟩ := h.cameras name y hget
      refine ⟨?_, config, hconfig, hname, htopic, htype,
        Option.some.inj (hsize'.symm.trans hsize), fun hc => ?_⟩
      · rw [he, hget]
        rfl
      · rw [hconverter] at hc
        cases hc
    · rw [he] at hok ⊢
      cases hok
      refine ⟨?_, config, hconfig, rfl, rfl, rfl, rfl, fun _ => rfl⟩
      simp
  | makeSensor name topic messageType converter historySize subscribe =>
    obtain ⟨y, hok, rfl⟩ := ok_of_made hx
    refine ⟨(.sensor, name), rfl, ?_⟩
    change ((s.makeSensor name topic messageType converter historySize subscribe).1.sensors.get?
      name).map _ = _ ∧ _
    obtain ⟨he, hfound⟩ | ⟨hnone, he⟩ :=
      makeSensor_cases s name topic messageType converter historySize subscribe
    · obtain ⟨hget, hspec, hconverter⟩ := hfound y hok
      obtain ⟨hname, hspec'⟩ := h.sensors name y hget
      have hspecs := Option.some.inj (hspec'.symm.trans hspec)
      simp only [Prod.mk.injEq] at hspecs
      refine ⟨?_, hname, hspecs.1, hspecs.2.1, hspecs.2.2, fun hc => ?_⟩
      · rw [he, hget]
        rfl
      · rw [hconverter] at hc
        cases hc
    · rw [he] at hok ⊢
      cases hok
      refine ⟨?_, rfl, rfl, rfl, rfl, fun _ => rfl⟩
      simp
  | makeRecorder config client => cases hx
  | close answer rclpyOk => cases hx

theorem registered_init (profile : EmbodimentConfig) (robot : Obj) (options : ContextOptions) :
    (init profile robot options).Registered lower :=
  ⟨fun _ _ h => (by cases h), fun _ _ h => (by cases h), fun _ _ h => (by cases h)⟩

theorem run_keeps (s : Context Obj) (ls : List (ContextUse Obj)) :
    (Trace.run (step lower) s ls).profile = s.profile ∧
    (Trace.run (step lower) s ls).robot = s.robot ∧
    ∀ slot x, s.find slot = some x → (Trace.run (step lower) s ls).find slot = some x := by
  induction ls generalizing s with
  | nil => exact ⟨rfl, rfl, fun _ _ h => h⟩
  | cons l ls ih =>
    obtain ⟨hprofile, hrobot, hfind⟩ := step_keeps lower s l
    obtain ⟨hprofile', hrobot', hfind'⟩ := ih (s.step lower l)
    exact ⟨hprofile'.trans hprofile, hrobot'.trans hrobot,
      fun slot x h => hfind' slot x (hfind slot x h)⟩

variable {lower}

/-- **One object under a name.** Whatever else the application asks a context for, and whatever
fails: two calls for an agent, a camera or a sensor of the same name return the same object, unless
they raise, and it is what either of them asks for. -/
theorem same_name_same_object {profile : EmbodimentConfig} {robot : Obj} {options : ContextOptions}
    {before between : List (ContextUse Obj)} {l l' : ContextUse Obj} {x y : Made Obj}
    (hx : made lower (Trace.run (step lower) (init profile robot options) before) l =
      some x)
    (hy : made lower (Trace.run (step lower) (init profile robot options)
      (before ++ l :: between)) l' = some y)
    (hslot : l.slot = l'.slot) :
    x = y ∧ Asked lower profile robot l x ∧ Asked lower profile robot l' x := by
  have hreg : ∀ ls, (Trace.run (step lower) (init profile robot options) ls).Registered
      lower := fun ls => Trace.run_invariant' (Registered lower)
    (fun _ l h => registered_step lower h l) (registered_init lower profile robot options)
    ls
  obtain ⟨slot, hl, hfind, hasked⟩ := made_registered lower (hreg before) hx
  obtain ⟨slot', hl', hfind', hasked'⟩ := made_registered lower (hreg _) hy
  obtain ⟨hprofile, hrobot, -⟩ :=
    run_keeps lower (init profile robot options) before
  obtain ⟨hprofile', hrobot', -⟩ :=
    run_keeps lower (init profile robot options) (before ++ l :: between)
  obtain rfl : slot = slot' := by
    rw [hl, hl'] at hslot
    exact Option.some.inj hslot
  have hlater := (run_keeps lower _ between).2.2 slot x hfind
  rw [← Trace.run_cons, ← Trace.run_append] at hlater
  have hkept := (step_keeps lower _ l').2.2 slot x hlater
  obtain rfl : x = y := Option.some.inj (hkept.symm.trans hfind')
  rw [hprofile, hrobot] at hasked
  rw [hprofile', hrobot'] at hasked'
  exact ⟨rfl, hasked, hasked'⟩

end Context

def emptyProfile : EmbodimentConfig :=
  ⟨"cell", Dict.empty, Dict.empty, Dict.empty, Dict.empty, Dict.empty, Dict.empty, Dict.empty,
    Dict.empty, Dict.empty, Dict.empty, Dict.empty⟩

def wristSensor (converter : Option ℕ) : ContextUse ℕ :=
  .makeSensor "wrist" "/wrist" (.other "Wrench") converter 8 (.ok ())

def wristStream : Stream ℕ := ⟨3, .str "wrist", "/wrist", .other "Wrench", some 5, 8⟩

/-- The second call finds what the first one made, behind a call of `close`. -/
theorem same_name_same_object_wrist :
    Asked id emptyProfile 0 (wristSensor none) (.stream wristStream) := by
  have hfirst : Context.made id (Trace.run (Context.step id)
      (Context.init emptyProfile 0 ⟨true, true, false⟩) []) (wristSensor (some 5)) =
      some (.stream wristStream) := rfl
  have hsecond : Context.made id (Trace.run (Context.step id)
      (Context.init emptyProfile 0 ⟨true, true, false⟩)
      ([] ++ wristSensor (some 5) :: [.close (fun _ => .ok ()) true])) (wristSensor none) =
      some (.stream wristStream) := rfl
  exact (Context.same_name_same_object hfirst hsecond rfl).2.2

end PhysicalAiRuntime.Process
