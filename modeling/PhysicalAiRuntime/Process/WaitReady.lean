import PhysicalAiRuntime.Recovery.Prepared
import PhysicalAiRuntime.Sensing.Readiness
import PhysicalAiRuntime.Sensing.RobotState

/-! `Context.wait_until_ready`: the joint state, the Execution Manager and its faults, then the
cameras, each waited for in turn by the main thread while messages arrive and the clocks go on. -/
namespace PhysicalAiRuntime.Process
open Authority Config Sensing Trace
open Recovery (Startup Request namedContracts faulted authorityState)
set_option autoImplicit false
set_option maxHeartbeats 250000

/-- The arguments of `wait_until_ready`. -/
structure WaitOptions where
  timeout : ℚ
  checkHardware : Bool
  checkCameras : Bool
  requireExecutionManager : Bool
  prepareExecution : Bool
  deriving DecidableEq

/-- The default of `check_frequency`; no caller gives another one. -/
def checkFrequency : ℚ := 50

/-- `getattr(selection, "get_hardware_diagnostics", None)`: an `ExecutionManagerClient` has none. -/
def getHardwareDiagnostics : Option (List String) := none

structure Camera (ν : Type) where
  historySize : ℕ
  sensor : Sensor historySize ν

/-- Where the main thread stands in `wait_until_ready`. -/
inductive WaitPhase where
  | idle
  | polling (deadline : ℚ)
  /-- The look at `is_ready` has found no joint state. -/
  | unready (deadline : ℚ)
  | sleeping (deadline wake : ℚ)
  | requiring
  /-- Before `prepare_execution`. -/
  | calling
  | preparing
  | making (names : List Key)
  /-- The first of the cameras is waited for. -/
  | waiting (names : List Key) (wait : Phase)
  | ended (result : Except PyError Unit)
  deriving DecidableEq

structure Runtime (α ν : Type) where
  profile : EmbodimentConfig
  robot : RobotState α
  startup : Startup
  /-- The clock of the node. -/
  clockS : ℚ
  cameras : Dict Key (Camera ν)
  options : WaitOptions
  phase : WaitPhase

namespace Runtime
variable {α ν : Type}

inductive Event (α ν : Type) where
  | jointState (message : JointState α)
  | image (name : Key) (header : Option Header) (conversion : Except PyError ν)
  | status (message : AuthorityStatus)
  | elapse (seconds : ℚ≥0)
  | clock (nowS : ℚ)
  /-- The application makes a camera, between two calls. -/
  | makeCamera (name : Key) (historySize : ℕ) (subscribe : Except PyError Unit)
  | call (options : WaitOptions)
  /-- The main thread goes on, where it needs no answer. -/
  | turn
  | require (available : Bool)
  | prepare (l : Startup.Event)
  | make (subscribe : Except PyError Unit)

def init (profile : EmbodimentConfig) (timeouts : Timeouts) (timeoutSec now clockS : ℚ) :
    Runtime α ν where
  profile := profile
  robot := RobotState.init
  startup := Startup.init profile timeouts timeoutSec now
  clockS := clockS
  cameras := Dict.empty
  options := ⟨10, false, false, false, true⟩
  phase := .idle

/-- `robot.state`. -/
def state (s : Runtime α ν) : Except PyError (Observation α) :=
  s.robot.state (s.startup.process.client.getAllocations s.startup.now)

/-- `Context.is_ready`. -/
def isReady (s : Runtime α ν) (checkCameras : Bool) : Bool :=
  s.robot.isReady && (!checkCameras || s.cameras.entries.all fun e => e.2.sensor.isReady)

/-! ## The robot -/

def timedOut : PyError := ⟨.timeoutError, "timed out waiting for robot joint state"⟩

def unsupported : PyError :=
  ⟨.runtimeError, "hardware diagnostics are not supported by this authority client"⟩

/-- `Robot.wait_until_ready` with `check_hardware`, once the joint state is there. -/
def checkHardware (checkHardware : Bool) : Except PyError Unit :=
  if checkHardware then
    match getHardwareDiagnostics with
    | none => .error unsupported
    | some diagnostics =>
      if diagnostics ≠ [] then
        .error ⟨.runtimeError, "robot hardware is not ready: " ++ "; ".intercalate diagnostics⟩
      else .ok ()
  else .ok ()

/-! ## The cameras -/

/-- `make_camera` for a camera that the profile declares and the context does not have yet. -/
def newCamera (config : CameraSensorConfig) (historySize : ℕ) (subscribe : Except PyError Unit) :
    Except PyError (Camera ν) :=
  if ¬ config.name.value.truthy then .error ⟨.valueError, "sensor name must not be empty"⟩
  else do
    let sensor ← Sensor.new config.name.text config.rosTopic historySize
    subscribe
    return ⟨historySize, sensor⟩

def makeCamera (s : Runtime α ν) (name : Key) (historySize : ℕ) (subscribe : Except PyError Unit) :
    Outcome (Dict Key (Camera ν)) Unit :=
  match s.cameras.get? name, s.profile.cameras.get? name with
  | some _, _ => (s.cameras, .ok ())
  | none, none => (s.cameras, .error ⟨.keyError, "unknown profile camera " ++ name.repr⟩)
  | none, some config =>
    match newCamera config historySize subscribe with
    | .error e => (s.cameras, .error e)
    | .ok camera => (s.cameras.set name camera, .ok ())

def onImage (s : Runtime α ν) (name : Key) (header : Option Header)
    (conversion : Except PyError ν) : Dict Key (Camera ν) :=
  match s.cameras.get? name with
  | none => s.cameras
  | some camera =>
    s.cameras.set name ⟨camera.historySize, (camera.sensor.onMessage ⟨s.clockS, header, conversion⟩).1⟩

/-- One section of `Camera.wait_until_ready`. -/
def watched (s : Runtime α ν) (camera : Camera ν) (wait : Phase) : Phase :=
  let readiness : Readiness camera.historySize ν := ⟨camera.sensor, s.startup.now, wait⟩
  match wait with
  | .idle => readiness.check s.options.timeout
  | _ => readiness.turn

/-! ## The call -/

/-- After `prepare_execution`, or where it is not asked for. -/
def sense (s : Runtime α ν) : WaitPhase :=
  if s.options.checkCameras ∧ s.profile.cameras.keys ≠ [] then .making s.profile.cameras.keys
  else .ended (.ok ())

/-- After the wait for the robot. -/
def attend (s : Runtime α ν) : WaitPhase :=
  if s.options.requireExecutionManager || s.options.prepareExecution then .requiring else s.sense

def turn (s : Runtime α ν) : WaitPhase :=
  match s.phase with
  | .polling deadline =>
    if s.robot.isReady then
      match checkHardware s.options.checkHardware with
      | .error e => .ended (.error e)
      | .ok () => s.attend
    else .unready deadline
  | .unready deadline =>
    if deadline ≤ s.startup.now then .ended (.error timedOut)
    else .sleeping deadline (s.startup.now + 1 / checkFrequency)
  | .sleeping deadline wake =>
    if wake ≤ s.startup.now then .polling deadline else .sleeping deadline wake
  | .making [] => .waiting (s.cameras.keys) .idle
  | .waiting [] _ => .ended (.ok ())
  | .waiting (name :: names) wait =>
    match s.cameras.get? name with
    | none => .waiting (name :: names) wait
    | some camera =>
      match s.watched camera wait with
      | .ended (.ok ()) => .waiting names .idle
      | .ended (.error e) => .ended (.error e)
      | wait => .waiting (name :: names) wait
  | phase => phase

/-- `require_execution_manager`. -/
def required (s : Runtime α ν) (available : Bool) : WaitPhase :=
  if s.options.timeout ≤ 0 then
    .ended (.error ⟨.valueError, "timeout_sec must be positive"⟩)
  else if ¬ available then
    .ended (.error ⟨.executionManagerUnavailableError,
      "Execution Manager is unavailable at /execution_manager/claim"⟩)
  else if s.options.prepareExecution then .calling
  else s.sense

/-- Where `prepare_execution` has left the main thread. -/
def prepared (s : Runtime α ν) (startup : Startup) : WaitPhase :=
  match startup.process.phase, startup.process.returned with
  | .idle, some (.error e) => .ended (.error e)
  | .idle, _ => s.sense
  | _, _ => .preparing

/-- The steps of `prepare_execution` after its call. -/
def OfPrepare : Startup.Event → Bool
  | .poll => true
  | .clear _ => true
  | .claimAnswered _ _ => true
  | .releaseAnswered _ => true
  | .settle => true
  | _ => false

def prepare (s : Runtime α ν) (l : Startup.Event) : Runtime α ν :=
  if s.phase = .preparing ∧ OfPrepare l = true then
    { s with startup := s.startup.step l, phase := s.prepared (s.startup.step l) }
  else s

def require (s : Runtime α ν) (available : Bool) : Runtime α ν :=
  match s.phase with
  | .requiring => { s with phase := s.required available }
  | .calling =>
    let startup := s.startup.step (.call (some s.options.timeout) available)
    { s with startup := startup, phase := s.prepared startup }
  | _ => s

def make (s : Runtime α ν) (subscribe : Except PyError Unit) : Runtime α ν :=
  match s.phase with
  | .making (name :: names) =>
    let (cameras, made) := s.makeCamera name 8 subscribe
    match made with
    | .error e => { s with cameras := cameras, phase := .ended (.error e) }
    | .ok () => { s with cameras := cameras, phase := .making names }
  | _ => s

/-- The application is in no call of `wait_until_ready`. -/
def Free (s : Runtime α ν) : Bool :=
  match s.phase with
  | .idle => true
  | .ended _ => true
  | _ => false

def step (s : Runtime α ν) : Event α ν → Runtime α ν
  | .jointState message => { s with robot := s.robot.updateJointState message s.clockS }
  | .image name header conversion => { s with cameras := s.onImage name header conversion }
  | .status message => { s with startup := s.startup.step (.status message) }
  | .elapse seconds => { s with startup := s.startup.step (.elapse seconds) }
  | .clock nowS => { s with clockS := nowS }
  | .makeCamera name historySize subscribe =>
    if s.Free then { s with cameras := (s.makeCamera name historySize subscribe).1 } else s
  | .call options =>
    if s.Free then
      { s with options := options, phase := .polling (s.startup.now + options.timeout) }
    else s
  | .turn => { s with phase := s.turn }
  | .require available => s.require available
  | .prepare l => s.prepare l
  | .make subscribe => s.make subscribe

/-! ## What a step can do -/

/-- The steps that change nothing but the place of the main thread. -/
inductive Goes (s : Runtime α ν) : WaitPhase → Prop
  | turn : Goes s s.turn
  | require (hphase : s.phase = .requiring) (available : Bool) : Goes s (s.required available)
  | present {name : Key} {names : List Key} (hphase : s.phase = .making (name :: names))
    (hname : name ∈ s.cameras.keys) : Goes s (.making names)
  | refused {name : Key} {names : List Key} (hphase : s.phase = .making (name :: names))
    (e : PyError) : Goes s (.ended (.error e))

/-- A camera is made by the application, or by the call for the first name of its list. -/
inductive Makes (s : Runtime α ν) (name : Key) : WaitPhase → Prop
  | application (hfree : s.Free = true) : Makes s name s.phase
  | call {names : List Key} (hphase : s.phase = .making (name :: names)) :
    Makes s name (.making names)

/-- The steps of `prepare_execution`. -/
inductive Prepares (s : Runtime α ν) : Startup.Event → Prop
  | call (hphase : s.phase = .calling) (available : Bool) :
    Prepares s (.call (some s.options.timeout) available)
  | later (hphase : s.phase = .preparing) (l : Startup.Event) (hl : OfPrepare l = true) :
    Prepares s l

/-- Status messages and the monotonic clock. -/
inductive Arrives : Startup.Event → Prop
  | status (message : AuthorityStatus) : Arrives (.status message)
  | elapse (seconds : ℚ≥0) : Arrives (.elapse seconds)

inductive Moves (s : Runtime α ν) : Runtime α ν → Prop
  | stays : Moves s s
  | joints (message : JointState α) :
    Moves s { s with robot := s.robot.updateJointState message s.clockS }
  | image (name : Key) (header : Option Header) (conversion : Except PyError ν) :
    Moves s { s with cameras := s.onImage name header conversion }
  | authority {l : Startup.Event} (hl : Arrives l) : Moves s { s with startup := s.startup.step l }
  | clock (nowS : ℚ) : Moves s { s with clockS := nowS }
  | calls (hfree : s.Free = true) (options : WaitOptions) :
    Moves s { s with
      options := options
      phase := .polling (s.startup.now + options.timeout) }
  | goes {phase : WaitPhase} (h : Goes s phase) : Moves s { s with phase := phase }
  | prepares {l : Startup.Event} (h : Prepares s l) :
    Moves s { s with startup := s.startup.step l, phase := s.prepared (s.startup.step l) }
  | makes {name : Key} {phase : WaitPhase} (h : Makes s name phase)
    (habsent : s.cameras.get? name = none) (hdeclared : name ∈ s.profile.cameras.keys)
    (camera : Camera ν) :
    Moves s { s with cameras := s.cameras.set name camera, phase := phase }

/-- A camera is there already, or it is refused, or it is made. -/
theorem makeCamera_cases (s : Runtime α ν) (name : Key) (historySize : ℕ)
    (subscribe : Except PyError Unit) :
    (name ∈ s.cameras.keys ∧ s.makeCamera name historySize subscribe = (s.cameras, .ok ())) ∨
      (∃ e, s.makeCamera name historySize subscribe = (s.cameras, .error e)) ∨
      (s.cameras.get? name = none ∧ name ∈ s.profile.cameras.keys ∧
        ∃ camera, s.makeCamera name historySize subscribe =
          (s.cameras.set name camera, .ok ())) := by
  unfold makeCamera
  cases hget : s.cameras.get? name with
  | some camera =>
    refine Or.inl ⟨?_, rfl⟩
    rw [← Dict.get?_isSome_iff, hget]
    rfl
  | none =>
    cases hconfig : s.profile.cameras.get? name with
    | none => exact Or.inr (Or.inl ⟨_, rfl⟩)
    | some config =>
      have hdeclared : name ∈ s.profile.cameras.keys := by
        rw [← Dict.get?_isSome_iff, hconfig]
        rfl
      dsimp only
      cases (newCamera config historySize subscribe : Except PyError (Camera ν)) with
      | error e => exact Or.inr (Or.inl ⟨e, rfl⟩)
      | ok camera => exact Or.inr (Or.inr ⟨rfl, hdeclared, camera, rfl⟩)

theorem moves_make (s : Runtime α ν) (subscribe : Except PyError Unit) :
    Moves s (s.make subscribe) := by
  unfold make
  split
  · rename_i name names hphase
    rcases s.makeCamera_cases name 8 subscribe with
      ⟨hname, hmade⟩ | ⟨e, hmade⟩ | ⟨habsent, hdeclared, camera, hmade⟩
    · rw [hmade]
      exact .goes (.present hphase hname)
    · rw [hmade]
      exact .goes (.refused hphase e)
    · rw [hmade]
      exact .makes (.call hphase) habsent hdeclared camera
  · exact .stays

theorem moves_makeCamera (s : Runtime α ν) (name : Key) (historySize : ℕ)
    (subscribe : Except PyError Unit) :
    Moves s (s.step (.makeCamera name historySize subscribe)) := by
  simp only [step]
  by_cases hfree : s.Free = true
  · rw [if_pos hfree]
    rcases s.makeCamera_cases name historySize subscribe with
      ⟨-, hmade⟩ | ⟨e, hmade⟩ | ⟨habsent, hdeclared, camera, hmade⟩
    · rw [hmade]
      exact .stays
    · rw [hmade]
      exact .stays
    · rw [hmade]
      exact .makes (.application hfree) habsent hdeclared camera
  · rw [if_neg hfree]
    exact .stays

theorem moves_require (s : Runtime α ν) (available : Bool) : Moves s (s.require available) := by
  unfold require
  split
  · rename_i hphase
    exact .goes (.require hphase available)
  · rename_i hphase
    exact .prepares (.call hphase available)
  · exact .stays

theorem step_moves (s : Runtime α ν) (l : Event α ν) : Moves s (s.step l) := by
  cases l with
  | jointState message => exact .joints message
  | image name header conversion => exact .image name header conversion
  | status message => exact .authority (.status message)
  | elapse seconds => exact .authority (.elapse seconds)
  | clock nowS => exact .clock nowS
  | makeCamera name historySize subscribe => exact s.moves_makeCamera name historySize subscribe
  | call options =>
    simp only [step]
    by_cases hfree : s.Free = true
    · rw [if_pos hfree]
      exact .calls hfree options
    · rw [if_neg hfree]
      exact .stays
  | turn => exact .goes .turn
  | require available => exact s.moves_require available
  | prepare l =>
    simp only [step, prepare]
    by_cases hl : s.phase = .preparing ∧ OfPrepare l = true
    · rw [if_pos hl]
      exact .prepares (.later hl.1 l hl.2)
    · rw [if_neg hl]
      exact .stays
  | make subscribe => exact s.moves_make subscribe

/-! ## What a run keeps -/

/-- The camera has a sample. -/
def Sees (s : Runtime α ν) (name : Key) : Prop :=
  ∃ camera, s.cameras.get? name = some camera ∧ camera.sensor.isReady = true

/-- What is there stays there. -/
structure Keeps (s t : Runtime α ν) : Prop where
  profile : t.profile = s.profile
  robot : s.robot.isReady = true → t.robot.isReady = true
  prepared : s.startup.process.executionPrepared = true →
    t.startup.process.executionPrepared = true
  made : ∀ name ∈ s.cameras.keys, name ∈ t.cameras.keys
  sees : ∀ name, s.Sees name → t.Sees name

theorem Keeps.refl (s : Runtime α ν) : Keeps s s := ⟨rfl, id, id, fun _ => id, fun _ => id⟩

theorem Keeps.trans {s t u : Runtime α ν} (h : Keeps s t) (h' : Keeps t u) : Keeps s u where
  profile := h'.profile.trans h.profile
  robot hs := h'.robot (h.robot hs)
  prepared hs := h'.prepared (h.prepared hs)
  made name hs := h'.made name (h.made name hs)
  sees name hs := h'.sees name (h.sees name hs)

theorem executionPrepared_step {s : Startup} (h : s.process.executionPrepared = true)
    (l : Startup.Event) : (s.step l).process.executionPrepared = true := by
  rcases Startup.step_moves s l with ⟨message, rfl⟩ | ⟨seconds, rfl⟩ | ⟨-, hmoves⟩
  · exact h
  · exact h
  · generalize (s.step l).process = p at hmoves ⊢
    cases hmoves with
    | stays _ => exact h
    | waits _ _ phase _ => exact h
    | raised _ e => exact h
    | answers _ _ snapshot => exact h
    | prepared _ snapshot => rfl

theorem isReady_onMessage {c : ℕ} {sensor : Sensor c ν} (h : sensor.isReady = true)
    (m : Message ν) : (sensor.onMessage m).1.isReady = true := by
  unfold Sensor.isReady at h ⊢
  rw [Readiness.latest_onMessage]
  cases m.conversion with
  | error e => exact h
  | ok value => rfl

theorem keeps_image (s : Runtime α ν) (name : Key) (header : Option Header)
    (conversion : Except PyError ν) :
    Keeps s { s with cameras := s.onImage name header conversion } := by
  unfold onImage
  cases hget : s.cameras.get? name with
  | none => exact Keeps.refl s
  | some camera =>
    refine ⟨rfl, id, id, fun x hx => (Dict.mem_keys_set _ _ _ x).mpr (Or.inr hx),
      fun x ⟨seen, hseen, hready⟩ => ?_⟩
    unfold Sees
    dsimp only
    rw [Dict.get?_set]
    by_cases hx : x = name
    · subst hx
      rw [hget] at hseen
      cases hseen
      exact ⟨_, if_pos rfl, isReady_onMessage hready _⟩
    · exact ⟨seen, by rw [if_neg hx, hseen], hready⟩

theorem keeps_makes (s : Runtime α ν) {name : Key} (habsent : s.cameras.get? name = none)
    (camera : Camera ν) (phase : WaitPhase) :
    Keeps s { s with cameras := s.cameras.set name camera, phase := phase } := by
  refine ⟨rfl, id, id, fun x hx => (Dict.mem_keys_set _ _ _ x).mpr (Or.inr hx),
    fun x ⟨seen, hseen, hready⟩ => ?_⟩
  have hne : x ≠ name := by
    intro hx
    rw [hx, habsent] at hseen
    cases hseen
  refine ⟨seen, ?_, hready⟩
  dsimp only
  rw [Dict.get?_set, if_neg hne, hseen]

theorem keeps_step (s : Runtime α ν) (l : Event α ν) : Keeps s (s.step l) := by
  have hmoves := s.step_moves l
  generalize s.step l = t at hmoves ⊢
  cases hmoves with
  | stays => exact Keeps.refl s
  | joints message => exact ⟨rfl, fun _ => rfl, id, fun _ => id, fun _ => id⟩
  | image name header conversion => exact s.keeps_image name header conversion
  | @authority l' hl =>
    exact ⟨rfl, id, fun h => executionPrepared_step h l', fun _ => id, fun _ => id⟩
  | clock nowS => exact ⟨rfl, id, id, fun _ => id, fun _ => id⟩
  | calls hfree options => exact ⟨rfl, id, id, fun _ => id, fun _ => id⟩
  | goes h => exact ⟨rfl, id, id, fun _ => id, fun _ => id⟩
  | @prepares l' h =>
    exact ⟨rfl, id, fun h => executionPrepared_step h l', fun _ => id, fun _ => id⟩
  | makes h habsent hdeclared camera => exact s.keeps_makes habsent camera _

theorem keeps_run (s : Runtime α ν) (ls : List (Event α ν)) : Keeps s (run step s ls) :=
  run_related Keeps Keeps.refl (fun _ _ _ => Keeps.trans)
    (fun s l _ => s.keeps_step l) (follows_true s ls)

/-! ## What the main thread has seen to -/

def Prepared (s : Runtime α ν) : Prop :=
  s.options.prepareExecution = true → s.startup.process.executionPrepared = true

/-- What holds where the main thread stands in the call. -/
def SeenTo (s : Runtime α ν) : WaitPhase → Prop
  | .requiring => s.robot.isReady = true
  | .calling => s.robot.isReady = true
  | .preparing => s.robot.isReady = true ∧ s.startup.process.phase ≠ .idle
  | .making names => s.robot.isReady = true ∧ s.Prepared ∧
    ∀ name ∈ s.profile.cameras.keys, name ∈ s.cameras.keys ∨ name ∈ names
  | .waiting names wait => s.robot.isReady = true ∧ s.Prepared ∧
    (∀ name ∈ s.profile.cameras.keys, s.Sees name ∨ name ∈ names) ∧ wait ≠ .ended (.ok ())
  | .ended (.ok ()) => s.robot.isReady = true ∧ s.Prepared ∧
    (s.options.checkCameras = true → ∀ name ∈ s.profile.cameras.keys, s.Sees name)
  | _ => True

/-- `prepare_execution` is under way only inside the call, and the cameras are of the profile. -/
structure Inv (s : Runtime α ν) : Prop where
  seenTo : s.SeenTo s.phase
  idle : s.phase ≠ .preparing → s.startup.process.phase = .idle
  declared : ∀ name ∈ s.cameras.keys, name ∈ s.profile.cameras.keys

theorem inv_init (profile : EmbodimentConfig) (timeouts : Timeouts) (timeoutSec now clockS : ℚ) :
    (init profile timeouts timeoutSec now clockS : Runtime α ν).Inv :=
  ⟨trivial, fun _ => rfl, fun _ h => absurd h List.not_mem_nil⟩

theorem SeenTo.mono {s t : Runtime α ν} {phase : WaitPhase} (h : s.SeenTo phase)
    (hk : Keeps s t) (ho : t.options = s.options)
    (hp : t.startup.process.phase = s.startup.process.phase) : t.SeenTo phase := by
  have hprepared : s.Prepared → t.Prepared := by
    intro hs hasked
    rw [ho] at hasked
    exact hk.prepared (hs hasked)
  unfold SeenTo at h ⊢
  split at h
  · exact hk.robot h
  · exact hk.robot h
  · exact ⟨hk.robot h.1, by rw [hp]; exact h.2⟩
  · refine ⟨hk.robot h.1, hprepared h.2.1, fun name hname => ?_⟩
    rw [hk.profile] at hname
    exact (h.2.2 name hname).imp_left (hk.made name)
  · refine ⟨hk.robot h.1, hprepared h.2.1, fun name hname => ?_, h.2.2.2⟩
    rw [hk.profile] at hname
    exact (h.2.2.1 name hname).imp_left (hk.sees name)
  · refine ⟨hk.robot h.1, hprepared h.2.1, fun hasked name hname => ?_⟩
    rw [hk.profile] at hname
    rw [ho] at hasked
    exact hk.sees name (h.2.2 hasked name hname)
  · trivial

theorem seenTo_sense {s : Runtime α ν} (hready : s.robot.isReady = true) (hp : s.Prepared) :
    s.SeenTo s.sense := by
  unfold sense
  by_cases hcameras : s.options.checkCameras = true ∧ s.profile.cameras.keys ≠ []
  · rw [if_pos hcameras]
    exact ⟨hready, hp, fun name hname => Or.inr hname⟩
  · rw [if_neg hcameras]
    refine ⟨hready, hp, fun hasked name hname => ?_⟩
    have hnone : s.profile.cameras.keys = [] := by
      by_contra hne
      exact hcameras ⟨hasked, hne⟩
    rw [hnone] at hname
    cases hname

theorem seenTo_attend {s : Runtime α ν} (hready : s.robot.isReady = true) :
    s.SeenTo s.attend := by
  unfold attend
  by_cases hasked : (s.options.requireExecutionManager || s.options.prepareExecution) = true
  · rw [if_pos hasked]
    exact hready
  · rw [if_neg hasked]
    refine seenTo_sense hready fun hprepare => absurd ?_ hasked
    rw [hprepare, Bool.or_true]

/-! ## The cameras -/

theorem looked_ok {c : ℕ} {r : Readiness c ν} {deadline : ℚ} {afterSequence : ℕ}
    (h : r.looked deadline afterSequence = .ended (.ok ())) : r.sensor.isReady = true := by
  unfold Readiness.looked at h
  cases hlook : r.sensor.buffer.look r.now deadline afterSequence with
  | error e =>
    rw [hlook] at h
    cases h
  | ok found =>
    rw [hlook] at h
    cases found with
    | none => cases h
    | some sample =>
      unfold Sensor.isReady
      rw [(SampleBuffer.look_some hlook).1]
      rfl

/-- A wait that ends without an exception has found a sample. -/
theorem watched_ok {s : Runtime α ν} {camera : Camera ν} {wait : Phase}
    (hwait : wait ≠ .ended (.ok ())) (h : s.watched camera wait = .ended (.ok ())) :
    camera.sensor.isReady = true := by
  unfold watched at h
  cases wait with
  | idle =>
    unfold Readiness.check at h
    dsimp only at h
    cases hready : camera.sensor.isReady with
    | true => rfl
    | false =>
      rw [hready] at h
      cases h
  | checked timeout => cases h
  | opened call =>
    cases call with
    | entering deadline afterSequence => exact looked_ok h
    | waiting deadline afterSequence => exact looked_ok h
  | ended result => exact absurd h hwait

theorem seenTo_turn {s : Runtime α ν} (h : s.Inv) : s.SeenTo s.turn := by
  have hseen := h.seenTo
  unfold turn
  split
  next deadline hphase =>
    by_cases hready : s.robot.isReady = true
    · rw [if_pos hready]
      cases checkHardware s.options.checkHardware with
      | error e => trivial
      | ok u => exact seenTo_attend hready
    · rw [if_neg hready]
      trivial
  next deadline hphase =>
    split <;> trivial
  next deadline wake hphase =>
    split <;> trivial
  next hphase =>
    rw [hphase] at hseen
    obtain ⟨hready, hp, hmade⟩ := hseen
    refine ⟨hready, hp, fun name hname => Or.inr ?_, fun he => by cases he⟩
    exact (hmade name hname).resolve_right List.not_mem_nil
  next wait hphase =>
    rw [hphase] at hseen
    obtain ⟨hready, hp, hsees, -⟩ := hseen
    exact ⟨hready, hp, fun _ name hname => (hsees name hname).resolve_right List.not_mem_nil⟩
  next name names wait hphase =>
    rw [hphase] at hseen
    obtain ⟨hready, hp, hsees, hwait⟩ := hseen
    split
    · exact ⟨hready, hp, hsees, hwait⟩
    next camera hcamera =>
      split
      next hwatched =>
        have hname : s.Sees name := ⟨camera, hcamera, watched_ok hwait hwatched⟩
        refine ⟨hready, hp, fun x hx => ?_, fun he => by cases he⟩
        rcases hsees x hx with hold | hmem
        · exact Or.inl hold
        · rcases List.mem_cons.mp hmem with rfl | hrest
          · exact Or.inl hname
          · exact Or.inr hrest
      · trivial
      next hgoes _ => exact ⟨hready, hp, hsees, hgoes⟩
  · exact hseen

/-! ## The Execution Manager -/

/-- A call of `prepare_execution` is under way, has raised, or has found or left execution
prepared. -/
def Concludes (p : Recovery.Process) : Prop :=
  p.phase ≠ .idle ∨ (∃ e, p.returned = some (.error e)) ∨ p.executionPrepared = true

theorem concludes_call {p : Recovery.Process} (now : ℚ) (timeoutSec : Option ℚ)
    (available : Bool) : Concludes (p.prepareExecution now timeoutSec available) := by
  simp only [Recovery.Process.prepareExecution]
  by_cases htimeout : timeoutSec.getD p.timeoutSec ≤ 0
  · rw [if_pos htimeout]
    exact Or.inr (Or.inl ⟨_, rfl⟩)
  · rw [if_neg htimeout]
    by_cases hprepared : p.executionPrepared = true
    · rw [if_pos hprepared]
      exact Or.inr (Or.inr hprepared)
    · rw [if_neg hprepared]
      by_cases havailable : available = true
      · rw [if_neg (not_not.mpr havailable)]
        exact Or.inl (by simp)
      · rw [if_pos havailable]
        exact Or.inr (Or.inl ⟨_, rfl⟩)

theorem concludes_later {s : Startup} {l : Startup.Event} (hopen : s.process.phase ≠ .idle)
    (hl : OfPrepare l = true) : Concludes (s.step l).process := by
  rcases Startup.step_moves s l with ⟨message, rfl⟩ | ⟨seconds, rfl⟩ | ⟨-, hmoves⟩
  · cases hl
  · cases hl
  · generalize (s.step l).process = p at hmoves ⊢
    cases hmoves with
    | stays _ => exact Or.inl hopen
    | waits _ _ phase hphase => exact Or.inl hphase
    | raised _ e => exact Or.inr (Or.inl ⟨e, rfl⟩)
    | answers _ hidle snapshot => exact absurd hidle hopen
    | prepared _ snapshot => exact Or.inr (Or.inr rfl)

theorem concludes_prepares {s : Runtime α ν} (h : s.Inv) {l : Startup.Event}
    (hl : Prepares s l) : Concludes (s.startup.step l).process := by
  cases hl with
  | call hphase available =>
    have hidle := h.idle (by rw [hphase]; simp)
    simp only [Startup.step, if_pos hidle]
    exact concludes_call _ _ _
  | later hphase l hl =>
    have hseen := h.seenTo
    rw [hphase] at hseen
    exact concludes_later hseen.2 hl

theorem inv_prepares {s : Runtime α ν} (h : s.Inv) {l : Startup.Event} (hl : Prepares s l) :
    ({ s with
      startup := s.startup.step l
      phase := s.prepared (s.startup.step l) } : Runtime α ν).Inv := by
  have hconcludes := concludes_prepares h hl
  have hready : s.robot.isReady = true := by
    have hseen := h.seenTo
    cases hl with
    | call hphase available =>
      rw [hphase] at hseen
      exact hseen
    | later hphase l hl =>
      rw [hphase] at hseen
      exact hseen.1
  generalize s.startup.step l = startup at hconcludes ⊢
  have hsense : startup.process.executionPrepared = true →
      SeenTo { s with startup := startup, phase := s.prepared startup } s.sense :=
    fun hp => seenTo_sense (s := { s with startup := startup, phase := s.prepared startup }) hready
      fun _ => hp
  by_cases hidle : startup.process.phase = .idle
  · refine ⟨?_, fun _ => hidle, h.declared⟩
    dsimp only
    unfold prepared at hsense ⊢
    rw [hidle] at hsense ⊢
    rcases hconcludes with hopen | ⟨e, he⟩ | hp
    · exact absurd hidle hopen
    · rw [he] at hsense ⊢
      trivial
    · split
      · trivial
      · exact hsense hp
      · trivial
  · have hphase : s.prepared startup = .preparing := by
      unfold prepared
      split
      · exact absurd ‹_› hidle
      · exact absurd ‹_› hidle
      · rfl
    rw [hphase]
    exact ⟨⟨hready, hidle⟩, fun hne => absurd rfl hne, h.declared⟩

/-! ## A run -/

theorem inv_makes {s : Runtime α ν} (h : s.Inv) {name : Key} {phase : WaitPhase}
    (hm : Makes s name phase) (habsent : s.cameras.get? name = none)
    (hdeclared : name ∈ s.profile.cameras.keys) (camera : Camera ν) :
    ({ s with cameras := s.cameras.set name camera, phase := phase } : Runtime α ν).Inv := by
  have hkeeps := s.keeps_makes habsent camera phase
  refine ⟨?_, fun hne => h.idle fun hphase => ?_, fun x hx => ?_⟩
  · cases hm with
    | application hfree => exact h.seenTo.mono hkeeps rfl rfl
    | @call names hphase =>
      have hseen := h.seenTo
      rw [hphase] at hseen
      obtain ⟨hready, hp, hmade⟩ := hseen
      refine ⟨hready, hp, fun x hx => ?_⟩
      rcases hmade x hx with hold | hmem
      · exact Or.inl (hkeeps.made x hold)
      · rcases List.mem_cons.mp hmem with rfl | hrest
        · exact Or.inl ((Dict.mem_keys_set _ _ _ x).mpr (Or.inl rfl))
        · exact Or.inr hrest
  · cases hm with
    | application hfree => exact hne hphase
    | call hmaking =>
      rw [hmaking] at hphase
      cases hphase
  · rcases (Dict.mem_keys_set _ _ _ x).mp hx with rfl | hold
    · exact hdeclared
    · exact h.declared x hold

theorem inv_goes {s : Runtime α ν} (h : s.Inv) {phase : WaitPhase} (hg : Goes s phase) :
    ({ s with phase := phase } : Runtime α ν).Inv := by
  have hseen := h.seenTo
  have hsame : ∀ {p : WaitPhase}, s.SeenTo p → SeenTo { s with phase := phase } p :=
    fun hp => hp.mono ⟨rfl, id, id, fun _ => id, fun _ => id⟩ rfl rfl
  refine ⟨hsame ?_, fun hne => h.idle fun hphase => ?_, h.declared⟩
  · cases hg with
    | turn => exact seenTo_turn h
    | require hphase available =>
      rw [hphase] at hseen
      unfold required
      split
      · trivial
      · split
        · trivial
        · split
          · exact hseen
          next hno => exact seenTo_sense hseen fun hasked => absurd hasked hno
    | @present name names hphase hname =>
      rw [hphase] at hseen
      refine ⟨hseen.1, hseen.2.1, fun x hx => ?_⟩
      rcases hseen.2.2 x hx with hold | hmem
      · exact Or.inl hold
      · rcases List.mem_cons.mp hmem with rfl | hrest
        · exact Or.inl hname
        · exact Or.inr hrest
    | refused hphase e => trivial
  · cases hg with
    | turn => exact hne (by unfold turn; rw [hphase])
    | require hrequiring available =>
      rw [hrequiring] at hphase
      cases hphase
    | present hmaking hname =>
      rw [hmaking] at hphase
      cases hphase
    | refused hmaking e =>
      rw [hmaking] at hphase
      cases hphase

theorem mem_keys_onImage {s : Runtime α ν} {name x : Key} {header : Option Header}
    {conversion : Except PyError ν} (h : x ∈ (s.onImage name header conversion).keys) :
    x ∈ s.cameras.keys := by
  unfold onImage at h
  cases hget : s.cameras.get? name with
  | none =>
    rw [hget] at h
    exact h
  | some camera =>
    rw [hget] at h
    rcases (Dict.mem_keys_set _ _ _ x).mp h with rfl | hold
    · rw [← Dict.get?_isSome_iff, hget]
      rfl
    · exact hold

theorem inv_step (s : Runtime α ν) (l : Event α ν) (h : s.Inv) : (s.step l).Inv := by
  have hkeeps := s.keeps_step l
  have hmoves := s.step_moves l
  generalize s.step l = t at hkeeps hmoves ⊢
  cases hmoves with
  | stays => exact h
  | joints message => exact ⟨h.seenTo.mono hkeeps rfl rfl, h.idle, h.declared⟩
  | image name header conversion =>
    exact ⟨h.seenTo.mono hkeeps rfl rfl, h.idle, fun x hx => h.declared x (mem_keys_onImage hx)⟩
  | @authority l hl =>
    have hphase : (s.startup.step l).process.phase = s.startup.process.phase := by
      cases hl with
      | status message => rfl
      | elapse seconds => rfl
    exact ⟨h.seenTo.mono hkeeps rfl hphase, fun hne => hphase.trans (h.idle hne), h.declared⟩
  | clock nowS => exact ⟨h.seenTo.mono hkeeps rfl rfl, h.idle, h.declared⟩
  | calls hfree options =>
    refine ⟨trivial, fun _ => h.idle fun hphase => ?_, h.declared⟩
    unfold Free at hfree
    rw [hphase] at hfree
    cases hfree
  | goes hg => exact inv_goes h hg
  | prepares hl => exact inv_prepares h hl
  | makes hm habsent hdeclared camera => exact inv_makes h hm habsent hdeclared camera

/-- The state of the robot can be read, execution is prepared and the cameras of the profile have
samples, as far as the call asked for them. -/
structure Ready (s : Runtime α ν) (options : WaitOptions) : Prop where
  state : ∃ o, s.state = .ok o
  prepared : options.prepareExecution = true → s.startup.process.executionPrepared = true
  cameras : options.checkCameras = true → ∀ name ∈ s.profile.cameras.keys, s.Sees name
  isReady : s.isReady options.checkCameras = true

/-- Where the cameras of the profile have samples, all cameras of the context have. -/
theorem Inv.isReady {s : Runtime α ν} (h : s.Inv) (hready : s.robot.isReady = true)
    {checkCameras : Bool}
    (hsees : checkCameras = true → ∀ name ∈ s.profile.cameras.keys, s.Sees name) :
    s.isReady checkCameras = true := by
  unfold Runtime.isReady
  rw [hready, Bool.true_and]
  cases checkCameras with
  | false => rfl
  | true =>
    rw [Bool.not_true, Bool.false_or, List.all_eq_true]
    intro e he
    have hkey : e.1 ∈ s.cameras.keys := List.mem_map_of_mem he
    obtain ⟨camera, hcamera, hseen⟩ := hsees rfl e.1 (h.declared e.1 hkey)
    rw [(Dict.get?_eq_some_iff s.cameras e.1 e.2).mpr he] at hcamera
    cases hcamera
    exact hseen

/-- **Ready for good.** Once a call of `wait_until_ready` has returned, the process stays ready for
what the call asked for, whatever arrives and whatever the application calls afterwards. -/
theorem ready_for_good (profile : EmbodimentConfig) (timeouts : Timeouts)
    (timeoutSec now clockS : ℚ) (ls ks : List (Event α ν)) :
    let s := run step (init profile timeouts timeoutSec now clockS) ls
    s.phase = .ended (.ok ()) → (run step s ks).Ready s.options := by
  intro s hphase
  have hinv : s.Inv := run_invariant' Inv inv_step
    (inv_init profile timeouts timeoutSec now clockS) ls
  have hkeeps := s.keeps_run ks
  have hseen := hinv.seenTo
  rw [hphase] at hseen
  obtain ⟨hready, hprepared, hsees⟩ := hseen
  have hlater := hkeeps.robot hready
  have hcameras : s.options.checkCameras = true →
      ∀ name ∈ (run step s ks).profile.cameras.keys, (run step s ks).Sees name := by
    intro hasked name hname
    rw [hkeeps.profile] at hname
    exact hkeeps.sees name (hsees hasked name hname)
  exact ⟨(RobotState.state_ok_iff _ _).mpr hlater, fun hasked => hkeeps.prepared (hprepared hasked),
    hcameras, (run_invariant' Inv inv_step hinv ks).isReady hlater hcameras⟩

/-- An arm that a policy commands, with a camera at its wrist. -/
def wristProfile : EmbodimentConfig :=
  { Startup.policyProfile with
    cameras := Dict.ofPairs [(.str "wrist",
      ⟨.str "wrist", "/wrist/image_raw", "rgb8", 30, (480, 640), "sensor_data"⟩)] }

/-- The joint state comes after the first look, the image after the wait for it has begun. -/
def wristReadied : List (Event ℚ ℚ) :=
  [.call ⟨10, false, true, true, true⟩, .turn, .turn, .jointState ⟨0, ["joint"], [0], [], []⟩,
    .elapse 1, .turn, .turn, .require true,
    .status ⟨[⟨"arm", .owned, "lease-1", 1, "teleop", "joint_reference", "", []⟩]⟩, .require true,
    .prepare .poll, .make (.ok ()), .turn, .turn, .turn, .turn, .image (.str "wrist") none (.ok 1),
    .turn, .turn]

/-- No status message arrives any more, an image cannot be converted, and a second call does not
find the Execution Manager. -/
def wristLater : List (Event ℚ ℚ) :=
  [.elapse 100, .image (.str "wrist") none (.error ⟨.valueError, "unsupported encoding"⟩),
    .call ⟨10, false, false, true, true⟩, .turn, .require false]

theorem ready_for_good_wrist :
    (run step (run step (init wristProfile Timeouts.default 5 0 0) wristReadied) wristLater).Ready
      ⟨10, false, true, true, true⟩ := by
  have hoptions : (run step (init wristProfile Timeouts.default 5 0 0) wristReadied).options =
      ⟨10, false, true, true, true⟩ := by
    decide +kernel
  rw [← hoptions]
  exact ready_for_good wristProfile Timeouts.default 5 0 0 wristReadied wristLater
    (by decide +kernel)

end Runtime
end PhysicalAiRuntime.Process
