import PhysicalAiRuntime.Apps.Teleop

/-! `set_teleop_preempt` of the recorder and of the teleoperation application, with the calls they
make on the node. The two files differ in how they test the context; from the list of failures on
they are the same text. -/
namespace PhysicalAiRuntime.Apps
set_option autoImplicit false
set_option maxHeartbeats 250000

/-! ## The answers of a leader -/

/-- `node.context`, and `context.ok()` where there is one. -/
inductive NodeContext where
  | missing
  | answered (ok : Bool)
  | raised
  deriving DecidableEq

/-- What comes of the conversation with a client. -/
inductive Reply where
  | waitRaised (className : String)
  | unavailable
  | callRaised (className : String)
  | timedOut
  | resultRaised (className : String)
  | noResponse
  | refused (message : String)
  | succeeded (message : String)
  deriving DecidableEq

/-- What happens with one leader. The node and the clients may answer differently on every call; a
leader is asked once, so its name stands for its call. -/
structure LeaderOutcome where
  /-- The exception of `create_client`. -/
  creation : Option String
  reply : Reply
  destruction : Except String Unit

/-- A call on the node or on a client, which is named by its leader. -/
inductive NodeCall where
  | createClient (name service : String) (created : Bool)
  | waitForService (name : String)
  | callAsync (name : String) (data : Bool)
  | destroyClient (name : String)
  deriving DecidableEq

/-- The configuration of a teleoperator, of which only the service is read. -/
structure TeleoperatorConfig where
  preemptService : Option String
  deriving DecidableEq

/-- `cfg.get("preempt_service")` where it is true. -/
def TeleoperatorConfig.service? (cfg : TeleoperatorConfig) : Option String :=
  match cfg.preemptService with
  | none => none
  | some srvName => if srvName = "" then none else some srvName

abbrev Teleoperators : Type := Dict String TeleoperatorConfig

/-! ## The loop over the leaders -/

structure Switch where
  calls : List NodeCall
  failures : List String
  printed : List String

namespace Switch

def new : Switch := ⟨[], [], []⟩

def call (s : Switch) (c : NodeCall) : Switch := { s with calls := s.calls ++ [c] }

def fail (s : Switch) (text : String) : Switch := { s with failures := s.failures ++ [text] }

def print (s : Switch) (text : String) : Switch := { s with printed := s.printed ++ [text] }

def modeLabel (preemptActive : Bool) : String :=
  if preemptActive then "ACTIVE (0-G Float)" else "RELEASED (Shadow/Passive)"

/-- The `try` block after `create_client`, and its `except` clause. -/
def converse (s : Switch) (name srvName : String) (preemptActive : Bool) (reply : Reply) :
    Switch :=
  let waited := s.call (.waitForService name)
  let called := waited.call (.callAsync name preemptActive)
  match reply with
  | .waitRaised className => waited.fail (name ++ ": " ++ className)
  | .unavailable => waited.fail (name ++ ": " ++ srvName ++ " unavailable")
  | .callRaised className => called.fail (name ++ ": " ++ className)
  | .timedOut => called.fail (name ++ ": " ++ srvName ++ " timed out")
  | .resultRaised className => called.fail (name ++ ": " ++ className)
  | .noResponse => called.fail (name ++ ": no response")
  | .refused message => called.fail (name ++ ": " ++ message)
  | .succeeded message =>
    called.print ("  [✓] " ++ name ++ " Preempt " ++ modeLabel preemptActive ++ ": " ++ message)

/-- The `finally` block; an exception of `destroy_client` is dropped. -/
def destroy (s : Switch) (name : String) (destruction : Except String Unit) : Switch :=
  let s := s.call (.destroyClient name)
  match destruction with
  | .ok () => s
  | .error _ => s

/-- One turn of the loop. Where `create_client` raised there is no client to destroy. -/
def leader (preemptActive : Bool) (outcome : String → LeaderOutcome) (s : Switch)
    (e : String × TeleoperatorConfig) : Switch :=
  let (name, cfg) := e
  match cfg.service? with
  | none => s.fail (name ++ ": missing preempt_service")
  | some srvName => match (outcome name).creation with
    | some className =>
      (s.call (.createClient name srvName false)).fail (name ++ ": " ++ className)
    | none =>
      ((s.call (.createClient name srvName true)).converse name srvName preemptActive
        (outcome name).reply).destroy name (outcome name).destruction

/-- The text that both applications share, from the empty list of failures on. -/
def leaders (teleoperators : Teleoperators) (preemptActive : Bool)
    (outcome : String → LeaderOutcome) : Switch × Bool :=
  let s := teleoperators.entries.foldl (leader preemptActive outcome) new
  if s.failures ≠ [] then
    (s.print ("  [!] Leader mode transition failed: " ++ "; ".intercalate s.failures), false)
  else (s, true)

end Switch

namespace RecordApp

def setTeleopPreempt (context : NodeContext) (teleoperators : Teleoperators)
    (preemptActive : Bool) (outcome : String → LeaderOutcome) : Switch × Bool :=
  if teleoperators.isEmpty then (Switch.new, true)
  else match context with
    | .missing => (Switch.new, false)
    | .answered ok =>
      if ¬ ok then (Switch.new, false)
      else Switch.leaders teleoperators preemptActive outcome
    | .raised => (Switch.new, false)

end RecordApp

namespace TeleopApp

def nodeContextOk : NodeContext → Bool
  | .missing => false
  | .answered ok => ok
  | .raised => false

def setTeleopPreempt (context : NodeContext) (teleoperators : Teleoperators)
    (preemptActive : Bool) (outcome : String → LeaderOutcome) : Switch × Bool :=
  if teleoperators.isEmpty ∨ ¬ nodeContextOk context then (Switch.new, teleoperators.isEmpty)
  else Switch.leaders teleoperators preemptActive outcome

end TeleopApp

/-! ## What a leader contributes -/

namespace LeaderOutcome

/-- The client was created and its service answered success. -/
def Succeeds (o : LeaderOutcome) : Prop :=
  o.creation = none ∧ ∃ message, o.reply = .succeeded message

/-- How the outcome counts for the main loop of the teleoperation application. -/
def answer (o : LeaderOutcome) : PreemptAnswer :=
  match o.creation with
  | some className => .raised className
  | none => match o.reply with
    | .waitRaised className => .raised className
    | .unavailable => .unavailable
    | .callRaised className => .raised className
    | .timedOut => .timedOut
    | .resultRaised className => .raised className
    | .noResponse => .noResponse
    | .refused message => .refused message
    | .succeeded _ => .confirmed

theorem answer_confirmed (o : LeaderOutcome) : o.answer = .confirmed ↔ o.Succeeds := by
  unfold answer Succeeds
  cases o.creation with
  | some className => simp
  | none => cases o.reply <;> simp

/-- The calls of the conversation. -/
def conversation (name : String) (preemptActive : Bool) : Reply → List NodeCall
  | .waitRaised _ | .unavailable => [.waitForService name]
  | .callRaised _ | .timedOut | .resultRaised _ | .noResponse | .refused _ | .succeeded _ =>
    [.waitForService name, .callAsync name preemptActive]

/-- The calls for one leader, in order. -/
def calls (o : LeaderOutcome) (name : String) (cfg : TeleoperatorConfig) (preemptActive : Bool) :
    List NodeCall :=
  match cfg.service? with
  | none => []
  | some srvName => match o.creation with
    | some _ => [.createClient name srvName false]
    | none => .createClient name srvName true ::
        (conversation name preemptActive o.reply ++ [.destroyClient name])

/-- The client is created where there is a service and `create_client` returns. -/
def Creates (o : LeaderOutcome) (cfg : TeleoperatorConfig) : Prop :=
  cfg.service? ≠ none ∧ o.creation = none

instance (o : LeaderOutcome) (cfg : TeleoperatorConfig) : Decidable (o.Creates cfg) :=
  inferInstanceAs (Decidable (_ ∧ _))

end LeaderOutcome

def TeleoperatorConfig.leader (cfg : TeleoperatorConfig) (name : String) : Leader :=
  ⟨name, cfg.preemptService.getD ""⟩

namespace Switch
variable (preemptActive : Bool) (outcome : String → LeaderOutcome)

theorem converse_calls (s : Switch) (name srvName : String) (reply : Reply) :
    (s.converse name srvName preemptActive reply).calls =
      s.calls ++ LeaderOutcome.conversation name preemptActive reply := by
  cases reply <;> simp [converse, LeaderOutcome.conversation, call, fail, print]

theorem destroy_calls (s : Switch) (name : String) (destruction : Except String Unit) :
    (s.destroy name destruction).calls = s.calls ++ [.destroyClient name] := by
  cases destruction <;> rfl

theorem destroy_failures (s : Switch) (name : String) (destruction : Except String Unit) :
    (s.destroy name destruction).failures = s.failures := by
  cases destruction <;> rfl

theorem leader_calls (s : Switch) (e : String × TeleoperatorConfig) :
    (s.leader preemptActive outcome e).calls =
      s.calls ++ (outcome e.1).calls e.1 e.2 preemptActive := by
  obtain ⟨name, cfg⟩ := e
  cases hs : cfg.service? with
  | none => simp [leader, LeaderOutcome.calls, hs, fail]
  | some srvName =>
    cases hc : (outcome name).creation with
    | some className => simp [leader, LeaderOutcome.calls, hs, hc, call, fail]
    | none =>
      simp only [leader, LeaderOutcome.calls, hs, hc]
      rw [destroy_calls, converse_calls]
      simp [call]

theorem leader_failures (s : Switch) (e : String × TeleoperatorConfig) :
    (s.leader preemptActive outcome e).failures =
      s.failures ++ (preemptFailure (e.2.leader e.1) (outcome e.1).answer).toList := by
  obtain ⟨name, cfg⟩ := e
  obtain ⟨service⟩ := cfg
  cases service with
  | none => rfl
  | some srvName =>
    by_cases hs : srvName = ""
    · simp [leader, TeleoperatorConfig.service?, hs, fail, preemptFailure,
        TeleoperatorConfig.leader]
    · have hl : (⟨some srvName⟩ : TeleoperatorConfig).service? = some srvName := if_neg hs
      have hf : (⟨some srvName⟩ : TeleoperatorConfig).leader name = ⟨name, srvName⟩ := rfl
      simp only [leader, hl, hf, preemptFailure, if_neg hs, LeaderOutcome.answer]
      cases (outcome name).creation with
      | some className => rfl
      | none =>
        rw [destroy_failures]
        cases (outcome name).reply <;> simp [converse, call, fail, print]

/-! ## The whole loop -/

theorem foldl_calls (es : List (String × TeleoperatorConfig)) (s : Switch) :
    (es.foldl (leader preemptActive outcome) s).calls =
      s.calls ++ es.flatMap fun e => (outcome e.1).calls e.1 e.2 preemptActive :=
  Trace.run_collect (leader_calls preemptActive outcome) s es

theorem foldl_failures (es : List (String × TeleoperatorConfig)) (s : Switch) :
    (es.foldl (leader preemptActive outcome) s).failures =
      s.failures ++ es.filterMap fun e => preemptFailure (e.2.leader e.1) (outcome e.1).answer :=
  Trace.run_collect_filterMap (leader_failures preemptActive outcome) s es

/-- The calls do not depend on how earlier leaders answered. -/
theorem leaders_calls (teleoperators : Teleoperators) :
    (leaders teleoperators preemptActive outcome).1.calls =
      teleoperators.entries.flatMap fun e => (outcome e.1).calls e.1 e.2 preemptActive := by
  have h := foldl_calls preemptActive outcome teleoperators.entries new
  simp only [leaders]
  split
  · exact h
  · exact h

theorem leaders_value (teleoperators : Teleoperators) :
    (leaders teleoperators preemptActive outcome).2 = true ↔
      ∀ e ∈ teleoperators.entries,
        preemptFailure (e.2.leader e.1) (outcome e.1).answer = none := by
  have h := foldl_failures preemptActive outcome teleoperators.entries new
  rw [← List.filterMap_eq_nil_iff]
  simp only [leaders, h]
  split
  · simp_all [new]
  · simp_all [new]

end Switch

theorem TeleoperatorConfig.service?_eq_none (cfg : TeleoperatorConfig) (name : String) :
    cfg.service? = none ↔ (cfg.leader name).preemptService = "" := by
  obtain ⟨service⟩ := cfg
  cases service with
  | none => simp [service?, leader]
  | some srvName => simp [service?, leader]

theorem preemptFailure_eq_none (leader : Leader) (answer : PreemptAnswer) :
    preemptFailure leader answer = none ↔ leader.preemptService ≠ "" ∧ answer = .confirmed := by
  unfold preemptFailure
  by_cases h : leader.preemptService = ""
  · simp [h]
  · cases answer <;> simp [h]

/-- The service request of one leader goes out whatever comes of it. -/
theorem LeaderOutcome.attempted {o : LeaderOutcome} {cfg : TeleoperatorConfig} {srvName : String}
    (name : String) (preemptActive : Bool) (h : cfg.service? = some srvName) :
    ∃ created, NodeCall.createClient name srvName created ∈ o.calls name cfg preemptActive := by
  unfold LeaderOutcome.calls
  rw [h]
  cases hc : o.creation with
  | some className => exact ⟨false, by simp⟩
  | none => exact ⟨true, by simp⟩

namespace Switch
variable (preemptActive : Bool) (outcome : String → LeaderOutcome)

/-- The loop confirms the mode where every leader did. -/
theorem leaders_confirmed (teleoperators : Teleoperators) :
    (leaders teleoperators preemptActive outcome).2 = true ↔
      ∀ e ∈ teleoperators.entries, e.2.service? ≠ none ∧ (outcome e.1).Succeeds := by
  have hleader : ∀ e : String × TeleoperatorConfig,
      preemptFailure (e.2.leader e.1) (outcome e.1).answer = none ↔
        e.2.service? ≠ none ∧ (outcome e.1).Succeeds := by
    intro e
    rw [preemptFailure_eq_none, LeaderOutcome.answer_confirmed, Ne, Ne,
      TeleoperatorConfig.service?_eq_none e.2 e.1]
  rw [leaders_value]
  simp only [hleader]

theorem leaders_attempted {teleoperators : Teleoperators} {e : String × TeleoperatorConfig}
    (he : e ∈ teleoperators.entries) {srvName : String} (hs : e.2.service? = some srvName) :
    ∃ created, NodeCall.createClient e.1 srvName created ∈
      (leaders teleoperators preemptActive outcome).1.calls := by
  obtain ⟨created, hcall⟩ := LeaderOutcome.attempted (o := outcome e.1) e.1 preemptActive hs
  rw [leaders_calls]
  exact ⟨created, List.mem_flatMap.mpr ⟨e, he, hcall⟩⟩

end Switch

/-! ## The life of a client -/

/-- The calls that made the client of a leader or destroyed it. -/
def NodeCall.handles (leader : String) : NodeCall → Bool
  | .createClient name _ created => created && name == leader
  | .destroyClient name => name == leader
  | .waitForService _ | .callAsync _ _ => false

namespace LeaderOutcome
variable (o : LeaderOutcome) (name : String) (cfg : TeleoperatorConfig) (preemptActive : Bool)

theorem conversation_handles (leader : String) (reply : Reply) :
    (conversation name preemptActive reply).filter (NodeCall.handles leader) = [] := by
  cases reply <;> rfl

theorem calls_handles_other {leader : String} (h : name ≠ leader) :
    (o.calls name cfg preemptActive).filter (NodeCall.handles leader) = [] := by
  unfold calls
  cases cfg.service? with
  | none => rfl
  | some srvName => cases o.creation <;> simp [NodeCall.handles, conversation_handles, h]

theorem calls_handles :
    (o.calls name cfg preemptActive).filter (NodeCall.handles name) = [] ∨
      ∃ srvName, (o.calls name cfg preemptActive).filter (NodeCall.handles name) =
        [.createClient name srvName true, .destroyClient name] := by
  unfold calls
  cases cfg.service? with
  | none => exact Or.inl rfl
  | some srvName =>
    cases o.creation with
    | some className => exact Or.inl rfl
    | none =>
      refine Or.inr ⟨srvName, ?_⟩
      simp [NodeCall.handles, conversation_handles]

end LeaderOutcome

namespace Switch
variable (preemptActive : Bool) (outcome : String → LeaderOutcome)

theorem leaders_handles (teleoperators : Teleoperators) (name : String) :
    (leaders teleoperators preemptActive outcome).1.calls.filter (NodeCall.handles name) = [] ∨
      ∃ srvName, (leaders teleoperators preemptActive outcome).1.calls.filter
        (NodeCall.handles name) = [.createClient name srvName true, .destroyClient name] := by
  rw [leaders_calls, List.filter_flatMap, teleoperators.flatMap_eq_get? name _ fun e _ h =>
    LeaderOutcome.calls_handles_other _ _ _ _ h]
  cases teleoperators.get? name with
  | none => exact Or.inl rfl
  | some cfg => exact LeaderOutcome.calls_handles _ _ _ _

end Switch

/-! ## The two switches -/

/-- `node.context` is there and `ok()`. -/
def NodeContext.Usable (context : NodeContext) : Prop := context = .answered true

theorem nodeContextOk_iff (context : NodeContext) :
    TeleopApp.nodeContextOk context = true ↔ context.Usable := by
  unfold NodeContext.Usable
  cases context with
  | missing => simp [TeleopApp.nodeContextOk]
  | answered ok => simp [TeleopApp.nodeContextOk]
  | raised => simp [TeleopApp.nodeContextOk]

section switches
variable (context : NodeContext) (teleoperators : Teleoperators) (preemptActive : Bool)
  (outcome : String → LeaderOutcome)

theorem setTeleopPreempt_agree :
    TeleopApp.setTeleopPreempt context teleoperators preemptActive outcome =
      RecordApp.setTeleopPreempt context teleoperators preemptActive outcome := by
  unfold TeleopApp.setTeleopPreempt RecordApp.setTeleopPreempt
  cases ht : teleoperators.isEmpty with
  | true => simp
  | false =>
    cases context with
    | missing => simp [TeleopApp.nodeContextOk]
    | answered ok => cases ok <;> simp [TeleopApp.nodeContextOk]
    | raised => simp [TeleopApp.nodeContextOk]

/-- Either the loop ran, or nothing was asked of any leader. -/
theorem RecordApp.setTeleopPreempt_cases :
    teleoperators.entries ≠ [] ∧ context.Usable ∧
        RecordApp.setTeleopPreempt context teleoperators preemptActive outcome =
          Switch.leaders teleoperators preemptActive outcome ∨
      (teleoperators.entries = [] ∨ ¬ context.Usable) ∧
        RecordApp.setTeleopPreempt context teleoperators preemptActive outcome =
          (Switch.new, teleoperators.isEmpty) := by
  rw [← setTeleopPreempt_agree, ← nodeContextOk_iff]
  unfold TeleopApp.setTeleopPreempt Dict.isEmpty
  by_cases ht : teleoperators.entries = []
  · exact Or.inr ⟨Or.inl ht, by simp [ht]⟩
  · by_cases hc : TeleopApp.nodeContextOk context = true
    · exact Or.inl ⟨ht, hc, by simp [ht, hc]⟩
    · exact Or.inr ⟨Or.inr hc, by simp [hc]⟩

/-- The switch the main loop of the teleoperation application is modelled with. -/
theorem setTeleopPreempt_mainLoop (answer : String → PreemptAnswer)
    (ha : ∀ name ∈ teleoperators.keys, answer name = (outcome name).answer) :
    (TeleopApp.setTeleopPreempt context teleoperators preemptActive outcome).2 =
      setTeleopPreempt (teleoperators.entries.map fun e => e.2.leader e.1)
        (TeleopApp.nodeContextOk context) answer := by
  unfold TeleopApp.setTeleopPreempt setTeleopPreempt Dict.isEmpty
  rw [List.isEmpty_map]
  split
  · rfl
  · have hfail : (teleoperators.entries.map fun e => e.2.leader e.1).filterMap
          (fun leader => preemptFailure leader (answer leader.name)) =
        teleoperators.entries.filterMap fun e =>
          preemptFailure (e.2.leader e.1) (outcome e.1).answer := by
      rw [List.filterMap_map]
      refine List.filterMap_congr fun e he => ?_
      have hname : answer (e.2.leader e.1).name = (outcome e.1).answer :=
        ha e.1 (List.mem_map.mpr ⟨e, he, rfl⟩)
      rw [Function.comp_apply, hname]
    rw [hfail, Bool.eq_iff_iff, Switch.leaders_value, List.isEmpty_iff,
      List.filterMap_eq_nil_iff]

end switches

end PhysicalAiRuntime.Apps
