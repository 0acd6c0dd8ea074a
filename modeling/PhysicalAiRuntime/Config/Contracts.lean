import PhysicalAiRuntime.Config.Accepted
import PhysicalAiRuntime.Control.Session
import PhysicalAiRuntime.Provider.JointCommands

/-! Which contracts an accepted profile lets its agents name. The validator takes them from the
endpoint keys of a part's controllers; the command client dispatches on three names of its own. -/
namespace PhysicalAiRuntime.Config
open Authority Provider Control
set_option autoImplicit false
set_option maxHeartbeats 250000

/-- The commands that `ActionProviderClient.send` dispatches. -/
def streamingCommands : List String := ["joint_reference", "pose_reference", "twist_reference"]

/-! ## What the raw profile says -/

/-- The endpoints of a controller are the keys of the raw entry, which may be missing. -/
theorem endpoints_field {values : Dict Key Value} {name path : String} {r : Dict String String}
    (h : endpoints (field values name (.dict [])) path = .ok r) (endpoint : String) :
    endpoint ∈ r.keys ↔ (field values name .none).HasKey endpoint := by
  obtain ⟨raw, hraw, hkeys⟩ := endpoints_ok h
  rw [hkeys endpoint]
  obtain ⟨items, hitems, rfl⟩ := mapping_ok hraw
  unfold field at hitems ⊢
  cases hget : values.get? (.str name) with
  | none =>
    rw [hget] at hitems
    cases hitems
    constructor
    · intro hmem
      cases hmem
    · intro hkey
      exact absurd rfl hkey.ne_none
  | some v =>
    rw [hget] at hitems
    change v = .dict items at hitems
    subst hitems
    constructor
    · intro hmem
      exact ⟨items, rfl, hmem⟩
    · intro ⟨items', heq, hmem⟩
      cases heq
      exact hmem

/-- `endpoint` is a key of `kind` in a controller of the raw group. -/
def Value.ListsEndpoint (group : Value) (kind endpoint : String) : Prop :=
  ∃ contract, (((group.lookup (.str "controllers")).lookup contract).lookup (.str kind)).HasKey
    endpoint

/-- An agent names a topic of its part that the command client does not dispatch, as which
`joint_trajectory` counts where no controller of the part offers the action. -/
def NamesStrayTopic (root : Dict Key Value) : Prop :=
  ∃ name resource command,
    (((field root "agents" (.dict [])).lookup name).lookup (.str "resources")).lookup resource =
      .str command ∧
    ((field root "groups" .none).lookup resource).ListsEndpoint "ros_topics" command ∧
    command ∉ streamingCommands ∧
    ¬ (command = "joint_trajectory" ∧ ((field root "groups" .none).lookup resource).ListsEndpoint
      "ros_actions" "follow_joint_trajectory")

/-! ## What an accepted profile keeps of it -/

theorem controllerConfig_lists {path : String} {value : Value} {c : ControllerConfig}
    (h : controllerConfig path value = .ok c) (endpoint : String) :
    (endpoint ∈ c.rosActions.keys ↔ (value.lookup (.str "ros_actions")).HasKey endpoint) ∧
      (endpoint ∈ c.rosTopics.keys ↔ (value.lookup (.str "ros_topics")).HasKey endpoint) := by
  obtain ⟨controller, hcontroller, hactions, htopics, -⟩ := controllerConfig_ok h
  rw [mapping_lookup hcontroller, mapping_lookup hcontroller]
  exact ⟨endpoints_field hactions endpoint, endpoints_field htopics endpoint⟩

/-- The controllers of a part list an endpoint exactly where the raw controllers do. -/
theorem controllers_list {value : Value} {path kind endpoint : String}
    {raw : Dict Key Value} {controllers : Dict Key ControllerConfig}
    {f : Key → Value → Except PyError ControllerConfig}
    {listed : ControllerConfig → Dict String String} (hraw : mapping value path = .ok raw)
    (hmap : raw.mapM f = .ok controllers)
    (hf : ∀ contract v c, f contract v = .ok c →
      (endpoint ∈ (listed c).keys ↔ (v.lookup (.str kind)).HasKey endpoint)) :
    (∃ e ∈ controllers.entries, endpoint ∈ (listed e.2).keys) ↔
      ∃ contract, ((value.lookup contract).lookup (.str kind)).HasKey endpoint := by
  constructor
  · intro ⟨e, he, hmem⟩
    obtain ⟨v, hv, hc⟩ := Dict.mapM_get? hmap ((Dict.get?_eq_some_iff _ e.1 e.2).mpr he)
    refine ⟨e.1, ?_⟩
    rw [mapping_lookup hraw, hv]
    exact (hf e.1 v e.2 hc).mp hmem
  · intro ⟨contract, hkey⟩
    have hne : value.lookup contract ≠ .none := by
      intro hnone
      rw [hnone, lookup_none] at hkey
      exact hkey.ne_none rfl
    obtain ⟨c, hc, hget⟩ := Dict.mapM_converts hmap (lookup_ne_none hraw hne)
    exact ⟨(contract, c), (Dict.get?_eq_some_iff _ _ _).mp hget, (hf _ _ c hc).mpr hkey⟩

theorem partConfig_lists {name : Key} {value : Value} {part : PartConfig}
    (h : partConfig name value = .ok part) (endpoint : String) :
    ((∃ e ∈ part.controllers.entries, endpoint ∈ e.2.rosActions.keys) ↔
        value.ListsEndpoint "ros_actions" endpoint) ∧
      ((∃ e ∈ part.controllers.entries, endpoint ∈ e.2.rosTopics.keys) ↔
        value.ListsEndpoint "ros_topics" endpoint) := by
  obtain ⟨path, raw, hraw, hmap, -⟩ := partConfig_ok h
  exact ⟨controllers_list hraw hmap fun _ _ _ hc => (controllerConfig_lists hc endpoint).1,
    controllers_list hraw hmap fun _ _ _ hc => (controllerConfig_lists hc endpoint).2⟩

theorem followJointTrajectory_iff (part : PartConfig) :
    followJointTrajectory part = true ↔
      ∃ e ∈ part.controllers.entries, "follow_joint_trajectory" ∈ e.2.rosActions.keys := by
  unfold followJointTrajectory
  rw [List.any_eq_true]
  simp only [decide_eq_true_eq]

theorem mem_available {part : PartConfig} {command : String} :
    command ∈ available part ↔
      (∃ e ∈ part.controllers.entries, command ∈ e.2.rosTopics.keys) ∨
        (command = "joint_trajectory" ∧ followJointTrajectory part = true) := by
  unfold available
  rw [List.mem_append, List.mem_flatMap]
  apply or_congr_right
  by_cases hfollow : followJointTrajectory part = true
  · simp [hfollow]
  · simp [hfollow]

theorem agentResource_ok {parts : Dict Key PartConfig} {path contract : String} {resource : Key}
    {command : Value} (h : agentResource parts path resource command = .ok contract) :
    command = .str contract ∧ ∃ part, parts.get? resource = some part ∧
      contract ∈ available part := by
  obtain ⟨s, hs, h⟩ := except_bind_ok h
  cases hpart : parts.get? resource with
  | none =>
    rw [hpart] at h
    cases h
  | some part =>
    rw [hpart] at h
    obtain ⟨u, hmem, h⟩ := except_bind_ok h
    cases h
    exact ⟨(string_ok.mp hs).1, part, rfl, require_ok hmem⟩

/-- The parts and the agents of an accepted profile, as they were read from its root. -/
structure Read (host : Host) (root : Dict Key Value) (config : EmbodimentConfig) : Prop where
  parts : ∃ raw, mapping (field root "groups" .none) "groups" = .ok raw ∧
    raw.mapM partConfig = .ok config.parts
  agents : ∃ raw, mapping (field root "agents" (.dict [])) "agents" = .ok raw ∧
    raw.mapM (agentConfig host config.parts) = .ok config.agents

theorem fromDict_read {host : Host} {data : Value} {sourcePath : Option String}
    {config : EmbodimentConfig} (h : fromDict host data sourcePath = .ok config) :
    ∃ root, bindRoot host data sourcePath = .ok root ∧ Read host root config := by
  obtain ⟨root, hroot, hsections⟩ := fromDict_sections h
  exact ⟨root, hroot, hsections.parts, hsections.agents⟩

theorem Read.part {host : Host} {root : Dict Key Value} {config : EmbodimentConfig}
    (h : Read host root config) {resource : Key} {part : PartConfig}
    (hpart : config.parts.get? resource = some part) :
    partConfig resource ((field root "groups" .none).lookup resource) = .ok part := by
  obtain ⟨raw, hraw, hmap⟩ := h.parts
  obtain ⟨v, hv, hconfig⟩ := Dict.mapM_get? hmap hpart
  rw [mapping_lookup hraw, hv]
  exact hconfig

/-- Each contract of an agent is one that the profile states for the resource, and that is
available there. -/
theorem Read.contract {host : Host} {root : Dict Key Value} {config : EmbodimentConfig}
    (h : Read host root config) {name : Key} {agent : AgentConfig}
    (hagent : config.agents.get? name = some agent) {resource : Key} {contract : String}
    (hcontract : agent.resources.get? resource = some contract) :
    (((field root "agents" (.dict [])).lookup name).lookup (.str "resources")).lookup resource =
      .str contract ∧
    ∃ part, config.parts.get? resource = some part ∧ contract ∈ available part := by
  obtain ⟨raw, hraw, hmap⟩ := h.agents
  obtain ⟨v, hv, hconfig⟩ := Dict.mapM_get? hmap hagent
  obtain ⟨path, -, resources, -, -, hresources, -, hvalidated, -⟩ := agentConfig_ok hconfig
  obtain ⟨command, hcommand, hok⟩ := Dict.mapM_get? hvalidated hcontract
  obtain ⟨hstr, hpart⟩ := agentResource_ok hok
  rw [mapping_lookup hraw, hv]
  refine ⟨?_, hpart⟩
  change (v.lookup (.str "resources")).lookup resource = .str contract
  rw [mapping_lookup hresources, hcommand]
  exact hstr

/-- A contract that the profile states for a resource of an agent is kept. -/
theorem Read.stated {host : Host} {root : Dict Key Value} {config : EmbodimentConfig}
    (h : Read host root config) {name resource : Key} {command : String}
    (hstated : (((field root "agents" (.dict [])).lookup name).lookup
      (.str "resources")).lookup resource = .str command) :
    ∃ agent, config.agents.get? name = some agent ∧
      agent.resources.get? resource = some command := by
  obtain ⟨raw, hraw, hmap⟩ := h.agents
  have hname : (field root "agents" (.dict [])).lookup name ≠ .none := by
    intro hnone
    rw [hnone, lookup_none, lookup_none] at hstated
    cases hstated
  obtain ⟨agent, hconfig, hagent⟩ := Dict.mapM_converts hmap (lookup_ne_none hraw hname)
  obtain ⟨path, -, resources, -, -, hresources, -, hvalidated, -⟩ := agentConfig_ok hconfig
  have hresource : (((field root "agents" (.dict [])).lookup name).lookup
      (.str "resources")).lookup resource ≠ .none := by
    rw [hstated]
    intro hnone
    cases hnone
  obtain ⟨contract, hok, hget⟩ :=
    Dict.mapM_converts hvalidated (lookup_ne_none hresources hresource)
  have hsame := (agentResource_ok hok).1
  rw [hstated] at hsame
  cases hsame
  exact ⟨agent, hagent, hget⟩

/-! ## What can be commanded -/

/-- A client that is bound to the contract has a payload for which the call that the contract
stands for succeeds. -/
def Commandable (c : ActionProviderClient) (part contract : String) : Prop :=
  (∃ value, ∀ now, ∃ c' p, Agent.send ⟨part, contract, value⟩ c now = .ok (c', p)) ∨
    (contract = "joint_trajectory" ∧ ∃ trajectory, ∀ jointNames now handle,
      handle.accepted = true →
      (c.startJointTrajectory part trajectory jointNames now (.answered handle)).2.2 = .ok handle)

structure EmbodimentConfig.Commands (config : EmbodimentConfig) (resource : Key)
    (contract : String) : Prop where
  supported : (contract = "joint_trajectory" ∧ ∃ part, config.parts.get? resource = some part ∧
    followJointTrajectory part = true) ∨ contract ∈ streamingCommands
  payload : ∀ part, resource = .str part → ∀ (c : ActionProviderClient) (b : EndpointBinding),
    c.requireBinding part contract = .ok b → Commandable c part contract

def nativeMessage : String → ActionValue
  | "joint_reference" => .jointTrajectory ⟨Header.default, [], []⟩
  | "pose_reference" => .cartesianTrajectory ⟨Header.default, "", []⟩
  | _ => .twistStamped ⟨Header.default, ⟨0, 0, 0⟩, ⟨0, 0, 0⟩⟩

theorem nativeMessage_payload (c : ActionProviderClient) (part : String) {contract : String}
    (hcontract : contract ∈ streamingCommands) :
    contract ≠ "joint_trajectory" ∧ rejectInvalidResult (nativeMessage contract) = .ok () ∧
      ActionProviderClient.requireCommandForKind (nativeMessage contract) contract = .ok () ∧
      ∃ payload, c.streamPayload part contract (nativeMessage contract) = .ok payload := by
  simp only [streamingCommands, List.mem_cons, List.not_mem_nil, or_false] at hcontract
  rcases hcontract with rfl | rfl | rfl
  · exact ⟨by decide, rfl, rfl, _, rfl⟩
  · exact ⟨by decide, rfl, rfl, _, rfl⟩
  · exact ⟨by decide, rfl, rfl, _, rfl⟩

/-- A native message of the right type goes out on a bound streaming command. -/
theorem commandable_streaming {c : ActionProviderClient} {part contract : String}
    {b : EndpointBinding} (hb : c.requireBinding part contract = .ok b)
    (hcontract : contract ∈ streamingCommands) : Commandable c part contract := by
  apply Or.inl
  refine ⟨nativeMessage contract, fun now => ?_⟩
  obtain ⟨hne, hvalid, hkind, payload, hpayload⟩ := nativeMessage_payload c part hcontract
  obtain ⟨c', p, hsend, -⟩ :=
    ActionProviderClient.send_of_payload now hb hvalid hkind hpayload
  refine ⟨c', p, ?_⟩
  unfold Agent.send Agent.requireValidResult
  rw [if_neg hne, hvalid]
  change (ActionProviderClient.requireCommandForKind (nativeMessage contract) contract >>= _) = _
  rw [hkind]
  exact hsend

/-- One joint, one point, a second after the start. -/
def oneSecond : JointTrajectory := ⟨Header.default, ["joint_1"], [⟨[0], [], [], ⟨1, 0⟩⟩]⟩

theorem commandable_trajectory {c : ActionProviderClient} {part : String} {b : EndpointBinding}
    (hb : c.requireBinding part "joint_trajectory" = .ok b) :
    Commandable c part "joint_trajectory" := by
  apply Or.inr
  refine ⟨rfl, .jointTrajectory oneSecond, fun jointNames now handle haccepted => ?_⟩
  have hspec : jointTrajectoryFromSpec (.jointTrajectory oneSecond) jointNames true =
      .ok oneSecond := by
    show jointTrajectoryFromSpec (.jointTrajectory oneSecond) [] true = .ok oneSecond
    decide +kernel
  obtain ⟨c', hcheck⟩ :=
    ActionProviderClient.startCheck_ok_iff.mpr ⟨⟨b, hb⟩, hspec⟩
  unfold ActionProviderClient.startJointTrajectory
  rw [hcheck]
  simp [ActionProviderClient.startAccept, haccepted]

theorem EmbodimentConfig.commands_of_supported {config : EmbodimentConfig} {resource : Key}
    {contract : String}
    (h : (contract = "joint_trajectory" ∧ ∃ part, config.parts.get? resource = some part ∧
      followJointTrajectory part = true) ∨ contract ∈ streamingCommands) :
    config.Commands resource contract := by
  refine ⟨h, fun part _ c b hb => ?_⟩
  cases h with
  | inl htrajectory =>
    obtain ⟨rfl, -⟩ := htrajectory
    exact commandable_trajectory hb
  | inr hstreaming => exact commandable_streaming hb hstreaming

/-- Whatever the payload, a contract that is neither is never sent. -/
theorem send_unsupported {c : ActionProviderClient} {part contract : String}
    (hcontract : contract ∉ streamingCommands) (value : ActionValue) (now : Stamp) :
    ∃ e, Agent.send ⟨part, contract, value⟩ c now = .error e := by
  cases hsend : Agent.send ⟨part, contract, value⟩ c now with
  | error e => exact ⟨e, rfl⟩
  | ok r =>
    obtain ⟨c', p⟩ := r
    unfold Agent.send at hsend
    by_cases htrajectory : contract = "joint_trajectory"
    · rw [if_pos htrajectory] at hsend
      cases hsend
    · rw [if_neg htrajectory] at hsend
      obtain ⟨u, -, hsend⟩ := except_bind_ok hsend
      obtain ⟨u, -, hsend⟩ := except_bind_ok hsend
      obtain ⟨payload, hpayload, -⟩ := ActionProviderClient.send_payload hsend
      simp only [streamingCommands, List.mem_cons, List.not_mem_nil, or_false, not_or] at hcontract
      unfold ActionProviderClient.streamPayload at hpayload
      rw [if_neg hcontract.1, if_neg hcontract.2.1, if_neg hcontract.2.2] at hpayload
      cases hpayload

/-- **Agent contracts.** Every contract of an accepted profile can be commanded unless an agent
names a topic of its part that the command client does not dispatch. -/
theorem agent_contracts_commandable_iff {host : Host} {data : Value} {sourcePath : Option String}
    {config : EmbodimentConfig} (h : fromDict host data sourcePath = .ok config) :
    (∀ name agent, config.agents.get? name = some agent → ∀ resource contract,
      agent.resources.get? resource = some contract → config.Commands resource contract) ↔
    ¬ ∃ root, bindRoot host data sourcePath = .ok root ∧ NamesStrayTopic root := by
  obtain ⟨root, hroot, hread⟩ := fromDict_read h
  constructor
  · intro hcommands ⟨root', hroot', name, resource, command, hstated, htopic, hstreaming, hfollow⟩
    rw [hroot] at hroot'
    cases hroot'
    obtain ⟨agent, hagent, hcontract⟩ := hread.stated hstated
    cases (hcommands name agent hagent resource command hcontract).supported with
    | inl htrajectory =>
      obtain ⟨htrajectory, part, hpart, hpartFollow⟩ := htrajectory
      have hlists := (partConfig_lists (hread.part hpart) "follow_joint_trajectory").1
      exact hfollow ⟨htrajectory, hlists.mp ((followJointTrajectory_iff part).mp hpartFollow)⟩
    | inr hmem => exact hstreaming hmem
  · intro hstray name agent hagent resource contract hcontract
    apply EmbodimentConfig.commands_of_supported
    obtain ⟨hstated, part, hpart, havailable⟩ := hread.contract hagent hcontract
    have hlists := partConfig_lists (hread.part hpart)
    by_contra hunsupported
    obtain ⟨hfollow, hstreaming⟩ := not_or.mp hunsupported
    have htopic : ∃ e ∈ part.controllers.entries, contract ∈ e.2.rosTopics.keys := by
      cases mem_available.mp havailable with
      | inl htopic => exact htopic
      | inr htrajectory => exact absurd ⟨htrajectory.1, part, hpart, htrajectory.2⟩ hfollow
    refine hstray ⟨root, hroot, name, resource, contract, hstated, (hlists contract).2.mp htopic,
      hstreaming, fun ⟨htrajectory, hlisted⟩ => hfollow ⟨htrajectory, part, hpart, ?_⟩⟩
    exact (followJointTrajectory_iff part).mpr ((hlists "follow_joint_trajectory").1.mpr hlisted)

/-- A host without files. -/
def bareHost : Host where
  str value := match value with
    | .str s => s
    | _ => ""
  repr _ := "[]"
  upper := String.toUpper
  int text := .error ⟨.valueError, "invalid literal for int() with base 10: " ++ pyRepr text⟩
  path text := text
  join directory name := directory ++ "/" ++ name
  isFile _ := false
  isDir _ := false
  beside _ reference := reference
  ancestors _ := []
  shareDirectory _ := none
  packageXml _ := []
  readYaml path := .error ⟨.fileNotFoundError, path⟩

/-- One arm with a guarded trajectory controller, and a policy that names `command` for it. -/
def guardedArm (command : String) : Value :=
  .dict [
    (.str "metadata", .dict [(.str "name", .str "test")]),
    (.str "groups", .dict [(.str "arm", .dict [
      (.str "type", .str "arm"),
      (.str "joint_names", .list [.str "j1"]),
      (.str "controller_manager", .str "/controller_manager"),
      (.str "default_controller", .str "joint_trajectory"),
      (.str "controllers", .dict [(.str "joint_trajectory", .dict [
        (.str "name", .str "arm_jtc"),
        (.str "implementation", .str "joint_trajectory_controller/JointTrajectoryController"),
        (.str "command_interface", .str "position"),
        (.str "ros_actions", .dict [(.str "follow_joint_trajectory",
          .str "/execution/arm/follow_joint_trajectory")]),
        (.str "ros_topics", .dict [(.str "trajectory_guard_heartbeat",
          .str "/execution/arm/trajectory_guard_heartbeat")])])])])]),
    (.str "agents", .dict [(.str "Policy", .dict [
      (.str "source_role", .str "POLICY"),
      (.str "resources", .dict [(.str "arm", .str command)])])])]

theorem accepted_of_isSome {α : Type} {x : Except PyError α} (h : x.toOption.isSome = true) :
    ∃ a, x = .ok a := by
  cases x with
  | error e => cases h
  | ok a => exact ⟨a, rfl⟩

theorem agent_contracts_commandable_arm :
    ∃ config, fromDict bareHost (guardedArm "joint_trajectory") none = .ok config ∧
      ((∀ name agent, config.agents.get? name = some agent → ∀ resource contract,
        agent.resources.get? resource = some contract → config.Commands resource contract) ↔
      ¬ ∃ root, bindRoot bareHost (guardedArm "joint_trajectory") none = .ok root ∧
        NamesStrayTopic root) := by
  have hsome : (fromDict bareHost (guardedArm "joint_trajectory") none).toOption.isSome = true := by
    decide +kernel
  obtain ⟨config, hconfig⟩ := accepted_of_isSome hsome
  exact ⟨config, hconfig, agent_contracts_commandable_iff hconfig⟩

/-- The heartbeat topic of the guard passes for a contract of the arm. -/
theorem heartbeat_contract_accepted :
    ∃ config, fromDict bareHost (guardedArm "trajectory_guard_heartbeat") none = .ok config ∧
      ¬ ∀ name agent, config.agents.get? name = some agent → ∀ resource contract,
        agent.resources.get? resource = some contract → config.Commands resource contract := by
  have hsome : (fromDict bareHost (guardedArm "trajectory_guard_heartbeat")
      none).toOption.isSome = true := by
    decide +kernel
  obtain ⟨config, hconfig⟩ := accepted_of_isSome hsome
  refine ⟨config, hconfig, fun hcommands => ?_⟩
  obtain ⟨root, hroot, hread⟩ := fromDict_read hconfig
  have hstated : (((field root "agents" (.dict [])).lookup (.str "Policy")).lookup
      (.str "resources")).lookup (.str "arm") = .str "trajectory_guard_heartbeat" := by
    cases hroot
    rfl
  obtain ⟨agent, hagent, hcontract⟩ := hread.stated hstated
  cases (hcommands _ agent hagent _ _ hcontract).supported with
  | inl htrajectory => exact absurd htrajectory.1 (by decide)
  | inr hstreaming => exact absurd hstreaming (by decide)

end PhysicalAiRuntime.Config
