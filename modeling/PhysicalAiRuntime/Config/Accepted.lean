import PhysicalAiRuntime.Config.Profile

/-! What a profile must have said where `from_dict` returns: each reader is inverted once, in terms
of the raw value that it was given. -/
namespace PhysicalAiRuntime.Config
open Authority
set_option autoImplicit false
set_option maxHeartbeats 250000

/-! ## Looking up the raw profile -/

namespace Value

/-- `value[k]`, or `None` where there is no such entry. -/
def lookup (value : Value) (k : Key) : Value :=
  match value with
  | .dict items => ((Dict.ofPairs items).get? k).getD .none
  | _ => .none

def HasKey (value : Value) (name : String) : Prop :=
  ∃ items, value = .dict items ∧ .str name ∈ (Dict.ofPairs items).keys

/-- A missing section has no entries. -/
def entries : Value → List (Key × Value)
  | .dict items => (Dict.ofPairs items).entries
  | _ => []

def keys (value : Value) : List Key := value.entries.map Prod.fst

theorem HasKey.ne_none {value : Value} {name : String} (h : value.HasKey name) :
    value ≠ .none := by
  obtain ⟨items, rfl, -⟩ := h
  intro heq
  cases heq

theorem lookup_of_mem {value : Value} {e : Key × Value} (h : e ∈ value.entries) :
    value.lookup e.1 = e.2 := by
  cases value with
  | dict items =>
    show ((Dict.ofPairs items).get? e.1).getD .none = e.2
    rw [(Dict.get?_eq_some_iff _ e.1 e.2).mpr h]
    rfl
  | _ => cases h

end Value

theorem lookup_none (k : Key) : Value.none.lookup k = .none := rfl

theorem mapping_lookup {value : Value} {path : String} {values : Dict Key Value}
    (h : mapping value path = .ok values) (k : Key) :
    value.lookup k = (values.get? k).getD .none := by
  obtain ⟨items, rfl, rfl⟩ := mapping_ok h
  rfl

theorem lookup_field {value : Value} {path : String} {values : Dict Key Value}
    (h : mapping value path = .ok values) (name : String) :
    value.lookup (.str name) = field values name .none := mapping_lookup h (.str name)

theorem mapping_entries {value : Value} {path : String} {values : Dict Key Value}
    (h : mapping value path = .ok values) : values.entries = value.entries := by
  obtain ⟨items, rfl, rfl⟩ := mapping_ok h
  rfl

theorem lookup_ne_none {value : Value} {path : String} {values : Dict Key Value} {k : Key}
    (h : mapping value path = .ok values) (hne : value.lookup k ≠ .none) :
    values.get? k = some (value.lookup k) := by
  have hlookup := mapping_lookup h k
  cases hget : values.get? k with
  | none =>
    rw [hget] at hlookup
    exact absurd hlookup hne
  | some v =>
    rw [hget] at hlookup
    exact congrArg some hlookup.symm

/-- A field that is read with an empty mapping as its default has the entries that are there. -/
theorem field_entries {values raw : Dict Key Value} {name path : String}
    (h : mapping (field values name (.dict [])) path = .ok raw) :
    raw.entries = (field values name .none).entries := by
  unfold field at h ⊢
  cases hget : values.get? (.str name) with
  | none =>
    rw [hget] at h
    cases h
    rfl
  | some v =>
    rw [hget] at h
    exact mapping_entries h

/-! ## The root -/

theorem bindRoot_ok {host : Host} {data : Value} {sourcePath : Option String}
    {root : Dict Key Value} (h : bindRoot host data sourcePath = .ok root) :
    ∃ values routed, mapping data "profile" = .ok values ∧
      bindExecutionManagerRouting host values sourcePath = .ok routed ∧
      bindRecorderStreamContract host routed sourcePath = .ok root := by
  obtain ⟨values, hvalues, h⟩ := except_bind_ok h
  obtain ⟨u, -, h⟩ := except_bind_ok h
  obtain ⟨routed, hrouted, h⟩ := except_bind_ok h
  exact ⟨values, routed, hvalues, hrouted, h⟩

/-- The groups are those of the execution-manager file, where one is referenced. -/
theorem routing_ok {host : Host} {root bound : Dict Key Value} {sourcePath : Option String}
    (h : bindExecutionManagerRouting host root sourcePath = .ok bound) :
    (field root "execution_manager_config" .none = .none ∧ bound = root) ∨
      field root "execution_manager_config" .none ≠ .none ∧
      ∃ path content em groups,
        resolvePackageFile host (field root "execution_manager_config" .none) sourcePath
          "execution_manager_config" = .ok path ∧
        host.readYaml path = .ok content ∧ mapping content path = .ok em ∧
        em.get? (.str "groups") = some groups ∧ bound = root.set (.str "groups") groups := by
  unfold bindExecutionManagerRouting at h
  generalize field root "execution_manager_config" .none = reference at h
  split at h
  case h_1 =>
    cases h
    exact Or.inl ⟨rfl, rfl⟩
  case h_2 hne =>
    obtain ⟨u, -, h⟩ := except_bind_ok h
    obtain ⟨path, hpath, h⟩ := except_bind_ok h
    obtain ⟨content, hcontent, h⟩ := except_bind_ok h
    obtain ⟨em, hem, h⟩ := except_bind_ok h
    cases hgroups : em.get? (.str "groups") with
    | none =>
      rw [hgroups] at h
      cases h
    | some groups =>
      rw [hgroups] at h
      cases h
      exact Or.inr ⟨hne, path, content, em, groups, hpath, hcontent, hem, hgroups, rfl⟩

theorem routing_absent {host : Host} {root : Dict Key Value} {sourcePath : Option String}
    (h : field root "execution_manager_config" .none = .none) :
    bindExecutionManagerRouting host root sourcePath = .ok root := by
  unfold bindExecutionManagerRouting
  rw [h]

theorem streamContract_absent {host : Host} {root : Dict Key Value} {sourcePath : Option String}
    (h : ¬ (field root "recorder" .none).HasKey "config") :
    bindRecorderStreamContract host root sourcePath = .ok root := by
  unfold bindRecorderStreamContract
  generalize field root "recorder" .none = recorder at h
  cases recorder with
  | dict items =>
    have hnone : (Dict.ofPairs items).get? (.str "config") = none := by
      rw [← Option.not_isSome_iff_eq_none, Dict.get?_isSome_iff]
      exact fun hmem => h ⟨items, rfl, hmem⟩
    simp only [hnone]
  | _ => rfl

/-- The recorder section gains the path of its stream contract, where one is referenced. -/
theorem streamContract_ok {host : Host} {root bound : Dict Key Value} {sourcePath : Option String}
    (h : bindRecorderStreamContract host root sourcePath = .ok bound) :
    (¬ (field root "recorder" .none).HasKey "config" ∧ bound = root) ∨
      ∃ items path, field root "recorder" .none = .dict items ∧
        (field root "recorder" .none).HasKey "config" ∧
        resolvePackageFile host ((field root "recorder" .none).lookup (.str "config")) sourcePath
          "recorder.config" = .ok path ∧
        bound = root.set (.str "recorder") (.dict (items ++ [(.str "contract_path", .str path)])) := by
  by_cases hkey : (field root "recorder" .none).HasKey "config"
  · right
    obtain ⟨items, hitems, hmem⟩ := hkey
    unfold bindRecorderStreamContract at h
    rw [hitems] at h ⊢
    rw [← Dict.get?_isSome_iff] at hmem
    obtain ⟨reference, hreference⟩ := Option.isSome_iff_exists.mp hmem
    simp only [hreference] at h
    obtain ⟨path, hpath, h⟩ := except_bind_ok h
    cases h
    refine ⟨items, path, rfl, ⟨items, rfl, Dict.get?_isSome_iff _ _ |>.mp hmem⟩, ?_, rfl⟩
    show resolvePackageFile host (((Dict.ofPairs items).get? (.str "config")).getD .none) _ _ = _
    rw [hreference]
    exact hpath
  · rw [streamContract_absent hkey] at h
    cases h
    exact Or.inl ⟨hkey, rfl⟩

/-! ## The readers -/

theorem controllerConfig_ok {path : String} {value : Value} {c : ControllerConfig}
    (h : controllerConfig path value = .ok c) :
    ∃ controller, mapping value path = .ok controller ∧
      endpoints (field controller "ros_actions" (.dict [])) (path ++ ".ros_actions") =
        .ok c.rosActions ∧
      endpoints (field controller "ros_topics" (.dict [])) (path ++ ".ros_topics") =
        .ok c.rosTopics ∧
      ¬ (c.rosActions.isEmpty ∧ c.rosTopics.isEmpty) := by
  obtain ⟨controller, hcontroller, h⟩ := except_bind_ok h
  obtain ⟨actions, hactions, h⟩ := except_bind_ok h
  obtain ⟨topics, htopics, h⟩ := except_bind_ok h
  obtain ⟨u, hsome, h⟩ := except_bind_ok h
  obtain ⟨name, -, h⟩ := except_bind_ok h
  obtain ⟨implementation, -, h⟩ := except_bind_ok h
  obtain ⟨commandInterface, -, h⟩ := except_bind_ok h
  cases h
  exact ⟨controller, hcontroller, hactions, htopics, require_ok hsome⟩

theorem partConfig_ok {name : Key} {value : Value} {part : PartConfig}
    (h : partConfig name value = .ok part) :
    ∃ path raw, mapping (value.lookup (.str "controllers")) (path ++ ".controllers") = .ok raw ∧
      raw.mapM (fun contract value =>
        controllerConfig (path ++ ".controllers." ++ contract.text) value) =
          .ok part.controllers ∧
      string (value.lookup (.str "default_controller")) (path ++ ".default_controller") =
        .ok part.defaultController ∧
      .str part.defaultController ∈ part.controllers.keys ∧
      optionalString (value.lookup (.str "parent_group")) (path ++ ".parent_group") =
        .ok part.parent := by
  obtain ⟨rawPart, hpart, h⟩ := except_bind_ok h
  obtain ⟨raw, hraw, h⟩ := except_bind_ok h
  obtain ⟨-, -, h⟩ := except_bind_ok h
  obtain ⟨controllers, hcontrollers, h⟩ := except_bind_ok h
  obtain ⟨default, hdefault, h⟩ := except_bind_ok h
  obtain ⟨u, hmem, h⟩ := except_bind_ok h
  obtain ⟨joints, -, h⟩ := except_bind_ok h
  obtain ⟨partType, -, h⟩ := except_bind_ok h
  obtain ⟨controllerManager, -, h⟩ := except_bind_ok h
  obtain ⟨parent, hparent, h⟩ := except_bind_ok h
  obtain ⟨baseFrame, -, h⟩ := except_bind_ok h
  obtain ⟨flangeFrame, -, h⟩ := except_bind_ok h
  obtain ⟨tcpFrame, -, h⟩ := except_bind_ok h
  cases h
  rw [← lookup_field hpart] at hraw hdefault hparent
  exact ⟨_, raw, hraw, hcontrollers, hdefault, require_ok hmem, hparent⟩

theorem checkParents_ok {parts : Dict Key PartConfig} {u : Unit}
    (h : checkParents parts = .ok u) {e : Key × PartConfig} (he : e ∈ parts.entries)
    {parent : String} (hparent : e.2.parent = some parent) : .str parent ∈ parts.keys := by
  have hcheck := except_forM_ok h he
  rw [hparent] at hcheck
  exact require_ok hcheck

/-- The members are the listed values, in their order. -/
theorem groupMembers_ok {host : Host} {parts : Dict Key PartConfig} {name : Key} {value : Value}
    {keys : List Key} (h : groupMembers host parts name value = .ok keys) :
    ∃ members, value.lookup (.str "included_groups") = .list members ∧ members ≠ [] ∧
      members.mapM Value.key = .ok keys ∧ ∀ k ∈ keys, k ∈ parts.keys := by
  obtain ⟨group, hgroup, h⟩ := except_bind_ok h
  rw [mapping_lookup hgroup]
  dsimp only at h
  unfold field at h
  split at h
  case h_2 => cases h
  case h_1 member members hmembers =>
    obtain ⟨read, hkeys, h⟩ := except_bind_ok h
    obtain ⟨u, hknown, h⟩ := except_bind_ok h
    cases h
    refine ⟨member :: members, hmembers, List.cons_ne_nil _ _, hkeys, ?_⟩
    have hnil := require_ok hknown
    rw [List.filter_eq_nil_iff] at hnil
    intro k hk
    have hlen : keys.length ≤ (member :: members).length :=
      (except_mapM_forall₂ hkeys).length_eq.ge
    have hzip : k ∈ ((member :: members).zip keys).map Prod.snd := by
      rw [List.map_snd_zip hlen]
      exact hk
    obtain ⟨e, he, rfl⟩ := List.mem_map.mp hzip
    have hnot := hnil e he
    simpa using hnot

theorem sourceRole_isSome {name : String} {role : SourceRole} (h : sourceRole name = some role) :
    name = "POLICY" ∨ name = "TELEOP" ∨ name = "PLANNER" := by
  unfold sourceRole at h
  split at h
  · exact Or.inl rfl
  · exact Or.inr (Or.inl rfl)
  · exact Or.inr (Or.inr rfl)
  · cases h

theorem agentConfig_ok {host : Host} {parts : Dict Key PartConfig} {name : Key} {value : Value}
    {agent : AgentConfig} (h : agentConfig host parts name value = .ok agent) :
    ∃ path roleName raw,
      string (value.lookup (.str "source_role")) (path ++ ".source_role") = .ok roleName ∧
      sourceRole (host.upper roleName) = some agent.sourceRole ∧
      mapping (value.lookup (.str "resources")) (path ++ ".resources") = .ok raw ∧
      ¬ raw.isEmpty ∧
      raw.mapM (agentResource parts path) = .ok agent.resources ∧
      agentFrequency (value.lookup (.str "frequency")) path = .ok agent.frequency := by
  obtain ⟨rawAgent, hagent, h⟩ := except_bind_ok h
  obtain ⟨roleName, hroleName, h⟩ := except_bind_ok h
  cases hrole : sourceRole (host.upper roleName) with
  | none =>
    rw [hrole] at h
    cases h
  | some role =>
    rw [hrole] at h
    obtain ⟨raw, hraw, h⟩ := except_bind_ok h
    obtain ⟨u, hsome, h⟩ := except_bind_ok h
    obtain ⟨validated, hvalidated, h⟩ := except_bind_ok h
    obtain ⟨frequency, hfrequency, h⟩ := except_bind_ok h
    cases h
    rw [← lookup_field hagent] at hroleName hraw hfrequency
    exact ⟨_, roleName, raw, hroleName, hrole, hraw, require_ok hsome, hvalidated, hfrequency⟩

/-! ## The sections -/

/-- The parts, groups, agents and cameras of an accepted profile, as they were read from its
root. -/
structure Sections (host : Host) (root : Dict Key Value) (config : EmbodimentConfig) : Prop where
  rawData : config.rawData = root
  parts : ∃ raw, mapping (field root "groups" .none) "groups" = .ok raw ∧
    raw.mapM partConfig = .ok config.parts
  parents : checkParents config.parts = .ok ()
  groups : ∃ raw, mapping (field root "compound_groups" (.dict [])) "compound_groups" = .ok raw ∧
    raw.mapM (groupMembers host config.parts) = .ok config.groups
  agents : ∃ raw, mapping (field root "agents" (.dict [])) "agents" = .ok raw ∧
    raw.mapM (agentConfig host config.parts) = .ok config.agents
  cameras : ∃ sensors raw, mapping (field root "sensors" (.dict [])) "sensors" = .ok sensors ∧
    mapping (field sensors "cameras" (.dict [])) "sensors.cameras" = .ok raw ∧
    raw.mapM (cameraConfig host) = .ok config.cameras

theorem fromDict_sections {host : Host} {data : Value} {sourcePath : Option String}
    {config : EmbodimentConfig} (h : fromDict host data sourcePath = .ok config) :
    ∃ root, bindRoot host data sourcePath = .ok root ∧ Sections host root config := by
  obtain ⟨root, hroot, h⟩ := except_bind_ok h
  obtain ⟨metadata, -, h⟩ := except_bind_ok h
  obtain ⟨name, -, h⟩ := except_bind_ok h
  obtain ⟨rawParts, hrawParts, h⟩ := except_bind_ok h
  obtain ⟨-, -, h⟩ := except_bind_ok h
  obtain ⟨parts, hparts, h⟩ := except_bind_ok h
  obtain ⟨u, hparents, h⟩ := except_bind_ok h
  obtain ⟨rawGroups, hrawGroups, h⟩ := except_bind_ok h
  obtain ⟨groups, hgroups, h⟩ := except_bind_ok h
  obtain ⟨hostRoles, -, h⟩ := except_bind_ok h
  obtain ⟨rawAgents, hrawAgents, h⟩ := except_bind_ok h
  obtain ⟨agents, hagents, h⟩ := except_bind_ok h
  obtain ⟨recording, -, h⟩ := except_bind_ok h
  obtain ⟨features, -, h⟩ := except_bind_ok h
  obtain ⟨calibration, -, h⟩ := except_bind_ok h
  obtain ⟨streams, -, h⟩ := except_bind_ok h
  obtain ⟨sensors, hsensors, h⟩ := except_bind_ok h
  obtain ⟨rawCameras, hrawCameras, h⟩ := except_bind_ok h
  obtain ⟨cameras, hcameras, h⟩ := except_bind_ok h
  cases h
  exact ⟨root, hroot, {
    rawData := rfl
    parts := ⟨rawParts, hrawParts, hparts⟩
    parents := hparents
    groups := ⟨rawGroups, hrawGroups, hgroups⟩
    agents := ⟨rawAgents, hrawAgents, hagents⟩
    cameras := ⟨sensors, rawCameras, hsensors, hrawCameras, hcameras⟩ }⟩

end PhysicalAiRuntime.Config
