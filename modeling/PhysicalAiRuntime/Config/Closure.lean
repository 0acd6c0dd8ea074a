import PhysicalAiRuntime.Config.Contracts

/-! Referential closure of a profile: every name that an accepted profile uses is declared in it,
and nothing that it declares is lost. The conditions stand twice, for the raw profile and for the
configuration that it becomes. -/
namespace PhysicalAiRuntime.Config
open Authority
set_option autoImplicit false
set_option maxHeartbeats 250000

/-! ## Frequencies -/

/-- `0 < x`. -/
def PyFloat.Positive : PyFloat → Prop
  | .finite q => 0 < q
  | .infinite negative => negative = false
  | .nan => False

/-! ## Closed raw profiles -/

namespace Value

def NonEmptyString (value : Value) : Prop := ∃ s, value = .str s ∧ s ≠ ""

/-- At least one action or topic, and only non-empty strings for names and endpoints. -/
structure ClosedController (controller : Value) : Prop where
  offers : (controller.lookup (.str "ros_actions")).entries ≠ [] ∨
    (controller.lookup (.str "ros_topics")).entries ≠ []
  endpoints : ∀ kind ∈ ["ros_actions", "ros_topics"],
    ∀ e ∈ (controller.lookup (.str kind)).entries, e.1.value.NonEmptyString ∧ e.2.NonEmptyString

structure ClosedPart (groups part : Value) : Prop where
  controllers : ∀ e ∈ (part.lookup (.str "controllers")).entries, e.2.ClosedController
  defaultController : ∃ contract, part.lookup (.str "default_controller") = .str contract ∧
    .str contract ∈ (part.lookup (.str "controllers")).keys
  parent : part.lookup (.str "parent_group") = .none ∨
    ∃ parent, part.lookup (.str "parent_group") = .str parent ∧ .str parent ∈ groups.keys

def ClosedGroup (groups group : Value) : Prop :=
  ∃ members, group.lookup (.str "included_groups") = .list members ∧ members ≠ [] ∧
    ∀ member ∈ members, ∃ k, member.key = .ok k ∧ k ∈ groups.keys

/-- A controller of the part has the topic, or the action that `joint_trajectory` stands for. -/
def Offers (part : Value) (contract : String) : Prop :=
  part.ListsEndpoint "ros_topics" contract ∨
    (contract = "joint_trajectory" ∧ part.ListsEndpoint "ros_actions" "follow_joint_trajectory")

def AbsentOrPositive : Value → Prop
  | .none => True
  | .int n => 0 < n
  | .float x => x.Positive
  | _ => False

structure ClosedAgent (host : Host) (groups agent : Value) : Prop where
  role : ∃ name, agent.lookup (.str "source_role") = .str name ∧
    host.upper name ∈ ["POLICY", "TELEOP", "PLANNER"]
  resources : (agent.lookup (.str "resources")).entries ≠ []
  offered : ∀ e ∈ (agent.lookup (.str "resources")).entries, ∃ contract, e.2 = .str contract ∧
    ∃ part, (e.1, part) ∈ groups.entries ∧ part.Offers contract

structure Closed (host : Host) (data : Value) : Prop where
  parts : ∀ e ∈ (data.lookup (.str "groups")).entries,
    ClosedPart (data.lookup (.str "groups")) e.2
  groups : ∀ e ∈ (data.lookup (.str "compound_groups")).entries,
    ClosedGroup (data.lookup (.str "groups")) e.2
  agents : ∀ e ∈ (data.lookup (.str "agents")).entries,
    ClosedAgent host (data.lookup (.str "groups")) e.2

def FrequenciesPositive (data : Value) : Prop :=
  ∀ e ∈ (data.lookup (.str "agents")).entries,
    (e.2.lookup (.str "frequency")).AbsentOrPositive

def NaNFrequency (data : Value) : Prop :=
  ∃ e ∈ (data.lookup (.str "agents")).entries, e.2.lookup (.str "frequency") = .float .nan

end Value

/-! ## Closed configurations -/

namespace PartConfig

def Offers (part : PartConfig) (contract : String) : Prop :=
  (∃ e ∈ part.controllers.entries, contract ∈ e.2.rosTopics.keys) ∨
    (contract = "joint_trajectory" ∧
      ∃ e ∈ part.controllers.entries, "follow_joint_trajectory" ∈ e.2.rosActions.keys)

end PartConfig

structure ControllerConfig.Closed (controller : ControllerConfig) : Prop where
  offers : controller.rosActions.entries ≠ [] ∨ controller.rosTopics.entries ≠ []
  endpoints : ∀ e ∈ controller.rosActions.entries ++ controller.rosTopics.entries,
    e.1 ≠ "" ∧ e.2 ≠ ""

namespace EmbodimentConfig

structure Closed (config : EmbodimentConfig) : Prop where
  controllers : ∀ e ∈ config.parts.entries, ∀ c ∈ e.2.controllers.entries, c.2.Closed
  defaultController : ∀ e ∈ config.parts.entries,
    .str e.2.defaultController ∈ e.2.controllers.keys
  parent : ∀ e ∈ config.parts.entries, ∀ parent, e.2.parent = some parent →
    .str parent ∈ config.parts.keys
  groups : ∀ e ∈ config.groups.entries, e.2 ≠ [] ∧ ∀ member ∈ e.2, member ∈ config.parts.keys
  agents : ∀ e ∈ config.agents.entries, e.2.resources.entries ≠ [] ∧
    ∀ r ∈ e.2.resources.entries, ∃ part, config.parts.get? r.1 = some part ∧ part.Offers r.2

def FrequenciesPositive (config : EmbodimentConfig) : Prop :=
  ∀ e ∈ config.agents.entries, ∀ x, e.2.frequency = some x → x.Positive

/-- The configuration has the sections of the raw profile, key by key, with the members of the
groups in their order and the roles of the agents. -/
structure Complete (host : Host) (data : Value) (config : EmbodimentConfig) : Prop where
  parts : config.parts.keys = (data.lookup (.str "groups")).keys
  controllers : ∀ e ∈ config.parts.entries, e.2.controllers.keys =
    (((data.lookup (.str "groups")).lookup e.1).lookup (.str "controllers")).keys
  groups : config.groups.keys = (data.lookup (.str "compound_groups")).keys
  members : ∀ e ∈ config.groups.entries, ∃ members,
    ((data.lookup (.str "compound_groups")).lookup e.1).lookup (.str "included_groups") =
      .list members ∧ members.mapM Value.key = .ok e.2
  agents : config.agents.keys = (data.lookup (.str "agents")).keys
  roles : ∀ e ∈ config.agents.entries, ∃ name,
    ((data.lookup (.str "agents")).lookup e.1).lookup (.str "source_role") = .str name ∧
      sourceRole (host.upper name) = some e.2.sourceRole
  cameras : config.cameras.keys = ((data.lookup (.str "sensors")).lookup (.str "cameras")).keys

end EmbodimentConfig

/-! ## Profiles without referenced files -/

/-- Neither an execution-manager file nor a recorder file is referenced. -/
structure Value.SelfContained (data : Value) : Prop where
  routing : data.lookup (.str "execution_manager_config") = .none
  recorder : ¬ (data.lookup (.str "recorder")).HasKey "config"

/-- Such a profile is its own root. -/
theorem bindRoot_selfContained {host : Host} {data : Value} {sourcePath : Option String}
    {root : Dict Key Value} (hdata : data.SelfContained)
    (h : bindRoot host data sourcePath = .ok root) : mapping data "profile" = .ok root := by
  obtain ⟨values, routed, hvalues, hrouted, hroot⟩ := bindRoot_ok h
  have hrouting := hdata.routing
  have hrecorder := hdata.recorder
  rw [mapping_lookup hvalues] at hrouting hrecorder
  rw [routing_absent hrouting] at hrouted
  cases hrouted
  rw [streamContract_absent hrecorder] at hroot
  cases hroot
  exact hvalues

/-! ## What each reader closes -/

theorem endpoints_closed {values : Dict Key Value} {name path : String} {r : Dict String String}
    (h : endpoints (field values name (.dict [])) path = .ok r) :
    List.Forall₂ (fun e p => e = (.str p.1, .str p.2) ∧ p.1 ≠ "" ∧ p.2 ≠ "")
      (field values name .none).entries r.entries := by
  obtain ⟨raw, hraw, hall⟩ := endpoints_entries h
  rw [field_entries hraw] at hall
  exact hall

theorem controllerConfig_closed {path : String} {value : Value} {c : ControllerConfig}
    (h : controllerConfig path value = .ok c) : value.ClosedController ∧ c.Closed := by
  obtain ⟨controller, hcontroller, hactions, htopics, hsome⟩ := controllerConfig_ok h
  have ha := endpoints_closed hactions
  have ht := endpoints_closed htopics
  have hlookup := lookup_field hcontroller
  have hoffers : c.rosActions.entries ≠ [] ∨ c.rosTopics.entries ≠ [] := by
    by_contra hnone
    obtain ⟨hna, hnt⟩ := not_or.mp hnone
    rw [not_not] at hna hnt
    exact hsome ⟨c.rosActions.isEmpty_iff.mpr hna, c.rosTopics.isEmpty_iff.mpr hnt⟩
  have hraw : ∀ {es : List (Key × Value)} {ps : List (String × String)},
      List.Forall₂ (fun e p => e = (.str p.1, .str p.2) ∧ p.1 ≠ "" ∧ p.2 ≠ "") es ps →
      ∀ e ∈ es, e.1.value.NonEmptyString ∧ e.2.NonEmptyString := by
    intro es ps hall e he
    obtain ⟨p, -, rfl, hname, hendpoint⟩ := forall₂_mem_right hall.flip he
    exact ⟨⟨p.1, rfl, hname⟩, p.2, rfl, hendpoint⟩
  refine ⟨⟨?_, ?_⟩, hoffers, ?_⟩
  · rw [hlookup, hlookup, forall₂_ne_nil ha, forall₂_ne_nil ht]
    exact hoffers
  · intro kind hkind
    rw [hlookup]
    simp only [List.mem_cons, List.not_mem_nil, or_false] at hkind
    cases hkind with
    | inl hkind =>
      subst hkind
      exact hraw ha
    | inr hkind =>
      subst hkind
      exact hraw ht
  · intro e he
    cases List.mem_append.mp he with
    | inl he =>
      obtain ⟨-, -, -, hne⟩ := forall₂_mem_right ha he
      exact hne
    | inr he =>
      obtain ⟨-, -, -, hne⟩ := forall₂_mem_right ht he
      exact hne

theorem optionalString_ok {value : Value} {path : String} {r : Option String}
    (h : optionalString value path = .ok r) :
    (value = .none ∧ r = none) ∨ ∃ s, value = .str s ∧ r = some s := by
  unfold optionalString at h
  split at h
  · cases h
    exact Or.inl ⟨rfl, rfl⟩
  · obtain ⟨s, hs, h⟩ := except_bind_ok h
    cases h
    exact Or.inr ⟨s, (string_ok.mp hs).1, rfl⟩

/-- The controllers of an accepted part are the raw ones, read one by one. -/
theorem partConfig_controllers {name : Key} {value : Value} {part : PartConfig}
    (h : partConfig name value = .ok part) :
    List.Forall₂ (fun e c => c.1 = e.1 ∧ e.2.ClosedController ∧ c.2.Closed)
      (value.lookup (.str "controllers")).entries part.controllers.entries := by
  obtain ⟨path, raw, hraw, hmap, -⟩ := partConfig_ok h
  rw [← mapping_entries hraw]
  exact (Dict.mapM_entries hmap).imp fun e c hc => ⟨hc.1, controllerConfig_closed hc.2⟩

theorem partConfig_default {name : Key} {value : Value} {part : PartConfig}
    (h : partConfig name value = .ok part) :
    value.lookup (.str "default_controller") = .str part.defaultController ∧
      .str part.defaultController ∈ part.controllers.keys := by
  obtain ⟨path, raw, -, -, hdefault, hmem, -⟩ := partConfig_ok h
  exact ⟨(string_ok.mp hdefault).1, hmem⟩

theorem partConfig_parent {name : Key} {value : Value} {part : PartConfig}
    (h : partConfig name value = .ok part) :
    (value.lookup (.str "parent_group") = .none ∧ part.parent = none) ∨
      ∃ parent, value.lookup (.str "parent_group") = .str parent ∧ part.parent = some parent := by
  obtain ⟨path, raw, -, -, -, -, hparent⟩ := partConfig_ok h
  exact optionalString_ok hparent

theorem partConfig_offers {name : Key} {value : Value} {part : PartConfig}
    (h : partConfig name value = .ok part) (contract : String) :
    part.Offers contract ↔ value.Offers contract := by
  unfold PartConfig.Offers Value.Offers
  rw [(partConfig_lists h contract).2, (partConfig_lists h "follow_joint_trajectory").1]

theorem available_offers {part : PartConfig} {contract : String} :
    contract ∈ available part ↔ part.Offers contract := by
  rw [mem_available, followJointTrajectory_iff]
  rfl

/-! ## Frequencies -/

theorem agentFrequency_ok {value : Value} {path : String} {frequency : Option PyFloat}
    (h : agentFrequency value path = .ok frequency) :
    (value = .none ∧ frequency = none) ∨
      (∃ n, value = .int n ∧ 0 < n ∧ frequency = some (.finite n)) ∨
      ∃ x, value = .float x ∧ x.nonPositive = false ∧ frequency = some x := by
  unfold agentFrequency at h
  split at h
  · cases h
    exact Or.inl ⟨rfl, rfl⟩
  · rename_i n
    obtain ⟨u, hpositive, h⟩ := except_bind_ok h
    obtain ⟨x, hx, h⟩ := except_bind_ok h
    cases h
    refine Or.inr (Or.inl ⟨n, rfl, not_le.mp (require_ok hpositive), ?_⟩)
    unfold PyFloat.ofInt at hx
    split at hx
    · cases hx
      rfl
    · cases hx
  · rename_i x
    obtain ⟨u, hpositive, h⟩ := except_bind_ok h
    cases h
    exact Or.inr (Or.inr ⟨x, rfl, Bool.not_eq_true _ ▸ require_ok hpositive, rfl⟩)
  · cases h

/-- The comparison lets exactly one value through that is not positive. -/
theorem PyFloat.positive_iff {x : PyFloat} (h : x.nonPositive = false) :
    x.Positive ↔ x ≠ .nan := by
  cases x with
  | finite q =>
    have hq : 0 < q := not_le.mp (of_decide_eq_false h)
    exact ⟨fun _ => by simp, fun _ => hq⟩
  | infinite negative => exact ⟨fun _ => by simp, fun _ => h⟩
  | nan => exact ⟨fun hf => hf.elim, fun hne => hne rfl⟩

theorem agentFrequency_positive {value : Value} {path : String} {frequency : Option PyFloat}
    (h : agentFrequency value path = .ok frequency) :
    (value.AbsentOrPositive ↔ value ≠ .float .nan) ∧
      ((∀ x, frequency = some x → x.Positive) ↔ value ≠ .float .nan) := by
  obtain ⟨rfl, rfl⟩ | ⟨n, rfl, hn, rfl⟩ | ⟨x, rfl, hx, rfl⟩ := agentFrequency_ok h
  · simp [Value.AbsentOrPositive]
  · have hq : PyFloat.Positive (.finite n) := Int.cast_pos.mpr hn
    simp [Value.AbsentOrPositive, hn, hq]
  · have hpositive := PyFloat.positive_iff hx
    simp [Value.AbsentOrPositive, hpositive]

/-! ## The sections of an accepted profile -/

namespace Sections
variable {host : Host} {root : Dict Key Value} {config : EmbodimentConfig}

/-- The parts are the raw groups, read one by one. -/
theorem part_entries (h : Sections host root config) :
    List.Forall₂ (fun e p => p.1 = e.1 ∧ partConfig e.1 e.2 = .ok p.2)
      (field root "groups" .none).entries config.parts.entries := by
  obtain ⟨raw, hraw, hmap⟩ := h.parts
  rw [← mapping_entries hraw]
  exact Dict.mapM_entries hmap

theorem group_entries (h : Sections host root config) :
    List.Forall₂ (fun e g => g.1 = e.1 ∧ groupMembers host config.parts e.1 e.2 = .ok g.2)
      (field root "compound_groups" .none).entries config.groups.entries := by
  obtain ⟨raw, hraw, hmap⟩ := h.groups
  rw [← field_entries hraw]
  exact Dict.mapM_entries hmap

theorem agent_entries (h : Sections host root config) :
    List.Forall₂ (fun e a => a.1 = e.1 ∧ agentConfig host config.parts e.1 e.2 = .ok a.2)
      (field root "agents" .none).entries config.agents.entries := by
  obtain ⟨raw, hraw, hmap⟩ := h.agents
  rw [← field_entries hraw]
  exact Dict.mapM_entries hmap

theorem camera_keys (h : Sections host root config) :
    config.cameras.keys = ((field root "sensors" .none).lookup (.str "cameras")).keys := by
  obtain ⟨sensors, raw, hsensors, hraw, hmap⟩ := h.cameras
  have hcameras : (field root "sensors" .none).lookup (.str "cameras") =
      field sensors "cameras" .none := by
    unfold field at hsensors ⊢
    cases hget : root.get? (.str "sensors") with
    | none =>
      rw [hget] at hsensors
      cases hsensors
      rfl
    | some v =>
      rw [hget] at hsensors
      exact mapping_lookup hsensors _
  rw [Dict.mapM_keys hmap, hcameras]
  exact congrArg (List.map Prod.fst) (field_entries hraw)

theorem part_keys (h : Sections host root config) :
    config.parts.keys = (field root "groups" .none).keys := Dict.forall₂_map_fst h.part_entries

/-- A part of the configuration comes from the raw group of its name. -/
theorem part_of_get? (h : Sections host root config) {resource : Key} {part : PartConfig}
    (hpart : config.parts.get? resource = some part) :
    ∃ value, (resource, value) ∈ (field root "groups" .none).entries ∧
      partConfig resource value = .ok part := by
  have hmem := (Dict.get?_eq_some_iff _ _ _).mp hpart
  obtain ⟨⟨name, value⟩, he, hname, hread⟩ := forall₂_mem_right h.part_entries hmem
  cases hname
  exact ⟨value, he, hread⟩

/-! ### The configuration -/

theorem closed (h : Sections host root config) : config.Closed where
  controllers := by
    intro p hp c hc
    obtain ⟨e, -, -, hread⟩ := forall₂_mem_right h.part_entries hp
    obtain ⟨-, -, -, -, hclosed⟩ := forall₂_mem_right (partConfig_controllers hread) hc
    exact hclosed
  defaultController := by
    intro p hp
    obtain ⟨e, -, -, hread⟩ := forall₂_mem_right h.part_entries hp
    exact (partConfig_default hread).2
  parent := fun p hp parent hparent => checkParents_ok h.parents hp hparent
  groups := by
    intro g hg
    obtain ⟨e, -, -, hread⟩ := forall₂_mem_right h.group_entries hg
    obtain ⟨members, -, hne, hkeys, hknown⟩ := groupMembers_ok hread
    exact ⟨(forall₂_ne_nil (except_mapM_forall₂ hkeys)).mp hne, hknown⟩
  agents := by
    intro a ha
    obtain ⟨e, -, -, hread⟩ := forall₂_mem_right h.agent_entries ha
    obtain ⟨path, roleName, raw, -, -, -, hne, hmap, -⟩ := agentConfig_ok hread
    have hresources := Dict.mapM_entries hmap
    refine ⟨(forall₂_ne_nil hresources).mp fun hnil => hne (raw.isEmpty_iff.mpr hnil), ?_⟩
    intro r hr
    obtain ⟨resource, -, hname, hresource⟩ := forall₂_mem_right hresources hr
    obtain ⟨-, part, hpart, havailable⟩ := agentResource_ok hresource
    exact ⟨part, hname ▸ hpart, available_offers.mp havailable⟩

theorem frequenciesPositive_iff (h : Sections host root config) :
    config.FrequenciesPositive ↔ ∀ e ∈ (field root "agents" .none).entries,
      e.2.lookup (.str "frequency") ≠ .float .nan := by
  constructor
  · intro hall e he
    obtain ⟨a, ha, -, hread⟩ := forall₂_mem_right h.agent_entries.flip he
    obtain ⟨path, -, -, -, -, -, -, -, hfrequency⟩ := agentConfig_ok hread
    exact (agentFrequency_positive hfrequency).2.mp (hall a ha)
  · intro hall a ha
    obtain ⟨e, he, -, hread⟩ := forall₂_mem_right h.agent_entries ha
    obtain ⟨path, -, -, -, -, -, -, -, hfrequency⟩ := agentConfig_ok hread
    exact (agentFrequency_positive hfrequency).2.mpr (hall e he)

/-! ### The raw profile -/

variable {data : Value}

theorem complete (h : Sections host root config) (hroot : mapping data "profile" = .ok root) :
    config.Complete host data := by
  have hsection := lookup_field hroot
  constructor
  · rw [hsection]
    exact h.part_keys
  · intro p hp
    obtain ⟨e, he, hname, hread⟩ := forall₂_mem_right h.part_entries hp
    rw [hsection, hname, Value.lookup_of_mem he]
    exact Dict.forall₂_map_fst (partConfig_controllers hread)
  · rw [hsection]
    exact Dict.forall₂_map_fst h.group_entries
  · intro g hg
    obtain ⟨e, he, hname, hread⟩ := forall₂_mem_right h.group_entries hg
    rw [hsection, hname, Value.lookup_of_mem he]
    obtain ⟨members, hmembers, -, hkeys, -⟩ := groupMembers_ok hread
    exact ⟨members, hmembers, hkeys⟩
  · rw [hsection]
    exact Dict.forall₂_map_fst h.agent_entries
  · intro a ha
    obtain ⟨e, he, hname, hread⟩ := forall₂_mem_right h.agent_entries ha
    rw [hsection, hname, Value.lookup_of_mem he]
    obtain ⟨path, roleName, raw, hroleName, hrole, -⟩ := agentConfig_ok hread
    exact ⟨roleName, (string_ok.mp hroleName).1, hrole⟩
  · rw [hsection]
    exact h.camera_keys

/-- What `parent_group` names is one of the raw groups. -/
theorem closedPart (h : Sections host root config) {e : Key × Value}
    (he : e ∈ (field root "groups" .none).entries) :
    Value.ClosedPart (field root "groups" .none) e.2 := by
  obtain ⟨p, hp, -, hread⟩ := forall₂_mem_right h.part_entries.flip he
  have hcontrollers := partConfig_controllers hread
  obtain ⟨hdefault, hmem⟩ := partConfig_default hread
  constructor
  · intro c hc
    obtain ⟨-, -, -, hclosed, -⟩ := forall₂_mem_right hcontrollers.flip hc
    exact hclosed
  · refine ⟨p.2.defaultController, hdefault, ?_⟩
    have hkeys : p.2.controllers.keys = (e.2.lookup (.str "controllers")).keys :=
      Dict.forall₂_map_fst hcontrollers
    rw [← hkeys]
    exact hmem
  · obtain ⟨hnone, -⟩ | ⟨parent, hparent, hsome⟩ := partConfig_parent hread
    · exact Or.inl hnone
    · refine Or.inr ⟨parent, hparent, ?_⟩
      rw [← h.part_keys]
      exact checkParents_ok h.parents hp hsome

theorem closedGroup (h : Sections host root config) {e : Key × Value}
    (he : e ∈ (field root "compound_groups" .none).entries) :
    Value.ClosedGroup (field root "groups" .none) e.2 := by
  obtain ⟨g, -, -, hread⟩ := forall₂_mem_right h.group_entries.flip he
  obtain ⟨members, hmembers, hne, hkeys, hknown⟩ := groupMembers_ok hread
  refine ⟨members, hmembers, hne, fun member hmember => ?_⟩
  obtain ⟨k, hk, hkey⟩ := forall₂_mem_right (except_mapM_forall₂ hkeys).flip hmember
  refine ⟨k, hkey, ?_⟩
  rw [← h.part_keys]
  exact hknown k hk

theorem closedAgent (h : Sections host root config) {e : Key × Value}
    (he : e ∈ (field root "agents" .none).entries) :
    Value.ClosedAgent host (field root "groups" .none) e.2 := by
  obtain ⟨a, -, -, hread⟩ := forall₂_mem_right h.agent_entries.flip he
  obtain ⟨path, roleName, raw, hroleName, hrole, hraw, hne, hmap, -⟩ := agentConfig_ok hread
  constructor
  · refine ⟨roleName, (string_ok.mp hroleName).1, ?_⟩
    simpa using sourceRole_isSome hrole
  · rw [← mapping_entries hraw]
    exact fun hnil => hne (raw.isEmpty_iff.mpr hnil)
  · rw [← mapping_entries hraw]
    intro r hr
    obtain ⟨c, -, -, hresource⟩ := forall₂_mem_right (Dict.mapM_entries hmap).flip hr
    obtain ⟨hcommand, part, hpart, havailable⟩ := agentResource_ok hresource
    obtain ⟨value, hvalue, hpartRead⟩ := h.part_of_get? hpart
    refine ⟨c.2, hcommand, value, hvalue, ?_⟩
    exact (partConfig_offers hpartRead c.2).mp (available_offers.mp havailable)

theorem rawClosed (h : Sections host root config) (hroot : mapping data "profile" = .ok root) :
    data.Closed host := by
  have hsection := lookup_field hroot
  constructor
  · rw [hsection]
    exact fun e he => h.closedPart he
  · rw [hsection, hsection]
    exact fun e he => h.closedGroup he
  · rw [hsection, hsection]
    exact fun e he => h.closedAgent he

theorem rawFrequencies_iff (h : Sections host root config)
    (hroot : mapping data "profile" = .ok root) :
    data.FrequenciesPositive ↔ ¬ data.NaNFrequency := by
  have hagents := lookup_field hroot "agents"
  unfold Value.FrequenciesPositive Value.NaNFrequency
  rw [hagents, not_exists]
  refine forall_congr' fun e => ?_
  rw [not_and]
  refine forall_congr' fun he => ?_
  obtain ⟨a, -, -, hread⟩ := forall₂_mem_right h.agent_entries.flip he
  obtain ⟨path, -, -, -, -, -, -, -, hfrequency⟩ := agentConfig_ok hread
  exact (agentFrequency_positive hfrequency).1

end Sections

/-! ## Closure -/

/-- Everything but the sign of a frequency that is not a number is checked. -/
theorem fromDict_closed {host : Host} {data : Value} {sourcePath : Option String}
    {config : EmbodimentConfig} (hdata : data.SelfContained)
    (h : fromDict host data sourcePath = .ok config) :
    config.Closed ∧ config.Complete host data ∧ data.Closed host ∧
      (config.FrequenciesPositive ↔ ¬ data.NaNFrequency) ∧
      (data.FrequenciesPositive ↔ ¬ data.NaNFrequency) := by
  obtain ⟨root, hbound, hsections⟩ := fromDict_sections h
  have hroot := bindRoot_selfContained hdata hbound
  refine ⟨hsections.closed, hsections.complete hroot, hsections.rawClosed hroot, ?_,
    hsections.rawFrequencies_iff hroot⟩
  have hagents := lookup_field hroot "agents"
  rw [hsections.frequenciesPositive_iff, Value.NaNFrequency, hagents]
  constructor
  · intro hall ⟨e, he, hnan⟩
    exact hall e he hnan
  · intro hnone e he hnan
    exact hnone ⟨e, he, hnan⟩

/-- **Referential closure.** An accepted profile is closed and complete, in the configuration and in
the raw profile, unless the frequency of an agent is not a number; a profile that is not closed is
refused. -/
theorem accepted_closed_iff {host : Host} {data : Value} {sourcePath : Option String}
    (hdata : data.SelfContained) :
    (∀ config, fromDict host data sourcePath = .ok config →
      ((config.Closed ∧ config.FrequenciesPositive ∧ config.Complete host data) ∧
        (data.Closed host ∧ data.FrequenciesPositive) ↔ ¬ data.NaNFrequency)) ∧
    (¬ data.Closed host → ∃ e, fromDict host data sourcePath = .error e) ∧
    (¬ data.FrequenciesPositive → ¬ data.NaNFrequency →
      ∃ e, fromDict host data sourcePath = .error e) := by
  refine ⟨fun config h => ?_, fun hclosed => ?_, fun hfrequencies hnan => ?_⟩
  · obtain ⟨hclosed, hcomplete, hraw, hfrequencies, hrawFrequencies⟩ := fromDict_closed hdata h
    constructor
    · exact fun hall => hrawFrequencies.mp hall.2.2
    · exact fun hnan => ⟨⟨hclosed, hfrequencies.mpr hnan, hcomplete⟩, hraw,
        hrawFrequencies.mpr hnan⟩
  · cases h : fromDict host data sourcePath with
    | error e => exact ⟨e, rfl⟩
    | ok config => exact absurd (fromDict_closed hdata h).2.2.1 hclosed
  · cases h : fromDict host data sourcePath with
    | error e => exact ⟨e, rfl⟩
    | ok config =>
      exact absurd ((fromDict_closed hdata h).2.2.2.2.mpr hnan) hfrequencies

/-- The guarded arm with a frequency for its policy. -/
def timedArm (frequency : Value) : Value :=
  .dict [
    (.str "metadata", .dict [(.str "name", .str "test")]),
    (.str "groups", (guardedArm "joint_trajectory").lookup (.str "groups")),
    (.str "agents", .dict [(.str "Policy", .dict [
      (.str "source_role", .str "POLICY"),
      (.str "resources", .dict [(.str "arm", .str "joint_trajectory")]),
      (.str "frequency", frequency)])])]

theorem timedArm_selfContained (frequency : Value) : (timedArm frequency).SelfContained where
  routing := rfl
  recorder := fun ⟨_, heq, _⟩ => by cases heq

/-- The guarded arm with a gripper mounted on it, a group of both, a camera, and two agents. -/
def mountedGripper : Value :=
  .dict [
    (.str "metadata", .dict [(.str "name", .str "test")]),
    (.str "groups", .dict [
      (.str "arm",
        ((guardedArm "joint_trajectory").lookup (.str "groups")).lookup (.str "arm")),
      (.str "end_effector", .dict [
        (.str "type", .str "parallel_gripper"),
        (.str "joint_names", .list [.str "gripper_left_joint"]),
        (.str "parent_group", .str "arm"),
        (.str "controller_manager", .str "/controller_manager"),
        (.str "default_controller", .str "joint_space_reference"),
        (.str "controllers", .dict [(.str "joint_space_reference", .dict [
          (.str "name", .str "gripper_fwd"),
          (.str "implementation", .str "forward_command_controller/ForwardCommandController"),
          (.str "command_interface", .str "position"),
          (.str "ros_topics", .dict [(.str "joint_reference",
            .str "/execution/end_effector/joint_reference")])])])])]),
    (.str "compound_groups", .dict [(.str "manipulator", .dict [
      (.str "included_groups", .list [.str "arm", .str "end_effector"])])]),
    (.str "agents", .dict [
      (.str "Policy", .dict [
        (.str "source_role", .str "POLICY"),
        (.str "resources", .dict [(.str "arm", .str "joint_trajectory"),
          (.str "end_effector", .str "joint_reference")]),
        (.str "frequency", .int 30)]),
      (.str "Gripper", .dict [
        (.str "source_role", .str "TELEOP"),
        (.str "resources", .dict [(.str "end_effector", .str "joint_reference")])])]),
    (.str "sensors", .dict [(.str "cameras", .dict [(.str "wrist", .dict [
      (.str "ros_topic", .str "/wrist/image_raw"),
      (.str "resolution", .list [.int 480, .int 640])])])])]

theorem accepted_closed_gripper :
    ∃ config, fromDict bareHost mountedGripper none = .ok config ∧
      (config.Closed ∧ config.FrequenciesPositive ∧ config.Complete bareHost mountedGripper) ∧
      mountedGripper.Closed bareHost ∧ mountedGripper.FrequenciesPositive := by
  have hsome : (fromDict bareHost mountedGripper none).toOption.isSome = true := by
    decide +kernel
  obtain ⟨config, hconfig⟩ := accepted_of_isSome hsome
  have hdata : mountedGripper.SelfContained := ⟨rfl, fun ⟨_, heq, _⟩ => by cases heq⟩
  have hnan : ¬ mountedGripper.NaNFrequency := by
    rintro ⟨agent, hagent, hfrequency⟩
    rcases List.mem_pair.mp hagent with rfl | rfl
    · cases hfrequency
    · cases hfrequency
  exact ⟨config, hconfig, ((accepted_closed_iff hdata).1 config hconfig).mpr hnan⟩

/-- `.nan` passes for a frequency. -/
theorem nan_frequency_accepted :
    (timedArm (.float .nan)).SelfContained ∧
      ∃ config, fromDict bareHost (timedArm (.float .nan)) none = .ok config ∧
        ¬ config.FrequenciesPositive := by
  have hsome : (fromDict bareHost (timedArm (.float .nan)) none).toOption.isSome = true := by
    decide +kernel
  obtain ⟨config, hconfig⟩ := accepted_of_isSome hsome
  have hdata := timedArm_selfContained (.float .nan)
  refine ⟨hdata, config, hconfig, fun hall => ?_⟩
  refine (fromDict_closed hdata hconfig).2.2.2.1.mp hall ?_
  exact ⟨_, List.mem_singleton.mpr rfl, rfl⟩

end PhysicalAiRuntime.Config
