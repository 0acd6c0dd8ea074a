import PhysicalAiRuntime.Config.Contracts
import PhysicalAiRuntime.Apps.McapTimeline

/-! Which topics a replay follows. The profile declares a topic for the joint references of a part;
the loader makes one up from the name of the part. -/
namespace PhysicalAiRuntime.Apps
open Config
set_option autoImplicit false
set_option maxHeartbeats 250000

variable {α : Type} (within : Object → String → Except PyError Bool)

/-! ## What the profile declares -/

/-- A controller of the part declares the topic for its joint references. -/
def declares (part : PartConfig) (topic : String) : Bool :=
  part.controllers.entries.any fun c => c.2.rosTopics.get? "joint_reference" = some topic

def declaringParts (profile : EmbodimentConfig) (topic : String) : List Key :=
  (profile.parts.entries.filter fun e => declares e.2 topic).map Prod.fst

/-- An event for each part whose topic the message was recorded on. -/
def declaredEvents (profile : EmbodimentConfig) (m : McapMessage α) : List (ActionEvent α) :=
  match m.data.positions with
  | some positions =>
    (declaringParts profile m.topic).map fun part => ⟨m.logTime, part, positions⟩
  | none => []

/-- `action_events`, of which the timeline has a frame each. -/
def recordedEvents (profile : EmbodimentConfig) (messages : List (McapMessage α)) :
    Except PyError (List (ActionEvent α)) := do
  let topics ← topicToPart within profile.parts
  return (collect topics messages).actionEvents

/-- The timeline is built from the events of the declared topics, and from no others. -/
structure FollowsProfile (profile : EmbodimentConfig) (messages : List (McapMessage α)) :
    Prop where
  events : (recordedEvents within profile messages).toOption.getD [] =
    messages.flatMap (declaredEvents profile)
  timeline : messages.flatMap (declaredEvents profile) ≠ [] → ∀ (a : Rounding) (path : String),
    ∃ ordered t0 r, InLogOrder (messages.flatMap (declaredEvents profile)) ordered ∧
      LastValueJoin a.toArithmetic t0 ordered r ∧
      loadMcapTrajectory within a.toArithmetic path profile messages = .ok r

/-- The declared topics are those of the names: each belongs to the last part whose name stands
for it, and no name stands for another. -/
structure DeclaresNames (profile : EmbodimentConfig) : Prop where
  declared : ∀ part topic, part ∈ declaringParts profile topic →
    (profile.parts.keys.filter fun p =>
      actionTopic within p = .ok (some topic)).getLast? = some part
  named : ∀ part ∈ profile.parts.keys, ∀ topic, actionTopic within part = .ok (some topic) →
    declaringParts profile topic ≠ []

/-- Every key of a part can be searched for a text. -/
def Searchable (profile : EmbodimentConfig) : Prop :=
  ∀ part ∈ profile.parts.keys, ∃ topic, actionTopic within part = .ok topic

/-! ## The topics of a map -/

theorem nodup_declaringParts (profile : EmbodimentConfig) (topic : String) :
    (declaringParts profile topic).Nodup :=
  profile.parts.nodup.sublist (List.filter_sublist.map Prod.fst)

/-- The map agrees with the profile on a topic if it has the one part that declares it. -/
theorem declaringParts_iff {profile : EmbodimentConfig} {topics : Dict String Key}
    (h : topicToPart within profile.parts = .ok topics) :
    (∀ topic, declaringParts profile topic = (topics.get? topic).toList) ↔
      DeclaresNames within profile := by
  obtain ⟨hread, hget⟩ := topicToPart_ok within h
  constructor
  · intro hall
    refine ⟨fun part topic hpart => ?_, fun part hpart topic htopic => ?_⟩
    · rw [hall, Option.mem_toList, hget] at hpart
      exact hpart
    · have hmem : part ∈ profile.parts.keys.filter fun p =>
          actionTopic within p = .ok (some topic) :=
        List.mem_filter.mpr ⟨hpart, decide_eq_true htopic⟩
      rw [hall, hget]
      cases hlast : (profile.parts.keys.filter fun p =>
          actionTopic within p = .ok (some topic)).getLast? with
      | none =>
        rw [List.getLast?_eq_none_iff.mp hlast] at hmem
        cases hmem
      | some last => exact List.cons_ne_nil last []
  · intro ⟨hdeclared, hnamed⟩ topic
    have honly : ∀ part ∈ declaringParts profile topic, topics.get? topic = some part := by
      intro part hpart
      rw [hget]
      exact hdeclared part topic hpart
    cases hlist : declaringParts profile topic with
    | nil =>
      cases hfound : topics.get? topic with
      | none => rfl
      | some part =>
        rw [hget] at hfound
        obtain ⟨hpart, htopic⟩ := List.mem_filter.mp (List.mem_of_getLast? hfound)
        exact absurd hlist (hnamed part hpart topic (of_decide_eq_true htopic))
    | cons part rest =>
      have hfound := honly part (hlist ▸ List.mem_cons_self)
      have hnodup := nodup_declaringParts profile topic
      rw [hlist, List.nodup_cons] at hnodup
      have hrest : rest = [] := by
        apply List.eq_nil_iff_forall_not_mem.mpr
        intro other hother
        have hsame := honly other (hlist ▸ List.mem_cons_of_mem part hother)
        rw [hfound] at hsame
        cases hsame
        exact hnodup.1 hother
      rw [hfound, hrest]
      rfl

theorem jointReference_injective {s t : String}
    (h : jointReference (.str s) = jointReference (.str t)) : s = t := by
  have hlist := congrArg String.toList h
  unfold jointReference at hlist
  simp only [String.toList_append, Key.text] at hlist
  exact String.toList_injective
    (List.append_cancel_left (List.append_cancel_right hlist))

theorem mem_keys_of_declares {profile : EmbodimentConfig} {part : Key} {topic : String}
    (h : part ∈ declaringParts profile topic) : part ∈ profile.parts.keys := by
  obtain ⟨e, he, hkey⟩ := List.mem_map.mp h
  exact List.mem_map.mpr ⟨e, (List.mem_filter.mp he).1, hkey⟩

/-- Among parts with names, a topic stands for one name only. -/
theorem declaresNames_iff_of_strings {profile : EmbodimentConfig}
    (hstr : ∀ part ∈ profile.parts.keys, ∃ s, part = .str s) :
    DeclaresNames within profile ↔ ∀ part ∈ profile.parts.keys, ∀ topic,
      (part ∈ declaringParts profile topic ↔ actionTopic within part = .ok (some topic)) := by
  have hlast : ∀ part ∈ profile.parts.keys, ∀ topic,
      actionTopic within part = .ok (some topic) ↔
        (profile.parts.keys.filter fun p =>
          actionTopic within p = .ok (some topic)).getLast? = some part := by
    intro part hpart topic
    constructor
    · intro htopic
      have hmem := List.mem_filter (p := fun p => decide (actionTopic within p = .ok (some topic))).mpr
        ⟨hpart, decide_eq_true htopic⟩
      cases hget : (profile.parts.keys.filter fun p =>
          actionTopic within p = .ok (some topic)).getLast? with
      | none =>
        rw [List.getLast?_eq_none_iff.mp hget] at hmem
        cases hmem
      | some last =>
        obtain ⟨hlast, hlastTopic⟩ := List.mem_filter.mp (List.mem_of_getLast? hget)
        obtain ⟨s, rfl⟩ := hstr part hpart
        obtain ⟨t, rfl⟩ := hstr last hlast
        have hsame := (actionTopic_eq within (of_decide_eq_true hlastTopic)).symm.trans
          (actionTopic_eq within htopic)
        rw [jointReference_injective hsame]
    · intro hget
      exact of_decide_eq_true (List.mem_filter.mp (List.mem_of_getLast? hget)).2
  constructor
  · intro h part hpart topic
    constructor
    · intro hdeclares
      exact (hlast part hpart topic).mpr (h.declared part topic hdeclares)
    · intro htopic
      obtain ⟨other, hother⟩ := List.exists_mem_of_ne_nil _ (h.named part hpart topic htopic)
      have hsame := (h.declared other topic hother).symm.trans ((hlast part hpart topic).mp htopic)
      exact Option.some.inj hsame ▸ hother
  · intro h
    refine ⟨fun part topic hdeclares => ?_, fun part hpart topic htopic => ?_⟩
    · have hpart := mem_keys_of_declares hdeclares
      exact (hlast part hpart topic).mp ((h part hpart topic).mp hdeclares)
    · exact List.ne_nil_of_mem ((h part hpart topic).mpr htopic)

/-! ## The events of a recording -/

theorem recordedEvents_ok {profile : EmbodimentConfig} {topics : Dict String Key}
    (h : topicToPart within profile.parts = .ok topics) (messages : List (McapMessage α)) :
    recordedEvents within profile messages = .ok (messages.filterMap (actionEvent topics)) := by
  unfold recordedEvents
  rw [h, ← collect_actionEvents]
  rfl

theorem actionEvent_eq_declared {profile : EmbodimentConfig} {topics : Dict String Key}
    {m : McapMessage α} (h : declaringParts profile m.topic = (topics.get? m.topic).toList) :
    (actionEvent topics m).toList = declaredEvents profile m := by
  unfold actionEvent declaredEvents
  rw [h]
  cases topics.get? m.topic with
  | none => cases m.data.positions <;> rfl
  | some part => cases m.data.positions <;> rfl

theorem filterMap_eq_declared {profile : EmbodimentConfig} {topics : Dict String Key}
    (h : ∀ topic, declaringParts profile topic = (topics.get? topic).toList)
    (messages : List (McapMessage α)) :
    messages.filterMap (actionEvent topics) = messages.flatMap (declaredEvents profile) := by
  rw [List.filterMap_eq_flatMap_toList]
  congr 1
  funext m
  exact actionEvent_eq_declared (h m.topic)

/-- A message with one point, which has no positions. -/
def probe (topic : String) : McapMessage α := ⟨topic, 0, ⟨some [[]], none, none⟩⟩

theorem probe_declared (profile : EmbodimentConfig) (topic : String) :
    (([probe topic] : List (McapMessage α)).flatMap (declaredEvents profile)).map
      ActionEvent.part = declaringParts profile topic := by
  rw [List.flatMap_singleton]
  change ((declaringParts profile topic).map fun part => (⟨0, part, []⟩ : ActionEvent α)).map _ = _
  rw [List.map_map]
  exact List.map_id _

theorem probe_recorded (topics : Dict String Key) (topic : String) :
    (([probe topic] : List (McapMessage α)).filterMap (actionEvent topics)).map ActionEvent.part =
      (topics.get? topic).toList := by
  rw [List.filterMap_eq_flatMap_toList, List.flatMap_singleton]
  unfold actionEvent
  change (((topics.get? topic).bind fun part => some (⟨0, part, []⟩ : ActionEvent α)).toList).map
    _ = _
  cases topics.get? topic <;> rfl

/-! ## Replay topics -/

/-- **Replay topics.** Every recording is replayed as the profile declares it if and only if the
declared topics are those of the part names, or nothing is declared beside a part whose key cannot
be searched. -/
theorem replay_follows_profile_iff (profile : EmbodimentConfig) :
    (∀ messages : List (McapMessage α), FollowsProfile within profile messages) ↔
      (Searchable within profile ∧ DeclaresNames within profile) ∨
        (¬ Searchable within profile ∧ ∀ topic, declaringParts profile topic = []) := by
  cases htopics : topicToPart within profile.parts with
  | ok topics =>
    have hsearch : Searchable within profile := (topicToPart_ok within htopics).1
    rw [← declaringParts_iff within htopics]
    constructor
    · intro hall
      refine Or.inl ⟨hsearch, fun topic => ?_⟩
      have hevents := (hall [probe topic]).events
      rw [recordedEvents_ok within htopics] at hevents
      have hparts := congrArg (List.map ActionEvent.part) hevents
      rw [probe_declared] at hparts
      rw [← hparts]
      exact probe_recorded topics topic
    · intro hcondition messages
      have hmap := (hcondition.resolve_right fun h => h.1 hsearch).2
      have hevents := filterMap_eq_declared hmap messages
      refine ⟨?_, fun hne a path => ?_⟩
      · rw [recordedEvents_ok within htopics]
        exact hevents
      · obtain ⟨ordered, t0, r, horder, hjoin, hload⟩ := load_join within a path htopics hne
        exact ⟨ordered, t0, r, horder, hjoin, hload messages hevents⟩
  | error e =>
    have hsearch : ¬ Searchable within profile := by
      intro h
      obtain ⟨topics, hok⟩ := topicToPart_readable within h
      rw [htopics] at hok
      cases hok
    have hnone : ∀ messages : List (McapMessage α),
        (recordedEvents within profile messages).toOption.getD [] = [] := by
      intro messages
      unfold recordedEvents
      rw [htopics]
      rfl
    constructor
    · intro hall
      refine Or.inr ⟨hsearch, fun topic => ?_⟩
      rw [← probe_declared (α := α), ← (hall [probe topic]).events, hnone]
      rfl
    · intro hcondition messages
      have hempty := (hcondition.resolve_left fun h => hsearch h.1).2
      have hdeclared : messages.flatMap (declaredEvents profile) = [] := by
        rw [List.flatMap_eq_nil_iff]
        intro m _
        unfold declaredEvents
        rw [hempty]
        cases m.data.positions <;> rfl
      exact ⟨by rw [hnone, hdeclared], fun hne => absurd hdeclared hne⟩

/-- One part with a streaming controller. -/
def streamingPart (part topic : String) : Value :=
  .dict [
    (.str "metadata", .dict [(.str "name", .str "test")]),
    (.str "groups", .dict [(.str part, .dict [
      (.str "type", .str "arm"),
      (.str "joint_names", .list [.str "joint_1"]),
      (.str "controller_manager", .str "/controller_manager"),
      (.str "default_controller", .str "joint_position"),
      (.str "controllers", .dict [(.str "joint_position", .dict [
        (.str "name", .str "streaming"),
        (.str "implementation", .str "joint_space_controllers/JointSpacePositionController"),
        (.str "command_interface", .str "position"),
        (.str "ros_topics", .dict [(.str "joint_reference", .str topic)])])])])])]

def torsoReference : McapMessage ℚ :=
  ⟨"/execution/torso/joint_reference", 0, ⟨some [[1]], none, none⟩⟩

/-- The motion of a torso is dropped from its replay. -/
theorem torso_not_replayed : ∃ config,
    fromDict bareHost (streamingPart "torso" "/execution/torso/joint_reference") none =
      .ok config ∧
    declaringParts config "/execution/torso/joint_reference" = [.str "torso"] ∧
    recordedEvents notIterable config [torsoReference] = .ok [] ∧
    ¬ FollowsProfile notIterable config [torsoReference] := by
  have hcheck : (fromDict bareHost (streamingPart "torso" "/execution/torso/joint_reference")
      none).toOption.any (fun config =>
        declaringParts config "/execution/torso/joint_reference" = [.str "torso"] ∧
          topicToPart notIterable config.parts = .ok Dict.empty) = true := by
    decide +kernel
  obtain ⟨config, hconfig, hfacts⟩ := Option.any_eq_true _ _ |>.mp hcheck
  obtain ⟨hdeclared, htopics⟩ := of_decide_eq_true hfacts
  have hrecorded : recordedEvents notIterable config [torsoReference] = .ok [] :=
    recordedEvents_ok notIterable htopics [torsoReference]
  refine ⟨config, ?_, hdeclared, hrecorded, fun h => ?_⟩
  · cases hresult : fromDict bareHost
      (streamingPart "torso" "/execution/torso/joint_reference") none with
    | error e =>
      rw [hresult] at hconfig
      cases hconfig
    | ok c =>
      rw [hresult] at hconfig
      cases hconfig
      rfl
  · have hevents := h.events
    rw [hrecorded, List.flatMap_singleton] at hevents
    unfold declaredEvents at hevents
    change [] = (declaringParts config "/execution/torso/joint_reference").map _ at hevents
    rw [hdeclared] at hevents
    cases hevents

end PhysicalAiRuntime.Apps
