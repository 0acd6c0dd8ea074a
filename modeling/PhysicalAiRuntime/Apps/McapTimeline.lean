import PhysicalAiRuntime.Foundations.Sort
import PhysicalAiRuntime.Config.Profile
import PhysicalAiRuntime.Apps.Homing

/-! `load_mcap_trajectory` of the replay application: from the messages of a recording to the
timeline that is sent to the robot. The recorded frames are the last-value join of the part
streams. -/
namespace PhysicalAiRuntime.Apps
open Config
set_option autoImplicit false
set_option maxHeartbeats 250000

/-- Floating-point arithmetic that rounds in order. -/
structure Rounding extends Arithmetic where
  monotone : Monotone round

def exactRounding : Rounding := ⟨Homing.exactArithmetic, monotone_id⟩

variable {α : Type}

/-- What the deserializers make of the bytes of a message, `none` where one raises: the positions
of the points of a `JointTrajectory`, the data of a `Float64MultiArray`, the names and positions
of a `JointState`. -/
structure MessageData (α : Type) where
  jointTrajectory : Option (List (List α))
  float64MultiArray : Option (List α)
  jointState : Option (List String × List α)

structure McapMessage (α : Type) where
  topic : String
  logTime : ℕ
  data : MessageData α

structure ActionEvent (α : Type) where
  logTime : ℕ
  part : Key
  positions : List α

structure StateEvent (α : Type) where
  logTime : ℕ
  nameToPos : Dict String α

/-! ## The topic map -/

/-- `text in part_name`; `within` answers for a key that is neither a string nor a number. -/
def contains (within : Object → String → Except PyError Bool) (text : String) :
    Key → Except PyError Bool
  | .str s => .ok (text.toList <:+: s.toList)
  | .int _ => .error ⟨.typeError, "argument of type 'int' is not iterable"⟩
  | .other object => within object text

variable (within : Object → String → Except PyError Bool)

def jointReference (part : Key) : String := "/execution/" ++ part.text ++ "/joint_reference"

/-- The topic that the loop over the parts maps a part to. -/
def actionTopic (part : Key) : Except PyError (Option String) := do
  if ← contains within "arm" part then return some (jointReference part)
  else if ← contains within "gripper" part then return some (jointReference part)
  else if part = .str "end_effector" then return some "/execution/end_effector/joint_reference"
  else return none

def mapParts : List Key → Dict Key String → Except PyError (Dict Key String)
  | [], topics => .ok topics
  | part :: parts, topics => do
    match ← actionTopic within part with
    | some topic => mapParts parts (topics.set part topic)
    | none => mapParts parts topics

def partToActionTopic (parts : Dict Key PartConfig) : Except PyError (Dict Key String) := do
  let topics ← mapParts within parts.keys Dict.empty
  if .str "arm" ∈ parts.keys ∧ .str "arm" ∉ topics.keys then
    return topics.set (.str "arm") "/execution/arm/joint_reference"
  else return topics

def topicToPart (parts : Dict Key PartConfig) : Except PyError (Dict String Key) := do
  let topics ← partToActionTopic within parts
  return Dict.ofPairs (topics.entries.map Prod.swap)

/-! ## The streams -/

def jointStateTopics : List String := ["/joint_states", "/robot/joint_states"]

/-- The positions of an action message: the fallback is for a message that does not decode. -/
def MessageData.positions (data : MessageData α) : Option (List α) :=
  match data.jointTrajectory with
  | some points => points.getLast?
  | none => data.float64MultiArray.filter fun values => values ≠ []

def MessageData.nameToPos (data : MessageData α) : Option (Dict String α) :=
  match data.jointState with
  | some (name, position) =>
    if name ≠ [] ∧ position ≠ [] then some (Dict.ofPairs (name.zip position)) else none
  | none => none

structure Streams (α : Type) where
  actionEvents : List (ActionEvent α)
  stateEvents : List (StateEvent α)

def Streams.receive (topics : Dict String Key) (streams : Streams α) (m : McapMessage α) :
    Streams α :=
  match topics.get? m.topic with
  | some part =>
    match m.data.positions with
    | some positions =>
      { streams with actionEvents := streams.actionEvents ++ [⟨m.logTime, part, positions⟩] }
    | none => streams
  | none =>
    if m.topic ∈ jointStateTopics then
      match m.data.nameToPos with
      | some nameToPos =>
        { streams with stateEvents := streams.stateEvents ++ [⟨m.logTime, nameToPos⟩] }
      | none => streams
    else streams

def collect (topics : Dict String Key) (messages : List (McapMessage α)) : Streams α :=
  messages.foldl (Streams.receive topics) ⟨[], []⟩

/-! ## The timeline -/

structure Frame (α : Type) where
  relTime : ℚ
  parts : Dict Key (List α)

structure Trajectory (α : Type) where
  timeline : List (Frame α)
  nativeHz : ℚ
  startPoses : Dict Key (List α)

/-- `(log_time - t0) / 1e9`. -/
def seconds (a : Arithmetic) (t0 logTime : ℕ) : ℚ :=
  a.round (a.round ((logTime : ℤ) - (t0 : ℤ) : ℤ) / 1000000000)

/-- `round(x, 1)`. -/
def roundTenth (a : Arithmetic) (x : ℚ) : ℚ := a.round (roundHalfEven (10 * x) / 10)

def partCounts (events : List (ActionEvent α)) : Dict Key ℕ :=
  events.foldl (fun counts e => counts.set e.part ((counts.get? e.part).getD 0 + 1)) Dict.empty

/-- The first of the parts with the most events, and its count. -/
def primaryPart (counts : Dict Key ℕ) : Option (Key × ℕ) :=
  counts.entries.foldl (fun best e => match best with
    | some b => some (if b.2 < e.2 then e else b)
    | none => some e) none

def totalPrimaryFrames (events : List (ActionEvent α)) : ℕ :=
  ((primaryPart (partCounts events)).map Prod.snd).getD 0

def actionHz (a : Arithmetic) (t0 : ℕ) (events : List (ActionEvent α)) : ℚ :=
  let durationS := seconds a t0 ((events.getLast?.map ActionEvent.logTime).getD t0)
  roundTenth a (a.round (totalPrimaryFrames events / max durationS (a.round (1 / 100))))

/-- The variables of the loop over the events. -/
structure Join (α : Type) where
  currentPartPoses : Dict Key (List α)
  startPoses : Dict Key (List α)
  timeline : List (Frame α)

/-- A frame holds a copy of the current poses. -/
def Join.add (a : Arithmetic) (t0 : ℕ) (j : Join α) (e : ActionEvent α) : Join α :=
  let current := j.currentPartPoses.set e.part e.positions
  ⟨current, j.startPoses.setIfAbsent e.part e.positions,
    j.timeline ++ [⟨seconds a t0 e.logTime, current⟩]⟩

def Join.start : Join α := ⟨Dict.empty, Dict.empty, []⟩

def actionTrajectory (a : Arithmetic) (t0 : ℕ) (events : List (ActionEvent α)) : Trajectory α :=
  let join := events.foldl (Join.add a t0) Join.start
  ⟨join.timeline, actionHz a t0 events, join.startPoses⟩

/-- The parts of a joint-state frame: those all of whose joints it names. -/
def frameParts (parts : Dict Key PartConfig) (nameToPos : Dict String α) :
    List (Key × List α) :=
  parts.entries.filterMap fun e => (e.2.jointNames.mapM nameToPos.get?).map fun pos => (e.1, pos)

def stateFrame (a : Arithmetic) (parts : Dict Key PartConfig) (t0 : ℕ) (e : StateEvent α) :
    Frame α :=
  ⟨seconds a t0 e.logTime, Dict.ofPairs (frameParts parts e.nameToPos)⟩

def stateHz (a : Arithmetic) (timeline : List (Frame α)) : ℚ :=
  let durationS := (timeline.getLast?.map Frame.relTime).getD 0
  if a.round (1 / 100) < durationS ∧ 1 < timeline.length then
    roundTenth a (a.round (((timeline.length : ℤ) - 1 : ℤ) / durationS))
  else 50

def stateTrajectory (a : Arithmetic) (parts : Dict Key PartConfig) (t0 : ℕ)
    (events : List (StateEvent α)) : Trajectory α :=
  let timeline := events.map (stateFrame a parts t0)
  ⟨timeline, stateHz a timeline,
    (events.flatMap fun e => frameParts parts e.nameToPos).foldl
      (fun poses e => poses.setIfAbsent e.1 e.2) Dict.empty⟩

/-- Joint states are the fallback of a recording without action events. -/
def resolve (a : Arithmetic) (path : String) (parts : Dict Key PartConfig) (streams : Streams α) :
    Except PyError (Trajectory α) :=
  match sortBy ActionEvent.logTime streams.actionEvents,
      sortBy StateEvent.logTime streams.stateEvents with
  | first :: events, _ => .ok (actionTrajectory a first.logTime (first :: events))
  | [], first :: events => .ok (stateTrajectory a parts first.logTime (first :: events))
  | [], [] =>
    .error ⟨.runtimeError, "No valid Joint references or JointStates found in " ++ path⟩

def loadMcapTrajectory (a : Arithmetic) (path : String) (profile : EmbodimentConfig)
    (messages : List (McapMessage α)) : Except PyError (Trajectory α) := do
  let topics ← topicToPart within profile.parts
  resolve a path profile.parts (collect topics messages)

/-! ## What the streams hold -/

/-- The event that a message contributes. -/
def actionEvent (topics : Dict String Key) (m : McapMessage α) : Option (ActionEvent α) :=
  (topics.get? m.topic).bind fun part =>
    m.data.positions.map fun positions => ⟨m.logTime, part, positions⟩

theorem receive_actionEvents (topics : Dict String Key) (streams : Streams α) (m : McapMessage α) :
    (streams.receive topics m).actionEvents =
      streams.actionEvents ++ (actionEvent topics m).toList := by
  unfold Streams.receive actionEvent
  cases topics.get? m.topic with
  | some part => cases m.data.positions <;> simp
  | none =>
    by_cases hstate : m.topic ∈ jointStateTopics
    · rw [if_pos hstate]
      cases m.data.nameToPos <;> simp
    · rw [if_neg hstate]
      simp

theorem collect_actionEvents (topics : Dict String Key) (messages : List (McapMessage α)) :
    (collect topics messages).actionEvents = messages.filterMap (actionEvent topics) := by
  have h := Trace.run_collect_filterMap (receive_actionEvents topics) ⟨[], []⟩ messages
  rw [List.nil_append] at h
  exact h

/-- The joint states that a message contributes to the fallback. -/
def stateEvent (topics : Dict String Key) (m : McapMessage α) : Option (StateEvent α) :=
  if topics.get? m.topic = none ∧ m.topic ∈ jointStateTopics then
    m.data.nameToPos.map fun nameToPos => ⟨m.logTime, nameToPos⟩
  else none

theorem receive_stateEvents (topics : Dict String Key) (streams : Streams α) (m : McapMessage α) :
    (streams.receive topics m).stateEvents =
      streams.stateEvents ++ (stateEvent topics m).toList := by
  unfold Streams.receive stateEvent
  cases topics.get? m.topic with
  | some part => cases m.data.positions <;> simp
  | none =>
    by_cases hstate : m.topic ∈ jointStateTopics
    · rw [if_pos hstate, if_pos ⟨rfl, hstate⟩]
      cases m.data.nameToPos <;> simp
    · rw [if_neg hstate, if_neg fun h => hstate h.2]
      simp

theorem collect_stateEvents (topics : Dict String Key) (messages : List (McapMessage α)) :
    (collect topics messages).stateEvents = messages.filterMap (stateEvent topics) := by
  have h := Trace.run_collect_filterMap (receive_stateEvents topics) ⟨[], []⟩ messages
  rw [List.nil_append] at h
  exact h

/-! ## What the loop builds -/

def pose (e : ActionEvent α) : Key × List α := (e.part, e.positions)

theorem lookup_eq_head? {κ ν : Type} [DecidableEq κ] (pairs : List (κ × ν)) (k : κ) :
    pairs.lookup k = (pairs.filter fun e => e.1 = k).head?.map Prod.snd := by
  induction pairs with
  | nil => rfl
  | cons e pairs ih =>
    rw [Dict.lookup_cons_ite]
    by_cases hk : e.1 = k
    · rw [if_pos hk.symm, List.filter_cons_of_pos (by simpa using hk)]
      rfl
    · rw [if_neg (Ne.symm hk), List.filter_cons_of_neg (by simpa using hk), ih]

theorem filter_pose (events : List (ActionEvent α)) (part : Key) :
    (events.map pose).filter (fun e => e.1 = part) =
      (events.filter fun e => e.part = part).map pose := by
  rw [List.filter_map]
  rfl

theorem join_current (a : Arithmetic) (t0 : ℕ) (events : List (ActionEvent α)) :
    (events.foldl (Join.add a t0) Join.start).currentPartPoses = Dict.ofPairs (events.map pose) := by
  induction events using List.reverseRecOn with
  | nil => rfl
  | append_singleton es e ih =>
    rw [List.foldl_append, List.foldl_cons, List.foldl_nil, List.map_append]
    change Dict.set _ _ _ = _
    rw [ih]
    unfold Dict.ofPairs
    rw [List.foldl_append]
    rfl

theorem join_startPoses (a : Arithmetic) (t0 : ℕ) (events : List (ActionEvent α)) :
    (events.foldl (Join.add a t0) Join.start).startPoses =
      (events.map pose).foldl (fun poses e => poses.setIfAbsent e.1 e.2) Dict.empty := by
  induction events using List.reverseRecOn with
  | nil => rfl
  | append_singleton es e ih =>
    rw [List.foldl_append, List.foldl_cons, List.foldl_nil, List.map_append, List.foldl_append]
    change Dict.setIfAbsent _ _ _ = _
    rw [ih]
    rfl

/-- The frame of the last of the events so far. -/
def frameAfter (a : Arithmetic) (t0 : ℕ) (sofar : List (ActionEvent α)) (e : ActionEvent α) :
    Frame α := ⟨seconds a t0 e.logTime, Dict.ofPairs (sofar.map pose)⟩

theorem join_timeline (a : Arithmetic) (t0 : ℕ) (events : List (ActionEvent α)) (i : ℕ) :
    (events.foldl (Join.add a t0) Join.start).timeline[i]? =
      events[i]?.map (frameAfter a t0 (events.take (i + 1))) := by
  have hlength : ∀ es : List (ActionEvent α),
      (es.foldl (Join.add a t0) Join.start).timeline.length = es.length := by
    intro es
    induction es using List.reverseRecOn with
    | nil => rfl
    | append_singleton es e ih =>
      rw [List.foldl_append, List.foldl_cons, List.foldl_nil, List.length_append, ← ih]
      exact List.length_append
  induction events using List.reverseRecOn with
  | nil => rfl
  | append_singleton es e ih =>
    have hadd : ((es ++ [e]).foldl (Join.add a t0) Join.start).timeline =
        (es.foldl (Join.add a t0) Join.start).timeline ++
          [frameAfter a t0 (es ++ [e]) e] := by
      rw [frameAfter, ← join_current a t0, List.foldl_append, List.foldl_cons, List.foldl_nil]
      rfl
    rw [hadd]
    rcases Nat.lt_trichotomy i es.length with hi | hi | hi
    · rw [List.getElem?_append_left (by rw [hlength]; exact hi), ih,
        List.getElem?_append_left hi, List.take_append_of_le_length (by omega)]
    · subst hi
      rw [List.getElem?_append_right (by rw [hlength]), hlength,
        List.getElem?_append_right (Nat.le_refl _), Nat.sub_self, List.take_of_length_le (by simp)]
      rfl
    · rw [List.getElem?_eq_none (by rw [List.length_append, hlength, List.length_singleton]; omega),
        List.getElem?_eq_none (by rw [List.length_append, List.length_singleton]; omega)]
      rfl

theorem seconds_self (a : Arithmetic) (t0 : ℕ) : seconds a t0 t0 = 0 := by
  have hzero : a.round 0 = 0 := by
    simpa using a.exact 0 (by decide)
  unfold seconds
  rw [sub_self, Int.cast_zero, hzero, zero_div, hzero]

theorem seconds_mono (a : Rounding) (t0 : ℕ) {t u : ℕ} (h : t ≤ u) :
    seconds a.toArithmetic t0 t ≤ seconds a.toArithmetic t0 u := by
  have hdiff : (t : ℤ) - (t0 : ℤ) ≤ (u : ℤ) - (t0 : ℤ) := by
    omega
  unfold seconds
  apply a.monotone
  exact div_le_div_of_nonneg_right (a.monotone (Int.cast_le.mpr hdiff)) (by norm_num)

/-! ## Last-value join -/

/-- `ordered` holds the events of `given` in stable log-time order. -/
structure InLogOrder (given ordered : List (ActionEvent α)) : Prop where
  perm : ordered.Perm given
  sorted : ordered.Pairwise fun e f => e.logTime ≤ f.logTime
  stable : ∀ t, ordered.filter (fun e => e.logTime = t) = given.filter fun e => e.logTime = t

/-- One frame for each event, with the latest positions of each part so far. The difference of two
log times is rounded to a float before it is divided. -/
structure LastValueJoin (a : Arithmetic) (t0 : ℕ) (events : List (ActionEvent α))
    (r : Trajectory α) : Prop where
  earliest : (∃ e ∈ events, e.logTime = t0) ∧ ∀ e ∈ events, t0 ≤ e.logTime
  length : r.timeline.length = events.length
  times : r.timeline.map Frame.relTime = events.map fun e =>
    a.round (a.round ((e.logTime : ℤ) - (t0 : ℤ) : ℤ) / 1000000000)
  fromZero : r.timeline.head?.map Frame.relTime = some 0
  ordered : r.timeline.Pairwise fun f g => f.relTime ≤ g.relTime
  latest : ∀ i f, r.timeline[i]? = some f → ∀ part, f.parts.get? part =
    ((events.take (i + 1)).filter fun e => e.part = part).getLast?.map ActionEvent.positions
  kept : ∀ n, (actionTrajectory a t0 (events.take n)).timeline = r.timeline.take n
  startPoses : ∀ part, r.startPoses.get? part =
    (events.filter fun e => e.part = part).head?.map ActionEvent.positions

theorem lastValueJoin_actionTrajectory (a : Rounding) {first : ActionEvent α}
    {events : List (ActionEvent α)}
    (hsorted : (first :: events).Pairwise fun e f => e.logTime ≤ f.logTime) :
    LastValueJoin a.toArithmetic first.logTime (first :: events)
      (actionTrajectory a.toArithmetic first.logTime (first :: events)) := by
  have hframes : ∀ (es : List (ActionEvent α)) (i : ℕ),
      (actionTrajectory a.toArithmetic first.logTime es).timeline[i]? =
      es[i]?.map (frameAfter a.toArithmetic first.logTime (es.take (i + 1))) :=
    join_timeline a.toArithmetic first.logTime
  have htimes : (actionTrajectory a.toArithmetic first.logTime (first :: events)).timeline.map
      Frame.relTime = (first :: events).map fun e => seconds a.toArithmetic first.logTime e.logTime := by
    apply List.ext_getElem?
    intro i
    rw [List.getElem?_map, List.getElem?_map, hframes, Option.map_map]
    rfl
  have hleast : ∀ e ∈ first :: events, first.logTime ≤ e.logTime := by
    intro e he
    cases List.mem_cons.mp he with
    | inl heq => rw [heq]
    | inr hmem => exact (List.pairwise_cons.mp hsorted).1 e hmem
  refine ⟨⟨⟨first, List.mem_cons_self, rfl⟩, hleast⟩, ?_, htimes, ?_, ?_, ?_, ?_, ?_⟩
  · simpa using congrArg List.length htimes
  · rw [← List.head?_map, htimes, List.map_cons, List.head?_cons, seconds_self]
  · rw [← List.pairwise_map (R := fun x y => x ≤ y), htimes, List.pairwise_map]
    exact hsorted.imp fun h => seconds_mono a first.logTime h
  · intro i f hf part
    rw [hframes] at hf
    obtain ⟨e, -, hf⟩ := Option.map_eq_some_iff.mp hf
    rw [← hf]
    change (Dict.ofPairs _).get? part = _
    rw [Dict.get?_ofPairs, lookup_eq_head?, List.filter_reverse, List.head?_reverse, filter_pose,
      List.getLast?_map, Option.map_map]
    rfl
  · intro n
    apply List.ext_getElem?
    intro i
    rw [hframes, List.getElem?_take, List.getElem?_take, hframes]
    by_cases hi : i < n
    · rw [if_pos hi, if_pos hi, List.take_take, Nat.min_eq_left (by omega)]
    · rw [if_neg hi, if_neg hi]
      rfl
  · intro part
    change (((first :: events).foldl _ _ : Join α).startPoses).get? part = _
    rw [join_startPoses, Dict.get?_foldl_setIfAbsent, Dict.get?_empty, Option.none_or,
      lookup_eq_head?, filter_pose, List.head?_map, Option.map_map]
    rfl

/-! ## What the topic map holds -/

theorem actionTopic_eq {part : Key} {topic : String}
    (h : actionTopic within part = .ok (some topic)) : topic = jointReference part := by
  obtain ⟨arm, -, h⟩ := except_bind_ok h
  cases arm with
  | true =>
    cases h
    rfl
  | false =>
    obtain ⟨gripper, -, h⟩ := except_bind_ok h
    cases gripper with
    | true =>
      cases h
      rfl
    | false =>
      change (if part = .str "end_effector" then _ else _) = _ at h
      by_cases hend : part = .str "end_effector"
      · subst hend
        cases h
        rfl
      · rw [if_neg hend] at h
        cases h

/-- A part with its topic, if it is mapped to one. -/
def mapped (part : Key) : Option (Key × String) :=
  match actionTopic within part with
  | .ok (some topic) => some (part, topic)
  | _ => none

theorem mapped_eq_some {part : Key} {e : Key × String} :
    mapped within part = some e ↔ e.1 = part ∧ actionTopic within part = .ok (some e.2) := by
  obtain ⟨key, topic⟩ := e
  unfold mapped
  cases actionTopic within part with
  | error e => simp
  | ok found =>
    cases found with
    | none => simp
    | some t => simp [eq_comm]

/-- The loop over the parts appends the mapped ones. -/
theorem mapParts_ok {parts : List Key} {topics result : Dict Key String} (hn : parts.Nodup)
    (hnew : ∀ part ∈ parts, part ∉ topics.keys) (h : mapParts within parts topics = .ok result) :
    (∀ part ∈ parts, ∃ topic, actionTopic within part = .ok topic) ∧
      result.entries = topics.entries ++ parts.filterMap (mapped within) := by
  induction parts generalizing topics with
  | nil =>
    cases h
    simp
  | cons part parts ih =>
    rw [List.nodup_cons] at hn
    have hrest : ∀ p ∈ parts, p ∉ topics.keys := fun p hp => hnew p (List.mem_cons_of_mem part hp)
    obtain ⟨found, hfound, h⟩ := except_bind_ok h
    cases found with
    | none =>
      obtain ⟨hread, hentries⟩ := ih hn.2 hrest h
      refine ⟨List.forall_mem_cons.mpr ⟨⟨none, hfound⟩, hread⟩, ?_⟩
      rw [hentries, List.filterMap_cons_none]
      unfold mapped
      rw [hfound]
    | some topic =>
      have hpart := hnew part List.mem_cons_self
      have hset : ∀ p ∈ parts, p ∉ (topics.set part topic).keys := by
        intro p hp hmem
        unfold Dict.keys at hmem
        rw [Dict.entries_set hpart, List.map_append, List.mem_append] at hmem
        cases hmem with
        | inl hold => exact hrest p hp hold
        | inr hlast =>
          have heq : p = part := List.mem_singleton.mp hlast
          exact hn.1 (heq ▸ hp)
      obtain ⟨hread, hentries⟩ := ih hn.2 hset h
      refine ⟨List.forall_mem_cons.mpr ⟨⟨some topic, hfound⟩, hread⟩, ?_⟩
      rw [hentries, Dict.entries_set hpart, List.append_assoc, List.singleton_append]
      congr 1
      exact (List.filterMap_cons_some ((mapped_eq_some within).mpr ⟨rfl, hfound⟩)).symm

theorem mapParts_readable {parts : List Key} (topics : Dict Key String)
    (h : ∀ part ∈ parts, ∃ topic, actionTopic within part = .ok topic) :
    ∃ result, mapParts within parts topics = .ok result := by
  induction parts generalizing topics with
  | nil => exact ⟨topics, rfl⟩
  | cons part parts ih =>
    obtain ⟨⟨found, hfound⟩, hrest⟩ := List.forall_mem_cons.mp h
    unfold mapParts
    rw [hfound]
    cases found with
    | none => exact ih topics hrest
    | some topic => exact ih (topics.set part topic) hrest

/-- A part named `arm` is mapped by the loop already. -/
theorem actionTopic_arm :
    actionTopic within (.str "arm") = .ok (some "/execution/arm/joint_reference") := rfl

theorem partToActionTopic_ok {parts : Dict Key PartConfig} {topics : Dict Key String}
    (h : partToActionTopic within parts = .ok topics) :
    (∀ part ∈ parts.keys, ∃ topic, actionTopic within part = .ok topic) ∧
      topics.entries = parts.keys.filterMap (mapped within) := by
  obtain ⟨looped, hlooped, h⟩ := except_bind_ok h
  obtain ⟨hread, hentries⟩ := mapParts_ok within parts.nodup (by simp [Dict.keys, Dict.empty]) hlooped
  have hno : ¬ (Key.str "arm" ∈ parts.keys ∧ .str "arm" ∉ looped.keys) := by
    intro ⟨harm, hnot⟩
    apply hnot
    unfold Dict.keys
    rw [hentries]
    refine List.mem_map.mpr ⟨(.str "arm", "/execution/arm/joint_reference"), ?_, rfl⟩
    exact List.mem_append_right _ (List.mem_filterMap.mpr
      ⟨_, harm, (mapped_eq_some within).mpr ⟨rfl, actionTopic_arm within⟩⟩)
  rw [if_neg hno] at h
  cases h
  exact ⟨hread, hentries⟩

theorem topicToPart_readable {parts : Dict Key PartConfig}
    (h : ∀ part ∈ parts.keys, ∃ topic, actionTopic within part = .ok topic) :
    ∃ topics, topicToPart within parts = .ok topics := by
  obtain ⟨looped, hlooped⟩ := mapParts_readable within Dict.empty h
  obtain ⟨parted, hparted⟩ : ∃ parted, partToActionTopic within parts = .ok parted := by
    unfold partToActionTopic
    rw [hlooped]
    by_cases harm : Key.str "arm" ∈ parts.keys ∧ .str "arm" ∉ looped.keys
    · exact ⟨_, if_pos harm⟩
    · exact ⟨_, if_neg harm⟩
  unfold topicToPart
  rw [hparted]
  exact ⟨_, rfl⟩

/-- A topic is mapped to the last of the parts that have it. -/
theorem topicToPart_ok {parts : Dict Key PartConfig} {topics : Dict String Key}
    (h : topicToPart within parts = .ok topics) :
    (∀ part ∈ parts.keys, ∃ topic, actionTopic within part = .ok topic) ∧
      ∀ topic, topics.get? topic =
        (parts.keys.filter fun part => actionTopic within part = .ok (some topic)).getLast? := by
  obtain ⟨parted, hparted, h⟩ := except_bind_ok h
  cases h
  obtain ⟨hread, hentries⟩ := partToActionTopic_ok within hparted
  refine ⟨hread, fun topic => ?_⟩
  rw [Dict.get?_ofPairs, lookup_eq_head?, List.filter_reverse, List.head?_reverse,
    ← List.getLast?_map, hentries]
  congr 1
  generalize parts.keys = keys
  induction keys with
  | nil => rfl
  | cons part keys ih =>
    cases hpart : mapped within part with
    | none =>
      have hnot : ¬ actionTopic within part = .ok (some topic) := by
        intro htopic
        rw [(mapped_eq_some within (e := (part, topic))).mpr ⟨rfl, htopic⟩] at hpart
        cases hpart
      rw [List.filterMap_cons_none hpart, List.filter_cons_of_neg (by simpa using hnot), ih]
    | some e =>
      obtain ⟨hkey, htopic⟩ := (mapped_eq_some within).mp hpart
      rw [List.filterMap_cons_some hpart, List.map_cons]
      by_cases he : e.2 = topic
      · rw [List.filter_cons_of_pos (by simpa using he), List.map_cons, ih,
          List.filter_cons_of_pos (by simpa [he] using htopic)]
        exact congrArg (· :: _) hkey
      · have hnot : ¬ actionTopic within part = .ok (some topic) := by
          intro heq
          rw [htopic] at heq
          exact he (Option.some.inj (Except.ok.inj heq))
        rw [List.filter_cons_of_neg (by simpa using he), ih,
          List.filter_cons_of_neg (by simpa using hnot)]

/-! ## The recorded frames -/

theorem jointReference_not_state (part : Key) : jointReference part ∉ jointStateTopics := by
  have hhead : (jointReference part).toList.take 2 = ['/', 'e'] := by
    unfold jointReference
    rw [String.toList_append, String.toList_append, List.append_assoc]
    rfl
  intro hmem
  simp only [jointStateTopics, List.mem_cons, List.not_mem_nil, or_false] at hmem
  rcases hmem with h | h
  · rw [h] at hhead
    revert hhead
    decide
  · rw [h] at hhead
    revert hhead
    decide

/-- A joint-state message contributes no event. -/
theorem actionEvent_state {parts : Dict Key PartConfig} {topics : Dict String Key}
    (h : topicToPart within parts = .ok topics) {m : McapMessage α}
    (hm : m.topic ∈ jointStateTopics) : actionEvent topics m = none := by
  have hnone : topics.get? m.topic = none := by
    rw [(topicToPart_ok within h).2, List.getLast?_eq_none_iff, List.filter_eq_nil_iff]
    intro part _ htopic
    have heq := actionTopic_eq within (of_decide_eq_true htopic)
    exact jointReference_not_state part (heq ▸ hm)
  unfold actionEvent
  rw [hnone]
  rfl

theorem loadMcapTrajectory_resolve (a : Arithmetic) (path : String) {profile : EmbodimentConfig}
    {topics : Dict String Key} (htopics : topicToPart within profile.parts = .ok topics)
    (messages : List (McapMessage α)) :
    loadMcapTrajectory within a path profile messages =
      resolve a path profile.parts (collect topics messages) := by
  unfold loadMcapTrajectory
  rw [htopics]
  rfl

theorem loadMcapTrajectory_actions (a : Arithmetic) (path : String) {profile : EmbodimentConfig}
    {topics : Dict String Key} (htopics : topicToPart within profile.parts = .ok topics)
    {messages : List (McapMessage α)} {first : ActionEvent α} {events : List (ActionEvent α)}
    (hevents : sortBy ActionEvent.logTime (messages.filterMap (actionEvent topics)) =
      first :: events) :
    loadMcapTrajectory within a path profile messages =
      .ok (actionTrajectory a first.logTime (first :: events)) := by
  rw [loadMcapTrajectory_resolve within a path htopics]
  unfold resolve
  rw [collect_actionEvents, hevents]

theorem loadMcapTrajectory_states (a : Arithmetic) (path : String) {profile : EmbodimentConfig}
    {topics : Dict String Key} (htopics : topicToPart within profile.parts = .ok topics)
    {messages : List (McapMessage α)} (hnone : messages.filterMap (actionEvent topics) = [])
    {first : StateEvent α} {events : List (StateEvent α)}
    (hevents : sortBy StateEvent.logTime (messages.filterMap (stateEvent topics)) =
      first :: events) :
    loadMcapTrajectory within a path profile messages =
      .ok (stateTrajectory a profile.parts first.logTime (first :: events)) := by
  rw [loadMcapTrajectory_resolve within a path htopics]
  unfold resolve
  rw [collect_actionEvents, hnone, collect_stateEvents, hevents]
  rfl

/-- Every recording of the same action events, of which there is one, has the same trajectory. -/
theorem load_join (a : Rounding) (path : String) {profile : EmbodimentConfig}
    {topics : Dict String Key} (htopics : topicToPart within profile.parts = .ok topics)
    {events : List (ActionEvent α)} (hne : events ≠ []) :
    ∃ ordered t0 r, InLogOrder events ordered ∧ LastValueJoin a.toArithmetic t0 ordered r ∧
      ∀ messages, messages.filterMap (actionEvent topics) = events →
        loadMcapTrajectory within a.toArithmetic path profile messages = .ok r := by
  have hpairwise := sortBy_pairwise ActionEvent.logTime events
  have hperm := sortBy_perm ActionEvent.logTime events
  have hstable := sortBy_filter ActionEvent.logTime events
  cases hsorted : sortBy ActionEvent.logTime events with
  | nil =>
    rw [hsorted] at hperm
    exact absurd hperm.symm.eq_nil hne
  | cons first rest =>
    rw [hsorted] at hpairwise hperm hstable
    refine ⟨first :: rest, first.logTime, _, ⟨hperm, hpairwise, hstable⟩,
      lastValueJoin_actionTrajectory a hpairwise, fun messages hmessages => ?_⟩
    exact loadMcapTrajectory_actions within a.toArithmetic path htopics (hmessages ▸ hsorted)

/-- **Recorded frames.** With an action event on a mapped topic, the timeline is the last-value
join of the events in stable log-time order, whatever the joint-state messages are. -/
theorem load_last_value_join (a : Rounding) (path : String) {profile : EmbodimentConfig}
    {topics : Dict String Key} (htopics : topicToPart within profile.parts = .ok topics)
    {messages : List (McapMessage α)} (hevent : ∃ m ∈ messages, (actionEvent topics m).isSome) :
    ∃ ordered t0 r, InLogOrder (messages.filterMap (actionEvent topics)) ordered ∧
      LastValueJoin a.toArithmetic t0 ordered r ∧
      loadMcapTrajectory within a.toArithmetic path profile messages = .ok r ∧
      loadMcapTrajectory within a.toArithmetic path profile
        (messages.filter fun m => m.topic ∉ jointStateTopics) = .ok r := by
  have hne : messages.filterMap (actionEvent topics) ≠ [] := by
    obtain ⟨m, hm, hsome⟩ := hevent
    obtain ⟨e, he⟩ := Option.isSome_iff_exists.mp hsome
    exact List.ne_nil_of_mem (List.mem_filterMap.mpr ⟨m, hm, he⟩)
  have hsame : (messages.filter fun m => m.topic ∉ jointStateTopics).filterMap
      (actionEvent topics) = messages.filterMap (actionEvent topics) := by
    rw [List.filterMap_filter]
    apply List.filterMap_congr
    intro m _
    by_cases hm : m.topic ∈ jointStateTopics
    · simp [hm, actionEvent_state within htopics hm]
    · simp [hm]
  obtain ⟨ordered, t0, r, horder, hjoin, hload⟩ := load_join within a path htopics hne
  exact ⟨ordered, t0, r, horder, hjoin, hload messages rfl, hload _ hsame⟩

/-- Numbers, dates and `None` cannot be searched. -/
def notIterable (_ : Object) (_ : String) : Except PyError Bool :=
  .error ⟨.typeError, "argument is not iterable"⟩

def profileOf (parts : Dict Key PartConfig) : EmbodimentConfig :=
  ⟨"test", parts, Dict.empty, Dict.empty, Dict.empty, Dict.empty, Dict.empty, Dict.empty,
    Dict.empty, Dict.empty, Dict.empty, Dict.empty⟩

def jointPart (name : String) (jointNames : List String) : Key × PartConfig :=
  (.str name, ⟨.str name, "arm", jointNames, "/controller_manager", Dict.empty, "joint_position",
    none, none, none, none⟩)

def armProfile : EmbodimentConfig := profileOf (Dict.ofPairs [jointPart "arm" ["joint_1"]])

def armTopics : Dict String Key :=
  Dict.ofPairs [("/execution/arm/joint_reference", .str "arm")]

/-- A reference for the arm that was logged at `logTime`. -/
def armReference (logTime : ℕ) (position : ℚ) : McapMessage ℚ :=
  ⟨"/execution/arm/joint_reference", logTime, ⟨some [[position]], none, none⟩⟩

def armStates (logTime : ℕ) (position : ℚ) : McapMessage ℚ :=
  ⟨"/joint_states", logTime, ⟨none, none, some (["joint_1"], [position])⟩⟩

theorem armProfile_topics : topicToPart notIterable armProfile.parts = .ok armTopics := by
  decide +kernel

theorem load_last_value_join_arm :
    ∃ ordered t0 r, InLogOrder
        ([armReference 20 1, armStates 15 0, armReference 10 2].filterMap (actionEvent armTopics))
        ordered ∧
      LastValueJoin exactRounding.toArithmetic t0 ordered r ∧
      loadMcapTrajectory notIterable exactRounding.toArithmetic "episode.mcap" armProfile
        [armReference 20 1, armStates 15 0, armReference 10 2] = .ok r ∧
      loadMcapTrajectory notIterable exactRounding.toArithmetic "episode.mcap" armProfile
        ([armReference 20 1, armStates 15 0, armReference 10 2].filter
          fun m => m.topic ∉ jointStateTopics) = .ok r :=
  load_last_value_join notIterable exactRounding "episode.mcap" armProfile_topics
    ⟨armReference 20 1, List.mem_cons_self, by decide +kernel⟩

end PhysicalAiRuntime.Apps
