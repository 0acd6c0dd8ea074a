import PhysicalAiRuntime.Provider.JointCommands

/-! What becomes of a result on its way into a command message: which results the streaming calls
encode, and that what they encode is encoded completely. -/
namespace PhysicalAiRuntime.Provider
open Authority
set_option autoImplicit false
set_option maxHeartbeats 250000

/-! ## The convenience encoders -/

def jointRow (values : List ℚ) (timeSec : ℚ) : JointTrajectoryPoint :=
  ⟨values, [], [], setDuration timeSec⟩

def indexError : PyError := ⟨.indexError, "list index out of range"⟩

/-- `position[0]` to `position[2]`; what follows is ignored. -/
def positionRow : List ℚ → Except PyError Vector3
  | x :: y :: z :: _ => .ok ⟨x, y, z⟩
  | _ => .error indexError

/-- `orientation[0]` to `orientation[3]`, in the order x, y, z, w. -/
def orientationRow : List ℚ → Except PyError Quaternion
  | x :: y :: z :: w :: _ => .ok ⟨x, y, z, w⟩
  | _ => .error indexError

def poseRow (row : List ℚ × List ℚ × ℚ) : Except PyError CartesianTrajectoryPoint := do
  let position ← positionRow row.1
  let orientation ← orientationRow row.2.1
  return ⟨position, orientation, setDuration row.2.2⟩

namespace ActionProviderClient

def sendJointReference (c : ActionProviderClient) (part : String) (jointNames : List String)
    (positions : List (List ℚ)) (timesFromStartSec : List ℚ) (now : Stamp) :
    Except PyError (ActionProviderClient × Publication) :=
  c.send part "joint_reference" (.jointTrajectory
    ⟨Header.default, jointNames, List.zipWith jointRow positions timesFromStartSec⟩) now

def sendPoseReference (c : ActionProviderClient) (part : String)
    (positions orientations : List (List ℚ)) (timesFromStartSec : List ℚ) (frameId : String)
    (now : Stamp) : Except PyError (ActionProviderClient × Publication) := do
  let points ← (positions.zip (orientations.zip timesFromStartSec)).mapM poseRow
  c.send part "pose_reference" (.cartesianTrajectory
    ⟨{ Header.default with frameId := frameId }, "", points⟩) now

/-- The sibling of the two that refuses rows of the wrong length. -/
def sendTwistReference (c : ActionProviderClient) (part : String) (linear angular : List ℚ)
    (frameId : String) (now : Stamp) : Except PyError (ActionProviderClient × Publication) :=
  if linear.length ≠ 3 ∨ angular.length ≠ 3 then
    .error ⟨.valueError, "Cartesian twist linear and angular must be length 3"⟩
  else do
    let linear ← unpack3 linear
    let angular ← unpack3 angular
    c.send part "twist_reference" (.twistStamped
      ⟨{ Header.default with frameId := frameId }, linear, angular⟩) now

end ActionProviderClient

/-! ## What a result says -/

/-- The joint names a joint result carries, and its points; a bare list and a resolved target are
one point at time zero. -/
def jointInput : ActionValue → Option (Option (List String) × List PlanPoint)
  | .positions values => some (none, [⟨values, none, none, 0⟩])
  | .planResult r => some (r.jointNames, r.points)
  | .jointHorizonResult r =>
    some (none, r.points.map fun p => ⟨p.positions, p.velocities, none, p.timeFromStartS⟩)
  | .resolveResult r => r.positions.map fun values => (r.jointNames, [⟨values, none, none, 0⟩])
  | _ => none

/-- The names that go with the points: those carried, or else those of the profile. -/
def effectiveNames (carried : Option (List String)) (profile : List String) : List String :=
  if carried.getD [] = [] then profile else carried.getD []

/-- The time of a message point, split at the second, is the nanoseconds of the result as a double,
rounded to an integer. -/
structure TimeEncodes (seconds : ℚ) (d : Duration) : Prop where
  lt : d.nanosec.toNat < 1000000000
  total : d.sec * 1000000000 + d.nanosec.toNat =
    roundHalfEven (Binary64.round (Binary64.round seconds * 1000000000))

structure JointPointEncodes (p : PlanPoint) (q : JointTrajectoryPoint) : Prop where
  positions : q.positions = p.positions
  velocities : q.velocities = p.velocities.getD []
  accelerations : q.accelerations = p.accelerations.getD []
  time : TimeEncodes p.timeFromStartS q.timeFromStart

structure PosePointEncodes (p : PoseHorizonPoint) (q : CartesianTrajectoryPoint) : Prop where
  position : p.positionXyz = [q.position.x, q.position.y, q.position.z]
  orientation : p.orientationWxyz =
    [q.orientation.w, q.orientation.x, q.orientation.y, q.orientation.z]
  time : TimeEncodes p.timeFromStartS q.timeFromStart

theorem ofNanoseconds_split (nanoseconds : ℤ) :
    (Duration.ofNanoseconds nanoseconds).nanosec.toNat < 1000000000 ∧
      (Duration.ofNanoseconds nanoseconds).sec * 1000000000 +
        (Duration.ofNanoseconds nanoseconds).nanosec.toNat = nanoseconds := by
  have hlt : (nanoseconds % 1000000000).toNat < 2 ^ 32 := by omega
  unfold Duration.ofNanoseconds
  dsimp only
  rw [UInt32.toNat_ofNat_of_lt' hlt]
  omega

theorem timeEncodes_setDuration (seconds : ℚ) : TimeEncodes seconds (setDuration seconds) := by
  obtain ⟨hlt, htotal⟩ := ofNanoseconds_split
    (roundHalfEven (Binary64.round (Binary64.round seconds * 1000000000)))
  exact ⟨hlt, htotal⟩

theorem timeEncodes_zero : TimeEncodes 0 ⟨0, 0⟩ := by
  have hzero : setDuration 0 = ⟨0, 0⟩ := by decide +kernel
  rw [← hzero]
  exact timeEncodes_setDuration 0

/-! ## The converters on a result -/

theorem jointPoints_encode {α : Type} (attrs : α → PointAttrs) (view : α → PlanPoint)
    (hview : ∀ x, ∃ q, jointPointFromSpec (attrs x) = .ok q ∧ JointPointEncodes (view x) q)
    (xs : List α) : ∃ qs, (xs.map attrs).mapM jointPointFromSpec = .ok qs ∧
      List.Forall₂ JointPointEncodes (xs.map view) qs := by
  obtain ⟨qs, hqs, hencodes⟩ := except_mapM_ok fun x (_ : x ∈ xs) => hview x
  refine ⟨qs, ?_, ?_⟩
  · rw [List.mapM_map]
    exact hqs
  · rw [List.forall₂_map_left_iff]
    exact hencodes

theorem posePoint_encodes {p : PoseHorizonPoint} (hposition : p.positionXyz.length = 3)
    (horientation : p.orientationWxyz.length = 4) :
    ∃ q, posePointFromSpec p.attrs = .ok q ∧ PosePointEncodes p q := by
  obtain ⟨xyz, wxyz, seconds⟩ := p
  obtain ⟨x, y, z, rfl⟩ := List.length_eq_three.mp hposition
  match wxyz, horientation with
  | [w, a, b, c], _ => exact ⟨_, rfl, rfl, rfl, timeEncodes_setDuration seconds⟩

/-- A result with points becomes a message with one point for each, under the effective names. -/
theorem jointMessage_encodes {message : ActionValue} {carried : Option (List String)}
    {points : List PlanPoint} (hinput : jointInput message = some (carried, points))
    (hresolve : ∀ r, message ≠ .resolveResult r) (profile : List String) :
    ∃ m, jointMessageFromSpec message profile = .ok m ∧
      m.jointNames = effectiveNames carried profile ∧
      List.Forall₂ JointPointEncodes points m.points := by
  cases message with
  | positions values =>
    cases hinput
    exact ⟨_, rfl, rfl, List.Forall₂.cons ⟨rfl, rfl, rfl, timeEncodes_zero⟩ List.Forall₂.nil⟩
  | planResult r =>
    cases hinput
    obtain ⟨qs, hqs, hencodes⟩ := jointPoints_encode PlanPoint.attrs id
      (fun p => ⟨_, rfl, rfl, rfl, rfl, timeEncodes_setDuration p.timeFromStartS⟩) r.points
    rw [List.map_id] at hencodes
    refine ⟨⟨Header.default, effectiveNames r.jointNames profile, qs⟩, ?_, rfl, hencodes⟩
    change ((r.points.map PlanPoint.attrs).mapM jointPointFromSpec >>= fun qs => _) = _
    rw [hqs]
    rfl
  | jointHorizonResult r =>
    cases hinput
    obtain ⟨qs, hqs, hencodes⟩ := jointPoints_encode JointHorizonPoint.attrs
      (fun p => ⟨p.positions, p.velocities, none, p.timeFromStartS⟩)
      (fun p => ⟨_, rfl, rfl, rfl, rfl, timeEncodes_setDuration p.timeFromStartS⟩) r.points
    refine ⟨⟨Header.default, profile, qs⟩, ?_, rfl, hencodes⟩
    change ((r.points.map JointHorizonPoint.attrs).mapM jointPointFromSpec >>= fun qs => _) = _
    rw [hqs]
    rfl
  | resolveResult r => exact absurd rfl (hresolve r)
  | _ => cases hinput

theorem poseMessage_encodes {r : PoseHorizonResult} (baseFrame tcpFrame : String)
    (hne : r.points ≠ [])
    (hrows : ∀ p ∈ r.points, p.positionXyz.length = 3 ∧ p.orientationWxyz.length = 4) :
    ∃ m, cartesianTrajectoryFromSpec (.poseHorizonResult r) baseFrame tcpFrame = .ok m ∧
      m.header.frameId = baseFrame ∧ m.trackedFrame = tcpFrame ∧
      List.Forall₂ PosePointEncodes r.points m.points := by
  obtain ⟨qs, hqs, hencodes⟩ := except_mapM_ok fun p (hp : p ∈ r.points) =>
    posePoint_encodes (hrows p hp).1 (hrows p hp).2
  have hattrs : (r.points.map PoseHorizonPoint.attrs).mapM posePointFromSpec = .ok qs := by
    rw [List.mapM_map]
    exact hqs
  have hqs_ne : qs ≠ [] := by
    rintro rfl
    exact hne (List.forall₂_nil_right_iff.mp hencodes)
  refine ⟨⟨{ Header.default with frameId := baseFrame }, tcpFrame, qs⟩, ?_, rfl, rfl, hencodes⟩
  change ((r.points.map PoseHorizonPoint.attrs).mapM posePointFromSpec >>= fun qs => _) = _
  rw [hattrs]
  change (if qs = [] then _ else _) = _
  rw [if_neg hqs_ne]
  rfl

/-- A `ResolveResult` has no `points`, so its conversion always ends without one. -/
theorem resolveResult_refused (r : ResolveResult) (profile : List String)
    (requireIncreasingTime : Bool) (m : JointTrajectory) :
    jointTrajectoryFromSpec (.resolveResult r) profile requireIncreasingTime ≠ .ok m := by
  intro h
  obtain ⟨hmessage, hwf, -⟩ := (jointTrajectoryFromSpec_ok_iff _ _ _ m).mp h
  have hpoints : m.points = [] := (congrArg JointTrajectory.points (Except.ok.inj hmessage)).symm
  exact hwf.points hpoints

namespace ActionProviderClient

/-! ## Streaming calls -/

def IsBound (c : ActionProviderClient) (part command : String) : Prop :=
  ∃ b, c.requireBinding part command = .ok b

/-- A joint result that the send path admits, whose points match the joint names. -/
structure JointAdmitted (c : ActionProviderClient) (part : String) (message : ActionValue)
    (profile : List String) (carried : Option (List String)) (points : List PlanPoint) :
    Prop where
  bound : c.IsBound part "joint_reference"
  profileNames : c.jointNames part = .ok profile
  input : jointInput message = some (carried, points)
  valid : message.attrs.valid ≠ some false
  nonempty : points ≠ []
  resolved : ∀ r, message = .resolveResult r → r.positions ≠ some []
  positions : ∀ p ∈ points, p.positions.length = (effectiveNames carried profile).length

def JointEncoded (c : ActionProviderClient) (part : String) (message : ActionValue) (now : Stamp)
    (profile : List String) (carried : Option (List String)) (points : List PlanPoint) : Prop :=
  ∃ c' p m, c.send part "joint_reference" message now = .ok (c', p) ∧
    p.envelope.leaseId = c.leaseId ∧ p.envelope.command = .joint m ∧
    m.jointNames = effectiveNames carried profile ∧ List.Forall₂ JointPointEncodes points m.points

structure PoseAdmitted (c : ActionProviderClient) (part : String) (r : PoseHorizonResult)
    (baseFrame tcpFrame : String) : Prop where
  bound : c.IsBound part "pose_reference"
  baseFrame : c.baseFrame part = .ok baseFrame
  tcpFrame : c.tcpFrame part = .ok tcpFrame
  valid : r.valid = true
  nonempty : r.points ≠ []
  rows : ∀ p ∈ r.points, p.positionXyz.length = 3 ∧ p.orientationWxyz.length = 4

def PoseEncoded (c : ActionProviderClient) (part : String) (r : PoseHorizonResult) (now : Stamp)
    (baseFrame tcpFrame : String) : Prop :=
  ∃ c' p m, c.send part "pose_reference" (.poseHorizonResult r) now = .ok (c', p) ∧
    p.envelope.leaseId = c.leaseId ∧ p.envelope.command = .pose m ∧
    m.header.frameId = baseFrame ∧ m.trackedFrame = tcpFrame ∧
    List.Forall₂ PosePointEncodes r.points m.points

/-- The calls that turn a result or bare rows of numbers into a streaming command. -/
inductive StreamCall where
  | jointResult (message : ActionValue)
  | poseResult (r : PoseHorizonResult)
  | jointReference (jointNames : List String) (positions : List (List ℚ)) (times : List ℚ)
  | poseReference (positions orientations : List (List ℚ)) (times : List ℚ) (frameId : String)

/-- What each call is for: an admitted result is published without loss, and the encoders publish
one point for each position or raise. -/
def Faithful (c : ActionProviderClient) (part : String) (now : Stamp) : StreamCall → Prop
  | .jointResult message => ∀ profile carried points,
      JointAdmitted c part message profile carried points →
        JointEncoded c part message now profile carried points
  | .poseResult r => ∀ baseFrame tcpFrame, PoseAdmitted c part r baseFrame tcpFrame →
      PoseEncoded c part r now baseFrame tcpFrame
  | .jointReference jointNames positions times => ∀ c' p,
      c.sendJointReference part jointNames positions times now = .ok (c', p) →
        ∃ m, p.envelope.command = .joint m ∧ m.points.length = positions.length
  | .poseReference positions orientations times frameId => ∀ c' p,
      c.sendPoseReference part positions orientations times frameId now = .ok (c', p) →
        ∃ m, p.envelope.command = .pose m ∧ m.points.length = positions.length

/-- The inputs on which a call does what it is for. -/
def FaithfulWhen (c : ActionProviderClient) (part : String) : StreamCall → Prop
  | .jointResult message => ∀ profile carried points,
      JointAdmitted c part message profile carried points →
        (∀ r, message ≠ .resolveResult r) ∧ effectiveNames carried profile ≠ []
  | .poseResult _ => True
  | .jointReference _ positions times =>
    c.IsBound part "joint_reference" → positions.length ≤ times.length
  | .poseReference positions orientations times _ =>
    c.IsBound part "pose_reference" →
      (∀ row ∈ positions.zip (orientations.zip times), 3 ≤ row.1.length ∧ 4 ≤ row.2.1.length) →
        positions.length ≤ orientations.length ∧ positions.length ≤ times.length

variable {c : ActionProviderClient} {part : String}

theorem JointAdmitted.accepted {message : ActionValue} {profile : List String}
    {carried : Option (List String)} {points : List PlanPoint}
    (h : JointAdmitted c part message profile carried points) :
    rejectInvalidResult message = .ok () ∧
      requireCommandForKind message "joint_reference" = .ok () ∧
      ∀ m, message ≠ .jointTrajectory m := by
  have hvalid : rejectInvalidResult message = .ok () := by
    unfold rejectInvalidResult
    cases hv : message.attrs.valid with
    | none => rfl
    | some valid =>
      cases valid with
      | true => rfl
      | false => exact absurd hv h.valid
  have hinput := h.input
  refine ⟨hvalid, ?_, ?_⟩
  · cases message with
    | poseHorizonResult r => cases hinput
    | resolveResult r => rfl
    | _ => rfl
  · rintro m rfl
    cases hinput

/-- The payload of an admitted result is what the converter returns under the profile names. -/
theorem JointAdmitted.streamPayload {message : ActionValue} {profile : List String}
    {carried : Option (List String)} {points : List PlanPoint}
    (h : JointAdmitted c part message profile carried points) :
    c.streamPayload part "joint_reference" message =
      (jointTrajectoryFromSpec message profile false >>= fun m => .ok (.joint m)) := by
  have hconverted : c.streamPayload part "joint_reference" message =
      (c.jointNames part >>= fun names =>
        jointTrajectoryFromSpec message names false >>= fun m => .ok (Payload.joint m)) := by
    have hnative := h.accepted.2.2
    cases message with
    | jointTrajectory m => exact absurd rfl (hnative m)
    | _ => rfl
  rw [hconverted, h.profileNames]
  rfl

theorem jointEncoded_iff {message : ActionValue} {profile : List String}
    {carried : Option (List String)} {points : List PlanPoint} (now : Stamp)
    (h : JointAdmitted c part message profile carried points) :
    JointEncoded c part message now profile carried points ↔
      (∀ r, message ≠ .resolveResult r) ∧ effectiveNames carried profile ≠ [] := by
  constructor
  · intro ⟨c', p, m, hsend, _, hcommand, hnames, _⟩
    obtain ⟨payload, hpayload, henvelope⟩ := send_payload hsend
    rw [h.streamPayload] at hpayload
    obtain ⟨m', hm', hjoint⟩ := except_bind_ok hpayload
    cases hjoint
    rw [henvelope] at hcommand
    cases hcommand
    refine ⟨?_, ?_⟩
    · rintro r rfl
      exact resolveResult_refused r profile false m' hm'
    · rw [← hnames]
      exact ((jointTrajectoryFromSpec_ok_iff message profile false m').mp hm').2.1.jointNames
  · intro ⟨hresolve, hne⟩
    obtain ⟨b, hb⟩ := h.bound
    obtain ⟨hvalid, hkind, -⟩ := h.accepted
    obtain ⟨m, hm, hnames, hencodes⟩ := jointMessage_encodes h.input hresolve profile
    have hwf : m.WellFormed := by
      refine ⟨by rw [hnames]; exact hne, ?_, fun q hq => ?_⟩
      · intro hempty
        rw [hempty] at hencodes
        exact h.nonempty (List.forall₂_nil_right_iff.mp hencodes)
      · obtain ⟨p, hp, hpq⟩ := forall₂_mem_right hencodes hq
        rw [hpq.positions, h.positions p hp, hnames]
    have hspec := (jointTrajectoryFromSpec_ok_iff message profile false m).mpr
      ⟨hm, hwf, fun hreq => absurd hreq Bool.false_ne_true⟩
    have hpayload : c.streamPayload part "joint_reference" message = .ok (.joint m) := by
      rw [h.streamPayload, hspec]
      rfl
    obtain ⟨c', p, hsend, henvelope⟩ := send_of_payload now hb hvalid hkind hpayload
    refine ⟨c', p, { m with header := { m.header with stamp := now } }, hsend, ?_, ?_, hnames,
      hencodes⟩
    · rw [henvelope]
    · rw [henvelope]
      rfl

theorem poseEncoded {r : PoseHorizonResult} {baseFrame tcpFrame : String} (now : Stamp)
    (h : PoseAdmitted c part r baseFrame tcpFrame) :
    PoseEncoded c part r now baseFrame tcpFrame := by
  obtain ⟨b, hb⟩ := h.bound
  obtain ⟨m, hm, hbase, htcp, hencodes⟩ := poseMessage_encodes baseFrame tcpFrame h.nonempty h.rows
  have hvalid : rejectInvalidResult (.poseHorizonResult r) = .ok () := by
    unfold rejectInvalidResult
    simp [ActionValue.attrs, h.valid]
  have hpayload : c.streamPayload part "pose_reference" (.poseHorizonResult r) =
      .ok (.pose m) := by
    change (c.baseFrame part >>= fun base => c.tcpFrame part >>= fun tcp =>
      cartesianTrajectoryFromSpec (.poseHorizonResult r) base tcp >>= fun m => _) = _
    rw [h.baseFrame, h.tcpFrame]
    change (cartesianTrajectoryFromSpec (.poseHorizonResult r) baseFrame tcpFrame >>= fun m => _) = _
    rw [hm]
    rfl
  obtain ⟨c', p, hsend, henvelope⟩ := send_of_payload now hb hvalid rfl hpayload
  refine ⟨c', p, { m with header := { m.header with stamp := now } }, hsend, ?_, ?_, hbase, htcp,
    hencodes⟩
  · rw [henvelope]
  · rw [henvelope]
    rfl

/-! ## Rows of numbers -/

theorem poseRow_ok_iff (row : List ℚ × List ℚ × ℚ) :
    (∃ q, poseRow row = .ok q) ↔ 3 ≤ row.1.length ∧ 4 ≤ row.2.1.length := by
  obtain ⟨position, orientation, timeSec⟩ := row
  constructor
  · intro ⟨q, hq⟩
    obtain ⟨v, hv, hq⟩ := except_bind_ok hq
    obtain ⟨u, hu, -⟩ := except_bind_ok hq
    refine ⟨?_, ?_⟩
    · match position, hv with
      | x :: y :: z :: rest, _ => simp
    · match orientation, hu with
      | x :: y :: z :: w :: rest, _ => simp
  · intro ⟨hposition, horientation⟩
    match position, hposition, orientation, horientation with
    | x :: y :: z :: _, _, a :: b :: c :: d :: _, _ => exact ⟨_, rfl⟩

theorem jointReference_faithful_iff (jointNames : List String) (positions : List (List ℚ))
    (times : List ℚ) (now : Stamp) :
    Faithful c part now (.jointReference jointNames positions times) ↔
      FaithfulWhen c part (.jointReference jointNames positions times) := by
  have hlength : (List.zipWith jointRow positions times).length = positions.length ↔
      positions.length ≤ times.length := by
    rw [List.length_zipWith]
    omega
  constructor
  · intro h ⟨b, hb⟩
    obtain ⟨c', p, hsend, henvelope⟩ := send_native
      ⟨Header.default, jointNames, List.zipWith jointRow positions times⟩ now hb
    obtain ⟨m, hm, hpoints⟩ := h c' p hsend
    rw [henvelope] at hm
    cases hm
    exact hlength.mp hpoints
  · intro h c' p hsend
    obtain ⟨b, hb, -⟩ := except_bind_ok hsend
    obtain ⟨c'', p', hsend', henvelope⟩ := send_native
      ⟨Header.default, jointNames, List.zipWith jointRow positions times⟩ now hb
    obtain ⟨-, rfl⟩ := Prod.mk.inj (Except.ok.inj (hsend.symm.trans hsend'))
    rw [henvelope]
    exact ⟨_, rfl, hlength.mpr (h ⟨b, hb⟩)⟩

theorem poseReference_faithful_iff (positions orientations : List (List ℚ)) (times : List ℚ)
    (frameId : String) (now : Stamp) :
    Faithful c part now (.poseReference positions orientations times frameId) ↔
      FaithfulWhen c part (.poseReference positions orientations times frameId) := by
  have hlength : (positions.zip (orientations.zip times)).length = positions.length ↔
      positions.length ≤ orientations.length ∧ positions.length ≤ times.length := by
    rw [List.length_zip, List.length_zip]
    omega
  constructor
  · intro h ⟨b, hb⟩ hrows
    have hconvert : ∀ row ∈ positions.zip (orientations.zip times),
        ∃ q, poseRow row = .ok q ∧ True := by
      intro row hrow
      obtain ⟨q, hq⟩ := (poseRow_ok_iff row).mpr (hrows row hrow)
      exact ⟨q, hq, trivial⟩
    obtain ⟨qs, hqs, hpoints⟩ := except_mapM_ok hconvert
    have hpayload : c.streamPayload part "pose_reference" (.cartesianTrajectory
        ⟨{ Header.default with frameId := frameId }, "", qs⟩) =
        .ok (.pose ⟨{ Header.default with frameId := frameId }, "", qs⟩) := rfl
    obtain ⟨c', p, hsend, henvelope⟩ := send_of_payload now hb rfl rfl hpayload
    have hcall : c.sendPoseReference part positions orientations times frameId now =
        .ok (c', p) := by
      unfold sendPoseReference
      rw [hqs]
      exact hsend
    obtain ⟨m, hm, hlen⟩ := h c' p hcall
    rw [henvelope] at hm
    cases hm
    rw [← hlength, hpoints.length_eq]
    exact hlen
  · intro h c' p hcall
    obtain ⟨qs, hqs, hsend⟩ := except_bind_ok hcall
    obtain ⟨b, hb, -⟩ := except_bind_ok hsend
    obtain ⟨payload, hpayload, henvelope⟩ := send_payload hsend
    cases hpayload
    have hpoints := except_mapM_forall₂ hqs
    have hrows : ∀ row ∈ positions.zip (orientations.zip times),
        3 ≤ row.1.length ∧ 4 ≤ row.2.1.length := by
      intro row hrow
      obtain ⟨q, -, hq⟩ := forall₂_mem_right hpoints.flip hrow
      exact (poseRow_ok_iff row).mp ⟨q, hq⟩
    rw [henvelope]
    refine ⟨_, rfl, ?_⟩
    change qs.length = positions.length
    rw [← hpoints.length_eq]
    exact hlength.mpr (h ⟨b, hb⟩ hrows)

theorem unpack3_ok {values : List ℚ} {v : Vector3} (h : unpack3 values = .ok v) :
    values = [v.x, v.y, v.z] := by
  match values, h with
  | [x, y, z], h =>
    cases h
    rfl

/-- The sibling publishes every number it is given. -/
theorem sendTwistReference_complete {linear angular : List ℚ} {frameId : String} {now : Stamp}
    {c' : ActionProviderClient} {p : Publication}
    (h : c.sendTwistReference part linear angular frameId now = .ok (c', p)) :
    ∃ m, p.envelope.command = .twist m ∧ linear = [m.linear.x, m.linear.y, m.linear.z] ∧
      angular = [m.angular.x, m.angular.y, m.angular.z] := by
  unfold sendTwistReference at h
  by_cases hlength : linear.length ≠ 3 ∨ angular.length ≠ 3
  · rw [if_pos hlength] at h
    cases h
  · rw [if_neg hlength] at h
    obtain ⟨v, hv, h⟩ := except_bind_ok h
    obtain ⟨u, hu, h⟩ := except_bind_ok h
    obtain ⟨payload, hpayload, henvelope⟩ := send_payload h
    cases hpayload
    rw [henvelope]
    exact ⟨_, rfl, unpack3_ok hv, unpack3_ok hu⟩

/-- **Encoding.** A streaming call publishes all of its input exactly on the inputs named by
`FaithfulWhen`. -/
theorem streamCall_faithful_iff (c : ActionProviderClient) (part : String) (now : Stamp)
    (call : StreamCall) : Faithful c part now call ↔ FaithfulWhen c part call := by
  cases call with
  | jointResult message =>
    constructor
    · intro h profile carried points hadmitted
      exact (jointEncoded_iff now hadmitted).mp (h profile carried points hadmitted)
    · intro h profile carried points hadmitted
      exact (jointEncoded_iff now hadmitted).mpr (h profile carried points hadmitted)
  | poseResult r =>
    exact ⟨fun _ => trivial, fun _ baseFrame tcpFrame hadmitted => poseEncoded now hadmitted⟩
  | jointReference jointNames positions times =>
    exact jointReference_faithful_iff jointNames positions times now
  | poseReference positions orientations times frameId =>
    exact poseReference_faithful_iff positions orientations times frameId now

/-- A resolved target for a bound arm is admitted and refused. -/
theorem resolveResult_unfaithful : ¬ Faithful boundArm "arm" ⟨0, 0⟩
    (.jointResult (.resolveResult ⟨true, "", some ["joint_1"], some [1 / 2]⟩)) := by
  intro h
  have hbound : boundArm.IsBound "arm" "joint_reference" :=
    ⟨⟨"arm", "joint_reference", "/arm/joint_reference", false⟩, by decide⟩
  have hadmitted : JointAdmitted boundArm "arm"
      (.resolveResult ⟨true, "", some ["joint_1"], some [1 / 2]⟩) [] (some ["joint_1"])
      [⟨[1 / 2], none, none, 0⟩] := by
    refine ⟨hbound, rfl, rfl, by decide, by simp, ?_, ?_⟩
    · rintro r he
      cases he
      simp
    · intro p hp
      rw [List.mem_singleton.mp hp]
      rfl
  exact ((jointEncoded_iff ⟨0, 0⟩ hadmitted).mp (h _ _ _ hadmitted)).1 _ rfl

end ActionProviderClient
end PhysicalAiRuntime.Provider
