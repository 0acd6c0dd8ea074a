import PhysicalAiRuntime.Provider.Client

/-! Which joint trajectories leave the command client. Results and bare positions go through
`_joint_trajectory_from_spec` on both ways out; a native message goes through it on the way to the
trajectory action, and around it on the way to a joint reference. -/
namespace PhysicalAiRuntime.Provider
open Authority
set_option autoImplicit false
set_option maxHeartbeats 250000

structure JointTrajectory.WellFormed (m : JointTrajectory) : Prop where
  jointNames : m.jointNames ≠ []
  points : m.points ≠ []
  positions : ∀ p ∈ m.points, p.positions.length = m.jointNames.length

/-- The time that a duration says, which the client reads off only up to rounding. -/
def Duration.time (d : Duration) : ℚ := d.sec + d.nanosec.toNat / 1000000000

def Duration.Normalised (d : Duration) : Prop := d.nanosec.toNat < 1000000000

instance (d : Duration) : Decidable d.Normalised := inferInstanceAs (Decidable (_ < _))

def JointTrajectory.times (m : JointTrajectory) : List ℚ :=
  m.points.map fun p => p.timeFromStart.time

/-- The times as the loop of the converter reads them. -/
def JointTrajectory.readTimes (m : JointTrajectory) : List ℚ :=
  m.points.map fun p => p.timeFromStart.seconds

theorem pairwise_lt_cons_cons {t u : ℚ} {times : List ℚ} :
    (t :: u :: times).Pairwise (· < ·) ↔ t < u ∧ (u :: times).Pairwise (· < ·) := by
  rw [← List.isChain_iff_pairwise, ← List.isChain_iff_pairwise, List.isChain_cons_cons]

/-! ## The converter -/

/-- The loop accepts the points whose lengths match and whose times increase from `previous` on. -/
theorem checkJointPoints_ok_iff (jointNames : List String) (requireIncreasingTime : Bool)
    (previous : ℚ) (points : List JointTrajectoryPoint) :
    checkJointPoints jointNames requireIncreasingTime previous points = .ok () ↔
      (∀ p ∈ points, p.positions.length = jointNames.length) ∧
      (requireIncreasingTime = true →
        (previous :: points.map fun p => p.timeFromStart.seconds).Pairwise (· < ·)) := by
  induction points generalizing previous with
  | nil => simp [checkJointPoints]
  | cons p points ih =>
    unfold checkJointPoints
    rw [List.forall_mem_cons, List.map_cons, pairwise_lt_cons_cons]
    by_cases hlen : p.positions.length = jointNames.length
    · rw [if_neg (not_not.mpr hlen)]
      by_cases htime : requireIncreasingTime = true ∧ p.timeFromStart.seconds ≤ previous
      · rw [if_pos htime]
        constructor
        · intro h
          cases h
        · intro h
          exact absurd htime.2 (not_le.mpr (h.2 htime.1).1)
      · rw [if_neg htime, ih]
        constructor
        · intro ⟨hrest, htimes⟩
          have hlt : requireIncreasingTime = true → previous < p.timeFromStart.seconds :=
            fun hreq => not_le.mp fun hle => htime ⟨hreq, hle⟩
          exact ⟨⟨hlen, hrest⟩, fun hreq => ⟨hlt hreq, htimes hreq⟩⟩
        · intro ⟨hall, htimes⟩
          exact ⟨hall.2, fun hreq => (htimes hreq).2⟩
    · rw [if_pos hlen]
      constructor
      · intro h
        cases h
      · intro h
        exact absurd h.1.1 hlen

theorem jointTrajectoryFromSpec_ok_iff (trajectory : ActionValue)
    (defaultJointNames : List String) (requireIncreasingTime : Bool) (m : JointTrajectory) :
    jointTrajectoryFromSpec trajectory defaultJointNames requireIncreasingTime = .ok m ↔
      jointMessageFromSpec trajectory defaultJointNames = .ok m ∧ m.WellFormed ∧
        (requireIncreasingTime = true → ((-1) :: m.readTimes).Pairwise (· < ·)) := by
  have hcheck : ∀ message : JointTrajectory,
      checkJointPoints message.jointNames requireIncreasingTime (-1) message.points = .ok () ↔
        (∀ p ∈ message.points, p.positions.length = message.jointNames.length) ∧
        (requireIncreasingTime = true → ((-1) :: message.readTimes).Pairwise (· < ·)) :=
    fun message => checkJointPoints_ok_iff message.jointNames requireIncreasingTime (-1)
      message.points
  unfold jointTrajectoryFromSpec
  cases hm : jointMessageFromSpec trajectory defaultJointNames with
  | error e =>
    constructor
    · intro h
      cases h
    · intro h
      cases h.1
  | ok message =>
    change (if message.jointNames = [] ∨ message.points = [] then _ else _) = _ ↔ _
    by_cases hempty : message.jointNames = [] ∨ message.points = []
    · rw [if_pos hempty]
      constructor
      · intro h
        cases h
      · intro ⟨heq, hwf, _⟩
        cases heq
        exact absurd hempty (not_or.mpr ⟨hwf.jointNames, hwf.points⟩)
    · rw [if_neg hempty]
      obtain ⟨hnames, hpoints⟩ := not_or.mp hempty
      constructor
      · intro h
        obtain ⟨u, hc, h⟩ := except_bind_ok h
        cases h
        obtain ⟨hlen, htime⟩ := (hcheck m).mp hc
        exact ⟨rfl, ⟨hnames, hpoints, hlen⟩, htime⟩
      · intro ⟨heq, hwf, htime⟩
        cases heq
        rw [(hcheck m).mpr ⟨hwf.positions, htime⟩]
        rfl

/-! ## What the read times hide -/

theorem nanosecond_bounds : 0 ≤ Binary64.round (1 / 1000000000) ∧
    999999999 * Binary64.round (1 / 1000000000) ≤ 1 - 1 / 2 ^ 53 := by
  decide +kernel

/-- What is read of the nanoseconds below a second. -/
def Duration.fraction (d : Duration) : ℚ :=
  Binary64.round (d.nanosec.toNat * Binary64.round (1 / 1000000000))

theorem Duration.Normalised.fraction_bounds {d : Duration} (h : d.Normalised) :
    0 ≤ d.fraction ∧ d.fraction < 1 := by
  obtain ⟨hpos, hone⟩ := nanosecond_bounds
  have hn : (d.nanosec.toNat : ℚ) ≤ 999999999 := by exact_mod_cast Nat.le_of_lt_succ h
  refine ⟨Binary64.round_nonneg (mul_nonneg (Nat.cast_nonneg _) hpos), ?_⟩
  have hle : (d.nanosec.toNat : ℚ) * Binary64.round (1 / 1000000000) ≤ 1 - 1 / 2 ^ 53 := by
    have hmul := mul_le_mul_of_nonneg_right hn hpos
    linarith
  have hexact : Binary64.round (1 - 1 / 2 ^ 53) < 1 := by decide +kernel
  exact (Binary64.round_mono hle).trans_lt hexact

/-- Two integers that are rounded to one lie beyond the exact ones. -/
theorem large_of_round_eq {k l m : ℤ} {f : ℚ} (hlt : k < l) (hk : Binary64.round k = m)
    (hl : Binary64.round l = m) (hf : f < 1) (hearly : -1 < Binary64.round (m + f)) :
    2 ^ 53 ≤ m := by
  by_contra hsmall
  have hupper : l < 2 ^ 53 := by
    by_contra hge
    have hmono := Binary64.round_mono (show ((2 ^ 53 : ℤ) : ℚ) ≤ l by exact_mod_cast not_lt.mp hge)
    rw [Binary64.round_intCast (n := 2 ^ 53) (by decide), hl] at hmono
    exact hsmall (by exact_mod_cast hmono)
  have hlower : -2 ^ 53 < k := by
    by_contra hge
    have hmono := Binary64.round_mono (show (k : ℚ) ≤ ((-2 ^ 53 : ℤ) : ℚ) by
      exact_mod_cast not_lt.mp hge)
    rw [Binary64.round_intCast (n := -2 ^ 53) (by decide), hk] at hmono
    have hsum : (m : ℚ) + f ≤ ((-1 : ℤ) : ℚ) := by
      push_cast at hmono ⊢
      linarith
    have hlate := Binary64.round_mono hsum
    rw [Binary64.round_intCast (n := -1) (by decide)] at hlate
    push_cast at hlate
    linarith
  rw [Binary64.round_intCast (abs_le.mpr ⟨by omega, by omega⟩)] at hk hl
  have hsame : (k : ℚ) = l := hk.trans hl.symm
  exact hlt.ne (by exact_mod_cast hsame)

/-- Of two normalised durations the one that is not later is not read as later, unless it lies more
than a second back. -/
theorem seconds_mono {d e : Duration} (hd : d.Normalised) (he : e.Normalised)
    (h : d.time ≤ e.time) (hearly : -1 < e.seconds) : d.seconds ≤ e.seconds := by
  obtain ⟨hd0, hd1⟩ := hd.fraction_bounds
  obtain ⟨he0, he1⟩ := he.fraction_bounds
  have hread : ∀ d : Duration, d.seconds = Binary64.round (Binary64.round d.sec + d.fraction) :=
    fun _ => rfl
  have hsec : d.sec ≤ e.sec := by
    have hdn : (d.nanosec.toNat : ℚ) < 1000000000 := by exact_mod_cast hd
    have hen : (e.nanosec.toNat : ℚ) < 1000000000 := by exact_mod_cast he
    have hdn0 : (0 : ℚ) ≤ d.nanosec.toNat := Nat.cast_nonneg _
    unfold Duration.time at h
    have hlt : (d.sec : ℚ) < e.sec + 1 := by linarith
    exact Int.lt_add_one_iff.mp (by exact_mod_cast hlt)
  rw [hread d, hread e]
  rcases hsec.lt_or_eq with hlt | heq
  · obtain ⟨m, hm⟩ := Binary64.exists_int_eq_round d.sec
    obtain ⟨n, hn⟩ := Binary64.exists_int_eq_round e.sec
    have hmono := Binary64.round_mono (show (d.sec : ℚ) ≤ e.sec by exact_mod_cast hsec)
    rw [hm, hn] at hmono ⊢
    have hle : m ≤ n := by exact_mod_cast hmono
    rcases hle.lt_or_eq with hmn | hmn
    · have hstep : (m : ℚ) + 1 ≤ n := by exact_mod_cast hmn
      exact Binary64.round_mono (by linarith)
    · -- both seconds are rounded to one integer, which is too large to see the fractions
      subst hmn
      have hlarge : 2 ^ 53 ≤ m := by
        rw [hread e, hn] at hearly
        exact large_of_round_eq hlt hm hn he1 hearly
      have hmm : Binary64.round m = m := by
        rw [← hn, Binary64.round_round]
      rw [Binary64.round_add_fraction hmm hlarge hd0 hd1,
        Binary64.round_add_fraction hmm hlarge he0 he1]
  · unfold Duration.time at h
    rw [heq] at h ⊢
    have hnano : (d.nanosec.toNat : ℚ) ≤ e.nanosec.toNat := by linarith
    have hfraction : d.fraction ≤ e.fraction :=
      Binary64.round_mono (mul_le_mul_of_nonneg_right hnano nanosecond_bounds.1)
    exact Binary64.round_mono (by linarith)

/-- Two points of which the later one is not later in time, one of them with a second or more in its
nanoseconds. -/
def JointTrajectory.HidesStep (m : JointTrajectory) : Prop :=
  ∃ before p q after, m.points = before ++ p :: q :: after ∧
    q.timeFromStart.time ≤ p.timeFromStart.time ∧
    (¬ p.timeFromStart.Normalised ∨ ¬ q.timeFromStart.Normalised)

theorem pairwise_lt_iff_steps {α : Type} (f : α → ℚ) (xs : List α) :
    (xs.map f).Pairwise (· < ·) ↔ ∀ ⦃x y before after⦄, xs = before ++ x :: y :: after →
      f x < f y := by
  rw [← List.isChain_iff_pairwise, List.isChain_map]
  exact List.isChain_iff_forall_rel_of_append_cons_cons

/-- What the loop reads as increasing increases, unless a second is hidden in the nanoseconds. -/
theorem times_sorted_iff {m : JointTrajectory} (h : ((-1) :: m.readTimes).Pairwise (· < ·)) :
    m.times.Pairwise (· < ·) ↔ ¬ m.HidesStep := by
  obtain ⟨hearly, hread⟩ := List.pairwise_cons.mp h
  have hstep := (pairwise_lt_iff_steps (fun p : JointTrajectoryPoint => p.timeFromStart.seconds)
    m.points).mp hread
  unfold JointTrajectory.times JointTrajectory.HidesStep
  rw [pairwise_lt_iff_steps]
  constructor
  · rintro htimes ⟨before, p, q, after, hpq, hback, -⟩
    exact absurd (htimes hpq) (not_lt.mpr hback)
  · intro hnot p q before after hpq
    by_contra hback
    by_cases hnormal : p.timeFromStart.Normalised ∧ q.timeFromStart.Normalised
    · have hmem : p ∈ m.points := by
        rw [hpq]
        simp
      have hp := hearly _ (List.mem_map.mpr ⟨p, hmem, rfl⟩)
      have hle := seconds_mono hnormal.2 hnormal.1 (not_lt.mp hback) hp
      exact absurd (hstep hpq) (not_lt.mpr hle)
    · exact hnot ⟨before, p, q, after, hpq, not_lt.mp hback, not_and_or.mp hnormal⟩

namespace ActionProviderClient

/-! ## Joint references -/

/-- A streaming command publishes its payload under the lease, stamped, and nothing else. -/
theorem send_payload {c c' : ActionProviderClient} {part command : String} {message : ActionValue}
    {now : Stamp} {p : Publication} (h : c.send part command message now = .ok (c', p)) :
    ∃ payload, c.streamPayload part command message = .ok payload ∧
      p.envelope = ⟨now, c.leaseId, payload.stamped now⟩ := by
  obtain ⟨b, -, h⟩ := except_bind_ok h
  obtain ⟨-, -, h⟩ := except_bind_ok h
  obtain ⟨-, -, h⟩ := except_bind_ok h
  obtain ⟨payload, hpayload, h⟩ := except_bind_ok h
  refine ⟨payload, hpayload, ?_⟩
  obtain ⟨-, rfl⟩ := Prod.mk.inj (Except.ok.inj h)
  rfl

theorem send_of_payload {c : ActionProviderClient} {part command : String} {message : ActionValue}
    {b : EndpointBinding} {payload : Payload} (now : Stamp)
    (hb : c.requireBinding part command = .ok b) (hvalid : rejectInvalidResult message = .ok ())
    (hkind : requireCommandForKind message command = .ok ())
    (hpayload : c.streamPayload part command message = .ok payload) :
    ∃ c' p, c.send part command message now = .ok (c', p) ∧
      p.envelope = ⟨now, c.leaseId, payload.stamped now⟩ := by
  unfold send
  rw [hb, hvalid, hkind, hpayload]
  exact ⟨_, _, rfl, rfl⟩

/-- A native message is sent as it is, whatever it contains. -/
theorem send_native {c : ActionProviderClient} {part : String} {b : EndpointBinding}
    (m : JointTrajectory) (now : Stamp) (hb : c.requireBinding part "joint_reference" = .ok b) :
    ∃ c' p, c.send part "joint_reference" (.jointTrajectory m) now = .ok (c', p) ∧
      p.envelope = ⟨now, c.leaseId, (Payload.joint m).stamped now⟩ :=
  send_of_payload now hb rfl rfl rfl

/-- Everything but a native message is converted, and the converter checks what it returns. -/
theorem streamPayload_joint {c : ActionProviderClient} {part : String} {message : ActionValue}
    {payload : Payload} (h : c.streamPayload part "joint_reference" message = .ok payload)
    (hnative : ∀ m, message ≠ .jointTrajectory m) :
    ∃ m, payload = .joint m ∧ m.WellFormed := by
  have hconverted : (c.jointNames part >>= fun names =>
      jointTrajectoryFromSpec message names false >>= fun m => .ok (Payload.joint m)) =
      .ok payload := by
    cases message with
    | jointTrajectory m => exact absurd rfl (hnative m)
    | _ => exact h
  obtain ⟨names, -, h⟩ := except_bind_ok hconverted
  obtain ⟨m, hm, h⟩ := except_bind_ok h
  exact ⟨m, (Except.ok.inj h).symm,
    ((jointTrajectoryFromSpec_ok_iff message names false m).mp hm).2.1⟩

/-- The payload of everything that `send` publishes for a joint reference is well-formed. -/
def SendWellFormed (c : ActionProviderClient) (part : String) (message : ActionValue)
    (now : Stamp) : Prop :=
  ∀ c' p, c.send part "joint_reference" message now = .ok (c', p) →
    ∃ m, p.envelope.command = .joint m ∧ m.WellFormed

/-- A malformed native message on a bound client. -/
def SendsMalformed (c : ActionProviderClient) (part : String) (message : ActionValue) : Prop :=
  ∃ m b, message = .jointTrajectory m ∧ c.requireBinding part "joint_reference" = .ok b ∧
    ¬ m.WellFormed

theorem sendWellFormed_iff (c : ActionProviderClient) (part : String) (message : ActionValue)
    (now : Stamp) : SendWellFormed c part message now ↔ ¬ SendsMalformed c part message := by
  constructor
  · rintro hsend ⟨m, b, rfl, hb, hmalformed⟩
    obtain ⟨c', p, h, henvelope⟩ := send_native m now hb
    obtain ⟨m', hm', hwf⟩ := hsend c' p h
    rw [henvelope] at hm'
    cases hm'
    exact hmalformed ⟨hwf.jointNames, hwf.points, hwf.positions⟩
  · intro hnot c' p h
    obtain ⟨b, hb, -⟩ := except_bind_ok h
    obtain ⟨payload, hpayload, henvelope⟩ := send_payload h
    have hpayload' : ∃ m, payload = .joint m ∧ m.WellFormed := by
      by_cases hnative : ∀ m, message ≠ .jointTrajectory m
      · exact streamPayload_joint hpayload hnative
      · obtain ⟨m, hm⟩ := not_forall.mp hnative
        obtain rfl := not_not.mp hm
        cases hpayload
        exact ⟨m, rfl, not_not.mp fun hmalformed => hnot ⟨m, b, rfl, hb, hmalformed⟩⟩
    obtain ⟨m, rfl, hwf⟩ := hpayload'
    rw [henvelope]
    exact ⟨_, rfl, hwf.jointNames, hwf.points, hwf.positions⟩

/-! ## Trajectory goals -/

def StartAnswer.dispatches : StartAnswer → Bool
  | .serverUnavailable => false
  | .dispatchRaised _ => false
  | _ => true

/-- The check before the goal is sent: the binding, and the converted trajectory. -/
theorem startCheck_ok_iff {c : ActionProviderClient} {part : String} {trajectory : ActionValue}
    {jointNames : List String} {m : JointTrajectory} :
    (∃ c', c.startCheck part trajectory jointNames = .ok (c', m)) ↔
      (∃ b, c.requireBinding part "joint_trajectory" = .ok b) ∧
        jointTrajectoryFromSpec trajectory jointNames true = .ok m := by
  constructor
  · intro ⟨c', h⟩
    obtain ⟨b, hb, h⟩ := except_bind_ok h
    obtain ⟨t, ht, h⟩ := except_bind_ok h
    refine ⟨⟨b, hb⟩, ?_⟩
    cases ha : c.actionClients.get? part with
    | some a =>
      rw [ha] at h
      rw [ht, (Prod.mk.inj (Except.ok.inj h)).2]
    | none =>
      rw [ha] at h
      rw [ht, (Prod.mk.inj (Except.ok.inj h)).2]
  · intro ⟨⟨b, hb⟩, hm⟩
    unfold startCheck
    rw [hb, hm]
    cases ha : c.actionClients.get? part with
    | some a => exact ⟨c, rfl⟩
    | none => exact ⟨_, rfl⟩

/-- The goal that is dispatched carries the checked trajectory; without a goal the call raises. -/
theorem startJointTrajectory_goal (c : ActionProviderClient) (part : String)
    (trajectory : ActionValue) (jointNames : List String) (now : Stamp) (answer : StartAnswer) :
    (∃ goal c' m, (c.startJointTrajectory part trajectory jointNames now answer).2.1 = some goal ∧
        goal.trajectory = m ∧ answer.dispatches = true ∧
        c.startCheck part trajectory jointNames = .ok (c', m)) ∨
    ((c.startJointTrajectory part trajectory jointNames now answer).2.1 = none ∧
      (∃ e, (c.startJointTrajectory part trajectory jointNames now answer).2.2 = .error e) ∧
      (answer.dispatches = false ∨ ∃ e, c.startCheck part trajectory jointNames = .error e)) := by
  unfold startJointTrajectory
  cases hc : c.startCheck part trajectory jointNames with
  | error e => exact Or.inr ⟨rfl, ⟨e, rfl⟩, Or.inr ⟨e, rfl⟩⟩
  | ok r =>
    obtain ⟨c', m⟩ := r
    cases answer with
    | serverUnavailable => exact Or.inr ⟨rfl, ⟨_, rfl⟩, Or.inl rfl⟩
    | dispatchRaised e => exact Or.inr ⟨rfl, ⟨e, rfl⟩, Or.inl rfl⟩
    | acceptTimedOut => exact Or.inl ⟨_, c', m, rfl, rfl, rfl, rfl⟩
    | acceptRaised e => exact Or.inl ⟨_, c', m, rfl, rfl, rfl, rfl⟩
    | answered handle =>
      refine Or.inl ⟨c'.startDispatch part m now, c', m, ?_, rfl, rfl, rfl⟩
      cases ha : c'.startAccept part handle <;> simp [ha]

/-- A dispatched goal is well-formed and its times are non-negative and strictly increasing; a call
that dispatches nothing raises. -/
def StartWellFormed (c : ActionProviderClient) (part : String) (trajectory : ActionValue)
    (jointNames : List String) (now : Stamp) (answer : StartAnswer) : Prop :=
  match (c.startJointTrajectory part trajectory jointNames now answer).2.1 with
  | some goal => goal.trajectory.WellFormed ∧ (∀ t ∈ goal.trajectory.times, 0 ≤ t) ∧
      goal.trajectory.times.Pairwise (· < ·)
  | none => ∃ e, (c.startJointTrajectory part trajectory jointNames now answer).2.2 = .error e

/-- A well-formed trajectory that the loop reads as increasing, for which a goal is sent although its
first time lies before the start or it hides a step back. -/
def StartsAmiss (c : ActionProviderClient) (part : String) (trajectory : ActionValue)
    (jointNames : List String) (answer : StartAnswer) : Prop :=
  ∃ b m, c.requireBinding part "joint_trajectory" = .ok b ∧ answer.dispatches = true ∧
    jointMessageFromSpec trajectory jointNames = .ok m ∧ m.WellFormed ∧
    ((-1) :: m.readTimes).Pairwise (· < ·) ∧
    ((∃ t, m.times.head? = some t ∧ t < 0) ∨ m.HidesStep)

/-- Increasing times are at least the first one. -/
theorem nonneg_of_head {times : List ℚ} (hsorted : times.Pairwise (· < ·))
    (hhead : ∀ t, times.head? = some t → 0 ≤ t) : ∀ t ∈ times, 0 ≤ t := by
  cases times with
  | nil => simp
  | cons t times =>
    have ht : 0 ≤ t := hhead t rfl
    rw [List.forall_mem_cons]
    refine ⟨ht, fun u hu => ?_⟩
    exact ht.trans ((List.pairwise_cons.mp hsorted).1 u hu).le

theorem startWellFormed_iff (c : ActionProviderClient) (part : String) (trajectory : ActionValue)
    (jointNames : List String) (now : Stamp) (answer : StartAnswer) :
    StartWellFormed c part trajectory jointNames now answer ↔
      ¬ StartsAmiss c part trajectory jointNames answer := by
  unfold StartWellFormed
  rcases startJointTrajectory_goal c part trajectory jointNames now answer with
    ⟨goal, c', m, hgoal, hm, hdispatches, hcheck⟩ | ⟨hnone, herror, hwhy⟩
  · obtain ⟨⟨b, hb⟩, hspec⟩ := startCheck_ok_iff.mp ⟨c', hcheck⟩
    obtain ⟨hmessage, hwf, hread⟩ :=
      (jointTrajectoryFromSpec_ok_iff trajectory jointNames true m).mp hspec
    have hsorted := times_sorted_iff (hread rfl)
    simp only [hgoal, hm]
    constructor
    · rintro ⟨-, hnonneg, htimes⟩ ⟨b', m', -, -, hmessage', -, -, hamiss⟩
      rw [hmessage] at hmessage'
      cases hmessage'
      rcases hamiss with ⟨t, hhead, hneg⟩ | hhides
      · have ht := hnonneg t (List.mem_of_mem_head? (by rw [hhead]; exact rfl))
        exact absurd hneg (not_lt.mpr ht)
      · exact hsorted.mp htimes hhides
    · intro hnot
      have htimes : m.times.Pairwise (· < ·) := hsorted.mpr fun hhides =>
        hnot ⟨b, m, hb, hdispatches, hmessage, hwf, hread rfl, Or.inr hhides⟩
      refine ⟨hwf, nonneg_of_head htimes fun t hhead => ?_, htimes⟩
      by_contra hneg
      exact hnot ⟨b, m, hb, hdispatches, hmessage, hwf, hread rfl,
        Or.inl ⟨t, hhead, not_le.mp hneg⟩⟩
  · simp only [hnone]
    refine ⟨fun _ => ?_, fun _ => herror⟩
    rintro ⟨b, m, hb, hdispatches, hmessage, hwf, hread, -⟩
    rcases hwhy with hd | ⟨e, he⟩
    · rw [hdispatches] at hd
      cases hd
    · have hspec := (jointTrajectoryFromSpec_ok_iff trajectory jointNames true m).mpr
        ⟨hmessage, hwf, fun _ => hread⟩
      obtain ⟨c', hok⟩ := startCheck_ok_iff.mpr ⟨⟨b, hb⟩, hspec⟩
      rw [he] at hok
      cases hok

/-- **Joint commands.** What `send` publishes for a joint reference is well-formed unless it was
given a malformed native message, and what `start_joint_trajectory` dispatches is well-formed and in
time unless its first point lies before the start or a second is hidden in the nanoseconds. -/
theorem joint_commands_wellFormed_iff (c : ActionProviderClient) (part : String)
    (message : ActionValue) (jointNames : List String) (now : Stamp) (answer : StartAnswer) :
    (SendWellFormed c part message now ↔ ¬ SendsMalformed c part message) ∧
      (StartWellFormed c part message jointNames now answer ↔
        ¬ StartsAmiss c part message jointNames answer) :=
  ⟨sendWellFormed_iff c part message now,
    startWellFormed_iff c part message jointNames now answer⟩

/-- The arm under a lease, with a streaming and a trajectory endpoint. -/
def boundArm : ActionProviderClient :=
  { ActionProviderClient.new none with
    leaseId := "lease-1"
    bindings := Dict.ofPairs
      [(("arm", "joint_reference"), ⟨"arm", "joint_reference", "/arm/joint_reference", false⟩),
        (("arm", "joint_trajectory"), ⟨"arm", "joint_trajectory", "/arm/joint_trajectory", true⟩)] }

/-- A native message without points is published. -/
theorem joint_commands_malformed : ¬ SendWellFormed boundArm "arm"
    (.jointTrajectory ⟨Header.default, ["joint_1"], []⟩) ⟨0, 0⟩ := by
  intro hsend
  refine (sendWellFormed_iff _ _ _ _).mp hsend ⟨⟨Header.default, ["joint_1"], []⟩,
    ⟨"arm", "joint_reference", "/arm/joint_reference", false⟩, rfl, by decide, fun hwf => ?_⟩
  exact hwf.points rfl

end ActionProviderClient
end PhysicalAiRuntime.Provider
