import PhysicalAiRuntime.Foundations.Quintic
import PhysicalAiRuntime.Apps.Homing

/-! `generate_quintic_transition` of the replay application: the plan that brings the robot to the
start of an episode. Over exact rationals it follows the quintic blend, as the interpolation of the
recorder does. -/
namespace PhysicalAiRuntime.Apps
open Provider
set_option autoImplicit false
set_option maxHeartbeats 250000

/-! ## The plan -/

/-- `[f(q_start[j], q_goal[j]) for j in range(len(q_start))]`. -/
def alongJoints (f : ℚ → ℚ → ℚ) : List ℚ → List ℚ → Except PyError (List ℚ)
  | [], _ => .ok []
  | _ :: _, [] => .error ⟨.indexError, "list index out of range"⟩
  | q :: start, g :: goal => do return f q g :: (← alongJoints f start goal)

def transitionPoint (a : Arithmetic) (start goal : List ℚ) (durationS : ℚ) (steps i : ℕ) :
    Except PyError PlanPoint := do
  let round := a.round
  let s := round (i / steps)
  let h := round (round (round (10 * round (s ^ 3)) - round (15 * round (s ^ 4))) +
    round (6 * round (s ^ 5)))
  let velScale := round (round (round (round (30 * round (s ^ 2)) - round (60 * round (s ^ 3))) +
    round (30 * round (s ^ 4))) / max durationS (round (1 / 10)))
  let positions ← alongJoints (fun q g => round (q + round (h * round (g - q)))) start goal
  let velocities ← alongJoints (fun q g => round (velScale * round (g - q))) start goal
  return ⟨positions, some velocities, none, round (s * durationS)⟩

def generateQuinticTransition (a : Arithmetic) (jointNames : List String) (start goal : List ℚ)
    (durationS : ℚ) (steps : ℤ) : Except PyError PlanResult := do
  let steps := (max steps 10).toNat
  let points ← (List.range (steps + 1)).mapM (transitionPoint a start goal durationS steps)
  return ⟨true, "", some jointNames, points⟩

/-! ## A transition that does not overshoot -/

/-- A motion of every joint from `start` to `goal` in `n` steps. -/
structure Transition (start goal : List ℚ) (durationS : ℚ) (n : ℕ) (points : List PlanPoint) :
    Prop where
  count : points.length = n + 1
  first : points.head?.map PlanPoint.positions = some start
  last : points.getLast?.map PlanPoint.positions = some goal
  joints : ∀ p ∈ points, p.positions.length = start.length ∧
    ∃ velocities, p.velocities = some velocities ∧ velocities.length = start.length
  monotone : points.Pairwise fun p p' => ∀ (j : ℕ) (q g x x' : ℚ), start[j]? = some q →
    goal[j]? = some g → p.positions[j]? = some x → p'.positions[j]? = some x' →
    (q ≤ g → x ≤ x') ∧ (g ≤ q → x' ≤ x)
  between : ∀ p ∈ points, ∀ (j : ℕ) (q g x : ℚ), start[j]? = some q → goal[j]? = some g →
    p.positions[j]? = some x → min q g ≤ x ∧ x ≤ max q g
  atRest : points.head?.bind PlanPoint.velocities = some (start.map fun _ => 0) ∧
    points.getLast?.bind PlanPoint.velocities = some (start.map fun _ => 0)
  towards : ∀ p ∈ points, ∀ velocities, p.velocities = some velocities →
    ∀ (j : ℕ) (q g v : ℚ), start[j]? = some q → goal[j]? = some g → velocities[j]? = some v →
    (q ≤ g → 0 ≤ v) ∧ (g ≤ q → v ≤ 0)
  increasing : points.Pairwise fun p p' => p.timeFromStartS < p'.timeFromStartS
  fromZero : points.head?.map PlanPoint.timeFromStartS = some 0
  toDuration : points.getLast?.map PlanPoint.timeFromStartS = some durationS

/-! ## The exact points -/

theorem alongJoints_ok (f : ℚ → ℚ → ℚ) {start goal : List ℚ}
    (h : start.length = goal.length) : alongJoints f start goal = .ok (List.zipWith f start goal) := by
  induction start generalizing goal with
  | nil => rfl
  | cons q start ih =>
    cases goal with
    | nil => cases h
    | cons g goal =>
      rw [alongJoints, ih (Nat.succ.inj h)]
      rfl

/-- The positions of the curve when it has gone the part `s` of its time. -/
def curve (start goal : List ℚ) (s : ℚ) : List ℚ :=
  List.zipWith (fun q g => Quintic.along q g (Quintic.blend s)) start goal

def curveVelocities (start goal : List ℚ) (durationS s : ℚ) : List ℚ :=
  List.zipWith (fun q g => Quintic.slope s / max durationS (1 / 10) * (g - q)) start goal

def exactPoint (start goal : List ℚ) (durationS : ℚ) (n i : ℕ) : PlanPoint :=
  ⟨curve start goal (i / n), some (curveVelocities start goal durationS (i / n)), none,
    i / n * durationS⟩

theorem transitionPoint_exact {start goal : List ℚ} (h : start.length = goal.length)
    (durationS : ℚ) (n i : ℕ) :
    transitionPoint Homing.exactArithmetic start goal durationS n i =
      .ok (exactPoint start goal durationS n i) := by
  unfold transitionPoint
  dsimp only
  rw [alongJoints_ok _ h, alongJoints_ok _ h]
  rfl

theorem generateQuinticTransition_exact (jointNames : List String) {start goal : List ℚ}
    (h : start.length = goal.length) (durationS : ℚ) (steps : ℤ) :
    generateQuinticTransition Homing.exactArithmetic jointNames start goal durationS steps =
      .ok ⟨true, "", some jointNames, (List.range ((max steps 10).toNat + 1)).map
        (exactPoint start goal durationS (max steps 10).toNat)⟩ := by
  unfold generateQuinticTransition
  dsimp only
  rw [except_mapM_map fun i _ => transitionPoint_exact h durationS _ i]
  rfl

theorem zipWith_left {f : ℚ → ℚ → ℚ} {u : ℚ → ℚ} (hf : ∀ q g, f q g = u q) {start goal : List ℚ}
    (h : start.length = goal.length) : List.zipWith f start goal = start.map u := by
  induction start generalizing goal with
  | nil => rfl
  | cons q start ih =>
    cases goal with
    | nil => cases h
    | cons g goal => rw [List.zipWith_cons_cons, hf, ih (Nat.succ.inj h), List.map_cons]

theorem curve_zero {start goal : List ℚ} (h : start.length = goal.length) :
    curve start goal 0 = start := by
  have hleft := zipWith_left (f := fun q g => Quintic.along q g (Quintic.blend 0)) (u := id)
    (fun q g => by rw [Quintic.blend_zero, Quintic.along_zero, id]) h
  rw [List.map_id] at hleft
  exact hleft

theorem curve_one {start goal : List ℚ} (h : start.length = goal.length) :
    curve start goal 1 = goal := by
  have hleft := zipWith_left (f := fun g q => Quintic.along q g (Quintic.blend 1)) (u := id)
    (fun g q => by rw [Quintic.blend_one, Quintic.along_one, id]) h.symm
  rw [List.map_id, List.zipWith_comm] at hleft
  exact hleft

/-- At both ends, where the slope is zero, the joints rest. -/
theorem curveVelocities_rest {start goal : List ℚ} (h : start.length = goal.length)
    (durationS : ℚ) {s : ℚ} (hs : Quintic.slope s = 0) :
    curveVelocities start goal durationS s = start.map fun _ => 0 := by
  apply zipWith_left _ h
  intro q g
  rw [hs, zero_div, zero_mul]

theorem curve_get {start goal : List ℚ} {s q g x : ℚ} {j : ℕ} (hq : start[j]? = some q)
    (hg : goal[j]? = some g) (hx : (curve start goal s)[j]? = some x) :
    x = Quintic.along q g (Quintic.blend s) := by
  unfold curve at hx
  rw [List.getElem?_zipWith, hq, hg] at hx
  exact (Option.some.inj hx).symm

theorem curveVelocities_get {start goal : List ℚ} {durationS s q g v : ℚ} {j : ℕ}
    (hq : start[j]? = some q) (hg : goal[j]? = some g)
    (hv : (curveVelocities start goal durationS s)[j]? = some v) :
    v = Quintic.slope s / max durationS (1 / 10) * (g - q) := by
  unfold curveVelocities at hv
  rw [List.getElem?_zipWith, hq, hg] at hv
  exact (Option.some.inj hv).symm

/-! ## Quintic transition -/

theorem getLast?_points (f : ℕ → PlanPoint) (n : ℕ) :
    ((List.range (n + 1)).map f).getLast? = some (f n) := by
  rw [List.range_succ, List.map_append]
  exact List.getLast?_concat

theorem head?_points (f : ℕ → PlanPoint) (n : ℕ) :
    ((List.range (n + 1)).map f).head? = some (f 0) := by
  rw [List.range_succ_eq_map, List.map_cons, List.head?_cons]

theorem transition_exactPoints {start goal : List ℚ} (h : start.length = goal.length)
    {durationS : ℚ} (hd : 0 < durationS) {n : ℕ} (hn : 0 < n) :
    Transition start goal durationS n
      ((List.range (n + 1)).map (exactPoint start goal durationS n)) := by
  have hpos : (0 : ℚ) < n := by
    exact_mod_cast hn
  have hzero : ((0 : ℕ) : ℚ) / n = 0 := by
    rw [Nat.cast_zero, zero_div]
  have hone : (n : ℚ) / n = 1 := div_self hpos.ne'
  have hscale : (0 : ℚ) < max durationS (1 / 10) := lt_max_of_lt_left hd
  have hlt : ∀ {i k : ℕ}, i < k → (i : ℚ) / n < k / n := by
    intro i k hik
    exact div_lt_div_of_pos_right (by exact_mod_cast hik) hpos
  refine {
    count := by rw [List.length_map, List.length_range]
    first := ?_
    last := ?_
    joints := ?_
    monotone := ?_
    between := ?_
    atRest := ?_
    towards := ?_
    increasing := ?_
    fromZero := ?_
    toDuration := ?_ }
  · rw [head?_points]
    exact congrArg some ((congrArg (curve start goal) hzero).trans (curve_zero h))
  · rw [getLast?_points]
    exact congrArg some ((congrArg (curve start goal) hone).trans (curve_one h))
  · intro p hp
    obtain ⟨i, -, rfl⟩ := List.mem_map.mp hp
    refine ⟨?_, _, rfl, ?_⟩
    · exact List.length_zipWith.trans (by rw [h, Nat.min_self])
    · exact List.length_zipWith.trans (by rw [h, Nat.min_self])
  · rw [List.pairwise_map]
    refine List.pairwise_lt_range.imp fun {i k} hik j q g x x' hq hg hx hx' => ?_
    have hblend := Quintic.blend_monotone (hlt hik).le
    rw [curve_get hq hg hx, curve_get hq hg hx']
    exact ⟨fun hqg => Quintic.along_mono hqg hblend, fun hgq => Quintic.along_anti hgq hblend⟩
  · intro p hp j q g x hq hg hx
    obtain ⟨i, hi, rfl⟩ := List.mem_map.mp hp
    have hi : (i : ℚ) ≤ n := by
      exact_mod_cast Nat.le_of_lt_succ (List.mem_range.mp hi)
    rw [curve_get hq hg hx]
    exact Quintic.along_between q g
      (Quintic.blend_nonneg (div_nonneg (Nat.cast_nonneg i) hpos.le))
      (Quintic.blend_le_one ((div_le_one hpos).mpr hi))
  · rw [head?_points, getLast?_points]
    constructor
    · exact congrArg some (curveVelocities_rest h durationS (by rw [hzero, Quintic.slope_zero]))
    · exact congrArg some (curveVelocities_rest h durationS (by rw [hone, Quintic.slope_one]))
  · intro p hp velocities hvelocities j q g v hq hg hv
    obtain ⟨i, -, rfl⟩ := List.mem_map.mp hp
    cases hvelocities
    have hslope := div_nonneg (Quintic.slope_nonneg ((i : ℚ) / n)) hscale.le
    rw [curveVelocities_get hq hg hv]
    exact ⟨fun hqg => mul_nonneg hslope (sub_nonneg.mpr hqg),
      fun hgq => mul_nonpos_of_nonneg_of_nonpos hslope (sub_nonpos.mpr hgq)⟩
  · rw [List.pairwise_map]
    exact List.pairwise_lt_range.imp fun hik => mul_lt_mul_of_pos_right (hlt hik) hd
  · rw [head?_points]
    exact congrArg some (by rw [exactPoint, hzero, zero_mul])
  · rw [getLast?_points]
    exact congrArg some (by rw [exactPoint, hone, one_mul])

/-- Over exact rationals the recorder interpolates the same curve. -/
theorem interpolate_exact {start goal : List ℚ} (h : start.length = goal.length) (x : Homing)
    (hx : x.arithmetic = Homing.exactArithmetic) (k : ℕ) :
    Homing.interpolate x.arithmetic (x.blend k) start goal =
      .ok (curve start goal ((k : ℚ) / x.steps)) := by
  have hblend : x.blend k = Quintic.blend ((k : ℚ) / x.steps) := by
    unfold Homing.blend
    rw [hx]
    rfl
  rw [hx, hblend]
  induction start generalizing goal with
  | nil =>
    cases goal with
    | nil => rfl
    | cons g goal => cases h
  | cons q start ih =>
    cases goal with
    | nil => cases h
    | cons g goal =>
      rw [Homing.interpolate, ih (Nat.succ.inj h)]
      rfl

/-- **Quintic transition.** The plan moves every joint from start to goal without overshoot, and
at equal step counts the recorder commands the same positions. -/
theorem quintic_transition (jointNames : List String) {start goal : List ℚ}
    (h : start.length = goal.length) {durationS : ℚ} (hd : 0 < durationS) (steps : ℤ) :
    ∃ r, generateQuinticTransition Homing.exactArithmetic jointNames start goal durationS steps =
        .ok r ∧ r.valid = true ∧ r.jointNames = some jointNames ∧
      Transition start goal durationS (max steps 10).toNat r.points ∧
      ∀ x : Homing, x.arithmetic = Homing.exactArithmetic → x.steps = (max steps 10).toNat →
        ∀ k p, r.points[k]? = some p →
          Homing.interpolate x.arithmetic (x.blend k) start goal = .ok p.positions := by
  refine ⟨_, generateQuinticTransition_exact jointNames h durationS steps, rfl, rfl,
    transition_exactPoints h hd (by omega), fun x hx hsteps k p hp => ?_⟩
  rw [List.getElem?_map] at hp
  obtain ⟨i, hi, rfl⟩ := Option.map_eq_some_iff.mp hp
  obtain ⟨hlt, hi⟩ := List.getElem?_eq_some_iff.mp hi
  rw [List.getElem_range] at hi
  subst hi
  rw [interpolate_exact h x hx, hsteps]
  rfl

theorem quintic_transition_arm : ∃ r,
    generateQuinticTransition Homing.exactArithmetic ["joint_1"] [1] [1 / 2] 3 50 = .ok r ∧
      r.valid = true ∧ r.jointNames = some ["joint_1"] ∧
      Transition [1] [1 / 2] 3 (max 50 10 : ℤ).toNat r.points ∧
      ∀ x : Homing, x.arithmetic = Homing.exactArithmetic → x.steps = (max 50 10 : ℤ).toNat →
        ∀ k p, r.points[k]? = some p →
          Homing.interpolate x.arithmetic (x.blend k) [1] [1 / 2] = .ok p.positions :=
  @quintic_transition ["joint_1"] [1] [1 / 2] rfl 3 (by norm_num) 50

end PhysicalAiRuntime.Apps
