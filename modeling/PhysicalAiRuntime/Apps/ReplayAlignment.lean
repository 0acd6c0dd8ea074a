import PhysicalAiRuntime.Apps.QuinticTransition
import PhysicalAiRuntime.Apps.ReplaySession

/-! The first phase of `main` of the replay application, which brings the arms to the start of the
episode, and the two phases in a row. -/
namespace PhysicalAiRuntime.Apps
open Authority Provider Control
set_option autoImplicit false
set_option maxHeartbeats 250000
set_option linter.unusedSectionVars false

/-- What the first phase reads; the observed positions and the start poses are finite floats. -/
structure Alignment where
  arithmetic : Arithmetic
  parts : Dict Config.Key Config.PartConfig
  jointNames : List String
  jointPositions : List ℚ
  startPoses : Dict Config.Key (List ℚ)
  homingDurationS : ℚ

/-- What becomes of the homing of a part; `none` stands for an interrupt of the operator. -/
structure HomingAnswers where
  before : Option (List World.Callback)
  stamp : Stamp
  start : ActionProviderClient.StartAnswer
  meanwhile : Option (List World.Callback)
  result : ActionProviderClient.ResultAnswer

structure AlignmentSchedule where
  claim : ClaimAnswer
  waiting : List (List World.Callback)
  timeoutRelease : ReleaseAnswer
  homing : Config.Key → HomingAnswers
  closing : List World.Callback
  release : ReleaseAnswer

/-- The homing of one part to the start of the episode. -/
structure HomingPlan where
  part : Config.Key
  result : PlanResult

namespace Alignment
variable {ι : Type} [DecidableEq ι]

/-! ## The plans -/

def nameToPos (x : Alignment) : Dict String ℚ := Dict.ofPairs (x.jointNames.zip x.jointPositions)

/-- The joints of a part with their observed positions, where the part has more than one joint and
all of them were observed. -/
def current (x : Alignment) (part : Config.Key) : Option (List String × List ℚ) :=
  (x.parts.get? part).bind fun spec =>
    if spec.jointNames.length < 2 then none
    else (spec.jointNames.mapM x.nameToPos.get?).map fun q => (spec.jointNames, q)

def deltas (a : Arithmetic) (current start : List ℚ) : List ℚ :=
  List.zipWith (fun c s => |a.round (c - s)|) current start

def maxDelta (a : Arithmetic) (current start : List ℚ) : Except PyError ℚ :=
  match deltas a current start with
  | [] => .error ⟨.valueError, "max() iterable argument is empty"⟩
  | d :: ds => .ok (ds.foldl max d)

/-- `0.005`. -/
def tolerance (a : Arithmetic) : ℚ := a.round (1 / 200)

/-- The homing plan of a part that is away from its start pose. -/
def homingPlan (x : Alignment) (part : Config.Key) (start : List ℚ) :
    Except PyError (Option HomingPlan) :=
  match x.current part with
  | none => .ok none
  | some (joints, q) => do
    let start := start.take joints.length
    let delta ← maxDelta x.arithmetic q start
    if tolerance x.arithmetic < delta then do
      let plan ← generateQuinticTransition x.arithmetic joints q start x.homingDurationS 50
      return some ⟨part, plan⟩
    else return none

/-! ## The phase -/

/-- `planner_session.execute` and `execution.wait`. -/
def home (i : ι) (a : HomingAnswers) (w : World ι) (h : HomingPlan) :
    World ι × Except Recording.Raised Unit :=
  match a.before with
  | none => (w, .error .interrupt)
  | some callbacks =>
    let w := callbacks.foldl World.callback w
    match h.part with
    | .str part =>
      match w.execute i part (.planResult h.result) none a.stamp a.start with
      | (w, .error e) => (w, .error (.exception e))
      | (w, .ok _) =>
        match a.meanwhile with
        | none => (w, .error .interrupt)
        | some callbacks =>
          match (callbacks.foldl World.callback w).waitPlan i part a.result with
          | (w, .error e) => (w, .error (.exception e))
          | (w, .ok ()) => (w, .ok ())
    | _ => (w, .error (.exception (ReplaySession.notOwned w i h.part)))

/-- The loop over the start poses. -/
def homeAll (x : Alignment) (i : ι) (answers : Config.Key → HomingAnswers) :
    World ι → List (Config.Key × List ℚ) → World ι × Except Recording.Raised Unit
  | w, [] => (w, .ok ())
  | w, e :: es =>
    match x.homingPlan e.1 e.2 with
    | .error err => (w, .error (.exception err))
    | .ok none => homeAll x i answers w es
    | .ok (some h) =>
      match home i (answers e.1) w h with
      | (w, .error err) => (w, .error err)
      | (w, .ok ()) => homeAll x i answers w es

/-- The `with` statement over session `i`; `none` while its entry waits. -/
def align (x : Alignment) (w : World ι) (i : ι) (schedule : AlignmentSchedule) :
    Option (World ι × Except Recording.Raised Unit) :=
  match w.enter i schedule.claim schedule.waiting schedule.timeoutRelease with
  | none => none
  | some (w, .error e) => some (w, .error (.exception e))
  | some (w, .ok ()) =>
    let (w, result) := x.homeAll i schedule.homing w x.startPoses.entries
    match (schedule.closing.foldl World.callback w).exit i (ReplaySession.raised result)
        schedule.release with
    | (w, .error e) => some (w, .error (.exception e))
    | (w, .ok ()) => some (w, result)

/-- Both phases: the planner and the policy have sessions of their own, and `between` passes while
the policy is made. -/
def replayAligned (x : Alignment) (w : World ι) (planner policy : ι)
    (alignment : AlignmentSchedule) (between : List World.Callback) (schedule : ReplaySchedule)
    (timeline : List (Frame ℚ)) : Option (ReplaySession ι × Except Recording.Raised Unit) :=
  match x.align w planner alignment with
  | none => none
  | some (w, .error e) => some (ReplaySession.begin w, .error e)
  | some (w, .ok ()) =>
    ReplaySession.replay (between.foldl World.callback w) policy schedule timeline

/-! ## The plans end at the start poses -/

/-- Away from its start pose, a part has a plan for its joints. -/
theorem homingPlan_some {x : Alignment} {part : Config.Key} {start : List ℚ} {h : HomingPlan}
    (hplan : x.homingPlan part start = .ok (some h)) :
    ∃ joints q, x.current part = some (joints, q) ∧ h.part = part ∧
      generateQuinticTransition x.arithmetic joints q (start.take joints.length)
        x.homingDurationS 50 = .ok h.result := by
  unfold homingPlan at hplan
  cases hcurrent : x.current part with
  | none =>
    rw [hcurrent] at hplan
    cases hplan
  | some found =>
    obtain ⟨joints, q⟩ := found
    rw [hcurrent] at hplan
    obtain ⟨delta, -, hplan⟩ := except_bind_ok hplan
    by_cases haway : tolerance x.arithmetic < delta
    · rw [if_pos haway] at hplan
      obtain ⟨plan, hgenerate, hplan⟩ := except_bind_ok hplan
      cases hplan
      exact ⟨joints, q, rfl, rfl, hgenerate⟩
    · rw [if_neg haway] at hplan
      cases hplan

theorem le_foldl_max (d : ℚ) (ds : List ℚ) : ∀ e ∈ d :: ds, e ≤ ds.foldl max d := by
  induction ds generalizing d with
  | nil => simp
  | cons c ds ih =>
    intro e he
    have hmax := ih (max d c)
    rw [List.foldl_cons]
    cases List.mem_cons.mp he with
    | inl hd => exact hd ▸ (le_max_left d c).trans (hmax _ List.mem_cons_self)
    | inr he =>
      cases List.mem_cons.mp he with
      | inl hc => exact hc ▸ (le_max_right d c).trans (hmax _ List.mem_cons_self)
      | inr he => exact hmax e (List.mem_cons_of_mem _ he)

/-- No joint of the part is farther from its start pose than the tolerance. -/
def Near (a : Arithmetic) (current start : List ℚ) : Prop :=
  deltas a current start ≠ [] ∧ ∀ d ∈ deltas a current start, d ≤ tolerance a

theorem homingPlan_none {x : Alignment} {part : Config.Key} {start : List ℚ}
    (hplan : x.homingPlan part start = .ok none) {joints : List String} {q : List ℚ}
    (hcurrent : x.current part = some (joints, q)) :
    Near x.arithmetic q (start.take joints.length) := by
  unfold homingPlan at hplan
  rw [hcurrent] at hplan
  obtain ⟨delta, hdelta, hplan⟩ := except_bind_ok hplan
  have hle : delta ≤ tolerance x.arithmetic := by
    by_contra haway
    rw [if_pos (not_le.mp haway)] at hplan
    obtain ⟨plan, -, hplan⟩ := except_bind_ok hplan
    cases hplan
  unfold maxDelta at hdelta
  unfold Near
  cases hdeltas : deltas x.arithmetic q (start.take joints.length) with
  | nil =>
    rw [hdeltas] at hdelta
    cases hdelta
  | cons d ds =>
    rw [hdeltas] at hdelta
    cases hdelta
    exact ⟨List.cons_ne_nil d ds, fun e he => (le_foldl_max d ds e he).trans hle⟩

theorem alongJoints_zipWith {f : ℚ → ℚ → ℚ} {start goal positions : List ℚ}
    (h : alongJoints f start goal = .ok positions) : positions = List.zipWith f start goal := by
  induction start generalizing goal positions with
  | nil =>
    cases h
    rfl
  | cons q start ih =>
    cases goal with
    | nil => cases h
    | cons g goal =>
      obtain ⟨rest, hrest, h⟩ := except_bind_ok h
      cases h
      rw [ih hrest, List.zipWith_cons_cons]

/-- The last point of a transition is a rounded step over the whole distance. -/
theorem transitionPoint_last {a : Arithmetic} {start goal : List ℚ} {durationS : ℚ} {n : ℕ}
    (hn : n ≠ 0) {p : PlanPoint} (h : transitionPoint a start goal durationS n n = .ok p) :
    p.positions = List.zipWith (Homing.settled a) start goal := by
  have hone : a.round 1 = 1 := by
    simpa using a.exact 1 (by decide)
  have hten : a.round 10 = 10 := by
    simpa using a.exact 10 (by decide)
  have hfifteen : a.round 15 = 15 := by
    simpa using a.exact 15 (by decide)
  have hsix : a.round 6 = 6 := by
    simpa using a.exact 6 (by decide)
  have hminus : a.round (-5) = -5 := by
    simpa using a.exact (-5) (by decide)
  have hs : ((n : ℚ) / n) = 1 := div_self (Nat.cast_ne_zero.mpr hn)
  have hh : a.round (a.round (10 - 15) + 6) = 1 := by
    norm_num [hminus, hone]
  unfold transitionPoint at h
  dsimp only at h
  rw [hs, hone] at h
  simp only [one_pow, hone, mul_one, hten, hfifteen, hsix, hh, one_mul, a.idempotent] at h
  obtain ⟨positions, hpositions, h⟩ := except_bind_ok h
  obtain ⟨velocities, -, h⟩ := except_bind_ok h
  cases h
  exact alongJoints_zipWith hpositions

theorem generate_last {a : Arithmetic} {joints : List String} {start goal : List ℚ}
    {durationS : ℚ} {steps : ℤ} {r : PlanResult}
    (h : generateQuinticTransition a joints start goal durationS steps = .ok r) :
    r.jointNames = some joints ∧ r.points.getLast?.map PlanPoint.positions =
      some (List.zipWith (Homing.settled a) start goal) := by
  unfold generateQuinticTransition at h
  obtain ⟨points, hpoints, h⟩ := except_bind_ok h
  cases h
  refine ⟨rfl, ?_⟩
  have hrange : (List.range ((max steps 10).toNat + 1)).getLast? = some (max steps 10).toNat := by
    rw [List.range_succ, List.getLast?_concat]
  obtain ⟨p, hp, hpoint⟩ := forall₂_getLast?
    (R := fun p i => transitionPoint a start goal durationS (max steps 10).toNat i = .ok p)
    (List.Forall₂.flip (except_mapM_forall₂ hpoints)) hrange
  rw [hp, Option.map_some, transitionPoint_last (by omega) hpoint]

/-! ## The goals -/

/-- A goal for the part of a plan, with the joints and the positions of the plan. -/
structure Pursues (g : Goal) (h : HomingPlan) : Prop where
  part : h.part = .str g.resource
  jointNames : h.result.jointNames = some g.trajectory.jointNames
  positions : g.trajectory.points.map JointTrajectoryPoint.positions =
    h.result.points.map PlanPoint.positions

theorem message_of_plan {r : PlanResult} {names : List String} {m : JointTrajectory}
    (hnames : ∃ joints, r.jointNames = some joints ∧ joints ≠ [])
    (h : jointMessageFromSpec (.planResult r) names = .ok m) :
    r.jointNames = some m.jointNames ∧
      m.points.map JointTrajectoryPoint.positions = r.points.map PlanPoint.positions := by
  obtain ⟨joints, hjoints, hne⟩ := hnames
  obtain ⟨points, hpoints, h⟩ := except_bind_ok h
  cases h
  have hall := except_mapM_forall₂ hpoints
  constructor
  · change _ = some (if r.jointNames.getD [] = [] then names else r.jointNames.getD [])
    rw [hjoints, Option.getD_some, if_neg hne]
  · have heach : ∀ {ps : List PlanPoint} {qs : List JointTrajectoryPoint},
        List.Forall₂ (fun p q => jointPointFromSpec p = .ok q) (ps.map PlanPoint.attrs) qs →
        qs.map JointTrajectoryPoint.positions = ps.map PlanPoint.positions := by
      intro ps qs hqs
      induction ps generalizing qs with
      | nil =>
        cases hqs
        rfl
      | cons p ps ih =>
        cases hqs with
        | cons hq hqs =>
          cases hq
          rw [List.map_cons, List.map_cons, ih hqs]
    exact heach hall

theorem execute_goal (a : Agent) (part : String) {r : PlanResult} (client : ActionProviderClient)
    (now : Stamp) (answer : ActionProviderClient.StartAnswer)
    (hnames : ∃ joints, r.jointNames = some joints ∧ joints ≠ []) :
    (∀ g, (a.execute part (.planResult r) client now answer).2.1 = some g →
      Pursues g ⟨.str part, r⟩) ∧
    ((a.execute part (.planResult r) client now answer).2.1 = none →
      ∃ e, (a.execute part (.planResult r) client now answer).2.2 = .error e) := by
  unfold Agent.execute
  cases hx : a.executeChecks part (.planResult r) with
  | error e => exact ⟨fun g hg => (by cases hg), fun _ => ⟨e, rfl⟩⟩
  | ok names =>
    dsimp only
    unfold ActionProviderClient.startJointTrajectory
    cases hc : client.startCheck part (.planResult r) names with
    | error e => exact ⟨fun g hg => (by cases hg), fun _ => ⟨e, rfl⟩⟩
    | ok checked =>
      obtain ⟨client', m⟩ := checked
      have hspec := (ActionProviderClient.startCheck_ok_iff.mp ⟨client', hc⟩).2
      obtain ⟨hmessage, -, -⟩ := (jointTrajectoryFromSpec_ok_iff _ _ _ m).mp hspec
      obtain ⟨hjoints, hpositions⟩ := message_of_plan hnames hmessage
      have hgoal : Pursues (client'.startDispatch part m now) ⟨.str part, r⟩ :=
        ⟨rfl, hjoints, hpositions⟩
      cases answer with
      | serverUnavailable => exact ⟨fun g hg => (by cases hg), fun _ => ⟨_, rfl⟩⟩
      | dispatchRaised e => exact ⟨fun g hg => (by cases hg), fun _ => ⟨e, rfl⟩⟩
      | acceptTimedOut =>
        exact ⟨fun g hg => Option.some.inj hg ▸ hgoal, fun hnone => (by cases hnone)⟩
      | acceptRaised e =>
        exact ⟨fun g hg => Option.some.inj hg ▸ hgoal, fun hnone => (by cases hnone)⟩
      | answered handle =>
        dsimp only
        cases client'.startAccept part handle with
        | error e =>
          exact ⟨fun g hg => Option.some.inj hg ▸ hgoal, fun hnone => (by cases hnone)⟩
        | ok client'' =>
          exact ⟨fun g hg => Option.some.inj hg ▸ hgoal, fun hnone => (by cases hnone)⟩

/-! ## What the phase does -/

/-- From `w` to `w'` nothing was published and at most a goal for the plan was sent. -/
structure Tries (w w' : World ι) (h : HomingPlan) (sent : Option Goal) : Prop where
  published : w'.published = w.published
  dispatched : w'.dispatched = w.dispatched ++ sent.toList
  pursues : ∀ g, sent = some g → Pursues g h

theorem Tries.after {w w1 w' : World ι} {h : HomingPlan} {sent : Option Goal}
    (hw : World.SameCommands w w1) (ht : Tries w1 w' h sent) : Tries w w' h sent :=
  ⟨ht.published.trans hw.published, by rw [ht.dispatched, hw.dispatched], ht.pursues⟩

theorem Tries.before {w w1 w' : World ι} {h : HomingPlan} {sent : Option Goal}
    (ht : Tries w w1 h sent) (hw : World.SameCommands w1 w') : Tries w w' h sent :=
  ⟨hw.published.trans ht.published, hw.dispatched.trans ht.dispatched, ht.pursues⟩

theorem Tries.nothing {w w' : World ι} (hw : World.SameCommands w w') (h : HomingPlan) :
    Tries w w' h none :=
  ⟨hw.published, by rw [hw.dispatched, Option.toList_none, List.append_nil], fun g hg => by cases hg⟩

theorem execute_tries (w : World ι) (i : ι) (part : String) {r : PlanResult} (stamp : Stamp)
    (answer : ActionProviderClient.StartAnswer)
    (hnames : ∃ joints, r.jointNames = some joints ∧ joints ≠ []) :
    ∃ sent, Tries w (w.execute i part (.planResult r) none stamp answer).1 ⟨.str part, r⟩ sent ∧
      (sent = none → ∃ e, (w.execute i part (.planResult r) none stamp answer).2 = .error e) := by
  unfold World.execute
  dsimp only
  have hrefused : ∀ e : PyError, ∃ sent, Tries w w ⟨.str part, r⟩ sent ∧
      (sent = none → ∃ e', (Except.error e : Except PyError GoalHandle) = .error e') :=
    fun e => ⟨none, Tries.nothing (World.SameCommands.refl w) _, fun _ => ⟨e, rfl⟩⟩
  by_cases hp : part ∈ (w.session i).config.parts
  · rw [if_neg (not_not.mpr hp)]
    by_cases ha : w.activeFor i part = true
    · have hfresh : World.staleObservation (w.session i) part none = false := rfl
      rw [if_neg (not_not.mpr ha), hfresh, if_neg Bool.false_ne_true]
      obtain ⟨hgoal, hnone⟩ := execute_goal (w.session i).config.source part
        (w.session i).client stamp answer hnames
      cases hx : (w.session i).config.source.execute part (.planResult r) (w.session i).client
          stamp answer with
      | mk client rest =>
        obtain ⟨sent, result⟩ := rest
        rw [hx] at hgoal hnone
        dsimp only at hgoal hnone ⊢
        cases result with
        | error e => exact ⟨sent, ⟨rfl, rfl, hgoal⟩, fun _ => ⟨e, rfl⟩⟩
        | ok handle =>
          exact ⟨sent, ⟨rfl, rfl, hgoal⟩, fun hs => (by obtain ⟨e, he⟩ := hnone hs; cases he)⟩
    · rw [if_pos ha]
      exact hrefused _
  · rw [if_pos hp]
    exact hrefused _

theorem waitPlan_same (w : World ι) (i : ι) (part : String)
    (answer : ActionProviderClient.ResultAnswer) :
    World.SameCommands w (w.waitPlan i part answer).1 := ⟨rfl, rfl⟩

theorem waitPlan_ok {w : World ι} {i : ι} {part : String}
    {answer : ActionProviderClient.ResultAnswer} (h : (w.waitPlan i part answer).2 = .ok ()) :
    ∃ message, answer = .result .succeeded message := by
  cases answer with
  | timedOut => cases h
  | raised e => cases h
  | result status message =>
    cases status with
    | succeeded => exact ⟨message, rfl⟩
    | canceled => cases h
    | other code => cases h

/-- A homing that returns has sent its goal, and the goal succeeded. -/
theorem home_tries (i : ι) (a : HomingAnswers) (w : World ι) {h : HomingPlan}
    (hnames : ∃ joints, h.result.jointNames = some joints ∧ joints ≠ []) :
    ∃ sent, Tries w (home i a w h).1 h sent ∧ ((home i a w h).2 = .ok () →
      sent ≠ none ∧ ∃ message, a.result = .result .succeeded message) := by
  obtain ⟨part, r⟩ := h
  unfold home
  cases a.before with
  | none =>
    exact ⟨none, Tries.nothing (World.SameCommands.refl w) _, fun hok => (by cases hok)⟩
  | some cs =>
    dsimp only
    have hcs := World.sameCommands_callbacks w cs
    cases part with
    | int n => exact ⟨none, Tries.nothing hcs _, fun hok => (by cases hok)⟩
    | other o => exact ⟨none, Tries.nothing hcs _, fun hok => (by cases hok)⟩
    | str part =>
      dsimp only
      obtain ⟨sent, htries, hnone⟩ := execute_tries (cs.foldl World.callback w) i part
        a.stamp a.start hnames
      cases hx : (cs.foldl World.callback w).execute i part (.planResult r) none a.stamp a.start with
      | mk w1 result =>
        rw [hx] at htries hnone
        cases result with
        | error e => exact ⟨sent, htries.after hcs, fun hok => (by cases hok)⟩
        | ok handle =>
          have hsent : sent ≠ none := by
            intro hs
            obtain ⟨e, he⟩ := hnone hs
            cases he
          dsimp only
          cases a.meanwhile with
          | none => exact ⟨sent, htries.after hcs, fun hok => (by cases hok)⟩
          | some ds =>
            have hwaited := htries.before ((World.sameCommands_callbacks w1 ds).trans
              (waitPlan_same _ i part a.result))
            dsimp only
            cases hwait : (ds.foldl World.callback w1).waitPlan i part a.result with
            | mk w2 ended =>
              rw [hwait] at hwaited
              cases ended with
              | error e => exact ⟨sent, hwaited.after hcs, fun hok => (by cases hok)⟩
              | ok u =>
                have hended : ((ds.foldl World.callback w1).waitPlan i part a.result).2 = .ok () := by
                  rw [hwait]
                exact ⟨sent, hwaited.after hcs, fun _ => ⟨hsent, waitPlan_ok hended⟩⟩

/-! ## The loop -/

/-- The plans of the loop, in order. -/
def plans (x : Alignment) (es : List (Config.Key × List ℚ)) : List HomingPlan :=
  es.filterMap fun e => match x.homingPlan e.1 e.2 with
    | .ok h => h
    | .error _ => none

/-- Nothing was published, and the goals are those of the first plans. -/
structure Pursued (w w' : World ι) (plans : List HomingPlan) (goals : List Goal) : Prop where
  published : w'.published = w.published
  dispatched : w'.dispatched = w.dispatched ++ goals
  pursued : ∃ done, done <+: plans ∧ List.Forall₂ Pursues goals done

/-- Every plan was carried out. -/
structure Completed (x : Alignment) (answers : Config.Key → HomingAnswers)
    (es : List (Config.Key × List ℚ)) (goals : List Goal) : Prop where
  planned : ∀ e ∈ es, ∃ h, x.homingPlan e.1 e.2 = .ok h
  pursued : List.Forall₂ Pursues goals (x.plans es)
  succeeded : ∀ h ∈ x.plans es, ∃ message, (answers h.part).result = .result .succeeded message

theorem current_two {x : Alignment} {part : Config.Key} {joints : List String} {q : List ℚ}
    (h : x.current part = some (joints, q)) : 2 ≤ joints.length := by
  obtain ⟨spec, -, h⟩ := Option.bind_eq_some_iff.mp h
  by_cases hfew : spec.jointNames.length < 2
  · rw [if_pos hfew] at h
    cases h
  · rw [if_neg hfew] at h
    obtain ⟨q', -, h⟩ := Option.map_eq_some_iff.mp h
    cases h
    omega

theorem homingPlan_joints {x : Alignment} {part : Config.Key} {start : List ℚ} {h : HomingPlan}
    (hplan : x.homingPlan part start = .ok (some h)) :
    ∃ joints, h.result.jointNames = some joints ∧ joints ≠ [] := by
  obtain ⟨joints, q, hcurrent, -, hgenerate⟩ := homingPlan_some hplan
  refine ⟨joints, (generate_last hgenerate).1, ?_⟩
  have htwo := current_two hcurrent
  intro hnil
  rw [hnil] at htwo
  simp at htwo

theorem homeAll_pursues (x : Alignment) (i : ι) (answers : Config.Key → HomingAnswers)
    (w : World ι) (es : List (Config.Key × List ℚ)) :
    ∃ goals, Pursued w (x.homeAll i answers w es).1 (x.plans es) goals ∧
      ((x.homeAll i answers w es).2 = .ok () → x.Completed answers es goals) := by
  induction es generalizing w with
  | nil =>
    refine ⟨[], ⟨rfl, (List.append_nil _).symm, [], List.nil_prefix, List.Forall₂.nil⟩, fun _ => ?_⟩
    exact ⟨List.forall_mem_nil _, List.Forall₂.nil, List.forall_mem_nil _⟩
  | cons e es ih =>
    unfold homeAll
    cases hplan : x.homingPlan e.1 e.2 with
    | error err =>
      refine ⟨[], ⟨rfl, (List.append_nil _).symm, [], List.nil_prefix, List.Forall₂.nil⟩, ?_⟩
      exact fun hok => by cases hok
    | ok planned =>
      cases planned with
      | none =>
        have hplans : x.plans (e :: es) = x.plans es := by
          unfold plans
          rw [List.filterMap_cons_none (by rw [hplan])]
        obtain ⟨goals, hpursued, hcompleted⟩ := ih w
        rw [hplans]
        refine ⟨goals, hpursued, fun hok => ?_⟩
        obtain ⟨hplanned, hall, hsucceeded⟩ := hcompleted hok
        refine ⟨List.forall_mem_cons.mpr ⟨⟨none, hplan⟩, hplanned⟩, ?_, ?_⟩
        · rw [hplans]
          exact hall
        · rw [hplans]
          exact hsucceeded
      | some h =>
        have hplans : x.plans (e :: es) = h :: x.plans es := by
          unfold plans
          rw [List.filterMap_cons_some (by rw [hplan])]
        obtain ⟨-, -, -, hpart, -⟩ := homingPlan_some hplan
        obtain ⟨sent, htries, hreturned⟩ :=
          home_tries i (answers e.1) w (homingPlan_joints hplan)
        rw [hplans]
        dsimp only
        cases hhome : home i (answers e.1) w h with
        | mk w1 result =>
          rw [hhome] at htries hreturned
          cases result with
          | error err =>
            refine ⟨sent.toList, ⟨htries.published, htries.dispatched, ?_⟩, fun hok => ?_⟩
            · cases sent with
              | none => exact ⟨[], List.nil_prefix, List.Forall₂.nil⟩
              | some g =>
                exact ⟨[h], List.prefix_append [h] _,
                  List.Forall₂.cons (htries.pursues g rfl) List.Forall₂.nil⟩
            · cases hok
          | ok u =>
            obtain ⟨hsent, message, hmessage⟩ := hreturned rfl
            obtain ⟨g, rfl⟩ := Option.ne_none_iff_exists'.mp hsent
            have hg := htries.pursues g rfl
            obtain ⟨goals, hpursued, hcompleted⟩ := ih w1
            obtain ⟨done, hdone, hfor⟩ := hpursued.pursued
            refine ⟨g :: goals, ⟨hpursued.published.trans htries.published, ?_, h :: done,
              List.prefix_cons_inj h |>.mpr hdone, List.Forall₂.cons hg hfor⟩, fun hok => ?_⟩
            · rw [hpursued.dispatched, htries.dispatched, List.append_assoc]
              rfl
            · obtain ⟨hplanned, hall, hsucceeded⟩ := hcompleted hok
              refine ⟨List.forall_mem_cons.mpr ⟨⟨some h, hplan⟩, hplanned⟩, ?_, ?_⟩
              · rw [hplans]
                exact List.Forall₂.cons hg hall
              · rw [hplans]
                refine List.forall_mem_cons.mpr ⟨⟨message, ?_⟩, hsucceeded⟩
                rw [hpart]
                exact hmessage

/-! ## Both phases -/

/-- The part is skipped, near its start pose, or was brought there: a goal over its joints that
ends at the start pose, up to rounding, has succeeded. -/
def StartsAligned (x : Alignment) (schedule : AlignmentSchedule) (goals : List Goal)
    (e : Config.Key × List ℚ) : Prop :=
  ∀ joints q, x.current e.1 = some (joints, q) →
    Near x.arithmetic q (e.2.take joints.length) ∨
    ((∃ message, (schedule.homing e.1).result = .result .succeeded message) ∧
      ∃ g ∈ goals, e.1 = .str g.resource ∧ g.trajectory.jointNames = joints ∧
        g.trajectory.points.getLast?.map JointTrajectoryPoint.positions =
          some (List.zipWith (Homing.settled x.arithmetic) q (e.2.take joints.length)))

theorem Completed.startsAligned {x : Alignment} {schedule : AlignmentSchedule}
    {es : List (Config.Key × List ℚ)} {goals : List Goal}
    (h : x.Completed schedule.homing es goals) {e : Config.Key × List ℚ} (he : e ∈ es) :
    x.StartsAligned schedule goals e := by
  intro joints q hcurrent
  obtain ⟨planned, hplan⟩ := h.planned e he
  cases planned with
  | none => exact Or.inl (homingPlan_none hplan hcurrent)
  | some p =>
    have hp : p ∈ x.plans es := List.mem_filterMap.mpr ⟨e, he, by rw [hplan]⟩
    obtain ⟨joints', q', hcurrent', hpart, hgenerate⟩ := homingPlan_some hplan
    rw [hcurrent] at hcurrent'
    cases hcurrent'
    obtain ⟨g, hg, hpursues⟩ := forall₂_mem_right h.pursued hp
    obtain ⟨hnames, hlast⟩ := generate_last hgenerate
    refine Or.inr ⟨hpart ▸ h.succeeded p hp, g, hg, hpart ▸ hpursues.part, ?_, ?_⟩
    · exact Option.some.inj (hpursues.jointNames.symm.trans hnames)
    · rw [← List.getLast?_map, hpursues.positions, List.getLast?_map]
      exact hlast

theorem align_pursues {x : Alignment} {w w' : World ι} {i : ι} {schedule : AlignmentSchedule}
    {result : Except Recording.Raised Unit} (h : x.align w i schedule = some (w', result)) :
    ∃ goals, Pursued w w' (x.plans x.startPoses.entries) goals ∧
      (result = .ok () → x.Completed schedule.homing x.startPoses.entries goals) := by
  unfold align at h
  split at h
  · cases h
  · next w1 e henter =>
    cases h
    have hsame := World.sameCommands_enter henter
    refine ⟨[], ⟨hsame.published, ?_, [], List.nil_prefix, List.Forall₂.nil⟩, fun hok => ?_⟩
    · rw [hsame.dispatched, List.append_nil]
    · cases hok
  · next w1 henter =>
    have hsame := World.sameCommands_enter henter
    obtain ⟨goals, hpursued, hcompleted⟩ :=
      homeAll_pursues x i schedule.homing w1 x.startPoses.entries
    cases hloop : x.homeAll i schedule.homing w1 x.startPoses.entries with
    | mk w2 looped =>
      rw [hloop] at hpursued hcompleted h
      dsimp only at h
      have hexit := (World.sameCommands_callbacks w2 schedule.closing).trans
        (World.sameCommands_exit _ i (ReplaySession.raised looped) schedule.release)
      have hthrough : ∀ w3, World.SameCommands w2 w3 →
          Pursued w w3 (x.plans x.startPoses.entries) goals := by
        intro w3 hw3
        refine ⟨hw3.published.trans (hpursued.published.trans hsame.published), ?_,
          hpursued.pursued⟩
        rw [hw3.dispatched, hpursued.dispatched, hsame.dispatched]
      split at h
      · next w3 e hleft =>
        rw [hleft] at hexit
        cases h
        exact ⟨goals, hthrough _ hexit, fun hok => by cases hok⟩
      · next w3 hleft =>
        rw [hleft] at hexit
        cases h
        exact ⟨goals, hthrough _ hexit, hcompleted⟩

/-- **Alignment.** In the first phase goals are sent for the parts away from their start poses, one
after the other; and a replay that sends a command has all parts at the start of the episode. -/
theorem replay_starts_aligned {x : Alignment} {w : World ι} {planner policy : ι}
    {alignment : AlignmentSchedule} {between : List World.Callback} {schedule : ReplaySchedule}
    {timeline : List (Frame ℚ)} {s : ReplaySession ι} {result : Except Recording.Raised Unit}
    (h : x.replayAligned w planner policy alignment between schedule timeline =
      some (s, result)) :
    ∃ goals, s.world.dispatched = w.dispatched ++ goals ∧
      (∃ done, done <+: x.plans x.startPoses.entries ∧ List.Forall₂ Pursues goals done) ∧
      s.world.published = w.published ++ s.handled.flatMap Handled.published ∧
      ((s.handled = [] ∧ ∃ e, result = .error e) ∨
        ∀ e ∈ x.startPoses.entries, x.StartsAligned alignment goals e) := by
  unfold replayAligned at h
  split at h
  · cases h
  · next w1 e halign =>
    obtain ⟨goals, hpursued, -⟩ := align_pursues halign
    cases h
    refine ⟨goals, hpursued.dispatched, hpursued.pursued, ?_, Or.inl ⟨rfl, _, rfl⟩⟩
    exact hpursued.published.trans (List.append_nil _).symm
  · next w1 halign =>
    obtain ⟨goals, hpursued, hcompleted⟩ := align_pursues halign
    obtain ⟨hplays, -⟩ := ReplaySession.replay_plays h
    have hbetween := World.sameCommands_callbacks w1 between
    refine ⟨goals, ?_, hpursued.pursued, ?_, Or.inr fun e he => ?_⟩
    · rw [hplays.dispatched, hbetween.dispatched, hpursued.dispatched]
    · rw [hplays.published, hbetween.published, hpursued.published]
    · exact (hcompleted rfl).startsAligned he

/-- Two joints that were observed away from the start of the episode. -/
def awayArm : Alignment where
  arithmetic := Homing.exactArithmetic
  parts := Dict.ofPairs [jointPart "arm" ["joint_1", "joint_2"]]
  jointNames := ["joint_1", "joint_2"]
  jointPositions := [0, 0]
  startPoses := Dict.ofPairs [(.str "arm", [1, -1])]
  homingDurationS := 3

def replayAgent (name command : String) : Agent where
  name := name
  sourceRole := .policy
  sourceInstance := name
  metadata := []
  resources := Dict.ofPairs [("arm", command)]
  config := some (Dict.ofPairs [("arm", ⟨["joint_1", "joint_2"], none, none⟩)])

def plannerConfig : SessionConfig :=
  { World.armConfig with
    source := replayAgent "Planner" "joint_trajectory"
    parts_subset := by decide }

def policyConfig : SessionConfig :=
  { World.armConfig with
    source := replayAgent "Policy" "joint_reference"
    parts_subset := by decide }

/-- The planner is session `true`, the policy session `false`. -/
def replayConfig (planner : Bool) : SessionConfig :=
  if planner then plannerConfig else policyConfig

def replayWorld : World Bool :=
  World.init 0 Timeouts.default replayConfig fun i =>
    ActionProviderClient.new (replayConfig i).source.config

def awaySchedule : AlignmentSchedule where
  claim := .response ⟨true, "", "lease-1",
    [⟨"arm", "joint_trajectory", "/arm/joint_trajectory", true⟩]⟩
  waiting := [[.status (Deployment.armStatus "lease-1")]]
  timeoutRelease := .response true ""
  homing _ := ⟨some [], ⟨0, 0⟩, .answered ⟨0, true⟩, some [], .result .succeeded ""⟩
  closing := []
  release := .response true ""

def awayReplay : ReplaySchedule :=
  { ReplaySession.armReplay with
    claim := .response ⟨true, "", "lease-2", [World.armEndpoint]⟩
    waiting := [[.status (Deployment.armStatus "lease-2")]] }

def awayTimeline : List (Frame ℚ) := [⟨0, Dict.ofPairs [(.str "arm", [1, -1])]⟩]

theorem replay_starts_aligned_away : ∃ s goals,
    awayArm.replayAligned replayWorld true false awaySchedule [] awayReplay awayTimeline =
      some (s, .ok ()) ∧
    s.handled.length = 1 ∧ s.world.dispatched = goals ∧
    ∀ e ∈ awayArm.startPoses.entries, awayArm.StartsAligned awaySchedule goals e := by
  have hresult : (awayArm.replayAligned replayWorld true false awaySchedule [] awayReplay
      awayTimeline).map (fun r => (r.1.handled.length, r.2)) = some (1, .ok ()) := by
    decide +kernel
  obtain ⟨⟨s, result⟩, hs, hboth⟩ := Option.map_eq_some_iff.mp hresult
  obtain ⟨hhandled, rfl⟩ := Prod.mk.inj hboth
  obtain ⟨goals, hdispatched, -, -, hnone | haligned⟩ := replay_starts_aligned hs
  · obtain ⟨-, e, he⟩ := hnone
    cases he
  · exact ⟨s, goals, hs, hhandled, hdispatched, haligned⟩

end Alignment
end PhysicalAiRuntime.Apps
