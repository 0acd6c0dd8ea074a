import Mathlib.Data.Rat.Floor
import Mathlib.Data.List.Induction
import Mathlib.Tactic.NormNum
import PhysicalAiRuntime.Provider.JointCommands
import PhysicalAiRuntime.Control.Displacement

/-! `smooth_homing` of the recorder: the parts that are moved, the references of the interpolation,
and the session they go through. Status messages and time pass before each of them. -/
namespace PhysicalAiRuntime.Apps
open Authority Provider Control
set_option autoImplicit false
set_option maxHeartbeats 250000
set_option linter.unusedSectionVars false

/-- Floating-point arithmetic: an operation returns its exact result, rounded. -/
structure Arithmetic where
  round : ℚ → ℚ
  exact : ∀ n : ℤ, n.natAbs ≤ 2 ^ 53 → round n = n
  idempotent : ∀ q, round (round q) = round q

structure Teleoperator where
  armPart : String
  gripperPart : String

structure Homing where
  arithmetic : Arithmetic
  /-- `ctx.profile.parts`. -/
  parts : Dict String PartConfig
  jointNames : List String
  jointPositions : List ℚ
  homePose : List ℚ
  teleoperators : Dict String Teleoperator
  durationS : ℚ
  rateHz : ℚ

namespace Homing

/-! ## The parts to home -/

def nameToPos (x : Homing) : Dict String ℚ := Dict.ofPairs (x.jointNames.zip x.jointPositions)

/-- The observed positions of a part, if the profile has it and every joint was observed. -/
def start (x : Homing) (part : String) : Option (List ℚ) :=
  (x.parts.get? part).bind fun spec => spec.jointNames.mapM x.nameToPos.get?

def gripperGoal (x : Homing) : List ℚ := [x.arithmetic.round (1 / 50)]

def assign (x : Homing) (parts : Dict String (List ℚ × List ℚ)) (part : String)
    (goal : List ℚ) : Dict String (List ℚ × List ℚ) :=
  match x.start part with
  | some start => parts.set part (start, goal)
  | none => parts

def partsToHome (x : Homing) : Dict String (List ℚ × List ℚ) :=
  x.teleoperators.entries.foldl (fun parts e =>
    x.assign (x.assign parts e.2.armPart x.homePose) e.2.gripperPart x.gripperGoal) Dict.empty

/-! ## The interpolation -/

def steps (x : Homing) : ℕ := ⌊max (x.arithmetic.round (x.durationS * x.rateHz)) 10⌋.toNat

/-- `h` at step `k`. -/
def blend (x : Homing) (k : ℕ) : ℚ :=
  let round := x.arithmetic.round
  let s := round (k / x.steps)
  round (round (round (10 * round (s ^ 3)) - round (15 * round (s ^ 4))) +
    round (6 * round (s ^ 5)))

def interpolate (a : Arithmetic) (h : ℚ) : List ℚ → List ℚ → Except PyError (List ℚ)
  | _, [] => .ok []
  | [], _ :: _ => .error ⟨.indexError, "list index out of range"⟩
  | q :: start, g :: goal => do
    let rest ← interpolate a h start goal
    return a.round (q + a.round (h * a.round (g - q))) :: rest

/-- One reference of the motion, and what the process receives before it is sent. -/
structure Reference where
  part : String
  index : ℕ
  start : List ℚ
  goal : List ℚ
  callbacks : List World.Callback
  stamp : Stamp

/-- The answers of the services to the session, and what it receives before each reference and
before its exit. -/
structure Schedule where
  claim : ClaimAnswer
  waiting : List (List World.Callback)
  timeoutRelease : ReleaseAnswer
  before : ℕ → String → List World.Callback
  stamp : ℕ → String → Stamp
  closing : List World.Callback
  release : ReleaseAnswer

def reference (s : Schedule) (k : ℕ) (e : String × List ℚ × List ℚ) : Reference :=
  ⟨e.1, k, e.2.1, e.2.2, s.before k e.1, s.stamp k e.1⟩

def references (x : Homing) (s : Schedule) : List Reference :=
  (List.range (x.steps + 1)).flatMap fun k => x.partsToHome.entries.map (reference s k)

variable {ι : Type} [DecidableEq ι]

/-- The process, and the commands that the session has published, with their parts. -/
structure Motion (ι : Type) where
  world : World ι
  sent : List (String × Payload)

/-- The callbacks before a reference. -/
def observe (w : World ι) (r : Reference) : World ι := r.callbacks.foldl World.callback w

def send (x : Homing) (i : ι) (m : Motion ι) (r : Reference) : Outcome (Motion ι) Unit :=
  let w := observe m.world r
  match interpolate x.arithmetic (x.blend r.index) r.start r.goal with
  | .error e => (⟨w, m.sent⟩, .error e)
  | .ok positions =>
    let (w', result) := w.act i ⟨r.part, "joint_reference", .positions positions⟩ none r.stamp
    (⟨w', m.sent ++ (w'.published.drop w.published.length).map fun p =>
      (r.part, p.envelope.command)⟩, result)

def move (x : Homing) (i : ι) : Motion ι → List Reference → Outcome (Motion ι) Unit
  | m, [] => (m, .ok ())
  | m, r :: rs =>
    match x.send i m r with
    | (m', .error e) => (m', .error e)
    | (m', .ok ()) => move x i m' rs

def raised : Except PyError Unit → Bool
  | .error _ => true
  | .ok () => false

/-- `smooth_homing` through session `i`, once the agent is there; `none` while its entry waits. -/
def smoothHoming (x : Homing) (w : World ι) (i : ι) (s : Schedule) :
    Option (Outcome (Motion ι) Unit) :=
  match w.enter i s.claim s.waiting s.timeoutRelease with
  | none => none
  | some (w, .error e) => some (⟨w, []⟩, .error e)
  | some (w, .ok ()) =>
    let (m, result) := x.move i ⟨w, []⟩ (x.references s)
    match (s.closing.foldl World.callback m.world).exit i (raised result) s.release with
    | (w', .error e) => some (⟨w', m.sent⟩, .error e)
    | (w', .ok ()) => some (⟨w', m.sent⟩, result)

/-! ## Reaching home -/

/-- The session published every step of the interpolation for the part, the last one at home. -/
structure Homed (x : Homing) (m : Motion ι) (part : String) : Prop where
  complete : (m.sent.filter fun e => e.1 = part).length = x.steps + 1
  last : ∃ message, (m.sent.filter fun e => e.1 = part).getLast? = some (part, .joint message) ∧
    message.points.map JointTrajectoryPoint.positions = [x.homePose]

/-- The goal that the last mention of the part among the teleoperators sets. -/
def goal (x : Homing) (part : String) : Option (List ℚ) :=
  (x.teleoperators.entries.reverse.find? fun e =>
    e.2.armPart = part ∨ e.2.gripperPart = part).map fun e =>
      if e.2.gripperPart = part then x.gripperGoal else x.homePose

/-- Where a rounded step over the whole distance ends. -/
def settled (a : Arithmetic) (q g : ℚ) : ℚ := a.round (q + a.round (g - q))

/-- The part was observed, a rounded step from there to its goal ends at home, and its lease is
confirmed whenever a reference for it is due. -/
structure Completes (x : Homing) (w : World ι) (i : ι) (s : Schedule) (part : String) : Prop where
  settles : ∃ start goal, x.start part = some start ∧ x.goal part = some goal ∧
    List.zipWith (settled x.arithmetic) start goal = x.homePose
  active : Trace.Follows observe (fun w r => r.part = part →
    (observe w r).activeFor i part = true) w (x.references s)

/-! ## What the motion is made of -/

theorem get?_assign (x : Homing) (parts : Dict String (List ℚ × List ℚ)) (part p : String)
    (goal : List ℚ) : (x.assign parts part goal).get? p =
      if part = p then ((x.start p).map fun start => (start, goal)).or (parts.get? p)
      else parts.get? p := by
  unfold assign
  by_cases hp : part = p
  · subst hp
    cases x.start part <;> simp
  · cases x.start part with
    | none => simp [hp]
    | some start => simp [hp, Dict.get?_set, Ne.symm hp]

/-- The loop sets a part that was observed to the goal of its last mention. -/
theorem get?_partsToHome (x : Homing) (p : String) : x.partsToHome.get? p =
    (x.start p).bind fun start => (x.goal p).map fun goal => (start, goal) := by
  unfold partsToHome goal
  induction x.teleoperators.entries using List.reverseRecOn with
  | nil => cases x.start p <;> simp
  | append_singleton es e ih =>
    rw [List.foldl_append, List.foldl_cons, List.foldl_nil, get?_assign, get?_assign, ih,
      List.reverse_append, List.reverse_singleton, List.singleton_append, List.find?_cons]
    cases hstart : x.start p with
    | none => simp
    | some start =>
      by_cases hgripper : e.2.gripperPart = p
      · simp [hgripper]
      · by_cases harm : e.2.armPart = p
        · simp [hgripper, harm]
        · simp [hgripper, harm]

theorem steps_pos (x : Homing) : 0 < x.steps := by
  have hten : (10 : ℤ) ≤ ⌊max (x.arithmetic.round (x.durationS * x.rateHz)) 10⌋ :=
    Int.le_floor.mpr (by simp)
  unfold steps
  omega

/-- The blend of the last step is one. -/
theorem blend_last (x : Homing) : x.blend x.steps = 1 := by
  have hone : x.arithmetic.round 1 = 1 := by
    simpa using x.arithmetic.exact 1 (by decide)
  have hten : x.arithmetic.round 10 = 10 := by
    simpa using x.arithmetic.exact 10 (by decide)
  have hfifteen : x.arithmetic.round 15 = 15 := by
    simpa using x.arithmetic.exact 15 (by decide)
  have hsix : x.arithmetic.round 6 = 6 := by
    simpa using x.arithmetic.exact 6 (by decide)
  have hminus : x.arithmetic.round (-5) = -5 := by
    simpa using x.arithmetic.exact (-5) (by decide)
  have hne : (x.steps : ℚ) ≠ 0 := by
    have := x.steps_pos
    exact_mod_cast this.ne'
  unfold blend
  simp only [div_self hne, hone, one_pow, mul_one, hten, hfifteen, hsix]
  norm_num [hone, hminus]

/-- The last step goes the whole way, up to rounding. -/
theorem interpolate_last {a : Arithmetic} {start goal positions : List ℚ}
    (h : interpolate a 1 start goal = .ok positions) :
    positions = List.zipWith (settled a) start goal := by
  induction goal generalizing start positions with
  | nil =>
    cases start <;> cases h <;> rfl
  | cons g goal ih =>
    cases start with
    | nil => cases h
    | cons q start =>
      obtain ⟨rest, hrest, h⟩ := except_bind_ok h
      cases h
      rw [ih hrest, List.zipWith_cons_cons, settled, one_mul, a.idempotent]

/-- The references of a part, one for each step if it is moved. -/
theorem references_part (x : Homing) (s : Schedule) (part : String) :
    (x.references s).filter (fun r => r.part = part) =
      (List.range (x.steps + 1)).flatMap fun k =>
        (x.partsToHome.get? part).toList.map fun v => reference s k (part, v) := by
  unfold references
  rw [List.filter_flatMap]
  congr 1
  funext k
  rw [List.filter_map]
  have hfun : ((fun r : Reference => decide (r.part = part)) ∘ reference s k) =
      fun e => decide (e.1 = part) := rfl
  rw [hfun, Dict.filter_key, List.map_map]
  rfl

/-! ## One reference -/

/-- What a publication looks like that carries `positions`. -/
def Carries (payload : Payload) (positions : List ℚ) : Prop :=
  ∃ message, payload = .joint message ∧
    message.points.map JointTrajectoryPoint.positions = [positions]

theorem carries_of_send {client client' : ActionProviderClient} {part : String}
    {positions : List ℚ} {now : Stamp} {p : Publication}
    (h : Agent.send ⟨part, "joint_reference", .positions positions⟩ client now =
      .ok (client', p)) : Carries p.envelope.command positions := by
  obtain ⟨payload, hpayload, henvelope⟩ := ActionProviderClient.send_payload (agentSend_ok h)
  have hconverted : (client.jointNames part >>= fun names =>
      jointTrajectoryFromSpec (.positions positions) names false >>= fun m =>
        .ok (Payload.joint m)) = .ok payload := hpayload
  obtain ⟨names, -, hconverted⟩ := except_bind_ok hconverted
  obtain ⟨m, hm, hconverted⟩ := except_bind_ok hconverted
  cases hconverted
  obtain ⟨hmessage, -, -⟩ := (jointTrajectoryFromSpec_ok_iff _ _ _ m).mp hm
  cases hmessage
  rw [henvelope]
  exact ⟨_, rfl, rfl⟩

/-- A call of `act` that returns has published one command, or dropped it on an inactive part. -/
theorem act_ok {w w' : World ι} {i : ι} {action : Action} {now : Stamp}
    (h : w.act i action none now = (w', .ok ())) :
    (w.activeFor i action.part = false ∧ w'.published = w.published) ∨
    (w.activeFor i action.part = true ∧ ∃ client p,
      Agent.send action (w.session i).client now = .ok (client, p) ∧
      w'.published = w.published ++ [p]) := by
  unfold World.act at h
  by_cases hpart : action.part ∈ (w.session i).config.parts
  · cases hactive : w.activeFor i action.part with
    | false =>
      simp only [hpart, not_true_eq_false, if_false, hactive, Bool.false_eq_true,
        not_false_eq_true, if_true] at h
      cases h
      exact Or.inl ⟨rfl, rfl⟩
    | true =>
      have hfresh : World.staleObservation (w.session i) action.part none = false := rfl
      simp only [hpart, not_true_eq_false, if_false, hactive, hfresh, Bool.false_eq_true] at h
      cases hsend : Agent.send action (w.session i).client now with
      | error e =>
        rw [hsend] at h
        cases h
      | ok r =>
        rw [hsend] at h
        cases h
        exact Or.inr ⟨rfl, r.1, r.2, rfl, rfl⟩
  · simp only [hpart, not_false_eq_true, if_true] at h
    cases h

/-- Two worlds between which session `i` sees no difference in its authority. -/
structure Alike (i : ι) (w v : World ι) : Prop where
  now : w.now = v.now
  selection : w.selection = v.selection
  config : (w.session i).config = (v.session i).config
  leaseId : (w.session i).leaseId = (v.session i).leaseId
  entered : (w.session i).entered = (v.session i).entered

theorem Alike.activeFor {i : ι} {w v : World ι} (h : Alike i w v) (part : String) :
    w.activeFor i part = v.activeFor i part := by
  unfold World.activeFor World.allocations Session.owns
  simp only [h.now, h.selection, h.config, h.leaseId, h.entered]

theorem Alike.observe {i : ι} {w v : World ι} (h : Alike i w v) (r : Reference) :
    Alike i (observe w r) (observe v r) := by
  unfold Homing.observe
  induction r.callbacks generalizing w v with
  | nil => exact h
  | cons c cs ih =>
    apply ih
    cases c with
    | status message =>
      refine ⟨h.now, ?_, h.config, h.leaseId, h.entered⟩
      simp only [World.callback, h.now, h.selection]
    | event message =>
      refine ⟨h.now, ?_, h.config, h.leaseId, h.entered⟩
      simp only [World.callback, h.selection]
    | advance elapsed =>
      refine ⟨?_, h.selection, h.config, h.leaseId, h.entered⟩
      simp only [World.callback, h.now]

theorem Alike.act {i : ι} {w v : World ι} (h : Alike i w v) (action : Action) (now : Stamp) :
    Alike i (w.act i action none now).1 v := by
  have hsame := World.sameElsewhere_act w i action none now
  have hkeeps := (World.act_keeps w i action none now).session i
  exact ⟨hsame.now.trans h.now, hsame.selection.trans h.selection,
    hkeeps.config.trans h.config, hkeeps.leaseId.trans h.leaseId,
    hkeeps.entered.trans h.entered⟩

/-- What the session has published for a reference. -/
def Answers (x : Homing) (e : String × Payload) (r : Reference) : Prop :=
  e.1 = r.part ∧ ∃ positions, interpolate x.arithmetic (x.blend r.index) r.start r.goal =
    .ok positions ∧ Carries e.2 positions

theorem send_ok {x : Homing} {i : ι} {m m' : Motion ι} {v : World ι} {r : Reference}
    (h : x.send i m r = (m', .ok ())) (hv : Alike i m.world v) :
    Alike i m'.world (observe v r) ∧
      (((observe v r).activeFor i r.part = false ∧ m'.sent = m.sent) ∨
        ((observe v r).activeFor i r.part = true ∧
          ∃ e, m'.sent = m.sent ++ [e] ∧ x.Answers e r)) := by
  unfold send at h
  cases hpositions : interpolate x.arithmetic (x.blend r.index) r.start r.goal with
  | error e =>
    rw [hpositions] at h
    cases h
  | ok positions =>
    rw [hpositions] at h
    simp only at h
    have hobserve := hv.observe r
    cases hact : (observe m.world r).act i ⟨r.part, "joint_reference", .positions positions⟩
      none r.stamp with
    | mk w' result =>
      rw [hact] at h
      obtain ⟨hm, rfl⟩ := Prod.mk.inj h
      subst hm
      have halike := hobserve.act ⟨r.part, "joint_reference", .positions positions⟩ r.stamp
      rw [hact] at halike
      refine ⟨halike, ?_⟩
      rw [← hobserve.activeFor]
      rcases act_ok hact with ⟨hinactive, hpublished⟩ | ⟨hactive, client, p, hsend, hpublished⟩
      · exact Or.inl ⟨hinactive, by simp [hpublished]⟩
      · refine Or.inr ⟨hactive, (r.part, p.envelope.command), by simp [hpublished], rfl, positions,
          hpositions, carries_of_send hsend⟩

/-! ## The motion -/

/-- The references that find their part active. -/
def confirmed (i : ι) : World ι → List Reference → List Reference
  | _, [] => []
  | w, r :: rs =>
    if (observe w r).activeFor i r.part then r :: confirmed i (observe w r) rs
    else confirmed i (observe w r) rs

theorem confirmed_cons (i : ι) (w : World ι) (r : Reference) (rs : List Reference) :
    confirmed i w (r :: rs) = if (observe w r).activeFor i r.part then
      r :: confirmed i (observe w r) rs else confirmed i (observe w r) rs := rfl

/-- The session publishes for the references that find their part active, in their order. -/
theorem move_ok {x : Homing} {i : ι} {rs : List Reference} {m m' : Motion ι} {v : World ι}
    (h : x.move i m rs = (m', .ok ())) (hv : Alike i m.world v) :
    ∃ new, m'.sent = m.sent ++ new ∧ List.Forall₂ x.Answers new (confirmed i v rs) := by
  induction rs generalizing m v with
  | nil =>
    cases h
    exact ⟨[], by simp, List.Forall₂.nil⟩
  | cons r rs ih =>
    unfold move at h
    cases hsend : x.send i m r with
    | mk m1 result =>
      rw [hsend] at h
      cases result with
      | error e => cases h
      | ok u =>
        obtain ⟨halike, hsent⟩ := send_ok hsend hv
        obtain ⟨new, hnew, hall⟩ := ih h halike
        rw [confirmed_cons]
        rcases hsent with ⟨hinactive, hm1⟩ | ⟨hactive, e, hm1, he⟩
        · rw [hinactive]
          exact ⟨new, by rw [hnew, hm1], hall⟩
        · rw [if_pos hactive]
          exact ⟨e :: new, by rw [hnew, hm1, List.append_assoc]; rfl, List.Forall₂.cons he hall⟩

theorem confirmed_sublist (i : ι) (w : World ι) (rs : List Reference) :
    (confirmed i w rs).Sublist rs := by
  induction rs generalizing w with
  | nil => exact List.Sublist.refl _
  | cons r rs ih =>
    rw [confirmed_cons]
    by_cases hactive : (observe w r).activeFor i r.part = true
    · rw [if_pos hactive]
      exact (ih _).cons_cons r
    · rw [if_neg hactive]
      exact (ih _).cons r

/-- Every reference of a part is confirmed exactly where the part is active for each. -/
theorem confirmed_filter_iff (i : ι) (w : World ι) (part : String) (rs : List Reference) :
    (confirmed i w rs).filter (fun r => r.part = part) = rs.filter (fun r => r.part = part) ↔
      Trace.Follows observe (fun w r => r.part = part → (observe w r).activeFor i part = true)
        w rs := by
  induction rs generalizing w with
  | nil => simp [confirmed]
  | cons r rs ih =>
    rw [Trace.follows_cons, ← ih, confirmed_cons]
    by_cases hpart : r.part = part
    · subst hpart
      by_cases hactive : (observe w r).activeFor i r.part = true
      · simp [hactive]
      · have hlt : ((confirmed i (observe w r) rs).filter fun s => s.part = r.part).length <
            ((r :: rs).filter fun s => s.part = r.part).length := by
          have hle := ((confirmed_sublist i (observe w r) rs).filter
            fun s => s.part = r.part).length_le
          rw [List.filter_cons_of_pos (by simp), List.length_cons]
          omega
        rw [if_neg hactive]
        constructor
        · intro heq
          rw [heq] at hlt
          exact absurd hlt (Nat.lt_irrefl _)
        · intro hboth
          exact absurd (hboth.1 rfl) hactive
    · by_cases hactive : (observe w r).activeFor i r.part = true
      · simp [hactive, hpart]
      · simp [hactive, hpart]

theorem references_moved {x : Homing} (s : Schedule) {part : String} {v : List ℚ × List ℚ}
    (h : x.partsToHome.get? part = some v) :
    (x.references s).filter (fun r => r.part = part) =
      (List.range (x.steps + 1)).map fun k => reference s k (part, v) := by
  rw [references_part, h]
  exact List.map_eq_flatMap.symm

theorem references_unmoved {x : Homing} (s : Schedule) {part : String}
    (h : x.partsToHome.get? part = none) :
    (x.references s).filter (fun r => r.part = part) = [] := by
  rw [references_part, h]
  simp

theorem moved_last (x : Homing) (s : Schedule) (e : String × List ℚ × List ℚ) :
    ((List.range (x.steps + 1)).map fun k => reference s k e).getLast? =
      some (reference s x.steps e) := by
  rw [List.range_succ, List.map_append]
  simp

/-- What a returned motion has published for a part answers the part's confirmed references. -/
theorem move_part {x : Homing} {i : ι} {w : World ι} {s : Schedule} {m : Motion ι}
    (h : x.move i ⟨w, []⟩ (x.references s) = (m, .ok ())) (part : String) :
    List.Forall₂ x.Answers (m.sent.filter fun e => e.1 = part)
      ((confirmed i w (x.references s)).filter fun r => r.part = part) := by
  obtain ⟨new, hnew, hall⟩ := move_ok h ⟨rfl, rfl, rfl, rfl, rfl⟩
  rw [List.nil_append] at hnew
  rw [hnew]
  refine List.rel_filter (fun e r he => ?_) hall
  simp only [decide_eq_true_eq, he.1]

/-- The answer to the last of all references of a part ends where the steps settle. -/
theorem answers_last {x : Homing} {s : Schedule} {part : String} {start goal : List ℚ}
    {sent : List (String × Payload)}
    (h : List.Forall₂ x.Answers sent
      ((List.range (x.steps + 1)).map fun k => reference s k (part, start, goal))) :
    ∃ message, sent.getLast? = some (part, .joint message) ∧
      message.points.map JointTrajectoryPoint.positions =
        [List.zipWith (settled x.arithmetic) start goal] := by
  obtain ⟨e, he, hepart, positions, hpositions, message, hmessage, hcarried⟩ :=
    forall₂_getLast? h (moved_last x s (part, start, goal))
  have hfull : interpolate x.arithmetic 1 start goal = .ok positions := by
    rw [← blend_last x]
    exact hpositions
  rw [interpolate_last hfull] at hcarried
  refine ⟨message, ?_, hcarried⟩
  rw [he]
  exact congrArg some (Prod.ext hepart hmessage)

/-- A motion that returns has brought a part home exactly where its homing completes. -/
theorem homed_iff {x : Homing} {i : ι} {w : World ι} {s : Schedule} {m : Motion ι}
    (h : x.move i ⟨w, []⟩ (x.references s) = (m, .ok ())) (part : String) :
    x.Homed m part ↔ x.Completes w i s part := by
  have hpart := move_part h part
  have hsublist := (confirmed_sublist i w (x.references s)).filter fun r => r.part = part
  constructor
  · intro ⟨hcomplete, message, hlast, hhome⟩
    rw [hpart.length_eq] at hcomplete
    cases hget : x.partsToHome.get? part with
    | none =>
      rw [references_unmoved s hget] at hsublist
      have hle := hsublist.length_le
      rw [hcomplete, List.length_nil] at hle
      omega
    | some v =>
      have hmoved := references_moved s hget
      have heq := hsublist.eq_of_length (by rw [hcomplete, hmoved]; simp)
      refine ⟨?_, (confirmed_filter_iff i w part _).mp heq⟩
      rw [get?_partsToHome] at hget
      obtain ⟨start, hstart, hmap⟩ := Option.bind_eq_some_iff.mp hget
      obtain ⟨goal, hgoal, rfl⟩ := Option.map_eq_some_iff.mp hmap
      refine ⟨start, goal, hstart, hgoal, ?_⟩
      rw [heq, hmoved] at hpart
      obtain ⟨message', hlast', hsettled⟩ := answers_last hpart
      rw [hlast] at hlast'
      cases hlast'
      rw [hhome] at hsettled
      exact (List.singleton_injective hsettled).symm
  · intro ⟨⟨start, goal, hstart, hgoal, hsettles⟩, hactive⟩
    have hget : x.partsToHome.get? part = some (start, goal) := by
      rw [get?_partsToHome, hstart, hgoal]
      rfl
    rw [(confirmed_filter_iff i w part _).mpr hactive, references_moved s hget] at hpart
    have hlast := answers_last hpart
    rw [hsettles] at hlast
    refine ⟨?_, hlast⟩
    rw [hpart.length_eq]
    simp

theorem smoothHoming_ok {x : Homing} {w : World ι} {i : ι} {s : Schedule} {m : Motion ι}
    (h : x.smoothHoming w i s = some (m, .ok ())) :
    ∃ w1 m1, w.enter i s.claim s.waiting s.timeoutRelease = some (w1, .ok ()) ∧
      x.move i ⟨w1, []⟩ (x.references s) = (m1, .ok ()) ∧ m.sent = m1.sent := by
  unfold smoothHoming at h
  cases henter : w.enter i s.claim s.waiting s.timeoutRelease with
  | none =>
    rw [henter] at h
    cases h
  | some entered =>
    obtain ⟨w1, result⟩ := entered
    rw [henter] at h
    cases result with
    | error e => cases h
    | ok u =>
      cases hmove : x.move i ⟨w1, []⟩ (x.references s) with
      | mk m1 moved =>
        simp only [hmove] at h
        cases hexit : (s.closing.foldl World.callback m1.world).exit i (raised moved)
            s.release with
        | mk w' left =>
          rw [hexit] at h
          cases left with
          | error e => cases h
          | ok u =>
            cases h
            exact ⟨w1, m1, rfl, hmove, rfl⟩

/-- **Homing.** A homing that returns has brought every teleoperated arm home exactly where, for
each of them, the arm was observed, its step to the goal ends at home, and its lease is confirmed
whenever a reference is due. -/
theorem smoothHoming_homed_iff {x : Homing} {w : World ι} {i : ι} {s : Schedule} {m : Motion ι}
    (h : x.smoothHoming w i s = some (m, .ok ())) :
    (∀ t ∈ x.teleoperators.entries, x.Homed m t.2.armPart) ↔
      ∃ w1, w.enter i s.claim s.waiting s.timeoutRelease = some (w1, .ok ()) ∧
        ∀ t ∈ x.teleoperators.entries, x.Completes w1 i s t.2.armPart := by
  obtain ⟨w1, m1, henter, hmove, hsent⟩ := smoothHoming_ok h
  have hhomed : ∀ part, x.Homed m part ↔ x.Completes w1 i s part := by
    intro part
    rw [← homed_iff hmove part]
    constructor
    · intro ⟨hcomplete, hlast⟩
      exact ⟨hsent ▸ hcomplete, hsent ▸ hlast⟩
    · intro ⟨hcomplete, hlast⟩
      exact ⟨hsent ▸ hcomplete, hsent ▸ hlast⟩
  constructor
  · intro hall
    exact ⟨w1, henter, fun t ht => (hhomed _).mp (hall t ht)⟩
  · intro ⟨w2, henter', hall⟩ t ht
    rw [henter] at henter'
    cases henter'
    exact (hhomed _).mpr (hall t ht)

def exactArithmetic : Arithmetic := ⟨id, fun _ _ => rfl, fun _ => rfl⟩

/-- One joint that moves from one to one half in sixteen steps. -/
def armHoming : Homing where
  arithmetic := exactArithmetic
  parts := Dict.ofPairs [("arm", ⟨["joint_1"], none, none⟩)]
  jointNames := ["joint_1"]
  jointPositions := [1]
  homePose := [1 / 2]
  teleoperators := Dict.ofPairs [("leader", ⟨"arm", "gripper"⟩)]
  durationS := 1
  rateHz := 16

def homingWorld : World Unit :=
  World.init 0 Timeouts.default (fun _ => World.armConfig)
    fun _ => ActionProviderClient.new (some armHoming.parts)

/-- The arm is granted and confirmed; `status` arrives before the first reference. -/
def armSchedule (status : List World.Callback) : Schedule where
  claim := .response ⟨true, "", "lease-1", [World.armEndpoint]⟩
  waiting := [[.status (Deployment.armStatus "lease-1")]]
  timeoutRelease := .response true ""
  before k _ := if k = 0 then status else []
  stamp _ _ := ⟨0, 0⟩
  closing := []
  release := .response true ""

theorem smoothHoming_homed_arm : ∃ m,
    armHoming.smoothHoming homingWorld () (armSchedule []) = some (m, .ok ()) ∧
    ((∀ t ∈ armHoming.teleoperators.entries, armHoming.Homed m t.2.armPart) ↔
      ∃ w1, homingWorld.enter () (armSchedule []).claim (armSchedule []).waiting
        (armSchedule []).timeoutRelease = some (w1, .ok ()) ∧
        ∀ t ∈ armHoming.teleoperators.entries,
          armHoming.Completes w1 () (armSchedule []) t.2.armPart) := by
  have hresult : (armHoming.smoothHoming homingWorld () (armSchedule [])).map Prod.snd =
      some (.ok ()) := by
    decide +kernel
  obtain ⟨r, hr, hok⟩ := Option.map_eq_some_iff.mp hresult
  obtain ⟨m, result⟩ := r
  cases hok
  exact ⟨m, hr, smoothHoming_homed_iff hr⟩

/-- A status without the arm drops every reference, and the homing returns. -/
theorem smoothHoming_dropped : ∃ m,
    armHoming.smoothHoming homingWorld () (armSchedule [.status ⟨[]⟩]) = some (m, .ok ()) ∧
      ¬ armHoming.Homed m "arm" := by
  have hresult : (armHoming.smoothHoming homingWorld () (armSchedule [.status ⟨[]⟩])).map
      (fun r => (r.1.sent, r.2)) = some ([], .ok ()) := by
    decide +kernel
  obtain ⟨r, hr, hboth⟩ := Option.map_eq_some_iff.mp hresult
  obtain ⟨m, result⟩ := r
  obtain ⟨hsent, rfl⟩ := Prod.mk.inj hboth
  refine ⟨m, hr, fun hhomed => ?_⟩
  have hcomplete := hhomed.complete
  change m.sent = [] at hsent
  rw [hsent] at hcomplete
  cases hcomplete

end Homing
end PhysicalAiRuntime.Apps
