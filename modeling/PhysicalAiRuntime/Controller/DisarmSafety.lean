import PhysicalAiRuntime.Controller.GuardLifetime

/-! A disarm over the goals dispatched before it. The client forgets a goal whose acceptance was
lost and takes the next `send` at once, so the rejection of that one disarms the guard of the
forgotten goal; and it takes an answer to `cancel` for the end of the goal even if no goal is
canceling. Where a `send` arms only when the earlier goals are settled, and a cancel that was not
acknowledged ends only a settled goal, every disarm is safe. -/
namespace PhysicalAiRuntime.Controller
set_option autoImplicit false
set_option maxHeartbeats 250000
open Trace Feed

namespace Guard
variable {guardTimeout : ℚ} {s s' : Guard} {l : GuardStep} {new : List Bool} {k : ℕ}
  {r : Resumption} {co : Coroutine}
  {out : JointTrajectoryControllerClient × Coroutine × List Bool}

/-- A disarm leaves no goal behind that may still run without a guard. -/
def DisarmSafe (guardTimeout : ℚ) (s : Guard) (l : GuardStep) : Prop :=
  false ∈ messages guardTimeout s l → ∀ record ∈ (step guardTimeout s l).goals,
    record.settled = true

instance (guardTimeout : ℚ) (s : Guard) (l : GuardStep) : Decidable (DisarmSafe guardTimeout s l) :=
  inferInstanceAs (Decidable (_ → _))

def arms (s : Guard) : GuardStep → Bool
  | .resume k .proceed => s.coroutines[k]? == some .sendArming
  | _ => false

/-- A `send` that arms finds all earlier goals settled. -/
def ArmsSettled (s : Guard) (l : GuardStep) : Prop :=
  s.arms l = true → ∀ record ∈ s.goals, record.settled = true

instance (s : Guard) (l : GuardStep) : Decidable (ArmsSettled s l) :=
  inferInstanceAs (Decidable (_ → _))

/-- The tracked goal that is marked terminal on a cancel answer without a canceling goal. -/
def endsUnacknowledged (s : Guard) : GuardStep → Option ℕ
  | .resume k (.cancelAnswer false) =>
    match s.coroutines[k]? with
    | some (.cancelWaiting handle) => s.client.goalHandle.filter (· = handle)
    | _ => none
  | _ => none

/-- A goal that is so marked is settled. -/
def EndsSettled (s : Guard) (l : GuardStep) : Prop :=
  ∀ handle ∈ s.endsUnacknowledged l, ∀ record ∈ s.goals[handle]?, record.settled = true

instance (s : Guard) (l : GuardStep) : Decidable (EndsSettled s l) :=
  inferInstanceAs (Decidable (∀ handle ∈ s.endsUnacknowledged l, _))

/-- Both conditions of a step under which every disarm is safe. -/
def Settles (s : Guard) (l : GuardStep) : Prop := ArmsSettled s l ∧ EndsSettled s l

instance (s : Guard) (l : GuardStep) : Decidable (Settles s l) :=
  inferInstanceAs (Decidable (_ ∧ _))

/-! ## Goals from one state to the next -/

def SettledBut (g : Option ℕ) (goals : List GoalRecord) : Prop :=
  ∀ (i : ℕ) (record : GoalRecord), goals[i]? = some record → some i ≠ g → record.settled = true

theorem settledBut_none {goals : List GoalRecord} :
    SettledBut none goals ↔ ∀ record ∈ goals, record.settled = true := by
  constructor
  · intro h record hmem
    obtain ⟨i, hi⟩ := List.getElem?_of_mem hmem
    exact h i record hi (fun hnone => (nomatch hnone))
  · exact fun h i record hi _ => h record (List.mem_of_getElem? hi)

theorem getElem?_learn (goals : List GoalRecord) (known : Option ℕ) (i : ℕ) :
    (learn goals known)[i]? =
      goals[i]?.map fun r => if known = some i then { r with known := true } else r := by
  cases known with
  | none => simp [learn]
  | some g => simp only [learn, List.getElem?_modify, Option.some.injEq, Option.map_eq_map]

/-- A goal after a section is an earlier one, perhaps known now, or the one just dispatched. -/
theorem Resumed.goal_cases (hr : Resumed s s' k r co out) {i : ℕ} {record : GoalRecord}
    (hi : s'.goals[i]? = some record) :
    (∃ old, s.goals[i]? = some old ∧
      record = if learns co r = some i then { old with known := true } else old) ∨
    (i = s.goals.length ∧ dispatches co r = true) := by
  rw [hr.goals] at hi
  cases hd : dispatches co r with
  | false =>
    rw [hd, if_neg Bool.false_ne_true, List.append_nil, getElem?_learn, Option.map_eq_some_iff] at hi
    obtain ⟨old, hold, heq⟩ := hi
    exact Or.inl ⟨old, hold, heq.symm⟩
  | true =>
    rw [hd, if_pos rfl] at hi
    rcases getElem?_concat_cases hi with hi | ⟨hlen, -⟩
    · rw [getElem?_learn, Option.map_eq_some_iff] at hi
      obtain ⟨old, hold, heq⟩ := hi
      exact Or.inl ⟨old, hold, heq.symm⟩
    · rw [length_learn] at hlen
      exact Or.inr ⟨hlen, rfl⟩

theorem settled_learn {old : GoalRecord} (h : old.settled = true) (p : Prop) [Decidable p] :
    (if p then { old with known := true } else old).settled = true := by
  split
  · rfl
  · exact h

/-- What is settled stays settled, except for a goal dispatched now. -/
theorem settledBut_resumed (hr : Resumed s s' k r co out) {g g' : Option ℕ}
    (h : SettledBut g s.goals) (hd : dispatches co r = true → g' = some s.goals.length)
    (hg : ∀ i, g = some i → g' = some i ∨ learns co r = some i) : SettledBut g' s'.goals := by
  intro i record hi hne
  obtain ⟨old, hold, rfl⟩ | ⟨rfl, hdispatch⟩ := hr.goal_cases hi
  · by_cases hig : some i = g
    · rcases hg i hig.symm with hsame | hlearns
      · exact absurd hsame.symm hne
      · rw [if_pos hlearns]
        rfl
    · exact settled_learn (h i old hold hig) _
  · exact absurd (hd hdispatch).symm hne

theorem tick_goal {elapsed : ℚ≥0} {i : ℕ} {record : GoalRecord}
    (hi : (s.tick guardTimeout elapsed).goals[i]? = some record) :
    ∃ old, s.goals[i]? = some old ∧ record.known = old.known ∧
      (old.silent = true → record.silent = true) := by
  obtain ⟨old, hold, rfl⟩ := Option.map_eq_some_iff.mp ((List.getElem?_map ..).symm.trans hi)
  exact ⟨old, hold, rfl, fun hsilent => by simp [hsilent]⟩

theorem settledBut_tick {elapsed : ℚ≥0} {g : Option ℕ} (h : SettledBut g s.goals) :
    SettledBut g (s.tick guardTimeout elapsed).goals := by
  intro i record hi hne
  obtain ⟨old, hold, hknown, hsilent⟩ := tick_goal hi
  have hsettled := h i old hold hne
  rw [GoalRecord.settled, Bool.or_eq_true] at hsettled ⊢
  exact hsettled.imp (fun hk => hknown.trans hk) hsilent

/-! ## The invariant of the runs that arm over settled goals -/

structure Guarded (s : Guard) : Prop where
  dispatching : .sendDispatching ∈ s.coroutines → SettledBut none s.goals
  accepting : ∀ g, .sendWaitingAccept g ∈ s.coroutines → SettledBut (some g) s.goals
  tracked : ∀ handle, s.client.goalHandle = some handle → SettledBut (some handle) s.goals
  final : ∀ handle e, .waitFinally handle e ∈ s.coroutines → ∀ record,
    s.goals[handle]? = some record → record.known = true

theorem guarded_init (guardPublisher : Bool) (now : ℚ) : (init guardPublisher now).Guarded where
  dispatching hco := absurd hco List.not_mem_nil
  accepting _ hco := absurd hco List.not_mem_nil
  tracked _ h := nomatch h
  final _ _ hco := absurd hco List.not_mem_nil

/-- A dispatch starts from settled goals and is the only pending `send`. -/
theorem guarded_dispatch (hsound : s.Sound) (h : s.Guarded) (hr : Resumed s s' k r co out)
    (hd : dispatches co r = true) : s'.Guarded := by
  obtain rfl := dispatches_eq_true hd
  have harrives := section_arrives hr.section_
  have hgoals : SettledBut (some s.goals.length) s'.goals :=
    settledBut_resumed hr (h.dispatching (List.mem_of_getElem? hr.at_k)) (fun _ => rfl)
      (fun _ hnone => nomatch hnone)
  have hother : ∀ (j : ℕ) (cj : Coroutine), j ≠ k → s.coroutines[j]? = some cj →
      cj.pending = false := by
    intro j cj hjk hj
    by_contra hp
    have hpj := Bool.eq_true_of_not_eq_false hp
    exact hjk (hsound.inv.unique j k cj _ hj hr.at_k hpj rfl)
  refine ⟨fun hmem => ?_, fun g hmem => ?_, fun handle htracked => ?_,
    fun handle e hmem record hrecord => ?_⟩
  · rcases hr.coroutine_cases hmem with hout | ⟨j, hjk, hj⟩
    · rcases harrives.dispatching hout.symm with ⟨-, hnot⟩ | ⟨hco, -⟩
      · exact absurd (hnot.symm.trans hd) Bool.false_ne_true
      · cases hco
    · exact absurd (hother j _ hjk hj) Bool.noConfusion
  · rcases hr.coroutine_cases hmem with hout | ⟨j, hjk, hj⟩
    · rcases harrives.accepting g hout.symm with ⟨hco, -⟩ | ⟨rfl, -, -⟩
      · cases hco
      · exact hgoals
    · exact absurd (hother j _ hjk hj) Bool.noConfusion
  · have hnone := (hsound.inv.not_tracked hr.at_k rfl).2
    rw [hr.client] at htracked
    obtain hsame | ⟨_, _, -, hh, -⟩ | ⟨_, hco, -, -⟩ := section_goalHandle hr.section_
    · rw [hsame, hnone] at htracked
      cases htracked
    · cases hh
    · cases hco
  · rcases hr.coroutine_cases hmem with hout | ⟨j, -, hj⟩
    · rcases harrives.final handle e hout.symm with hco | hlearns
      · cases hco
      · cases r <;> cases hlearns
    · have hmem' := List.mem_of_getElem? hj
      have hlt := hsound.numbered.bounded handle (hsound.numbered.held _ hmem' handle rfl)
      obtain ⟨old, hold, heq⟩ | ⟨hlen, -⟩ := hr.goal_cases hrecord
      · rw [heq]
        split
        · rfl
        · exact h.final handle e hmem' old hold
      · omega

theorem guarded_resumed (hsound : s.Sound) (h : s.Guarded) (hr : Resumed s s' k r co out)
    (harms : co = .sendArming → r = .proceed → SettledBut none s.goals) : s'.Guarded := by
  cases hd : dispatches co r with
  | true => exact guarded_dispatch hsound h hr hd
  | false =>
    have hmem := List.mem_of_getElem? hr.at_k
    have harrives := section_arrives hr.section_
    have hkeep : ∀ g, SettledBut g s.goals → SettledBut g s'.goals := fun g hg =>
      settledBut_resumed hr hg (fun ht => absurd (hd.symm.trans ht) Bool.false_ne_true)
        (fun _ hsome => Or.inl hsome)
    refine ⟨fun hmem' => ?_, fun g hmem' => ?_, fun handle htracked => ?_,
      fun handle e hmem' record hrecord => ?_⟩
    · rcases hr.coroutine_cases hmem' with hout | ⟨j, -, hold⟩
      · rcases harrives.dispatching hout.symm with ⟨rfl, -⟩ | ⟨rfl, rfl⟩
        · exact hkeep none (h.dispatching hmem)
        · exact hkeep none (harms rfl rfl)
      · exact hkeep none (h.dispatching (List.mem_of_getElem? hold))
    · rcases hr.coroutine_cases hmem' with hout | ⟨j, -, hold⟩
      · rcases harrives.accepting g hout.symm with ⟨rfl, -⟩ | ⟨-, rfl, rfl⟩
        · exact hkeep (some g) (h.accepting g hmem)
        · exact absurd hd Bool.noConfusion
      · exact hkeep (some g) (h.accepting g (List.mem_of_getElem? hold))
    · rw [hr.client] at htracked
      obtain hsame | ⟨_, _, -, -, hout⟩ | ⟨g, rfl, -, hout⟩ := section_goalHandle hr.section_
      · exact hkeep (some handle) (h.tracked handle (hsame ▸ htracked))
      · rw [hout] at htracked
        cases htracked
      · rw [hout] at htracked
        obtain rfl : g = handle := Option.some.inj htracked
        exact hkeep (some g) (h.accepting g hmem)
    · obtain ⟨old, hold, rfl⟩ | ⟨-, ht⟩ := hr.goal_cases hrecord
      · split
        · rfl
        next hnot =>
          rcases hr.coroutine_cases hmem' with hout | ⟨j, -, hj⟩
          · rcases harrives.final handle e hout.symm with rfl | hlearns
            · exact h.final handle e hmem old hold
            · exact absurd hlearns hnot
          · exact h.final handle e (List.mem_of_getElem? hj) old hold
      · exact absurd (hd.symm.trans ht) Bool.false_ne_true

/-- A coroutine that starts is at none of the places of the invariant. -/
theorem guarded_started (h : s.Guarded) {client : JointTrajectoryControllerClient}
    (hstart : Starts s l co client) :
    Guarded { s with client := client, coroutines := s.coroutines ++ [co] } := by
  have hhandle : client.goalHandle = s.client.goalHandle := by cases hstart <;> rfl
  have hold : ∀ cj ∈ s.coroutines ++ [co], cj ≠ co → cj ∈ s.coroutines := by
    intro cj hcj hne
    exact (List.mem_append.mp hcj).resolve_right fun hnew => hne (List.mem_singleton.mp hnew)
  refine ⟨fun hcj => h.dispatching (hold _ hcj ?_), fun g hcj => h.accepting g (hold _ hcj ?_),
    fun handle hh => h.tracked handle (hhandle ▸ hh),
    fun handle e hcj => h.final handle e (hold _ hcj ?_)⟩
  all_goals
    rintro rfl
    cases hstart

theorem guarded_stepped (hsound : s.Sound) (h : s.Guarded) (harms : ArmsSettled s l)
    (hs : Stepped guardTimeout s l s' new) : s'.Guarded := by
  cases hs with
  | nothing => exact h
  | started _ co client hstart => exact guarded_started h hstart
  | resumed k r co out _ hr =>
    refine guarded_resumed hsound h hr fun hco hproceed => settledBut_none.mpr ?_
    exact harms (by rw [hproceed, arms, hr.at_k, hco, beq_self_eq_true])
  | heartbeat => exact ⟨h.dispatching, h.accepting, h.tracked, h.final⟩
  | tick elapsed =>
    refine ⟨fun hco => settledBut_tick (h.dispatching hco),
      fun g hco => settledBut_tick (h.accepting g hco),
      fun handle hh => settledBut_tick (h.tracked handle hh), fun handle e hco record hi => ?_⟩
    obtain ⟨old, hold, hknown, -⟩ := tick_goal hi
    exact hknown.trans (h.final handle e hco old hold)

/-! ## Disarms -/

/-- At a disarm the goal it is for is settled, and so are the others. -/
theorem settled_of_disarm (h : s.Guarded) (hr : Resumed s s' k r co out)
    (hends : EndsSettled s (.resume k r)) (hfalse : false ∈ out.2.2) :
    SettledBut none s'.goals := by
  have hmem := List.mem_of_getElem? hr.at_k
  obtain ⟨g, rfl, hlearns⟩ | ⟨handle, htracked, hlearns⟩ := section_false hr.section_ hfalse
  · refine settledBut_resumed hr (h.accepting g hmem) (fun hd => ?_)
      (fun i hi => Or.inr (hlearns.trans hi))
    cases dispatches_eq_true hd
  · have hnodispatch : dispatches co r ≠ true := by
      intro hd
      obtain rfl := dispatches_eq_true hd
      rcases hlearns with hlearns | ⟨e, hco⟩ | ⟨hco, -⟩
      · cases r <;> cases hlearns
      · cases hco
      · cases hco
    have hall : (∀ record, s.goals[handle]? = some record → record.settled = true) →
        SettledBut none s'.goals := by
      intro hself
      refine settledBut_resumed hr (g := none) (fun i record hi _ => ?_)
        (fun hd => absurd hd hnodispatch) (fun _ hnone => nomatch hnone)
      by_cases hih : i = handle
      · exact hself record (hih ▸ hi)
      · exact h.tracked handle htracked i record hi (fun heq => hih (Option.some.inj heq))
    rcases hlearns with hlearns | ⟨e, rfl⟩ | ⟨rfl, rfl⟩
    · exact settledBut_resumed hr (h.tracked handle htracked)
        (fun hd => absurd hd hnodispatch) (fun i hi => Or.inr (hlearns.trans hi))
    · refine hall fun record hi => ?_
      have hknown := h.final handle e hmem record hi
      simp [GoalRecord.settled, hknown]
    · have hmarked : s.endsUnacknowledged (.resume k (.cancelAnswer false)) = some handle := by
        simp [endsUnacknowledged, hr.at_k, htracked]
      exact hall fun record hi => hends handle hmarked record hi

theorem settled_stepped (h : s.Guarded) (hends : EndsSettled s l)
    (hs : Stepped guardTimeout s l s' new) (hfalse : false ∈ new) :
    ∀ record ∈ s'.goals, record.settled = true := by
  cases hs with
  | resumed k r co out _ hr => exact settledBut_none.mp (settled_of_disarm h hr hends hfalse)
  | heartbeat =>
    rw [JointTrajectoryControllerClient.heartbeat] at hfalse
    split at hfalse
    · exact absurd (mem_publish hfalse) Bool.false_ne_true
    · exact absurd hfalse List.not_mem_nil
  | _ => exact absurd hfalse List.not_mem_nil

theorem guardPublisher_stepped (hs : Stepped guardTimeout s l s' new) :
    s'.client.guardPublisher = s.client.guardPublisher := by
  cases hs with
  | started _ co client hstart => cases hstart <;> rfl
  | resumed k r co out _ hr =>
    rw [hr.client]
    exact section_guardPublisher hr.section_
  | _ => rfl

/-- Arm, dispatch and rejection of the `send` in coroutine `k`. -/
def rejection (k : ℕ) : List GuardStep :=
  [.resume k .proceed, .resume k .proceed, .resume k .rejected]

/-- A `send` that arms over an unsettled goal is one rejection away from an unsafe disarm. -/
theorem unsafe_of_rejection (guardTimeout : ℚ) {s : Guard} {k : ℕ}
    (hpublisher : s.client.guardPublisher = true) (hk : s.coroutines[k]? = some .sendArming)
    {record : GoalRecord} (hmem : record ∈ s.goals) (hunsettled : record.settled = false) :
    ¬ Follows (step guardTimeout) (DisarmSafe guardTimeout) s (rejection k) := by
  rintro ⟨-, -, hsafe, -⟩
  have harm := resumed_at hk .proceed
  have harmed : (s.resumeAt k .proceed).coroutines[k]? = some .sendDispatching := harm.self
  have hdispatch := resumed_at harmed .proceed
  have hwaiting : ((s.resumeAt k .proceed).resumeAt k .proceed).coroutines[k]? =
      some (.sendWaitingAccept (s.resumeAt k .proceed).goals.length) := hdispatch.self
  have hreject := resumed_at hwaiting .rejected
  have hgoals : (s.resumeAt k .proceed).goals = s.goals := harm.goals.trans (List.append_nil _)
  have hclient : ((s.resumeAt k .proceed).resumeAt k .proceed).client = s.client.arm :=
    hdispatch.client.trans harm.client
  have hfalse : false ∈ messages guardTimeout
      ((s.resumeAt k .proceed).resumeAt k .proceed) (.resume k .rejected) := by
    have hm : messages guardTimeout ((s.resumeAt k .proceed).resumeAt k .proceed)
        (.resume k .rejected) =
        ((s.resumeAt k .proceed).resumeAt k .proceed).client.publish false := by
      rw [messages, step, hreject.published, List.drop_left]
      rfl
    rw [hm]
    simp [hclient, JointTrajectoryControllerClient.publish, JointTrajectoryControllerClient.arm,
      hpublisher]
  -- the goal learned of is the one just dispatched, not the unsettled one
  obtain ⟨i, hi⟩ := List.getElem?_of_mem hmem
  have hlt := (List.getElem?_eq_some_iff.mp hi).1
  have hkept : (((s.resumeAt k .proceed).resumeAt k .proceed).resumeAt k .rejected).goals[i]? =
      some record := by
    rw [hreject.goals, hdispatch.goals, hgoals, List.getElem?_append_left, getElem?_learn]
    · rw [List.getElem?_append_left (by rw [length_learn]; exact hlt), getElem?_learn, hi]
      have hne : s.goals.length ≠ i := Nat.ne_of_gt hlt
      simp [learns, hne]
    · rw [length_learn, List.length_append, length_learn]
      omega
  have hsettled := hsafe hfalse record (List.mem_of_getElem? hkept)
  exact absurd (hunsettled.symm.trans hsettled) Bool.false_ne_true

/-- A cancel that marks an unsettled goal terminal without an acknowledgement disarms over it. -/
theorem unsafe_of_unacknowledged (guardTimeout : ℚ) {s : Guard} {l : GuardStep}
    (hpublisher : s.client.guardPublisher = true) (hbad : ¬ EndsSettled s l) :
    ¬ Follows (step guardTimeout) (DisarmSafe guardTimeout) s [l] := by
  rintro ⟨hsafe, -⟩
  unfold EndsSettled at hbad
  push Not at hbad
  obtain ⟨handle, hends, record, hrecord, hunsettled⟩ := hbad
  unfold endsUnacknowledged at hends
  split at hends
  · rename_i k
    split at hends
    · rename_i h hk
      obtain ⟨htracked, heq⟩ := Option.filter_eq_some_iff.mp hends
      obtain rfl := of_decide_eq_true heq
      have hcancel := resumed_at hk (.cancelAnswer false)
      have hout : resume s.client s.goals.length (.cancelWaiting handle) (.cancelAnswer false) =
          ({ s.client with goalHandle := none, guardActive := false },
            .finished (.returns none), s.client.publish false) := by
        simp [resume, JointTrajectoryControllerClient.markTerminal, htracked]
      have hfalse : false ∈ messages guardTimeout s (.resume k (.cancelAnswer false)) := by
        rw [messages, step, hcancel.published, List.drop_left, hout]
        simp [JointTrajectoryControllerClient.publish, hpublisher]
      have hkept : (s.resumeAt k (.cancelAnswer false)).goals = s.goals := by
        rw [hcancel.goals]
        exact List.append_nil _
      refine hunsettled (hsafe hfalse record ?_)
      change record ∈ (s.resumeAt k (.cancelAnswer false)).goals
      rw [hkept]
      exact List.mem_of_getElem? hrecord
    · cases hends
  · cases hends

/-- A step that does not meet the conditions leads to an unsafe disarm, at most a rejection later. -/
theorem unsafe_of_not_settles (guardTimeout : ℚ) {s : Guard} {l : GuardStep}
    (hpublisher : s.client.guardPublisher = true) (hbad : ¬ Settles s l) :
    ∃ more, ¬ Follows (step guardTimeout) (DisarmSafe guardTimeout) s (l :: more) := by
  rcases not_and_or.mp hbad with harms | hends
  · unfold ArmsSettled arms at harms
    push Not at harms
    obtain ⟨harm, record, hmem, hunsettled⟩ := harms
    split at harm
    · rename_i k
      refine ⟨[.resume k .proceed, .resume k .rejected], ?_⟩
      exact unsafe_of_rejection guardTimeout hpublisher (eq_of_beq harm) hmem
        (Bool.eq_false_of_not_eq_true hunsettled)
    · cases harm
  · exact ⟨[], unsafe_of_unacknowledged guardTimeout hpublisher hends⟩

/-! ## The condition under which every disarm is safe -/

/-- **Disarm safety.** Every disarm of a run is safe if each step arms over settled goals only and
takes no unsettled goal for canceled that was not, and a step that does not can be followed by an
unsafe disarm. -/
theorem disarm_safe (now guardTimeout : ℚ) (ls : List GuardStep) :
    (Follows (step guardTimeout) Settles (init true now) ls →
      Follows (step guardTimeout) (DisarmSafe guardTimeout) (init true now) ls) ∧
    ∀ l, ¬ Settles (run (step guardTimeout) (init true now) ls) l →
      ∃ more, ¬ Follows (step guardTimeout) (DisarmSafe guardTimeout) (init true now)
        (ls ++ l :: more) := by
  constructor
  · intro hls
    exact follows_of_invariant (fun s => s.Sound ∧ s.Guarded)
      (fun s l h hl => ⟨sound_step guardTimeout s l h.1,
        guarded_stepped h.1 h.2 hl.1 (stepped guardTimeout s l)⟩)
      (fun s l h hl => settled_stepped h.2 hl.2 (stepped guardTimeout s l))
      ⟨sound_init true now, guarded_init true now⟩ hls
  · intro l hbad
    have hpublisher : (run (step guardTimeout) (init true now) ls).client.guardPublisher = true :=
      run_invariant' (fun s : Guard => s.client.guardPublisher = true)
        (fun s l h => (guardPublisher_stepped (stepped guardTimeout s l)).trans h) rfl ls
    obtain ⟨more, hunsafe⟩ := unsafe_of_not_settles guardTimeout hpublisher hbad
    exact ⟨more, fun hsafe => hunsafe ((follows_append _ ls (l :: more)).mp hsafe).2⟩

/-- The acceptance of goal 0 is lost, and goal 1 is rejected `pause` later. -/
def forgottenGoal (pause : ℚ≥0) : List GuardStep :=
  [.send true, .resume 0 .proceed, .resume 0 .proceed, .resume 0 .proceed,
    .resume 0 .timeoutError, .tick pause, .send true, .resume 1 .proceed] ++ rejection 1

theorem forgottenGoal_unsafe :
    ¬ Follows (step 1) (DisarmSafe 1) (init true 0) (forgottenGoal 0) := by
  decide +kernel

theorem forgottenGoal_waited :
    (run (step 1) (init true 0) (forgottenGoal 1)).published = [true, true, false] ∧
    Follows (step 1) (DisarmSafe 1) (init true 0) (forgottenGoal 1) :=
  ⟨by decide +kernel, (disarm_safe 0 1 (forgottenGoal 1)).1 (by decide +kernel)⟩

/-- A goal is accepted and its cancel is refused. -/
def refusedCancel : List GuardStep :=
  [.send true, .resume 0 .proceed, .resume 0 .proceed, .resume 0 .proceed, .resume 0 .accepted,
    .cancel, .resume 1 (.cancelAnswer false)]

example : ¬ Follows (step 1) (DisarmSafe 1) (init true 0) refusedCancel := by decide +kernel

end Guard
end PhysicalAiRuntime.Controller
