import PhysicalAiRuntime.Foundations.Feed
import PhysicalAiRuntime.Controller.GuardSteps

/-! The lifetime of the trajectory guard: one goal at a time, heartbeats only over a goal, silence
after a goal is abandoned, and no effect of answers that come late. -/
namespace PhysicalAiRuntime.Controller
set_option autoImplicit false
set_option maxHeartbeats 250000
open Trace Feed

namespace Guard
variable {guardTimeout : ℚ} {s s' : Guard} {l : GuardStep} {new : List Bool} {k : ℕ}
  {r : Resumption} {co co' : Coroutine}
  {out : JointTrajectoryControllerClient × Coroutine × List Bool}

/-! ## The invariant of the flags -/

structure Inv (s : Guard) : Prop where
  unique : ∀ (i j : ℕ) (ci cj : Coroutine), s.coroutines[i]? = some ci →
    s.coroutines[j]? = some cj → ci.pending = true → cj.pending = true → i = j
  pending : ∀ co ∈ s.coroutines, co.pending = true → s.client.goalPending = true
  exclusive : s.client.goalPending = true → s.client.goalHandle = none
  active : s.client.guardActive = true → s.client.busy = true
  /-- Before it arms, a `send` leaves the guard inactive. -/
  unarmed : ∀ co ∈ s.coroutines, co.unarmed = true → s.client.guardActive = false

theorem inv_init (guardPublisher : Bool) (now : ℚ) : (init guardPublisher now).Inv where
  unique _ _ _ _ hi := by simp [init] at hi
  pending _ hco := absurd hco List.not_mem_nil
  exclusive hp := absurd hp Bool.false_ne_true
  active ha := absurd ha Bool.false_ne_true
  unarmed _ _ _ := rfl

theorem Inv.not_tracked (h : s.Inv) (hk : s.coroutines[k]? = some co) (hp : co.pending = true) :
    s.client.goalPending = true ∧ s.client.goalHandle = none := by
  have hpending := h.pending co (List.mem_of_getElem? hk) hp
  exact ⟨hpending, h.exclusive hpending⟩

theorem busy_of_pending {c : JointTrajectoryControllerClient} (h : c.goalPending = true) :
    c.busy = true := by
  simp [JointTrajectoryControllerClient.busy, h]

/-- Where nothing is busy, no coroutine is pending and the guard is inactive. -/
theorem Inv.of_idle (h : s.Inv) (hidle : s.client.busy = false) :
    (∀ co ∈ s.coroutines, co.pending = false) ∧ s.client.goalHandle = none ∧
      s.client.guardActive = false := by
  refine ⟨fun co hco => ?_, ?_, ?_⟩
  · by_contra hp
    have hbusy := busy_of_pending (h.pending co hco (Bool.eq_true_of_not_eq_false hp))
    exact Bool.false_ne_true (hidle.symm.trans hbusy)
  · simpa using (Bool.or_eq_false_iff.mp hidle).2
  · by_contra ha
    have hbusy := h.active (Bool.eq_true_of_not_eq_false ha)
    exact Bool.false_ne_true (hidle.symm.trans hbusy)

/-! ## Sections keep it -/

/-- What a section of `co`, which ends in `co'`, may do to the flags. -/
structure FlagsKept (c c' : JointTrajectoryControllerClient) (co co' : Coroutine) : Prop where
  own : co'.pending = true → co.pending = true ∧ c'.goalPending = true
  other : co.pending = false →
    c'.goalPending = c.goalPending ∧ (c.guardActive = false → c'.guardActive = false)
  exclusive : c'.goalPending = true → c'.goalHandle = none
  active : c'.guardActive = true → c'.busy = true
  unarmed : co'.unarmed = true → c'.guardActive = false

theorem inv_resumed (h : s.Inv) (hr : Resumed s s' k r co out)
    (hf : FlagsKept s.client s'.client co out.2.1) : s'.Inv := by
  have hbefore : ∀ (j : ℕ) (cj : Coroutine), s'.coroutines[j]? = some cj → cj.pending = true →
      ∃ old : Coroutine, s.coroutines[j]? = some old ∧ old.pending = true := by
    intro j cj hcj hp
    rcases hr.at_cases hcj with ⟨rfl, rfl⟩ | ⟨-, hold⟩
    · exact ⟨co, hr.at_k, (hf.own hp).1⟩
    · exact ⟨cj, hold, hp⟩
  -- a section of a coroutine that is not pending leaves the flags of a pending one
  have hforeign : ∀ (j : ℕ) (cj : Coroutine), j ≠ k → s.coroutines[j]? = some cj →
      cj.pending = true → co.pending = false := by
    intro j cj hjk hcj hp
    by_contra hco
    exact hjk (h.unique j k cj co hcj hr.at_k hp (Bool.eq_true_of_not_eq_false hco))
  refine ⟨fun i j ci cj hi hj hpi hpj => ?_, fun cj hcj hp => ?_, hf.exclusive, hf.active,
    fun cj hcj hu => ?_⟩
  · obtain ⟨oi, hoi, hpoi⟩ := hbefore i ci hi hpi
    obtain ⟨oj, hoj, hpoj⟩ := hbefore j cj hj hpj
    exact h.unique i j oi oj hoi hoj hpoi hpoj
  · rcases hr.coroutine_cases hcj with rfl | ⟨j, hjk, hold⟩
    · exact (hf.own hp).2
    · rw [(hf.other (hforeign j cj hjk hold hp)).1]
      exact h.pending cj (List.mem_of_getElem? hold) hp
  · rcases hr.coroutine_cases hcj with rfl | ⟨j, hjk, hold⟩
    · exact hf.unarmed hu
    · have hp := Coroutine.pending_of_unarmed hu
      exact (hf.other (hforeign j cj hjk hold hp)).2
        (h.unarmed cj (List.mem_of_getElem? hold) hu)

theorem flags_of_dispatchUnknown {c : JointTrajectoryControllerClient} {ending : Ending}
    (hnone : c.goalHandle = none) (hp : co.pending = true) :
    FlagsKept c c.dispatchUnknown co (.finished ending) where
  own hf := absurd hf Bool.false_ne_true
  other hf := absurd (hf.symm.trans hp) Bool.false_ne_true
  exclusive _ := hnone
  active hf := absurd hf Bool.false_ne_true
  unarmed hu := absurd hu Bool.false_ne_true

/-- The ends of a coroutine that holds a handle are not pending. -/
theorem not_pending_of_answered {h : ℕ} (hco : Answered co co' h r) :
    co'.pending = false ∧ co'.unarmed = false := by
  rcases hco with ⟨ending, rfl⟩ | ⟨e, rfl, -⟩ <;> exact ⟨rfl, rfl⟩

theorem section_flags (h : s.Inv) {goal : ℕ} (hk : s.coroutines[k]? = some co)
    (hs : Section s.client goal co r out) : FlagsKept s.client out.1 co out.2.1 := by
  have hmem := List.mem_of_getElem? hk
  have hpend := fun hp => h.not_tracked hk hp
  cases hs with
  | idle _ co' _ hco hd hl ha =>
    refine ⟨fun hp => ?_, fun _ => ⟨rfl, id⟩, h.exclusive, h.active, fun hu => ?_⟩
    · rcases hco with rfl | ⟨ending, rfl⟩ | ⟨rfl, rfl⟩
      · exact ⟨hp, (hpend hp).1⟩
      · exact absurd hp Bool.false_ne_true
      · exact ⟨rfl, (hpend rfl).1⟩
    · rcases hco with rfl | ⟨ending, rfl⟩ | ⟨rfl, rfl⟩
      · exact h.unarmed _ hmem hu
      · exact absurd hu Bool.false_ne_true
      · exact h.unarmed _ hmem rfl
  | serverFailed _ =>
    have hinactive := h.unarmed _ hmem rfl
    exact ⟨fun hf => absurd hf Bool.false_ne_true, fun hf => absurd hf.symm Bool.false_ne_true,
      fun _ => (hpend rfl).2, fun ha => absurd (hinactive.symm.trans ha) Bool.false_ne_true,
      fun _ => hinactive⟩
  | arm =>
    exact ⟨fun _ => ⟨rfl, (hpend rfl).1⟩, fun hf => absurd hf.symm Bool.false_ne_true,
      h.exclusive, fun _ => busy_of_pending (hpend rfl).1, fun hu => absurd hu Bool.false_ne_true⟩
  | dispatched =>
    exact ⟨fun _ => ⟨rfl, (hpend rfl).1⟩, fun hf => absurd hf.symm Bool.false_ne_true,
      h.exclusive, h.active, fun hu => absurd hu Bool.false_ne_true⟩
  | dispatchKilled =>
    exact ⟨fun hf => absurd hf Bool.false_ne_true, fun hf => absurd hf.symm Bool.false_ne_true,
      h.exclusive, h.active, fun hu => absurd hu Bool.false_ne_true⟩
  | dispatchFailed _ _ => exact flags_of_dispatchUnknown (hpend rfl).2 rfl
  | acceptLost g _ _ _ => exact flags_of_dispatchUnknown (hpend rfl).2 rfl
  | rejected g => exact flags_of_dispatchUnknown (hpend rfl).2 rfl
  | accepted g =>
    exact ⟨fun hf => absurd hf Bool.false_ne_true, fun hf => absurd hf.symm Bool.false_ne_true,
      fun hf => absurd hf Bool.false_ne_true,
      fun _ => by simp [JointTrajectoryControllerClient.busy,
        JointTrajectoryControllerClient.acceptGoal],
      fun hu => absurd hu Bool.false_ne_true⟩
  | marked _ handle _ _ _ _ _ =>
    exact ⟨fun hf => absurd hf Bool.false_ne_true, fun _ => ⟨rfl, fun _ => rfl⟩, fun _ => rfl,
      fun ha => absurd ha Bool.false_ne_true, fun hu => absurd hu Bool.false_ne_true⟩
  | abandoned _ co' handle _ _ _ hco =>
    obtain ⟨hp, hu⟩ := not_pending_of_answered hco
    exact ⟨fun hf => absurd (hp.symm.trans hf) Bool.false_ne_true, fun _ => ⟨rfl, fun _ => rfl⟩,
      h.exclusive, fun ha => absurd ha Bool.false_ne_true, fun _ => rfl⟩
  | late _ co' handle _ _ _ hco =>
    obtain ⟨hp, hu⟩ := not_pending_of_answered hco
    exact ⟨fun hf => absurd (hp.symm.trans hf) Bool.false_ne_true, fun _ => ⟨rfl, id⟩,
      h.exclusive, h.active, fun hf => absurd (hu.symm.trans hf) Bool.false_ne_true⟩

/-! ## Every step keeps it -/

theorem inv_handle (h : s.Inv) (hco : co.pending = false) :
    Inv { s with coroutines := s.coroutines ++ [co] } := by
  have hold : ∀ cj ∈ s.coroutines ++ [co], cj.pending = true → cj ∈ s.coroutines := by
    intro cj hcj hp
    rcases List.mem_append.mp hcj with hcj | hcj
    · exact hcj
    · rw [List.mem_singleton.mp hcj, hco] at hp
      exact absurd hp Bool.false_ne_true
  have hat : ∀ (i : ℕ) (ci : Coroutine), (s.coroutines ++ [co])[i]? = some ci →
      ci.pending = true → s.coroutines[i]? = some ci := by
    intro i ci hi hp
    rcases getElem?_concat_cases hi with hi | ⟨-, rfl⟩
    · exact hi
    · exact absurd (hco.symm.trans hp) Bool.false_ne_true
  exact ⟨fun i j ci cj hi hj hpi hpj => h.unique i j ci cj (hat i ci hi hpi) (hat j cj hj hpj) hpi hpj,
    fun cj hcj hp => h.pending cj (hold cj hcj hp) hp, h.exclusive, h.active,
    fun cj hcj hu => h.unarmed cj (hold cj hcj (Coroutine.pending_of_unarmed hu)) hu⟩

theorem inv_send (h : s.Inv) (hidle : s.client.busy = false) :
    Inv { s with
      client := { s.client with goalPending := true }
      coroutines := s.coroutines ++ [.sendWaitingServer] } := by
  obtain ⟨hnone, hhandle, hinactive⟩ := h.of_idle hidle
  -- the new coroutine is the only pending one
  have hlast : ∀ (i : ℕ) (ci : Coroutine), (s.coroutines ++ [.sendWaitingServer])[i]? = some ci →
      ci.pending = true → i = s.coroutines.length := by
    intro i ci hi hp
    rcases getElem?_concat_cases hi with hold | ⟨hi, -⟩
    · have hfalse := hnone ci (List.mem_of_getElem? hold)
      exact absurd (hfalse.symm.trans hp) Bool.false_ne_true
    · exact hi
  refine ⟨fun i j ci cj hi hj hpi hpj => ?_, fun _ _ _ => rfl, fun _ => hhandle,
    fun _ => busy_of_pending rfl, fun _ _ _ => hinactive⟩
  rw [hlast i ci hi hpi, hlast j cj hj hpj]

theorem inv_stepped (h : s.Inv) (hs : Stepped guardTimeout s l s' new) : s'.Inv := by
  cases hs with
  | nothing => exact h
  | started _ co client hstart =>
    cases hstart with
    | send _ hidle => exact inv_send h hidle
    | waitForResult handle hreturned => exact inv_handle h rfl
    | cancel handle htracked => exact inv_handle h rfl
  | resumed k r co out _ hr =>
    have hflags := section_flags h hr.at_k hr.section_
    rw [← hr.client] at hflags
    exact inv_resumed h hr hflags
  | heartbeat => exact ⟨h.unique, h.pending, h.exclusive, h.active, h.unarmed⟩
  | tick elapsed => exact ⟨h.unique, h.pending, h.exclusive, h.active, h.unarmed⟩

/-! ## Handles -/

/-- A handle is the number of one goal, and stands for it from its acceptance on. -/
structure Numbered (s : Guard) : Prop where
  tracked : ∀ handle, s.client.goalHandle = some handle → handle ∈ s.handles
  held : ∀ co ∈ s.coroutines, ∀ handle, co.handle = some handle → handle ∈ s.handles
  bounded : ∀ handle ∈ s.handles, handle < s.goals.length
  fresh : ∀ g, .sendWaitingAccept g ∈ s.coroutines → g ∉ s.handles ∧ g < s.goals.length

theorem numbered_init (guardPublisher : Bool) (now : ℚ) :
    (init guardPublisher now).Numbered where
  tracked _ h := nomatch h
  held _ hco := absurd hco List.not_mem_nil
  bounded _ hh := absurd hh List.not_mem_nil
  fresh _ hco := absurd hco List.not_mem_nil

theorem Resumed.handle_cases (hr : Resumed s s' k r co out) {handle : ℕ}
    (hh : handle ∈ s'.handles) :
    handle ∈ s.handles ∨ (co = .sendWaitingAccept handle ∧ r = .accepted) := by
  rw [hr.handles, List.mem_append] at hh
  exact hh.imp_right fun hh => accepts_eq_some (Option.mem_toList.mp hh)

theorem Resumed.handles_kept (hr : Resumed s s' k r co out) {handle : ℕ}
    (hh : handle ∈ s.handles) : handle ∈ s'.handles := by
  rw [hr.handles]
  exact List.mem_append_left _ hh

theorem Resumed.goals_length (hr : Resumed s s' k r co out) :
    s.goals.length ≤ s'.goals.length := by
  rw [hr.goals, List.length_append, length_learn]
  exact Nat.le_add_right _ _

theorem numbered_resumed (hinv : s.Inv) (h : s.Numbered) (hr : Resumed s s' k r co out) :
    s'.Numbered := by
  have hmem := List.mem_of_getElem? hr.at_k
  have harrives := section_arrives hr.section_
  refine ⟨fun handle hh => ?_, fun cj hcj handle hh => ?_, fun handle hh => ?_, fun g hg => ?_⟩
  · rw [hr.client] at hh
    obtain hsame | ⟨_, _, -, -, hout⟩ | ⟨g, rfl, rfl, hout⟩ := section_goalHandle hr.section_
    · exact hr.handles_kept (h.tracked handle (hsame ▸ hh))
    · rw [hout] at hh
      cases hh
    · rw [hout] at hh
      cases hh
      rw [hr.handles]
      exact List.mem_append_right _ (List.mem_singleton_self _)
  · rcases hr.coroutine_cases hcj with rfl | ⟨j, -, hold⟩
    · exact hr.handles_kept (h.held co hmem handle (harrives.handle handle hh))
    · exact hr.handles_kept (h.held cj (List.mem_of_getElem? hold) handle hh)
  · rcases hr.handle_cases hh with hold | ⟨rfl, -⟩
    · exact lt_of_lt_of_le (h.bounded handle hold) hr.goals_length
    · exact lt_of_lt_of_le (h.fresh handle hmem).2 hr.goals_length
  · rcases hr.coroutine_cases hg with hout | ⟨j, hjk, hold⟩
    · obtain ⟨rfl, hnot⟩ | ⟨rfl, rfl, rfl⟩ := harrives.accepting g hout.symm
      · obtain ⟨hfresh, hlt⟩ := h.fresh g hmem
        refine ⟨fun hg' => ?_, lt_of_lt_of_le hlt hr.goals_length⟩
        rw [hr.handles, hnot] at hg'
        exact hfresh (by simpa using hg')
      · constructor
        · intro hg'
          rcases hr.handle_cases hg' with hg' | ⟨hco, -⟩
          · exact absurd (h.bounded _ hg') (lt_irrefl _)
          · cases hco
        · rw [hr.goals, List.length_append, length_learn]
          exact Nat.lt_succ_self _
    · obtain ⟨hfresh, hlt⟩ := h.fresh g (List.mem_of_getElem? hold)
      refine ⟨fun hg' => ?_, lt_of_lt_of_le hlt hr.goals_length⟩
      rcases hr.handle_cases hg' with hg' | ⟨rfl, -⟩
      · exact hfresh hg'
      · exact hjk (hinv.unique j k _ _ hold hr.at_k rfl rfl)

theorem numbered_started (h : s.Numbered) {client : JointTrajectoryControllerClient}
    (hstart : Starts s l co client) :
    Numbered { s with client := client, coroutines := s.coroutines ++ [co] } := by
  have hhandle : client.goalHandle = s.client.goalHandle := by cases hstart <;> rfl
  have hreturned : ∀ handle, co.handle = some handle → handle ∈ s.handles := by
    intro handle hh
    cases hstart with
    | send _ hidle => cases hh
    | waitForResult _ hreturned =>
      cases hh
      exact hreturned
    | cancel _ htracked =>
      cases hh
      exact h.tracked handle htracked
  have hplace : ∀ g, co ≠ .sendWaitingAccept g := by
    intro g hg
    subst hg
    cases hstart
  refine ⟨fun handle hh => h.tracked handle (hhandle ▸ hh), fun cj hcj handle hh => ?_,
    h.bounded, fun g hg => ?_⟩
  · rcases List.mem_append.mp hcj with hold | hnew
    · exact h.held cj hold handle hh
    · rw [List.mem_singleton.mp hnew] at hh
      exact hreturned handle hh
  · rcases List.mem_append.mp hg with hold | hnew
    · exact h.fresh g hold
    · exact absurd (List.mem_singleton.mp hnew).symm (hplace g)

theorem numbered_stepped (hinv : s.Inv) (h : s.Numbered)
    (hs : Stepped guardTimeout s l s' new) : s'.Numbered := by
  cases hs with
  | nothing => exact h
  | started _ co client hstart => exact numbered_started h hstart
  | resumed k r co out _ hr => exact numbered_resumed hinv h hr
  | heartbeat => exact ⟨h.tracked, h.held, h.bounded, h.fresh⟩
  | tick elapsed =>
    have hlen : (s.tick guardTimeout elapsed).goals.length = s.goals.length := List.length_map _
    refine ⟨h.tracked, h.held, ?_, ?_⟩
    · rw [hlen]
      exact h.bounded
    · rw [hlen]
      exact h.fresh

structure Sound (s : Guard) : Prop where
  inv : s.Inv
  numbered : s.Numbered

theorem sound_init (guardPublisher : Bool) (now : ℚ) : (init guardPublisher now).Sound :=
  ⟨inv_init guardPublisher now, numbered_init guardPublisher now⟩

theorem sound_step (guardTimeout : ℚ) (s : Guard) (l : GuardStep) (h : s.Sound) :
    (step guardTimeout s l).Sound :=
  ⟨inv_stepped h.inv (stepped guardTimeout s l),
    numbered_stepped h.inv h.numbered (stepped guardTimeout s l)⟩

/-! ## Heartbeats -/

/-- A message that says true is the heartbeat of an active guard, or arms it. -/
theorem beat_cases (hs : Stepped guardTimeout s l s' new) (htrue : true ∈ new) :
    (s.client.guardActive = true ∧ s'.client = s.client) ∨
    ∃ k, l = .resume k .proceed ∧ s.coroutines[k]? = some .sendArming ∧
      s'.client.goalPending = s.client.goalPending := by
  cases hs with
  | resumed k r co out _ hr =>
    obtain ⟨rfl, rfl⟩ := section_true hr.section_ htrue
    refine Or.inr ⟨k, rfl, hr.at_k, ?_⟩
    rw [hr.client]
    cases hr.section_ <;> rfl
  | heartbeat =>
    refine Or.inl ⟨?_, rfl⟩
    by_contra hinactive
    rw [JointTrajectoryControllerClient.heartbeat, if_neg hinactive] at htrue
    exact absurd htrue List.not_mem_nil
  | _ => exact absurd htrue List.not_mem_nil

theorem beats_busy (h : s.Inv) (hs : Stepped guardTimeout s l s' new) (htrue : true ∈ new) :
    s.client.busy = true ∧ s'.client.busy = true := by
  obtain ⟨hactive, hclient⟩ | ⟨k, -, hk, hclient⟩ := beat_cases hs htrue
  · rw [hclient]
    exact ⟨h.active hactive, h.active hactive⟩
  · have hpending := (h.not_tracked hk rfl).1
    exact ⟨busy_of_pending hpending, busy_of_pending (hclient.trans hpending)⟩

/-! ## After an abandoned goal -/

/-- The guard is inactive, and every pending `send` is coroutine `n` or a later one. -/
structure Inactive (n : ℕ) (s : Guard) : Prop where
  inactive : s.client.guardActive = false
  later : ∀ (i : ℕ) (co : Coroutine), s.coroutines[i]? = some co → co.pending = true → n ≤ i
  started : n ≤ s.coroutines.length

theorem inactive_started {n : ℕ} (h : Inactive n s) {client : JointTrajectoryControllerClient}
    (hstart : Starts s l co client) :
    Inactive n { s with client := client, coroutines := s.coroutines ++ [co] } := by
  have hguard : client.guardActive = s.client.guardActive := by cases hstart <;> rfl
  refine ⟨hguard.trans h.inactive, fun i ci hi hp => ?_, ?_⟩
  · rcases getElem?_concat_cases hi with hold | ⟨rfl, -⟩
    · exact h.later i ci hold hp
    · exact h.started
  · rw [List.length_append]
    exact Nat.le_add_right_of_le h.started

theorem inactive_resumed (hinv : s.Inv) {n : ℕ} (h : Inactive n s)
    (hr : Resumed s s' k r co out) (harm : ¬ (co = .sendArming ∧ r = .proceed)) :
    Inactive n s' := by
  refine ⟨?_, fun i ci hi hp => ?_, ?_⟩
  · rw [hr.client]
    exact section_inactive hr.section_ harm h.inactive
  · rcases hr.at_cases hi with ⟨rfl, rfl⟩ | ⟨-, hold⟩
    · have hflags := section_flags hinv hr.at_k hr.section_
      exact h.later i co hr.at_k (hflags.own hp).1
    · exact h.later i ci hold hp
  · rw [hr.coroutines, List.length_set]
    exact h.started

theorem inactive_stepped (hinv : s.Inv) {n : ℕ} (h : Inactive n s)
    (hs : Stepped guardTimeout s l s' new) :
    Inactive n s' ∨ ∃ k, l = .resume k .proceed ∧ s.coroutines[k]? = some .sendArming := by
  cases hs with
  | nothing => exact Or.inl h
  | started _ co client hstart => exact Or.inl (inactive_started h hstart)
  | resumed k r co out _ hr =>
    by_cases harm : co = .sendArming ∧ r = .proceed
    · obtain ⟨rfl, rfl⟩ := harm
      exact Or.inr ⟨k, rfl, hr.at_k⟩
    · exact Or.inl (inactive_resumed hinv h hr harm)
  | heartbeat => exact Or.inl ⟨h.inactive, h.later, h.started⟩
  | tick elapsed => exact Or.inl ⟨h.inactive, h.later, h.started⟩

/-- From an inactive guard on, a heartbeat comes after a later `send` has armed. -/
theorem armed_of_beat (hinv : s.Inv) {n : ℕ} (h : Inactive n s) {ls : List GuardStep}
    (htrue : true ∈ messages guardTimeout (run (step guardTimeout) s ls) l) :
    ∃ mid k post, ls ++ [l] = mid ++ .resume k .proceed :: post ∧ n ≤ k ∧
      (run (step guardTimeout) s mid).coroutines[k]? = some .sendArming := by
  induction ls generalizing s with
  | nil =>
    obtain ⟨hactive, -⟩ | ⟨k, rfl, hk, -⟩ := beat_cases (stepped guardTimeout s l) htrue
    · exact absurd (h.inactive.symm.trans hactive) Bool.false_ne_true
    · exact ⟨[], k, [], rfl, h.later k _ hk rfl, hk⟩
  | cons l₀ ls ih =>
    have hs := stepped guardTimeout s l₀
    rcases inactive_stepped hinv h hs with hnext | ⟨k, rfl, hk⟩
    · obtain ⟨mid, k, post, hls, hn, hk⟩ := ih (inv_stepped hinv hs) hnext htrue
      exact ⟨l₀ :: mid, k, post, by rw [List.cons_append, hls, List.cons_append], hn, hk⟩
    · exact ⟨[], k, ls ++ [l], rfl, h.later k _ hk rfl, hk⟩

/-- The step is `mark_terminal` of the tracked goal. -/
structure MarksTerminal (guardTimeout : ℚ) (s : Guard) (l : GuardStep) (handle : ℕ) : Prop where
  tracked : s.client.goalHandle = some handle
  client : (step guardTimeout s l).client = (s.client.markTerminal handle).1
  messages : messages guardTimeout s l = (s.client.markTerminal handle).2

/-- The goal is marked terminal, and a `send` that started later has armed. -/
def Rearmed (guardTimeout : ℚ) (s : Guard) (handle : ℕ) (ls : List GuardStep) : Prop :=
  ∃ pre l mid k post, ls = pre ++ l :: (mid ++ .resume k .proceed :: post) ∧
    MarksTerminal guardTimeout (run (step guardTimeout) s pre) l handle ∧
    (run (step guardTimeout) s (pre ++ [l])).coroutines.length ≤ k ∧
    (run (step guardTimeout) s (pre ++ l :: mid)).coroutines[k]? = some .sendArming

structure Abandoned (handle : ℕ) (s : Guard) : Prop where
  tracked : s.client.goalHandle = some handle
  inactive : s.client.guardActive = false

theorem Abandoned.idle {handle : ℕ} (h : Abandoned handle s) (hinv : s.Inv) {co : Coroutine}
    (hco : co ∈ s.coroutines) : co.pending = false := by
  by_contra hp
  obtain ⟨k, hk⟩ := List.getElem?_of_mem hco
  have hnone := (hinv.not_tracked hk (Bool.eq_true_of_not_eq_false hp)).2
  rw [h.tracked] at hnone
  cases hnone

theorem abandoned_resumed {handle : ℕ} (hinv : s.Inv) (h : Abandoned handle s)
    (hr : Resumed s s' k r co out) :
    Abandoned handle s' ∨ (s'.client = (s.client.markTerminal handle).1 ∧
      out.2.2 = (s.client.markTerminal handle).2 ∧ Inactive s'.coroutines.length s') := by
  have hco := h.idle hinv (List.mem_of_getElem? hr.at_k)
  have hguard : s'.client.guardActive = false := by
    rw [hr.client]
    refine section_inactive hr.section_ (fun harm => ?_) h.inactive
    rw [harm.1] at hco
    exact absurd hco.symm Bool.false_ne_true
  obtain hsame | ⟨h', _, htracked, -, hout⟩ | ⟨g, rfl, -, -⟩ := section_goalHandle hr.section_
  · left
    refine ⟨?_, hguard⟩
    rw [hr.client, hsame]
    exact h.tracked
  · right
    obtain rfl : handle = h' := Option.some.inj (h.tracked.symm.trans htracked)
    have hmark : s.client.markTerminal handle = (out.1, out.2.2) := by
      rw [hout, JointTrajectoryControllerClient.markTerminal, if_pos htracked]
    rw [hmark]
    refine ⟨hr.client, rfl, hguard, fun i ci hi hp => ?_, le_refl _⟩
    rcases hr.at_cases hi with ⟨-, rfl⟩ | ⟨-, hold⟩
    · rw [hout] at hp
      exact absurd hp Bool.false_ne_true
    · have hidle := h.idle hinv (List.mem_of_getElem? hold)
      exact absurd (hidle.symm.trans hp) Bool.false_ne_true
  · exact absurd hco.symm Bool.false_ne_true

/-- An abandoned goal stays so until it is marked terminal. -/
theorem abandoned_step (guardTimeout : ℚ) {handle : ℕ} (hinv : s.Inv) (h : Abandoned handle s)
    (l : GuardStep) :
    Abandoned handle (step guardTimeout s l) ∨ (MarksTerminal guardTimeout s l handle ∧
      Inactive (step guardTimeout s l).coroutines.length (step guardTimeout s l)) := by
  have hs := stepped guardTimeout s l
  suffices hcases : Abandoned handle (step guardTimeout s l) ∨
      ((step guardTimeout s l).client = (s.client.markTerminal handle).1 ∧
        messages guardTimeout s l = (s.client.markTerminal handle).2 ∧
        Inactive (step guardTimeout s l).coroutines.length (step guardTimeout s l)) from
    hcases.imp_right fun ⟨hclient, hmessages, hinactive⟩ =>
      ⟨⟨h.tracked, hclient, hmessages⟩, hinactive⟩
  generalize step guardTimeout s l = s' at hs ⊢
  generalize messages guardTimeout s l = new at hs ⊢
  cases hs with
  | nothing => exact Or.inl h
  | started _ co client hstart =>
    cases hstart with
    | send _ hidle =>
      have hnone := (hinv.of_idle hidle).2.1
      rw [h.tracked] at hnone
      cases hnone
    | waitForResult _ _ => exact Or.inl ⟨h.tracked, h.inactive⟩
    | cancel _ _ => exact Or.inl ⟨h.tracked, h.inactive⟩
  | resumed k r co out _ hr => exact abandoned_resumed hinv h hr
  | heartbeat => exact Or.inl ⟨h.tracked, h.inactive⟩
  | tick elapsed => exact Or.inl ⟨h.tracked, h.inactive⟩

theorem rearmed_of_beat (hinv : s.Inv) {handle : ℕ} (h : Abandoned handle s)
    {ls : List GuardStep}
    (htrue : true ∈ messages guardTimeout (run (step guardTimeout) s ls) l) :
    Rearmed guardTimeout s handle (ls ++ [l]) := by
  induction ls generalizing s with
  | nil =>
    obtain ⟨hactive, -⟩ | ⟨k, rfl, hk, -⟩ := beat_cases (stepped guardTimeout s l) htrue
    · exact absurd (h.inactive.symm.trans hactive) Bool.false_ne_true
    · exact absurd (h.idle hinv (List.mem_of_getElem? hk)).symm Bool.false_ne_true
  | cons l₀ ls ih =>
    have hinv' := inv_stepped hinv (stepped guardTimeout s l₀)
    rcases abandoned_step guardTimeout hinv h l₀ with hnext | ⟨hmark, hcleared⟩
    · obtain ⟨pre, l₁, mid, k, post, hls, hrest⟩ := ih hinv' hnext htrue
      exact ⟨l₀ :: pre, l₁, mid, k, post, by rw [List.cons_append, hls, List.cons_append], hrest⟩
    · obtain ⟨mid, k, post, hls, hn, hk⟩ := armed_of_beat hinv' hcleared htrue
      exact ⟨[], l₀, mid, k, post, by rw [List.cons_append, hls, List.nil_append], hmark, hn, hk⟩

/-! ## Late answers -/

/-- A handle that `send` has returned and that is not tracked. -/
structure Untracked (handle : ℕ) (s : Guard) : Prop where
  returned : handle ∈ s.handles
  untracked : s.client.goalHandle ≠ some handle

theorem untracked_stepped (hnum : s.Numbered) {handle : ℕ} (h : Untracked handle s)
    (hs : Stepped guardTimeout s l s' new) : Untracked handle s' := by
  cases hs with
  | nothing => exact h
  | started _ co client hstart =>
    have hsame : client.goalHandle = s.client.goalHandle := by cases hstart <;> rfl
    exact ⟨h.returned, fun hh => h.untracked (hsame ▸ hh)⟩
  | resumed k r co out _ hr =>
    refine ⟨hr.handles_kept h.returned, ?_⟩
    rw [hr.client]
    obtain hsame | ⟨_, _, -, -, hout⟩ | ⟨g, rfl, -, hout⟩ := section_goalHandle hr.section_
    · rw [hsame]
      exact h.untracked
    · rw [hout]
      exact fun hnone => nomatch hnone
    · rw [hout]
      intro hsome
      obtain rfl : g = handle := Option.some.inj hsome
      exact (hnum.fresh g (List.mem_of_getElem? hr.at_k)).1 h.returned
  | heartbeat => exact ⟨h.returned, h.untracked⟩
  | tick elapsed => exact ⟨h.returned, h.untracked⟩

theorem untracked_run (guardTimeout : ℚ) {handle : ℕ} (hsound : s.Sound) (h : Untracked handle s)
    (ls : List GuardStep) : Untracked handle (run (step guardTimeout) s ls) :=
  (run_invariant' (fun s => s.Sound ∧ Untracked handle s)
    (fun s l h => ⟨sound_step guardTimeout s l h.1,
      untracked_stepped h.1.numbered h.2 (stepped guardTimeout s l)⟩) ⟨hsound, h⟩ ls).2

theorem late_resume (guardTimeout : ℚ) {handle : ℕ} (r : Resumption)
    (hk : s.coroutines[k]?.bind Coroutine.handle = some handle)
    (hlate : s.client.goalHandle ≠ some handle) :
    (step guardTimeout s (.resume k r)).client = s.client ∧
      messages guardTimeout s (.resume k r) = [] := by
  have hs := stepped guardTimeout s (.resume k r)
  generalize step guardTimeout s (.resume k r) = s' at hs ⊢
  generalize messages guardTimeout s (.resume k r) = new at hs ⊢
  cases hs with
  | nothing => exact ⟨rfl, rfl⟩
  | started _ co client hstart => cases hstart
  | resumed _ _ co out _ hr =>
    rw [hr.at_k, Option.bind_some] at hk
    obtain ⟨hclient, hsilent⟩ := section_late hr.section_ hk hlate
    exact ⟨hr.client.trans hclient, hsilent⟩

/-! ## The lifetime of the guard -/

/-- What holds of the guard in a state and of all that may follow it. -/
structure Lifetime (guardTimeout : ℚ) (s : Guard) : Prop where
  exclusive : ∀ (i : ℕ) (ci : Coroutine), s.coroutines[i]? = some ci → ci.pending = true →
    s.client.goalPending = true ∧ ∀ (j : ℕ) (cj : Coroutine), s.coroutines[j]? = some cj →
      cj.pending = true → i = j
  untracked : s.client.goalPending = true → s.client.goalHandle = none
  refused : s.client.busy = true → ∀ isTrajectory, ∃ e, s.send isTrajectory = (s, .error e)
  active : s.client.guardActive = true → s.client.busy = true
  beats : ∀ l, true ∈ messages guardTimeout s l →
    s.client.busy = true ∧ (step guardTimeout s l).client.busy = true
  /-- A tracked goal with an inactive guard was abandoned: no heartbeat before it is marked
  terminal and a later `send` has armed. -/
  abandoned : ∀ handle, s.client.goalHandle = some handle → s.client.guardActive = false →
    ∀ ls l, true ∈ messages guardTimeout (run (step guardTimeout) s ls) l →
      Rearmed guardTimeout s handle (ls ++ [l])
  /-- Whatever is answered for an earlier goal, whenever it comes. -/
  late : ∀ handle ∈ s.handles, s.client.goalHandle ≠ some handle → ∀ ls k r,
    ((run (step guardTimeout) s ls).coroutines[k]?.bind Coroutine.handle = some handle) →
      (run (step guardTimeout) s (ls ++ [.resume k r])).client =
        (run (step guardTimeout) s ls).client ∧
      messages guardTimeout (run (step guardTimeout) s ls) (.resume k r) = []

theorem guard_lifetime (guardPublisher : Bool) (now guardTimeout : ℚ) (ls : List GuardStep) :
    Lifetime guardTimeout (run (step guardTimeout) (init guardPublisher now) ls) := by
  have hsound := run_invariant' Sound (sound_step guardTimeout) (sound_init guardPublisher now) ls
  generalize run (step guardTimeout) (init guardPublisher now) ls = s at hsound
  have hinv := hsound.inv
  constructor
  · intro i ci hi hpi
    exact ⟨(hinv.not_tracked hi hpi).1, fun j cj hj hpj => hinv.unique i j ci cj hi hj hpi hpj⟩
  · exact hinv.exclusive
  · intro hbusy isTrajectory
    obtain hrefused | ⟨hidle, -⟩ := s.send_cases isTrajectory
    · exact hrefused
    · exact absurd (hidle.symm.trans hbusy) Bool.false_ne_true
  · exact hinv.active
  · exact fun l htrue => beats_busy hinv (stepped guardTimeout s l) htrue
  · exact fun handle htracked hinactive ls l htrue =>
      rearmed_of_beat hinv ⟨htracked, hinactive⟩ htrue
  · intro handle hreturned huntracked ls k r hk
    have hlate := (untracked_run guardTimeout hsound ⟨hreturned, huntracked⟩ ls).untracked
    rw [run_append]
    exact late_resume guardTimeout r hk hlate

end Guard
end PhysicalAiRuntime.Controller
