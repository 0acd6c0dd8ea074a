import Mathlib.Algebra.Field.Rat
import Mathlib.Algebra.Order.Ring.Rat
import Mathlib.Tactic.Linarith
import Mathlib.Tactic.Ring
import PhysicalAiRuntime.Foundations.Backlog
import PhysicalAiRuntime.Foundations.Binary64
import PhysicalAiRuntime.Foundations.PyError

/-! `Session.wait`, the pacing of the application loop. Times are readings of the monotonic clock;
what is computed from them is rounded to a float. -/
namespace PhysicalAiRuntime.Control
set_option autoImplicit false
set_option maxHeartbeats 250000

/-- The fields of a `Session` that its pacing reads. -/
structure Pacer where
  period : Option ℚ
  nextDeadline : Option ℚ
  period_nonneg : ∀ p ∈ period, 0 ≤ p

namespace Pacer

/-- `Session.__init__`. -/
def new (frequency : Option ℚ) : Except PyError Pacer :=
  match frequency with
  | none => .ok ⟨none, none, fun p h => by cases h⟩
  | some f =>
    if hf : 0 < f then
      .ok ⟨some (Binary64.round (1 / f)), none, fun p h => by
        obtain rfl := Option.some.inj h
        exact Binary64.round_nonneg (one_div_pos.mpr hf).le⟩
    else .error ⟨.valueError, "session frequency must be positive"⟩

def setDeadline (s : Pacer) (time : ℚ) : Pacer := { s with nextDeadline := some time }

@[simp] theorem setDeadline_period (s : Pacer) (time : ℚ) :
    (s.setDeadline time).period = s.period := rfl

@[simp] theorem setDeadline_nextDeadline (s : Pacer) (time : ℚ) :
    (s.setDeadline time).nextDeadline = some time := rfl

/-- The end of `__enter__`, which reads the clock at `now`. -/
def enter (s : Pacer) (now : ℚ) : Pacer :=
  match s.period with
  | none => s
  | some p => s.setDeadline (Binary64.round (now + p))

/-- `wait`: the session it leaves, and the argument of the `time.sleep` it makes, if any. -/
def wait (s : Pacer) (now : ℚ) : Except PyError (Pacer × Option ℚ) :=
  match s.period with
  | none => .error ⟨.runtimeError, "session has no configured frequency"⟩
  | some p =>
    let deadline := s.nextDeadline.getD (Binary64.round (now + p))
    let delay := Binary64.round (deadline - now)
    .ok (s.setDeadline (Binary64.round (deadline + p)), if 0 < delay then some delay else none)

/-- The session after `n` calls of `wait` that read the clock at `now 0`, `now 1` and so on. -/
def after (s : Pacer) (now : ℕ → ℚ) : ℕ → Except PyError Pacer
  | 0 => .ok s
  | n + 1 => do
    let s ← s.after now n
    let (s, _) ← s.wait (now n)
    .ok s

end Pacer

/-! ## Waits in a row -/

/-- A session is entered at `start`, and its `n`-th call of `wait` reads the clock at `now n` and
returns at `woke n`; a sleep takes at least as long as it is asked to. -/
structure Rounds (s : Pacer) (start : ℚ) (now woke : ℕ → ℚ) : Prop where
  entered : start ≤ now 0
  order : ∀ n, woke n ≤ now (n + 1)
  returns : ∀ n, now n ≤ woke n
  sleeps : ∀ n state next delay, (s.enter start).after now n = .ok state →
    state.wait (now n) = .ok (next, some delay) → now n + delay ≤ woke n

namespace Pacer
variable {s : Pacer} {p : ℚ} {start : ℚ} {now woke : ℕ → ℚ}

/-- When the `n`-th wait is to return: the period, added up again and again. -/
def deadline (start p : ℚ) (n : ℕ) : ℚ := Binary64.accumulate start p (n + 1)

/-- The deadlines do not depend on when `wait` is called. -/
theorem after_deadline (hp : s.period = some p) (start : ℚ) (now : ℕ → ℚ) (n : ℕ) :
    ∃ state, (s.enter start).after now n = .ok state ∧ state.period = some p ∧
      state.nextDeadline = some (deadline start p n) := by
  induction n with
  | zero =>
    refine ⟨s.enter start, rfl, ?_⟩
    unfold enter
    simp only [hp]
    exact ⟨hp, rfl⟩
  | succ n ih =>
    obtain ⟨state, hstate, hperiod, hnext⟩ := ih
    have hwait : ∃ delay, state.wait (now n) =
        .ok (state.setDeadline (Binary64.round (deadline start p n + p)), delay) := by
      unfold wait
      rw [hperiod, hnext]
      exact ⟨_, rfl⟩
    obtain ⟨delay, hwait⟩ := hwait
    refine ⟨state.setDeadline (Binary64.round (deadline start p n + p)), ?_, hperiod, rfl⟩
    unfold after
    rw [hstate]
    change (state.wait (now n) >>= _) = _
    rw [hwait]
    rfl

/-- The `n`-th wait sleeps for what is left until its deadline. -/
theorem wait_sleeps (hp : s.period = some p) (start : ℚ) (now : ℕ → ℚ) (n : ℕ) :
    ∃ state next, (s.enter start).after now n = .ok state ∧ state.wait (now n) = .ok (next,
      if 0 < Binary64.round (deadline start p n - now n) then
        some (Binary64.round (deadline start p n - now n)) else none) := by
  obtain ⟨state, hstate, hperiod, hnext⟩ := after_deadline hp start now n
  refine ⟨state, state.setDeadline (Binary64.round (deadline start p n + p)), hstate, ?_⟩
  unfold wait
  rw [hperiod, hnext]
  rfl

/-- The clock readings up to the `n`-th deadline are floats below `2 ^ k`. -/
structure InRange (start f : ℚ) (n k : ℕ) : Prop where
  start_nonneg : 0 ≤ start
  finite : k ≤ 1023
  below : start + (n + 1) / f + (n + 1) * 2 ^ ((k : ℤ) - 53) < 2 ^ (k : ℤ)

/-- The deadlines keep the rate `f` up to the last place of the clock in each round. -/
theorem abs_deadline_sub_le {f : ℚ} (hf : 0 < f) {n k : ℕ} (h : InRange start f n k) :
    |deadline start (Binary64.round (1 / f)) n - (start + (n + 1) / f)| ≤
      (n + 1) * 2 ^ ((k : ℤ) - 53) := by
  have hk : -1021 ≤ (k : ℤ) := by omega
  have hplace := Binary64.two_zpow_pos ((k : ℤ) - 53)
  have hfpos : 0 < 1 / f := one_div_pos.mpr hf
  have hn : (0 : ℚ) ≤ n := Nat.cast_nonneg n
  have hscale : ((n : ℚ) + 1) / f = (n + 1) * (1 / f) := by ring
  have hbelow := h.below
  rw [hscale] at hbelow ⊢
  have hperiod : |1 / f| < 2 ^ (k : ℤ) := by
    rw [abs_of_pos hfpos]
    nlinarith [h.start_nonneg]
  have hrounded := Binary64.abs_round_sub_le_zpow hperiod hk
  have hdrift := Binary64.abs_accumulate_sub_le hk h.start_nonneg
    (Binary64.round_nonneg hfpos.le) hfpos.le hrounded (n := n + 1) (by push_cast; exact hbelow)
  push_cast at hdrift
  exact hdrift

/-- When the `n`-th wait is due to return. -/
def due (start p : ℚ) (now : ℕ → ℚ) (n : ℕ) : ℚ := max (now n) (deadline start p n)

theorem start_le_now (h : Rounds s start now woke) (n : ℕ) : start ≤ now n := by
  induction n with
  | zero => exact h.entered
  | succ n ih => exact ih.trans ((h.returns n).trans (h.order n))

/-- A wait returns at its deadline or later, up to the rounding of its sleep. -/
theorem deadline_sub_le_woke (hp : s.period = some p) (h : Rounds s start now woke) {n k : ℕ}
    (hstart : 0 ≤ start) (hbelow : deadline start p n < 2 ^ (k : ℤ)) :
    deadline start p n - 2 ^ ((k : ℤ) - 54) ≤ woke n := by
  obtain ⟨state, next, hstate, hwait⟩ := wait_sleeps hp start now n
  have hnow : 0 ≤ now n := hstart.trans (start_le_now h n)
  have hplace := Binary64.two_zpow_pos ((k : ℤ) - 54)
  by_cases hlate : deadline start p n ≤ now n
  · linarith [h.returns n]
  · have hleft : |deadline start p n - now n| < 2 ^ (k : ℤ) := by
      rw [abs_of_pos (by linarith)]
      linarith
    have hround := abs_le.mp (Binary64.abs_round_sub_le_zpow hleft (by omega))
    by_cases hsleep : 0 < Binary64.round (deadline start p n - now n)
    · rw [if_pos hsleep] at hwait
      linarith [h.sleeps n state next _ hstate hwait, hround.1]
    · linarith [h.returns n, hround.1, not_lt.mp hsleep]

/-- What the body before the `n`-th wait took beyond the time that its deadline leaves it. -/
def overrun (start p : ℚ) (now : ℕ → ℚ) : ℕ → ℚ
  | 0 => now 0 - deadline start p 0
  | n + 1 =>
    now (n + 1) - due start p now n - (deadline start p (n + 1) - deadline start p n)

/-- How late the `n`-th wait is called. -/
def lateness (start p : ℚ) (now : ℕ → ℚ) (n : ℕ) : ℚ := max 0 (now n - deadline start p n)

/-- The waits keep the timetable of the deadlines. -/
theorem overrun_eq : overrun start p now = Backlog.overrun (deadline start p) now := by
  funext n
  cases n with
  | zero => rfl
  | succ n => rfl

/-- **Pacing.** A session of frequency `f` is entered at `start` and then waits again and again. Its
`n`-th deadline is `start + (n + 1) / f` up to a last place of the clock in each round, and the wait
sleeps for what is left until then. It is called late by the most by which the bodies of a stretch
of rounds up to it overran: never, where none does; and a delay is made up for and does not add up
otherwise. -/
theorem wait_paces {f : ℚ} (hnew : Pacer.new (some f) = .ok s) (h : Rounds s start now woke)
    {n k : ℕ} (hrange : InRange start f n k) :
    ∃ p, s.period = some p ∧
    |deadline start p n - (start + (n + 1) / f)| ≤ (n + 1) * 2 ^ ((k : ℤ) - 53) ∧
    start + (n + 1) / f - (n + 2) * 2 ^ ((k : ℤ) - 53) ≤ woke n ∧
    (∃ state next, (s.enter start).after now n = .ok state ∧ state.wait (now n) = .ok (next,
      if 0 < Binary64.round (deadline start p n - now n) then
        some (Binary64.round (deadline start p n - now n)) else none)) ∧
    (∀ j ≤ n + 1, ∑ i ∈ Finset.Ico j (n + 1), overrun start p now i ≤ lateness start p now n) ∧
    (∃ j ≤ n + 1, lateness start p now n =
      ∑ i ∈ Finset.Ico j (n + 1), overrun start p now i) ∧
    ((∀ i ≤ n, overrun start p now i ≤ 0) → now n ≤ deadline start p n) := by
  obtain ⟨hf, hp⟩ : 0 < f ∧ s.period = some (Binary64.round (1 / f)) := by
    unfold Pacer.new at hnew
    simp only at hnew
    split at hnew
    · next hf =>
      cases hnew
      exact ⟨hf, rfl⟩
    · cases hnew
  have hdrift := abs_deadline_sub_le hf hrange
  have hlate := Backlog.late (deadline start (Binary64.round (1 / f))) now n
  have hplace : (2 : ℚ) ^ ((k : ℤ) - 53) = 2 ^ ((k : ℤ) - 54) + 2 ^ ((k : ℤ) - 54) := by
    rw [show (k : ℤ) - 53 = (k : ℤ) - 54 + 1 by ring, zpow_add_one₀ (by norm_num)]
    ring
  refine ⟨_, hp, hdrift, ?_, wait_sleeps hp start now n, ?_, ?_, ?_⟩
  · have hbounds := abs_le.mp hdrift
    have hbelow := hrange.below
    have hwoke := deadline_sub_le_woke hp h hrange.start_nonneg (n := n) (k := k)
      (by linarith [hbounds.2])
    linarith [hbounds.1, Binary64.two_zpow_pos ((k : ℤ) - 54)]
  · rw [overrun_eq]
    exact hlate.stretches
  · rw [overrun_eq]
    exact hlate.stretch
  · rw [overrun_eq]
    exact hlate.inTime

def tenHertz : Pacer := ⟨some (Binary64.round (1 / 10)), none, fun p h => by
  obtain rfl := Option.some.inj h
  exact Binary64.round_nonneg (by norm_num)⟩

/-- At 10 Hz from the clock reading 12345.5, with bodies of 3/100 s and sleeps that end in time. -/
def tenHertzNow : ℕ → ℚ
  | 0 => 12345.5 + 3 / 100
  | n + 1 => max (tenHertzNow n) (tenHertzNow n +
      Binary64.round (deadline 12345.5 (Binary64.round (1 / 10)) n - tenHertzNow n)) + 3 / 100

def tenHertzWoke (n : ℕ) : ℚ := max (tenHertzNow n) (tenHertzNow n +
  Binary64.round (deadline 12345.5 (Binary64.round (1 / 10)) n - tenHertzNow n))

theorem tenHertz_rounds : Rounds tenHertz 12345.5 tenHertzNow tenHertzWoke where
  entered := by norm_num [tenHertzNow]
  order n := by
    change tenHertzWoke n ≤ tenHertzWoke n + 3 / 100
    linarith
  returns n := le_max_left _ _
  sleeps n state next delay hstate hwait := by
    obtain ⟨state', next', hstate', hwait'⟩ :=
      wait_sleeps (s := tenHertz) rfl 12345.5 tenHertzNow n
    cases hstate.symm.trans hstate'
    have hd := (Prod.mk.inj (Except.ok.inj (hwait.symm.trans hwait'))).2
    split at hd
    · cases hd
      exact le_max_right _ _
    · cases hd

theorem wait_paces_tenHertz : Pacer.new (some 10) = .ok tenHertz ∧
    (12345.5 : ℚ) + ((7 : ℕ) + 1) / 10 - ((7 : ℕ) + 2) * 2 ^ (((14 : ℕ) : ℤ) - 53) ≤
      tenHertzWoke 7 ∧
    tenHertzNow 7 ≤ deadline 12345.5 (Binary64.round (1 / 10)) 7 := by
  have hnew : Pacer.new (some 10) = .ok tenHertz := rfl
  have hrange : InRange 12345.5 10 7 14 := ⟨by norm_num, by norm_num, by norm_num⟩
  obtain ⟨p, hp, -, hwoke, -, -, -, hfits⟩ := wait_paces hnew tenHertz_rounds hrange
  obtain rfl : Binary64.round (1 / 10) = p := Option.some.inj hp
  have hbodies : ∀ i ∈ List.range 8,
      overrun 12345.5 (Binary64.round (1 / 10)) tenHertzNow i ≤ 0 := by
    decide +kernel
  exact ⟨hnew, hwoke, hfits fun i hi => hbodies i (List.mem_range.mpr (by omega))⟩

end Pacer
end PhysicalAiRuntime.Control
