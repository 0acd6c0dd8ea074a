import Mathlib.Algebra.BigOperators.Intervals
import Mathlib.Algebra.Order.BigOperators.Group.Finset
import Mathlib.Algebra.Order.Monoid.Unbundled.MinMax
import Mathlib.Tactic.Abel

/-! What is left over when work comes in and a fixed share of it is done in each round, and nothing
is stored up in advance: the amount is the largest excess of a stretch of rounds up to now. Rounds
that keep a timetable, none of which begins before it is due, are late by such an amount. -/
namespace PhysicalAiRuntime.Backlog
set_option autoImplicit false
set_option maxHeartbeats 250000
set_option linter.unusedSectionVars false

variable {α : Type} [AddCommGroup α] [LinearOrder α] [IsOrderedAddMonoid α]

/-- The backlog before round `n`, where `excess i` is what round `i` adds beyond its share. -/
def backlog (excess : ℕ → α) : ℕ → α
  | 0 => 0
  | n + 1 => max 0 (backlog excess n + excess n)

section Excess
variable (excess : ℕ → α)

theorem backlog_nonneg (n : ℕ) : 0 ≤ backlog excess n := by
  cases n with
  | zero => exact le_refl 0
  | succ n => exact le_max_left _ _

theorem stretch_succ {j n : ℕ} (h : j ≤ n) :
    ∑ i ∈ Finset.Ico j (n + 1), excess i = ∑ i ∈ Finset.Ico j n, excess i + excess n :=
  Finset.sum_Ico_succ_top h excess

/-- No stretch of rounds up to now exceeds the backlog. -/
theorem stretch_le_backlog {j n : ℕ} (h : j ≤ n) :
    ∑ i ∈ Finset.Ico j n, excess i ≤ backlog excess n := by
  induction n with
  | zero =>
    obtain rfl : j = 0 := Nat.le_zero.mp h
    simp [backlog]
  | succ n ih =>
    rcases Nat.lt_or_eq_of_le h with hlt | rfl
    · have hj : j ≤ n := Nat.le_of_lt_succ hlt
      rw [stretch_succ excess hj]
      calc ∑ i ∈ Finset.Ico j n, excess i + excess n
          ≤ backlog excess n + excess n := add_le_add_left (ih hj) (excess n)
        _ ≤ backlog excess (n + 1) := le_max_right _ _
    · simpa using backlog_nonneg excess (n + 1)

/-- The backlog is the excess of some stretch of rounds up to now. -/
theorem backlog_eq_stretch (n : ℕ) :
    ∃ j ≤ n, backlog excess n = ∑ i ∈ Finset.Ico j n, excess i := by
  induction n with
  | zero => exact ⟨0, le_refl 0, by simp [backlog]⟩
  | succ n ih =>
    obtain ⟨j, hj, he⟩ := ih
    rcases le_total (backlog excess n + excess n) 0 with hneg | hpos
    · refine ⟨n + 1, le_refl _, ?_⟩
      simpa [backlog] using hneg
    · refine ⟨j, Nat.le_succ_of_le hj, ?_⟩
      rw [stretch_succ excess hj, ← he]
      exact max_eq_right hpos

theorem backlog_eq_zero {n : ℕ} (h : ∀ i < n, excess i ≤ 0) : backlog excess n = 0 := by
  obtain ⟨j, -, he⟩ := backlog_eq_stretch excess n
  refine le_antisymm ?_ (backlog_nonneg excess n)
  rw [he]
  exact Finset.sum_nonpos fun i hi => h i (Finset.mem_Ico.mp hi).2

end Excess

/-! ## Rounds that keep a timetable -/

variable (due ready : ℕ → α)

/-- How late round `n` is, which is due at `due n` and ready to begin at `ready n`. -/
def lateness (n : ℕ) : α := max 0 (ready n - due n)

/-- What the round before `n` took beyond its share, when it began as soon as it was ready and
due. -/
def overrun : ℕ → α
  | 0 => ready 0 - due 0
  | n + 1 => ready (n + 1) - max (ready n) (due n) - (due (n + 1) - due n)

theorem begin_eq (n : ℕ) : max (ready n) (due n) = due n + lateness due ready n := by
  unfold lateness
  rw [← max_add_add_left, add_zero, add_sub_cancel, max_comm]

/-- A round is late by the backlog of the overruns up to it. -/
theorem lateness_eq_backlog (n : ℕ) :
    lateness due ready n = backlog (overrun due ready) (n + 1) := by
  induction n with
  | zero =>
    unfold lateness
    simp [backlog, overrun]
  | succ n ih =>
    have hoverrun : lateness due ready n + overrun due ready (n + 1) = ready (n + 1) - due (n + 1) := by
      change _ + (ready (n + 1) - max (ready n) (due n) - (due (n + 1) - due n)) = _
      rw [begin_eq]
      abel
    unfold backlog
    rw [← ih, hoverrun]
    rfl

/-- How late a round is, without the recursion. -/
structure Late (n : ℕ) : Prop where
  stretches : ∀ j ≤ n + 1, ∑ i ∈ Finset.Ico j (n + 1), overrun due ready i ≤ lateness due ready n
  stretch : ∃ j ≤ n + 1, lateness due ready n = ∑ i ∈ Finset.Ico j (n + 1), overrun due ready i
  inTime : (∀ i ≤ n, overrun due ready i ≤ 0) → ready n ≤ due n

theorem late (n : ℕ) : Late due ready n := by
  have hbacklog := lateness_eq_backlog due ready n
  refine ⟨fun j hj => ?_, ?_, fun hfits => ?_⟩
  · rw [hbacklog]
    exact stretch_le_backlog _ hj
  · rw [hbacklog]
    exact backlog_eq_stretch _ (n + 1)
  · have hzero : lateness due ready n = 0 := by
      rw [hbacklog]
      exact backlog_eq_zero _ fun i hi => hfits i (Nat.le_of_lt_succ hi)
    exact sub_nonpos.mp (hzero ▸ le_max_right _ _)

end PhysicalAiRuntime.Backlog
