import Mathlib.Algebra.Order.Field.Basic
import Mathlib.Tactic.Ring
import Mathlib.Tactic.Positivity
import Mathlib.Tactic.Linarith

/-! The quintic blend from rest to rest. Its slope is thirty times the square of `s * (1 - s)`, so
it never turns back, and a motion along it stays between its ends. -/
namespace PhysicalAiRuntime.Quintic
set_option autoImplicit false
set_option maxHeartbeats 250000

variable {K : Type} [Field K]

local instance sixAtLeastTwo : Nat.AtLeastTwo 6 := ⟨by decide⟩

def blend (s : K) : K := 10 * s ^ 3 - 15 * s ^ 4 + 6 * s ^ 5

def slope (s : K) : K := 30 * s ^ 2 - 60 * s ^ 3 + 30 * s ^ 4

@[simp] theorem blend_zero : blend (0 : K) = 0 := by
  unfold blend
  ring

@[simp] theorem blend_one : blend (1 : K) = 1 := by
  unfold blend
  ring

@[simp] theorem slope_zero : slope (0 : K) = 0 := by
  unfold slope
  ring

@[simp] theorem slope_one : slope (1 : K) = 0 := by
  unfold slope
  ring

/-- Where a motion from `q` to `g` is when it has gone the part `h` of the way. -/
def along (q g h : K) : K := q + h * (g - q)

@[simp] theorem along_zero (q g : K) : along q g 0 = q := by
  unfold along
  ring

@[simp] theorem along_one (q g : K) : along q g 1 = g := by
  unfold along
  ring

variable [LinearOrder K] [IsStrictOrderedRing K]

theorem slope_nonneg (s : K) : 0 ≤ slope s := by
  have hsquare : slope s = 30 * (s * (1 - s)) ^ 2 := by
    unfold slope
    ring
  rw [hsquare]
  positivity

/-- The difference of two values is the integral of the slope between them, written out. -/
theorem blend_sub (s t : K) : blend t - blend s = 30 * (t - s) *
    ((s * (1 - s) + (t - s) * (1 - 2 * s) / 2 - (t - s) ^ 2 / 3) ^ 2 +
      ((t - s) * (1 - 2 * s) - (t - s) ^ 2) ^ 2 / 12 + (t - s) ^ 4 / 180) := by
  unfold blend
  ring

theorem blend_monotone : Monotone (blend : K → K) := by
  intro s t h
  have hdiff : 0 ≤ t - s := sub_nonneg.mpr h
  rw [← sub_nonneg, blend_sub]
  positivity

theorem blend_nonneg {s : K} (h : 0 ≤ s) : 0 ≤ blend s := by
  have hmono := blend_monotone h
  rwa [blend_zero] at hmono

theorem blend_le_one {s : K} (h : s ≤ 1) : blend s ≤ 1 := by
  have hmono := blend_monotone h
  rwa [blend_one] at hmono

theorem along_mono {q g h k : K} (hqg : q ≤ g) (hhk : h ≤ k) : along q g h ≤ along q g k :=
  add_le_add_right (mul_le_mul_of_nonneg_right hhk (sub_nonneg.mpr hqg)) q

theorem along_anti {q g h k : K} (hgq : g ≤ q) (hhk : h ≤ k) : along q g k ≤ along q g h :=
  add_le_add_right (mul_le_mul_of_nonpos_right hhk (sub_nonpos.mpr hgq)) q

/-- A motion does not leave the interval between its ends. -/
theorem along_between (q g : K) {h : K} (hzero : 0 ≤ h) (hone : h ≤ 1) :
    min q g ≤ along q g h ∧ along q g h ≤ max q g := by
  cases le_total q g with
  | inl hqg =>
    have hlow := along_mono hqg hzero
    have hhigh := along_mono hqg hone
    rw [along_zero] at hlow
    rw [along_one] at hhigh
    rw [min_eq_left hqg, max_eq_right hqg]
    exact ⟨hlow, hhigh⟩
  | inr hgq =>
    have hhigh := along_anti hgq hzero
    have hlow := along_anti hgq hone
    rw [along_zero] at hhigh
    rw [along_one] at hlow
    rw [min_eq_right hgq, max_eq_left hgq]
    exact ⟨hlow, hhigh⟩

end PhysicalAiRuntime.Quintic
