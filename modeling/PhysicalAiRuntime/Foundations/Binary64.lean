import Mathlib.Data.Int.Log
import Mathlib.Data.Rat.Floor
import Mathlib.Tactic.Linarith
import Mathlib.Tactic.NormNum
import Mathlib.Tactic.Positivity

/-! Rounding of rationals to double precision, as long as nothing overflows: the nearest multiple of
the last of 53 binary places, a tie going to the even one. -/
namespace PhysicalAiRuntime
set_option autoImplicit false
set_option maxHeartbeats 250000

/-! ## Integers -/

/-- `round(x)`: the nearest integer, a tie going to the even one. -/
def roundHalfEven (x : ℚ) : ℤ :=
  let f := ⌊x⌋
  if x - f < 1 / 2 then f
  else if 1 / 2 < x - f then f + 1
  else if f % 2 = 0 then f else f + 1

theorem floor_le_roundHalfEven (x : ℚ) : ⌊x⌋ ≤ roundHalfEven x := by
  unfold roundHalfEven
  dsimp only
  split_ifs <;> omega

theorem roundHalfEven_le_floor_add_one (x : ℚ) : roundHalfEven x ≤ ⌊x⌋ + 1 := by
  unfold roundHalfEven
  dsimp only
  split_ifs <;> omega

@[simp] theorem roundHalfEven_intCast (n : ℤ) : roundHalfEven n = n := by
  simp [roundHalfEven]

theorem roundHalfEven_mono {x y : ℚ} (h : x ≤ y) : roundHalfEven x ≤ roundHalfEven y := by
  rcases (Int.floor_le_floor h).lt_or_eq with hlt | heq
  · calc roundHalfEven x ≤ ⌊x⌋ + 1 := roundHalfEven_le_floor_add_one x
      _ ≤ ⌊y⌋ := hlt
      _ ≤ roundHalfEven y := floor_le_roundHalfEven y
  · unfold roundHalfEven
    dsimp only
    rw [heq]
    split_ifs <;> first | omega | (exfalso; linarith)

theorem roundHalfEven_add_of_lt (n : ℤ) {f : ℚ} (hf : 0 ≤ f) (hlt : f < 1 / 2) :
    roundHalfEven (n + f) = n := by
  have hfloor : ⌊(n : ℚ) + f⌋ = n := by
    rw [Int.floor_eq_iff]
    constructor <;> linarith
  have hsub : (n : ℚ) + f - n < 1 / 2 := by linarith
  unfold roundHalfEven
  rw [hfloor]
  exact if_pos hsub

/-- Rounding to an integer moves by at most a half. -/
theorem abs_roundHalfEven_sub_le (x : ℚ) : |(roundHalfEven x : ℚ) - x| ≤ 1 / 2 := by
  have hle := Int.floor_le x
  have hlt := Int.lt_floor_add_one x
  rw [abs_le]
  unfold roundHalfEven
  dsimp only
  split_ifs <;> push_cast <;> constructor <;> linarith

namespace Binary64

/-! ## Double precision -/

/-- The exponent of the last of the 53 binary places of `q`. -/
def exponent (q : ℚ) : ℤ := max (Int.log 2 |q| - 52) (-1074)

def round (q : ℚ) : ℚ := roundHalfEven (q / 2 ^ exponent q) * 2 ^ exponent q

theorem two_zpow_pos (e : ℤ) : (0 : ℚ) < 2 ^ e := zpow_pos (by norm_num) e

@[simp] theorem round_zero : round 0 = 0 := by
  simp [round, roundHalfEven]

/-- A multiple of the last place is not moved past. -/
theorem le_round {q : ℚ} {n : ℤ} (h : n * (2 : ℚ) ^ exponent q ≤ q) :
    n * (2 : ℚ) ^ exponent q ≤ round q := by
  have hdiv : (n : ℚ) ≤ q / 2 ^ exponent q := (le_div_iff₀ (two_zpow_pos _)).mpr h
  have hround := roundHalfEven_mono hdiv
  rw [roundHalfEven_intCast] at hround
  exact mul_le_mul_of_nonneg_right (by exact_mod_cast hround) (two_zpow_pos _).le

theorem round_le {q : ℚ} {n : ℤ} (h : q ≤ n * (2 : ℚ) ^ exponent q) :
    round q ≤ n * (2 : ℚ) ^ exponent q := by
  have hdiv : q / 2 ^ exponent q ≤ (n : ℚ) := (div_le_iff₀ (two_zpow_pos _)).mpr h
  have hround := roundHalfEven_mono hdiv
  rw [roundHalfEven_intCast] at hround
  exact mul_le_mul_of_nonneg_right (by exact_mod_cast hround) (two_zpow_pos _).le

theorem round_of_multiple {q : ℚ} {n : ℤ} (h : q = n * (2 : ℚ) ^ exponent q) : round q = q := by
  have hle : round q ≤ n * (2 : ℚ) ^ exponent q := round_le h.le
  have hge : n * (2 : ℚ) ^ exponent q ≤ round q := le_round h.ge
  rw [← h] at hle hge
  exact le_antisymm hle hge

/-- Higher powers of two are multiples of the last place. -/
theorem zpow_eq_multiple {e k : ℤ} (h : e ≤ k) : ∃ n : ℤ, (2 : ℚ) ^ k = n * (2 : ℚ) ^ e := by
  refine ⟨2 ^ (k - e).toNat, ?_⟩
  have hsplit : k = ((k - e).toNat : ℤ) + e := by omega
  conv_lhs => rw [hsplit, zpow_add₀ (by norm_num)]
  push_cast
  rw [zpow_natCast]

theorem exponent_mono {x y : ℚ} (hx : x ≠ 0) (h : |x| ≤ |y|) : exponent x ≤ exponent y := by
  have hlog := Int.log_mono_right (b := 2) (abs_pos.mpr hx) h
  unfold exponent
  omega

/-- A number with a higher last place has a power of two at or below it, at which every number with
a lower last place ends. -/
theorem exists_power_between {x y : ℚ} (hx : x ≠ 0) (h : |x| ≤ |y|)
    (hlt : exponent x < exponent y) : ∃ k, exponent y ≤ k ∧ |x| ≤ 2 ^ k ∧ (2 : ℚ) ^ k ≤ |y| := by
  have hxpos := abs_pos.mpr hx
  have hypos := hxpos.trans_le h
  refine ⟨Int.log 2 |y|, ?_, ?_, ?_⟩
  · unfold exponent at hlt ⊢
    omega
  · have hlog : Int.log 2 |x| + 1 ≤ Int.log 2 |y| := by
      have hmono := Int.log_mono_right (b := 2) hxpos h
      unfold exponent at hlt
      omega
    calc |x| ≤ (2 : ℚ) ^ (Int.log 2 |x| + 1) := (Int.lt_zpow_succ_log_self (by norm_num) |x|).le
      _ ≤ 2 ^ Int.log 2 |y| := zpow_le_zpow_right₀ (by norm_num) hlog
  · exact Int.zpow_log_le_self (by norm_num) hypos

theorem round_nonneg {x : ℚ} (h : 0 ≤ x) : 0 ≤ round x := by
  have hzero := le_round (q := x) (n := 0) (by simpa using h)
  simpa using hzero

theorem round_nonpos {x : ℚ} (h : x ≤ 0) : round x ≤ 0 := by
  have hzero := round_le (q := x) (n := 0) (by simpa using h)
  simpa using hzero

/-- Numbers with the same last place are rounded in order. -/
theorem round_mono_of_exponent_eq {x y : ℚ} (h : x ≤ y) (he : exponent x = exponent y) :
    round x ≤ round y := by
  unfold round
  rw [he]
  have hdiv : x / 2 ^ exponent y ≤ y / 2 ^ exponent y :=
    div_le_div_of_nonneg_right h (two_zpow_pos _).le
  exact mul_le_mul_of_nonneg_right (by exact_mod_cast roundHalfEven_mono hdiv) (two_zpow_pos _).le

theorem round_mono {x y : ℚ} (h : x ≤ y) : round x ≤ round y := by
  rcases le_or_gt x 0 with hx | hx
  · rcases le_or_gt 0 y with hy | hy
    · exact (round_nonpos hx).trans (round_nonneg hy)
    · -- both are negative, and the power of two lies between them with the other sign
      have habs : |y| ≤ |x| := by
        rw [abs_of_neg hy, abs_of_nonpos hx]
        linarith
      rcases (exponent_mono hy.ne habs).lt_or_eq with hlt | heq
      · obtain ⟨k, hk, hyk, hkx⟩ := exists_power_between hy.ne habs hlt
        rw [abs_of_neg hy] at hyk
        rw [abs_of_nonpos hx] at hkx
        obtain ⟨n, hn⟩ := zpow_eq_multiple hk
        obtain ⟨m, hm⟩ := zpow_eq_multiple (hlt.le.trans hk)
        have hleft : round x ≤ (-n : ℤ) * (2 : ℚ) ^ exponent x := round_le (by
          push_cast
          linarith)
        have hright : (-m : ℤ) * (2 : ℚ) ^ exponent y ≤ round y := le_round (by
          push_cast
          linarith)
        push_cast at hleft hright
        linarith
      · exact round_mono_of_exponent_eq h heq.symm
  · have hy : 0 < y := hx.trans_le h
    have habs : |x| ≤ |y| := by
      rw [abs_of_pos hx, abs_of_pos hy]
      exact h
    rcases (exponent_mono hx.ne' habs).lt_or_eq with hlt | heq
    · obtain ⟨k, hk, hxk, hky⟩ := exists_power_between hx.ne' habs hlt
      rw [abs_of_pos hx] at hxk
      rw [abs_of_pos hy] at hky
      obtain ⟨n, hn⟩ := zpow_eq_multiple hk
      obtain ⟨m, hm⟩ := zpow_eq_multiple (hlt.le.trans hk)
      have hleft : round x ≤ m * (2 : ℚ) ^ exponent x := round_le (by linarith)
      have hright : n * (2 : ℚ) ^ exponent y ≤ round y := le_round (by linarith)
      linarith
    · exact round_mono_of_exponent_eq h heq

/-! ## What is exact -/

theorem abs_lt_zpow (q : ℚ) : |q| < 2 ^ (exponent q + 53) := by
  have hle : Int.log 2 |q| + 1 ≤ exponent q + 53 := by
    unfold exponent
    omega
  calc |q| < (2 : ℚ) ^ (Int.log 2 |q| + 1) := Int.lt_zpow_succ_log_self (by norm_num) |q|
    _ ≤ 2 ^ (exponent q + 53) := zpow_le_zpow_right₀ (by norm_num) hle

/-- The last place of a number below a power of two is at most 53 places below that. -/
theorem exponent_le {q : ℚ} {k : ℤ} (hq : q ≠ 0) (h : |q| < 2 ^ k) (hk : -1021 ≤ k) :
    exponent q ≤ k - 53 := by
  have hlog : Int.log 2 |q| < k := (Int.lt_zpow_iff_log_lt (by norm_num) (abs_pos.mpr hq)).mp h
  unfold exponent
  omega

/-- The numbers of double precision are not rounded. -/
theorem round_mul_zpow {n e : ℤ} (hn : |n| ≤ 2 ^ 53) (he : -1074 ≤ e) :
    round (n * 2 ^ e) = n * 2 ^ e := by
  by_cases hzero : n = 0
  · simp [hzero]
  have hne : (n : ℚ) * 2 ^ e ≠ 0 := mul_ne_zero (by exact_mod_cast hzero) (two_zpow_pos e).ne'
  have hcast : |(n : ℚ)| ≤ 2 ^ (53 : ℤ) := by exact_mod_cast hn
  rcases hcast.lt_or_eq with hlt | heq
  · have habs : |(n : ℚ) * 2 ^ e| < 2 ^ (e + 53) := by
      rw [abs_mul, abs_of_pos (two_zpow_pos e), zpow_add₀ (by norm_num), mul_comm]
      exact mul_lt_mul_of_pos_left hlt (two_zpow_pos e)
    have hexp := exponent_le hne habs (by omega)
    obtain ⟨m, hm⟩ := zpow_eq_multiple (e := exponent ((n : ℚ) * 2 ^ e)) (k := e) (by omega)
    refine round_of_multiple (n := n * m) ?_
    push_cast
    rw [mul_assoc, ← hm]
  · have habs : |(n : ℚ) * 2 ^ e| < 2 ^ (e + 54) := by
      rw [abs_mul, heq, abs_of_pos (two_zpow_pos e), ← zpow_add₀ (by norm_num)]
      exact zpow_lt_zpow_right₀ (by norm_num) (by omega)
    have hexp := exponent_le hne habs (by omega)
    obtain ⟨m, hm⟩ :=
      zpow_eq_multiple (e := exponent ((n : ℚ) * 2 ^ e)) (k := e + 53) (by omega)
    have hpower : (2 : ℚ) ^ (53 : ℤ) * 2 ^ e = m * 2 ^ exponent ((n : ℚ) * 2 ^ e) := by
      rw [← hm, ← zpow_add₀ (by norm_num), add_comm]
    rcases abs_choice (n : ℚ) with hpos | hneg
    · refine round_of_multiple (n := m) ?_
      rw [← hpower, ← heq, hpos]
    · refine round_of_multiple (n := -m) ?_
      push_cast
      rw [neg_mul, ← hpower, ← heq, hneg]
      ring

theorem round_intCast {n : ℤ} (h : |n| ≤ 2 ^ 53) : round n = n := by
  simpa using round_mul_zpow (e := 0) h (by norm_num)

@[simp] theorem round_round (q : ℚ) : round (round q) = round q := by
  have hbound : |roundHalfEven (q / 2 ^ exponent q)| ≤ 2 ^ 53 := by
    have hlt : |q / 2 ^ exponent q| < 2 ^ 53 := by
      rw [abs_div, abs_of_pos (two_zpow_pos _), div_lt_iff₀ (two_zpow_pos _)]
      have h := abs_lt_zpow q
      rwa [add_comm, zpow_add₀ (by norm_num)] at h
    obtain ⟨hlow, hhigh⟩ := abs_lt.mp hlt
    have hceil : roundHalfEven (q / 2 ^ exponent q) ≤ roundHalfEven ((2 ^ 53 : ℤ) : ℚ) :=
      roundHalfEven_mono (by
        push_cast
        exact hhigh.le)
    have hfloor : roundHalfEven ((-2 ^ 53 : ℤ) : ℚ) ≤ roundHalfEven (q / 2 ^ exponent q) :=
      roundHalfEven_mono (by
        push_cast
        exact hlow.le)
    rw [roundHalfEven_intCast] at hceil hfloor
    exact abs_le.mpr ⟨hfloor, hceil⟩
  exact round_mul_zpow hbound (le_max_right _ _)

/-- Rounded integers are integers. -/
theorem exists_int_eq_round (n : ℤ) : ∃ m : ℤ, round n = m := by
  by_cases hexp : 0 ≤ exponent (n : ℚ)
  · refine ⟨roundHalfEven ((n : ℚ) / 2 ^ exponent (n : ℚ)) * 2 ^ (exponent (n : ℚ)).toNat, ?_⟩
    unfold round
    push_cast
    rw [← zpow_natCast, Int.toNat_of_nonneg hexp]
  · obtain ⟨k, hk⟩ := zpow_eq_multiple (e := exponent (n : ℚ)) (k := 0) (by omega)
    rw [zpow_zero] at hk
    refine ⟨n, round_of_multiple (n := n * k) ?_⟩
    push_cast
    rw [mul_assoc, ← hk, mul_one]

/-- From `2 ^ 53` on, less than one is not seen next to a rounded integer. -/
theorem round_add_fraction {m : ℤ} {f : ℚ} (hm : round m = m) (hlarge : 2 ^ 53 ≤ m) (hf : 0 ≤ f)
    (hone : f < 1) : round (m + f) = m := by
  have hmpos' : 1 ≤ m := by omega
  have hmpos : (0 : ℚ) < m := by exact_mod_cast hmpos'
  have hlog : Int.log 2 ((m : ℚ) + f) = Int.log 2 (m : ℚ) := by
    have hlow : Int.log 2 (m : ℚ) ≤ Int.log 2 ((m : ℚ) + f) :=
      Int.log_mono_right hmpos (by linarith)
    have hhigh : Int.log 2 ((m : ℚ) + f) < Int.log 2 (m : ℚ) + 1 := by
      rw [← Int.lt_zpow_iff_log_lt (by norm_num) (by linarith)]
      have hlt := Int.lt_zpow_succ_log_self (b := 2) (by norm_num) (m : ℚ)
      have hzero : 0 ≤ Int.log 2 (m : ℚ) :=
        (Int.zpow_le_iff_le_log (by norm_num) hmpos).mp (by exact_mod_cast hmpos')
      obtain ⟨k, hk⟩ := Int.eq_ofNat_of_zero_le (show 0 ≤ Int.log 2 (m : ℚ) + 1 by omega)
      rw [hk, zpow_natCast] at hlt ⊢
      have hnext : m + 1 ≤ 2 ^ k := Int.add_one_le_of_lt (by exact_mod_cast hlt)
      calc (m : ℚ) + f < m + 1 := by linarith
        _ ≤ ((2 : ℕ) : ℚ) ^ k := by exact_mod_cast hnext
    omega
  have hexp : exponent ((m : ℚ) + f) = exponent (m : ℚ) := by
    unfold exponent
    rw [abs_of_pos hmpos, abs_of_pos (by linarith : (0 : ℚ) < m + f), hlog]
  have hone' : 1 ≤ exponent (m : ℚ) := by
    have h53 : (53 : ℤ) ≤ Int.log 2 |(m : ℚ)| := by
      rw [← Int.zpow_le_iff_le_log (by norm_num) (abs_pos.mpr hmpos.ne'), abs_of_pos hmpos]
      exact_mod_cast hlarge
    unfold exponent
    omega
  have htwo : (2 : ℚ) ≤ 2 ^ exponent (m : ℚ) := by
    calc (2 : ℚ) = 2 ^ (1 : ℤ) := by norm_num
      _ ≤ 2 ^ exponent (m : ℚ) := zpow_le_zpow_right₀ (by norm_num) hone'
  have hplaces : (m : ℚ) + f =
      (roundHalfEven (m / 2 ^ exponent (m : ℚ)) + f / 2 ^ exponent (m : ℚ)) *
        2 ^ exponent (m : ℚ) := by
    rw [add_mul, div_mul_cancel₀ _ (two_zpow_pos _).ne']
    exact congrArg (· + f) hm.symm
  have hsmall : f / 2 ^ exponent (m : ℚ) < 1 / 2 := by
    rw [div_lt_iff₀ (two_zpow_pos _)]
    linarith
  have hkept := roundHalfEven_add_of_lt (roundHalfEven ((m : ℚ) / 2 ^ exponent (m : ℚ)))
    (div_nonneg hf (two_zpow_pos _).le) hsmall
  calc round (m + f)
      = roundHalfEven ((m + f) / 2 ^ exponent (m : ℚ)) * 2 ^ exponent (m : ℚ) := by
        unfold round
        rw [hexp]
    _ = roundHalfEven (m / 2 ^ exponent (m : ℚ)) * 2 ^ exponent (m : ℚ) := by
        rw [hplaces, mul_div_cancel_right₀ _ (two_zpow_pos _).ne', hkept]
    _ = m := hm

/-! ## How far rounding moves -/

theorem abs_round_sub_le (q : ℚ) : |round q - q| ≤ 2 ^ (exponent q - 1) := by
  have hhalf := abs_roundHalfEven_sub_le (q / 2 ^ exponent q)
  have hscale : round q - q =
      (roundHalfEven (q / 2 ^ exponent q) - q / 2 ^ exponent q) * 2 ^ exponent q := by
    unfold round
    rw [sub_mul, div_mul_cancel₀ _ (two_zpow_pos _).ne']
  rw [hscale, abs_mul, abs_of_pos (two_zpow_pos _), zpow_sub_one₀ (by norm_num)]
  nlinarith [two_zpow_pos (exponent q)]

/-- Below `2 ^ k` the error is at most a half of the last place. -/
theorem abs_round_sub_le_zpow {q : ℚ} {k : ℤ} (h : |q| < 2 ^ k) (hk : -1021 ≤ k) :
    |round q - q| ≤ 2 ^ (k - 54) := by
  by_cases hq : q = 0
  · rw [hq, round_zero, sub_zero, abs_zero]
    exact (two_zpow_pos _).le
  have hexp := exponent_le hq h hk
  calc |round q - q| ≤ (2 : ℚ) ^ (exponent q - 1) := abs_round_sub_le q
    _ ≤ 2 ^ (k - 54) := zpow_le_zpow_right₀ (by norm_num) (by omega)

/-! ## Repeated addition -/

/-- `n` times `+= p`. -/
def accumulate (x p : ℚ) : ℕ → ℚ
  | 0 => x
  | n + 1 => round (accumulate x p n + p)

theorem accumulate_nonneg {x p : ℚ} (hx : 0 ≤ x) (hp : 0 ≤ p) (n : ℕ) :
    0 ≤ accumulate x p n := by
  induction n with
  | zero => exact hx
  | succ n ih => exact round_nonneg (add_nonneg ih hp)

/-- Each addition of a rounded `q` loses at most the last place of what stays below `2 ^ k`. -/
theorem abs_accumulate_sub_le {x p q : ℚ} {k : ℤ} (hk : -1021 ≤ k) (hx : 0 ≤ x) (hp : 0 ≤ p)
    (hq : 0 ≤ q) (hpq : |p - q| ≤ 2 ^ (k - 54)) {n : ℕ}
    (hn : x + n * q + n * 2 ^ (k - 53) < 2 ^ k) :
    |accumulate x p n - (x + n * q)| ≤ n * 2 ^ (k - 53) := by
  have hplace : (2 : ℚ) ^ (k - 53) = 2 ^ (k - 54) + 2 ^ (k - 54) := by
    rw [show k - 53 = k - 54 + 1 by ring, zpow_add_one₀ (by norm_num)]
    ring
  have hpos := two_zpow_pos (k - 54)
  induction n with
  | zero => simp [accumulate]
  | succ n ih =>
    push_cast at hn ⊢
    have herr := abs_le.mp (ih (by linarith))
    have hpq' := abs_le.mp hpq
    have hsum : |accumulate x p n + p| < 2 ^ k := by
      rw [abs_of_nonneg (add_nonneg (accumulate_nonneg hx hp n) hp)]
      linarith [herr.2, hpq'.2]
    have hround := abs_le.mp (abs_round_sub_le_zpow hsum hk)
    change |round (accumulate x p n + p) - _| ≤ _
    rw [abs_le]
    constructor
    · linarith [herr.1, hpq'.1, hround.1]
    · linarith [herr.2, hpq'.2, hround.2]

end Binary64
end PhysicalAiRuntime
