import Mathlib.Data.List.Basic
import Mathlib.Data.List.Infix

/-! A log that one side appends to and another side reads in order, possibly skipping entries, and
histories of a value that never comes back once another value has taken its place. -/
namespace PhysicalAiRuntime.Feed
set_option autoImplicit false
set_option maxHeartbeats 250000

variable {α β : Type} {log : List α} {value : α → Option β}

/-- Position `n` of the log can be read next by a reader whose last position was `position`. -/
def CanRead (log : List α) (position : Option ℕ) (n : ℕ) : Prop :=
  n < log.length ∧ ∀ k, position = some k → k < n

instance (log : List α) (position : Option ℕ) (n : ℕ) : Decidable (CanRead log position n) := by
  unfold CanRead
  cases position with
  | none => exact decidable_of_iff (n < log.length) (by simp)
  | some k => exact decidable_of_iff (n < log.length ∧ k < n) (by simp)

/-- What a position of a log holds, it holds in every longer log. -/
theorem held_of_prefix {log' : List α} (h : log <+: log') {n : ℕ} {x : α}
    (hx : log[n]? = some x) : log'[n]? = some x := by
  have hn : n < log.length := (List.getElem?_eq_some_iff.mp hx).1
  have hn' : n < log'.length := hn.trans_le h.length_le
  rw [List.getElem?_eq_getElem hn'] at *
  rw [List.getElem?_eq_getElem hn, h.getElem hn] at hx
  exact hx

/-- The log shows `v`, and another value at a later position. -/
def GivenUp (value : α → Option β) (log : List α) (v : β) : Prop :=
  ∃ (a b : ℕ) (x y : α) (u : β), a < b ∧ log[a]? = some x ∧ log[b]? = some y ∧ value x = some v ∧
    value y = some u ∧ u ≠ v

def NeverReturns (value : α → Option β) (log : List α) : Prop :=
  ∀ (a b c : ℕ) (x y z : α) (u v : β), a < b → b < c → log[a]? = some x → log[b]? = some y → log[c]? = some z →
    value x = some v → value y = some u → u ≠ v → value z ≠ some v

theorem neverReturns_nil : NeverReturns value [] := by
  intro a b c x y z u v _ _ hx
  simp at hx

theorem not_givenUp_of_length (h : log.length ≤ 1) (v : β) : ¬ GivenUp value log v := by
  intro ⟨a, b, x, y, u, hab, _, hy, _⟩
  have hb : b < log.length := (List.getElem?_eq_some_iff.mp hy).1
  omega

theorem getElem?_concat_lt {z : α} {n : ℕ} (hn : n < log.length) :
    (log ++ [z])[n]? = log[n]? := List.getElem?_append_left hn

theorem getElem?_concat_cases {l : List α} {a b : α} {i : ℕ}
    (h : (l ++ [a])[i]? = some b) : l[i]? = some b ∨ (i = l.length ∧ b = a) := by
  by_cases hi : i < l.length
  · rw [List.getElem?_append_left hi] at h
    exact Or.inl h
  · rw [List.getElem?_append_right (Nat.le_of_not_lt hi)] at h
    obtain ⟨hlt, heq⟩ := List.getElem?_eq_some_iff.mp h
    have hzero : i - l.length = 0 := by simpa using hlt
    exact Or.inr ⟨by omega, by simpa [hzero] using heq.symm⟩

/-- Appending keeps the property when the new entry shows nothing that was given up. -/
theorem neverReturns_append {z : α} (h : NeverReturns value log)
    (hz : ∀ v, GivenUp value log v → value z ≠ some v) : NeverReturns value (log ++ [z]) := by
  intro a b c x y w u v hab hbc hx hy hw hvx hvy huv
  have hc : c < (log ++ [z]).length := (List.getElem?_eq_some_iff.mp hw).1
  rw [List.length_append, List.length_singleton] at hc
  have hb : b < log.length := by omega
  have ha : a < log.length := by omega
  rw [getElem?_concat_lt ha] at hx
  rw [getElem?_concat_lt hb] at hy
  by_cases hcl : c < log.length
  · rw [getElem?_concat_lt hcl] at hw
    exact h a b c x y w u v hab hbc hx hy hw hvx hvy huv
  · have hce : c = log.length := by omega
    rw [hce, List.getElem?_concat_length] at hw
    cases hw
    exact hz v ⟨a, b, x, y, u, hab, hx, hy, hvx, hvy, huv⟩

/-- From the position where another value was shown on, the old value is not shown. -/
theorem NeverReturns.after (h : NeverReturns value log) {a b c : ℕ} {x y z : α} {u v : β}
    (hab : a < b) (hbc : b ≤ c) (hx : log[a]? = some x) (hy : log[b]? = some y)
    (hz : log[c]? = some z) (hvx : value x = some v) (hvy : value y = some u) (huv : u ≠ v) :
    value z ≠ some v := by
  by_cases hlt : b < c
  · exact h a b c x y z u v hab hlt hx hy hz hvx hvy huv
  · have hbe : b = c := by omega
    rw [hbe] at hy
    rw [hy] at hz
    cases hz
    rw [hvy]
    intro he
    exact huv (Option.some.inj he)

end PhysicalAiRuntime.Feed
