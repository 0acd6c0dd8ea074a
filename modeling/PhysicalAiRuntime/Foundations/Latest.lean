import Mathlib.Data.List.Induction
import PhysicalAiRuntime.Foundations.Feed

/-! The last entry of a log that meets a condition, and how it moves on in a log that grows. -/
namespace PhysicalAiRuntime.Latest
set_option autoImplicit false
set_option maxHeartbeats 250000

variable {α : Type} {p : α → Bool} {log log' : List α} {x y : α}

def latest (p : α → Bool) (log : List α) : Option α := (log.filter p).getLast?

theorem latest_concat (p : α → Bool) (log : List α) (x : α) :
    latest p (log ++ [x]) = if p x then some x else latest p log := by
  unfold latest
  rw [List.filter_append]
  cases hx : p x with
  | true => simp [hx]
  | false => simp [hx]

theorem latest_concat_of_pos (log : List α) (hx : p x = true) :
    latest p (log ++ [x]) = some x := by
  rw [latest_concat, if_pos hx]

theorem latest_concat_of_neg (log : List α) (hx : p x = false) :
    latest p (log ++ [x]) = latest p log := by
  rw [latest_concat, hx, if_neg Bool.false_ne_true]

theorem latest_mem (h : latest p log = some x) : x ∈ log ∧ p x = true :=
  List.mem_filter.mp (List.mem_of_getLast? h)

/-- Behind the place of the last entry nothing meets the condition. -/
theorem latest_place (h : latest p log = some x) : ∃ n, log[n]? = some x ∧
    ∀ (m : ℕ) (z : α), n < m → log[m]? = some z → p z = false := by
  induction log using List.reverseRecOn with
  | nil => cases h
  | append_singleton log z ih =>
    rw [latest_concat] at h
    cases hz : p z with
    | true =>
      rw [hz, if_pos rfl] at h
      cases h
      refine ⟨log.length, List.getElem?_concat_length, fun m u hm hu => ?_⟩
      have hlt := (List.getElem?_eq_some_iff.mp hu).1
      rw [List.length_append, List.length_singleton] at hlt
      omega
    | false =>
      rw [hz, if_neg Bool.false_ne_true] at h
      obtain ⟨n, hn, hafter⟩ := ih h
      have hlt := (List.getElem?_eq_some_iff.mp hn).1
      refine ⟨n, (List.getElem?_append_left hlt).trans hn, fun m u hm hu => ?_⟩
      rcases Feed.getElem?_concat_cases hu with hold | ⟨-, rfl⟩
      · exact hafter m u hm hold
      · exact hz

/-- In a longer log the last entry stands at the same place or behind it. -/
theorem latest_moves_on (hlog : log <+: log') (hx : latest p log = some x)
    (hy : latest p log' = some y) :
    ∃ n m : ℕ, n ≤ m ∧ log'[n]? = some x ∧ log'[m]? = some y := by
  obtain ⟨n, hn, -⟩ := latest_place hx
  obtain ⟨m, hm, hafter⟩ := latest_place hy
  have hn' : log'[n]? = some x := Feed.held_of_prefix hlog hn
  refine ⟨n, m, ?_, hn', hm⟩
  by_contra hlt
  have hfalse := hafter n x (by omega) hn'
  rw [(latest_mem hx).2] at hfalse
  cases hfalse

end PhysicalAiRuntime.Latest
