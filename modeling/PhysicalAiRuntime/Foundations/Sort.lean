import Mathlib.Data.List.Sort

/-! Sorting by a key with the semantics of Python's `list.sort(key=...)`: the result is ordered by
the key, and items with equal keys keep their order. -/
namespace PhysicalAiRuntime
set_option autoImplicit false
set_option maxHeartbeats 250000

variable {α κ : Type} [LinearOrder κ] (key : α → κ)

def sortBy (xs : List α) : List α := xs.insertionSort fun x y => key x ≤ key y

theorem sortBy_perm (xs : List α) : (sortBy key xs).Perm xs := List.perm_insertionSort _ xs

theorem mem_sortBy {xs : List α} {x : α} : x ∈ sortBy key xs ↔ x ∈ xs :=
  (sortBy_perm key xs).mem_iff

theorem sortBy_pairwise (xs : List α) : (sortBy key xs).Pairwise fun x y => key x ≤ key y := by
  have htotal : Std.Total fun x y : α => key x ≤ key y := ⟨fun x y => le_total (key x) (key y)⟩
  have htrans : IsTrans α fun x y => key x ≤ key y := ⟨fun _ _ _ => le_trans⟩
  exact List.pairwise_insertionSort _ xs

/-- The items of one key keep their order. -/
theorem sortBy_filter (xs : List α) (k : κ) :
    (sortBy key xs).filter (fun x => key x = k) = xs.filter fun x => key x = k := by
  induction xs with
  | nil => rfl
  | cons a xs ih =>
    have hsplit := List.insertionSort_cons_eq_take_drop (fun x y => key x ≤ key y) a xs
    have hpieces := List.takeWhile_append_dropWhile (p := fun b => decide ¬ key a ≤ key b)
      (l := sortBy key xs)
    change sortBy key (a :: xs) = _ at hsplit
    change _ = (sortBy key xs).takeWhile _ ++ a :: (sortBy key xs).dropWhile _ at hsplit
    rw [← hpieces, List.filter_append] at ih
    rw [hsplit, List.filter_append]
    by_cases hk : key a = k
    · -- nothing of the key is moved in front of the new item
      have hbefore : ((sortBy key xs).takeWhile fun b => decide ¬ key a ≤ key b).filter
          (fun x => key x = k) = [] := by
        rw [List.filter_eq_nil_iff]
        intro b hb hbk
        have hlt := List.all_eq_true.mp List.all_takeWhile b hb
        have heq : key b = k := of_decide_eq_true hbk
        exact of_decide_eq_true hlt (by rw [hk, heq])
      rw [hbefore, List.nil_append] at ih ⊢
      rw [List.filter_cons_of_pos (by simpa using hk), List.filter_cons_of_pos (by simpa using hk),
        ih]
    · rw [List.filter_cons_of_neg (by simpa using hk), List.filter_cons_of_neg (by simpa using hk),
        ih]

/-- Where different items have different keys, their first order does not matter. -/
theorem sortBy_eq_of_perm {xs ys : List α} (h : xs.Perm ys)
    (hinj : ∀ x ∈ xs, ∀ y ∈ xs, key x = key y → x = y) : sortBy key xs = sortBy key ys := by
  have hperm : (sortBy key xs).Perm (sortBy key ys) :=
    ((sortBy_perm key xs).trans h).trans (sortBy_perm key ys).symm
  refine hperm.eq_of_pairwise (fun x y hx hy hxy hyx => ?_) (sortBy_pairwise key xs)
    (sortBy_pairwise key ys)
  have hy' : y ∈ xs := h.mem_iff.mpr ((mem_sortBy key).mp hy)
  exact hinj x ((mem_sortBy key).mp hx) y hy' (le_antisymm hxy hyx)

/-- What the items carry besides their key does not matter for their order. -/
theorem sortBy_map {β : Type} (f : α → β) {key' : β → κ} (h : ∀ x, key' (f x) = key x)
    (xs : List α) : sortBy key' (xs.map f) = (sortBy key xs).map f := by
  unfold sortBy
  rw [List.map_insertionSort _ (fun x y => key' x ≤ key' y)]
  intro x _ y _
  rw [h, h]

end PhysicalAiRuntime
