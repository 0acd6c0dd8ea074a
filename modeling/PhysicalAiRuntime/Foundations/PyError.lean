import Mathlib.Data.List.Forall2

/-! Exceptions of the runtime: the class that `except` clauses tell apart, and the text. -/
namespace PhysicalAiRuntime
set_option autoImplicit false

inductive ErrorKind where
  | runtimeError
  | valueError
  | keyError
  | indexError
  | typeError
  | attributeError
  | notImplementedError
  | overflowError
  | fileNotFoundError
  | timeoutError
  | executionManagerUnavailableError
  | controllerClientError
  | trajectoryCanceledError
  /-- Whatever else the transport raises. -/
  | transportError
  deriving DecidableEq, Repr

structure PyError where
  kind : ErrorKind
  message : String
  deriving DecidableEq, Repr

/-- `repr` of a string without quotes and escapes, as resource and command names are. -/
def pyRepr (s : String) : String := "'" ++ s ++ "'"

/-- The value or the exception of a call, with the state it leaves behind. -/
abbrev Outcome (σ α : Type) : Type := σ × Except PyError α

instance decidableEqExcept {ε α : Type} [DecidableEq ε] [DecidableEq α] :
    DecidableEq (Except ε α)
  | .ok a, .ok b => decidable_of_iff (a = b) (by simp)
  | .error a, .error b => decidable_of_iff (a = b) (by simp)
  | .ok _, .error _ => isFalse (by simp)
  | .error _, .ok _ => isFalse (by simp)

/-- A call sequence that returns has returned from its first call. -/
theorem except_bind_ok {α β : Type} {x : Except PyError α} {f : α → Except PyError β} {b : β}
    (h : (x >>= f) = .ok b) : ∃ a, x = .ok a ∧ f a = .ok b := by
  cases x with
  | error e => cases h
  | ok a => exact ⟨a, rfl, h⟩

/-- `if not p: raise e`. -/
def require (p : Prop) [Decidable p] (e : PyError) : Except PyError Unit :=
  if p then .ok () else .error e

theorem require_ok {p : Prop} [Decidable p] {e : PyError} {u : Unit}
    (h : require p e = .ok u) : p := by
  unfold require at h
  by_cases hp : p
  · exact hp
  · rw [if_neg hp] at h
    cases h

/-- A loop that converts every item converts the whole list, item by item. -/
theorem except_mapM_ok {α β : Type} {f : α → Except PyError β} {R : α → β → Prop} {xs : List α}
    (h : ∀ x ∈ xs, ∃ y, f x = .ok y ∧ R x y) :
    ∃ ys, xs.mapM f = .ok ys ∧ List.Forall₂ R xs ys := by
  induction xs with
  | nil => exact ⟨[], rfl, List.Forall₂.nil⟩
  | cons x xs ih =>
    obtain ⟨y, hy, hr⟩ := h x List.mem_cons_self
    obtain ⟨ys, hys, hrs⟩ := ih fun z hz => h z (List.mem_cons_of_mem x hz)
    refine ⟨y :: ys, ?_, List.Forall₂.cons hr hrs⟩
    rw [List.mapM_cons, hy, hys]
    rfl

theorem except_mapM_map {α β : Type} {f : α → Except PyError β} {g : α → β} {xs : List α}
    (h : ∀ x ∈ xs, f x = .ok (g x)) : xs.mapM f = .ok (xs.map g) := by
  induction xs with
  | nil => rfl
  | cons x xs ih =>
    rw [List.mapM_cons, h x List.mem_cons_self, ih fun z hz => h z (List.mem_cons_of_mem x hz)]
    rfl

theorem except_mapM_forall₂ {α β : Type} {f : α → Except PyError β} {xs : List α} {ys : List β}
    (h : xs.mapM f = .ok ys) : List.Forall₂ (fun x y => f x = .ok y) xs ys := by
  induction xs generalizing ys with
  | nil =>
    cases h
    exact List.Forall₂.nil
  | cons x xs ih =>
    rw [List.mapM_cons] at h
    obtain ⟨y, hy, h⟩ := except_bind_ok h
    obtain ⟨rest, hrest, h⟩ := except_bind_ok h
    cases h
    exact List.Forall₂.cons hy (ih hrest)

/-- A loop of checks that ends has passed each of them. -/
theorem except_forM_ok {α : Type} {f : α → Except PyError Unit} {xs : List α} {u : Unit}
    (h : xs.forM f = .ok u) {x : α} (hx : x ∈ xs) : f x = .ok () := by
  induction xs with
  | nil => cases hx
  | cons y xs ih =>
    obtain ⟨v, hy, h⟩ := except_bind_ok h
    cases hx with
    | head => exact hy
    | tail _ hx => exact ih h hx

/-- Every converted item comes from one of the items. -/
theorem forall₂_mem_right {α β : Type} {R : α → β → Prop} {xs : List α} {ys : List β}
    (h : List.Forall₂ R xs ys) {y : β} (hy : y ∈ ys) : ∃ x ∈ xs, R x y := by
  induction h with
  | nil => cases hy
  | cons hr _ ih =>
    rcases List.mem_cons.mp hy with rfl | hy
    · exact ⟨_, List.mem_cons_self, hr⟩
    · obtain ⟨x, hx, hrx⟩ := ih hy
      exact ⟨x, List.mem_cons_of_mem _ hx, hrx⟩

theorem forall₂_ne_nil {α β : Type} {R : α → β → Prop} {xs : List α} {ys : List β}
    (h : List.Forall₂ R xs ys) : xs ≠ [] ↔ ys ≠ [] := by
  cases h <;> simp

theorem forall₂_getLast? {α β : Type} {R : α → β → Prop} {xs : List α} {ys : List β}
    (h : List.Forall₂ R xs ys) {y : β} (hy : ys.getLast? = some y) :
    ∃ x, xs.getLast? = some x ∧ R x y := by
  have hrev := List.forall₂_reverse_iff.mpr h
  rw [List.getLast?_eq_head?_reverse] at hy ⊢
  generalize xs.reverse = us at hrev ⊢
  generalize ys.reverse = vs at hrev hy
  cases hrev with
  | nil => cases hy
  | cons hr _ =>
    cases hy
    exact ⟨_, rfl, hr⟩

end PhysicalAiRuntime
