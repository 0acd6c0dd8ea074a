import Mathlib.Data.List.Basic

/-! Bounded queues with the semantics of `collections.deque(maxlen=c)`: an append to a full queue
discards the oldest item. -/
namespace PhysicalAiRuntime
set_option autoImplicit false

structure Deque (c : ℕ) (α : Type) where
  items : List α
  length_le : items.length ≤ c

namespace Deque
variable {c : ℕ} {α : Type}

def empty : Deque c α := ⟨[], Nat.zero_le c⟩

def append (q : Deque c α) (a : α) : Deque c α where
  items := (q.items ++ [a]).drop (q.items.length + 1 - c)
  length_le := by
    rw [List.length_drop, List.length_append, List.length_singleton]
    omega

/-- A bounded queue keeps the last `c` of the items it was ever given. -/
theorem append_items {q : Deque c α} {given : List α} (h : q.items = given.drop (given.length - c))
    (a : α) : (q.append a).items = (given ++ [a]).drop ((given ++ [a]).length - c) := by
  have hlen : q.items.length = given.length - (given.length - c) := by
    rw [h, List.length_drop]
  have hpre : q.items ++ [a] = (given ++ [a]).drop (given.length - c) := by
    rw [h, List.drop_append_of_le_length (Nat.sub_le _ _)]
  change (q.items ++ [a]).drop (q.items.length + 1 - c) = _
  rw [hpre, List.drop_drop, List.length_append, List.length_singleton]
  congr 1
  omega

end Deque
end PhysicalAiRuntime
