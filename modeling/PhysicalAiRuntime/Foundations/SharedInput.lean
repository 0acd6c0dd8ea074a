import Mathlib.Data.List.Nodup

/-! An input that several readers share. An entry goes to one of the readers blocked at that moment,
whichever is picked, and is queued if there is none; a reader that asks takes the head of the queue,
or blocks. -/
namespace PhysicalAiRuntime
set_option autoImplicit false
set_option maxHeartbeats 250000

variable {ρ α : Type}

structure SharedInput (ρ α : Type) where
  queue : List α
  /-- The readers that wait for an entry. -/
  blocked : List ρ
  /-- Who was given what, in order. -/
  delivered : List (ρ × α)
  idle : queue = [] ∨ blocked = []
  nodup : blocked.Nodup

namespace SharedInput

def new : SharedInput ρ α := ⟨[], [], [], Or.inl rfl, List.nodup_nil⟩

/-- The reader that `k` picks. -/
def receiver (c : SharedInput ρ α) (k : ℕ) : Option ρ := c.blocked[k % c.blocked.length]?

theorem receiver_none {c : SharedInput ρ α} {k : ℕ} (h : c.receiver k = none) :
    c.blocked = [] := by
  have hle := List.getElem?_eq_none_iff.mp h
  by_contra hne
  exact absurd (Nat.mod_lt k (List.length_pos_of_ne_nil hne)) (Nat.not_lt_of_le hle)

theorem receiver_mem {c : SharedInput ρ α} {k : ℕ} {r : ρ} (h : c.receiver k = some r) :
    r ∈ c.blocked := List.mem_of_getElem? h

/-- Any reader that waits can be picked. -/
theorem exists_receiver {c : SharedInput ρ α} {r : ρ} (h : r ∈ c.blocked) :
    ∃ k, c.receiver k = some r := by
  obtain ⟨k, hk, hr⟩ := List.mem_iff_getElem.mp h
  refine ⟨k, ?_⟩
  unfold receiver
  rw [Nat.mod_eq_of_lt hk, List.getElem?_eq_getElem hk, hr]

theorem queue_of_receiver {c : SharedInput ρ α} {k : ℕ} {r : ρ} (h : c.receiver k = some r) :
    c.queue = [] :=
  c.idle.resolve_right (List.ne_nil_of_mem (receiver_mem h))

variable [DecidableEq ρ]

/-- A reader gets an entry, and is no longer blocked. -/
def give (c : SharedInput ρ α) (r : ρ) (a : α) : SharedInput ρ α where
  queue := c.queue
  blocked := c.blocked.erase r
  delivered := c.delivered ++ [(r, a)]
  idle := c.idle.imp_right fun h => by rw [h]; rfl
  nodup := c.nodup.erase r

/-- The reader goes away. -/
def leave (c : SharedInput ρ α) (r : ρ) : SharedInput ρ α where
  queue := c.queue
  blocked := c.blocked.erase r
  delivered := c.delivered
  idle := c.idle.imp_right fun h => by rw [h]; rfl
  nodup := c.nodup.erase r

/-- An entry arrives. -/
def enter (c : SharedInput ρ α) (a : α) (k : ℕ) : SharedInput ρ α :=
  match h : c.receiver k with
  | some r => c.give r a
  | none => { c with queue := c.queue ++ [a], idle := Or.inr (receiver_none h) }

/-- A reader asks for an entry. -/
def ask (c : SharedInput ρ α) (r : ρ) : SharedInput ρ α × Option α :=
  match h : c.queue with
  | a :: rest =>
    ({ c with
        queue := rest
        delivered := c.delivered ++ [(r, a)]
        idle := c.idle.imp (fun hnil => absurd (h.symm.trans hnil) (List.cons_ne_nil a rest)) id },
      some a)
  | [] =>
    ({ c with blocked := c.blocked.insert r, idle := Or.inl h, nodup := c.nodup.insert }, none)

variable {c : SharedInput ρ α} {r : ρ} {k : ℕ}

theorem enter_of_receiver (h : c.receiver k = some r) (a : α) : c.enter a k = c.give r a := by
  unfold enter
  split
  · rename_i r' h'
    rw [Option.some.inj (h.symm.trans h')]
  · rename_i h'
    rw [h] at h'
    cases h'

theorem enter_of_none (h : c.receiver k = none) (a : α) :
    (c.enter a k).queue = c.queue ++ [a] ∧ (c.enter a k).blocked = c.blocked ∧
      (c.enter a k).delivered = c.delivered := by
  unfold enter
  split
  · rename_i h'
    rw [h] at h'
    cases h'
  · exact ⟨rfl, rfl, rfl⟩

theorem ask_of_cons {a : α} {rest : List α} (h : c.queue = a :: rest) (r : ρ) :
    (c.ask r).2 = some a ∧ (c.ask r).1.queue = rest ∧ (c.ask r).1.blocked = c.blocked ∧
      (c.ask r).1.delivered = c.delivered ++ [(r, a)] := by
  unfold ask
  split
  · rename_i a' rest' h'
    rw [h] at h'
    injection h' with ha hrest
    rw [ha, hrest]
    exact ⟨rfl, rfl, rfl, rfl⟩
  · rename_i h'
    rw [h] at h'
    cases h'

theorem ask_of_nil (h : c.queue = []) (r : ρ) :
    (c.ask r).2 = none ∧ (c.ask r).1.queue = [] ∧ (c.ask r).1.blocked = c.blocked.insert r ∧
      (c.ask r).1.delivered = c.delivered := by
  unfold ask
  split
  · rename_i h'
    rw [h] at h'
    cases h'
  · exact ⟨rfl, h, rfl, rfl⟩

theorem mem_give_blocked {s : ρ} (a : α) : s ∈ (c.give r a).blocked ↔ s ≠ r ∧ s ∈ c.blocked :=
  c.nodup.mem_erase_iff

theorem mem_leave_blocked {s : ρ} : s ∈ (c.leave r).blocked ↔ s ≠ r ∧ s ∈ c.blocked :=
  c.nodup.mem_erase_iff

/-! ## Nothing is lost or duplicated -/

/-- The entries delivered, and after them those still queued. -/
def entries (c : SharedInput ρ α) : List α := c.delivered.map Prod.snd ++ c.queue

theorem enter_entries (c : SharedInput ρ α) (a : α) (k : ℕ) :
    (c.enter a k).entries = c.entries ++ [a] := by
  unfold entries
  cases h : c.receiver k with
  | none =>
    obtain ⟨hqueue, -, hdelivered⟩ := enter_of_none h a
    rw [hqueue, hdelivered, List.append_assoc]
  | some r =>
    have hnil := queue_of_receiver h
    rw [enter_of_receiver h]
    change (c.delivered ++ [(r, a)]).map Prod.snd ++ c.queue = _
    rw [hnil, List.append_nil, List.append_nil, List.map_append]
    rfl

theorem ask_entries (c : SharedInput ρ α) (r : ρ) : (c.ask r).1.entries = c.entries := by
  unfold entries
  cases h : c.queue with
  | nil =>
    obtain ⟨-, hqueue, -, hdelivered⟩ := ask_of_nil h r
    rw [hqueue, hdelivered]
  | cons a rest =>
    obtain ⟨-, hqueue, -, hdelivered⟩ := ask_of_cons h r
    rw [hqueue, hdelivered, List.map_append, List.append_assoc]
    rfl

end SharedInput
end PhysicalAiRuntime
