import Mathlib.Data.List.Basic

/-! Code that reads a buffer at computed indices. `Reads n x a` states at once that `x` returns `a`,
that it reads nothing outside the buffer, and that every index it reads is below `n`. -/
namespace PhysicalAiRuntime.Buffer
set_option autoImplicit false
set_option maxHeartbeats 250000

variable {α β : Type}

/-- Keeps the indices read so far; a read outside the buffer has no result. -/
abbrev Reading : Type → Type := StateT (List ℕ) Option

def load (data : List β) (i : ℕ) : Reading β :=
  fun indices => data[i]?.map fun b => (b, indices ++ [i])

def Reads (n : ℕ) (x : Reading α) (a : α) : Prop :=
  ∀ before, ∃ indices, x before = some (a, before ++ indices) ∧ ∀ i ∈ indices, i < n

variable {n : ℕ} {x : Reading α} {a : α}

theorem reads_pure (a : α) : Reads n (pure a) a :=
  fun before => ⟨[], by rw [List.append_nil]; rfl, fun i hi => absurd hi List.not_mem_nil⟩

theorem reads_load {data : List β} {i : ℕ} {b : β} (hb : data[i]? = some b) (hi : i < n) :
    Reads n (load data i) b := by
  intro before
  refine ⟨[i], ?_, fun j hj => ?_⟩
  · unfold load
    rw [hb]
    rfl
  · rw [List.mem_singleton.mp hj]
    exact hi

theorem Reads.bind {f : α → Reading β} {b : β} (hx : Reads n x a) (hf : Reads n (f a) b) :
    Reads n (x >>= f) b := by
  intro before
  obtain ⟨first, hfirst, hbelow⟩ := hx before
  obtain ⟨second, hsecond, hbelow'⟩ := hf (before ++ first)
  refine ⟨first ++ second, ?_, fun i hi => ?_⟩
  · change (x before).bind (fun p => f p.1 p.2) = _
    rw [hfirst, Option.bind_some, hsecond, List.append_assoc]
  · exact (List.mem_append.mp hi).elim (hbelow i) (hbelow' i)

theorem Reads.mono {m : ℕ} (hx : Reads n x a) (hnm : n ≤ m) : Reads m x a := by
  intro before
  obtain ⟨indices, hresult, hbelow⟩ := hx before
  exact ⟨indices, hresult, fun i hi => Nat.lt_of_lt_of_le (hbelow i hi) hnm⟩

/-- A loop that loads one index after the other loads a segment. -/
theorem reads_segment {data : List β} (k : ℕ) (hk : k ≤ data.length) (hn : k ≤ n) :
    Reads n ((List.range k).mapM (load data)) (data.take k) := by
  induction k with
  | zero => exact reads_pure []
  | succ k ih =>
    have hlt : k < data.length := hk
    rw [List.range_succ, List.mapM_append, List.take_add_one, List.getElem?_eq_getElem hlt]
    refine (ih (Nat.le_of_lt hk) (Nat.le_of_lt hn)).bind ?_
    refine Reads.bind (a := [data[k]]) ?_ (reads_pure _)
    rw [List.mapM_cons, List.mapM_nil]
    exact (reads_load (List.getElem?_eq_getElem hlt) hn).bind ((reads_pure []).bind (reads_pure _))

end PhysicalAiRuntime.Buffer
