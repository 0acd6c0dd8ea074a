import Mathlib.Data.List.Nodup
import Mathlib.Data.List.Basic
import PhysicalAiRuntime.Foundations.PyError

/-! Insertion-ordered dictionaries with the semantics of Python's `dict`: assigning to a present
key keeps its place, assigning to a new key appends it, and a dictionary comprehension over pairs
lets the last pair of a key win. Keys are pairwise different by construction. -/
namespace PhysicalAiRuntime
set_option autoImplicit false
set_option maxHeartbeats 250000

structure Dict (κ ν : Type) where
  entries : List (κ × ν)
  nodup : (entries.map Prod.fst).Nodup

namespace Dict
variable {κ ν : Type}

def empty : Dict κ ν := ⟨[], by simp⟩

instance : Inhabited (Dict κ ν) := ⟨empty⟩

def keys (d : Dict κ ν) : List κ := d.entries.map Prod.fst

def isEmpty (d : Dict κ ν) : Bool := d.entries.isEmpty

theorem isEmpty_iff (d : Dict κ ν) : d.isEmpty = true ↔ d.entries = [] := List.isEmpty_iff

@[ext] theorem ext {d e : Dict κ ν} (h : d.entries = e.entries) : d = e := by
  cases d
  cases e
  cases h
  rfl

theorem forall₂_map_fst {μ : Type} {R : κ × ν → κ × μ → Prop} {es : List (κ × ν)}
    {ps : List (κ × μ)} (h : List.Forall₂ (fun e p => p.1 = e.1 ∧ R e p) es ps) :
    ps.map Prod.fst = es.map Prod.fst := by
  induction h with
  | nil => rfl
  | cons hr _ ih => rw [List.map_cons, List.map_cons, ih, hr.1]

variable [DecidableEq κ]

instance [DecidableEq ν] : DecidableEq (Dict κ ν) := fun d e =>
  decidable_of_iff (d.entries = e.entries) ⟨ext, fun h => by rw [h]⟩

def get? (d : Dict κ ν) (k : κ) : Option ν := d.entries.lookup k

theorem lookup_cons_ite (e : κ × ν) (es : List (κ × ν)) (x : κ) :
    (e :: es).lookup x = if x = e.1 then some e.2 else es.lookup x := by
  obtain ⟨k, v⟩ := e
  rw [List.lookup_cons]
  by_cases h : x = k
  · simp [h]
  · simp [h, beq_eq_false_iff_ne.mpr h]

/-! ## Assignment -/

def setEntries (k : κ) (v : ν) : List (κ × ν) → List (κ × ν)
  | [] => [(k, v)]
  | (k', v') :: rest => if k' = k then (k, v) :: rest else (k', v') :: setEntries k v rest

theorem mem_keys_setEntries (k : κ) (v : ν) (es : List (κ × ν)) (x : κ) :
    x ∈ (setEntries k v es).map Prod.fst ↔ x = k ∨ x ∈ es.map Prod.fst := by
  induction es with
  | nil => simp [setEntries]
  | cons e es ih =>
    obtain ⟨k', v'⟩ := e
    by_cases h : k' = k
    · subst h
      simp [setEntries]
    · simp only [setEntries, if_neg h, List.map_cons, List.mem_cons, ih]
      tauto

theorem nodup_setEntries (k : κ) (v : ν) (es : List (κ × ν)) (hn : (es.map Prod.fst).Nodup) :
    ((setEntries k v es).map Prod.fst).Nodup := by
  induction es with
  | nil => simp [setEntries]
  | cons e es ih =>
    obtain ⟨k', v'⟩ := e
    rw [List.map_cons, List.nodup_cons] at hn
    by_cases h : k' = k
    · subst h
      simpa [setEntries] using hn
    · simp only [setEntries, if_neg h, List.map_cons, List.nodup_cons, mem_keys_setEntries]
      exact ⟨fun hm => hm.elim h hn.1, ih hn.2⟩

theorem lookup_setEntries (k : κ) (v : ν) (es : List (κ × ν)) (x : κ) :
    (setEntries k v es).lookup x = if x = k then some v else es.lookup x := by
  induction es with
  | nil => rw [setEntries, lookup_cons_ite]
  | cons e es ih =>
    obtain ⟨k', v'⟩ := e
    by_cases h : k' = k
    · subst h
      rw [setEntries, if_pos rfl, lookup_cons_ite, lookup_cons_ite]
      by_cases hx : x = k' <;> simp [hx]
    · rw [setEntries, if_neg h, lookup_cons_ite, lookup_cons_ite, ih]
      by_cases hx : x = k'
      · subst hx
        simp [h]
      · simp [hx]

def set (d : Dict κ ν) (k : κ) (v : ν) : Dict κ ν :=
  ⟨setEntries k v d.entries, nodup_setEntries k v d.entries d.nodup⟩

theorem mem_keys_set (d : Dict κ ν) (k : κ) (v : ν) (x : κ) :
    x ∈ (d.set k v).keys ↔ x = k ∨ x ∈ d.keys :=
  mem_keys_setEntries k v d.entries x

theorem get?_set (d : Dict κ ν) (k : κ) (v : ν) (x : κ) :
    (d.set k v).get? x = if x = k then some v else d.get? x :=
  lookup_setEntries k v d.entries x

@[simp] theorem get?_set_self (d : Dict κ ν) (k : κ) (v : ν) : (d.set k v).get? k = some v := by
  rw [get?_set, if_pos rfl]

@[simp] theorem get?_empty (k : κ) : (empty : Dict κ ν).get? k = none := rfl

theorem setEntries_of_not_mem {k : κ} (v : ν) {es : List (κ × ν)} (h : k ∉ es.map Prod.fst) :
    setEntries k v es = es ++ [(k, v)] := by
  induction es with
  | nil => rfl
  | cons e es ih =>
    obtain ⟨k', v'⟩ := e
    rw [List.map_cons, List.mem_cons, not_or] at h
    rw [setEntries, if_neg (Ne.symm h.1), ih h.2, List.cons_append]

/-- A new key goes to the end. -/
theorem entries_set {d : Dict κ ν} {k : κ} (h : k ∉ d.keys) (v : ν) :
    (d.set k v).entries = d.entries ++ [(k, v)] := setEntries_of_not_mem v h

/-- `if k not in d: d[k] = v`. -/
def setIfAbsent (d : Dict κ ν) (k : κ) (v : ν) : Dict κ ν :=
  if (d.get? k).isSome then d else d.set k v

theorem get?_setIfAbsent (d : Dict κ ν) (k : κ) (v : ν) (x : κ) :
    (d.setIfAbsent k v).get? x = (d.get? x).or (if x = k then some v else none) := by
  unfold setIfAbsent
  by_cases hk : (d.get? k).isSome
  · rw [if_pos hk]
    by_cases hx : x = k
    · subst hx
      obtain ⟨w, hw⟩ := Option.isSome_iff_exists.mp hk
      rw [hw, Option.some_or]
    · rw [if_neg hx, Option.or_none]
  · rw [if_neg hk, get?_set]
    by_cases hx : x = k
    · subst hx
      rw [if_pos rfl, if_pos rfl, Option.not_isSome_iff_eq_none.mp hk, Option.none_or]
    · rw [if_neg hx, if_neg hx, Option.or_none]

/-! ## Removal -/

def erase (d : Dict κ ν) (k : κ) : Dict κ ν :=
  ⟨d.entries.filter fun e => e.1 ≠ k,
    d.nodup.sublist (List.filter_sublist.map Prod.fst)⟩

theorem lookup_filter_ne (k : κ) (es : List (κ × ν)) (x : κ) :
    (es.filter fun e => e.1 ≠ k).lookup x = if x = k then none else es.lookup x := by
  induction es with
  | nil => simp
  | cons e es ih =>
    by_cases hk : e.1 = k
    · rw [List.filter_cons_of_neg (by simpa using hk), ih, lookup_cons_ite, hk]
      by_cases hx : x = k <;> simp [hx]
    · rw [List.filter_cons_of_pos (by simpa using hk), lookup_cons_ite, lookup_cons_ite, ih]
      by_cases hx : x = e.1
      · subst hx
        simp [hk]
      · simp [hx]

theorem get?_erase (d : Dict κ ν) (k x : κ) :
    (d.erase k).get? x = if x = k then none else d.get? x :=
  lookup_filter_ne k d.entries x

@[simp] theorem get?_erase_self (d : Dict κ ν) (k : κ) : (d.erase k).get? k = none := by
  rw [get?_erase, if_pos rfl]

@[simp] theorem erase_empty (k : κ) : (empty : Dict κ ν).erase k = empty := rfl

/-! ## Comprehensions -/

def ofPairs (pairs : List (κ × ν)) : Dict κ ν := pairs.foldl (fun d e => d.set e.1 e.2) empty

/-- Pairs with different keys are the entries of their dictionary. -/
theorem entries_ofPairs {pairs : List (κ × ν)} (hn : (pairs.map Prod.fst).Nodup) :
    (ofPairs pairs).entries = pairs := by
  have hfold : ∀ (rest : List (κ × ν)) (d : Dict κ ν), (rest.map Prod.fst).Nodup →
      (∀ e ∈ rest, e.1 ∉ d.keys) →
      (rest.foldl (fun d e => d.set e.1 e.2) d).entries = d.entries ++ rest := by
    intro rest
    induction rest with
    | nil => simp
    | cons e rest ih =>
      intro d hn hd
      rw [List.map_cons, List.nodup_cons] at hn
      have hnew : (d.set e.1 e.2).entries = d.entries ++ [e] :=
        entries_set (hd e List.mem_cons_self) e.2
      rw [List.foldl_cons, ih (d.set e.1 e.2) hn.2 fun x hx => ?_, hnew, List.append_assoc]
      · rfl
      · unfold keys
        rw [hnew, List.map_append, List.mem_append, not_or]
        refine ⟨hd x (List.mem_cons_of_mem _ hx), fun hmem => hn.1 ?_⟩
        rw [List.map_singleton, List.mem_singleton] at hmem
        exact List.mem_map.mpr ⟨x, hx, hmem⟩
  have h := hfold pairs empty hn fun e _ hmem => by cases hmem
  exact h

theorem ofPairs_entries (d : Dict κ ν) : ofPairs d.entries = d := ext (entries_ofPairs d.nodup)

theorem get?_foldl_set (pairs : List (κ × ν)) (d : Dict κ ν) (x : κ) :
    (pairs.foldl (fun d e => d.set e.1 e.2) d).get? x =
      (pairs.reverse.lookup x).or (d.get? x) := by
  induction pairs generalizing d with
  | nil => simp
  | cons e pairs ih =>
    rw [List.foldl_cons, ih, get?_set, List.reverse_cons, List.lookup_append, lookup_cons_ite,
      List.lookup_nil]
    by_cases h : x = e.1 <;> cases pairs.reverse.lookup x <;> simp [h]

/-- The first pair of a key is the one that assignments to absent keys keep. -/
theorem get?_foldl_setIfAbsent (pairs : List (κ × ν)) (d : Dict κ ν) (x : κ) :
    (pairs.foldl (fun d e => d.setIfAbsent e.1 e.2) d).get? x = (d.get? x).or (pairs.lookup x) := by
  induction pairs generalizing d with
  | nil => simp
  | cons e pairs ih =>
    rw [List.foldl_cons, ih, get?_setIfAbsent, lookup_cons_ite, Option.or_assoc]
    by_cases h : x = e.1 <;> simp [h]

/-- The last pair of a key is the one a comprehension keeps. -/
theorem get?_ofPairs (pairs : List (κ × ν)) (x : κ) :
    (ofPairs pairs).get? x = pairs.reverse.lookup x := by
  rw [ofPairs, get?_foldl_set, get?_empty, Option.or_none]

theorem setEntries_map {μ : Type} (f : ν → μ) (k : κ) (v : ν) (es : List (κ × ν)) :
    setEntries k (f v) (es.map fun e => (e.1, f e.2)) =
      (setEntries k v es).map fun e => (e.1, f e.2) := by
  induction es with
  | nil => rfl
  | cons e es ih =>
    obtain ⟨k', v'⟩ := e
    by_cases h : k' = k
    · simp [setEntries, h]
    · simp [setEntries, h, ih]

/-- Converting the values commutes with reading the pairs. -/
theorem entries_ofPairs_map {μ : Type} (f : ν → μ) (pairs : List (κ × ν)) :
    (ofPairs (pairs.map fun e => (e.1, f e.2))).entries =
      (ofPairs pairs).entries.map fun e => (e.1, f e.2) := by
  have hfold : ∀ (rest : List (κ × ν)) (d : Dict κ ν) (d' : Dict κ μ),
      d'.entries = d.entries.map (fun e => (e.1, f e.2)) →
      ((rest.map fun e => (e.1, f e.2)).foldl (fun d e => d.set e.1 e.2) d').entries =
        (rest.foldl (fun d e => d.set e.1 e.2) d).entries.map fun e => (e.1, f e.2) := by
    intro rest
    induction rest with
    | nil => exact fun _ _ h => h
    | cons e rest ih =>
      intro d d' h
      refine ih (d.set e.1 e.2) (d'.set e.1 (f e.2)) ?_
      show setEntries e.1 (f e.2) d'.entries = _
      rw [h, setEntries_map]
      rfl
  exact hfold pairs empty empty rfl

theorem ofPairs_concat (pairs : List (κ × ν)) (e : κ × ν) :
    ofPairs (pairs ++ [e]) = (ofPairs pairs).set e.1 e.2 := by
  unfold ofPairs
  rw [List.foldl_append]
  rfl

/-- The place of an assigned key does not depend on its value. -/
theorem entries_set_split (d : Dict κ ν) (k : κ) :
    ∃ before after, ∀ v, (d.set k v).entries = before ++ (k, v) :: after := by
  show ∃ before after, ∀ v, setEntries k v d.entries = before ++ (k, v) :: after
  induction d.entries with
  | nil => exact ⟨[], [], fun v => rfl⟩
  | cons e es ih =>
    obtain ⟨k', v'⟩ := e
    obtain ⟨before, after, hsplit⟩ := ih
    by_cases h : k' = k
    · exact ⟨[], es, fun v => by simp [setEntries, h]⟩
    · exact ⟨(k', v') :: before, after, fun v => by simp [setEntries, h, hsplit]⟩

theorem get?_eq_some_iff (d : Dict κ ν) (k : κ) (v : ν) :
    d.get? k = some v ↔ (k, v) ∈ d.entries := by
  obtain ⟨es, hn⟩ := d
  show es.lookup k = some v ↔ (k, v) ∈ es
  induction es with
  | nil => simp
  | cons e es ih =>
    rw [List.map_cons, List.nodup_cons] at hn
    rw [lookup_cons_ite, List.mem_cons]
    by_cases h : k = e.1
    · subst h
      rw [if_pos rfl]
      have hnot : (e.1, v) ∉ es := fun hm => hn.1 (List.mem_map.mpr ⟨(e.1, v), hm, rfl⟩)
      constructor
      · intro hv
        exact Or.inl (by rw [← Option.some.inj hv])
      · intro hm
        rw [← hm.resolve_right hnot]
    · have hne : (k, v) ≠ e := fun he => h (by rw [← he])
      rw [if_neg h, ih hn.2]
      exact ⟨Or.inr, fun hm => hm.resolve_left hne⟩

theorem mem_of_mem_ofPairs {pairs : List (κ × ν)} {e : κ × ν} (h : e ∈ (ofPairs pairs).entries) :
    e ∈ pairs := by
  have hget := (get?_eq_some_iff _ e.1 e.2).mpr h
  rw [get?_ofPairs] at hget
  obtain ⟨before, after, hsplit, -⟩ := List.lookup_eq_some_iff.mp hget
  rw [← List.mem_reverse, hsplit]
  exact List.mem_append_right before List.mem_cons_self

def filter (d : Dict κ ν) (p : κ × ν → Bool) : Dict κ ν :=
  ⟨d.entries.filter p, d.nodup.sublist (List.filter_sublist.map Prod.fst)⟩

theorem get?_filter_eq_some (d : Dict κ ν) (p : κ × ν → Bool) (k : κ) (v : ν) :
    (d.filter p).get? k = some v ↔ d.get? k = some v ∧ p (k, v) = true := by
  rw [get?_eq_some_iff, get?_eq_some_iff]
  exact List.mem_filter

theorem filter_key (d : Dict κ ν) (k : κ) :
    d.entries.filter (fun e => e.1 = k) = (d.get? k).toList.map fun v => (k, v) := by
  obtain ⟨es, hn⟩ := d
  show es.filter _ = (es.lookup k).toList.map _
  induction es with
  | nil => simp
  | cons e es ih =>
    rw [List.map_cons, List.nodup_cons] at hn
    rw [lookup_cons_ite]
    by_cases hk : e.1 = k
    · have hnone : es.filter (fun e => e.1 = k) = [] := by
        rw [List.filter_eq_nil_iff]
        intro e' he' heq
        exact hn.1 (List.mem_map.mpr ⟨e', he', (of_decide_eq_true heq).trans hk.symm⟩)
      rw [List.filter_cons_of_pos (by simpa using hk), hnone, if_pos hk.symm, ← hk]
      simp
    · rw [List.filter_cons_of_neg (by simpa using hk), ih hn.2, if_neg (Ne.symm hk)]

/-- What is collected for one key comes from its entry alone. -/
theorem flatMap_eq_get? {α : Type} (d : Dict κ ν) (k : κ) (f : κ × ν → List α)
    (h : ∀ e ∈ d.entries, e.1 ≠ k → f e = []) :
    d.entries.flatMap f = ((d.get? k).map fun v => f (k, v)).getD [] := by
  have hkey : d.entries.flatMap f = (d.entries.filter fun e => e.1 = k).flatMap f := by
    generalize d.entries = es at h ⊢
    induction es with
    | nil => rfl
    | cons e es ih =>
      have hrest := ih fun x hx => h x (List.mem_cons_of_mem _ hx)
      by_cases hk : e.1 = k
      · simp [hk, hrest]
      · simp [hk, hrest, h e List.mem_cons_self hk]
  rw [hkey, filter_key]
  cases d.get? k <;> simp

theorem get?_isSome_iff (d : Dict κ ν) (k : κ) : (d.get? k).isSome ↔ k ∈ d.keys := by
  unfold keys
  rw [Option.isSome_iff_exists, List.mem_map]
  constructor
  · intro ⟨v, hv⟩
    exact ⟨(k, v), (get?_eq_some_iff d k v).mp hv, rfl⟩
  · intro ⟨e, he, hk⟩
    exact ⟨e.2, (get?_eq_some_iff d k e.2).mpr (hk ▸ he)⟩

theorem mem_keys_ofPairs (pairs : List (κ × ν)) (k : κ) :
    k ∈ (ofPairs pairs).keys ↔ ∃ p ∈ pairs, p.1 = k := by
  rw [← get?_isSome_iff, get?_ofPairs, List.lookup_isSome_iff]
  constructor
  · intro ⟨p, hp, hk⟩
    exact ⟨p, List.mem_reverse.mp hp, (eq_of_beq hk).symm⟩
  · intro ⟨p, hp, hk⟩
    exact ⟨p, List.mem_reverse.mpr hp, beq_iff_eq.mpr hk.symm⟩

/-! ## Conversions -/

variable {μ : Type}

/-- A loop over the items that assigns the converted value of each key. -/
def mapM (d : Dict κ ν) (f : κ → ν → Except PyError μ) : Except PyError (Dict κ μ) := do
  let pairs ← d.entries.mapM fun e => do return (e.1, ← f e.1 e.2)
  return ofPairs pairs

/-- The loop keeps the keys in their places and converts each value. -/
theorem mapM_entries {d : Dict κ ν} {f : κ → ν → Except PyError μ} {r : Dict κ μ}
    (h : d.mapM f = .ok r) :
    List.Forall₂ (fun e p => p.1 = e.1 ∧ f e.1 e.2 = .ok p.2) d.entries r.entries := by
  obtain ⟨pairs, hpairs, h⟩ := except_bind_ok h
  cases h
  have hall : List.Forall₂ (fun e p => p.1 = e.1 ∧ f e.1 e.2 = .ok p.2) d.entries pairs := by
    refine (except_mapM_forall₂ hpairs).imp fun e p hp => ?_
    obtain ⟨u, hu, hp⟩ := except_bind_ok hp
    cases hp
    exact ⟨rfl, hu⟩
  have hkeys : pairs.map Prod.fst = d.entries.map Prod.fst := forall₂_map_fst hall
  rw [entries_ofPairs (hkeys ▸ d.nodup)]
  exact hall

theorem mapM_keys {d : Dict κ ν} {f : κ → ν → Except PyError μ} {r : Dict κ μ}
    (h : d.mapM f = .ok r) : r.keys = d.keys := forall₂_map_fst (mapM_entries h)

theorem mapM_get? {d : Dict κ ν} {f : κ → ν → Except PyError μ} {r : Dict κ μ}
    (h : d.mapM f = .ok r) {k : κ} {w : μ} (hw : r.get? k = some w) :
    ∃ v, d.get? k = some v ∧ f k v = .ok w := by
  obtain ⟨e, he, hkey, hf⟩ := forall₂_mem_right (mapM_entries h) ((get?_eq_some_iff r k w).mp hw)
  cases hkey
  exact ⟨e.2, (get?_eq_some_iff d _ _).mpr he, hf⟩

theorem mapM_converts {d : Dict κ ν} {f : κ → ν → Except PyError μ} {r : Dict κ μ}
    (h : d.mapM f = .ok r) {k : κ} {v : ν} (hv : d.get? k = some v) :
    ∃ w, f k v = .ok w ∧ r.get? k = some w := by
  obtain ⟨p, hp, hkey, hf⟩ :=
    forall₂_mem_right (mapM_entries h).flip ((get?_eq_some_iff d k v).mp hv)
  cases hkey
  exact ⟨p.2, hf, (get?_eq_some_iff r _ _).mpr hp⟩

end Dict
end PhysicalAiRuntime
