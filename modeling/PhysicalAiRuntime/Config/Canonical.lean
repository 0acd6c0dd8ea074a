import Mathlib.Order.WithBot
import Mathlib.Data.Finset.Basic
import Mathlib.Data.Finset.Dedup
import Mathlib.Data.String.Basic
import PhysicalAiRuntime.Config.Accepted
import PhysicalAiRuntime.Foundations.JsonText
import PhysicalAiRuntime.Foundations.Sort

/-! `json.dumps(value, sort_keys=True, separators=(",", ":"), ensure_ascii=True)`: the canonical
text of a value, which does not depend on the order of the keys in its mappings. -/
namespace PhysicalAiRuntime.Config
set_option autoImplicit false
set_option maxHeartbeats 250000

/-- What the encoder asks of the interpreter. -/
structure JsonEncoder where
  floatRepr : PyFloat → String
  /-- The text of a key that is not a string; `none` where the encoder raises. -/
  otherKey : Key → Option String
  /-- The text of a tuple or a date; `none` where the encoder raises. -/
  otherValue : Object → Option String
  /-- What a key compares by where it is a number. -/
  number : Key → Option (WithBot (WithTop ℚ))
  /-- Equal numbers are one key. -/
  number_injective : ∀ k l q, number k = some q → number l = some q → k = l

def Key.isString : Key → Bool
  | .str _ => true
  | _ => false

namespace JsonEncoder
variable (encoder : JsonEncoder)

/-- `sorted(items)`, which raises unless the keys are all strings or all numbers. -/
def sortItems {α : Type} (items : List (Key × α)) : Option (List (Key × α)) :=
  if items.length ≤ 1 then some items
  else if items.all fun e => e.1.isString then some (sortBy (fun e => e.1.text) items)
  else if items.all fun e => (encoder.number e.1).isSome then
    some (sortBy (fun e => (encoder.number e.1).getD ⊥) items)
  else none

def keyText : Key → Option String
  | .str s => some s
  | k => encoder.otherKey k

def member (e : Key × Option String) : Option String := do
  let key ← encoder.keyText e.1
  let text ← e.2
  return quote key ++ ":" ++ text

/-- The text of a mapping, from the texts of its values. -/
def object (items : List (Key × Option String)) : Option String := do
  let sorted ← encoder.sortItems items
  let members ← sorted.mapM encoder.member
  return "\x7b" ++ ",".intercalate members ++ "\x7d"

def array (texts : List (Option String)) : Option String := do
  let items ← texts.mapM id
  return "[" ++ ",".intercalate items ++ "]"

mutual
/-- `none` where the encoder raises. -/
def dumps : Value → Option String
  | .none => some "null"
  | .bool b => some (if b then "true" else "false")
  | .int n => some (toString n)
  | .float x => some (encoder.floatRepr x)
  | .str s => some (quote s)
  | .list items => array (dumpsList items)
  | .dict items => encoder.object (Dict.ofPairs (dumpsItems items)).entries
  | .other object => encoder.otherValue object

def dumpsList : List Value → List (Option String)
  | [] => []
  | v :: rest => dumps v :: dumpsList rest

def dumpsItems : List (Key × Value) → List (Key × Option String)
  | [] => []
  | (k, v) :: rest => (k, dumps v) :: dumpsItems rest
end

theorem dumpsList_eq (items : List Value) : encoder.dumpsList items = items.map encoder.dumps := by
  induction items with
  | nil => rfl
  | cons v rest ih => rw [dumpsList, ih, List.map_cons]

theorem dumpsItems_eq (items : List (Key × Value)) :
    encoder.dumpsItems items = items.map fun e => (e.1, encoder.dumps e.2) := by
  induction items with
  | nil => rfl
  | cons e rest ih =>
    obtain ⟨k, v⟩ := e
    rw [dumpsItems, ih, List.map_cons]

theorem dumps_dict (items : List (Key × Value)) :
    encoder.dumps (.dict items) =
      encoder.object ((Dict.ofPairs items).entries.map fun e => (e.1, encoder.dumps e.2)) := by
  rw [dumps, dumpsItems_eq, Dict.entries_ofPairs_map]

end JsonEncoder

/-! ## Induction on values -/

theorem Value.sizeOf_list_item {items : List Value} {v : Value} (h : v ∈ items) :
    sizeOf v < sizeOf (Value.list items) := by
  have hlt := List.sizeOf_lt_of_mem h
  simp only [Value.list.sizeOf_spec]
  omega

theorem Value.sizeOf_dict_item {items : List (Key × Value)} {e : Key × Value} (h : e ∈ items) :
    sizeOf e.2 < sizeOf (Value.dict items) := by
  have hlt := List.sizeOf_lt_of_mem h
  obtain ⟨k, v⟩ := e
  simp only [Value.dict.sizeOf_spec]
  simp only [Prod.mk.sizeOf_spec] at hlt
  show sizeOf v < _
  omega

/-- A property of the items of a value, and of every value without items, holds of all values. -/
theorem Value.induction {P : Value → Prop} (hlist : ∀ items, (∀ v ∈ items, P v) → P (.list items))
    (hdict : ∀ items : List (Key × Value), (∀ e ∈ items, P e.2) → P (.dict items))
    (hleaf : ∀ v, (∀ items, v ≠ .list items) → (∀ items, v ≠ .dict items) → P v) (v : Value) :
    P v := by
  generalize hsize : sizeOf v = size
  induction size using Nat.strong_induction_on generalizing v with
  | _ size ih =>
    subst hsize
    cases v with
    | list items => exact hlist items fun w hw => ih _ (sizeOf_list_item hw) w rfl
    | dict items => exact hdict items fun e he => ih _ (sizeOf_dict_item he) e.2 rfl
    | _ =>
      refine hleaf _ ?_ ?_
      · intro items heq
        cases heq
      · intro items heq
        cases heq

/-! ## The same content -/

/-- What stands at a place of a value, without what stands below it. -/
inductive Node where
  | none
  | bool (b : Bool)
  | int (n : ℤ)
  | float (x : PyFloat)
  | str (s : String)
  | list (length : ℕ)
  | dict (keys : Finset Key)
  | other (object : Object)

inductive Step where
  | key (k : Key)
  | index (i : ℕ)

namespace Value

def node : Value → Node
  | .none => .none
  | .bool b => .bool b
  | .int n => .int n
  | .float x => .float x
  | .str s => .str s
  | .list items => .list items.length
  | .dict items => .dict (Dict.ofPairs items).keys.toFinset
  | .other object => .other object

def child (value : Value) : Step → Value
  | .key k => value.lookup k
  | .index i => match value with
    | .list items => items[i]?.getD .none
    | _ => .none

/-- The same content, whatever the order of the keys. -/
def SameContent (v w : Value) : Prop :=
  ∀ path : List Step, (path.foldl child v).node = (path.foldl child w).node

namespace SameContent
variable {v w : Value}

theorem refl (v : Value) : v.SameContent v := fun _ => rfl

theorem symm (h : v.SameContent w) : w.SameContent v := fun path => (h path).symm

theorem node_eq (h : v.SameContent w) : v.node = w.node := h []

theorem child (h : v.SameContent w) (step : Step) : (v.child step).SameContent (w.child step) :=
  fun path => h (step :: path)

theorem lookup (h : v.SameContent w) (k : Key) : (v.lookup k).SameContent (w.lookup k) :=
  h.child (.key k)

theorem of_children (hnode : v.node = w.node)
    (hchild : ∀ step, (v.child step).SameContent (w.child step)) : v.SameContent w := by
  intro path
  cases path with
  | nil => exact hnode
  | cons step path => exact hchild step path

theorem dict {xs ys : List (Key × Value)}
    (hkeys : ∀ k, k ∈ (Dict.ofPairs xs).keys ↔ k ∈ (Dict.ofPairs ys).keys)
    (hlookup : ∀ k, ((Value.dict xs).lookup k).SameContent ((Value.dict ys).lookup k)) :
    (Value.dict xs).SameContent (.dict ys) := by
  refine of_children ?_ fun step => ?_
  · have hfinset : (Dict.ofPairs xs).keys.toFinset = (Dict.ofPairs ys).keys.toFinset := by
      ext k
      rw [List.mem_toFinset, List.mem_toFinset]
      exact hkeys k
    exact congrArg Node.dict hfinset
  · cases step with
    | key k => exact hlookup k
    | index i => exact refl _

theorem dict_right {xs : List (Key × Value)} (h : (Value.dict xs).SameContent w) :
    ∃ ys, w = .dict ys ∧ ∀ k, k ∈ (Dict.ofPairs xs).keys ↔ k ∈ (Dict.ofPairs ys).keys := by
  have hnode := h.node_eq
  cases w with
  | dict ys =>
    refine ⟨ys, rfl, fun k => ?_⟩
    rw [← List.mem_toFinset, ← List.mem_toFinset, Node.dict.inj hnode]
  | _ => cases hnode

theorem list_right {xs : List Value} (h : (Value.list xs).SameContent w) :
    ∃ ys, w = .list ys ∧ List.Forall₂ SameContent xs ys := by
  have hnode := h.node_eq
  cases w with
  | list ys =>
    refine ⟨ys, rfl, List.forall₂_iff_get.mpr ⟨Node.list.inj hnode, fun i hx hy => ?_⟩⟩
    have hitem := h.child (.index i)
    have hget : ∀ {zs : List Value} (hz : i < zs.length),
        (Value.list zs).child (.index i) = zs.get ⟨i, hz⟩ := by
      intro zs hz
      show zs[i]?.getD .none = zs[i]
      rw [List.getElem?_eq_getElem hz]
      rfl
    rw [hget hx, hget hy] at hitem
    exact hitem
  | _ => cases hnode

theorem eq_of_leaf (h : v.SameContent w) (hlist : ∀ items, v ≠ .list items)
    (hdict : ∀ items, v ≠ .dict items) : v = w := by
  have hnode := h.node_eq
  cases v with
  | list items => exact absurd rfl (hlist items)
  | dict items => exact absurd rfl (hdict items)
  | _ =>
    cases w with
    | list items => cases hnode
    | dict items => cases hnode
    | _ =>
      cases hnode
      try rfl

end SameContent
end Value

namespace JsonEncoder
variable (encoder : JsonEncoder)

/-! ## The text depends on the content alone -/

theorem text_injective {k l : Key} (hk : k.isString = true) (hl : l.isString = true)
    (h : k.text = l.text) : k = l := by
  cases k with
  | str s =>
    cases l with
    | str t => exact congrArg Key.str h
    | _ => cases hl
  | _ => cases hk

theorem eq_of_nodup {α : Type} {items : List (Key × α)} (hn : (items.map Prod.fst).Nodup)
    {x y : Key × α} (hx : x ∈ items) (hy : y ∈ items) (h : x.1 = y.1) : x = y :=
  List.inj_on_of_nodup_map hn hx hy h

theorem sortItems_eq_of_perm {α : Type} {xs ys : List (Key × α)} (h : xs.Perm ys)
    (hn : (xs.map Prod.fst).Nodup) : encoder.sortItems xs = encoder.sortItems ys := by
  unfold sortItems
  rw [← h.length_eq, ← h.all_eq, ← h.all_eq]
  by_cases hone : xs.length ≤ 1
  · have hsame : xs = ys := by
      cases xs with
      | nil => exact h.nil_eq
      | cons x rest =>
        cases rest with
        | nil => exact (List.singleton_perm.mp h)
        | cons y rest => exact absurd hone (by simp)
    rw [if_pos hone, if_pos hone, hsame]
  · rw [if_neg hone, if_neg hone]
    by_cases hstrings : (xs.all fun e => e.1.isString) = true
    · have hall := List.all_eq_true.mp hstrings
      rw [if_pos hstrings, if_pos hstrings, sortBy_eq_of_perm _ h fun x hx y hy hxy =>
        eq_of_nodup hn hx hy (text_injective (hall x hx) (hall y hy) hxy)]
    · rw [if_neg hstrings, if_neg hstrings]
      by_cases hnumbers : (xs.all fun e => (encoder.number e.1).isSome) = true
      · have hall := List.all_eq_true.mp hnumbers
        rw [if_pos hnumbers, if_pos hnumbers, sortBy_eq_of_perm _ h fun x hx y hy hxy => ?_]
        obtain ⟨q, hq⟩ := Option.isSome_iff_exists.mp (hall x hx)
        obtain ⟨r, hr⟩ := Option.isSome_iff_exists.mp (hall y hy)
        rw [hq, hr] at hxy
        change q = r at hxy
        exact eq_of_nodup hn hx hy (encoder.number_injective x.1 y.1 r (hxy ▸ hq) hr)
      · rw [if_neg hnumbers, if_neg hnumbers]

theorem sortItems_perm {α : Type} {items sorted : List (Key × α)}
    (h : encoder.sortItems items = some sorted) : sorted.Perm items := by
  unfold sortItems at h
  split at h
  · cases h
    exact List.Perm.refl _
  · split at h
    · cases h
      exact sortBy_perm _ _
    · split at h
      · cases h
        exact sortBy_perm _ _
      · cases h

/-- The order does not look at the values. -/
theorem sortItems_map {α β : Type} {f : Key × α → Key × β} (hf : ∀ e, (f e).1 = e.1)
    (items : List (Key × α)) :
    encoder.sortItems (items.map f) = (encoder.sortItems items).map fun sorted => sorted.map f := by
  have hall : ∀ p : Key → Bool, ((items.map f).all fun e => p e.1) = items.all fun e => p e.1 := by
    intro p
    rw [List.all_map]
    exact congrArg items.all (funext fun e => by rw [Function.comp_apply, hf])
  unfold sortItems
  rw [List.length_map, hall Key.isString, hall fun k => (encoder.number k).isSome]
  by_cases hone : items.length ≤ 1
  · rw [if_pos hone, if_pos hone, Option.map_some]
  · rw [if_neg hone, if_neg hone]
    by_cases hstrings : (items.all fun e => e.1.isString) = true
    · rw [if_pos hstrings, if_pos hstrings, Option.map_some]
      exact congrArg some (sortBy_map _ f (fun e => congrArg Key.text (hf e)) items)
    · rw [if_neg hstrings, if_neg hstrings]
      by_cases hnumbers : (items.all fun e => (encoder.number e.1).isSome) = true
      · rw [if_pos hnumbers, if_pos hnumbers, Option.map_some]
        exact congrArg some (sortBy_map _ f (fun e => by rw [hf]) items)
      · rw [if_neg hnumbers, if_neg hnumbers, Option.map_none]

theorem object_eq_of_perm {xs ys : List (Key × Option String)} (h : xs.Perm ys)
    (hn : (xs.map Prod.fst).Nodup) : encoder.object xs = encoder.object ys := by
  unfold object
  rw [encoder.sortItems_eq_of_perm h hn]

theorem map_fst_texts (es : List (Key × Value)) :
    (es.map fun e => (e.1, encoder.dumps e.2)).map Prod.fst = es.map Prod.fst := by
  rw [List.map_map]
  rfl

/-- Mappings with the same keys, and the same text for each of them, have the same texts up to their
order. -/
theorem texts_perm {d e : Dict Key Value} (hkeys : ∀ k, k ∈ d.keys ↔ k ∈ e.keys)
    (hitem : ∀ p ∈ d.entries, ∀ q ∈ e.entries, p.1 = q.1 →
      encoder.dumps p.2 = encoder.dumps q.2) :
    (d.entries.map fun p => (p.1, encoder.dumps p.2)).Perm
      (e.entries.map fun q => (q.1, encoder.dumps q.2)) := by
  have hnodup : ∀ d : Dict Key Value,
      (d.entries.map fun p => (p.1, encoder.dumps p.2)).Nodup := by
    intro d
    refine List.Nodup.of_map Prod.fst ?_
    rw [map_fst_texts]
    exact d.nodup
  refine (List.perm_ext_iff_of_nodup (hnodup d) (hnodup e)).mpr fun x => ?_
  rw [List.mem_map, List.mem_map]
  constructor
  · intro ⟨p, hp, hx⟩
    obtain ⟨q, hq, hkey⟩ := List.mem_map.mp ((hkeys p.1).mp (List.mem_map_of_mem hp))
    exact ⟨q, hq, by rw [← hx, hkey, hitem p hp q hq hkey.symm]⟩
  · intro ⟨q, hq, hx⟩
    obtain ⟨p, hp, hkey⟩ := List.mem_map.mp ((hkeys q.1).mpr (List.mem_map_of_mem hq))
    exact ⟨p, hp, by rw [← hx, hkey, hitem p hp q hq hkey]⟩

/-- Values of the same content have the same text. -/
theorem dumps_sameContent {v w : Value} (h : v.SameContent w) :
    encoder.dumps v = encoder.dumps w := by
  induction v using Value.induction generalizing w with
  | hlist items ih =>
    obtain ⟨items', rfl, hall⟩ := h.list_right
    have hitems : items.map encoder.dumps = items'.map encoder.dumps := by
      clear h
      induction hall with
      | nil => rfl
      | cons hitem _ ihall =>
        rw [List.map_cons, List.map_cons, ih _ List.mem_cons_self hitem,
          ihall fun v hv => ih v (List.mem_cons_of_mem _ hv)]
    rw [dumps, dumps, dumpsList_eq, dumpsList_eq, hitems]
  | hdict items ih =>
    obtain ⟨items', rfl, hkeys⟩ := h.dict_right
    rw [dumps_dict, dumps_dict]
    refine encoder.object_eq_of_perm (encoder.texts_perm hkeys fun e he e' he' hkey => ?_) ?_
    · have hsame := h.lookup e.1
      have hleft : (Value.dict items).lookup e.1 = e.2 := Value.lookup_of_mem he
      have hright : (Value.dict items').lookup e'.1 = e'.2 := Value.lookup_of_mem he'
      rw [hleft, hkey, hright] at hsame
      exact ih e (Dict.mem_of_mem_ofPairs he) hsame
    · rw [map_fst_texts]
      exact (Dict.ofPairs items).nodup
  | hleaf v hlist hdict => rw [h.eq_of_leaf hlist hdict]

/-! ## A string inside a value -/

/-- The text of `v p` has one hole, which the quoted `p` fills. -/
def Embeds (v : String → Value) : Prop :=
  ∃ f, HasHole f ∧ ∀ p, encoder.dumps (v p) = f (quote p)

theorem embeds_str : encoder.Embeds Value.str := ⟨some, HasHole.filled, fun p => by rw [dumps]⟩

theorem member_hole {f : String → Option String} (h : HasHole f) (k : Key) :
    HasHole fun p => encoder.member (k, f p) := by
  cases hkey : encoder.keyText k with
  | none =>
    have hnone : (fun p => encoder.member (k, f p)) = fun _ => none := by
      funext p
      simp [member, hkey]
    rw [hnone]
    exact HasHole.absent
  | some key =>
    have hwrap : (fun p => encoder.member (k, f p)) =
        fun p => (f p).map fun text => quote key ++ ":" ++ text ++ "" := by
      funext p
      cases f p <;> simp [member, hkey]
    rw [hwrap]
    exact h.wrap (quote key ++ ":") ""

theorem join_hole {α : Type} {g : α → Option String} {f : String → α}
    (hf : HasHole fun p => g (f p)) (before after : List α) :
    HasHole fun p => ((before ++ f p :: after).mapM g).map fun texts =>
      ",".intercalate texts := by
  have hmap : ∀ p, ((before ++ f p :: after).mapM g).map (fun texts => ",".intercalate texts) =
      (before.mapM g).bind fun left => (after.mapM g).bind fun right =>
        (g (f p)).map fun text => ",".intercalate (left ++ text :: right) := by
    intro p
    rw [List.mapM_append, List.mapM_cons]
    cases before.mapM g <;> cases g (f p) <;> cases after.mapM g <;> rfl
  simp only [hmap]
  cases before.mapM g with
  | none => exact HasHole.absent
  | some left =>
    cases after.mapM g with
    | none => exact HasHole.absent
    | some right => exact hf.intercalate "," left right

/-- Another text for the value of a key. -/
def fill (k : Key) (text : Option String) (e : Key × Option String) : Key × Option String :=
  if e.1 = k then (e.1, text) else e

theorem fill_fst (k : Key) (text : Option String) (e : Key × Option String) :
    (fill k text e).1 = e.1 := by
  unfold fill
  by_cases he : e.1 = k
  · rw [if_pos he]
  · rw [if_neg he]

theorem map_fill_other {k : Key} (text : Option String) {es : List (Key × Option String)}
    (hk : k ∉ es.map Prod.fst) : es.map (fill k text) = es := by
  conv_rhs => rw [← List.map_id es]
  refine List.map_congr_left fun e he => if_neg fun hek => hk ?_
  exact List.mem_map.mpr ⟨e, he, hek⟩

theorem map_fill {k : Key} (text : Option String) {left right : List (Key × Option String)}
    (hn : ((left ++ (k, none) :: right).map Prod.fst).Nodup) :
    (left ++ (k, none) :: right).map (fill k text) = left ++ (k, text) :: right := by
  rw [List.map_append, List.map_cons, List.nodup_append, List.nodup_cons] at hn
  obtain ⟨-, ⟨hright, -⟩, hdisjoint⟩ := hn
  have hleft : k ∉ left.map Prod.fst := fun hmem => hdisjoint k hmem k List.mem_cons_self rfl
  have hself : fill k text (k, none) = (k, text) := if_pos rfl
  rw [List.map_append, List.map_cons, map_fill_other text hleft, map_fill_other text hright, hself]

theorem object_eq (items : List (Key × Option String)) :
    encoder.object items = (encoder.sortItems items).bind fun sorted =>
      ((sorted.mapM encoder.member).map fun members => ",".intercalate members).map fun text =>
        "\x7b" ++ text ++ "\x7d" := by
  unfold object
  cases encoder.sortItems items with
  | none => rfl
  | some sorted => cases hm : sorted.mapM encoder.member <;> simp [hm]

/-- The hole of one value is a hole of the mapping around it. -/
theorem object_hole {f : String → Option String} (hf : HasHole f) {k : Key}
    {before after : List (Key × Option String)}
    (hn : ((before ++ (k, none) :: after).map Prod.fst).Nodup) :
    HasHole fun p => encoder.object (before ++ (k, f p) :: after) := by
  have hsort : ∀ p, encoder.sortItems (before ++ (k, f p) :: after) =
      (encoder.sortItems (before ++ (k, none) :: after)).map fun sorted =>
        sorted.map (fill k (f p)) := by
    intro p
    rw [← encoder.sortItems_map (fill_fst k (f p)), map_fill (f p) hn]
  simp only [object_eq, hsort]
  cases hsorted : encoder.sortItems (before ++ (k, none) :: after) with
  | none => exact HasHole.absent
  | some sorted =>
    have hperm := encoder.sortItems_perm hsorted
    have hmem : (k, none) ∈ sorted := hperm.mem_iff.mpr (by simp)
    obtain ⟨left, right, rfl⟩ := List.append_of_mem hmem
    have hnodup : ((left ++ (k, none) :: right).map Prod.fst).Nodup :=
      (hperm.map Prod.fst).nodup_iff.mpr hn
    simp only [Option.map_some, Option.bind_some, map_fill _ hnodup]
    exact (join_hole (encoder.member_hole hf k) left right).wrap "\x7b" "\x7d"

/-- A mapping embeds what the value of one of its keys embeds. -/
theorem Embeds.dict {v : String → Value} (h : encoder.Embeds v) (items : List (Key × Value))
    (k : Key) : encoder.Embeds fun p => .dict (items ++ [(k, v p)]) := by
  obtain ⟨f, hf, hv⟩ := h
  obtain ⟨before, after, hsplit⟩ := (Dict.ofPairs items).entries_set_split k
  let texts : List (Key × Value) → List (Key × Option String) :=
    fun es => es.map fun e => (e.1, encoder.dumps e.2)
  refine ⟨fun q => encoder.object (texts before ++ (k, f q) :: texts after), ?_, fun p => ?_⟩
  · refine encoder.object_hole hf ?_
    have hn := ((Dict.ofPairs items).set k (v "")).nodup
    rw [hsplit] at hn
    simpa [texts, Function.comp_def] using hn
  · rw [dumps_dict, Dict.ofPairs_concat, hsplit, List.map_append, List.map_cons, hv]

end JsonEncoder

end PhysicalAiRuntime.Config
