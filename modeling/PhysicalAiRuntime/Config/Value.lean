import Mathlib.Algebra.Field.Rat
import Mathlib.Data.List.Infix
import PhysicalAiRuntime.Foundations.Dict

/-! The values a profile is made of, as the YAML loader or a caller hands them over, and the
field checks of the profile. What the interpreter and the file system answer is the `Host`. -/
namespace PhysicalAiRuntime.Config
set_option autoImplicit false
set_option maxHeartbeats 250000

inductive PyFloat where
  | finite (q : ℚ)
  | infinite (negative : Bool)
  | nan
  deriving DecidableEq, Repr

/-- A date, a tuple or another object. -/
structure Object where
  text : String
  truthy : Bool
  hashable : Bool
  deriving DecidableEq, Repr

/-- A dictionary key. Integers, booleans and integral floats compare and hash by value. -/
inductive Key where
  | str (s : String)
  | int (n : ℤ)
  | other (object : Object)
  deriving DecidableEq, Repr

inductive Value where
  | none
  | bool (b : Bool)
  | int (n : ℤ)
  | float (x : PyFloat)
  | str (s : String)
  | list (items : List Value)
  | dict (items : List (Key × Value))
  | other (object : Object)

def Key.value : Key → Value
  | .str s => .str s
  | .int n => .int n
  | .other object => .other object

/-- `str(key)`. -/
def Key.text : Key → String
  | .str s => s
  | .int n => toString n
  | .other object => object.text

/-- `repr(key)`. -/
def Key.repr : Key → String
  | .str s => pyRepr s
  | .int n => toString n
  | .other object => object.text

namespace Value

def boolInt (b : Bool) : ℤ := if b then 1 else 0

/-- What `value` is as a key: lists, dictionaries and some objects cannot be one. -/
def key (value : Value) : Except PyError Key :=
  match value with
  | .none => .ok (.other ⟨"None", false, true⟩)
  | .bool b => .ok (.int (boolInt b))
  | .int n => .ok (.int n)
  | .float (.finite q) =>
    .ok (if q.den = 1 then .int q.num else .other ⟨toString q, true, true⟩)
  | .float (.infinite negative) => .ok (.other ⟨if negative then "-inf" else "inf", true, true⟩)
  | .float .nan => .ok (.other ⟨"nan", true, true⟩)
  | .str s => .ok (.str s)
  | .list _ => .error ⟨.typeError, "unhashable type: 'list'"⟩
  | .dict _ => .error ⟨.typeError, "unhashable type: 'dict'"⟩
  | .other object =>
    if object.hashable then .ok (.other object)
    else .error ⟨.typeError, "unhashable type"⟩

def truthy : Value → Bool
  | .none => false
  | .bool b => b
  | .int n => n ≠ 0
  | .float (.finite q) => q ≠ 0
  | .float _ => true
  | .str s => s ≠ ""
  | .list items => ¬ items.isEmpty
  | .dict items => ¬ items.isEmpty
  | .other object => object.truthy

/-- `isinstance(value, int)`. -/
def asInt : Value → Option ℤ
  | .int n => some n
  | .bool b => some (boolInt b)
  | _ => Option.none

/-- A value that `_string` accepts. -/
def nonEmptyString : Value → Option String
  | .str s => if s = "" then Option.none else some s
  | _ => Option.none

theorem nonEmptyString_eq_some {value : Value} {s : String} :
    value.nonEmptyString = some s ↔ value = .str s ∧ s ≠ "" := by
  cases value with
  | str t =>
    show (if t = "" then Option.none else some t) = some s ↔ _
    by_cases ht : t = ""
    · rw [if_pos ht]
      constructor
      · intro h
        cases h
      · intro ⟨heq, hne⟩
        cases heq
        exact absurd ht hne
    · rw [if_neg ht, Option.some.injEq, Value.str.injEq]
      constructor
      · intro h
        exact ⟨h, h ▸ ht⟩
      · exact fun h => h.1
  | _ => simp [nonEmptyString]

end Value

/-- What the validator asks of the interpreter and the file system. -/
structure Host where
  /-- `str(value)`. -/
  str : Value → String
  /-- `repr(values)` of a list. -/
  repr : List Value → String
  upper : String → String
  /-- `int(text)`. -/
  int : String → Except PyError ℤ
  /-- `str(Path(text))`. -/
  path : String → String
  join : String → String → String
  isFile : String → Bool
  isDir : String → Bool
  /-- `(source_path.parent / reference).resolve()`. -/
  beside : String → String → String
  /-- The resolved source path, or the path of the module without one, and its parents. -/
  ancestors : Option String → List String
  /-- The installed share directory of a package; `none` where the lookup raises. -/
  shareDirectory : String → Option String
  /-- The directory and the text of each `src/**/package.xml` below a root. -/
  packageXml : String → List (String × Except PyError String)
  readYaml : String → Except PyError Value

/-! ## Field checks -/

def mapping (value : Value) (path : String) : Except PyError (Dict Key Value) :=
  match value with
  | .dict items => .ok (Dict.ofPairs items)
  | _ => .error ⟨.typeError, path ++ " must be a mapping"⟩

def string (value : Value) (path : String) : Except PyError String :=
  match value.nonEmptyString with
  | some s => .ok s
  | none => .error ⟨.typeError, path ++ " must be a non-empty string"⟩

def optionalString (value : Value) (path : String) : Except PyError (Option String) :=
  match value with
  | .none => .ok none
  | value => do return some (← string value path)

def endpoints (value : Value) (path : String) : Except PyError (Dict String String) := do
  let items ← mapping value path
  let pairs ← items.entries.mapM fun e => do
    let name ← string e.1.value (path ++ " key")
    let endpoint ← string e.2 (path ++ "." ++ e.1.text)
    return (name, endpoint)
  return Dict.ofPairs pairs

/-- `values.get(name, default)`. -/
def field (values : Dict Key Value) (name : String) (default : Value) : Value :=
  (values.get? (.str name)).getD default

theorem string_ok {value : Value} {path s : String} :
    string value path = .ok s ↔ value = .str s ∧ s ≠ "" := by
  rw [← Value.nonEmptyString_eq_some]
  unfold string
  cases value.nonEmptyString with
  | none => simp
  | some t => simp

theorem mapping_ok {value : Value} {path : String} {values : Dict Key Value}
    (h : mapping value path = .ok values) :
    ∃ items, value = .dict items ∧ values = Dict.ofPairs items := by
  cases value with
  | dict items =>
    cases h
    exact ⟨items, rfl, rfl⟩
  | _ => cases h

theorem key_value_str {k : Key} {s : String} (h : k.value = .str s) : k = .str s := by
  cases k with
  | str t =>
    cases h
    rfl
  | _ => cases h

/-- The endpoints of a controller are the entries of its dictionary, all of them strings. -/
theorem endpoints_entries {value : Value} {path : String} {r : Dict String String}
    (h : endpoints value path = .ok r) :
    ∃ values, mapping value path = .ok values ∧
      List.Forall₂ (fun e p => e = (.str p.1, .str p.2) ∧ p.1 ≠ "" ∧ p.2 ≠ "")
        values.entries r.entries := by
  obtain ⟨values, hvalues, h⟩ := except_bind_ok h
  obtain ⟨pairs, hpairs, h⟩ := except_bind_ok h
  cases h
  have hall : List.Forall₂ (fun e p => e = (.str p.1, .str p.2) ∧ p.1 ≠ "" ∧ p.2 ≠ "")
      values.entries pairs := by
    refine (except_mapM_forall₂ hpairs).imp fun e p hp => ?_
    obtain ⟨s, hs, hp⟩ := except_bind_ok hp
    obtain ⟨t, ht, hp⟩ := except_bind_ok hp
    cases hp
    obtain ⟨hkey, hs⟩ := string_ok.mp hs
    obtain ⟨hvalue, ht⟩ := string_ok.mp ht
    exact ⟨Prod.ext (key_value_str hkey) hvalue, hs, ht⟩
  have hkeys : (pairs.map Prod.fst).map Key.str = values.keys := by
    rw [List.map_map]
    refine List.forall₂_eq_eq_eq ▸ ?_
    unfold Dict.keys
    rw [List.forall₂_map_left_iff, List.forall₂_map_right_iff]
    exact hall.flip.imp fun p e hp => (congrArg Prod.fst hp.1).symm
  have hnodup : ((pairs.map Prod.fst).map Key.str).Nodup := by
    rw [hkeys]
    exact values.nodup
  refine ⟨values, hvalues, ?_⟩
  rw [Dict.entries_ofPairs (List.Nodup.of_map Key.str hnodup)]
  exact hall

theorem endpoints_ok {value : Value} {path : String} {r : Dict String String}
    (h : endpoints value path = .ok r) :
    ∃ values, mapping value path = .ok values ∧
      ∀ name, name ∈ r.keys ↔ .str name ∈ values.keys := by
  obtain ⟨values, hvalues, hall⟩ := endpoints_entries h
  refine ⟨values, hvalues, fun name => ?_⟩
  unfold Dict.keys
  rw [List.mem_map, List.mem_map]
  constructor
  · intro ⟨p, hp, hname⟩
    obtain ⟨e, he, heq, -⟩ := forall₂_mem_right hall hp
    exact ⟨e, he, by rw [heq, hname]⟩
  · intro ⟨e, he, hname⟩
    obtain ⟨p, hp, heq, -⟩ := forall₂_mem_right hall.flip he
    rw [heq] at hname
    exact ⟨p, hp, Key.str.inj hname⟩

/-! ## Files -/

def repositoryRoot (host : Host) (sourcePath : Option String) : Except PyError String :=
  match (host.ancestors sourcePath).find? fun parent =>
    host.isDir (host.join (host.join parent "apps") "profiles") with
  | some parent => .ok parent
  | none => .error ⟨.fileNotFoundError, "repository root with apps/profiles not found"⟩

/-- The loop over the package manifests: the file of the first one that names the package and has
it. -/
def fileInPackages (host : Host) (package fileName : String) :
    List (String × Except PyError String) → Except PyError (Option String)
  | [] => .ok none
  | (directory, text) :: rest => do
    let text ← text
    if ("<name>" ++ package ++ "</name>").toList <:+: text.toList ∧
        host.isFile (host.join directory fileName) then
      return some (host.join directory fileName)
    else fileInPackages host package fileName rest

def resolvePackageFile (host : Host) (reference : Value) (sourcePath : Option String)
    (fieldName : String) : Except PyError String :=
  match reference with
  | .str text =>
    if host.isFile text then .ok (host.path text)
    else match (sourcePath.map fun source => host.beside source text).filter host.isFile with
      | some relative => .ok relative
      | none => .error ⟨.fileNotFoundError, fieldName ++ " file not found: " ++ text⟩
  | reference => do
    let spec ← mapping reference fieldName
    let package ← string (field spec "package" .none) (fieldName ++ ".package")
    let fileName ← string (field spec "file" .none) (fieldName ++ ".file")
    let installed := (host.shareDirectory package).map fun directory =>
      host.join directory fileName
    match installed.filter host.isFile with
    | some file => return file
    | none => do
      let repo ← repositoryRoot host sourcePath
      match ← fileInPackages host package fileName (host.packageXml repo) with
      | some file => return file
      | none => .error ⟨.fileNotFoundError,
          fieldName ++ " " ++ pyRepr package ++ " " ++ pyRepr fileName ++ " not found"⟩

end PhysicalAiRuntime.Config
