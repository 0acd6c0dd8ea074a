import PhysicalAiRuntime.Config.Canonical
import PhysicalAiRuntime.Config.Contracts

/-! The hash of a profile over two loads of it, which may come from two places. The referenced files
are read by content; the recorder section gains a path. -/
namespace PhysicalAiRuntime.Config
set_option autoImplicit false
set_option maxHeartbeats 250000

/-- The text that `profile_hash` digests; `none` where `json.dumps` raises. -/
def EmbodimentConfig.canonical (encoder : JsonEncoder) (config : EmbodimentConfig) : Option String :=
  encoder.dumps (.dict config.rawData.entries)

def EmbodimentConfig.profileHash (encoder : JsonEncoder) (sha256 : String → String)
    (config : EmbodimentConfig) : Option String :=
  (config.canonical encoder).map sha256

def fromYaml (host : Host) (path : String) : Except PyError EmbodimentConfig := do
  fromDict host (← host.readYaml path) (some path)

/-! ## Mappings of the same content -/

def SameMapping (d e : Dict Key Value) : Prop :=
  (Value.dict d.entries).SameContent (.dict e.entries)

theorem sameContent_dict_iff {xs ys : List (Key × Value)} :
    (Value.dict xs).SameContent (.dict ys) ↔
      (∀ k, k ∈ (Dict.ofPairs xs).keys ↔ k ∈ (Dict.ofPairs ys).keys) ∧
        ∀ k, (((Dict.ofPairs xs).get? k).getD .none).SameContent
          (((Dict.ofPairs ys).get? k).getD .none) := by
  constructor
  · intro h
    obtain ⟨_, heq, hkeys⟩ := h.dict_right
    cases heq
    exact ⟨hkeys, h.lookup⟩
  · intro ⟨hkeys, hlookup⟩
    exact Value.SameContent.dict hkeys hlookup

theorem sameMapping_ofPairs {xs ys : List (Key × Value)} :
    SameMapping (Dict.ofPairs xs) (Dict.ofPairs ys) ↔ (Value.dict xs).SameContent (.dict ys) := by
  unfold SameMapping
  rw [sameContent_dict_iff, sameContent_dict_iff, Dict.ofPairs_entries, Dict.ofPairs_entries]

theorem sameMapping_iff {d e : Dict Key Value} :
    SameMapping d e ↔ (∀ k, k ∈ d.keys ↔ k ∈ e.keys) ∧
      ∀ k, ((d.get? k).getD .none).SameContent ((e.get? k).getD .none) := by
  unfold SameMapping
  rw [sameContent_dict_iff, Dict.ofPairs_entries, Dict.ofPairs_entries]

namespace SameMapping
variable {d e : Dict Key Value}

theorem field (h : SameMapping d e) (name : String) :
    (field d name .none).SameContent (Config.field e name .none) :=
  (sameMapping_iff.mp h).2 (.str name)

theorem set (h : SameMapping d e) {v w : Value} (hv : v.SameContent w) (k : Key) :
    SameMapping (d.set k v) (e.set k w) := by
  obtain ⟨hkeys, hget⟩ := sameMapping_iff.mp h
  refine sameMapping_iff.mpr ⟨fun x => ?_, fun x => ?_⟩
  · unfold Dict.keys at hkeys ⊢
    rw [Dict.set, Dict.set, Dict.mem_keys_setEntries, Dict.mem_keys_setEntries, hkeys x]
  · rw [Dict.get?_set, Dict.get?_set]
    by_cases hx : x = k
    · rw [if_pos hx, if_pos hx]
      exact hv
    · rw [if_neg hx, if_neg hx]
      exact hget x

theorem of_mapping {v w : Value} {path path' : String} (h : v.SameContent w)
    (hd : mapping v path = .ok d) (he : mapping w path' = .ok e) : SameMapping d e := by
  obtain ⟨xs, rfl, rfl⟩ := mapping_ok hd
  obtain ⟨ys, rfl, rfl⟩ := mapping_ok he
  exact sameMapping_ofPairs.mpr h

end SameMapping

theorem Value.SameContent.concat {xs ys : List (Key × Value)}
    (h : (Value.dict xs).SameContent (.dict ys)) (e : Key × Value) :
    (Value.dict (xs ++ [e])).SameContent (.dict (ys ++ [e])) := by
  rw [← sameMapping_ofPairs, Dict.ofPairs_concat, Dict.ofPairs_concat]
  exact (sameMapping_ofPairs.mpr h).set (Value.SameContent.refl e.2) e.1

theorem Value.SameContent.hasKey_iff {v w : Value} (h : v.SameContent w) (name : String) :
    v.HasKey name ↔ w.HasKey name := by
  have hforward : ∀ {v w : Value}, v.SameContent w → v.HasKey name → w.HasKey name := by
    intro v w h ⟨items, heq, hmem⟩
    subst heq
    obtain ⟨items', rfl, hkeys⟩ := h.dict_right
    exact ⟨items', rfl, (hkeys _).mp hmem⟩
  exact ⟨hforward h, hforward h.symm⟩

/-! ## Two loads of a profile -/

/-- A call of `from_dict` that returned. -/
structure Load where
  host : Host
  data : Value
  sourcePath : Option String
  config : EmbodimentConfig
  returned : fromDict host data sourcePath = .ok config

namespace Load

/-- What the referenced execution-manager file was read as. -/
def ExecutionManagerFile (l : Load) (content : Value) : Prop :=
  ∃ path, resolvePackageFile l.host (l.data.lookup (.str "execution_manager_config")) l.sourcePath
      "execution_manager_config" = .ok path ∧
    l.host.readYaml path = .ok content

/-- Where the load found the referenced recorder file. -/
def ContractPath (l : Load) (path : String) : Prop :=
  (l.data.lookup (.str "recorder")).HasKey "config" ∧
    resolvePackageFile l.host ((l.data.lookup (.str "recorder")).lookup (.str "config"))
      l.sourcePath "recorder.config" = .ok path

theorem ContractPath.unique {l : Load} {p q : String} (hp : l.ContractPath p)
    (hq : l.ContractPath q) : p = q := Except.ok.inj (hp.2.symm.trans hq.2)

/-- The root before the recorder section is bound, and what the binding adds. -/
theorem rawData (l : Load) : ∃ values routed, mapping l.data "profile" = .ok values ∧
    bindExecutionManagerRouting l.host values l.sourcePath = .ok routed ∧
    Config.field routed "recorder" .none = l.data.lookup (.str "recorder") ∧
    ((¬ (l.data.lookup (.str "recorder")).HasKey "config" ∧ l.config.rawData = routed) ∨
      ∃ items path, l.data.lookup (.str "recorder") = .dict items ∧ l.ContractPath path ∧
        l.config.rawData = routed.set (.str "recorder")
          (.dict (items ++ [(.str "contract_path", .str path)]))) := by
  obtain ⟨root, hroot, hsections⟩ := fromDict_sections l.returned
  obtain ⟨values, routed, hvalues, hrouted, hbound⟩ := bindRoot_ok hroot
  have hrecorder : Config.field routed "recorder" .none = l.data.lookup (.str "recorder") := by
    rw [mapping_lookup hvalues]
    obtain ⟨-, rfl⟩ | ⟨-, -, -, -, groups, -, -, -, -, rfl⟩ := routing_ok hrouted
    · rfl
    · show ((values.set _ _).get? _).getD _ = _
      rw [Dict.get?_set, if_neg (by simp)]
  have hraw := hsections.rawData
  refine ⟨values, routed, hvalues, hrouted, hrecorder, ?_⟩
  have hcases := streamContract_ok hbound
  rw [hrecorder] at hcases
  obtain ⟨hnone, rfl⟩ | ⟨items, path, hitems, hkey, hpath, rfl⟩ := hcases
  · exact Or.inl ⟨hnone, hraw⟩
  · exact Or.inr ⟨items, path, hitems, ⟨hkey, hpath⟩, hraw⟩

end Load

/-- The profile and the execution-manager file have the same content in both loads. -/
structure SameProfile (l m : Load) : Prop where
  data : l.data.SameContent m.data
  executionManager : ∀ content content', l.ExecutionManagerFile content →
    m.ExecutionManagerFile content' → content.SameContent content'

namespace SameProfile
variable {l m : Load}

/-- Routing reads the file by content, so it does not tell the loads apart. -/
theorem routed (h : SameProfile l m) {values values' routed routed' : Dict Key Value}
    (hvalues : mapping l.data "profile" = .ok values)
    (hvalues' : mapping m.data "profile" = .ok values')
    (hrouted : bindExecutionManagerRouting l.host values l.sourcePath = .ok routed)
    (hrouted' : bindExecutionManagerRouting m.host values' m.sourcePath = .ok routed') :
    SameMapping routed routed' := by
  have hsame := SameMapping.of_mapping h.data hvalues hvalues'
  have hreference := hsame.field "execution_manager_config"
  have hnone : ∀ {v w : Value}, v.SameContent w → v = .none → w = .none := by
    intro v w hvw hv
    subst hv
    refine (hvw.eq_of_leaf ?_ ?_).symm
    · intro items heq
      cases heq
    · intro items heq
      cases heq
  obtain ⟨hl, rfl⟩ | ⟨hl, path, content, em, groups, hpath, hcontent, hem, hgroups, rfl⟩ :=
    routing_ok hrouted
  · obtain ⟨-, rfl⟩ | ⟨hm, -⟩ := routing_ok hrouted'
    · exact hsame
    · exact absurd (hnone hreference hl) hm
  · obtain ⟨hm, -⟩ | ⟨-, path', content', em', groups', hpath', hcontent', hem', hgroups', rfl⟩ :=
      routing_ok hrouted'
    · exact absurd (hnone hreference.symm hm) hl
    · have hlookup := lookup_field hvalues "execution_manager_config"
      have hlookup' := lookup_field hvalues' "execution_manager_config"
      have hfile := h.executionManager content content' ⟨path, hlookup ▸ hpath, hcontent⟩
        ⟨path', hlookup' ▸ hpath', hcontent'⟩
      have hem_same := (SameMapping.of_mapping hfile hem hem').field "groups"
      unfold field at hem_same
      rw [hgroups, hgroups'] at hem_same
      exact hsame.set hem_same _

end SameProfile

/-! ## The text and the contract path -/

theorem EmbodimentConfig.canonical_eq {config config' : EmbodimentConfig} (encoder : JsonEncoder)
    (h : SameMapping config.rawData config'.rawData) :
    config.canonical encoder = config'.canonical encoder := encoder.dumps_sameContent h

/-- The root with a contract path embeds the path. -/
theorem embeds_contract (encoder : JsonEncoder) (routed : Dict Key Value)
    (items : List (Key × Value)) : encoder.Embeds fun path =>
      .dict (routed.set (.str "recorder")
        (.dict (items ++ [(.str "contract_path", .str path)]))).entries := by
  have hrecorder := (encoder.embeds_str).dict encoder items (.str "contract_path")
  obtain ⟨f, hf, htext⟩ := hrecorder.dict encoder routed.entries (.str "recorder")
  refine ⟨f, hf, fun path => ?_⟩
  rw [← htext path, encoder.dumps_dict, encoder.dumps_dict, Dict.ofPairs_concat,
    Dict.ofPairs_entries, Dict.ofPairs_entries]

/-- Two loads of one profile: without a recorder file their texts are one text, with one they are
one text around the two paths. -/
theorem SameProfile.canonical_cases (encoder : JsonEncoder) {l m : Load} (h : SameProfile l m) :
    ((∀ path, ¬ l.ContractPath path) ∧ (∀ path, ¬ m.ContractPath path) ∧
        l.config.canonical encoder = m.config.canonical encoder) ∨
      ∃ f path path', HasHole f ∧ l.ContractPath path ∧ m.ContractPath path' ∧
        l.config.canonical encoder = f (quote path) ∧
        m.config.canonical encoder = f (quote path') := by
  obtain ⟨values, routed, hvalues, hrouted, hrecorder, hl⟩ := l.rawData
  obtain ⟨values', routed', hvalues', hrouted', hrecorder', hm⟩ := m.rawData
  have hsame := h.routed hvalues hvalues' hrouted hrouted'
  have hsection := h.data.lookup (.str "recorder")
  have hkey := hsection.hasKey_iff "config"
  obtain ⟨hnone, hraw⟩ | ⟨items, path, hitems, hpath, hraw⟩ := hl
  · obtain ⟨hnone', hraw'⟩ | ⟨items', path', hitems', hpath', hraw'⟩ := hm
    · refine Or.inl ⟨fun p hp => hnone hp.1, fun p hp => hnone' hp.1, ?_⟩
      refine EmbodimentConfig.canonical_eq encoder ?_
      rw [hraw, hraw']
      exact hsame
    · exact absurd (hkey.mpr hpath'.1) hnone
  · obtain ⟨hnone', -⟩ | ⟨items', path', hitems', hpath', hraw'⟩ := hm
    · exact absurd (hkey.mp hpath.1) hnone'
    · obtain ⟨f, hf, htext⟩ := embeds_contract encoder routed items
      refine Or.inr ⟨f, path, path', hf, hpath, hpath', ?_, ?_⟩
      · rw [← htext path, EmbodimentConfig.canonical, hraw]
      · rw [hitems, hitems'] at hsection
        have hbound : SameMapping m.config.rawData (routed.set (.str "recorder")
            (.dict (items ++ [(.str "contract_path", .str path')]))) := by
          rw [hraw']
          exact (hsame.set (hsection.concat _) _).symm
        rw [← htext path', EmbodimentConfig.canonical]
        exact encoder.dumps_sameContent hbound

/-- One text means one contract path. -/
theorem SameProfile.path_eq (encoder : JsonEncoder) {l m : Load} (h : SameProfile l m)
    {text path path' : String} (hl : l.config.canonical encoder = some text)
    (hm : m.config.canonical encoder = some text) (hpath : l.ContractPath path)
    (hpath' : m.ContractPath path') : path = path' := by
  obtain ⟨hnone, -⟩ | ⟨f, p, p', hf, hp, hp', htext, htext'⟩ := h.canonical_cases encoder
  · exact absurd hpath (hnone path)
  · have hquoted := quote_injective (hf.inj (htext ▸ hl) (htext' ▸ hm))
    rw [hpath.unique hp, hpath'.unique hp', hquoted]

/-- One contract path, or none, means one text. -/
theorem SameProfile.canonical_eq (encoder : JsonEncoder) {l m : Load} (h : SameProfile l m)
    (hpaths : ∀ path path', l.ContractPath path → m.ContractPath path' → path = path') :
    l.config.canonical encoder = m.config.canonical encoder := by
  obtain ⟨-, -, hsame⟩ | ⟨f, path, path', -, hpath, hpath', htext, htext'⟩ :=
    h.canonical_cases encoder
  · exact hsame
  · rw [htext, htext', hpaths path path' hpath hpath']

/-- **Content, not location.** Two loads of one profile digest the same text exactly where they find
the recorder file, if one is referenced, under the same path. -/
theorem profile_text_iff (encoder : JsonEncoder) {l m : Load} (h : SameProfile l m)
    {text text' : String} (hl : l.config.canonical encoder = some text)
    (hm : m.config.canonical encoder = some text') :
    text = text' ↔
      ∀ path path', l.ContractPath path → m.ContractPath path' → path = path' := by
  constructor
  · intro heq path path' hpath hpath'
    subst heq
    exact h.path_eq encoder hl hm hpath hpath'
  · intro hpaths
    have hsame := h.canonical_eq encoder hpaths
    rw [hl, hm] at hsame
    exact Option.some.inj hsame

/-! ### Two installations -/

/-- An encoder for profiles of strings and integers. -/
def plainEncoder : JsonEncoder where
  floatRepr _ := "0.0"
  otherKey k := some k.text
  otherValue _ := none
  number _ := none
  number_injective _ _ _ h := by cases h

def recorderFile (install : String) : String :=
  install ++ "/share/workstation_launch/config/recording/arm.yaml"

/-- A host that has the package installed. -/
def installedHost (install : String) : Host :=
  { bareHost with
    isFile := fun file => file = recorderFile install
    shareDirectory := fun package => some (install ++ "/share/" ++ package) }

def recordedArm : Value :=
  .dict [
    (.str "metadata", .dict [(.str "name", .str "test")]),
    (.str "groups", (guardedArm "joint_trajectory").lookup (.str "groups")),
    (.str "recorder", .dict [(.str "config", .dict [
      (.str "package", .str "workstation_launch"),
      (.str "file", .str "config/recording/arm.yaml")])])]

theorem load_of_isSome {host : Host} {data : Value} {encoder : JsonEncoder}
    (h : ((fromDict host data none).toOption.bind
      (EmbodimentConfig.canonical encoder)).isSome = true) :
    ∃ l : Load, l.host = host ∧ l.data = data ∧ l.sourcePath = none ∧
      ∃ text, l.config.canonical encoder = some text := by
  cases hload : fromDict host data none with
  | error e =>
    rw [hload] at h
    cases h
  | ok config =>
    rw [hload] at h
    exact ⟨⟨host, data, none, config, hload⟩, rfl, rfl, rfl, Option.isSome_iff_exists.mp h⟩

/-- The two installations load one profile. -/
theorem installed_loads : ∃ l m : Load, SameProfile l m ∧
    l.ContractPath (recorderFile "/opt/first") ∧ m.ContractPath (recorderFile "/opt/second") ∧
    ∃ text text', l.config.canonical plainEncoder = some text ∧
      m.config.canonical plainEncoder = some text' := by
  have hfirst : ((fromDict (installedHost "/opt/first") recordedArm none).toOption.bind
      (EmbodimentConfig.canonical plainEncoder)).isSome = true := by decide +kernel
  have hsecond : ((fromDict (installedHost "/opt/second") recordedArm none).toOption.bind
      (EmbodimentConfig.canonical plainEncoder)).isSome = true := by decide +kernel
  obtain ⟨l, hlhost, hldata, hlsource, text, hl⟩ := load_of_isSome hfirst
  obtain ⟨m, hmhost, hmdata, hmsource, text', hm⟩ := load_of_isSome hsecond
  have hkey : (recordedArm.lookup (.str "recorder")).HasKey "config" :=
    ⟨_, rfl, List.mem_singleton.mpr rfl⟩
  refine ⟨l, m, ⟨?_, ?_⟩, ⟨?_, ?_⟩, ⟨?_, ?_⟩, text, text', hl, hm⟩
  · rw [hldata, hmdata]
    exact Value.SameContent.refl _
  · intro content content' ⟨path, hpath, _⟩
    rw [hldata] at hpath
    cases hpath
  · rw [hldata]
    exact hkey
  · rw [hlhost, hldata, hlsource]
    decide +kernel
  · rw [hmdata]
    exact hkey
  · rw [hmhost, hmdata, hmsource]
    decide +kernel

theorem profile_text_installed : ∃ l m : Load, SameProfile l m ∧ ∃ text text',
    l.config.canonical plainEncoder = some text ∧ m.config.canonical plainEncoder = some text' ∧
      (text = text' ↔
        ∀ path path', l.ContractPath path → m.ContractPath path' → path = path') := by
  obtain ⟨l, m, h, -, -, text, text', hl, hm⟩ := installed_loads
  exact ⟨l, m, h, text, text', hl, hm, profile_text_iff plainEncoder h hl hm⟩

/-- The same profile has one text under `/opt/first` and another under `/opt/second`. -/
theorem installed_texts_differ : ∃ l m : Load, SameProfile l m ∧ ∃ text text',
    l.config.canonical plainEncoder = some text ∧ m.config.canonical plainEncoder = some text' ∧
      text ≠ text' := by
  obtain ⟨l, m, h, hpath, hpath', text, text', hl, hm⟩ := installed_loads
  refine ⟨l, m, h, text, text', hl, hm, fun heq => ?_⟩
  subst heq
  have hsame := h.path_eq plainEncoder hl hm hpath hpath'
  exact absurd hsame (by decide +kernel)

/-! ## The hash -/

/-- Either both loads have a text, or neither has. -/
theorem canonical_isSome_iff (encoder : JsonEncoder) {l m : Load} (h : SameProfile l m) :
    (l.config.canonical encoder).isSome ↔ (m.config.canonical encoder).isSome := by
  obtain ⟨-, -, hsame⟩ | ⟨f, path, path', hf, -, -, htext, htext'⟩ := h.canonical_cases encoder
  · rw [hsame]
  · rw [htext, htext']
    exact hf.isSome_iff _ _

/-- The hash follows the text, whatever the digest. -/
theorem profileHash_eq (encoder : JsonEncoder) (sha256 : String → String) {l m : Load}
    (h : SameProfile l m)
    (hpaths : ∀ path path', l.ContractPath path → m.ContractPath path' → path = path') :
    l.config.profileHash encoder sha256 = m.config.profileHash encoder sha256 := by
  unfold EmbodimentConfig.profileHash
  rw [h.canonical_eq encoder hpaths]

/-- A profile that is read from a file is a load with that file as its source. -/
theorem fromYaml_load {host : Host} {path : String} {config : EmbodimentConfig}
    (h : fromYaml host path = .ok config) :
    ∃ l : Load, l.host = host ∧ l.sourcePath = some path ∧ l.config = config ∧
      host.readYaml path = .ok l.data := by
  obtain ⟨data, hdata, h⟩ := except_bind_ok h
  exact ⟨⟨host, data, some path, config, h⟩, rfl, rfl, rfl, hdata⟩

end PhysicalAiRuntime.Config
