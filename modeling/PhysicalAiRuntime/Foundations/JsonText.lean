import Mathlib.Data.List.Basic

/-! The texts of `json.dumps` with `ensure_ascii`: how a string is quoted, and where a string stands
in the text around it. A quoted string determines the string. -/
namespace PhysicalAiRuntime
set_option autoImplicit false
set_option maxHeartbeats 250000

/-! ## Quoting -/

def shortEscapes : List (Char × Char) :=
  [('\\', '\\'), ('"', '"'), ('\x08', 'b'), ('\x0c', 'f'), ('\n', 'n'), ('\r', 'r'), ('\t', 't')]

def hex4 (n : ℕ) : List Char :=
  [(n / 4096 % 16).digitChar, (n / 256 % 16).digitChar, (n / 16 % 16).digitChar,
    (n % 16).digitChar]

/-- One code unit, or a surrogate pair above the basic plane. -/
def unicodeEscape (n : ℕ) : List Char :=
  if n < 0x10000 then ['\\', 'u'] ++ hex4 n
  else ['\\', 'u'] ++ hex4 (0xd800 + (n - 0x10000) / 1024) ++
    (['\\', 'u'] ++ hex4 (0xdc00 + (n - 0x10000) % 1024))

def escape (c : Char) : List Char :=
  match shortEscapes.lookup c with
  | some x => ['\\', x]
  | none => if ' ' ≤ c ∧ c ≤ '~' then [c] else unicodeEscape c.toNat

def quote (s : String) : String := "\"" ++ String.ofList (s.toList.flatMap escape) ++ "\""

example : quote "a\"é😀" = "\"a\\\"\\u00e9\\ud83d\\ude00\"" := by decide +kernel

theorem hex4_inj {m n : ℕ} (hm : m < 0x10000) (hn : n < 0x10000) {r s : List Char}
    (h : hex4 m ++ r = hex4 n ++ s) : m = n ∧ r = s := by
  have hdigit : ∀ a < 16, ∀ b < 16, Nat.digitChar a = Nat.digitChar b → a = b := by decide
  have hlt : ∀ k, k % 16 < 16 := fun k => Nat.mod_lt k (by decide)
  simp only [hex4, List.cons_append, List.nil_append, List.cons.injEq] at h
  obtain ⟨h3, h2, h1, h0, hrest⟩ := h
  have e3 := hdigit _ (hlt _) _ (hlt _) h3
  have e2 := hdigit _ (hlt _) _ (hlt _) h2
  have e1 := hdigit _ (hlt _) _ (hlt _) h1
  have e0 := hdigit _ (hlt _) _ (hlt _) h0
  exact ⟨by omega, hrest⟩

/-- The three shapes of an escaped character. -/
theorem escape_cases (c : Char) :
    (∃ x, (c, x) ∈ shortEscapes ∧ escape c = ['\\', x]) ∨ (c ≠ '\\' ∧ escape c = [c]) ∨
      escape c = unicodeEscape c.toNat := by
  unfold escape
  cases h : shortEscapes.lookup c with
  | some x =>
    obtain ⟨before, after, hsplit, -⟩ := List.lookup_eq_some_iff.mp h
    refine Or.inl ⟨x, ?_, rfl⟩
    rw [hsplit]
    exact List.mem_append_right before List.mem_cons_self
  | none =>
    have hne : c ≠ '\\' := by
      intro hc
      rw [hc] at h
      cases h
    by_cases hp : ' ' ≤ c ∧ c ≤ '~'
    · exact Or.inr (Or.inl ⟨hne, if_pos hp⟩)
    · exact Or.inr (Or.inr (if_neg hp))

theorem short_ne_unicode {c x : Char} (h : (c, x) ∈ shortEscapes) : x ≠ 'u' := by
  have hall : ∀ p ∈ shortEscapes, p.2 ≠ 'u' := by decide
  exact hall (c, x) h

theorem short_inj {c d x : Char} (hc : (c, x) ∈ shortEscapes) (hd : (d, x) ∈ shortEscapes) :
    c = d := by
  have hall : ∀ p ∈ shortEscapes, ∀ q ∈ shortEscapes, p.2 = q.2 → p.1 = q.1 := by decide
  exact hall (c, x) hc (d, x) hd rfl

theorem unicodeEscape_head (n : ℕ) : ∃ rest, unicodeEscape n = '\\' :: 'u' :: rest := by
  unfold unicodeEscape
  by_cases hn : n < 0x10000
  · rw [if_pos hn]
    exact ⟨_, rfl⟩
  · rw [if_neg hn]
    exact ⟨_, rfl⟩

/-- A code unit of the basic plane is no surrogate, so it does not start a pair. -/
theorem unicodeEscape_inj {c d : Char} {r s : List Char}
    (h : unicodeEscape c.toNat ++ r = unicodeEscape d.toNat ++ s) : c = d ∧ r = s := by
  have hvalid : ∀ e : Char, e.toNat < 0xd800 ∨ 0xdfff < e.toNat ∧ e.toNat < 0x110000 :=
    fun e => e.valid
  have hc := hvalid c
  have hd := hvalid d
  have hchar : c.toNat = d.toNat → c = d := fun he => Char.toNat_inj.mp he
  unfold unicodeEscape at h
  by_cases hlc : c.toNat < 0x10000
  · by_cases hld : d.toNat < 0x10000
    · rw [if_pos hlc, if_pos hld, List.append_assoc, List.append_assoc] at h
      have hcode := hex4_inj hlc hld (List.append_cancel_left h)
      exact ⟨hchar hcode.1, hcode.2⟩
    · rw [if_pos hlc, if_neg hld, List.append_assoc, List.append_assoc, List.append_assoc] at h
      have hcode := hex4_inj hlc (by omega) (List.append_cancel_left h)
      omega
  · by_cases hld : d.toNat < 0x10000
    · rw [if_neg hlc, if_pos hld, List.append_assoc, List.append_assoc, List.append_assoc] at h
      have hcode := hex4_inj (by omega) hld (List.append_cancel_left h)
      omega
    · rw [if_neg hlc, if_neg hld] at h
      simp only [List.append_assoc] at h
      have hhigh := hex4_inj (by omega) (by omega) (List.append_cancel_left h)
      have hlow := hex4_inj (by omega) (by omega) (List.append_cancel_left hhigh.2)
      exact ⟨hchar (by omega), hlow.2⟩

/-- No escaped character is the start of another one. -/
theorem escape_inj {c d : Char} {r s : List Char} (h : escape c ++ r = escape d ++ s) :
    c = d ∧ r = s := by
  obtain ⟨x, hx, hc⟩ | ⟨hcne, hc⟩ | hc := escape_cases c <;>
    obtain ⟨y, hy, hd⟩ | ⟨hdne, hd⟩ | hd := escape_cases d <;> rw [hc, hd] at h
  · simp only [List.cons_append, List.nil_append, List.cons.injEq, true_and] at h
    obtain ⟨rfl, hrest⟩ := h
    exact ⟨short_inj hx hy, hrest⟩
  · exact absurd (List.cons.inj h).1.symm hdne
  · obtain ⟨rest, hrest⟩ := unicodeEscape_head d.toNat
    rw [hrest] at h
    exact absurd (List.cons.inj (List.cons.inj h).2).1 (short_ne_unicode hx)
  · exact absurd (List.cons.inj h).1 hcne
  · exact List.cons.inj h
  · obtain ⟨rest, hrest⟩ := unicodeEscape_head d.toNat
    rw [hrest] at h
    exact absurd (List.cons.inj h).1 hcne
  · obtain ⟨rest, hrest⟩ := unicodeEscape_head c.toNat
    rw [hrest] at h
    exact absurd (List.cons.inj (List.cons.inj h).2).1.symm (short_ne_unicode hy)
  · obtain ⟨rest, hrest⟩ := unicodeEscape_head c.toNat
    rw [hrest] at h
    exact absurd (List.cons.inj h).1.symm hdne
  · exact unicodeEscape_inj h

theorem escape_ne_nil (c : Char) : escape c ≠ [] := by
  obtain ⟨x, -, hc⟩ | ⟨-, hc⟩ | hc := escape_cases c
  · rw [hc]
    exact List.cons_ne_nil _ _
  · rw [hc]
    exact List.cons_ne_nil _ _
  · obtain ⟨rest, hrest⟩ := unicodeEscape_head c.toNat
    rw [hc, hrest]
    exact List.cons_ne_nil _ _

/-- A code in which no word starts another one is read from left to right. -/
theorem flatMap_inj {α β : Type} {code : α → List β} (hne : ∀ a, code a ≠ [])
    (hcode : ∀ {a b r s}, code a ++ r = code b ++ s → a = b ∧ r = s) {xs ys : List α}
    (h : xs.flatMap code = ys.flatMap code) : xs = ys := by
  induction xs generalizing ys with
  | nil =>
    cases ys with
    | nil => rfl
    | cons y ys =>
      rw [List.flatMap_nil, List.flatMap_cons] at h
      exact absurd (List.append_eq_nil_iff.mp h.symm).1 (hne y)
  | cons x xs ih =>
    cases ys with
    | nil =>
      rw [List.flatMap_nil, List.flatMap_cons] at h
      exact absurd (List.append_eq_nil_iff.mp h).1 (hne x)
    | cons y ys =>
      rw [List.flatMap_cons, List.flatMap_cons] at h
      obtain ⟨hxy, hrest⟩ := hcode h
      rw [hxy, ih hrest]

theorem quote_injective : Function.Injective quote := by
  intro s t h
  unfold quote at h
  have hbody := (String.append_right_inj "\"").mp ((String.append_left_inj "\"").mp h)
  exact String.toList_inj.mp (flatMap_inj escape_ne_nil escape_inj (String.ofList_inj.mp hbody))

/-! ## A hole in a text -/

/-- The text around the hole does not depend on what fills it; where there is no text for one
filling there is none for any. -/
def HasHole (f : String → Option String) : Prop :=
  (∀ p, f p = none) ∨ ∃ before after, ∀ p, f p = some (before ++ p ++ after)

namespace HasHole
variable {f : String → Option String}

theorem absent : HasHole fun _ => none := Or.inl fun _ => rfl

theorem filled : HasHole some := Or.inr ⟨"", "", fun p => by simp⟩

theorem inj (h : HasHole f) {p q text : String} (hp : f p = some text) (hq : f q = some text) :
    p = q := by
  cases h with
  | inl hnone =>
    rw [hnone] at hp
    cases hp
  | inr htext =>
    obtain ⟨before, after, hall⟩ := htext
    rw [hall] at hp hq
    have heq := (Option.some.inj hp).trans (Option.some.inj hq).symm
    exact (String.append_right_inj before).mp ((String.append_left_inj after).mp heq)

theorem isSome_iff (h : HasHole f) (p q : String) : (f p).isSome ↔ (f q).isSome := by
  cases h with
  | inl hnone => rw [hnone, hnone]
  | inr htext =>
    obtain ⟨before, after, hall⟩ := htext
    rw [hall, hall]
    exact Iff.rfl

/-- A text is put between two others. -/
theorem wrap (h : HasHole f) (left right : String) :
    HasHole fun p => (f p).map fun text => left ++ text ++ right := by
  cases h with
  | inl hnone => exact Or.inl fun p => by simp only [hnone, Option.map_none]
  | inr htext =>
    obtain ⟨before, after, hall⟩ := htext
    refine Or.inr ⟨left ++ before, after ++ right, fun p => ?_⟩
    simp only [hall, Option.map_some, String.append_assoc]

/-- One of the texts that a separator joins has the hole. -/
theorem intercalate (h : HasHole f) (separator : String) (xs ys : List String) :
    HasHole fun p => (f p).map fun text => separator.intercalate (xs ++ text :: ys) := by
  have hleft : ∃ left, ∀ rest : List String, rest ≠ [] →
      separator.intercalate (xs ++ rest) = left ++ separator.intercalate rest := by
    by_cases hxs : xs = []
    · exact ⟨"", fun rest _ => by simp [hxs]⟩
    · exact ⟨separator.intercalate xs ++ separator, fun rest hrest =>
        String.intercalate_append_of_ne_nil hxs hrest⟩
  have hright : ∃ right, ∀ text, separator.intercalate (text :: ys) = text ++ right := by
    cases ys with
    | nil => exact ⟨"", fun text => by simp⟩
    | cons y ys =>
      exact ⟨separator ++ separator.intercalate (y :: ys), fun text => by
        rw [String.intercalate_cons_cons, String.append_assoc]⟩
  obtain ⟨left, hleft⟩ := hleft
  obtain ⟨right, hright⟩ := hright
  have hjoin : ∀ text, separator.intercalate (xs ++ text :: ys) = left ++ text ++ right := by
    intro text
    rw [hleft _ (List.cons_ne_nil _ _), hright, String.append_assoc]
  simp only [hjoin]
  exact h.wrap left right

end HasHole

end PhysicalAiRuntime
