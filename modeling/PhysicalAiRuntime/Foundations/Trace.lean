import Mathlib.Data.List.Basic

/-! Runs of a deterministic labelled machine. Everything a caller, a clock or a remote party may
choose is in the label, so a list of labels determines the run. `Follows G s ls` says that each
step of the run of `ls` from `s` meets `G` in the state it starts from; it states both what is
assumed of the steps of a run and what is proved of them. -/
namespace PhysicalAiRuntime.Trace
set_option autoImplicit false
set_option maxHeartbeats 250000

variable {σ ι : Type} {step : σ → ι → σ}

def run (step : σ → ι → σ) (s : σ) (ls : List ι) : σ := ls.foldl step s

@[simp] theorem run_nil (s : σ) : run step s [] = s := rfl

@[simp] theorem run_cons (s : σ) (l : ι) (ls : List ι) :
    run step s (l :: ls) = run step (step s l) ls := rfl

theorem run_append (s : σ) (ls ks : List ι) :
    run step s (ls ++ ks) = run step (run step s ls) ks := List.foldl_append

/-- What each step appends to an output, a run appends in order. -/
theorem run_collect {α : Type} {out : σ → List α} {item : ι → List α}
    (h : ∀ s l, out (step s l) = out s ++ item l) (s : σ) (ls : List ι) :
    out (run step s ls) = out s ++ ls.flatMap item := by
  induction ls generalizing s with
  | nil => simp
  | cons l ls ih => rw [run_cons, ih, h, List.flatMap_cons, List.append_assoc]

theorem run_collect_filterMap {α : Type} {out : σ → List α} {item : ι → Option α}
    (h : ∀ s l, out (step s l) = out s ++ (item l).toList) (s : σ) (ls : List ι) :
    out (run step s ls) = out s ++ ls.filterMap item := by
  rw [List.filterMap_eq_flatMap_toList]
  exact run_collect h s ls

/-- What the steps of the run of `ls` from `s` put out, in order. -/
def outputs {α : Type} (step : σ → ι → σ) (out : σ → ι → List α) : σ → List ι → List α
  | _, [] => []
  | s, l :: ls => out s l ++ outputs step out (step s l) ls

@[simp] theorem outputs_nil {α : Type} {out : σ → ι → List α} (s : σ) :
    outputs step out s [] = [] := rfl

@[simp] theorem outputs_cons {α : Type} {out : σ → ι → List α} (s : σ) (l : ι) (ls : List ι) :
    outputs step out s (l :: ls) = out s l ++ outputs step out (step s l) ls := rfl

theorem outputs_append {α : Type} {out : σ → ι → List α} (s : σ) (ls ks : List ι) :
    outputs step out s (ls ++ ks) =
      outputs step out s ls ++ outputs step out (run step s ls) ks := by
  induction ls generalizing s with
  | nil => rfl
  | cons l ls ih => rw [List.cons_append, outputs_cons, outputs_cons, run_cons, ih,
      List.append_assoc]

/-- A record that grows by what each step puts out holds the outputs of the run. -/
theorem run_outputs {α : Type} {out : σ → ι → List α} {record : σ → List α}
    (h : ∀ s l, record (step s l) = record s ++ out s l) (s : σ) (ls : List ι) :
    record (run step s ls) = record s ++ outputs step out s ls := by
  induction ls generalizing s with
  | nil => rw [run_nil, outputs_nil, List.append_nil]
  | cons l ls ih => rw [run_cons, ih, h, outputs_cons, List.append_assoc]

/-- Each step of the run of `ls` from `s` meets `G` in the state it starts from. -/
def Follows (step : σ → ι → σ) (G : σ → ι → Prop) : σ → List ι → Prop
  | _, [] => True
  | s, l :: ls => G s l ∧ Follows step G (step s l) ls

variable {G P Q : σ → ι → Prop} (Inv : σ → Prop)

instance decidableFollows [∀ s l, Decidable (G s l)] : ∀ s ls, Decidable (Follows step G s ls)
  | _, [] => isTrue trivial
  | s, l :: ls =>
    have := decidableFollows (step s l) ls
    inferInstanceAs (Decidable (G s l ∧ Follows step G (step s l) ls))

@[simp] theorem follows_nil (s : σ) : Follows step G s [] := trivial

@[simp] theorem follows_cons (s : σ) (l : ι) (ls : List ι) :
    Follows step G s (l :: ls) ↔ G s l ∧ Follows step G (step s l) ls := Iff.rfl

theorem follows_append (s : σ) (ls ks : List ι) :
    Follows step G s (ls ++ ks) ↔ Follows step G s ls ∧ Follows step G (run step s ls) ks := by
  induction ls generalizing s with
  | nil => simp
  | cons l ls ih =>
    rw [List.cons_append, follows_cons, follows_cons, run_cons, ih, and_assoc]

/-- A run with a step that does not meet `G` has a first one. -/
theorem follows_first_failure {s : σ} {ls : List ι} (h : ¬ Follows step G s ls) :
    ∃ pre l post, ls = pre ++ l :: post ∧ Follows step G s pre ∧ ¬ G (run step s pre) l := by
  induction ls generalizing s with
  | nil => exact absurd trivial h
  | cons l ls ih =>
    by_cases hl : G s l
    · rw [follows_cons, not_and] at h
      obtain ⟨pre, k, post, hls, hpre, hk⟩ := ih (h hl)
      refine ⟨l :: pre, k, post, ?_, ⟨hl, hpre⟩, hk⟩
      rw [hls, List.cons_append]
    · exact ⟨[], l, ls, rfl, trivial, hl⟩

/-- An invariant that every allowed step keeps holds after every allowed run. -/
theorem run_invariant (hstep : ∀ s l, Inv s → G s l → Inv (step s l)) {s : σ} {ls : List ι}
    (hs : Inv s) (hls : Follows step G s ls) : Inv (run step s ls) := by
  induction ls generalizing s with
  | nil => exact hs
  | cons l ls ih => exact ih (hstep s l hs hls.1) hls.2

/-- What every allowed step satisfies in the states of an invariant, every step of a run does. -/
theorem follows_of_invariant (hstep : ∀ s l, Inv s → G s l → Inv (step s l))
    (hP : ∀ s l, Inv s → G s l → P s l) {s : σ} {ls : List ι}
    (hs : Inv s) (hls : Follows step G s ls) : Follows step P s ls := by
  induction ls generalizing s with
  | nil => trivial
  | cons l ls ih => exact ⟨hP s l hs hls.1, ih (hstep s l hs hls.1) hls.2⟩

/-- Two step conditions that agree in the states of an invariant, which they keep, hold of the
same runs among those that meet `G`. -/
theorem follows_congr (hPQ : ∀ s l, Inv s → G s l → (P s l ↔ Q s l))
    (hstep : ∀ s l, Inv s → G s l → Q s l → Inv (step s l)) {s : σ} {ls : List ι} (hs : Inv s)
    (hls : Follows step G s ls) : Follows step P s ls ↔ Follows step Q s ls := by
  induction ls generalizing s with
  | nil => simp
  | cons l ls ih =>
    rw [follows_cons, follows_cons, hPQ s l hs hls.1]
    exact and_congr_right fun hq => ih (hstep s l hs hls.1 hq) hls.2

theorem follows_true (s : σ) (ls : List ι) : Follows step (fun _ _ => True) s ls := by
  induction ls generalizing s with
  | nil => trivial
  | cons l ls ih => exact ⟨trivial, ih (step s l)⟩

theorem run_invariant' (hstep : ∀ s l, Inv s → Inv (step s l)) {s : σ} (hs : Inv s)
    (ls : List ι) : Inv (run step s ls) :=
  run_invariant Inv (fun s l h _ => hstep s l h) hs (follows_true s ls)

/-- A preorder that every allowed step moves up in relates the ends of every allowed run. -/
theorem run_related (R : σ → σ → Prop) (hrefl : ∀ s, R s s)
    (htrans : ∀ s t u, R s t → R t u → R s u) (hstep : ∀ s l, G s l → R s (step s l)) {s : σ}
    {ls : List ι} (hls : Follows step G s ls) : R s (run step s ls) := by
  induction ls generalizing s with
  | nil => exact hrefl s
  | cons l ls ih => exact htrans s (step s l) _ (hstep s l hls.1) (ih hls.2)

theorem concat_prefix_append_iff {α : Type} {pre xs ys : List α} {x : α} :
    pre ++ [x] <+: xs ++ ys ↔
      pre ++ [x] <+: xs ∨ ∃ mid, pre = xs ++ mid ∧ mid ++ [x] <+: ys := by
  constructor
  · intro h
    rcases List.prefix_or_prefix_of_prefix h (List.prefix_append xs ys) with hin | ⟨mid, hmid⟩
    · exact Or.inl hin
    · rcases List.eq_nil_or_concat mid with rfl | ⟨rest, y, rfl⟩
      · rw [List.append_nil] at hmid
        exact Or.inl (hmid ▸ List.prefix_refl _)
      · rw [← hmid, List.prefix_append_right_inj] at h
        rw [List.concat_eq_append, ← List.append_assoc] at hmid
        obtain ⟨hpre, hx⟩ := List.append_inj' hmid rfl
        rw [List.concat_eq_append, List.singleton_inj.mp hx] at h
        exact Or.inr ⟨rest, hpre.symm, h⟩
  · rintro (hin | ⟨mid, rfl, hmid⟩)
    · exact hin.trans (List.prefix_append xs ys)
    · rw [List.append_assoc, List.prefix_append_right_inj]
      exact hmid

theorem forall_concat_prefix_nil {α : Type} {Q : List α → α → Prop} :
    ∀ pre x, pre ++ [x] <+: ([] : List α) → Q pre x := by
  intro pre x hx
  have hnil := List.prefix_nil.mp hx
  simp at hnil

theorem forall_concat_prefix_singleton {α : Type} {Q : List α → α → Prop} {y : α} :
    (∀ pre x, pre ++ [x] <+: [y] → Q pre x) ↔ Q [] y := by
  constructor
  · intro h
    exact h [] y (List.prefix_refl _)
  · intro h pre x hx
    have hlength := hx.length_le
    rw [List.length_append, List.length_singleton, List.length_singleton] at hlength
    obtain rfl : pre = [] := List.eq_nil_of_length_eq_zero (by omega)
    obtain rfl : x = y := List.mem_singleton.mp (hx.subset (List.mem_singleton_self x))
    exact h

/-- A step condition that is about what the steps have put out so far holds of a run exactly where
it holds of each of the outputs, given those before it. -/
theorem follows_iff_outputs {α : Type} {out : σ → ι → List α} {Q : List α → α → Prop}
    (R : σ → List α → Prop) (hstep : ∀ s l given, R s given → R (step s l) (given ++ out s l))
    (hP : ∀ s l given, R s given →
      (P s l ↔ ∀ pre x, pre ++ [x] <+: out s l → Q (given ++ pre) x))
    {s : σ} {given : List α} (hs : R s given) (ls : List ι) :
    Follows step P s ls ↔
      ∀ pre x, pre ++ [x] <+: outputs step out s ls → Q (given ++ pre) x := by
  induction ls generalizing s given with
  | nil =>
    rw [outputs_nil]
    exact iff_of_true trivial forall_concat_prefix_nil
  | cons l ls ih =>
    rw [follows_cons, outputs_cons, hP s l given hs, ih (hstep s l given hs)]
    constructor
    · rintro ⟨hnow, hlater⟩ pre x hx
      rcases concat_prefix_append_iff.mp hx with hin | ⟨mid, rfl, hmid⟩
      · exact hnow pre x hin
      · rw [← List.append_assoc]
        exact hlater mid x hmid
    · intro hall
      refine ⟨fun pre x hx => hall pre x (concat_prefix_append_iff.mpr (Or.inl hx)), ?_⟩
      intro mid x hmid
      rw [List.append_assoc]
      exact hall _ x (concat_prefix_append_iff.mpr (Or.inr ⟨mid, rfl, hmid⟩))

/-- A machine each of whose steps is an allowed run of another one is simulated by it. -/
theorem run_simulated {τ κ : Type} {step' : τ → κ → τ} {G' : τ → κ → Prop} (R : σ → τ → Prop)
    (hinv : ∀ s l, Inv s → Inv (step s l))
    (hstep : ∀ s t l, Inv s → R s t →
      ∃ ks, Follows step' G' t ks ∧ R (step s l) (run step' t ks)) {s : σ} {t : τ} (hs : Inv s)
    (hR : R s t) (ls : List ι) : ∃ ks, Follows step' G' t ks ∧ R (run step s ls) (run step' t ks) := by
  induction ls generalizing s t with
  | nil => exact ⟨[], trivial, hR⟩
  | cons l ls ih =>
    obtain ⟨ks, hks, hone⟩ := hstep s t l hs hR
    obtain ⟨ks', hks', hrest⟩ := ih (hinv s l hs) hone
    refine ⟨ks ++ ks', (follows_append t ks ks').mpr ⟨hks, hks'⟩, ?_⟩
    rw [run_cons, run_append]
    exact hrest

/-- The run of `ls` from `s` has steps that meet the conditions of the list, in their order. -/
def Passes (step : σ → ι → σ) : List (σ → ι → Prop) → σ → List ι → Prop
  | [], _, _ => True
  | _ :: _, _, [] => False
  | M :: Ms, s, l :: ls => (M s l ∧ Passes step Ms (step s l) ls) ∨ Passes step (M :: Ms) (step s l) ls

theorem passes_nil (s : σ) (ls : List ι) : Passes step [] s ls := by
  cases ls <;> trivial

/-- Stages that allowed steps keep; an allowed step that meets the first condition leads from `P` to
the next stage, and so on up to `R`. -/
inductive Stages (step : σ → ι → σ) (G : σ → ι → Prop) :
    (σ → Prop) → List (σ → ι → Prop) → (σ → Prop) → Prop
  | last {P : σ → Prop} (keep : ∀ s l, P s → G s l → P (step s l)) : Stages step G P [] P
  | next {P Q R : σ → Prop} {M : σ → ι → Prop} {Ms : List (σ → ι → Prop)}
    (keep : ∀ s l, P s → G s l → P (step s l))
    (move : ∀ s l, P s → G s l → M s l → Q (step s l)) (rest : Stages step G Q Ms R) :
    Stages step G P (M :: Ms) R

/-- An allowed run that passes the conditions in order ends in the last stage. -/
theorem Stages.reached {P R : σ → Prop} {Ms : List (σ → ι → Prop)} (h : Stages step G P Ms R)
    {s : σ} {ls : List ι} (hs : P s) (hls : Follows step G s ls) (hpass : Passes step Ms s ls) :
    R (run step s ls) := by
  induction ls generalizing s P Ms with
  | nil =>
    cases h with
    | last keep => exact hs
    | next keep move rest => cases hpass
  | cons l ls ih =>
    cases h with
    | last keep => exact ih (Stages.last keep) (keep s l hs hls.1) hls.2 (passes_nil _ ls)
    | next keep move rest =>
      rcases hpass with ⟨hl, hrest⟩ | hlater
      · exact ih rest (move s l hs hls.1 hl) hls.2 hrest
      · exact ih (Stages.next keep move rest) (keep s l hs hls.1) hls.2 hlater

end PhysicalAiRuntime.Trace
