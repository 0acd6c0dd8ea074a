import Mathlib.Data.List.Perm.Basic
import PhysicalAiRuntime.Control.Exit

/-! The leases of a process over a whole run. Every lease a session takes is either held by an
entered session or was parted with: released, tried to be released, or recognised as displaced.
Nothing is commanded under a lease after that. -/
namespace PhysicalAiRuntime.Control
open Authority Provider
set_option autoImplicit false
set_option maxHeartbeats 250000
set_option linter.unusedSectionVars false

variable {ι : Type} [DecidableEq ι]

/-- How a session parts with its lease; `unsent` means that it could not ask for the release. -/
inductive Parting where
  | requested
  | unsent
  | displaced
  deriving DecidableEq, Repr

structure Settlement (ι : Type) where
  session : ι
  leaseId : String
  parting : Parting
  deriving DecidableEq

namespace World

def lease (w : World ι) (i : ι) : String := (w.session i).leaseId.getD ""

def releaseParting (leaseId : String) (answer : ReleaseAnswer) : Parting :=
  if leaseId ≠ "" ∧ answer.sends = true then .requested else .unsent

/-- The leases of the entered sessions. -/
def held (w : World ι) : List String := w.controlStack.map w.lease

/-- The lease that a step takes. -/
def takes (w : World ι) : Label ι → List String
  | .enter i answer =>
    if (w.session i).entered then []
    else match claimFor (w.session i) answer with
      | .ok grant => [grant.leaseId]
      | .error _ => []
  | _ => []

/-- The lease that a step parts with: at the end of an exit, or of an entry that timed out. -/
def settles (w : World ι) : Label ι → List (Settlement ι)
  | .exit i _ answer =>
    [⟨i, w.lease i, if w.isExplicitlyDisplaced i then .displaced
      else releaseParting (w.lease i) answer⟩]
  | .poll i answer =>
    match w.waiting i with
    | none => []
    | some deadline =>
      if w.active i = false ∧ deadline ≤ w.now then
        [⟨i, w.lease i, releaseParting (w.lease i) answer⟩]
      else []
  | _ => []

/-! ## The steps that part with a lease -/

theorem releaseClaim_parts (w : World ι) (i : ι) (answer : ReleaseAnswer) :
    (w.releaseClaim i answer).1.released = w.released ++
      if releaseParting (w.lease i) answer = .requested then [w.lease i] else [] := by
  unfold releaseParting lease
  cases hl : (w.session i).leaseId with
  | none =>
    unfold releaseClaim
    rw [hl]
    simp
  | some leaseId =>
    rw [releaseClaim_released w i answer hl, Option.getD_some]
    by_cases hs : leaseId ≠ "" ∧ answer.sends = true
    · rw [if_pos hs, if_pos hs, if_pos rfl]
    · rw [if_neg hs, if_neg hs, if_neg (by decide)]

theorem exitRelease_parts (w : World ι) (i : ι) (answer : ReleaseAnswer) :
    (w.exitRelease i answer).1.released = w.released ++
      if (if w.isExplicitlyDisplaced i then Parting.displaced
        else releaseParting (w.lease i) answer) = .requested then [w.lease i] else [] := by
  cases hd : w.isExplicitlyDisplaced i with
  | true =>
    rw [exitRelease_displaced hd, if_pos rfl, if_neg (by decide), List.append_nil]
    rfl
  | false =>
    have hx : w.exitRelease i answer = w.releaseClaim i answer := by simp [exitRelease, hd]
    rw [hx, releaseClaim_parts, if_neg Bool.false_ne_true]

theorem poll_idle {w : World ι} {i : ι} (answer : ReleaseAnswer) (hw : w.waiting i = none) :
    w.settles (.poll i answer) = [] ∧ w.step (.poll i answer) = w := by
  refine ⟨by simp [settles, hw], ?_⟩
  change w.poll i answer = w
  simp [poll, hw]

theorem poll_waiting {w : World ι} {i : ι} {deadline : ℚ} (answer : ReleaseAnswer)
    (hw : w.waiting i = some deadline) :
    w.settles (.poll i answer) = (if w.active i = false ∧ deadline ≤ w.now then
      [⟨i, w.lease i, releaseParting (w.lease i) answer⟩] else []) ∧
    w.step (.poll i answer) = (w.enterPoll i deadline answer).1 := by
  refine ⟨by simp [settles, hw], ?_⟩
  change w.poll i answer = _
  simp [poll, hw]

/-- The step neither takes a lease nor parts with one. -/
structure Neutral (w : World ι) (l : Label ι) : Prop where
  takes : w.takes l = []
  settles : w.settles l = []
  keeps : KeepsSessions w (w.step l)
  released : (w.step l).released = w.released

theorem neutral_of_unchanged {w : World ι} {l : Label ι} (ht : w.takes l = [])
    (hs : w.settles l = []) (h : w.step l = w) : w.Neutral l where
  takes := ht
  settles := hs
  keeps := by
    rw [h]
    exact KeepsSessions.refl w
  released := by rw [h]

/-- The step is an entry of session `i` whose claim was granted. -/
structure Takes (w : World ι) (l : Label ι) (i : ι) (g : LeaseGrant) : Prop where
  takes : w.takes l = [g.leaseId]
  settles : w.settles l = []
  notEntered : (w.session i).entered = false
  step : w.step l = (w.recordGrant i g).beginWait i
    { (w.session i).client with leaseId := g.leaseId, bindings := g.endpoints }

/-- The step runs `leave` on session `i`, after `w'` that has only other requests sent and other
diagnostics than `w`. -/
structure Parts (w : World ι) (l : Label ι) (i : ι) (p : Parting) (w' : World ι) : Prop where
  takes : w.takes l = []
  settles : w.settles l = [⟨i, w.lease i, p⟩]
  keeps : KeepsSessions w w'
  released : w'.released = w.released ++ if p = .requested then [w.lease i] else []
  step : ∃ waiting, w.step l = { (w'.leave i).1 with waiting := waiting }

theorem step_ledger {w : World ι} (h : w.Inv) (l : Label ι) :
    w.Neutral l ∨ (∃ i g, w.Takes l i g) ∨ ∃ i p w', w.Parts l i p w' := by
  cases l with
  | callback c => exact Or.inl ⟨rfl, rfl, callback_keeps w c, by cases c <;> rfl⟩
  | enter i answer =>
    rcases enterClaim_cases w i answer with ⟨hno, e, hc⟩ | ⟨g, hg, hf, ⟨hne, -⟩ | ⟨-, hc⟩⟩
    · have hs : w.step (.enter i answer) = w := congrArg Prod.fst hc
      refine Or.inl (neutral_of_unchanged ?_ rfl hs)
      unfold World.takes
      rcases hno with he | ⟨e, he⟩
      · simp [he]
      · cases (w.session i).entered <;> simp [he]
    · exact absurd ((h i).unbound hf).leaseId hne
    · exact Or.inr (Or.inl ⟨i, g, by simp [World.takes, hf, hg], rfl, hf, congrArg Prod.fst hc⟩)
  | poll i answer =>
    cases hw : w.waiting i with
    | none =>
      obtain ⟨hs, hp⟩ := poll_idle answer hw
      exact Or.inl (neutral_of_unchanged rfl hs hp)
    | some deadline =>
      obtain ⟨hs, hp⟩ := poll_waiting answer hw
      rcases enterPoll_cases w i deadline answer with ⟨ha, hx⟩ | ⟨ha, hlt, hx⟩ | ⟨ha, hle, e, hx⟩
      · rw [if_neg (by simp [ha])] at hs
        rw [hx] at hp
        exact Or.inl ⟨rfl, hs, by
          rw [hp]
          exact ⟨rfl, rfl, rfl, rfl, fun j => Session.Keeps.refl (w.session j)⟩, by rw [hp]⟩
      · rw [if_neg (by simp [hlt])] at hs
        rw [hx] at hp
        exact Or.inl (neutral_of_unchanged rfl hs hp)
      · rw [if_pos ⟨ha, hle⟩] at hs
        rw [hx] at hp
        exact Or.inr (Or.inr ⟨i, _, (w.releaseClaim i answer).1, rfl, hs,
          releaseClaim_keeps w i answer, releaseClaim_parts w i answer, _, hp⟩)
  | exit i bodyRaised answer =>
    exact Or.inr (Or.inr ⟨i, _, (w.exitRelease i answer).1, rfl, rfl,
      exitRelease_keeps w i answer, exitRelease_parts w i answer, _,
      exit_fst w i bodyRaised answer⟩)
  | act i action observation now =>
    refine Or.inl ⟨rfl, rfl, act_keeps w i action observation now, ?_⟩
    change (w.act i action observation now).1.released = w.released
    rcases act_cases w i action observation now with hx | ⟨d, hx⟩ | ⟨client, p, -, -, -, hx⟩
    · rw [hx]
    · rw [hx]
      rfl
    · rw [hx]
      rfl
  | execute i part plan observation now answer =>
    refine Or.inl ⟨rfl, rfl, execute_keeps w i part plan observation now answer, ?_⟩
    change (w.execute i part plan observation now answer).1.released = w.released
    rcases execute_cases w i part plan observation now answer with hx | ⟨d, goals, -, -, hx⟩
    · rw [hx]
    · rw [hx]
      rfl
  | waitPlan i part answer => exact Or.inl ⟨rfl, rfl, waitPlan_keeps w i part answer, rfl⟩
  | cancelPlan i part answer => exact Or.inl ⟨rfl, rfl, cancelPlan_keeps w i part answer, rfl⟩

/-! ## The ledger of one step -/

theorem KeepsSessions.lease {w w' : World ι} (h : KeepsSessions w w') : w'.lease = w.lease := by
  funext i
  unfold World.lease
  rw [(h.session i).leaseId]

theorem KeepsSessions.held {w w' : World ι} (h : KeepsSessions w w') : w'.held = w.held := by
  unfold World.held
  rw [h.controlStack, h.lease]

theorem lease_leave (w : World ι) (i : ι) : (w.leave i).1.lease = w.lease := by
  funext j
  exact congrArg (Option.getD · "") ((sameLeases_leave w i).leaseId j)

/-- `leave` takes its session off the stack, or is refused and keeps the stack. -/
theorem held_leave (w : World ι) (i : ι) :
    ((w.leave i).1.popRefusals = w.popRefusals ∧ w.held = (w.leave i).1.held ++ [w.lease i]) ∨
    ((w.leave i).1.popRefusals = w.popRefusals + 1 ∧ (w.leave i).1.held = w.held) := by
  have hlease := lease_leave w i
  by_cases hl : w.controlStack.getLast? = some i
  · obtain ⟨outer, ho⟩ := List.getLast?_eq_some_iff.mp hl
    have hd : w.controlStack.dropLast = outer := by simp [ho]
    refine Or.inl ⟨by rw [leave_last hl]; rfl, ?_⟩
    have hstack : (w.leave i).1.controlStack = outer := by
      rw [leave_last hl]
      exact hd
    unfold World.held
    rw [hstack, hlease, ho, List.map_append, List.map_singleton]
  · have hstack : (w.leave i).1.controlStack = w.controlStack := by
      rw [leave_refused hl]
      rfl
    refine Or.inr ⟨by rw [leave_refused hl], ?_⟩
    unfold World.held
    rw [hstack, hlease]

theorem Takes.held {w : World ι} {l : Label ι} {i : ι} {g : LeaseGrant} (h : w.Takes l i g)
    (hstack : w.StackInv) : (w.step l).held = w.held ++ [g.leaseId] := by
  have hni : i ∉ w.controlStack := by
    rw [← hstack.entered i, h.notEntered]
    exact Bool.false_ne_true
  have ht : TakesLease w (w.step l) i g.leaseId := by
    rw [h.step]
    exact (takesLease_recordGrant w i g).beginWait _
  have hc : (w.step l).controlStack = w.controlStack ++ [i] := by
    rw [h.step]
    rfl
  have hi : (w.step l).lease i = g.leaseId := by
    unfold World.lease
    rw [ht.leaseId, Option.getD_some]
  have hmap : w.controlStack.map (w.step l).lease = w.controlStack.map w.lease := by
    refine List.map_congr_left fun j hj => ?_
    have hne : j ≠ i := fun he => hni (he ▸ hj)
    exact congrArg (Option.getD · "") (ht.otherLease j hne)
  unfold World.held
  rw [hc, List.map_append, List.map_singleton, hi, hmap]

/-- A step loses no lease, and parts with none twice unless a pop was refused. -/
structure Balanced (w : World ι) (l : Label ι) : Prop where
  popRefusals : w.popRefusals ≤ (w.step l).popRefusals
  kept : ∀ leaseId ∈ w.held ++ w.takes l,
    leaseId ∈ (w.step l).held ++ (w.settles l).map Settlement.leaseId
  perm : (w.step l).popRefusals = w.popRefusals →
    (w.held ++ w.takes l).Perm ((w.step l).held ++ (w.settles l).map Settlement.leaseId)
  released : (w.step l).released = w.released ++
    ((w.settles l).filter fun s => s.parting = .requested).map Settlement.leaseId

theorem Balanced.of_perm {w : World ι} {l : Label ι}
    (hp : w.popRefusals ≤ (w.step l).popRefusals)
    (h : (w.held ++ w.takes l).Perm ((w.step l).held ++ (w.settles l).map Settlement.leaseId))
    (hr : (w.step l).released = w.released ++
      ((w.settles l).filter fun s => s.parting = .requested).map Settlement.leaseId) :
    w.Balanced l :=
  ⟨hp, fun _ hm => h.mem_iff.mp hm, fun _ => h, hr⟩

theorem Parts.balanced {w w' : World ι} {l : Label ι} {i : ι} {p : Parting}
    (h : w.Parts l i p w') : w.Balanced l := by
  obtain ⟨waiting, hstep⟩ := h.step
  have hheld : (w.step l).held = (w'.leave i).1.held := by rw [hstep]; rfl
  have hpop : (w.step l).popRefusals = (w'.leave i).1.popRefusals := by rw [hstep]
  have hreleased : (w.step l).released = w.released ++
      ((w.settles l).filter fun s => s.parting = .requested).map Settlement.leaseId := by
    have hleave : (w.step l).released = w'.released := by
      rw [hstep]
      exact leave_released w' i
    rw [hleave, h.released, h.settles]
    by_cases hp : p = .requested
    · rw [if_pos hp, List.filter_cons_of_pos (by simp [hp])]
      rfl
    · rw [if_neg hp, List.filter_cons_of_neg (by simp [hp])]
      rfl
  have hleave := held_leave w' i
  rw [← hpop, ← hheld, h.keeps.popRefusals, h.keeps.held, h.keeps.lease] at hleave
  rcases hleave with ⟨hsame, hlast⟩ | ⟨hmore, hsame⟩
  · refine Balanced.of_perm (le_of_eq hsame.symm) ?_ hreleased
    rw [h.takes, h.settles, List.append_nil, List.map_singleton, hlast]
  · refine ⟨by omega, fun leaseId hm => ?_, fun heq => by omega, hreleased⟩
    rw [h.takes, List.append_nil] at hm
    rw [hsame]
    exact List.mem_append_left _ hm

theorem step_balanced {w : World ι} (h : w.Inv) (hstack : w.StackInv) (l : Label ι) :
    w.Balanced l := by
  rcases step_ledger h l with hn | ⟨i, g, ht⟩ | ⟨i, p, w', hp⟩
  · refine Balanced.of_perm (le_of_eq hn.keeps.popRefusals.symm) ?_ ?_
    · rw [hn.takes, hn.settles, hn.keeps.held, List.map_nil]
    · rw [hn.released, hn.settles]
      exact (List.append_nil _).symm
  · have hpop : (w.step l).popRefusals = w.popRefusals := by
      rw [ht.step]
      rfl
    refine Balanced.of_perm (le_of_eq hpop.symm) ?_ ?_
    · rw [ht.takes, ht.settles, ht.held hstack, List.map_nil, List.append_nil]
    · rw [ht.step, ht.settles]
      exact (List.append_nil _).symm
  · exact hp.balanced

/-! ## The ledger of a run -/

/-- The leases taken in a run, and the settlements of it, in order. -/
def taken (w : World ι) (ls : List (Label ι)) : List String := Trace.outputs step takes w ls

def settlements (w : World ι) (ls : List (Label ι)) : List (Settlement ι) :=
  Trace.outputs step settles w ls

theorem popRefusals_run {w : World ι} (h : w.Inv) (hstack : w.StackInv) (ls : List (Label ι)) :
    w.popRefusals ≤ (Trace.run step w ls).popRefusals := by
  induction ls generalizing w with
  | nil => exact le_refl _
  | cons l ls ih =>
    have hstep := (step_balanced h hstack l).popRefusals
    exact hstep.trans (ih (inv_step h l) (stackInv_step hstack l))

theorem kept_run {w : World ι} (h : w.Inv) (hstack : w.StackInv) (ls : List (Label ι)) :
    ∀ leaseId ∈ w.held ++ w.taken ls, leaseId ∈ (Trace.run step w ls).held ++
      (w.settlements ls).map Settlement.leaseId := by
  induction ls generalizing w with
  | nil =>
    intro leaseId hm
    exact hm
  | cons l ls ih =>
    intro leaseId hm
    have hrest := ih (inv_step h l) (stackInv_step hstack l) leaseId
    have hone := (step_balanced h hstack l).kept leaseId
    unfold settlements at hrest ⊢
    unfold taken at hm hrest
    rw [Trace.outputs_cons] at hm ⊢
    rw [Trace.run_cons]
    simp only [List.mem_append, List.map_append] at hm hrest hone ⊢
    grind

theorem released_run {w : World ι} (h : w.Inv) (hstack : w.StackInv) (ls : List (Label ι)) :
    (Trace.run step w ls).released = w.released ++
      ((w.settlements ls).filter fun s => s.parting = .requested).map Settlement.leaseId := by
  induction ls generalizing w with
  | nil => exact (List.append_nil _).symm
  | cons l ls ih =>
    have hrest := ih (inv_step h l) (stackInv_step hstack l)
    rw [(step_balanced h hstack l).released] at hrest
    rw [Trace.run_cons, hrest]
    unfold settlements
    rw [Trace.outputs_cons, List.filter_append, List.map_append, List.append_assoc]

theorem perm_run {w : World ι} (h : w.Inv) (hstack : w.StackInv) (ls : List (Label ι))
    (horder : (Trace.run step w ls).popRefusals = w.popRefusals) :
    (w.held ++ w.taken ls).Perm ((Trace.run step w ls).held ++
      (w.settlements ls).map Settlement.leaseId) := by
  induction ls generalizing w with
  | nil => exact List.Perm.refl _
  | cons l ls ih =>
    have hb := step_balanced h hstack l
    have hmono := popRefusals_run (inv_step h l) (stackInv_step hstack l) ls
    rw [Trace.run_cons] at horder ⊢
    have hp := hb.popRefusals
    have hone := hb.perm (by omega)
    have hrest := ih (inv_step h l) (stackInv_step hstack l) (by omega)
    unfold taken settlements at hrest ⊢
    rw [Trace.outputs_cons, Trace.outputs_cons, List.map_append]
    rw [← List.append_assoc]
    have hswap : ∀ xs ys zs : List String, (xs ++ ys ++ zs).Perm (xs ++ zs ++ ys) := by
      intro xs ys zs
      rw [List.append_assoc, List.append_assoc]
      exact List.perm_append_comm.append_left xs
    refine (hone.append_right _).trans ((hswap _ _ _).trans ?_)
    refine (hrest.append_right _).trans ?_
    rw [← List.append_assoc]
    exact hswap _ _ _

/-- **Lease ledger.** Over any run, every lease a session took is the lease of an entered session
or was parted with, and the release requests sent are the requested settlements, in order. While
no pop was refused, each lease taken is in exactly one of the two places. -/
theorem lease_ledger (now : ℚ) (timeouts : Timeouts) (config : ι → SessionConfig)
    (sourceClient : ι → ActionProviderClient) (ls : List (Label ι)) :
    let w := init now timeouts config sourceClient
    let w' := Trace.run step w ls
    (∀ leaseId ∈ w.taken ls, leaseId ∈ w'.held ∨ ∃ s ∈ w.settlements ls, s.leaseId = leaseId) ∧
    w'.released =
      ((w.settlements ls).filter fun s => s.parting = .requested).map Settlement.leaseId ∧
    (w'.popRefusals = 0 →
      (w.taken ls).Perm (w'.held ++ (w.settlements ls).map Settlement.leaseId)) := by
  intro w w'
  have hinv : w.Inv := inv_init now timeouts config sourceClient
  have hstack : w.StackInv := stackInv_init now timeouts config sourceClient
  refine ⟨fun leaseId hm => ?_, ?_, fun horder => ?_⟩
  · have hk := kept_run hinv hstack ls leaseId (List.mem_append_right _ hm)
    rcases List.mem_append.mp hk with hheld | hsettled
    · exact Or.inl hheld
    · exact Or.inr (List.mem_map.mp hsettled)
  · exact released_run hinv hstack ls
  · exact perm_run hinv hstack ls horder

/-! ## Commands -/

/-- Some session has the lease and a client that is bound. -/
def CanCommand (w : World ι) (leaseId : String) : Prop :=
  leaseId ≠ "" ∧ ∃ i, (w.session i).leaseId = some leaseId ∧ ¬ (w.session i).client.Unbound

structure SameCommands (w w' : World ι) : Prop where
  published : w'.published = w.published
  dispatched : w'.dispatched = w.dispatched

theorem SameCommands.trans {w w' w'' : World ι} (h : SameCommands w w')
    (h' : SameCommands w' w'') : SameCommands w w'' :=
  ⟨h'.published.trans h.published, h'.dispatched.trans h.dispatched⟩

theorem SameCommands.refl (w : World ι) : SameCommands w w := ⟨rfl, rfl⟩

theorem sameCommands_callback (w : World ι) (c : Callback) : SameCommands w (w.callback c) := by
  cases c <;> exact ⟨rfl, rfl⟩

theorem sameCommands_callbacks (w : World ι) (cs : List Callback) :
    SameCommands w (cs.foldl callback w) := by
  induction cs generalizing w with
  | nil => exact SameCommands.refl w
  | cons c cs ih => exact (sameCommands_callback w c).trans (ih (w.callback c))

theorem sameCommands_enterClaim (w : World ι) (i : ι) (answer : ClaimAnswer) :
    SameCommands w (w.enterClaim i answer).1 := by
  rcases enterClaim_cases w i answer with ⟨-, e, hc⟩ | ⟨g, -, -, ⟨-, e, hc⟩ | ⟨-, hc⟩⟩
  · rw [hc]
    exact ⟨rfl, rfl⟩
  · rw [hc]
    exact ⟨rfl, rfl⟩
  · rw [hc]
    exact ⟨rfl, rfl⟩

theorem sameCommands_leave (w : World ι) (i : ι) : SameCommands w (w.leave i).1 := by
  by_cases hl : w.controlStack.getLast? = some i
  · rw [leave_last hl]
    exact ⟨rfl, rfl⟩
  · rw [leave_refused hl]
    exact ⟨rfl, rfl⟩

theorem sameCommands_releaseClaim (w : World ι) (i : ι) (answer : ReleaseAnswer) :
    SameCommands w (w.releaseClaim i answer).1 := by
  obtain ⟨sent, hs⟩ := releaseClaim_fst w i answer
  rw [hs]
  exact ⟨rfl, rfl⟩

theorem sameCommands_enterPoll (w : World ι) (i : ι) (deadline : ℚ) (answer : ReleaseAnswer) :
    SameCommands w (w.enterPoll i deadline answer).1 := by
  rcases enterPoll_cases w i deadline answer with ⟨-, h⟩ | ⟨-, -, h⟩ | ⟨-, -, e, h⟩
  · rw [h]
    exact ⟨rfl, rfl⟩
  · rw [h]
    exact ⟨rfl, rfl⟩
  · have hl := (sameCommands_releaseClaim w i answer).trans
      (sameCommands_leave (w.releaseClaim i answer).1 i)
    rw [h]
    exact ⟨hl.published, hl.dispatched⟩

theorem sameCommands_awaitActive {i : ι} {deadline : ℚ} {answer : ReleaseAnswer} {w w' : World ι}
    {history : List (List Callback)} {result : Except PyError Unit}
    (h : awaitActive i deadline answer w history = some (w', result)) : SameCommands w w' := by
  induction history generalizing w with
  | nil =>
    unfold awaitActive at h
    have hpoll := sameCommands_enterPoll w i deadline answer
    split at h
    · next w1 r hlook =>
      rw [hlook] at hpoll
      cases h
      exact hpoll
    · cases h
  | cons sleep history ih =>
    unfold awaitActive at h
    have hpoll := sameCommands_enterPoll w i deadline answer
    split at h
    · next w1 r hlook =>
      rw [hlook] at hpoll
      cases h
      exact hpoll
    · next w1 hlook =>
      rw [hlook] at hpoll
      exact (hpoll.trans (sameCommands_callbacks w1 sleep)).trans (ih h)

/-- An entry sends no command, however it ends. -/
theorem sameCommands_enter {w w' : World ι} {i : ι} {claim : ClaimAnswer}
    {history : List (List Callback)} {release : ReleaseAnswer} {result : Except PyError Unit}
    (h : w.enter i claim history release = some (w', result)) : SameCommands w w' := by
  unfold enter at h
  have hclaim := sameCommands_enterClaim w i claim
  split at h
  · next w1 e hentered =>
    rw [hentered] at hclaim
    cases h
    exact hclaim
  · next w1 hentered =>
    rw [hentered] at hclaim
    exact hclaim.trans (sameCommands_awaitActive h)

theorem sameCommands_exit (w : World ι) (i : ι) (bodyRaised : Bool) (answer : ReleaseAnswer) :
    SameCommands w (w.exit i bodyRaised answer).1 := by
  rw [exit_fst]
  refine SameCommands.trans ?_ (sameCommands_leave (w.exitRelease i answer).1 i)
  rcases exitRelease_fst w i answer with ⟨d, h⟩ | ⟨sent, h⟩
  · rw [h]
    exact ⟨rfl, rfl⟩
  · rw [h]
    exact ⟨rfl, rfl⟩

/-- A client that holds a lease holds that of its session. -/
theorem client_lease {w : World ι} (h : w.Inv) {i : ι}
    (hne : (w.session i).client.leaseId ≠ "") :
    (w.session i).leaseId = some (w.session i).client.leaseId := by
  rcases (h i).client with hu | ⟨he, g, hg, hb⟩
  · exact absurd hu.leaseId hne
  · obtain ⟨g', hg', hl⟩ := (h i).record he
    rw [hg] at hg'
    cases hg'
    rw [hl, hb.leaseId]

theorem canCommand_client {w : World ι} (h : w.Inv) {i : ι}
    (hne : (w.session i).client.leaseId ≠ "") : w.CanCommand (w.session i).client.leaseId :=
  ⟨hne, i, client_lease h hne, fun hu => hne hu.leaseId⟩

/-- A dispatched goal carries the lease of the client that started it. -/
theorem startJointTrajectory_goal {c : ActionProviderClient} {part : String}
    {trajectory : ActionValue} {jointNames : List String} {now : Stamp}
    {answer : ActionProviderClient.StartAnswer} {goal : Goal}
    (h : (c.startJointTrajectory part trajectory jointNames now answer).2.1 = some goal) :
    goal.leaseId = c.leaseId ∧ c.leaseId ≠ "" := by
  unfold ActionProviderClient.startJointTrajectory at h
  cases hc : c.startCheck part trajectory jointNames with
  | error e =>
    rw [hc] at h
    cases h
  | ok r =>
    obtain ⟨b, hb, -⟩ := except_bind_ok hc
    have hlease : r.1.leaseId = c.leaseId :=
      (ActionProviderClient.startCheck_sameStreams hc).leaseId
    have hgoal : r.1.startDispatch part r.2 now = goal := by
      simp only [hc] at h
      cases answer with
      | answered handle => cases ha : r.1.startAccept part handle <;> simpa [ha] using h
      | serverUnavailable => cases h
      | dispatchRaised e => cases h
      | acceptTimedOut => exact Option.some.inj h
      | acceptRaised e => exact Option.some.inj h
    rw [← hgoal]
    exact ⟨hlease, (ActionProviderClient.requireBinding_ok hb).1⟩

theorem agentExecute_goal {a : Agent} {part : String} {plan : ActionValue}
    {client : ActionProviderClient} {now : Stamp} {answer : ActionProviderClient.StartAnswer}
    {goal : Goal} (h : (a.execute part plan client now answer).2.1 = some goal) :
    goal.leaseId = client.leaseId ∧ client.leaseId ≠ "" := by
  unfold Agent.execute at h
  cases hx : a.executeChecks part plan with
  | error e =>
    rw [hx] at h
    cases h
  | ok names =>
    rw [hx] at h
    exact startJointTrajectory_goal h

theorem execute_dispatched (w : World ι) (i : ι) (part : String) (plan : ActionValue)
    (observation : Option Observation) (now : Stamp)
    (answer : ActionProviderClient.StartAnswer) :
    (w.execute i part plan observation now answer).1.dispatched = w.dispatched ∨
    (w.execute i part plan observation now answer).1.dispatched = w.dispatched ++
      ((w.session i).config.source.execute part plan (w.session i).client now
        answer).2.1.toList := by
  unfold execute
  by_cases hp : part ∈ (w.session i).config.parts
  · cases ha : w.activeFor i part with
    | false => exact Or.inl (by simp [hp])
    | true =>
      cases hs : staleObservation (w.session i) part observation with
      | true => exact Or.inl (by simp [hp, hs])
      | false =>
        cases hx : (w.session i).config.source.execute part plan (w.session i).client now
          answer with
        | mk client r =>
          obtain ⟨goal, result⟩ := r
          cases result with
          | error e => exact Or.inr (by simp [hp, hs, hx])
          | ok handle => exact Or.inr (by simp [hp, hs, hx, setSession])
  · exact Or.inl (by simp [hp])

/-- What a step commands, it commands under a lease that some session can command under. -/
theorem step_commands {w : World ι} (h : w.Inv) (l : Label ι) :
    ∃ ps gs, (w.step l).published = w.published ++ ps ∧
      (w.step l).dispatched = w.dispatched ++ gs ∧
      (∀ p ∈ ps, w.CanCommand p.envelope.leaseId) ∧ ∀ g ∈ gs, w.CanCommand g.leaseId := by
  have hsame : SameCommands w (w.step l) → ∃ ps gs, (w.step l).published = w.published ++ ps ∧
      (w.step l).dispatched = w.dispatched ++ gs ∧
      (∀ p ∈ ps, w.CanCommand p.envelope.leaseId) ∧ ∀ g ∈ gs, w.CanCommand g.leaseId := by
    intro hs
    refine ⟨[], [], ?_, ?_, List.forall_mem_nil _, List.forall_mem_nil _⟩
    · rw [hs.published, List.append_nil]
    · rw [hs.dispatched, List.append_nil]
  cases l with
  | callback c => exact hsame (sameCommands_callback w c)
  | enter i answer => exact hsame (sameCommands_enterClaim w i answer)
  | poll i answer =>
    apply hsame
    change SameCommands w (w.poll i answer)
    unfold poll
    cases w.waiting i with
    | none => exact ⟨rfl, rfl⟩
    | some deadline => exact sameCommands_enterPoll w i deadline answer
  | exit i bodyRaised answer => exact hsame (sameCommands_exit w i bodyRaised answer)
  | act i action observation now =>
    rcases act_cases w i action observation now with ha | ⟨d, ha⟩ | ⟨client, p, hs, -, -, ha⟩
    · exact hsame ⟨congrArg World.published ha, congrArg World.dispatched ha⟩
    · exact hsame ⟨(congrArg World.published ha).trans rfl, (congrArg World.dispatched ha).trans rfl⟩
    · obtain ⟨hne, hlease, -⟩ := ActionProviderClient.send_ok (agentSend_ok hs)
      refine ⟨[p], [], congrArg World.published ha, ?_, fun q hq => ?_, List.forall_mem_nil _⟩
      · rw [List.append_nil]
        exact (congrArg World.dispatched ha).trans rfl
      · rw [List.mem_singleton] at hq
        rw [hq, hlease]
        exact canCommand_client h hne
  | execute i part plan observation now answer =>
    have hpub := execute_published w i part plan observation now answer
    rcases execute_dispatched w i part plan observation now answer with hd | hd
    · exact hsame ⟨hpub, hd⟩
    · refine ⟨[], _, ?_, hd, List.forall_mem_nil _, fun g hg => ?_⟩
      · rw [List.append_nil]
        exact hpub
      · obtain ⟨hlease, hne⟩ := agentExecute_goal (Option.mem_toList.mp hg)
        rw [hlease]
        exact canCommand_client h hne
  | waitPlan i part answer => exact hsame ⟨rfl, rfl⟩
  | cancelPlan i part answer => exact hsame ⟨rfl, rfl⟩

/-! ## Silence after a settlement -/

/-- No session with the lease can command: whoever has it is unbound. -/
def Silent (leaseId : String) (w : World ι) : Prop :=
  leaseId = "" ∨ ∀ i, (w.session i).leaseId = some leaseId → (w.session i).client.Unbound

/-- Sessions have leases that were taken, no two the same one. -/
structure OwnLeases (given : List String) (w : World ι) : Prop where
  known : ∀ i leaseId, (w.session i).leaseId = some leaseId → leaseId ∈ given
  unique : ∀ i j leaseId, (w.session i).leaseId = some leaseId →
    (w.session j).leaseId = some leaseId → i = j

theorem Silent.of_keeps {leaseId : String} {w w' : World ι} (h : Silent leaseId w)
    (hk : KeepsSessions w w') : Silent leaseId w' := by
  rcases h with h | h
  · exact Or.inl h
  · refine Or.inr fun i hi => (hk.session i).unbound (h i ?_)
    rw [← (hk.session i).leaseId]
    exact hi

theorem silent_leave {leaseId : String} {w : World ι} {i : ι}
    (h : ∀ j, j ≠ i → (w.session j).leaseId = some leaseId → (w.session j).client.Unbound) :
    Silent leaseId (w.leave i).1 := by
  refine Or.inr fun j hj => ?_
  by_cases hji : j = i
  · rw [hji, leave_session]
    by_cases hl : w.controlStack.getLast? = some i
    · rw [if_pos hl]
      exact ActionProviderClient.unbound_unbind _
    · rw [if_neg hl]
      exact ActionProviderClient.unbound_unbind _
  · rw [(sameElsewhere_leave w i).session j hji] at hj ⊢
    exact h j hji hj

theorem OwnLeases.of_same {given : List String} {w w' : World ι} (h : OwnLeases given w)
    (hs : ∀ i, (w'.session i).leaseId = (w.session i).leaseId) : OwnLeases given w' where
  known i leaseId hi := h.known i leaseId (hs i ▸ hi)
  unique i j leaseId hi hj := h.unique i j leaseId (hs i ▸ hi) (hs j ▸ hj)

theorem Parts.leaseId {w w' : World ι} {l : Label ι} {i : ι} {p : Parting}
    (h : w.Parts l i p w') (j : ι) :
    ((w.step l).session j).leaseId = (w.session j).leaseId := by
  obtain ⟨waiting, hstep⟩ := h.step
  rw [hstep]
  exact ((sameLeases_leave w' i).leaseId j).trans (h.keeps.session j).leaseId

theorem Takes.takesLease {w : World ι} {l : Label ι} {i : ι} {g : LeaseGrant}
    (h : w.Takes l i g) : TakesLease w (w.step l) i g.leaseId := by
  rw [h.step]
  exact (takesLease_recordGrant w i g).beginWait _

theorem ownLeases_step {given : List String} {w : World ι} (h : w.Inv) (ho : OwnLeases given w)
    {l : Label ι} (hnew : ∀ leaseId ∈ w.takes l, leaseId ∉ given) :
    OwnLeases (given ++ w.takes l) (w.step l) := by
  rcases step_ledger h l with hn | ⟨i, g, ht⟩ | ⟨i, p, w', hp⟩
  · rw [hn.takes, List.append_nil]
    exact ho.of_same fun i => (hn.keeps.session i).leaseId
  · have hl := ht.takesLease
    have hfresh : g.leaseId ∉ given := hnew _ (by rw [ht.takes]; exact List.mem_singleton_self _)
    have hother : ∀ j leaseId, j ≠ i → ((w.step l).session j).leaseId = some leaseId →
        leaseId ∈ given := by
      intro j leaseId hj hlease
      rw [hl.otherLease j hj] at hlease
      exact ho.known j leaseId hlease
    rw [ht.takes]
    refine ⟨fun j leaseId hj => ?_, fun j k leaseId hj hk => ?_⟩
    · by_cases hji : j = i
      · rw [hji, hl.leaseId] at hj
        cases hj
        exact List.mem_append_right _ (List.mem_singleton_self _)
      · exact List.mem_append_left _ (hother j leaseId hji hj)
    · by_cases hji : j = i
      · by_cases hki : k = i
        · rw [hji, hki]
        · rw [hji, hl.leaseId] at hj
          cases hj
          exact absurd (hother k _ hki hk) hfresh
      · by_cases hki : k = i
        · rw [hki, hl.leaseId] at hk
          cases hk
          exact absurd (hother j _ hji hj) hfresh
        · rw [hl.otherLease j hji] at hj
          rw [hl.otherLease k hki] at hk
          exact ho.unique j k leaseId hj hk
  · rw [hp.takes, List.append_nil]
    exact ho.of_same hp.leaseId

theorem lease_some {w : World ι} {i : ι} (h : w.lease i ≠ "") :
    (w.session i).leaseId = some (w.lease i) := by
  unfold World.lease at h ⊢
  cases hi : (w.session i).leaseId with
  | none =>
    rw [hi] at h
    exact absurd rfl h
  | some leaseId => rfl

theorem settles_lease {w : World ι} (h : w.Inv) {l : Label ι} {s : Settlement ι}
    (hs : s ∈ w.settles l) : ∃ i, s.leaseId = w.lease i := by
  rcases step_ledger h l with hn | ⟨i, g, ht⟩ | ⟨i, p, w', hp⟩
  · rw [hn.settles] at hs
    cases hs
  · rw [ht.settles] at hs
    cases hs
  · rw [hp.settles, List.mem_singleton] at hs
    exact ⟨i, congrArg Settlement.leaseId hs⟩

/-- A settled lease is silent at once. -/
theorem silent_settled {given : List String} {w : World ι} (h : w.Inv) (ho : OwnLeases given w)
    {l : Label ι} {s : Settlement ι} (hs : s ∈ w.settles l) : Silent s.leaseId (w.step l) := by
  rcases step_ledger h l with hn | ⟨i, g, ht⟩ | ⟨i, p, w', hp⟩
  · rw [hn.settles] at hs
    cases hs
  · rw [ht.settles] at hs
    cases hs
  · rw [hp.settles, List.mem_singleton] at hs
    obtain ⟨waiting, hstep⟩ := hp.step
    have hleave : Silent (w.lease i) (w'.leave i).1 := by
      by_cases he : w.lease i = ""
      · exact Or.inl he
      · apply silent_leave
        intro j hj hlease
        rw [(hp.keeps.session j).leaseId] at hlease
        exact absurd (ho.unique j i _ hlease (lease_some he)) hj
    rw [hs, hstep]
    exact hleave

theorem silent_step {leaseId : String} {w : World ι} (h : w.Inv) (hs : Silent leaseId w)
    {l : Label ι} (hnew : leaseId ≠ "" → leaseId ∉ w.takes l) : Silent leaseId (w.step l) := by
  rcases step_ledger h l with hn | ⟨i, g, ht⟩ | ⟨i, p, w', hp⟩
  · exact hs.of_keeps hn.keeps
  · rcases hs with hs | hs
    · exact Or.inl hs
    · by_cases hempty : leaseId = ""
      · exact Or.inl hempty
      have hfresh := hnew hempty
      rw [ht.takes, List.mem_singleton] at hfresh
      refine Or.inr fun j hj => ?_
      have hji : j ≠ i := by
        intro he
        rw [he, ht.takesLease.leaseId] at hj
        exact hfresh (Option.some.inj hj).symm
      have hsame : (w.step l).session j = w.session j := by
        rw [ht.step]
        exact (setSession_ne (w.recordGrant i g) _ hji).trans (setSession_ne w _ hji)
      rw [hsame] at hj ⊢
      exact hs j hj
  · obtain ⟨waiting, hstep⟩ := hp.step
    rw [hstep]
    rcases hs.of_keeps hp.keeps with hw | hw
    · exact Or.inl hw
    · have hleave := silent_leave (i := i) fun j _ hj => hw j hj
      exact hleave

theorem Silent.no_command {leaseId : String} {w : World ι} (h : Silent leaseId w) :
    ¬ w.CanCommand leaseId := by
  intro hc
  obtain ⟨hne, i, hi, hb⟩ := hc
  rcases h with h | h
  · exact hne h
  · exact hb (h i hi)

theorem ownLeases_run {given : List String} {w : World ι} (h : w.Inv) (ho : OwnLeases given w)
    (ls : List (Label ι)) (hnodup : (given ++ w.taken ls).Nodup) :
    OwnLeases (given ++ w.taken ls) (Trace.run step w ls) := by
  induction ls generalizing given w with
  | nil =>
    change OwnLeases (given ++ []) w
    rw [List.append_nil]
    exact ho
  | cons l ls ih =>
    have hsplit : given ++ w.taken (l :: ls) = given ++ w.takes l ++ (w.step l).taken ls := by
      unfold taken
      rw [Trace.outputs_cons, List.append_assoc]
    rw [hsplit] at hnodup ⊢
    have hnew : ∀ leaseId ∈ w.takes l, leaseId ∉ given := by
      intro leaseId ht hg
      have hgt := (List.nodup_append.mp hnodup).1
      exact (List.nodup_append.mp hgt).2.2 leaseId hg leaseId ht rfl
    exact ih (inv_step h l) (ownLeases_step h ho hnew) hnodup

/-- What the run of `ls` commands from `w` on, and that none of it is under `leaseId`. -/
def CommandsNone (leaseId : String) (w w' : World ι) : Prop :=
  ∃ ps gs, w'.published = w.published ++ ps ∧ w'.dispatched = w.dispatched ++ gs ∧
    (∀ p ∈ ps, p.envelope.leaseId ≠ leaseId) ∧ ∀ g ∈ gs, g.leaseId ≠ leaseId

theorem commandsNone_run {leaseId : String} {w : World ι} (h : w.Inv) (hs : Silent leaseId w)
    (ls : List (Label ι)) (hnew : leaseId ≠ "" → leaseId ∉ w.taken ls) :
    CommandsNone leaseId w (Trace.run step w ls) := by
  induction ls generalizing w with
  | nil =>
    refine ⟨[], [], ?_, ?_, List.forall_mem_nil _, List.forall_mem_nil _⟩
    · exact (List.append_nil _).symm
    · exact (List.append_nil _).symm
  | cons l ls ih =>
    have hsplit : w.taken (l :: ls) = w.takes l ++ (w.step l).taken ls := rfl
    rw [hsplit, List.mem_append, not_or] at hnew
    have hstep := silent_step h hs fun hne => (hnew hne).1
    obtain ⟨ps, gs, hps, hgs, hp, hg⟩ := step_commands h l
    obtain ⟨ps', gs', hps', hgs', hp', hg'⟩ := ih (inv_step h l) hstep fun hne => (hnew hne).2
    refine ⟨ps ++ ps', gs ++ gs', ?_, ?_, fun p hm => ?_, fun g hm => ?_⟩
    · rw [Trace.run_cons, hps', hps, List.append_assoc]
    · rw [Trace.run_cons, hgs', hgs, List.append_assoc]
    · rcases List.mem_append.mp hm with hm | hm
      · intro he
        exact hs.no_command (he ▸ hp p hm)
      · exact hp' p hm
    · rcases List.mem_append.mp hm with hm | hm
      · intro he
        exact hs.no_command (he ▸ hg g hm)
      · exact hg' g hm

/-- **Silence after a settlement.** When the manager gives no lease id twice, nothing is published
or dispatched under a lease once a session parted with it. -/
theorem silent_after_settlement (now : ℚ) (timeouts : Timeouts) (config : ι → SessionConfig)
    (sourceClient : ι → ActionProviderClient) (before after : List (Label ι)) (l : Label ι)
    (s : Settlement ι)
    (hs : s ∈ (Trace.run step (init now timeouts config sourceClient) before).settles l)
    (hdistinct : ((init now timeouts config sourceClient).taken (before ++ l :: after)).Nodup) :
    let w := (Trace.run step (init now timeouts config sourceClient) before).step l
    CommandsNone s.leaseId w (Trace.run step w after) := by
  intro w
  have hinv := inv_run (inv_init now timeouts config sourceClient) before
  have hsplit : (init now timeouts config sourceClient).taken (before ++ l :: after) =
      (init now timeouts config sourceClient).taken before ++
        ((Trace.run step (init now timeouts config sourceClient) before).takes l ++
          w.taken after) := by
    unfold taken
    rw [Trace.outputs_append, Trace.outputs_cons]
  rw [hsplit, List.nodup_append] at hdistinct
  obtain ⟨hbefore, -, hdisjoint⟩ := hdistinct
  have hnone : OwnLeases [] (init now timeouts config sourceClient) :=
    ⟨fun i leaseId hi => (by cases hi), fun i j leaseId hi => (by cases hi)⟩
  have hown := ownLeases_run (inv_init now timeouts config sourceClient) hnone before hbefore
  have hsilent := silent_settled hinv hown hs
  refine commandsNone_run (inv_step hinv l) hsilent after fun hne hafter => ?_
  obtain ⟨i, hi⟩ := settles_lease hinv hs
  have hknown := hown.known i s.leaseId (hi ▸ lease_some (hi ▸ hne))
  exact hdisjoint s.leaseId hknown s.leaseId (List.mem_append_right _ hafter) rfl

def armCommand : Action :=
  ⟨"arm", "joint_reference", .jointTrajectory ⟨⟨⟨0, 0⟩, ""⟩, ["joint"], []⟩⟩

/-- The arm is entered under `lease-1` and exited. -/
def armEntered : List (Label Unit) :=
  [.enter () (.response ⟨true, "", "lease-1", [armEndpoint]⟩)]

def armExit : Label Unit := .exit () false (.response true "")

/-- It is entered again, under `lease-2`, and commanded. -/
def armReentered : List (Label Unit) :=
  [.enter () (.response ⟨true, "", "lease-2", [armEndpoint]⟩),
    .callback (.status (Deployment.armStatus "lease-2")), .poll () (.response true ""),
    .act () armCommand none ⟨0, 0⟩]

/-- The command of the second entry is not under the lease of the first. -/
theorem silent_after_settlement_arm :
    CommandsNone "lease-1" ((Trace.run step armWorld armEntered).step armExit)
        (Trace.run step ((Trace.run step armWorld armEntered).step armExit) armReentered) ∧
      (Trace.run step armWorld (armEntered ++ armExit :: armReentered)).published.length = 1 := by
  have hs : ⟨(), "lease-1", .requested⟩ ∈ (Trace.run step armWorld armEntered).settles armExit := by
    decide +kernel
  have hdistinct : (armWorld.taken (armEntered ++ armExit :: armReentered)).Nodup := by
    decide +kernel
  refine ⟨?_, by decide +kernel⟩
  exact silent_after_settlement 0 Timeouts.default (fun _ => armConfig)
    (fun _ => ActionProviderClient.new none) armEntered armReentered armExit
    ⟨(), "lease-1", .requested⟩ hs hdistinct

end World
end PhysicalAiRuntime.Control
