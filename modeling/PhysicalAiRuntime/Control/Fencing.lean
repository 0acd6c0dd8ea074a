import PhysicalAiRuntime.Control.Binding

/-! Command fencing: whatever order entries, exits, commands, callbacks and clock steps come in, a
command leaves the process only under the lease of the current entry of an entered session, on an
endpoint of that lease, while a recent status still shows the lease as the owner. -/
namespace PhysicalAiRuntime.Control
open Authority Provider
set_option autoImplicit false
set_option maxHeartbeats 250000
set_option linter.unusedSectionVars false

variable {ι : Type} [DecidableEq ι]

namespace World

/-! ## The status cache -/

/-- The cache holds the allocations of the last status message, under the time it came. -/
def StatusInv (w : World ι) : Prop :=
  match w.lastStatus with
  | none => w.selection.lastStatusMonotonic = none
  | some (t, m) =>
    w.selection.lastStatusMonotonic = some t ∧ w.selection.allocations = m.allocations

theorem StatusInv.of_same {w w' : World ι} (h : w.StatusInv) (hs : w'.selection = w.selection)
    (hl : w'.lastStatus = w.lastStatus) : w'.StatusInv := by
  unfold StatusInv
  rw [hs, hl]
  exact h

theorem statusInv_callback {w : World ι} (h : w.StatusInv) (c : Callback) :
    (w.callback c).StatusInv := by
  cases c with
  | status m => exact ⟨rfl, rfl⟩
  | event e => exact h
  | advance d => exact h

/-- Every step but a callback leaves the clock, the status and the other sessions alone. -/
theorem step_sameElsewhere (w : World ι) (l : Label ι) :
    (∃ c, l = .callback c) ∨ ∃ i, l.caller = some i ∧ SameElsewhere w (w.step l) i := by
  cases l with
  | callback c => exact Or.inl ⟨c, rfl⟩
  | enter i answer => exact Or.inr ⟨i, rfl, sameElsewhere_enterClaim w i answer⟩
  | poll i answer =>
    refine Or.inr ⟨i, rfl, ?_⟩
    change SameElsewhere w (w.poll i answer) i
    unfold poll
    cases w.waiting i with
    | none => exact SameElsewhere.refl w i
    | some deadline => exact sameElsewhere_enterPoll w i deadline answer
  | exit i bodyRaised answer => exact Or.inr ⟨i, rfl, sameElsewhere_exit w i bodyRaised answer⟩
  | act i action observation now =>
    exact Or.inr ⟨i, rfl, sameElsewhere_act w i action observation now⟩
  | execute i part plan observation now answer =>
    exact Or.inr ⟨i, rfl, sameElsewhere_execute w i part plan observation now answer⟩
  | waitPlan i part answer => exact Or.inr ⟨i, rfl, sameElsewhere_setSession w i _⟩
  | cancelPlan i part answer => exact Or.inr ⟨i, rfl, sameElsewhere_setSession w i _⟩

theorem statusInv_step {w : World ι} (h : w.StatusInv) (l : Label ι) : (w.step l).StatusInv := by
  rcases step_sameElsewhere w l with ⟨c, rfl⟩ | ⟨i, -, hs⟩
  · exact statusInv_callback h c
  · exact h.of_same hs.selection hs.lastStatus

/-- An allocation the process acts on comes from the last message, which has not expired. -/
theorem StatusInv.allocations_some {w : World ι} (h : w.StatusInv) {part : String} {a : Allocation}
    (ha : w.allocations.get? part = some a) :
    ∃ t m, w.lastStatus = some (t, m) ∧ w.now - t ≤ w.selection.statusTimeoutSec ∧
      m.allocations.get? part = some a := by
  obtain ⟨t, ht, hle, hg⟩ := ExecutionManagerClient.getAllocations_some ha
  unfold StatusInv at h
  cases hl : w.lastStatus with
  | none =>
    rw [hl] at h
    rw [ht] at h
    cases h
  | some r =>
    obtain ⟨t', m⟩ := r
    rw [hl] at h
    obtain ⟨h1, h2⟩ := h
    rw [h1] at ht
    cases ht
    exact ⟨_, m, rfl, hle, h2 ▸ hg⟩

/-! ## Publications -/

/-- What is true when `act` on session `i` publishes `p`. -/
structure Fenced (w : World ι) (i : ι) (action : Action) (observation : Option Observation)
    (p : Publication) (g : LeaseGrant) : Prop where
  entered : (w.session i).entered = true
  grant : w.grant i = some g
  leaseId : p.envelope.leaseId = g.leaseId
  endpoint : ∃ b, g.endpoints.get? (action.part, action.command) = some b ∧
    p.publisher.endpoint = b.endpoint
  status : ∃ t m a, w.lastStatus = some (t, m) ∧ w.now - t ≤ w.selection.statusTimeoutSec ∧
    m.allocations.get? action.part = some a ∧ a.authorityState = .owned ∧ a.leaseId = g.leaseId
  observation : ∀ o, observation = some o → ∃ a, o.allocations.get? action.part = some a ∧
    a.sourceInstance = (w.session i).config.source.sourceInstance ∧ a.leaseId = g.leaseId

theorem activeFor_true {w : World ι} {i : ι} {part : String} (h : w.activeFor i part = true) :
    part ∈ (w.session i).config.parts ∧ (w.session i).entered = true ∧
      truthy (w.session i).leaseId = true ∧ (w.session i).owns part w.allocations = true := by
  unfold activeFor at h
  simpa [and_assoc] using h

theorem staleObservation_false {s : Session} {part : String} {o : Observation} {l : String}
    (hl : s.leaseId = some l) (h : staleObservation s part (some o) = false) :
    ∃ a, o.allocations.get? part = some a ∧
      a.sourceInstance = s.config.source.sourceInstance ∧ a.leaseId = l := by
  have ho : o.allocationLease part s.config.source.sourceInstance = some l := by
    rw [← hl]
    simpa [staleObservation] using h
  unfold Observation.allocationLease at ho
  cases ha : o.allocations.get? part with
  | none => simp [ha] at ho
  | some a =>
    rw [ha] at ho
    by_cases hsi : a.sourceInstance = s.config.source.sourceInstance
    · by_cases hle : a.leaseId = ""
      · simp [hsi, hle] at ho
      · simp only [hsi, hle, ne_eq, not_true_eq_false, if_false, Option.some.injEq] at ho
        exact ⟨a, rfl, hsi, ho⟩
    · simp [hsi] at ho

theorem publish_fenced {w : World ι} (h : w.Inv) (hst : w.StatusInv) {i : ι} {action : Action}
    {observation : Option Observation} {now : Stamp} {client : ActionProviderClient}
    {p : Publication} (hsend : Agent.send action (w.session i).client now = .ok (client, p))
    (ha : w.activeFor i action.part = true)
    (ho : staleObservation (w.session i) action.part observation = false) :
    ∃ g, Fenced w i action observation p g := by
  have hs := agentSend_ok hsend
  obtain ⟨-, he, -, howns⟩ := activeFor_true ha
  obtain ⟨g, hg, hl⟩ := (h i).record he
  have hb : (w.session i).client.BoundTo g := by
    rcases (h i).client with hu | ⟨-, g', hg', hb⟩
    · obtain ⟨e, herr⟩ := hu.send action.part action.command action.value now
      rw [hs] at herr
      cases herr
    · rw [hg] at hg'
      cases hg'
      exact hb
  obtain ⟨-, hlease, hend⟩ := hb.send hs
  refine ⟨g, he, hg, hlease, hend, ?_, ?_⟩
  · obtain ⟨a, hget, hown, hal⟩ := Session.owns_iff.mp howns
    obtain ⟨t, m, hlast, hle, hm⟩ := hst.allocations_some hget
    rw [hl] at hal
    exact ⟨t, m, a, hlast, hle, hm, hown, Option.some.inj hal⟩
  · intro o heq
    subst heq
    exact staleObservation_false hl ho

/-- A step publishes nothing, or it is an `act` whose publication is fenced. -/
def PublishesFenced (w : World ι) (l : Label ι) : Prop :=
  (w.step l).published = w.published ∨
  ∃ i action observation now p g, l = .act i action observation now ∧
    (w.step l).published = w.published ++ [p] ∧ Fenced w i action observation p g

theorem leave_published (w : World ι) (i : ι) : (w.leave i).1.published = w.published := by
  by_cases hl : w.controlStack.getLast? = some i
  · rw [leave_last hl]
    rfl
  · rw [leave_refused hl]
    rfl

theorem releaseClaim_published (w : World ι) (i : ι) (answer : ReleaseAnswer) :
    (w.releaseClaim i answer).1.published = w.published := by
  obtain ⟨sent, hs⟩ := releaseClaim_fst w i answer
  rw [hs]

theorem enterClaim_published (w : World ι) (i : ι) (answer : ClaimAnswer) :
    (w.enterClaim i answer).1.published = w.published := by
  rcases enterClaim_cases w i answer with ⟨-, e, h⟩ | ⟨g, -, -, ⟨-, e, h⟩ | ⟨-, h⟩⟩
  · rw [h]
  · rw [h]
    rfl
  · rw [h]
    rfl

theorem enterPoll_published (w : World ι) (i : ι) (deadline : ℚ) (answer : ReleaseAnswer) :
    (w.enterPoll i deadline answer).1.published = w.published := by
  rcases enterPoll_cases w i deadline answer with ⟨-, h⟩ | ⟨-, -, h⟩ | ⟨-, -, e, h⟩
  · rw [h]
  · rw [h]
  · rw [h]
    exact (leave_published _ i).trans (releaseClaim_published w i answer)

theorem exit_published (w : World ι) (i : ι) (bodyRaised : Bool) (answer : ReleaseAnswer) :
    (w.exit i bodyRaised answer).1.published = w.published := by
  rw [exit_fst, leave_published]
  rcases exitRelease_fst w i answer with ⟨d, h⟩ | ⟨sent, h⟩
  · rw [h]
    rfl
  · rw [h]

theorem execute_published (w : World ι) (i : ι) (part : String) (plan : ActionValue)
    (observation : Option Observation) (now : Stamp)
    (answer : ActionProviderClient.StartAnswer) :
    (w.execute i part plan observation now answer).1.published = w.published := by
  rcases execute_cases w i part plan observation now answer with h | ⟨d, goals, -, -, h⟩
  · rw [h]
  · rw [h]
    rfl

theorem step_publishesFenced {w : World ι} (h : w.Inv) (hst : w.StatusInv) (l : Label ι) :
    PublishesFenced w l := by
  cases l with
  | callback c => exact Or.inl (by cases c <;> rfl)
  | enter i answer => exact Or.inl (enterClaim_published w i answer)
  | poll i answer =>
    refine Or.inl ?_
    change (w.poll i answer).published = w.published
    unfold poll
    cases w.waiting i with
    | none => rfl
    | some deadline => exact enterPoll_published w i deadline answer
  | exit i bodyRaised answer => exact Or.inl (exit_published w i bodyRaised answer)
  | act i action observation now =>
    rcases act_cases w i action observation now with ha | ⟨d, ha⟩ | ⟨client, p, hs, hact, ho, ha⟩
    · exact Or.inl (congrArg World.published ha)
    · exact Or.inl ((congrArg World.published ha).trans rfl)
    · obtain ⟨g, hf⟩ := publish_fenced h hst hs hact ho
      exact Or.inr ⟨i, action, observation, now, p, g, rfl, congrArg World.published ha, hf⟩
  | execute i part plan observation now answer =>
    exact Or.inl (execute_published w i part plan observation now answer)
  | waitPlan i part answer => exact Or.inl rfl
  | cancelPlan i part answer => exact Or.inl rfl

theorem statusInv_run {w : World ι} (h : w.StatusInv) (ls : List (Label ι)) :
    (Trace.run step w ls).StatusInv :=
  Trace.run_invariant' StatusInv (fun _ l hi => statusInv_step hi l) h ls

/-- **Command fencing.** After any run of a process, a step that publishes is an `act` of an
entered session, and its publication is fenced by the grant of the current entry. -/
theorem act_fenced (now : ℚ) (timeouts : Timeouts) (config : ι → SessionConfig)
    (sourceClient : ι → ActionProviderClient) (ls : List (Label ι)) (l : Label ι) :
    PublishesFenced (Trace.run step (init now timeouts config sourceClient) ls) l := by
  have hinv := inv_run (inv_init now timeouts config sourceClient) ls
  have hstatus : (init now timeouts config sourceClient).StatusInv := rfl
  exact step_publishesFenced hinv (statusInv_run hstatus ls) l

end World
end PhysicalAiRuntime.Control
