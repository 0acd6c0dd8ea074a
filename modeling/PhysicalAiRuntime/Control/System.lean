import PhysicalAiRuntime.Foundations.Trace
import PhysicalAiRuntime.Control.Session

/-! The sessions of one process as a labelled machine, and what each operation leaves alone. A
label is one uninterrupted step; `__enter__` is its claim followed by any number of looks at the
status, with steps of every other kind in between, so that an entry taken as one step is a special
run (`enter_run`). -/
namespace PhysicalAiRuntime.Control
open Authority Provider
set_option autoImplicit false
set_option maxHeartbeats 250000
set_option linter.unusedSectionVars false

variable {ι : Type} [DecidableEq ι]

inductive Label (ι : Type) where
  | callback (c : World.Callback)
  | enter (i : ι) (answer : ClaimAnswer)
  | poll (i : ι) (answer : ReleaseAnswer)
  | exit (i : ι) (bodyRaised : Bool) (answer : ReleaseAnswer)
  | act (i : ι) (action : Action) (observation : Option Observation) (now : Stamp)
  | execute (i : ι) (part : String) (plan : ActionValue) (observation : Option Observation)
      (now : Stamp) (answer : ActionProviderClient.StartAnswer)
  | waitPlan (i : ι) (part : String) (answer : ActionProviderClient.ResultAnswer)
  | cancelPlan (i : ι) (part : String) (answer : ActionProviderClient.CancelAnswer)

/-- The session that the step is a call of. -/
def Label.caller : Label ι → Option ι
  | .callback _ => none
  | .enter i _ | .poll i _ | .exit i _ _ | .act i _ _ _ | .execute i _ _ _ _ _ | .waitPlan i _ _
  | .cancelPlan i _ _ => some i

namespace World

def poll (w : World ι) (i : ι) (answer : ReleaseAnswer) : World ι :=
  match w.waiting i with
  | none => w
  | some deadline => (w.enterPoll i deadline answer).1

def step (w : World ι) : Label ι → World ι
  | .callback c => w.callback c
  | .enter i answer => (w.enterClaim i answer).1
  | .poll i answer => w.poll i answer
  | .exit i bodyRaised answer => (w.exit i bodyRaised answer).1
  | .act i action observation now => (w.act i action observation now).1
  | .execute i part plan observation now answer =>
    (w.execute i part plan observation now answer).1
  | .waitPlan i part answer => (w.waitPlan i part answer).1
  | .cancelPlan i part answer => (w.cancelPlan i part answer).1

/-! ## The steps of entry and exit -/

theorem popControl_last {w : World ι} {i : ι} (h : w.controlStack.getLast? = some i) :
    w.popControl i = ({ w with controlStack := w.controlStack.dropLast }, .ok ()) := by
  unfold popControl
  rw [if_neg (not_not.mpr h)]

theorem popControl_refused {w : World ι} {i : ι} (h : w.controlStack.getLast? ≠ some i) :
    w.popControl i = ({ w with popRefusals := w.popRefusals + 1 },
      .error ⟨.runtimeError, "control sessions must exit in stack order"⟩) := by
  unfold popControl
  rw [if_pos h]

theorem leave_last {w : World ι} {i : ι} (h : w.controlStack.getLast? = some i) :
    w.leave i = ({ w.setSession i (w.session i).closed with
      controlStack := w.controlStack.dropLast }, .ok ()) := by
  unfold leave
  rw [popControl_last (w := w.setSession i (w.session i).unbindClient) h]
  simp [setSession]

theorem leave_refused {w : World ι} {i : ι} (h : w.controlStack.getLast? ≠ some i) :
    w.leave i = ({ w.setSession i (w.session i).unbindClient with
      popRefusals := w.popRefusals + 1 },
      .error ⟨.runtimeError, "control sessions must exit in stack order"⟩) := by
  unfold leave
  rw [popControl_refused (w := w.setSession i (w.session i).unbindClient) h]
  rfl

/-- `_release_claim` changes nothing but the requests sent. -/
theorem releaseClaim_fst (w : World ι) (i : ι) (answer : ReleaseAnswer) :
    ∃ sent, (w.releaseClaim i answer).1 = { w with released := w.released ++ sent } := by
  unfold releaseClaim
  split
  · exact ⟨[], by simp⟩
  · rename_i leaseId _
    split
    · exact ⟨[], by simp⟩
    · cases hs : (ExecutionManagerClient.release leaseId answer).1 with
      | true => exact ⟨[leaseId], by simp [hs]⟩
      | false => exact ⟨[], by simp [hs]⟩

/-- The three ends of `enterClaim`: nothing happened, the lease is recorded but the client was
still bound, or the session waits with its client bound to the grant. -/
theorem enterClaim_cases (w : World ι) (i : ι) (answer : ClaimAnswer) :
    (((w.session i).entered = true ∨ ∃ e, claimFor (w.session i) answer = .error e) ∧
      ∃ e, w.enterClaim i answer = (w, .error e)) ∨
    ∃ g, claimFor (w.session i) answer = .ok g ∧ (w.session i).entered = false ∧
      (((w.session i).client.leaseId ≠ "" ∧
          ∃ e, w.enterClaim i answer = (w.recordGrant i g, .error e)) ∨
        ((w.session i).client.leaseId = "" ∧
          w.enterClaim i answer = ((w.recordGrant i g).beginWait i { (w.session i).client with
            leaseId := g.leaseId, bindings := g.endpoints }, .ok ()))) := by
  unfold enterClaim
  cases he : (w.session i).entered with
  | true => exact Or.inl ⟨Or.inl rfl, _, by simp [he]; rfl⟩
  | false =>
    cases hc : claimFor (w.session i) answer with
    | error e => exact Or.inl ⟨Or.inr ⟨e, rfl⟩, e, by simp [he, hc]⟩
    | ok g =>
      refine Or.inr ⟨g, rfl, rfl, ?_⟩
      by_cases hl : (w.session i).client.leaseId = ""
      · exact Or.inr ⟨hl, by simp [he, hc, ActionProviderClient.bind, hl]⟩
      · exact Or.inl ⟨hl, _, by simp [he, hc, ActionProviderClient.bind, hl]; rfl⟩

/-- The three ends of one look at the status: confirmed, too early to tell, timed out. -/
theorem enterPoll_cases (w : World ι) (i : ι) (deadline : ℚ) (answer : ReleaseAnswer) :
    (w.active i = true ∧ w.enterPoll i deadline answer =
      ({ w with waiting := Function.update w.waiting i none }, some (.ok ()))) ∨
    (w.active i = false ∧ w.now < deadline ∧ w.enterPoll i deadline answer = (w, none)) ∨
    (w.active i = false ∧ deadline ≤ w.now ∧ ∃ e, w.enterPoll i deadline answer =
      ({ ((w.releaseClaim i answer).1.leave i).1 with
        waiting := Function.update ((w.releaseClaim i answer).1.leave i).1.waiting i none },
        some (.error e))) := by
  unfold enterPoll
  cases ha : w.active i with
  | true => exact Or.inl ⟨rfl, by simp⟩
  | false =>
    by_cases hd : deadline ≤ w.now
    · refine Or.inr (Or.inr ⟨rfl, hd, ?_⟩)
      cases hr : (w.releaseClaim i answer).1.leave i with
      | mk w' result =>
        cases result with
        | error e => exact ⟨e, by simp [hd]⟩
        | ok _ => exact ⟨_, by simp [hd]; rfl⟩
    · exact Or.inr (Or.inl ⟨rfl, not_le.mp hd, by simp [hd]⟩)

/-- The `try` block of `__exit__` counts a displaced exit or sends release requests. -/
theorem exitRelease_fst (w : World ι) (i : ι) (answer : ReleaseAnswer) :
    (∃ d, (w.exitRelease i answer).1 = w.setSession i { w.session i with diagnostics := d }) ∨
    ∃ sent, (w.exitRelease i answer).1 = { w with released := w.released ++ sent } := by
  unfold exitRelease
  by_cases hd : w.isExplicitlyDisplaced i = true
  · exact Or.inl ⟨_, by simp [hd]; rfl⟩
  · obtain ⟨sent, hs⟩ := releaseClaim_fst w i answer
    exact Or.inr ⟨sent, by simp [hd, hs]⟩

theorem exit_fst (w : World ι) (i : ι) (bodyRaised : Bool) (answer : ReleaseAnswer) :
    (w.exit i bodyRaised answer).1 = ((w.exitRelease i answer).1.leave i).1 := by
  unfold exit
  cases hr : w.exitRelease i answer with
  | mk w' releaseError =>
    cases hl : w'.leave i with
    | mk w'' result =>
      cases result with
      | error e => simp [hl]
      | ok _ =>
        cases releaseError with
        | none => simp [hl]
        | some e => cases bodyRaised <;> simp [hl]

/-- The ends of `act`: a refusal or a counted drop, or one publication of an active session. -/
theorem act_cases (w : World ι) (i : ι) (action : Action) (observation : Option Observation)
    (now : Stamp) :
    (w.act i action observation now).1 = w ∨
    (∃ d, (w.act i action observation now).1 =
      w.setSession i { w.session i with diagnostics := d }) ∨
    ∃ client publication, Agent.send action (w.session i).client now = .ok (client, publication) ∧
      w.activeFor i action.part = true ∧
      staleObservation (w.session i) action.part observation = false ∧
      (w.act i action observation now).1 = w.publish i client publication := by
  unfold act
  by_cases hp : action.part ∈ (w.session i).config.parts
  · cases ha : w.activeFor i action.part with
    | false => exact Or.inr (Or.inl ⟨_, by simp [hp]; rfl⟩)
    | true =>
      cases hs : staleObservation (w.session i) action.part observation with
      | true => exact Or.inr (Or.inl ⟨_, by simp [hp, hs]; rfl⟩)
      | false =>
        cases hsend : Agent.send action (w.session i).client now with
        | error e => exact Or.inl (by simp [hp, hs, hsend])
        | ok r => exact Or.inr (Or.inr ⟨r.1, r.2, rfl, rfl, rfl, by simp [hp, hs, hsend]⟩)
  · exact Or.inl (by simp [hp])

/-- The ends of `execute`: a refusal, or one call of the source on the session's client. -/
theorem execute_cases (w : World ι) (i : ι) (part : String) (plan : ActionValue)
    (observation : Option Observation) (now : Stamp)
    (answer : ActionProviderClient.StartAnswer) :
    (w.execute i part plan observation now answer).1 = w ∨
    ∃ d goals, w.activeFor i part = true ∧
      staleObservation (w.session i) part observation = false ∧
      (w.execute i part plan observation now answer).1 =
        { w.setSession i { w.session i with
            client := ((w.session i).config.source.execute part plan (w.session i).client now
              answer).1
            diagnostics := d } with
          dispatched := w.dispatched ++ goals } := by
  unfold execute
  by_cases hp : part ∈ (w.session i).config.parts
  · cases ha : w.activeFor i part with
    | false => exact Or.inl (by simp [hp])
    | true =>
      cases hs : staleObservation (w.session i) part observation with
      | true => exact Or.inl (by simp [hp, hs])
      | false =>
        cases hx : (w.session i).config.source.execute part plan (w.session i).client now
          answer with
        | mk client r =>
          obtain ⟨goal, result⟩ := r
          cases result with
          | error e => exact Or.inr ⟨(w.session i).diagnostics, goal.toList, rfl, rfl, by
              simp [hp, hs, hx]⟩
          | ok handle => exact Or.inr ⟨{ (w.session i).diagnostics with
              sent := (w.session i).diagnostics.sent + 1 }, goal.toList, rfl, rfl, by
              simp [hp, hs, hx, setSession]⟩
  · exact Or.inl (by simp [hp])

theorem agentExecute_sameStreams (a : Agent) (part : String) (plan : ActionValue)
    (client : ActionProviderClient) (now : Stamp) (answer : ActionProviderClient.StartAnswer) :
    client.SameStreams (a.execute part plan client now answer).1 := by
  unfold Agent.execute
  cases a.executeChecks part plan with
  | error e => exact ActionProviderClient.SameStreams.refl client
  | ok names =>
    exact ActionProviderClient.startJointTrajectory_sameStreams client part plan names now answer

/-! ## What an operation on one session leaves alone -/

/-- Only session `i` and the records differ: the other sessions, the clock and the status cache
are as before. -/
structure SameElsewhere (w w' : World ι) (i : ι) : Prop where
  now : w'.now = w.now
  selection : w'.selection = w.selection
  lastStatus : w'.lastStatus = w.lastStatus
  session : ∀ j, j ≠ i → w'.session j = w.session j
  grant : ∀ j, j ≠ i → w'.grant j = w.grant j
  entries : ∀ j, j ≠ i → w'.entries j = w.entries j

theorem SameElsewhere.refl (w : World ι) (i : ι) : SameElsewhere w w i :=
  ⟨rfl, rfl, rfl, fun _ _ => rfl, fun _ _ => rfl, fun _ _ => rfl⟩

theorem SameElsewhere.trans {w w' w'' : World ι} {i : ι} (h : SameElsewhere w w' i)
    (h' : SameElsewhere w' w'' i) : SameElsewhere w w'' i where
  now := h'.now.trans h.now
  selection := h'.selection.trans h.selection
  lastStatus := h'.lastStatus.trans h.lastStatus
  session j hj := (h'.session j hj).trans (h.session j hj)
  grant j hj := (h'.grant j hj).trans (h.grant j hj)
  entries j hj := (h'.entries j hj).trans (h.entries j hj)

theorem sameElsewhere_setSession (w : World ι) (i : ι) (s : Session) :
    SameElsewhere w (w.setSession i s) i :=
  ⟨rfl, rfl, rfl, fun _ hj => setSession_ne w s hj, fun _ _ => rfl, fun _ _ => rfl⟩

theorem sameElsewhere_releaseClaim (w : World ι) (i : ι) (answer : ReleaseAnswer) :
    SameElsewhere w (w.releaseClaim i answer).1 i := by
  obtain ⟨sent, h⟩ := releaseClaim_fst w i answer
  rw [h]
  exact ⟨rfl, rfl, rfl, fun _ _ => rfl, fun _ _ => rfl, fun _ _ => rfl⟩

theorem sameElsewhere_leave (w : World ι) (i : ι) : SameElsewhere w (w.leave i).1 i := by
  by_cases h : w.controlStack.getLast? = some i
  · have hs := sameElsewhere_setSession w i (w.session i).closed
    rw [leave_last h]
    exact ⟨hs.now, hs.selection, hs.lastStatus, hs.session, hs.grant, hs.entries⟩
  · have hs := sameElsewhere_setSession w i (w.session i).unbindClient
    rw [leave_refused h]
    exact ⟨hs.now, hs.selection, hs.lastStatus, hs.session, hs.grant, hs.entries⟩

theorem sameElsewhere_recordGrant (w : World ι) (i : ι) (g : LeaseGrant) :
    SameElsewhere w (w.recordGrant i g) i where
  now := rfl
  selection := rfl
  lastStatus := rfl
  session _ hj := setSession_ne w _ hj
  grant _ hj := Function.update_of_ne hj _ _
  entries _ hj := Function.update_of_ne hj _ _

theorem sameElsewhere_enterClaim (w : World ι) (i : ι) (answer : ClaimAnswer) :
    SameElsewhere w (w.enterClaim i answer).1 i := by
  rcases enterClaim_cases w i answer with ⟨-, e, h⟩ | ⟨g, -, -, ⟨-, e, h⟩ | ⟨-, h⟩⟩
  · rw [h]
    exact SameElsewhere.refl w i
  · rw [h]
    exact sameElsewhere_recordGrant w i g
  · rw [h]
    have hr := sameElsewhere_recordGrant w i g
    refine hr.trans ⟨rfl, rfl, rfl, fun j hj => ?_, fun _ _ => rfl, fun _ _ => rfl⟩
    exact setSession_ne (w.recordGrant i g) _ hj

theorem sameElsewhere_enterPoll (w : World ι) (i : ι) (deadline : ℚ) (answer : ReleaseAnswer) :
    SameElsewhere w (w.enterPoll i deadline answer).1 i := by
  rcases enterPoll_cases w i deadline answer with ⟨-, h⟩ | ⟨-, -, h⟩ | ⟨-, -, e, h⟩
  · rw [h]
    exact ⟨rfl, rfl, rfl, fun _ _ => rfl, fun _ _ => rfl, fun _ _ => rfl⟩
  · rw [h]
    exact SameElsewhere.refl w i
  · rw [h]
    have hl := (sameElsewhere_releaseClaim w i answer).trans
      (sameElsewhere_leave (w.releaseClaim i answer).1 i)
    exact ⟨hl.now, hl.selection, hl.lastStatus, hl.session, hl.grant, hl.entries⟩

theorem sameElsewhere_exit (w : World ι) (i : ι) (bodyRaised : Bool) (answer : ReleaseAnswer) :
    SameElsewhere w (w.exit i bodyRaised answer).1 i := by
  rw [exit_fst]
  refine SameElsewhere.trans ?_ (sameElsewhere_leave (w.exitRelease i answer).1 i)
  rcases exitRelease_fst w i answer with ⟨d, h⟩ | ⟨sent, h⟩
  · rw [h]
    exact sameElsewhere_setSession w i _
  · rw [h]
    exact ⟨rfl, rfl, rfl, fun _ _ => rfl, fun _ _ => rfl, fun _ _ => rfl⟩

theorem sameElsewhere_publish (w : World ι) (i : ι) (client : ActionProviderClient)
    (p : Publication) : SameElsewhere w (w.publish i client p) i :=
  ⟨rfl, rfl, rfl, fun _ hj => setSession_ne w _ hj, fun _ _ => rfl, fun _ _ => rfl⟩

theorem sameElsewhere_act (w : World ι) (i : ι) (action : Action)
    (observation : Option Observation) (now : Stamp) :
    SameElsewhere w (w.act i action observation now).1 i := by
  rcases act_cases w i action observation now with h | ⟨d, h⟩ | ⟨client, p, -, -, -, h⟩
  · rw [h]
    exact SameElsewhere.refl w i
  · rw [h]
    exact sameElsewhere_setSession w i _
  · rw [h]
    exact sameElsewhere_publish w i client p

theorem sameElsewhere_execute (w : World ι) (i : ι) (part : String) (plan : ActionValue)
    (observation : Option Observation) (now : Stamp)
    (answer : ActionProviderClient.StartAnswer) :
    SameElsewhere w (w.execute i part plan observation now answer).1 i := by
  rcases execute_cases w i part plan observation now answer with h | ⟨d, goals, -, -, h⟩
  · rw [h]
    exact SameElsewhere.refl w i
  · rw [h]
    exact ⟨rfl, rfl, rfl, fun _ hj => setSession_ne w _ hj, fun _ _ => rfl, fun _ _ => rfl⟩

end World
end PhysicalAiRuntime.Control
