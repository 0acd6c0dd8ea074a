import PhysicalAiRuntime.Control.System

/-! What every step keeps of a session: while it is entered it carries the lease id of the grant of
its current entry, and its command client is either bound to that grant or bound to nothing. -/
namespace PhysicalAiRuntime.Control
open Authority Provider
set_option autoImplicit false
set_option maxHeartbeats 250000
set_option linter.unusedSectionVars false

variable {ι : Type} [DecidableEq ι]

/-- The invariant of one session, `grant` being the grant of its latest successful claim. The
second case of `client` also covers an entered session that a refused pop left unbound. -/
structure SessionInv (s : Session) (grant : Option LeaseGrant) : Prop where
  record : s.entered = true → ∃ g, grant = some g ∧ s.leaseId = some g.leaseId
  client : s.client.Unbound ∨ (s.entered = true ∧ ∃ g, grant = some g ∧ s.client.BoundTo g)

theorem SessionInv.unbound {s : Session} {grant : Option LeaseGrant} (h : SessionInv s grant)
    (hs : s.entered = false) : s.client.Unbound := by
  rcases h.client with hu | ⟨he, -⟩
  · exact hu
  · rw [hs] at he
    cases he

/-- A step that keeps the flags of the session and changes its client within its binding. -/
structure Session.Keeps (s s' : Session) : Prop where
  config : s'.config = s.config
  leaseId : s'.leaseId = s.leaseId
  entered : s'.entered = s.entered
  unbound : s.client.Unbound → s'.client.Unbound
  boundTo : ∀ g, s.client.BoundTo g → s'.client.BoundTo g

theorem Session.Keeps.refl (s : Session) : s.Keeps s := ⟨rfl, rfl, rfl, id, fun _ h => h⟩

theorem SessionInv.of_keeps {s s' : Session} {grant : Option LeaseGrant} (h : SessionInv s grant)
    (hk : s.Keeps s') : SessionInv s' grant where
  record := by
    rw [hk.leaseId, hk.entered]
    exact h.record
  client := by
    rw [hk.entered]
    rcases h.client with hc | ⟨hs, g, hg, hc⟩
    · exact Or.inl (hk.unbound hc)
    · exact Or.inr ⟨hs, g, hg, hk.boundTo g hc⟩

theorem sessionInv_unbindClient {s : Session} {grant : Option LeaseGrant}
    (h : SessionInv s grant) : SessionInv s.unbindClient grant :=
  ⟨h.record, Or.inl (ActionProviderClient.unbound_unbind s.client)⟩

theorem sessionInv_closed (s : Session) (grant : Option LeaseGrant) :
    SessionInv s.closed grant :=
  ⟨fun he => absurd he Bool.false_ne_true, Or.inl (ActionProviderClient.unbound_unbind s.client)⟩

theorem sessionInv_new (config : SessionConfig) (client : ActionProviderClient)
    (grant : Option LeaseGrant) : SessionInv (Session.new config client) grant :=
  ⟨fun he => absurd he Bool.false_ne_true, Or.inl (ActionProviderClient.unbound_fork client)⟩

/-- `Agent.send` reaches the wire through the client's `send`. -/
theorem agentSend_ok {action : Action} {client client' : ActionProviderClient} {now : Stamp}
    {p : Publication} (h : Agent.send action client now = .ok (client', p)) :
    client.send action.part action.command action.value now = .ok (client', p) := by
  unfold Agent.send at h
  by_cases hc : action.command = "joint_trajectory"
  · simp [hc] at h
  · rw [if_neg hc] at h
    obtain ⟨-, -, h⟩ := except_bind_ok h
    obtain ⟨-, -, h⟩ := except_bind_ok h
    exact h

theorem agentExecute_unbound {client : ActionProviderClient} (hc : client.Unbound) (a : Agent)
    (part : String) (plan : ActionValue) (now : Stamp)
    (answer : ActionProviderClient.StartAnswer) :
    (a.execute part plan client now answer).1 = client := by
  unfold Agent.execute
  cases a.executeChecks part plan with
  | error e => rfl
  | ok names => exact hc.startJointTrajectory part plan names now answer

namespace World

/-! ## Steps that keep every session -/

/-- Stack, grants and session flags are as before; clients change within their bindings. -/
structure KeepsSessions (w w' : World ι) : Prop where
  controlStack : w'.controlStack = w.controlStack
  grant : w'.grant = w.grant
  entries : w'.entries = w.entries
  popRefusals : w'.popRefusals = w.popRefusals
  session : ∀ i, (w.session i).Keeps (w'.session i)

theorem KeepsSessions.refl (w : World ι) : KeepsSessions w w :=
  ⟨rfl, rfl, rfl, rfl, fun i => Session.Keeps.refl (w.session i)⟩

theorem keepsSessions_of_self {w w' : World ι} {i : ι} (hs : SameElsewhere w w' i)
    (hc : w'.controlStack = w.controlStack) (hg : w'.grant = w.grant)
    (he : w'.entries = w.entries) (hp : w'.popRefusals = w.popRefusals)
    (hi : (w.session i).Keeps (w'.session i)) : KeepsSessions w w' where
  controlStack := hc
  grant := hg
  entries := he
  popRefusals := hp
  session j := by
    by_cases hj : j = i
    · rw [hj]
      exact hi
    · rw [hs.session j hj]
      exact Session.Keeps.refl (w.session j)

theorem keepsSessions_setSession {w : World ι} {i : ι} {s : Session}
    (h : (w.session i).Keeps s) : KeepsSessions w (w.setSession i s) := by
  refine keepsSessions_of_self (sameElsewhere_setSession w i s) rfl rfl rfl rfl ?_
  rw [setSession_self]
  exact h

theorem callback_keeps (w : World ι) (c : Callback) : KeepsSessions w (w.callback c) := by
  cases c <;> exact ⟨rfl, rfl, rfl, rfl, fun i => Session.Keeps.refl (w.session i)⟩

theorem act_keeps (w : World ι) (i : ι) (action : Action) (observation : Option Observation)
    (now : Stamp) : KeepsSessions w (w.act i action observation now).1 := by
  rcases act_cases w i action observation now with ha | ⟨d, ha⟩ | ⟨client, p, hsend, -, -, ha⟩
  · rw [ha]
    exact KeepsSessions.refl w
  · rw [ha]
    exact keepsSessions_setSession ⟨rfl, rfl, rfl, id, fun _ h => h⟩
  · rw [ha]
    have hs := agentSend_ok hsend
    have hk : (w.session i).Keeps ((w.publish i client p).session i) := by
      unfold publish
      rw [setSession_self]
      refine ⟨rfl, rfl, rfl, fun hu => ?_, fun g hg => (hg.send hs).1⟩
      obtain ⟨e, he⟩ := hu.send action.part action.command action.value now
      rw [hs] at he
      cases he
    exact keepsSessions_of_self (sameElsewhere_publish w i client p) rfl rfl rfl rfl hk

theorem execute_keeps (w : World ι) (i : ι) (part : String) (plan : ActionValue)
    (observation : Option Observation) (now : Stamp)
    (answer : ActionProviderClient.StartAnswer) :
    KeepsSessions w (w.execute i part plan observation now answer).1 := by
  rcases execute_cases w i part plan observation now answer with hx | ⟨d, goals, -, -, hx⟩
  · rw [hx]
    exact KeepsSessions.refl w
  · rw [hx]
    refine keepsSessions_of_self ⟨rfl, rfl, rfl, fun _ hj => setSession_ne w _ hj,
      fun _ _ => rfl, fun _ _ => rfl⟩ rfl rfl rfl rfl ?_
    rw [setSession_self]
    refine ⟨rfl, rfl, rfl, fun hu => ?_, fun g hg => ?_⟩
    · rw [agentExecute_unbound hu]
      exact hu
    · exact hg.of_sameStreams (agentExecute_sameStreams _ part plan _ now answer)

theorem waitPlan_keeps (w : World ι) (i : ι) (part : String)
    (answer : ActionProviderClient.ResultAnswer) :
    KeepsSessions w (w.waitPlan i part answer).1 :=
  keepsSessions_setSession ⟨rfl, rfl, rfl, fun hu => hu.waitJointTrajectory part answer,
    fun _ hg => hg.of_sameStreams
      (ActionProviderClient.waitJointTrajectory_sameStreams _ part answer)⟩

theorem cancelPlan_keeps (w : World ι) (i : ι) (part : String)
    (answer : ActionProviderClient.CancelAnswer) :
    KeepsSessions w (w.cancelPlan i part answer).1 :=
  keepsSessions_setSession ⟨rfl, rfl, rfl, fun hu => hu.cancelJointTrajectory part answer,
    fun _ hg => hg.of_sameStreams
      (ActionProviderClient.cancelJointTrajectory_sameStreams _ part answer)⟩

theorem releaseClaim_keeps (w : World ι) (i : ι) (answer : ReleaseAnswer) :
    KeepsSessions w (w.releaseClaim i answer).1 := by
  obtain ⟨sent, hs⟩ := releaseClaim_fst w i answer
  rw [hs]
  exact ⟨rfl, rfl, rfl, rfl, fun i => Session.Keeps.refl (w.session i)⟩

theorem exitRelease_keeps (w : World ι) (i : ι) (answer : ReleaseAnswer) :
    KeepsSessions w (w.exitRelease i answer).1 := by
  rcases exitRelease_fst w i answer with ⟨d, hr⟩ | ⟨sent, hr⟩
  · rw [hr]
    exact keepsSessions_setSession ⟨rfl, rfl, rfl, id, fun _ h => h⟩
  · rw [hr]
    exact ⟨rfl, rfl, rfl, rfl, fun i => Session.Keeps.refl (w.session i)⟩

/-! ## The invariant -/

def Inv (w : World ι) : Prop := ∀ i, SessionInv (w.session i) (w.grant i)

theorem Inv.of_keeps {w w' : World ι} (h : w.Inv) (hk : KeepsSessions w w') : w'.Inv := by
  intro i
  rw [hk.grant]
  exact (h i).of_keeps (hk.session i)

theorem Inv.of_self {w w' : World ι} {i : ι} (h : w.Inv) (hs : SameElsewhere w w' i)
    (hi : SessionInv (w'.session i) (w'.grant i)) : w'.Inv := by
  intro j
  by_cases hj : j = i
  · rw [hj]
    exact hi
  · rw [hs.session j hj, hs.grant j hj]
    exact h j

theorem inv_setSession {w : World ι} (h : w.Inv) {i : ι} {s : Session}
    (hi : SessionInv s (w.grant i)) : (w.setSession i s).Inv := by
  refine h.of_self (sameElsewhere_setSession w i s) ?_
  rw [setSession_self]
  exact hi

theorem inv_leave {w : World ι} (h : w.Inv) (i : ι) : (w.leave i).1.Inv := by
  by_cases hl : w.controlStack.getLast? = some i
  · rw [leave_last hl]
    exact inv_setSession h (sessionInv_closed (w.session i) (w.grant i))
  · rw [leave_refused hl]
    exact inv_setSession h (sessionInv_unbindClient (h i))

theorem inv_releaseClaim {w : World ι} (h : w.Inv) (i : ι) (answer : ReleaseAnswer) :
    (w.releaseClaim i answer).1.Inv := h.of_keeps (releaseClaim_keeps w i answer)

theorem inv_enterClaim {w : World ι} (h : w.Inv) (i : ι) (answer : ClaimAnswer) :
    (w.enterClaim i answer).1.Inv := by
  have hsame := sameElsewhere_enterClaim w i answer
  rcases enterClaim_cases w i answer with ⟨-, e, hc⟩ | ⟨g, -, hf, ⟨hne, -⟩ | ⟨-, hc⟩⟩
  · rw [hc]
    exact h
  · exact absurd ((h i).unbound hf).leaseId hne
  · refine h.of_self hsame ?_
    rw [hc]
    have hb := ActionProviderClient.boundTo_bind ((h i).unbound hf) g
    have hg : (w.recordGrant i g).grant i = some g := by simp [recordGrant]
    refine ⟨fun _ => ⟨g, hg, ?_⟩, Or.inr ⟨?_, g, hg, ?_⟩⟩
    · simp [beginWait, pushControl, recordGrant]
    · simp [beginWait, pushControl]
    · simpa [beginWait, pushControl] using hb

theorem inv_enterPoll {w : World ι} (h : w.Inv) (i : ι) (deadline : ℚ) (answer : ReleaseAnswer) :
    (w.enterPoll i deadline answer).1.Inv := by
  rcases enterPoll_cases w i deadline answer with ⟨-, hp⟩ | ⟨-, -, hp⟩ | ⟨-, -, e, hp⟩
  · rw [hp]
    exact h
  · rw [hp]
    exact h
  · rw [hp]
    exact inv_leave (inv_releaseClaim h i answer) i

theorem inv_exit {w : World ι} (h : w.Inv) (i : ι) (bodyRaised : Bool) (answer : ReleaseAnswer) :
    (w.exit i bodyRaised answer).1.Inv := by
  rw [exit_fst]
  exact inv_leave (h.of_keeps (exitRelease_keeps w i answer)) i

theorem inv_step {w : World ι} (h : w.Inv) (l : Label ι) : (w.step l).Inv := by
  cases l with
  | callback c => exact h.of_keeps (callback_keeps w c)
  | enter i answer => exact inv_enterClaim h i answer
  | poll i answer =>
    change (w.poll i answer).Inv
    unfold poll
    cases w.waiting i with
    | none => exact h
    | some deadline => exact inv_enterPoll h i deadline answer
  | exit i bodyRaised answer => exact inv_exit h i bodyRaised answer
  | act i action observation now => exact h.of_keeps (act_keeps w i action observation now)
  | execute i part plan observation now answer =>
    exact h.of_keeps (execute_keeps w i part plan observation now answer)
  | waitPlan i part answer => exact h.of_keeps (waitPlan_keeps w i part answer)
  | cancelPlan i part answer => exact h.of_keeps (cancelPlan_keeps w i part answer)

theorem inv_init (now : ℚ) (timeouts : Timeouts) (config : ι → SessionConfig)
    (sourceClient : ι → ActionProviderClient) : (init now timeouts config sourceClient).Inv :=
  fun i => sessionInv_new (config i) (sourceClient i) none

theorem inv_run {w : World ι} (h : w.Inv) (ls : List (Label ι)) : (Trace.run step w ls).Inv :=
  Trace.run_invariant' Inv (fun _ l hi => inv_step hi l) h ls

end World
end PhysicalAiRuntime.Control
