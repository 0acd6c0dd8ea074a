import PhysicalAiRuntime.Control.Stack

/-! One `__enter__` from its claim to the point where it returns or raises, and what becomes of the
lease on the way. The wait of `__enter__` covers the case that the confirming status does not come;
a response whose endpoints `claim` refuses leaves before the lease id is known to anybody who
could release it. -/
namespace PhysicalAiRuntime.Control
open Authority Provider
set_option autoImplicit false
set_option maxHeartbeats 250000
set_option linter.unusedSectionVars false

variable {ι : Type} [DecidableEq ι]

namespace World

/-! ## Callbacks during a sleep -/

structure SameControl (w w' : World ι) : Prop where
  session : w'.session = w.session
  controlStack : w'.controlStack = w.controlStack
  waiting : w'.waiting = w.waiting
  grant : w'.grant = w.grant
  entries : w'.entries = w.entries
  released : w'.released = w.released
  popRefusals : w'.popRefusals = w.popRefusals

theorem SameControl.refl (w : World ι) : SameControl w w := ⟨rfl, rfl, rfl, rfl, rfl, rfl, rfl⟩

theorem SameControl.trans {w w' w'' : World ι} (h : SameControl w w') (h' : SameControl w' w'') :
    SameControl w w'' where
  session := h'.session.trans h.session
  controlStack := h'.controlStack.trans h.controlStack
  waiting := h'.waiting.trans h.waiting
  grant := h'.grant.trans h.grant
  entries := h'.entries.trans h.entries
  released := h'.released.trans h.released
  popRefusals := h'.popRefusals.trans h.popRefusals

theorem sameControl_callback (w : World ι) (c : Callback) : SameControl w (w.callback c) := by
  cases c <;> exact ⟨rfl, rfl, rfl, rfl, rfl, rfl, rfl⟩

theorem sameControl_callbacks (w : World ι) (cs : List Callback) :
    SameControl w (cs.foldl callback w) := by
  induction cs generalizing w with
  | nil => exact SameControl.refl w
  | cons c cs ih => exact (sameControl_callback w c).trans (ih (w.callback c))

def Callback.elapsed : Callback → ℚ
  | .advance d => d
  | _ => 0

theorem now_callbacks (w : World ι) (cs : List Callback) :
    (cs.foldl callback w).now = w.now + (cs.map Callback.elapsed).sum := by
  induction cs generalizing w with
  | nil => simp
  | cons c cs ih =>
    have hc : (w.callback c).now = w.now + c.elapsed := by
      cases c <;> simp [callback, Callback.elapsed]
    rw [List.foldl_cons, ih, hc, List.map_cons, List.sum_cons, add_assoc]

/-! ## The wait -/

/-- A look ends the wait, or finds the deadline ahead and changes nothing. -/
theorem enterPoll_ends (w : World ι) (i : ι) (deadline : ℚ) (answer : ReleaseAnswer) :
    (∃ w' result, w.enterPoll i deadline answer = (w', some result)) ∨
      (w.now < deadline ∧ w.enterPoll i deadline answer = (w, none)) := by
  rcases enterPoll_cases w i deadline answer with ⟨-, hp⟩ | ⟨-, hlt, hp⟩ | ⟨-, -, e, hp⟩
  · exact Or.inl ⟨_, _, hp⟩
  · exact Or.inr ⟨hlt, hp⟩
  · exact Or.inl ⟨_, _, hp⟩

theorem awaitActive_of_ends {i : ι} {deadline : ℚ} {answer : ReleaseAnswer} {w w' : World ι}
    {result : Except PyError Unit} (hp : w.enterPoll i deadline answer = (w', some result))
    (history : List (List Callback)) :
    awaitActive i deadline answer w history = some (w', result) := by
  cases history with
  | nil =>
    unfold awaitActive
    rw [hp]
  | cons sleep history =>
    unfold awaitActive
    rw [hp]

/-- A wait that ends does so in a look after some callbacks. -/
theorem awaitActive_looks {i : ι} {deadline : ℚ} {answer : ReleaseAnswer} {w w' : World ι}
    {history : List (List Callback)} {result : Except PyError Unit}
    (h : awaitActive i deadline answer w history = some (w', result)) :
    ∃ cs : List Callback,
      (cs.foldl callback w).enterPoll i deadline answer = (w', some result) := by
  induction history generalizing w with
  | nil =>
    rcases enterPoll_ends w i deadline answer with ⟨v, r, hp⟩ | ⟨-, hp⟩
    · rw [awaitActive_of_ends hp] at h
      cases h
      exact ⟨[], hp⟩
    · unfold awaitActive at h
      rw [hp] at h
      cases h
  | cons sleep history ih =>
    rcases enterPoll_ends w i deadline answer with ⟨v, r, hp⟩ | ⟨-, hp⟩
    · rw [awaitActive_of_ends hp] at h
      cases h
      exact ⟨[], hp⟩
    · unfold awaitActive at h
      rw [hp] at h
      obtain ⟨cs, hcs⟩ := ih h
      refine ⟨sleep ++ cs, ?_⟩
      rw [List.foldl_append]
      exact hcs

theorem awaitActive_cases {i : ι} {deadline : ℚ} {answer : ReleaseAnswer} {w w' : World ι}
    {history : List (List Callback)} {result : Except PyError Unit}
    (h : awaitActive i deadline answer w history = some (w', result)) :
    ∃ w1, SameControl w w1 ∧ w1.enterPoll i deadline answer = (w', some result) := by
  obtain ⟨cs, hcs⟩ := awaitActive_looks h
  exact ⟨_, sameControl_callbacks w cs, hcs⟩

/-- The wait ends at the latest when the clock has reached the deadline. -/
theorem awaitActive_returns {i : ι} {deadline : ℚ} {answer : ReleaseAnswer} {w : World ι}
    {history : List (List Callback)} (h : deadline ≤ (history.flatten.foldl callback w).now) :
    ∃ outcome, awaitActive i deadline answer w history = some outcome := by
  induction history generalizing w with
  | nil =>
    rcases enterPoll_ends w i deadline answer with ⟨v, r, hp⟩ | ⟨hlt, -⟩
    · exact ⟨_, awaitActive_of_ends hp []⟩
    · exact absurd h (not_le.mpr hlt)
  | cons sleep history ih =>
    rcases enterPoll_ends w i deadline answer with ⟨v, r, hp⟩ | ⟨-, hp⟩
    · exact ⟨_, awaitActive_of_ends hp (sleep :: history)⟩
    · rw [List.flatten_cons, List.foldl_append] at h
      obtain ⟨outcome, ho⟩ := ih h
      unfold awaitActive
      exact ⟨outcome, by rw [hp]; exact ho⟩

theorem enterPoll_run {w w' : World ι} {i : ι} {deadline : ℚ} {answer : ReleaseAnswer}
    {result : Option (Except PyError Unit)} (hw : w.waiting i = some deadline)
    (h : w.enterPoll i deadline answer = (w', result)) :
    w' = Trace.run step w [.poll i answer] := by
  change w' = w.poll i answer
  unfold poll
  rw [hw]
  exact (congrArg Prod.fst h).symm

theorem callbacks_run (w : World ι) (cs : List Callback) :
    cs.foldl callback w = Trace.run step w (cs.map Label.callback) := by
  unfold Trace.run
  rw [List.foldl_map]
  rfl

theorem awaitActive_run {i : ι} {deadline : ℚ} {answer : ReleaseAnswer} {w w' : World ι}
    {history : List (List Callback)} {result : Except PyError Unit}
    (hw : w.waiting i = some deadline)
    (h : awaitActive i deadline answer w history = some (w', result)) :
    ∃ ls, w' = Trace.run step w ls := by
  obtain ⟨cs, hcs⟩ := awaitActive_looks h
  have hwaiting : (cs.foldl callback w).waiting i = some deadline := by
    rw [(sameControl_callbacks w cs).waiting]
    exact hw
  refine ⟨cs.map Label.callback ++ [.poll i answer], ?_⟩
  rw [Trace.run_append, ← callbacks_run]
  exact enterPoll_run hwaiting hcs

/-! ## The whole entry -/

/-- Session `i` entered with the lease of `g` and its client bound to it, before the wait. -/
def granted (w : World ι) (i : ι) (g : LeaseGrant) : World ι :=
  (w.recordGrant i g).beginWait i { (w.session i).client with
    leaseId := g.leaseId, bindings := g.endpoints }

/-- The three ends of an entry: it failed before anything was recorded, the status confirmed the
grant, or the wait for it ran into its deadline. -/
theorem enter_cases {w w' : World ι} {i : ι} {claim : ClaimAnswer}
    {history : List (List Callback)} {release : ReleaseAnswer} {result : Except PyError Unit}
    (hi : (w.session i).entered = false → (w.session i).client.leaseId = "")
    (h : w.enter i claim history release = some (w', result)) :
    (w' = w ∧ ((w.session i).entered = true ∨ ∃ e, claimFor (w.session i) claim = .error e) ∧
      ∃ e, result = .error e) ∨
    ∃ g w1, (w.session i).entered = false ∧ claimFor (w.session i) claim = .ok g ∧
      SameControl (w.granted i g) w1 ∧
      ((result = .ok () ∧ w1.active i = true ∧
          w' = { w1 with waiting := Function.update w1.waiting i none }) ∨
        ∃ e w2, result = .error e ∧ w2 = ((w1.releaseClaim i release).1.leave i).1 ∧
          w' = { w2 with waiting := Function.update w2.waiting i none }) := by
  unfold enter at h
  rcases enterClaim_cases w i claim with ⟨hr, e, hc⟩ | ⟨g, hg, hn, ⟨hne, -⟩ | ⟨-, hc⟩⟩
  · rw [hc] at h
    cases h
    exact Or.inl ⟨rfl, hr, e, rfl⟩
  · exact absurd (hi hn) hne
  · rw [hc] at h
    obtain ⟨w1, hs, hp⟩ := awaitActive_cases h
    refine Or.inr ⟨g, w1, hn, hg, hs, ?_⟩
    rcases enterPoll_cases w1 i _ release with ⟨ha, hp1⟩ | ⟨-, -, hp1⟩ | ⟨-, -, e, hp1⟩
    · rw [hp1] at hp
      cases hp
      exact Or.inl ⟨rfl, ha, rfl⟩
    · rw [hp1] at hp
      cases hp
    · rw [hp1] at hp
      cases hp
      exact Or.inr ⟨e, _, rfl, rfl, rfl⟩

theorem beginWait_waiting (w : World ι) (i : ι) (client : ActionProviderClient) :
    (w.beginWait i client).waiting i =
      some ((w.beginWait i client).now +
        ((w.beginWait i client).session i).config.acquireTimeout) := by
  simp [beginWait, pushControl, setSession]

theorem enter_run {w w' : World ι} {i : ι} {claim : ClaimAnswer} {history : List (List Callback)}
    {release : ReleaseAnswer} {result : Except PyError Unit}
    (h : w.enter i claim history release = some (w', result)) :
    ∃ ls, w' = Trace.run step w ls := by
  unfold enter at h
  rcases enterClaim_cases w i claim with ⟨-, e, hc⟩ | ⟨g, -, -, ⟨-, e, hc⟩ | ⟨-, hc⟩⟩
  · rw [hc] at h
    cases h
    exact ⟨[], rfl⟩
  · rw [hc] at h
    cases h
    refine ⟨[.enter i claim], ?_⟩
    change _ = (w.enterClaim i claim).1
    rw [hc]
  · rw [hc] at h
    obtain ⟨ls, hls⟩ := awaitActive_run (beginWait_waiting _ i _) h
    refine ⟨.enter i claim :: ls, ?_⟩
    rw [Trace.run_cons]
    change _ = Trace.run step (w.enterClaim i claim).1 ls
    rw [hc]
    exact hls

/-- An entry returns or raises once its acquire timeout has passed. -/
theorem enter_returns {w : World ι} {i : ι} {claim : ClaimAnswer}
    {history : List (List Callback)} {release : ReleaseAnswer}
    (h : (w.session i).config.acquireTimeout ≤ (history.flatten.map Callback.elapsed).sum) :
    ∃ outcome, w.enter i claim history release = some outcome := by
  unfold enter
  rcases enterClaim_cases w i claim with ⟨-, e, hc⟩ | ⟨g, -, -, ⟨-, e, hc⟩ | ⟨-, hc⟩⟩
  · exact ⟨_, by rw [hc]⟩
  · exact ⟨_, by rw [hc]⟩
  · rw [hc]
    refine awaitActive_returns ?_
    rw [now_callbacks]
    have ht : ∀ client, ((((w.recordGrant i g).beginWait i client).session i).config).acquireTimeout
        = (w.session i).config.acquireTimeout := by
      intro client
      simp [beginWait, pushControl, recordGrant]
    rw [ht]
    linarith

/-! ## The lease of a failed entry -/

theorem releaseClaim_released (w : World ι) (i : ι) (answer : ReleaseAnswer) {leaseId : String}
    (hl : (w.session i).leaseId = some leaseId) :
    (w.releaseClaim i answer).1.released =
      w.released ++ if leaseId ≠ "" ∧ answer.sends = true then [leaseId] else [] := by
  unfold releaseClaim
  rw [hl]
  by_cases hne : leaseId = ""
  · simp [hne]
  · have hsent := ExecutionManagerClient.release_sent_iff leaseId answer
    by_cases ha : answer.sends = true
    · have ht := hsent.mpr ⟨hne, ha⟩
      simp [hne, ha, ht]
    · have ht : ¬ (ExecutionManagerClient.release leaseId answer).1 = true :=
        fun hs => ha (hsent.mp hs).2
      simp [hne, ha, ht]

/-- What a failed `__enter__` of session `i` owes when the manager had granted it `leaseId`. -/
structure LeaseReturned (w w' : World ι) (i : ι) (leaseId : String) : Prop where
  released : ∃ sent, w'.released = w.released ++ sent ∧ leaseId ∈ sent
  notEntered : (w'.session i).entered = false
  offStack : i ∉ w'.controlStack
  unbound : (w'.session i).client.Unbound

theorem leave_released (w : World ι) (i : ι) : (w.leave i).1.released = w.released := by
  by_cases hl : w.controlStack.getLast? = some i
  · rw [leave_last hl]
    rfl
  · rw [leave_refused hl]
    rfl

/-- The session on top of the stack leaves it, unbound and no longer entered. -/
theorem leave_closes {w : World ι} {i : ι} {outer : List ι} (hstack : w.controlStack = outer ++ [i])
    (hni : i ∉ outer) : ((w.leave i).1.session i).entered = false ∧
      i ∉ (w.leave i).1.controlStack ∧ ((w.leave i).1.session i).client.Unbound := by
  have hlast : w.controlStack.getLast? = some i := by simp [hstack]
  have hdrop : w.controlStack.dropLast = outer := by simp [hstack]
  rw [leave_last hlast]
  refine ⟨?_, ?_, ?_⟩
  · simp [Session.closed]
  · change i ∉ w.controlStack.dropLast
    rw [hdrop]
    exact hni
  · simpa [Session.closed, Session.unbindClient] using
      ActionProviderClient.unbound_unbind (w.session i).client

/-- The timeout branch of the wait, reached with session `i` on top of the stack. -/
theorem leaseReturned_timeout {w w1 : World ι} {i : ι} {g : LeaseGrant} (answer : ReleaseAnswer)
    (hstack : w.StackInv) (hn : (w.session i).entered = false)
    (hs : SameControl (w.granted i g) w1) :
    LeaseReturned w ((w1.releaseClaim i answer).1.leave i).1 i g.leaseId ↔
      g.leaseId ≠ "" ∧ answer.sends = true := by
  have hni : i ∉ w.controlStack := by
    rw [← hstack.entered i, hn]
    exact Bool.false_ne_true
  have hlease : (w1.session i).leaseId = some g.leaseId := by
    rw [hs.session]
    simp [granted, beginWait, pushControl, recordGrant]
  have hreleased : ((w1.releaseClaim i answer).1.leave i).1.released =
      w.released ++ if g.leaseId ≠ "" ∧ answer.sends = true then [g.leaseId] else [] := by
    rw [leave_released, releaseClaim_released w1 i answer hlease,
      show w1.released = w.released from hs.released]
  constructor
  · intro h
    obtain ⟨sent, h1, h2⟩ := h.released
    rw [hreleased] at h1
    by_contra hc
    rw [if_neg hc, List.append_right_inj] at h1
    rw [← h1] at h2
    exact List.not_mem_nil h2
  · intro hc
    rw [if_pos hc] at hreleased
    have hpushed : (w1.releaseClaim i answer).1.controlStack = w.controlStack ++ [i] := by
      obtain ⟨sent, hsent⟩ := releaseClaim_fst w1 i answer
      rw [hsent]
      exact hs.controlStack
    obtain ⟨hentered, hoff, hunbound⟩ := leave_closes hpushed hni
    exact ⟨⟨[g.leaseId], hreleased, List.mem_singleton_self _⟩, hentered, hoff, hunbound⟩

/-- The request of the claim can be built, so that the manager receives it. -/
def ClaimSent (s : Session) : Prop :=
  ∃ q, ExecutionManagerClient.claimRequest s.config.source.sourceRole
    s.config.source.sourceInstance s.config.resources s.config.preempt
    s.config.source.metadata = .ok q

theorem claimFor_success {s : Session} (h : ClaimSent s) {r : ClaimResponse}
    (hr : r.success = true) : claimFor s (.response r) =
      if ExecutionManagerClient.endpointsComplete s.config.resources r then
        .ok ⟨r.leaseId, ExecutionManagerClient.responseBindings r⟩
      else .error ⟨.runtimeError, "Execution Manager returned incomplete endpoint bindings"⟩ := by
  obtain ⟨q, hq⟩ := h
  unfold claimFor ExecutionManagerClient.claim
  rw [hq]
  change ExecutionManagerClient.claimResult s.config.resources (.response r) = _
  by_cases hc : ExecutionManagerClient.endpointsComplete s.config.resources r = true
  · simp [ExecutionManagerClient.claimResult, hr, hc]
  · simp [ExecutionManagerClient.claimResult, hr, hc]

/-- **A failed entry returns its lease** exactly when the manager named a lease and all of the
requested endpoints, and the release request could be sent. -/
theorem enter_leaseReturned_iff (now : ℚ) (timeouts : Timeouts) (config : ι → SessionConfig)
    (sourceClient : ι → ActionProviderClient) (ls : List (Label ι)) (i : ι) (r : ClaimResponse)
    (history : List (List Callback)) (release : ReleaseAnswer) (w w' : World ι) (e : PyError)
    (hw : w = Trace.run step (init now timeouts config sourceClient) ls)
    (hsent : ClaimSent (w.session i)) (hn : (w.session i).entered = false)
    (hsuccess : r.success = true)
    (h : w.enter i (.response r) history release = some (w', .error e)) :
    LeaseReturned w w' i r.leaseId ↔
      ExecutionManagerClient.endpointsComplete (w.session i).config.resources r = true ∧
        r.leaseId ≠ "" ∧ release.sends = true := by
  have hinv : w.Inv := hw ▸ inv_run (inv_init now timeouts config sourceClient) ls
  have hstack : w.StackInv := hw ▸ stackInv_run (stackInv_init now timeouts config sourceClient) ls
  have hclaim := claimFor_success hsent hsuccess
  rcases enter_cases (fun hf => ((hinv i).unbound hf).leaseId) h with
    ⟨rfl, hrefused, -⟩ | ⟨g, w1, -, hg, hs, ⟨hok, -⟩ | ⟨e1, w2, -, h2, h1⟩⟩
  · constructor
    · intro hret
      obtain ⟨sent, hsent', hmem⟩ := hret.released
      rw [List.self_eq_append_right.mp hsent'] at hmem
      exact absurd hmem List.not_mem_nil
    · intro hcond
      rw [if_pos hcond.1] at hclaim
      rcases hrefused with ht | ⟨e', he'⟩
      · rw [hn] at ht
        cases ht
      · rw [hclaim] at he'
        cases he'
  · cases hok
  · rw [hclaim] at hg
    by_cases hc : ExecutionManagerClient.endpointsComplete (w.session i).config.resources r = true
    · rw [if_pos hc] at hg
      cases hg
      have hiff := leaseReturned_timeout release hstack hn hs
      rw [← h2] at hiff
      constructor
      · intro hret
        rw [h1] at hret
        exact ⟨hc, hiff.mp ⟨hret.released, hret.notEntered, hret.offStack, hret.unbound⟩⟩
      · intro hcond
        have hret := hiff.mpr hcond.2
        rw [h1]
        exact ⟨hret.released, hret.notEntered, hret.offStack, hret.unbound⟩
    · rw [if_neg hc] at hg
      cases hg

/-! ## One arm -/

def armSource : Agent where
  name := "teleop"
  sourceRole := .teleop
  sourceInstance := "teleop"
  metadata := []
  resources := Dict.ofPairs [("arm", "joint_reference")]
  config := none

def armConfig : SessionConfig :=
  ⟨armSource, ["arm"], false, 1, by decide, by decide, by decide⟩

def armEndpoint : EndpointBinding := ⟨"arm", "joint_reference", "/arm/joint_reference", false⟩

def armWorld : World Unit :=
  init 0 Timeouts.default (fun _ => armConfig) fun _ => ActionProviderClient.new none

/-- The manager grants the lease, no status follows, the entry times out and gives it back. -/
theorem enter_leaseReturned_arm : ∃ w' e,
    armWorld.enter () (.response ⟨true, "", "lease-1", [armEndpoint]⟩) [[.advance 6]]
      (.response true "") = some (w', .error e) ∧ LeaseReturned armWorld w' () "lease-1" := by
  have hresult : (armWorld.enter () (.response ⟨true, "", "lease-1", [armEndpoint]⟩)
      [[.advance 6]] (.response true "")).map (fun o => o.2.isOk) = some false := by
    decide +kernel
  obtain ⟨⟨w', result⟩, h, hf⟩ := Option.map_eq_some_iff.mp hresult
  cases result with
  | ok _ => cases hf
  | error e =>
    refine ⟨w', e, h, ?_⟩
    refine (enter_leaseReturned_iff 0 Timeouts.default (fun _ => armConfig)
      (fun _ => ActionProviderClient.new none) [] () ⟨true, "", "lease-1", [armEndpoint]⟩
      [[.advance 6]] (.response true "") armWorld w' e rfl ⟨_, rfl⟩ rfl rfl h).mpr ?_
    exact ⟨by decide, by decide, by decide⟩

/-- The manager adds an endpoint that was not asked for: `__enter__` raises, and nobody gives back
the lease it was granted. -/
theorem enter_loses_lease : ∃ w' e,
    armWorld.enter () (.response ⟨true, "", "lease-1",
      [armEndpoint, ⟨"gripper", "joint_reference", "/gripper/joint_reference", false⟩]⟩) []
      (.response true "") = some (w', .error e) ∧ ¬ LeaseReturned armWorld w' () "lease-1" := by
  refine ⟨armWorld, ⟨.runtimeError,
    "Execution Manager returned incomplete endpoint bindings"⟩, rfl, ?_⟩
  intro hret
  obtain ⟨sent, h1, h2⟩ := hret.released
  rw [List.self_eq_append_right.mp h1] at h2
  exact List.not_mem_nil h2

end World
end PhysicalAiRuntime.Control
