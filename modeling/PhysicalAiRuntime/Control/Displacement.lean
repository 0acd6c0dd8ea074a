import PhysicalAiRuntime.Foundations.Feed
import PhysicalAiRuntime.Control.Fencing
import PhysicalAiRuntime.Control.Entry

/-! A process together with the Execution Manager whose snapshots it receives. The manager never
reuses a lease id and never gives a part back to a lease that lost it; snapshots may be skipped but
arrive in order. Under these assumptions a part is commanded by one session at a time, and a session
that was shown to have lost a part stays inactive until it is entered anew. -/
namespace PhysicalAiRuntime.Control
open Authority Provider
set_option autoImplicit false
set_option maxHeartbeats 250000
set_option linter.unusedSectionVars false

variable {ι : Type} [DecidableEq ι]

/-! ## Leases of the sessions of a process -/

namespace World

/-- Configurations, lease ids, entry counters and the status cache are as before. -/
structure SameLeases (w w' : World ι) : Prop where
  config : ∀ i, (w'.session i).config = (w.session i).config
  leaseId : ∀ i, (w'.session i).leaseId = (w.session i).leaseId
  entries : w'.entries = w.entries
  selection : w'.selection = w.selection

theorem SameLeases.refl (w : World ι) : SameLeases w w :=
  ⟨fun _ => rfl, fun _ => rfl, rfl, rfl⟩

theorem SameLeases.trans {w w' w'' : World ι} (h : SameLeases w w') (h' : SameLeases w' w'') :
    SameLeases w w'' where
  config i := (h'.config i).trans (h.config i)
  leaseId i := (h'.leaseId i).trans (h.leaseId i)
  entries := h'.entries.trans h.entries
  selection := h'.selection.trans h.selection

theorem KeepsSessions.sameLeases {w w' : World ι} (h : KeepsSessions w w')
    (hs : w'.selection = w.selection) : SameLeases w w' :=
  ⟨fun i => (h.session i).config, fun i => (h.session i).leaseId, h.entries, hs⟩

theorem sameLeases_setSession {w : World ι} {i : ι} {s : Session}
    (hc : s.config = (w.session i).config) (hl : s.leaseId = (w.session i).leaseId) :
    SameLeases w (w.setSession i s) where
  config j := by
    by_cases hj : j = i
    · rw [hj, setSession_self, hc]
    · rw [setSession_ne w s hj]
  leaseId j := by
    by_cases hj : j = i
    · rw [hj, setSession_self, hl]
    · rw [setSession_ne w s hj]
  entries := rfl
  selection := rfl

theorem sameLeases_leave (w : World ι) (i : ι) : SameLeases w (w.leave i).1 := by
  by_cases hl : w.controlStack.getLast? = some i
  · rw [leave_last hl]
    have h := sameLeases_setSession (w := w) (i := i) (s := (w.session i).closed) rfl rfl
    exact ⟨h.config, h.leaseId, h.entries, h.selection⟩
  · rw [leave_refused hl]
    have h := sameLeases_setSession (w := w) (i := i) (s := (w.session i).unbindClient) rfl rfl
    exact ⟨h.config, h.leaseId, h.entries, h.selection⟩

theorem sameLeases_releaseClaim (w : World ι) (i : ι) (answer : ReleaseAnswer) :
    SameLeases w (w.releaseClaim i answer).1 := by
  obtain ⟨sent, h⟩ := releaseClaim_fst w i answer
  rw [h]
  exact ⟨fun _ => rfl, fun _ => rfl, rfl, rfl⟩

theorem sameLeases_enterPoll (w : World ι) (i : ι) (deadline : ℚ) (answer : ReleaseAnswer) :
    SameLeases w (w.enterPoll i deadline answer).1 := by
  rcases enterPoll_cases w i deadline answer with ⟨-, h⟩ | ⟨-, -, h⟩ | ⟨-, -, e, h⟩
  · rw [h]
    exact ⟨fun _ => rfl, fun _ => rfl, rfl, rfl⟩
  · rw [h]
    exact SameLeases.refl w
  · have hl := (sameLeases_releaseClaim w i answer).trans
      (sameLeases_leave (w.releaseClaim i answer).1 i)
    rw [h]
    exact ⟨hl.config, hl.leaseId, hl.entries, hl.selection⟩

theorem sameLeases_exit (w : World ι) (i : ι) (bodyRaised : Bool) (answer : ReleaseAnswer) :
    SameLeases w (w.exit i bodyRaised answer).1 := by
  rw [exit_fst]
  refine SameLeases.trans ?_ (sameLeases_leave (w.exitRelease i answer).1 i)
  rcases exitRelease_fst w i answer with ⟨d, h⟩ | ⟨sent, h⟩
  · rw [h]
    exact sameLeases_setSession rfl rfl
  · rw [h]
    exact ⟨fun _ => rfl, fun _ => rfl, rfl, rfl⟩

/-- Session `i` took the lease of a successful response, and its entry counter went up. -/
structure TakesLease (w w' : World ι) (i : ι) (leaseId : String) : Prop where
  config : ∀ j, (w'.session j).config = (w.session j).config
  leaseId : (w'.session i).leaseId = some leaseId
  entries : w'.entries i = w.entries i + 1
  otherLease : ∀ j, j ≠ i → (w'.session j).leaseId = (w.session j).leaseId
  otherEntries : ∀ j, j ≠ i → w'.entries j = w.entries j
  selection : w'.selection = w.selection

theorem takesLease_recordGrant (w : World ι) (i : ι) (g : LeaseGrant) :
    TakesLease w (w.recordGrant i g) i g.leaseId := by
  have hs := sameElsewhere_recordGrant w i g
  refine ⟨fun j => ?_, ?_, ?_, fun j hj => ?_, fun j hj => hs.entries j hj, rfl⟩
  · by_cases hj : j = i
    · rw [hj]
      simp [recordGrant]
    · rw [hs.session j hj]
  · simp [recordGrant]
  · simp [recordGrant]
  · rw [hs.session j hj]

theorem TakesLease.beginWait {w w' : World ι} {i : ι} {leaseId : String}
    (h : TakesLease w w' i leaseId) (client : ActionProviderClient) :
    TakesLease w (w'.beginWait i client) i leaseId := by
  have hs : SameLeases w' (w'.beginWait i client) := by
    have h := sameLeases_setSession (w := w') (i := i)
      (s := { w'.session i with client := client, entered := true }) rfl rfl
    exact ⟨h.config, h.leaseId, h.entries, h.selection⟩
  refine ⟨fun j => (hs.config j).trans (h.config j), (hs.leaseId i).trans h.leaseId, ?_,
    fun j hj => (hs.leaseId j).trans (h.otherLease j hj), fun j hj => ?_,
    hs.selection.trans h.selection⟩
  · rw [hs.entries]
    exact h.entries
  · rw [hs.entries]
    exact h.otherEntries j hj

/-- A step is a callback, changes no lease, or is an entry that takes the lease of its response. -/
theorem step_leases (w : World ι) (l : Label ι) :
    (∃ c, l = .callback c) ∨ SameLeases w (w.step l) ∨
    ∃ i r, l = .enter i (.response r) ∧ r.success = true ∧ TakesLease w (w.step l) i r.leaseId := by
  cases l with
  | callback c => exact Or.inl ⟨c, rfl⟩
  | enter i answer =>
    refine Or.inr ?_
    change SameLeases w (w.enterClaim i answer).1 ∨ ∃ i' r, _ ∧ _ ∧
      TakesLease w (w.enterClaim i answer).1 i' _
    rcases enterClaim_cases w i answer with ⟨-, e, hc⟩ | ⟨g, hg, -, hcase⟩
    · rw [hc]
      exact Or.inl (SameLeases.refl w)
    · obtain ⟨r, rfl, hr, -, rfl⟩ := ExecutionManagerClient.claim_ok hg
      have ht := takesLease_recordGrant w i ⟨r.leaseId, ExecutionManagerClient.responseBindings r⟩
      refine Or.inr ⟨i, r, rfl, hr, ?_⟩
      rcases hcase with ⟨-, e, hc⟩ | ⟨-, hc⟩
      · rw [hc]
        exact ht
      · rw [hc]
        exact ht.beginWait _
  | poll i answer =>
    refine Or.inr (Or.inl ?_)
    change SameLeases w (w.poll i answer)
    unfold poll
    cases w.waiting i with
    | none => exact SameLeases.refl w
    | some deadline => exact sameLeases_enterPoll w i deadline answer
  | exit i bodyRaised answer => exact Or.inr (Or.inl (sameLeases_exit w i bodyRaised answer))
  | act i action observation now =>
    exact Or.inr (Or.inl ((act_keeps w i action observation now).sameLeases
      (sameElsewhere_act w i action observation now).selection))
  | execute i part plan observation now answer =>
    exact Or.inr (Or.inl ((execute_keeps w i part plan observation now answer).sameLeases
      (sameElsewhere_execute w i part plan observation now answer).selection))
  | waitPlan i part answer => exact Or.inr (Or.inl (sameLeases_setSession rfl rfl))
  | cancelPlan i part answer => exact Or.inr (Or.inl (sameLeases_setSession rfl rfl))

end World

/-! ## The process and its manager -/

/-- The lease a snapshot names as the holder of a part. -/
def attributed (part : String) (m : AuthorityStatus) : Option String :=
  match m.allocations.get? part with
  | none => none
  | some a => if a.leaseId = "" then none else some a.leaseId

/-- `snapshots` are the states the manager went through, `delivered` the position of the last one
the process received, `leases` the lease ids handed to the process. -/
structure Deployment (ι : Type) where
  world : World ι
  snapshots : List AuthorityStatus
  delivered : Option ℕ
  leases : List String

namespace Deployment

inductive Event (ι : Type) where
  | manager (m : AuthorityStatus)
  | deliver (n : ℕ)
  | process (l : Label ι)

def grantedLease : Label ι → List String
  | .enter _ (.response r) => if r.success then [r.leaseId] else []
  | _ => []

def step (s : Deployment ι) : Event ι → Deployment ι
  | .manager m => { s with snapshots := s.snapshots ++ [m] }
  | .deliver n =>
    match s.snapshots[n]? with
    | none => s
    | some m => { s with world := s.world.callback (.status m), delivered := some n }
  | .process l => { s with world := s.world.step l, leases := s.leases ++ grantedLease l }

/-- What is assumed of the manager and of the delivery of its snapshots. -/
def Assumed (s : Deployment ι) : Event ι → Prop
  | .manager m => ∀ part leaseId, Feed.GivenUp (attributed part) s.snapshots leaseId →
      attributed part m ≠ some leaseId
  | .deliver n => Feed.CanRead s.snapshots s.delivered n
  | .process (.callback (.status _)) => False
  | .process l => ∀ leaseId ∈ grantedLease l, leaseId ∉ s.leases

def init (now : ℚ) (timeouts : Timeouts) (config : ι → SessionConfig)
    (sourceClient : ι → ActionProviderClient) : Deployment ι :=
  ⟨World.init now timeouts config sourceClient, [], none, []⟩

/-! ## What is true in every state -/

/-- The cache holds the snapshot delivered last. -/
def CacheInv (s : Deployment ι) : Prop :=
  match s.delivered with
  | none => s.world.selection.lastStatusMonotonic = none
  | some k => ∃ m, s.snapshots[k]? = some m ∧ s.world.selection.allocations = m.allocations

structure Inv (s : Deployment ι) : Prop where
  known : ∀ i l, (s.world.session i).leaseId = some l → l ∈ s.leases
  unique : ∀ i j l, (s.world.session i).leaseId = some l → (s.world.session j).leaseId = some l →
    i = j
  cache : s.CacheInv
  neverReturns : ∀ part, Feed.NeverReturns (attributed part) s.snapshots

theorem CacheInv.of_same {s s' : Deployment ι} (h : s.CacheInv)
    (hp : s.snapshots <+: s'.snapshots) (hd : s'.delivered = s.delivered)
    (ht : s'.world.selection.lastStatusMonotonic = s.world.selection.lastStatusMonotonic)
    (ha : s'.world.selection.allocations = s.world.selection.allocations) : s'.CacheInv := by
  unfold CacheInv at h ⊢
  rw [hd, ht, ha]
  cases hk : s.delivered with
  | none =>
    rw [hk] at h
    exact h
  | some k =>
    rw [hk] at h
    obtain ⟨m, hm, hma⟩ := h
    exact ⟨m, Feed.held_of_prefix hp hm, hma⟩

theorem inv_manager {s : Deployment ι} (h : s.Inv) {m : AuthorityStatus}
    (hm : s.Assumed (.manager m)) : (s.step (.manager m)).Inv where
  known := h.known
  unique := h.unique
  cache := h.cache.of_same (List.prefix_append s.snapshots [m]) rfl rfl rfl
  neverReturns part := Feed.neverReturns_append (h.neverReturns part) (hm part)

theorem step_deliver {s : Deployment ι} {n : ℕ} {m : AuthorityStatus}
    (hn : s.snapshots[n]? = some m) : s.step (.deliver n) =
      { s with world := s.world.callback (.status m), delivered := some n } := by
  simp [step, hn]

theorem inv_deliver {s : Deployment ι} (h : s.Inv) (n : ℕ) : (s.step (.deliver n)).Inv := by
  cases hn : s.snapshots[n]? with
  | none => simpa [step, hn] using h
  | some m =>
    rw [step_deliver hn]
    exact ⟨h.known, h.unique, ⟨m, hn, rfl⟩, h.neverReturns⟩

theorem inv_takesLease {s : Deployment ι} (h : s.Inv) {i : ι} {leaseId : String} {w' : World ι}
    (ht : World.TakesLease s.world w' i leaseId) (hfresh : leaseId ∉ s.leases) :
    Inv { s with world := w', leases := s.leases ++ [leaseId] } where
  known j l hl := by
    by_cases hj : j = i
    · rw [hj, show (w'.session i).leaseId = some leaseId from ht.leaseId] at hl
      cases hl
      simp
    · rw [show (w'.session j).leaseId = (s.world.session j).leaseId from ht.otherLease j hj] at hl
      exact List.mem_append_left _ (h.known j l hl)
  unique j k l hj hk := by
    have hold : ∀ m, m ≠ i → (w'.session m).leaseId = some l → l ∈ s.leases := by
      intro m hm hml
      rw [ht.otherLease m hm] at hml
      exact h.known m l hml
    have hnew : (w'.session i).leaseId = some l → l = leaseId := by
      intro hil
      rw [ht.leaseId] at hil
      exact (Option.some.inj hil).symm
    by_cases hji : j = i
    · by_cases hki : k = i
      · rw [hji, hki]
      · have hl := hnew (hji ▸ hj)
        exact absurd (hold k hki hk) (hl ▸ hfresh)
    · by_cases hki : k = i
      · have hl := hnew (hki ▸ hk)
        exact absurd (hold j hji hj) (hl ▸ hfresh)
      · change (w'.session j).leaseId = some l at hj
        change (w'.session k).leaseId = some l at hk
        rw [ht.otherLease j hji] at hj
        rw [ht.otherLease k hki] at hk
        exact h.unique j k l hj hk
  cache := h.cache.of_same (List.prefix_refl _) rfl
    (congrArg ExecutionManagerClient.lastStatusMonotonic ht.selection)
    (congrArg ExecutionManagerClient.allocations ht.selection)
  neverReturns := h.neverReturns

theorem inv_sameLeases {s : Deployment ι} (h : s.Inv) {w' : World ι}
    (hw : World.SameLeases s.world w') (leases : List String) :
    Inv { s with world := w', leases := s.leases ++ leases } where
  known i l hl := by
    change (w'.session i).leaseId = some l at hl
    rw [hw.leaseId i] at hl
    exact List.mem_append_left _ (h.known i l hl)
  unique i j l hi hj := by
    change (w'.session i).leaseId = some l at hi
    change (w'.session j).leaseId = some l at hj
    rw [hw.leaseId i] at hi
    rw [hw.leaseId j] at hj
    exact h.unique i j l hi hj
  cache := h.cache.of_same (List.prefix_refl _) rfl
    (congrArg ExecutionManagerClient.lastStatusMonotonic hw.selection)
    (congrArg ExecutionManagerClient.allocations hw.selection)
  neverReturns := h.neverReturns

theorem inv_process {s : Deployment ι} (h : s.Inv) {l : Label ι} (hl : s.Assumed (.process l)) :
    (s.step (.process l)).Inv := by
  change Inv { s with world := s.world.step l, leases := s.leases ++ grantedLease l }
  rcases World.step_leases s.world l with ⟨c, rfl⟩ | hsame | ⟨i, r, rfl, hr, ht⟩
  · cases c with
    | status m => exact absurd hl id
    | event e =>
      refine ⟨fun i l hl => List.mem_append_left _ (h.known i l hl), h.unique, ?_, h.neverReturns⟩
      exact h.cache.of_same (List.prefix_refl _) rfl rfl rfl
    | advance d =>
      refine ⟨fun i l hl => List.mem_append_left _ (h.known i l hl), h.unique, ?_, h.neverReturns⟩
      exact h.cache.of_same (List.prefix_refl _) rfl rfl rfl
  · exact inv_sameLeases h hsame _
  · have hg : grantedLease (.enter i (.response r) : Label ι) = [r.leaseId] := by
      simp [grantedLease, hr]
    have hfresh : r.leaseId ∉ s.leases := hl r.leaseId (by rw [hg]; simp)
    rw [hg]
    exact inv_takesLease h ht hfresh

theorem inv_step {s : Deployment ι} (h : s.Inv) {e : Event ι} (he : s.Assumed e) :
    (s.step e).Inv := by
  cases e with
  | manager m => exact inv_manager h he
  | deliver n => exact inv_deliver h n
  | process l => exact inv_process h he

theorem inv_init (now : ℚ) (timeouts : Timeouts) (config : ι → SessionConfig)
    (sourceClient : ι → ActionProviderClient) : (init now timeouts config sourceClient).Inv where
  known _ _ hl := by cases hl
  unique _ _ _ hl := by cases hl
  cache := rfl
  neverReturns _ := Feed.neverReturns_nil

theorem inv_run {s : Deployment ι} (h : s.Inv) {es : List (Event ι)}
    (hes : Trace.Follows step Assumed s es) : (Trace.run step s es).Inv :=
  Trace.run_invariant Inv (fun _ _ hi he => inv_step hi he) h hes

/-! ## What only grows -/

/-- How a state relates to a later one; within one entry the lease id stays what it is. -/
structure Later (s s' : Deployment ι) : Prop where
  snapshots : s.snapshots <+: s'.snapshots
  delivered : ∀ k, s.delivered = some k → ∃ k', s'.delivered = some k' ∧ k ≤ k'
  entries : ∀ i, s.world.entries i ≤ s'.world.entries i
  leaseId : ∀ i, s'.world.entries i = s.world.entries i →
    (s'.world.session i).leaseId = (s.world.session i).leaseId
  config : ∀ i, (s'.world.session i).config = (s.world.session i).config

theorem Later.refl (s : Deployment ι) : Later s s :=
  ⟨List.prefix_refl _, fun k hk => ⟨k, hk, le_refl k⟩, fun _ => le_refl _, fun _ _ => rfl,
    fun _ => rfl⟩

theorem Later.trans {s s' s'' : Deployment ι} (h : Later s s') (h' : Later s' s'') :
    Later s s'' where
  snapshots := h.snapshots.trans h'.snapshots
  delivered k hk := by
    obtain ⟨k', hk', hle⟩ := h.delivered k hk
    obtain ⟨k'', hk'', hle'⟩ := h'.delivered k' hk'
    exact ⟨k'', hk'', hle.trans hle'⟩
  entries i := (h.entries i).trans (h'.entries i)
  leaseId i he := by
    have h1 := h.entries i
    have h2 := h'.entries i
    have e1 : s'.world.entries i = s.world.entries i := by omega
    have e2 : s''.world.entries i = s'.world.entries i := by omega
    exact (h'.leaseId i e2).trans (h.leaseId i e1)
  config i := (h'.config i).trans (h.config i)

theorem later_sameLeases {s : Deployment ι} {w' : World ι} (h : World.SameLeases s.world w')
    (leases : List String) : Later s { s with world := w', leases := leases } where
  snapshots := List.prefix_refl _
  delivered k hk := ⟨k, hk, le_refl k⟩
  entries i := by rw [h.entries]
  leaseId i _ := h.leaseId i
  config i := h.config i

theorem later_takesLease {s : Deployment ι} {w' : World ι} {i : ι} {leaseId : String}
    (h : World.TakesLease s.world w' i leaseId) (leases : List String) :
    Later s { s with world := w', leases := leases } where
  snapshots := List.prefix_refl _
  delivered k hk := ⟨k, hk, le_refl k⟩
  entries j := by
    by_cases hj : j = i
    · rw [hj]
      change s.world.entries i ≤ w'.entries i
      rw [h.entries]
      omega
    · rw [h.otherEntries j hj]
  leaseId j he := by
    by_cases hj : j = i
    · rw [hj] at he
      change w'.entries i = s.world.entries i at he
      rw [h.entries] at he
      omega
    · exact h.otherLease j hj
  config j := h.config j

theorem later_step {s : Deployment ι} {e : Event ι} (he : s.Assumed e) : Later s (s.step e) := by
  cases e with
  | manager m =>
    exact ⟨List.prefix_append _ _, fun k hk => ⟨k, hk, le_refl k⟩, fun _ => le_refl _,
      fun _ _ => rfl, fun _ => rfl⟩
  | deliver n =>
    cases hn : s.snapshots[n]? with
    | none => simpa [step, hn] using Later.refl s
    | some m =>
      rw [step_deliver hn]
      refine ⟨List.prefix_refl _, fun k hk => ?_, fun _ => le_refl _, fun _ _ => rfl, fun _ => rfl⟩
      have hlt : k < n := he.2 k hk
      exact ⟨n, rfl, by omega⟩
  | process l =>
    change Later s { s with world := s.world.step l, leases := s.leases ++ grantedLease l }
    rcases World.step_leases s.world l with ⟨c, rfl⟩ | hsame | ⟨i, r, rfl, -, ht⟩
    · cases c <;>
        exact ⟨List.prefix_refl _, fun k hk => ⟨k, hk, le_refl k⟩, fun _ => le_refl _,
          fun _ _ => rfl, fun _ => rfl⟩
    · exact later_sameLeases hsame _
    · exact later_takesLease ht _

theorem later_run {s : Deployment ι} {es : List (Event ι)}
    (hes : Trace.Follows step Assumed s es) : Later s (Trace.run step s es) :=
  Trace.run_related Later Later.refl (fun _ _ _ h h' => h.trans h') (fun _ _ he => later_step he)
    hes

/-! ## Ownership -/

theorem Inv.attributed_of_owns {s : Deployment ι} (h : s.Inv) {i : ι} {part : String}
    (ht : truthy (s.world.session i).leaseId = true)
    (ho : (s.world.session i).owns part s.world.allocations = true) :
    ∃ k m l, s.delivered = some k ∧ s.snapshots[k]? = some m ∧
      (s.world.session i).leaseId = some l ∧ attributed part m = some l := by
  obtain ⟨a, ha, -, hal⟩ := Session.owns_iff.mp ho
  obtain ⟨l, hl, hne⟩ := truthy_iff.mp ht
  obtain ⟨t, hmono, -, hget⟩ := ExecutionManagerClient.getAllocations_some ha
  have hc := h.cache
  unfold CacheInv at hc
  cases hd : s.delivered with
  | none =>
    rw [hd] at hc
    rw [hc] at hmono
    cases hmono
  | some k =>
    rw [hd] at hc
    obtain ⟨m, hm, hma⟩ := hc
    refine ⟨k, m, l, rfl, hm, hl, ?_⟩
    rw [hl] at hal
    rw [hma] at hget
    have hal' : a.leaseId = l := Option.some.inj hal
    unfold attributed
    rw [hget]
    simp [hal', hne]

theorem active_owns {w : World ι} {i : ι} {part : String} (h : w.active i = true)
    (hp : part ∈ (w.session i).config.parts) :
    (w.session i).entered = true ∧ truthy (w.session i).leaseId = true ∧
      (w.session i).owns part w.allocations = true := by
  unfold World.active at h
  simp only [Bool.and_eq_true, List.all_eq_true] at h
  exact ⟨h.1.1, h.1.2, h.2 part hp⟩

theorem activeFor_unique {s : Deployment ι} (h : s.Inv) {i j : ι} {part : String}
    (hi : s.world.activeFor i part = true) (hj : s.world.activeFor j part = true) : i = j := by
  obtain ⟨-, -, hti, hoi⟩ := World.activeFor_true hi
  obtain ⟨-, -, htj, hoj⟩ := World.activeFor_true hj
  obtain ⟨k, m, l, hk, hm, hl, ha⟩ := h.attributed_of_owns hti hoi
  obtain ⟨k', m', l', hk', hm', hl', ha'⟩ := h.attributed_of_owns htj hoj
  have hkk : k = k' := Option.some.inj (hk.symm.trans hk')
  subst hkk
  have hmm : m = m' := Option.some.inj (hm.symm.trans hm')
  subst hmm
  have hll : l = l' := Option.some.inj (ha.symm.trans ha')
  subst hll
  exact h.unique i j l hl hl'

/-- The delivery of a snapshot that takes a part away from the session that was active under its
present lease, seen from a later state of the same entry. -/
theorem not_owns_after {s1 s2 s3 : Deployment ι} {n : ℕ} {m : AuthorityStatus} {i : ι}
    {part leaseId : String} (h1 : s1.Inv) (h3 : s3.Inv) (h12 : Later s1 s2)
    (hread : s2.Assumed (.deliver n)) (h23 : Later (s2.step (.deliver n)) s3)
    (ha : s1.world.active i = true) (hp : part ∈ (s1.world.session i).config.parts)
    (hm : s2.snapshots[n]? = some m) (hattr : attributed part m = some leaseId)
    (hne : (s1.world.session i).leaseId ≠ some leaseId)
    (hentry : s3.world.entries i = s1.world.entries i)
    (ht : truthy (s3.world.session i).leaseId = true) :
    (s3.world.session i).owns part s3.world.allocations = false := by
  have hs2 : s2.step (.deliver n) =
      { s2 with world := s2.world.callback (.status m), delivered := some n } := by
    simp [step, hm]
  have h13 := (h12.trans (later_step hread)).trans h23
  obtain ⟨-, ht1, ho1⟩ := active_owns ha hp
  obtain ⟨k1, m1, l, hk1, hm1, hl1, ha1⟩ := h1.attributed_of_owns ht1 ho1
  obtain ⟨k2, hk2, hle⟩ := h12.delivered k1 hk1
  have hlt : k2 < n := hread.2 k2 hk2
  rw [Bool.eq_false_iff]
  intro ho3
  obtain ⟨k3, m3, l3, hk3, hm3, hl3, ha3⟩ := h3.attributed_of_owns ht ho3
  have hll : l3 = l := by
    have he := h13.leaseId i hentry
    rw [hl1, hl3] at he
    exact Option.some.inj he
  have hn3 : n ≤ k3 := by
    obtain ⟨k', hk', hle'⟩ := h23.delivered n (by rw [hs2])
    rw [hk3] at hk'
    cases hk'
    exact hle'
  have hm' : s3.snapshots[n]? = some m := by
    refine Feed.held_of_prefix h23.snapshots ?_
    rw [hs2]
    exact hm
  have hm1' := Feed.held_of_prefix h13.snapshots hm1
  have hdiff : leaseId ≠ l := by
    intro he
    rw [he] at hne
    exact hne hl1
  have hnever := (h3.neverReturns part).after (by omega : k1 < n) hn3 hm1' hm' hm3 ha1 hattr hdiff
  rw [ha3, hll] at hnever
  exact hnever rfl

def SingleOwner (s : Deployment ι) : Prop :=
  ∀ i j part, s.world.activeFor i part = true → s.world.activeFor j part = true → i = j

/-- Session `i`, active in `s1`, was shown by a snapshot delivered in `s2` to have lost `part`; in
`s3` it is not active, unless it has been entered anew. -/
def DisplacedForGood (s1 s2 s3 : Deployment ι) (n : ℕ) : Prop :=
  ∀ i part m leaseId, s1.world.active i = true → part ∈ (s1.world.session i).config.parts →
    s2.snapshots[n]? = some m → attributed part m = some leaseId →
    (s1.world.session i).leaseId ≠ some leaseId → s3.world.entries i = s1.world.entries i →
    s3.world.active i = false ∧ s3.world.activeFor i part = false

/-- **Displacement is final, and ownership is single.** Of every run under the assumptions on the
manager, the end has one owner a part, and of every delivery on the way its losers stay inactive. -/
theorem displacement_final (now : ℚ) (timeouts : Timeouts) (config : ι → SessionConfig)
    (sourceClient : ι → ActionProviderClient) (es : List (Event ι)) (s0 : Deployment ι)
    (h0 : s0 = init now timeouts config sourceClient) (hes : Trace.Follows step Assumed s0 es) :
    SingleOwner (Trace.run step s0 es) ∧
    ∀ es1 es2 n es3, es = es1 ++ (es2 ++ .deliver n :: es3) →
      DisplacedForGood (Trace.run step s0 es1) (Trace.run step s0 (es1 ++ es2))
        (Trace.run step s0 es) n := by
  have hinv : s0.Inv := h0 ▸ inv_init now timeouts config sourceClient
  refine ⟨fun i j part => activeFor_unique (inv_run hinv hes), ?_⟩
  intro es1 es2 n es3 hsplit i part m leaseId ha hp hm hattr hne hentry
  rw [hsplit, Trace.follows_append, Trace.follows_append] at hes
  obtain ⟨hes1, hes2, hread, hes3⟩ := hes
  rw [← Trace.run_append] at hread hes3
  have h12 : Later (Trace.run step s0 es1) (Trace.run step s0 (es1 ++ es2)) := by
    rw [Trace.run_append]
    exact later_run hes2
  have hrun : Trace.run step s0 es =
      Trace.run step ((Trace.run step s0 (es1 ++ es2)).step (.deliver n)) es3 := by
    rw [hsplit, ← List.append_assoc, Trace.run_append, Trace.run_cons]
  have h1 : (Trace.run step s0 es1).Inv := inv_run hinv hes1
  have h2 : (Trace.run step s0 (es1 ++ es2)).Inv := by
    rw [Trace.run_append]
    exact inv_run h1 hes2
  rw [hrun] at hentry ⊢
  have h3 := inv_run (inv_step h2 hread) hes3
  have h23 := later_run hes3
  have hconfig := ((h12.trans (later_step hread)).trans h23).config i
  have hnot := not_owns_after h1 h3 h12 hread h23 ha hp hm hattr hne hentry
  constructor
  · rw [Bool.eq_false_iff]
    intro hact
    obtain ⟨-, ht, ho⟩ := active_owns hact (hconfig.symm ▸ hp)
    rw [hnot ht] at ho
    cases ho
  · rw [Bool.eq_false_iff]
    intro hact
    obtain ⟨-, -, ht, ho⟩ := World.activeFor_true hact
    rw [hnot ht] at ho
    cases ho

/-! ## A takeover of the arm -/

def armStatus (leaseId : String) : AuthorityStatus :=
  ⟨[⟨"arm", .owned, leaseId, 1, "teleop", "joint_reference", "", []⟩]⟩

/-- The arm is granted, confirmed, and taken over by another lease. -/
def armTakeover : List (Event Unit) :=
  [.process (.enter () (.response ⟨true, "", "lease-1", [World.armEndpoint]⟩)),
    .manager (armStatus "lease-1"), .deliver 0, .process (.poll () (.response true "")),
    .manager (armStatus "lease-2"), .deliver 1, .process (.callback (.advance 1))]

theorem armTakeover_assumed : Trace.Follows step Assumed (⟨World.armWorld, [], none, []⟩)
    armTakeover := by
  refine ⟨fun _ _ => List.not_mem_nil, ?_, ⟨by decide, ?_⟩, fun _ hl => ?_, ?_,
    ⟨by decide, ?_⟩, fun _ hl => ?_, trivial⟩
  · intro part leaseId h
    exact absurd h (Feed.not_givenUp_of_length (by decide) leaseId)
  · intro k hk
    cases hk
  · exact absurd hl List.not_mem_nil
  · intro part leaseId h
    exact absurd h (Feed.not_givenUp_of_length (by decide) leaseId)
  · intro k hk
    cases (show some 0 = some k from hk)
    exact Nat.zero_lt_one
  · exact absurd hl List.not_mem_nil

theorem displacement_final_arm :
    (Trace.run step (⟨World.armWorld, [], none, []⟩ : Deployment Unit)
      (armTakeover.take 4)).world.active () = true ∧
    (Trace.run step (⟨World.armWorld, [], none, []⟩ : Deployment Unit)
      armTakeover).world.active () = false := by
  have hactive : (Trace.run step (⟨World.armWorld, [], none, []⟩ : Deployment Unit)
      (armTakeover.take 4)).world.active () = true := by
    decide +kernel
  have hfinal := (displacement_final 0 Timeouts.default (fun _ => World.armConfig)
    (fun _ => ActionProviderClient.new none) armTakeover _ rfl armTakeover_assumed).2
    (armTakeover.take 4) [.manager (armStatus "lease-2")] 1 [.process (.callback (.advance 1))] rfl
  exact ⟨hactive, (hfinal () "arm" (armStatus "lease-2") "lease-2" hactive
    (by decide +kernel) rfl (by decide) (by decide +kernel) (by decide +kernel)).1⟩

end Deployment
end PhysicalAiRuntime.Control
