import PhysicalAiRuntime.Fleet.Grants

/-! Who commands a part. Whatever is served, delivered, lost or late, a command is under the lease
of the latest grant for its part, as of the status message its process had received last when its
session found itself active; so the writers of a part take turns, in the order of the grants. -/
namespace PhysicalAiRuntime.Fleet
open Authority Provider Control
open Recovery (leaseName leaseName_injective)
set_option autoImplicit false
set_option maxHeartbeats 250000
set_option linter.unusedSectionVars false

variable {κ ι : Type} [DecidableEq κ] [DecidableEq ι]

namespace System

/-! ## The invariant -/

def GrantedTo (s : System κ ι) (k : κ) (i : Option ι) (leaseId : String) : Prop :=
  ∃ g ∈ s.grants, g.process = k ∧ g.session = i ∧ g.leaseId = leaseId

/-- A claim call of session `i` of process `k` returned the lease. -/
def Took (s : System κ ι) (k : κ) (i : ι) (leaseId : String) : Prop :=
  ∃ (n : ℕ) (c : Call κ ι) (r : ClaimResponse), s.calls[n]? = some c ∧ c.taken = true ∧
    c.process = k ∧ c.session = some i ∧ c.response = some r ∧ r.success = true ∧ r.leaseId = leaseId

/-- A status cache that is served from was filled by the message at the process's position. -/
def Cached (s : System κ ι) (k : κ) : Prop :=
  (s.world k).selection.lastStatusMonotonic ≠ none → ∃ n m, s.position k = some n ∧
    s.published[n]? = some m ∧ (s.world k).selection.allocations = m.status.allocations

/-- The session of the command took the latest lease granted for the part, among the grants made
before the status message the command is based on. -/
def UnderLatest (s : System κ ι) (p : Pending κ ι) (leaseId : String) : Prop :=
  s.Took p.process p.session leaseId ∧
  ∃ n m g, p.basis = some n ∧ s.published[n]? = some m ∧
    holder p.part (s.grants.take m.grants) = some g ∧
    g.process = p.process ∧ g.session = some p.session ∧ g.leaseId = leaseId

/-- The one status message is not behind the other. -/
def BasedBefore (basis basis' : Option ℕ) : Prop :=
  ∃ n m, basis = some n ∧ basis' = some m ∧ n ≤ m

def SameSession (p q : Pending κ ι) : Prop := p.process = q.process ∧ p.session = q.session

/-- What holds of a command as long as it waits. -/
structure Waits (s : System κ ι) (p : Pending κ ι) : Prop where
  entered : ((s.world p.process).session p.session).entered = true
  latest : s.UnderLatest p (s.clientLease p)
  recent : BasedBefore p.basis (s.position p.process)
  before : ∀ c ∈ s.commands, SameSession c.toPending p → BasedBefore c.basis p.basis

structure Inv (s : System κ ι) : Prop where
  granted : s.Granted
  world : ∀ k, (s.world k).Inv
  cached : ∀ k, s.Cached k
  lease : ∀ k i leaseId, ((s.world k).session i).leaseId = some leaseId → s.Took k i leaseId
  answered : ∀ c ∈ s.calls, ∀ r, c.response = some r → r.success = true →
    s.GrantedTo c.process c.session r.leaseId
  waits : ∀ p ∈ s.waiting, s.Waits p
  single : s.waiting.Pairwise fun p q => ¬ SameSession p q
  latest : ∀ c ∈ s.commands, s.UnderLatest c.toPending c.leaseId
  recent : ∀ c ∈ s.commands, BasedBefore c.basis (s.position c.process)
  ordered : s.commands.Pairwise fun c d =>
    SameSession c.toPending d.toPending → BasedBefore c.basis d.basis

theorem inv_init (roleCode : SourceRole → ℕ) (now : κ → ℚ) (timeouts : κ → Timeouts)
    (config : κ → ι → SessionConfig) (sourceClient : κ → ι → ActionProviderClient) :
    (init roleCode now timeouts config sourceClient).Inv where
  granted := granted_init roleCode now timeouts config sourceClient
  world k := World.inv_init (now k) (timeouts k) (config k) (sourceClient k)
  cached k h := absurd rfl h
  lease k i leaseId h := by cases h
  answered c h := by cases h
  waits p h := by cases h
  single := List.Pairwise.nil
  latest c h := by cases h
  recent c h := by cases h
  ordered := List.Pairwise.nil

theorem Inv.grantedTo {s : System κ ι} (h : s.Inv) {k : κ} {i : ι} {leaseId : String}
    (ht : s.Took k i leaseId) : s.GrantedTo k (some i) leaseId := by
  obtain ⟨n, c, r, hn, -, rfl, hi, hr, hs, rfl⟩ := ht
  rw [← hi]
  exact h.answered c (List.mem_of_getElem? hn) r hr hs

/-! ## What is kept while the logs grow -/

/-- Grants and status messages are added at the end, and no response is taken back. -/
structure Grows (s s' : System κ ι) : Prop where
  grants : s.grants <+: s'.grants
  published : s.published <+: s'.published
  took : ∀ k i leaseId, s.Took k i leaseId → s'.Took k i leaseId

theorem Grows.of_same {s s' : System κ ι} (hg : s'.grants = s.grants)
    (hp : s'.published = s.published) (hc : s'.calls = s.calls) : Grows s s' where
  grants := by rw [hg]
  published := by rw [hp]
  took k i leaseId h := by
    unfold Took
    rw [hc]
    exact h

theorem GrantedTo.grows {s s' : System κ ι} (hs : Grows s s') {k : κ} {i : Option ι}
    {leaseId : String}
    (h : s.GrantedTo k i leaseId) : s'.GrantedTo k i leaseId := by
  obtain ⟨g, hg, hrest⟩ := h
  exact ⟨g, hs.grants.subset hg, hrest⟩

theorem UnderLatest.grows {s s' : System κ ι} (hs : Grows s s') (hinv : s.Granted)
    {p : Pending κ ι} {leaseId : String} (h : s.UnderLatest p leaseId) :
    s'.UnderLatest p leaseId := by
  obtain ⟨htook, n, m, g, hbasis, hm, hholder, hrest⟩ := h
  refine ⟨hs.took _ _ _ htook, n, m, g, hbasis, Feed.held_of_prefix hs.published hm, ?_, hrest⟩
  have hcount := hinv.count m (List.mem_of_getElem? hm)
  obtain ⟨rest, hgrants⟩ := hs.grants
  rw [← hgrants, List.take_append_of_le_length hcount]
  exact hholder

/-- A step that leaves the session of a waiting command alone; status messages may arrive. -/
theorem Waits.grows {s s' : System κ ι} (hs : Grows s s') (hinv : s.Granted) {p : Pending κ ι}
    (h : s.Waits p) (hw : (s'.world p.process).session p.session =
      (s.world p.process).session p.session)
    (hp : ∀ b, BasedBefore b (s.position p.process) → BasedBefore b (s'.position p.process))
    (hc : s'.commands = s.commands) : s'.Waits p where
  entered := by
    rw [hw]
    exact h.entered
  latest := by
    have hsame : s'.clientLease p = s.clientLease p :=
      congrArg (fun session => session.client.leaseId) hw
    rw [hsame]
    exact h.latest.grows hs hinv
  recent := hp p.basis h.recent
  before := by
    rw [hc]
    exact h.before

theorem Cached.grows {s s' : System κ ι} (hs : Grows s s') {k : κ}
    (hw : s'.world k = s.world k) (hp : s'.position k = s.position k) (h : s.Cached k) :
    s'.Cached k := by
  intro hfilled
  rw [hw] at hfilled ⊢
  obtain ⟨n, m, hn, hm, ha⟩ := h hfilled
  exact ⟨n, m, hp.trans hn, Feed.held_of_prefix hs.published hm, ha⟩

/-- Steps of the manager and new requests. -/
theorem Inv.grows {s s' : System κ ι} (h : s.Inv) (hs : Grows s s') (hg : s'.Granted)
    (hw : s'.world = s.world) (hp : s'.position = s.position) (hq : s'.waiting = s.waiting)
    (hc : s'.commands = s.commands)
    (ha : ∀ c ∈ s'.calls, ∀ r, c.response = some r → r.success = true →
      s'.GrantedTo c.process c.session r.leaseId) : s'.Inv where
  granted := hg
  world k := by
    rw [hw]
    exact h.world k
  cached k := (h.cached k).grows hs (congrFun hw k) (congrFun hp k)
  lease k i leaseId hl := by
    rw [hw] at hl
    exact hs.took k i leaseId (h.lease k i leaseId hl)
  answered := ha
  waits p hmem := by
    rw [hq] at hmem
    exact (h.waits p hmem).grows hs h.granted (by rw [hw]) (fun _ hb => by rwa [hp]) hc
  single := by
    rw [hq]
    exact h.single
  latest c hmem := by
    rw [hc] at hmem
    exact (h.latest c hmem).grows hs h.granted
  recent c hmem := by
    rw [hc] at hmem
    rw [hp]
    exact h.recent c hmem
  ordered := by
    rw [hc]
    exact h.ordered

/-! ## A step of a process -/

/-- A command of the process is under the latest grant of the message in its cache. -/
theorem Inv.underLatest {s : System κ ι} (h : s.Inv) {l : Label ι} {p : Pending κ ι}
    (hp : Sends (s.world p.process) l p) (hbasis : p.basis = s.position p.process) :
    s.UnderLatest p (s.clientLease p) := by
  have hlease := (hp.lease (h.world p.process)).1
  obtain ⟨-, -, -, howns⟩ := World.activeFor_true hp.active
  obtain ⟨a, ha, -, hid⟩ := Session.owns_iff.mp howns
  obtain ⟨t, ht, -, hget⟩ := ExecutionManagerClient.getAllocations_some ha
  obtain ⟨n, m, hn, hm, hsame⟩ := h.cached p.process (by rw [ht]; exact Option.some_ne_none t)
  rw [hlease] at hid
  have hname : a.leaseId = s.clientLease p := Option.some.inj hid
  have htook : s.Took p.process p.session (s.clientLease p) :=
    h.lease p.process p.session (s.clientLease p) hlease
  rw [hsame] at hget
  rcases h.granted.snapshot m (List.mem_of_getElem? hm) p.part a hget with hempty | ⟨g, hg, hgid⟩
  · exact absurd (hname.symm.trans hempty) hp.client
  · obtain ⟨g', hg', hk, hi, hid'⟩ := h.grantedTo htook
    have hmem := List.mem_of_mem_take (holder_mem hg).1
    have hgrant : g = g' :=
      h.granted.numbered.grant_eq hmem hg' ((hgid.trans hname).trans hid'.symm)
    rw [← hgrant] at hk hi
    exact ⟨htook, n, m, g, hbasis.trans hn, hm, hg, hk, hi, hgid.trans hname⟩

/-- A command that its session is about to send waits from now on. -/
theorem Inv.waits_begun {s : System κ ι} (h : s.Inv) {l : Label ι} {p : Pending κ ι}
    (hp : Sends (s.world p.process) l p) (hbasis : p.basis = s.position p.process) :
    (s.act p.process l).Waits p := by
  obtain ⟨-, hentered, hclient⟩ := hp.lease (h.world p.process)
  have hworld : (s.act p.process l).world p.process = (s.world p.process).step l :=
    Function.update_self _ _ _
  have hlatest := h.underLatest hp hbasis
  have hrecent : BasedBefore p.basis (s.position p.process) := by
    obtain ⟨-, n, m, g, hn, -⟩ := hlatest
    exact ⟨n, n, hn, hbasis ▸ hn, Nat.le_refl n⟩
  refine ⟨?_, ?_, hrecent, fun c hc hsame => ?_⟩
  · rw [hworld]
    exact hentered
  · have hlease : (s.act p.process l).clientLease p = s.clientLease p := by
      unfold clientLease
      rw [hworld]
      exact hclient
    rw [hlease]
    exact hlatest.grows (Grows.of_same rfl rfl rfl) h.granted
  · rw [hbasis, ← hsame.1]
    exact h.recent c hc

theorem inv_act {s : System κ ι} (h : s.Inv) (k : κ) (l : Label ι)
    (hlease : ∀ i leaseId, (((s.world k).step l).session i).leaseId = some leaseId →
      s.Took k i leaseId)
    (hcache : SameCache (s.world k) ((s.world k).step l))
    (hrest : ∀ p ∈ s.waiting, p.process = k →
      ((s.world k).step l).session p.session = (s.world k).session p.session)
    (halone : ∀ p ∈ s.waiting, ∀ q ∈ begun k (s.position k) s.now (s.world k) l,
      ¬ SameSession p q) : (s.act k l).Inv := by
  have hs : Grows s (s.act k l) := Grows.of_same rfl rfl rfl
  have hself : (s.act k l).world k = (s.world k).step l := Function.update_self _ _ _
  have hother : ∀ j, j ≠ k → (s.act k l).world j = s.world j := fun j hj =>
    Function.update_of_ne hj _ _
  refine ⟨h.granted.of_same rfl rfl rfl, fun j => ?_, fun j => ?_, fun j i leaseId hl => ?_,
    fun c hc r hr hsuccess => (h.answered c hc r hr hsuccess).grows hs, fun p hp => ?_, ?_,
    fun c hc => (h.latest c hc).grows hs h.granted, h.recent, h.ordered⟩
  · by_cases hj : j = k
    · rw [hj, hself]
      exact World.inv_step (h.world k) l
    · rw [hother j hj]
      exact h.world j
  · by_cases hj : j = k
    · subst hj
      intro hfilled
      rw [hself] at hfilled ⊢
      rw [hcache.monotonic] at hfilled
      rw [hcache.allocations]
      exact h.cached j hfilled
    · exact (h.cached j).grows hs (hother j hj) rfl
  · by_cases hj : j = k
    · subst hj
      rw [hself] at hl
      exact hlease i leaseId hl
    · rw [hother j hj] at hl
      exact h.lease j i leaseId hl
  · rcases List.mem_append.mp hp with hold | hnew
    · refine (h.waits p hold).grows hs h.granted ?_ (fun _ hb => hb) rfl
      by_cases hj : p.process = k
      · rw [hj, hself]
        exact hrest p hold hj
      · rw [hother p.process hj]
    · rcases begun_cases k (s.position k) s.now (s.world k) l with
        hnone | ⟨q, hq, rfl, hbasis, -, hsends⟩
      · rw [hnone] at hnew
        cases hnew
      · rw [hq, List.mem_singleton] at hnew
        rw [hnew]
        exact h.waits_begun hsends hbasis
  · refine List.pairwise_append.mpr ⟨h.single, ?_, halone⟩
    rcases begun_cases k (s.position k) s.now (s.world k) l with hnone | ⟨q, hq, -⟩
    · rw [hnone]
      exact List.Pairwise.nil
    · rw [hq]
      exact List.pairwise_singleton _ _

theorem inv_own {s : System κ ι} (h : s.Inv) (k : κ) {l : Label ι} (hl : own l = true)
    (hfree : s.Free k l) : (s.act k l).Inv := by
  refine inv_act h k l (fun i leaseId hi => ?_) (sameCache_own (s.world k) hl)
    (fun p hp hk => session_untouched _ (hfree p hp hk)) fun p hp q hq hsame => ?_
  · rw [leaseId_own (s.world k) hl i] at hi
    exact h.lease k i leaseId hi
  · rcases begun_cases k (s.position k) s.now (s.world k) l with
      hnone | ⟨q', hq', hk, -, -, hsends⟩
    · rw [hnone] at hq
      cases hq
    · rw [hq', List.mem_singleton] at hq
      rw [hq] at hsame
      refine hfree p hp (hsame.1.trans hk) ?_
      rw [hsame.2]
      exact hsends.caller

/-! ## Claims -/

theorem ask_grows (s : System κ ι) (k : κ) (i : Option ι) (r : ClaimRequest) :
    Grows s (s.ask k i r) := by
  refine ⟨List.prefix_refl _, List.prefix_refl _, fun j p leaseId ht => ?_⟩
  obtain ⟨n, c, r', hn, hrest⟩ := ht
  exact ⟨n, c, r', Feed.held_of_prefix (List.prefix_append _ _) hn, hrest⟩

theorem inv_ask {s : System κ ι} (h : s.Inv) (k : κ) (i : Option ι) (r : ClaimRequest) :
    (s.ask k i r).Inv := by
  have hgrows := ask_grows s k i r
  refine h.grows hgrows (h.granted.of_same rfl rfl rfl) rfl rfl rfl rfl fun c hc r' hr hsuccess => ?_
  rcases List.mem_append.mp hc with hold | hnew
  · exact (h.answered c hold r' hr hsuccess).grows hgrows
  · rw [List.mem_singleton.mp hnew] at hr
    cases hr

theorem inv_request {s : System κ ι} (h : s.Inv) (k : κ) (i : ι) : (s.request k i).Inv := by
  rcases request_cases s k i with hs | ⟨r, hs⟩
  · rw [hs]
    exact h
  · rw [hs]
    exact inv_ask h k (some i) r

/-- What was taken stays while another call changes. -/
theorem took_set {s : System κ ι} {n : ℕ} {c : Call κ ι} (c' : Call κ ι)
    (hn : s.calls[n]? = some c) (hno : c.response = none ∨ c.taken = false) {k : κ} {i : ι}
    {leaseId : String} (h : s.Took k i leaseId) :
    Took { s with calls := s.calls.set n c' } k i leaseId := by
  obtain ⟨m, d, r, hm, ht, hk, hi, hr, hrest⟩ := h
  have hne : n ≠ m := by
    rintro rfl
    rw [hn] at hm
    cases hm
    rcases hno with hnone | hfalse
    · rw [hnone] at hr
      cases hr
    · rw [hfalse] at ht
      cases ht
  exact ⟨m, d, r, (List.getElem?_set_ne hne).trans hm, ht, hk, hi, hr, hrest⟩

theorem serve_grows (s : System κ ι) (n : ℕ) : Grows s (s.serve n) := by
  rcases serve_cases s n with hs | ⟨c, hn, hnone, ⟨message, hs⟩ | ⟨-, hs⟩⟩
  · rw [hs]
    exact Grows.of_same rfl rfl rfl
  · rw [hs]
    exact ⟨List.prefix_refl _, List.prefix_refl _, fun _ _ _ => took_set _ hn (Or.inl hnone)⟩
  · rw [hs]
    exact ⟨List.prefix_append _ _, List.prefix_refl _, fun _ _ _ => took_set _ hn (Or.inl hnone)⟩

theorem inv_serve {s : System κ ι} (h : s.Inv) (n : ℕ) : (s.serve n).Inv := by
  have hgranted := granted_serve h.granted n
  have hgrows := serve_grows s n
  rcases serve_cases s n with hs | ⟨c, hn, hnone, ⟨message, hs⟩ | ⟨-, hs⟩⟩
  · rw [hs]
    exact h
  · rw [hs] at hgranted hgrows ⊢
    refine h.grows hgrows hgranted rfl rfl rfl rfl fun d hd r hr hsuccess => ?_
    rcases List.mem_or_eq_of_mem_set hd with hold | rfl
    · exact (h.answered d hold r hr hsuccess).grows hgrows
    · cases hr
      cases hsuccess
  · rw [hs] at hgranted hgrows ⊢
    refine h.grows hgrows hgranted rfl rfl rfl rfl fun d hd r hr hsuccess => ?_
    rcases List.mem_or_eq_of_mem_set hd with hold | rfl
    · exact (h.answered d hold r hr hsuccess).grows hgrows
    · cases hr
      exact ⟨_, List.mem_append_right _ (List.mem_singleton_self _), rfl, rfl, rfl⟩

/-- The call of a response becomes a taken one. -/
theorem taken_grows {s : System κ ι} {n : ℕ} {c : Call κ ι} (hn : s.calls[n]? = some c)
    (ht : c.taken = false) :
    Grows s { s with calls := s.calls.set n { c with taken := true } } :=
  ⟨List.prefix_refl _, List.prefix_refl _, fun _ _ _ => took_set _ hn (Or.inr ht)⟩

theorem inv_taken {s : System κ ι} (h : s.Inv) {n : ℕ} {c : Call κ ι}
    (hn : s.calls[n]? = some c) (ht : c.taken = false) :
    Inv { s with calls := s.calls.set n { c with taken := true } } := by
  have hgrows := taken_grows hn ht
  refine h.grows hgrows (h.granted.of_same rfl rfl rfl) rfl rfl rfl rfl fun d hd r hr hs => ?_
  rcases List.mem_or_eq_of_mem_set hd with hold | rfl
  · exact (h.answered d hold r hr hs).grows hgrows
  · exact (h.answered c (List.mem_of_getElem? hn) r hr hs).grows hgrows

/-- An entry that goes on takes the lease of its response, or leaves it. -/
theorem inv_enter {s : System κ ι} (h : s.Inv) {k : κ} {i : ι} {r : ClaimResponse}
    (htook : r.success = true → s.Took k i r.leaseId) :
    (s.act k (.enter i (.response r))).Inv := by
  refine inv_act h k _ (fun j leaseId hj => ?_) (sameCache_enter (s.world k) i r)
    (fun p hp hk => ?_) fun p _ q hq => by cases hq
  · rcases leaseId_enter hj with hold | ⟨rfl, hsuccess, rfl⟩
    · exact h.lease k j leaseId hold
    · exact htook hsuccess
  · -- a session whose command waits is entered, so it does not enter again
    by_cases hi : p.session = i
    · have hentered := (h.waits p hp).entered
      rw [hk, hi] at hentered
      rw [step_enter_entered hentered]
    · exact session_untouched _ fun he => hi (Option.some.inj he).symm

theorem inv_answer {s : System κ ι} (h : s.Inv) (n : ℕ) : (s.answer n).Inv := by
  rcases answer_cases s n with hs | ⟨c, i, r, hn, hi, hr, ht, hs⟩
  · rw [hs]
    exact h
  · rw [hs]
    have hlt := (List.getElem?_eq_some_iff.mp hn).1
    refine inv_enter (inv_taken h hn ht) fun hsuccess => ?_
    exact ⟨n, { c with taken := true }, r, List.getElem?_set_self hlt, rfl, rfl, hi, hr,
      hsuccess, rfl⟩

/-! ## The manager and its status messages -/

/-- The manager alone moves. -/
theorem inv_manager {s s' : System κ ι} (h : s.Inv) (hg : s'.Granted)
    (hgrants : s'.grants = s.grants) (hp : s'.published = s.published)
    (hcalls : s'.calls = s.calls) (hw : s'.world = s.world)
    (hposition : s'.position = s.position) (hq : s'.waiting = s.waiting)
    (hc : s'.commands = s.commands) : s'.Inv := by
  have hs : Grows s s' := Grows.of_same hgrants hp hcalls
  refine h.grows hs hg hw hposition hq hc fun c hmem r hr hsuccess => ?_
  rw [hcalls] at hmem
  exact (h.answered c hmem r hr hsuccess).grows hs

theorem inv_serveRelease {s : System κ ι} (h : s.Inv) (n : ℕ) : (s.serveRelease n).Inv := by
  have hgranted := granted_step s (.serveRelease n) h.granted
  change (s.serveRelease n).Granted at hgranted
  unfold serveRelease at hgranted ⊢
  split at hgranted
  · exact h
  · exact inv_manager h hgranted rfl rfl rfl rfl rfl rfl rfl

theorem inv_publish {s : System κ ι} (h : s.Inv) : s.publish.Inv := by
  have hs : Grows s s.publish := ⟨List.prefix_refl _, List.prefix_append _ _, fun _ _ _ ht => ht⟩
  exact h.grows hs (granted_publish h.granted) rfl rfl rfl rfl fun c hc r hr hsuccess =>
    (h.answered c hc r hr hsuccess).grows hs

/-- A message that a process reads is behind the one it received last. -/
theorem basedBefore_read {published : List Snapshot} {position : Option ℕ} {n : ℕ}
    (hread : Feed.CanRead published position n) {b : Option ℕ} (h : BasedBefore b position) :
    BasedBefore b (some n) := by
  obtain ⟨m, p, hb, hp, hle⟩ := h
  have hlt := hread.2 p hp
  exact ⟨m, n, hb, rfl, by omega⟩

theorem inv_deliver {s : System κ ι} (h : s.Inv) (k : κ) (n : ℕ) : (s.deliver k n).Inv := by
  unfold deliver
  split
  · exact h
  next m hm =>
    split
    next hread =>
      have hs : Grows s { s with
          world := Function.update s.world k ((s.world k).callback (.status m.status))
          position := Function.update s.position k (some n) } := Grows.of_same rfl rfl rfl
      refine ⟨h.granted.of_same rfl rfl rfl, fun j => ?_, fun j => ?_, fun j i leaseId hl => ?_,
        h.answered, fun p hp => ?_, h.single, h.latest, fun c hc => ?_, h.ordered⟩
      · by_cases hj : j = k
        · subst hj
          simpa using (h.world j).of_keeps (World.callback_keeps _ _)
        · simpa [hj] using h.world j
      · by_cases hj : j = k
        · subst hj
          intro _
          exact ⟨n, m, by simp, hm, by simp [World.callback, ExecutionManagerClient.onStatus]⟩
        · have hcached := h.cached j
          unfold Cached at hcached ⊢
          simpa [hj] using hcached
      · by_cases hj : j = k
        · subst hj
          exact h.lease j i leaseId (by simpa [World.callback] using hl)
        · exact h.lease j i leaseId (by simpa [hj] using hl)
      · refine (h.waits p hp).grows hs h.granted ?_ ?_ rfl
        · by_cases hj : p.process = k
          · subst hj
            simp [World.callback]
          · simp [hj]
        · by_cases hj : p.process = k
          · subst hj
            exact fun _ hb => by simpa using basedBefore_read hread hb
          · exact fun _ hb => by simpa [hj] using hb
      · by_cases hj : c.process = k
        · subst hj
          simpa using basedBefore_read hread (h.recent c hc)
        · simpa [hj] using h.recent c hc
    · exact h

theorem inv_tick {s : System κ ι} (h : s.Inv) (elapsed : ℚ≥0) : (s.step (.tick elapsed)).Inv where
  granted := h.granted.of_same rfl rfl rfl
  world k := (h.world k).of_keeps (World.callback_keeps (s.world k) (.advance elapsed))
  cached := h.cached
  lease := h.lease
  answered := h.answered
  waits p hp := ⟨(h.waits p hp).entered, (h.waits p hp).latest, (h.waits p hp).recent,
    (h.waits p hp).before⟩
  single := h.single
  latest := h.latest
  recent := h.recent
  ordered := h.ordered

/-! ## A command leaves -/

/-- What waits beside a command is of other sessions. -/
theorem Inv.alone {s : System κ ι} (h : s.Inv) {n : ℕ} {p : Pending κ ι}
    (hn : s.waiting[n]? = some p) : ∀ q ∈ s.waiting.eraseIdx n, ¬ SameSession p q := by
  obtain ⟨hlt, rfl⟩ := List.getElem?_eq_some_iff.mp hn
  have hsymm : ∀ {p q : Pending κ ι}, ¬ SameSession p q → ¬ SameSession q p :=
    fun hne hsame => hne ⟨hsame.1.symm, hsame.2.symm⟩
  have hsingle := ((List.getElem_cons_eraseIdx_perm hlt).pairwise_iff hsymm).mpr h.single
  exact (List.pairwise_cons.mp hsingle).1

theorem inv_leave {s : System κ ι} (h : s.Inv) (n : ℕ) : (s.leave n).Inv := by
  rcases leave_cases s n with hs | ⟨p, hn, hs⟩
  · rw [hs]
    exact h
  · rw [hs]
    have hp := h.waits p (List.mem_of_getElem? hn)
    refine ⟨h.granted.of_same rfl rfl rfl, h.world, h.cached, h.lease, h.answered,
      fun q hq => ?_, h.single.eraseIdx n, fun c hc => ?_, fun c hc => ?_, ?_⟩
    · have hwaits := h.waits q (List.mem_of_mem_eraseIdx hq)
      refine ⟨hwaits.entered, hwaits.latest, hwaits.recent, fun c hc hsame => ?_⟩
      rcases List.mem_append.mp hc with hold | hnew
      · exact hwaits.before c hold hsame
      · rw [List.mem_singleton.mp hnew] at hsame
        exact absurd hsame (h.alone hn q hq)
    · rcases List.mem_append.mp hc with hold | hnew
      · exact h.latest c hold
      · rw [List.mem_singleton.mp hnew]
        exact hp.latest
    · rcases List.mem_append.mp hc with hold | hnew
      · exact h.recent c hold
      · rw [List.mem_singleton.mp hnew]
        exact hp.recent
    · refine List.pairwise_append.mpr ⟨h.ordered, List.pairwise_singleton _ _,
        fun c hc d hd hsame => ?_⟩
      rw [List.mem_singleton.mp hd] at hsame ⊢
      exact hp.before c hc hsame

theorem inv_step (s : System κ ι) (e : Event κ ι) (h : s.Inv) : (s.step e).Inv := by
  cases e with
  | request k i => exact inv_request h k i
  | claim k r => exact inv_ask h k none r
  | release leaseId =>
    exact inv_manager h (h.granted.of_same rfl rfl rfl) rfl rfl rfl rfl rfl rfl rfl
  | serve n => exact inv_serve h n
  | answer n => exact inv_answer h n
  | serveRelease n => exact inv_serveRelease h n
  | fault resource =>
    exact inv_manager h (granted_step s (.fault resource) h.granted) rfl rfl rfl rfl rfl rfl rfl
  | publish => exact inv_publish h
  | deliver k n => exact inv_deliver h k n
  | process k l =>
    rcases process_cases s k l with hs | ⟨hl, hfree, hs⟩
    · rw [hs]
      exact h
    · rw [hs]
      exact inv_own h k hl hfree
  | leave n => exact inv_leave h n
  | tick elapsed => exact inv_tick h elapsed

theorem inv_run {s : System κ ι} (h : s.Inv) (es : List (Event κ ι)) :
    (Trace.run step s es).Inv :=
  Trace.run_invariant' Inv inv_step h es

/-! ## The commands of a run -/

/-- The messages and goals of the processes are the commands that left and those that wait. -/
def Counted (s : System κ ι) : Prop :=
  ∀ k, (s.world k).published.length + (s.world k).dispatched.length =
    s.commands.countP (fun c => decide (c.process = k)) +
      s.waiting.countP fun p => decide (p.process = k)

theorem counted_act {s : System κ ι} (hc : s.Counted) (k : κ) (l : Label ι) :
    (s.act k l).Counted := by
  intro j
  change _ = s.commands.countP _ +
    (s.waiting ++ begun k (s.position k) s.now (s.world k) l).countP _
  rw [List.countP_append, ← Nat.add_assoc, ← hc j]
  have hprocess : ∀ p ∈ begun k (s.position k) s.now (s.world k) l, p.process = k := by
    intro p hp
    rcases begun_cases k (s.position k) s.now (s.world k) l with hnone | ⟨q, hq, hk, -⟩
    · rw [hnone] at hp
      cases hp
    · rw [hq, List.mem_singleton] at hp
      exact hp ▸ hk
  by_cases hj : j = k
  · have hall : (begun k (s.position k) s.now (s.world k) l).countP
        (fun p => decide (p.process = j)) = (begun k (s.position k) s.now (s.world k) l).length :=
      List.countP_eq_length.mpr fun p hmem => by simp [hprocess p hmem, hj]
    rw [hall, hj]
    simp only [act, Function.update_self]
    exact begun_length k (s.position k) s.now (s.world k) l
  · have hnone : (begun k (s.position k) s.now (s.world k) l).countP
        (fun p => decide (p.process = j)) = 0 :=
      List.countP_eq_zero.mpr fun p hmem => by simp [hprocess p hmem, Ne.symm hj]
    simp only [hnone, act, Function.update_of_ne hj, Nat.add_zero]

theorem counted_leave {s : System κ ι} (hc : s.Counted) (n : ℕ) : (s.leave n).Counted := by
  rcases leave_cases s n with hs | ⟨p, hn, hs⟩
  · rw [hs]
    exact hc
  · rw [hs]
    intro k
    obtain ⟨hlt, hp⟩ := List.getElem?_eq_some_iff.mp hn
    have hperm := List.getElem_cons_eraseIdx_perm hlt
    have hcount := hc k
    rw [← hperm.countP_eq, hp] at hcount
    simp only [List.countP_cons, List.countP_append, List.countP_nil] at hcount ⊢
    omega

theorem Counted.of_same {s s' : System κ ι} (hc : s.Counted) (hw : s'.world = s.world)
    (hq : s'.waiting = s.waiting) (hcommands : s'.commands = s.commands) : s'.Counted := by
  unfold Counted
  rw [hw, hq, hcommands]
  exact hc

theorem counted_deliver {s : System κ ι} (hc : s.Counted) (k : κ) (n : ℕ) :
    (s.deliver k n).Counted := by
  unfold deliver
  split
  · exact hc
  · split
    · intro j
      by_cases hj : j = k
      · subst hj
        simpa [World.callback] using hc j
      · simpa [hj] using hc j
    · exact hc

theorem counted_step (s : System κ ι) (e : Event κ ι) (hc : s.Counted) : (s.step e).Counted := by
  cases e with
  | request k i =>
    change (s.request k i).Counted
    rcases request_cases s k i with hs | ⟨r, hs⟩
    · rw [hs]
      exact hc
    · rw [hs]
      exact hc.of_same rfl rfl rfl
  | claim k r => exact hc.of_same rfl rfl rfl
  | release leaseId => exact hc.of_same rfl rfl rfl
  | serve n =>
    change (s.serve n).Counted
    rcases serve_cases s n with hs | ⟨c, -, -, ⟨message, hs⟩ | ⟨-, hs⟩⟩
    · rw [hs]
      exact hc
    · rw [hs]
      exact hc.of_same rfl rfl rfl
    · rw [hs]
      exact hc.of_same rfl rfl rfl
  | answer n =>
    change (s.answer n).Counted
    rcases answer_cases s n with hs | ⟨c, i, r, -, -, -, -, hs⟩
    · rw [hs]
      exact hc
    · rw [hs]
      exact counted_act (hc.of_same rfl rfl rfl) _ _
  | serveRelease n =>
    change (s.serveRelease n).Counted
    unfold serveRelease
    split
    · exact hc
    · exact hc.of_same rfl rfl rfl
  | fault resource => exact hc.of_same rfl rfl rfl
  | publish => exact hc.of_same rfl rfl rfl
  | deliver k n => exact counted_deliver hc k n
  | process k l =>
    rcases process_cases s k l with hs | ⟨-, -, hs⟩
    · rw [hs]
      exact hc
    · rw [hs]
      exact counted_act hc k l
  | leave n => exact counted_leave hc n
  | tick elapsed => exact hc

/-- **Commands are under the latest grant.** In every run of any number of processes, every message
and goal that leaves a process is under the lease of the latest grant for its part, as of the
status message the process had received last when the session found itself active, and the session
had taken that lease. -/
theorem commands_under_latest_grant (roleCode : SourceRole → ℕ) (now : κ → ℚ)
    (timeouts : κ → Timeouts) (config : κ → ι → SessionConfig)
    (sourceClient : κ → ι → ActionProviderClient) (es : List (Event κ ι)) :
    let s := Trace.run step (init roleCode now timeouts config sourceClient) es
    s.Counted ∧ ∀ c ∈ s.commands, s.UnderLatest c.toPending c.leaseId := by
  intro s
  have hstart := inv_init roleCode now timeouts config sourceClient
  exact ⟨Trace.run_invariant' Counted counted_step (fun _ => rfl) es, (inv_run hstart es).latest⟩

/-! ## Turns -/

def SameWriter (c d : Command κ ι) : Prop :=
  c.process = d.process ∧ c.session = d.session ∧ c.leaseId = d.leaseId

/-- What the commands for a part have to do with each other. -/
structure TakeTurns (s : System κ ι) : Prop where
  one : ∀ c ∈ s.commands, ∀ d ∈ s.commands, c.part = d.part → c.basis = d.basis → SameWriter c d
  order : ∀ c ∈ s.commands, ∀ d ∈ s.commands, c.part = d.part → BasedBefore c.basis d.basis →
    ∃ n m, n ≤ m ∧ c.leaseId = leaseName n ∧ d.leaseId = leaseName m
  turn : ∀ c ∈ s.commands, ∀ d ∈ s.commands, ∀ e ∈ s.commands, c.part = d.part →
    d.part = e.part → BasedBefore c.basis d.basis → BasedBefore d.basis e.basis →
    c.leaseId = e.leaseId → SameWriter c d
  session : s.commands.Pairwise fun c d =>
    SameSession c.toPending d.toPending → BasedBefore c.basis d.basis

theorem Inv.sameWriter {s : System κ ι} (h : s.Inv) {c d : Command κ ι} (hc : c ∈ s.commands)
    (hd : d ∈ s.commands) (hid : c.leaseId = d.leaseId) : SameWriter c d := by
  obtain ⟨g, hg, hk, hi, hgid⟩ := h.grantedTo (h.latest c hc).1
  obtain ⟨g', hg', hk', hi', hgid'⟩ := h.grantedTo (h.latest d hd).1
  have hsame : g = g' :=
    h.granted.numbered.grant_eq hg hg' (hgid.trans (hid.trans hgid'.symm))
  rw [← hsame] at hk' hi'
  exact ⟨hk.symm.trans hk', Option.some.inj (hi.symm.trans hi'), hid⟩

theorem Granted.rising_le {s : System κ ι} (h : s.Granted) {n n' : ℕ} {m m' : Snapshot}
    (hm : s.published[n]? = some m) (hm' : s.published[n']? = some m') (hle : n ≤ n') :
    m.grants ≤ m'.grants := by
  rcases Nat.lt_or_eq_of_le hle with hlt | rfl
  · obtain ⟨hn, rfl⟩ := List.getElem?_eq_some_iff.mp hm
    obtain ⟨hn', rfl⟩ := List.getElem?_eq_some_iff.mp hm'
    exact List.pairwise_iff_getElem.mp h.rising n n' hn hn' hlt
  · rw [hm] at hm'
    cases hm'
    exact Nat.le_refl _

theorem Inv.order {s : System κ ι} (h : s.Inv) {c d : Command κ ι} (hc : c ∈ s.commands)
    (hd : d ∈ s.commands) (hpart : c.part = d.part) (hbased : BasedBefore c.basis d.basis) :
    ∃ n m, n ≤ m ∧ c.leaseId = leaseName n ∧ d.leaseId = leaseName m := by
  obtain ⟨-, n, m, g, hn, hm, hg, -, -, hid⟩ := h.latest c hc
  obtain ⟨-, n', m', g', hn', hm', hg', -, -, hid'⟩ := h.latest d hd
  obtain ⟨b, b', hb, hb', hle⟩ := hbased
  rw [hn] at hb
  rw [hn'] at hb'
  cases hb
  cases hb'
  rw [hpart] at hg
  rw [← hid, ← hid']
  exact h.granted.numbered.holder_le
    (List.take_prefix_take_left (h.granted.rising_le hm hm' hle)) (List.take_prefix _ _) hg hg'

theorem Inv.takeTurns {s : System κ ι} (h : s.Inv) : s.TakeTurns where
  one c hc d hd hpart hbasis := by
    obtain ⟨-, n, m, g, hn, hm, hg, -, -, hid⟩ := h.latest c hc
    obtain ⟨-, n', m', g', hn', hm', hg', -, -, hid'⟩ := h.latest d hd
    rw [hbasis, hn'] at hn
    cases hn
    rw [hm'] at hm
    cases hm
    rw [hpart, hg'] at hg
    cases hg
    exact h.sameWriter hc hd (hid.symm.trans hid')
  order c hc d hd hpart hbased := h.order hc hd hpart hbased
  turn c hc d hd e he hcd hde hbefore hafter hid := by
    obtain ⟨n, m, hnm, hcn, hdm⟩ := h.order hc hd hcd hbefore
    obtain ⟨m', p, hmp, hdm', hep⟩ := h.order hd he hde hafter
    have hmm : m = m' := leaseName_injective (hdm.symm.trans hdm')
    have hnp : n = p := leaseName_injective (hcn.symm.trans (hid.trans hep))
    have hnm' : n = m := by omega
    exact h.sameWriter hc hd (by rw [hcn, hdm, hnm'])
  session := h.ordered

/-- **Writers take turns.** The commands for a part that are based on one status message come from
one session, over all processes. Along the status messages their leases are in the order of the
grants, so the commands under a lease are a turn that nobody interrupts; and no session goes back
to an older message. -/
theorem writers_take_turns (roleCode : SourceRole → ℕ) (now : κ → ℚ)
    (timeouts : κ → Timeouts) (config : κ → ι → SessionConfig)
    (sourceClient : κ → ι → ActionProviderClient) (es : List (Event κ ι)) :
    (Trace.run step (init roleCode now timeouts config sourceClient) es).TakeTurns :=
  (inv_run (inv_init roleCode now timeouts config sourceClient) es).takeTurns

/-! ## The arm changes hands -/

def armPlanner : SessionConfig :=
  { World.armConfig with
    source := { World.armSource with
      resources := Dict.ofPairs [("arm", "joint_trajectory")]
      config := some (Dict.ofPairs [("arm", ⟨["joint"], none, none⟩)]) }
    parts_subset := by decide }

/-- The first process executes plans, the second one preempts it and sends commands. -/
def armSystem : System Bool Unit :=
  init (fun _ => 0) (fun _ => 0) (fun _ => Timeouts.default)
    (fun k _ => if k then { World.armConfig with preempt := true } else armPlanner)
    fun _ _ => ActionProviderClient.new none

def armPlan : ActionValue :=
  .jointTrajectory ⟨⟨⟨0, 0⟩, ""⟩, ["joint"], [⟨[0], [], [], ⟨0, 0⟩⟩]⟩

def armExecute : Event Bool Unit :=
  .process false (.execute () "arm" armPlan none ⟨0, 0⟩ (.answered ⟨0, true⟩))

def armAct : Event Bool Unit := .process true (.act () World.armCommand none ⟨0, 0⟩)

def armConfirm (k : Bool) : Event Bool Unit := .process k (.poll () (.response true ""))

/-- The second goal of the first process leaves after the process has heard of the preemption; it
executes nothing then. -/
def armHandover : List (Event Bool Unit) :=
  [.request false (), .serve 0, .answer 0, .publish, .deliver false 0, armConfirm false,
    armExecute, .leave 0, armExecute, .request true (), .serve 1, .answer 1, .publish,
    .deliver true 1, armConfirm true, armAct, .leave 1, .deliver false 1, .leave 0, armExecute]

theorem writers_take_turns_handover : (Trace.run step armSystem armHandover).TakeTurns ∧
    (Trace.run step armSystem armHandover).commands.map
        (fun c => (c.process, c.goal, c.leaseId, c.basis)) =
      [(false, true, "lease-1", some 0), (true, false, "lease-2", some 1),
        (false, true, "lease-1", some 0)] :=
  ⟨writers_take_turns _ _ _ _ _ armHandover, by decide +kernel⟩

end System
end PhysicalAiRuntime.Fleet
