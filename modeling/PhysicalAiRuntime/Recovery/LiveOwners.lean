import PhysicalAiRuntime.Recovery.Startup

/-! What a preempting claim of `clear_fault` displaces. The targets are chosen on a status message;
a lease granted before that message does not hold them any more, and a lease granted after it is
displaced like a fault. -/
namespace PhysicalAiRuntime.Recovery
open Authority Trace Feed
set_option autoImplicit false
set_option maxHeartbeats 250000
set_option linter.unusedSectionVars false

namespace ExecutionManager

def owned (m : ExecutionManager) (leaseId : String) : Bool :=
  m.allocations.entries.any fun e => e.2.leaseId == leaseId && e.2.authorityState == .owned

def holder (m : ExecutionManager) (part : String) : Option String :=
  (m.allocations.get? part).map fun a => a.leaseId

theorem holder_eq_some {m : ExecutionManager} {part leaseId : String} :
    m.holder part = some leaseId ↔
      ∃ a, m.allocations.get? part = some a ∧ a.leaseId = leaseId := by
  unfold holder
  rw [Option.map_eq_some_iff]

theorem owned_of_get? {m : ExecutionManager} {part : String} {a : Allocation}
    (h : m.allocations.get? part = some a) (ho : a.authorityState = .owned) :
    m.owned a.leaseId = true := by
  unfold owned
  rw [List.any_eq_true]
  exact ⟨(part, a), (Dict.get?_eq_some_iff _ _ _).mp h, by simp [ho]⟩

end ExecutionManager

namespace System
variable {ι : Type} [DecidableEq ι]

def served (s : System ι) : Label ι → Option (Call ι)
  | .serve n => (s.calls[n]?).filter fun c => c.answer.isNone
  | _ => none

/-- A claim of `clear_fault` displaces no lease that is OWNED by another client. -/
def LeavesOwners (s : System ι) (l : Label ι) : Prop :=
  match s.served l with
  | some ⟨client, .claim request, some _, _⟩ => ∀ g ∈ s.grants,
      s.manager.owned g.leaseId = true → g.leaseId ∈ s.manager.displaced request.resources →
      g.client = client
  | _ => True

instance (s : System ι) (l : Label ι) : Decidable (LeavesOwners s l) := by
  unfold LeavesOwners
  split <;> infer_instance

/-- No resource that the status read by `clear_fault` shows in FAULT is held by a lease granted to
another client after that status was published. -/
def NoGrantSince (s : System ι) (l : Label ι) : Prop :=
  ∀ c f k message, s.served l = some c → c.clearFault = some f → f.basis = some k →
    s.published[k]? = some message → ∀ part ∈ f.resources.keys,
      authorityState message.status.allocations part = .fault →
      ∀ g ∈ s.grants.drop message.grants, s.manager.holder part = some g.leaseId →
        g.client = c.client

/-! ## The invariant -/

/-- A status cache that is served from was filled by the message at the process's position. -/
def Cached (published : List Publication) (p : Process) : Prop :=
  p.client.lastStatusMonotonic ≠ none → ∃ k message, p.position = some k ∧
    published[k]? = some message ∧ p.client.allocations = message.status.allocations

/-- `clear_fault` asks for the resources its status message shows in FAULT. -/
def Requested (published : List Publication) (c : Call ι) : Prop :=
  ∀ f, c.clearFault = some f → ∃ k message request, f.basis = some k ∧
    published[k]? = some message ∧ c.request = .claim request ∧
    ∀ part, part ∈ request.resources.map Prod.fst ↔
      part ∈ f.resources.keys ∧ authorityState message.status.allocations part = .fault

structure Inv (s : System ι) : Prop where
  counter : s.manager.counter = s.grants.length
  ids : ∀ (n : ℕ) (g : Grant ι), s.grants[n]? = some g → g.leaseId = leaseName (n + 1)
  held : ∀ part a, s.manager.allocations.get? part = some a →
    (a.authorityState = .fault ∧ a.leaseId = "") ∨
    (a.authorityState = .owned ∧ ∃ g ∈ s.grants, g.leaseId = a.leaseId)
  published : ∀ message ∈ s.published, message.grants ≤ s.grants.length
  /-- A lease granted before a status that shows a resource in FAULT never holds it again. -/
  lost : ∀ message ∈ s.published, ∀ part,
    authorityState message.status.allocations part = .fault →
    ∀ g ∈ s.grants.take message.grants, s.manager.holder part ≠ some g.leaseId
  cached : ∀ i, Cached s.published (s.process i)
  requested : ∀ c ∈ s.calls, Requested s.published c

theorem inv_init (roleCode : SourceRole → ℕ) (timeouts : ι → Timeouts) (timeoutSec : ι → ℚ)
    (contracts : ι → Dict String String) (now : ℚ) :
    (init roleCode (fun i => Process.new (timeouts i) (timeoutSec i) (contracts i)) now).Inv where
  counter := rfl
  ids _ _ h := by simp [init] at h
  held _ _ h := nomatch h
  published _ h := absurd h List.not_mem_nil
  lost _ h := absurd h List.not_mem_nil
  cached _ h := absurd rfl h
  requested _ h := absurd h List.not_mem_nil

theorem Inv.leaseId_ne_empty {s : System ι} (h : s.Inv) {g : Grant ι} (hg : g ∈ s.grants) :
    g.leaseId ≠ "" := by
  obtain ⟨n, hn⟩ := List.getElem?_of_mem hg
  rw [h.ids n g hn]
  exact leaseName_ne_empty _

/-! ## The claim of `clear_fault` when it is served -/

theorem Inv.owned_of_holder {s : System ι} (h : s.Inv) {g : Grant ι} (hg : g ∈ s.grants)
    {part : String} (hholder : s.manager.holder part = some g.leaseId) :
    s.manager.owned g.leaseId = true := by
  obtain ⟨a, ha, hid⟩ := ExecutionManager.holder_eq_some.mp hholder
  rcases h.held part a ha with ⟨-, hempty⟩ | ⟨howned, -⟩
  · exact absurd (hid.symm.trans hempty) (h.leaseId_ne_empty hg)
  · exact hid ▸ ExecutionManager.owned_of_get? ha howned

/-- What holds a resource that a status showed in FAULT was granted after that status. -/
theorem Inv.granted_since {s : System ι} (h : s.Inv) {message : Publication}
    (hm : message ∈ s.published) {part : String}
    (hfault : authorityState message.status.allocations part = .fault) {g : Grant ι}
    (hg : g ∈ s.grants) (hholder : s.manager.holder part = some g.leaseId) :
    g ∈ s.grants.drop message.grants := by
  rw [← List.take_append_drop message.grants s.grants] at hg
  rcases List.mem_append.mp hg with hbefore | hsince
  · exact absurd hholder (h.lost message hm part hfault g hbefore)
  · exact hsince

/-- The claim displaces an owner exactly where it was granted since the status was published. -/
theorem leavesOwners_iff {s : System ι} (h : s.Inv) (l : Label ι) :
    LeavesOwners s l ↔ NoGrantSince s l := by
  unfold LeavesOwners NoGrantSince
  cases hserved : s.served l with
  | none => exact ⟨fun _ _ _ _ _ hc => (nomatch hc), fun _ => trivial⟩
  | some c =>
    obtain ⟨client, request, clearFault, answer⟩ := c
    cases clearFault with
    | none =>
      refine ⟨fun _ c f _ _ hc hf => ?_, fun _ => ?_⟩
      · cases hc
        cases hf
      · cases request <;> trivial
    | some f =>
      have hmem : (⟨client, request, some f, answer⟩ : Call ι) ∈ s.calls := by
        cases l with
        | serve n => exact List.mem_of_getElem? (Option.filter_eq_some_iff.mp hserved).1
        | _ => cases hserved
      obtain ⟨k, message, body, hbasis, hmessage, hbody, htargets⟩ := h.requested _ hmem f rfl
      cases hbody
      have hpub := List.mem_of_getElem? hmessage
      constructor
      · intro hleaves c f' k' message' hc hf hk hm part hpart hfault g hg hholder
        cases hc
        cases hf
        obtain rfl : k = k' := Option.some.inj (hbasis.symm.trans hk)
        obtain rfl : message = message' := Option.some.inj (hmessage.symm.trans hm)
        have hgrant := List.mem_of_mem_drop hg
        obtain ⟨a, ha, hid⟩ := ExecutionManager.holder_eq_some.mp hholder
        refine hleaves g hgrant (h.owned_of_holder hgrant hholder) ?_
        exact ExecutionManager.mem_displaced.mpr
          ⟨part, a, ha, (htargets part).mpr ⟨hpart, hfault⟩, hid, h.leaseId_ne_empty hgrant⟩
      · intro hsince g hg _ hdisplaced
        obtain ⟨part, a, ha, hpart, hid, -⟩ := ExecutionManager.mem_displaced.mp hdisplaced
        obtain ⟨hkeys, hfault⟩ := (htargets part).mp hpart
        have hholder := ExecutionManager.holder_eq_some.mpr ⟨a, ha, hid⟩
        exact hsince _ f k message rfl rfl hbasis hmessage part hkeys hfault g
          (h.granted_since hpub hfault hg hholder) hholder

/-! ## Steps that leave the manager and the status caches -/

structure SameCache (p p' : Process) : Prop where
  client : p'.client = p.client
  position : p'.position = p.position

theorem sameCache_described (p : Process) (snapshot : Snapshot) :
    SameCache p (p.described snapshot) := by
  unfold Process.described
  split <;> exact ⟨rfl, rfl⟩

theorem sameCache_prepareExecution (p : Process) (now : ℚ) (timeoutSec : Option ℚ)
    (available : Bool) : SameCache p (p.prepareExecution now timeoutSec available) := by
  simp only [Process.prepareExecution]
  split
  · exact ⟨rfl, rfl⟩
  split
  · exact ⟨rfl, rfl⟩
  split <;> exact ⟨rfl, rfl⟩

theorem sameCache_pollSnapshot (p : Process) (now : ℚ) : SameCache p (p.pollSnapshot now) := by
  unfold Process.pollSnapshot
  split
  · split
    · exact ⟨rfl, rfl⟩
    · exact sameCache_described p _
  · split
    · exact ⟨rfl, rfl⟩
    · exact sameCache_described p _
  · exact ⟨rfl, rfl⟩

theorem sameCache_claimAnswered (p : Process) (answer : ClaimAnswer) (available : Bool)
    (call : ℕ) : SameCache p (p.claimAnswered answer available call).1 := by
  unfold Process.claimAnswered
  split
  · split
    · exact ⟨rfl, rfl⟩
    · split
      · exact ⟨rfl, rfl⟩
      · split <;> exact ⟨rfl, rfl⟩
  · exact ⟨rfl, rfl⟩

theorem sameCache_releaseAnswered (p : Process) (now : ℚ) (answer : ReleaseAnswer) :
    SameCache p (p.releaseAnswered now answer) := by
  unfold Process.releaseAnswered
  split
  · split <;> exact ⟨rfl, rfl⟩
  · exact ⟨rfl, rfl⟩

theorem sameCache_settle (p : Process) (now : ℚ) : SameCache p (p.settle now) := by
  unfold Process.settle
  split
  · split <;> exact ⟨rfl, rfl⟩
  · exact ⟨rfl, rfl⟩

/-- What the invariant sees of a step of the processes and their calls. -/
structure Frame (s s' : System ι) : Prop where
  manager : s'.manager = s.manager
  grants : s'.grants = s.grants
  published : s'.published = s.published
  process : ∀ i, SameCache (s.process i) (s'.process i)
  calls : ∀ c ∈ s'.calls, c ∈ s.calls ∨ c.clearFault = none

theorem frame_refl (s : System ι) : Frame s s :=
  ⟨rfl, rfl, rfl, fun _ => ⟨rfl, rfl⟩, fun _ h => Or.inl h⟩

theorem frame_setProcess {s : System ι} {i : ι} {p : Process} (h : SameCache (s.process i) p) :
    Frame s (s.setProcess i p) := by
  refine ⟨rfl, rfl, rfl, fun j => ?_, fun _ hc => Or.inl hc⟩
  by_cases hj : j = i
  · subst hj
    simpa [setProcess] using h
  · simpa [setProcess, hj] using SameCache.mk rfl rfl

theorem frame_send {s s' : System ι} (h : Frame s s') {c : Call ι} (hc : c.clearFault = none) :
    Frame s (s'.send c) := by
  refine ⟨h.manager, h.grants, h.published, h.process, fun d hd => ?_⟩
  rcases List.mem_append.mp hd with hold | hnew
  · exact h.calls d hold
  · rw [List.mem_singleton.mp hnew]
    exact Or.inr hc

theorem frame_receive (s : System ι) (i : ι) (available : Bool) :
    Frame s (s.receive i available) := by
  unfold receive
  split
  · split
    · rename_i response _
      have hcache := sameCache_claimAnswered (s.process i) (.response response) available
        s.calls.length
      split
      · rename_i p heq
        rw [heq] at hcache
        exact frame_setProcess hcache
      · rename_i p leaseId heq
        rw [heq] at hcache
        exact frame_send (frame_setProcess hcache) rfl
    · exact frame_refl s
  · split
    · exact frame_setProcess (sameCache_releaseAnswered _ _ _)
    · exact frame_refl s
  · exact frame_refl s

theorem frame_fail (s : System ι) (i : ι) (failure : CallFailure) : Frame s (s.fail i failure) := by
  unfold fail
  split
  · exact frame_setProcess (sameCache_claimAnswered _ _ _ _)
  · exact frame_setProcess (sameCache_releaseAnswered _ _ _)
  · exact frame_refl s

theorem frame_exit (s : System ι) (i : ι) (leaseId : String) : Frame s (s.exit i leaseId) := by
  unfold exit
  split
  · exact frame_send (frame_refl s) rfl
  · exact frame_refl s

theorem Cached.of_sameCache {published : List Publication} {p p' : Process}
    (h : Cached published p) (hp : SameCache p p') : Cached published p' := by
  unfold Cached
  rw [hp.client, hp.position]
  exact h

theorem inv_frame {s s' : System ι} (h : s.Inv) (hf : Frame s s') : s'.Inv := by
  refine ⟨?_, ?_, ?_, ?_, ?_, fun i => ?_, fun c hc => ?_⟩
  · rw [hf.manager, hf.grants]
    exact h.counter
  · rw [hf.grants]
    exact h.ids
  · rw [hf.manager, hf.grants]
    exact h.held
  · rw [hf.published, hf.grants]
    exact h.published
  · rw [hf.published, hf.grants, hf.manager]
    exact h.lost
  · rw [hf.published]
    exact (h.cached i).of_sameCache (hf.process i)
  · rw [hf.published]
    rcases hf.calls c hc with hold | hnone
    · exact h.requested c hold
    · intro f hsome
      rw [hnone] at hsome
      cases hsome

/-! ## The request of `clear_fault` -/

theorem mem_keys_faulted {resources : Dict String String} {snapshot : Snapshot} {part : String} :
    part ∈ (faulted resources snapshot).entries.map Prod.fst ↔
      part ∈ resources.keys ∧ authorityState snapshot part = .fault := by
  unfold faulted Dict.filter Dict.keys
  rw [List.mem_map, List.mem_map]
  constructor
  · rintro ⟨e, he, rfl⟩
    rw [List.mem_filter, beq_iff_eq] at he
    exact ⟨⟨e, he.1, rfl⟩, he.2⟩
  · rintro ⟨⟨e, he, rfl⟩, hfault⟩
    exact ⟨e, List.mem_filter.mpr ⟨he, beq_iff_eq.mpr hfault⟩, rfl⟩

/-- A snapshot that shows a fault is the cache of a status message. -/
theorem getAllocations_of_fault {c : ExecutionManagerClient} {now : ℚ} {part : String}
    (h : authorityState (c.getAllocations now) part = .fault) :
    c.lastStatusMonotonic ≠ none ∧ c.getAllocations now = c.allocations := by
  cases hget : (c.getAllocations now).get? part with
  | none =>
    rw [authorityState, hget] at h
    cases h
  | some a =>
    obtain ⟨t, ht, hfresh, -⟩ := ExecutionManagerClient.getAllocations_some hget
    refine ⟨by simp [ht], ?_⟩
    simp [ExecutionManagerClient.getAllocations, ExecutionManagerClient.statusFresh, ht, hfresh]

theorem clearFault_cases (p : Process) (now : ℚ) (available : Bool) (call : ℕ) :
    SameCache p (p.clearFault now available call).1 ∧
    ∀ request, (p.clearFault now available call).2 = some request → ∃ resources,
      p.phase = .clearing resources ∧
      (faulted resources (p.describeAuthority now)).entries ≠ [] ∧
      request.resources = (faulted resources (p.describeAuthority now)).entries := by
  unfold Process.clearFault
  split
  next resources hphase =>
    simp only
    split
    · exact ⟨⟨rfl, rfl⟩, fun _ h => (nomatch h)⟩
    next hempty =>
      split
      · exact ⟨⟨rfl, rfl⟩, fun _ h => (nomatch h)⟩
      next request hrequest =>
        have hentries : request.resources =
            (faulted resources (p.describeAuthority now)).entries := by
          unfold ExecutionManagerClient.claimRequest at hrequest
          split at hrequest
          · cases hrequest
          · cases hrequest
            rfl
        have hne : (faulted resources (p.describeAuthority now)).entries ≠ [] := by
          intro hnil
          exact hempty (by rw [Dict.isEmpty, hnil]; rfl)
        split
        · refine ⟨⟨rfl, rfl⟩, fun r hr => ⟨resources, hphase, hne, ?_⟩⟩
          rw [← Option.some.inj hr]
          exact hentries
        · exact ⟨⟨rfl, rfl⟩, fun _ h => (nomatch h)⟩
  · exact ⟨⟨rfl, rfl⟩, fun _ h => (nomatch h)⟩

theorem requested_of_clearFault {published : List Publication} {p : Process} {now : ℚ}
    {resources : Dict String String} {request : ClaimRequest} {i : ι}
    (hcached : Cached published p)
    (hne : (faulted resources (p.describeAuthority now)).entries ≠ [])
    (hentries : request.resources = (faulted resources (p.describeAuthority now)).entries) :
    Requested published
      (⟨i, .claim request, some ⟨resources, p.position⟩, none⟩ : Call ι) := by
  obtain ⟨e, he⟩ := List.exists_mem_of_ne_nil _ hne
  have hfault := (mem_keys_faulted.mp (List.mem_map_of_mem he)).2
  obtain ⟨hfilled, hcache⟩ := getAllocations_of_fault hfault
  obtain ⟨k, message, hk, hmessage, hallocations⟩ := hcached hfilled
  intro f hf
  cases hf
  refine ⟨k, message, request, hk, hmessage, rfl, fun part => ?_⟩
  rw [hentries, mem_keys_faulted, Process.describeAuthority, hcache, hallocations]

theorem inv_clear {s : System ι} (h : s.Inv) (i : ι) (available : Bool) :
    (s.clear i available).Inv := by
  obtain ⟨hcache, hrequest⟩ := clearFault_cases (s.process i) s.now available s.calls.length
  unfold clear
  split
  next resources p request hphase heq =>
    rw [heq] at hcache hrequest
    obtain ⟨resources', hphase', hne, hentries⟩ := hrequest request rfl
    obtain rfl : resources = resources' := by
      rw [hphase] at hphase'
      cases hphase'
      rfl
    have hset := inv_frame h (frame_setProcess hcache)
    refine ⟨hset.counter, hset.ids, hset.held, hset.published, hset.lost, hset.cached, ?_⟩
    intro c hc
    rcases List.mem_append.mp hc with hold | hnew
    · exact h.requested c hold
    · rw [List.mem_singleton.mp hnew]
      exact requested_of_clearFault (h.cached i) hne hentries
  next p _ heq _ =>
    rw [heq] at hcache
    exact inv_frame h (frame_setProcess hcache)

/-! ## Steps of the manager and deliveries -/

/-- A manager step keeps the invariant if each allocation after it was there before, is a fault,
or belongs to a new lease. -/
theorem inv_manager {s s' : System ι} (h : s.Inv) (new : List (Grant ι))
    (hgrants : s'.grants = s.grants ++ new) (hcounter : s'.manager.counter = s'.grants.length)
    (hids : ∀ (n : ℕ) (g : Grant ι), s'.grants[n]? = some g → g.leaseId = leaseName (n + 1))
    (hget : ∀ part a, s'.manager.allocations.get? part = some a →
      s.manager.allocations.get? part = some a ∨
      (a.authorityState = .fault ∧ a.leaseId = "") ∨
      (a.authorityState = .owned ∧ ∃ g ∈ new, g.leaseId = a.leaseId))
    (hpublished : s'.published = s.published) (hprocess : s'.process = s.process)
    (hcalls : ∀ c ∈ s'.calls, Requested s.published c) : s'.Inv := by
  refine ⟨hcounter, hids, fun part a ha => ?_, fun message hm => ?_, fun message hm => ?_,
    fun i => ?_, fun c hc => ?_⟩
  · rcases hget part a ha with hold | hfault | ⟨howned, g, hg, hid⟩
    · rcases h.held part a hold with hfault | ⟨howned, g, hg, hid⟩
      · exact Or.inl hfault
      · exact Or.inr ⟨howned, g, hgrants ▸ List.mem_append_left new hg, hid⟩
    · exact Or.inl hfault
    · exact Or.inr ⟨howned, g, hgrants ▸ List.mem_append_right s.grants hg, hid⟩
  · rw [hpublished] at hm
    rw [hgrants, List.length_append]
    exact Nat.le_add_right_of_le (h.published message hm)
  · intro part hfault g hg hholder
    rw [hpublished] at hm
    rw [hgrants, List.take_append_of_le_length (h.published message hm)] at hg
    have hgrant := List.mem_of_mem_take hg
    obtain ⟨a, ha, hid⟩ := ExecutionManager.holder_eq_some.mp hholder
    rcases hget part a ha with hold | ⟨-, hempty⟩ | ⟨-, g', hg', hid'⟩
    · exact h.lost message hm part hfault g hg
        (ExecutionManager.holder_eq_some.mpr ⟨a, hold, hid⟩)
    · exact h.leaseId_ne_empty hgrant (hid.symm.trans hempty)
    · -- the new lease has a number that no earlier lease has
      obtain ⟨n, hn⟩ := List.getElem?_of_mem hgrant
      obtain ⟨n', hn'⟩ := List.getElem?_of_mem hg'
      have hlt := (List.getElem?_eq_some_iff.mp hn).1
      have hnew : s'.grants[s.grants.length + n']? = some g' := by
        rw [hgrants, List.getElem?_append_right (Nat.le_add_right _ _), Nat.add_sub_cancel_left]
        exact hn'
      have hname : leaseName (n + 1) = leaseName (s.grants.length + n' + 1) := by
        rw [← h.ids n g hn, ← hids _ g' hnew, hid', hid]
      have heq := leaseName_injective hname
      omega
  · rw [hpublished, hprocess]
    exact h.cached i
  · rw [hpublished]
    exact hcalls c hc

theorem requested_answered {published : List Publication} {c : Call ι} (h : Requested published c)
    (answer : Option Answer) : Requested published { c with answer := answer } := h

theorem requested_set {s : System ι} (h : s.Inv) {n : ℕ} {c : Call ι} (hn : s.calls[n]? = some c)
    (answer : Option Answer) :
    ∀ d ∈ s.calls.set n { c with answer := answer }, Requested s.published d := by
  intro d hd
  rcases List.mem_or_eq_of_mem_set hd with hold | rfl
  · exact h.requested d hold
  · exact requested_answered (h.requested c (List.mem_of_getElem? hn)) answer

theorem inv_serveClaim {s : System ι} (h : s.Inv) {n : ℕ} {c : Call ι}
    (hn : s.calls[n]? = some c) (request : ClaimRequest) : (s.serveClaim n c request).Inv := by
  unfold serveClaim ExecutionManager.claim
  cases hr : s.manager.refuses request with
  | some message =>
    have hgrants : s.grants ++ [] = s.grants := List.append_nil _
    refine inv_manager h [] rfl (h.counter.trans (congrArg List.length hgrants.symm)) ?_
      (fun _ _ ha => Or.inl ha) rfl rfl (requested_set h hn _)
    intro m g hg
    exact h.ids m g (hgrants ▸ hg)
  | none =>
    refine inv_manager h [⟨c.client, leaseName (s.manager.counter + 1)⟩] rfl ?_ ?_ ?_ rfl rfl
      (requested_set h hn _)
    · show s.manager.counter + 1 = (s.grants ++ [_]).length
      rw [List.length_append, h.counter]
      rfl
    · intro m g hg
      rcases getElem?_concat_cases hg with hold | ⟨rfl, rfl⟩
      · exact h.ids m g hold
      · rw [← h.counter]
        rfl
    · intro part a ha
      rcases ExecutionManager.granted_get? ha with hold | ⟨howned, hid⟩
      · exact Or.inl hold
      · exact Or.inr (Or.inr ⟨howned, _, List.mem_singleton_self _, hid.symm⟩)

theorem inv_serveRelease {s : System ι} (h : s.Inv) {n : ℕ} {c : Call ι}
    (hn : s.calls[n]? = some c) (leaseId : String) : (s.serveRelease n c leaseId).Inv :=
  inv_manager h [] (List.append_nil _).symm h.counter h.ids
    (fun _ _ ha => Or.inl (ExecutionManager.removeLeases_get? ha)) rfl rfl (requested_set h hn _)

theorem inv_serve {s : System ι} (h : s.Inv) (n : ℕ) : (s.serve n).Inv := by
  unfold serve
  split
  next hn => exact inv_serveClaim h hn _
  next hn => exact inv_serveRelease h hn _
  · exact h

theorem inv_fault {s : System ι} (h : s.Inv) (resource : String) :
    Inv { s with manager := s.manager.fault resource } :=
  inv_manager h [] (List.append_nil _).symm h.counter h.ids
    (fun _ _ ha => (ExecutionManager.fault_get? ha).imp_right Or.inl) rfl rfl h.requested

theorem Cached.mono {published published' : List Publication} (hp : published <+: published')
    {p : Process} (h : Cached published p) : Cached published' p := by
  intro hfilled
  obtain ⟨k, message, hk, hmessage, hrest⟩ := h hfilled
  exact ⟨k, message, hk, held_of_prefix hp hmessage, hrest⟩

theorem Requested.mono {published published' : List Publication} (hp : published <+: published')
    {c : Call ι} (h : Requested published c) : Requested published' c := by
  intro f hf
  obtain ⟨k, message, request, hk, hmessage, hrest⟩ := h f hf
  exact ⟨k, message, request, hk, held_of_prefix hp hmessage, hrest⟩

/-- A lease granted so far holds no resource that the published status shows in FAULT. -/
theorem inv_publish {s : System ι} (h : s.Inv) : s.publish.Inv := by
  have hprefix : s.published <+: s.publish.published := List.prefix_append _ _
  have hmem : ∀ message ∈ s.publish.published, message ∈ s.published ∨
      message = ⟨s.manager.status, s.grants.length⟩ := by
    intro message hm
    simpa [publish] using hm
  refine ⟨h.counter, h.ids, h.held, fun message hm => ?_, fun message hm => ?_,
    fun i => (h.cached i).mono hprefix, fun c hc => (h.requested c hc).mono hprefix⟩
  · rcases hmem message hm with hold | rfl
    · exact h.published message hold
    · exact le_refl _
  · rcases hmem message hm with hold | rfl
    · exact h.lost message hold
    · intro part hfault g hg hholder
      obtain ⟨a, ha, hid⟩ := ExecutionManager.holder_eq_some.mp hholder
      rw [authorityState, ExecutionManager.get?_status] at hfault
      replace ha : s.manager.allocations.get? part = some a := ha
      rw [ha] at hfault
      have hne := h.leaseId_ne_empty (List.mem_of_mem_take hg)
      rcases h.held part a ha with ⟨-, hempty⟩ | ⟨howned, -⟩
      · exact hne (hid.symm.trans hempty)
      · exact absurd (hfault.symm.trans howned) (by simp)

theorem inv_deliver {s : System ι} (h : s.Inv) (i : ι) (position : ℕ) :
    (s.deliver i position).Inv := by
  unfold deliver
  split
  · exact h
  next message hmessage =>
    split
    · refine ⟨h.counter, h.ids, h.held, h.published, h.lost, fun j => ?_, h.requested⟩
      by_cases hj : j = i
      · subst hj
        intro _
        exact ⟨position, message, by simp [setProcess, Process.onStatus], hmessage,
          by simp [setProcess, Process.onStatus, ExecutionManagerClient.onStatus]⟩
      · have hsame : (s.setProcess i ((s.process i).onStatus s.now position
            message.status)).process j = s.process j := by
          simp [setProcess, hj]
        rw [hsame]
        exact h.cached j
    · exact h

theorem inv_step (s : System ι) (l : Label ι) (h : s.Inv) : (s.step l).Inv := by
  cases l with
  | prepare i timeoutSec available =>
    show Inv (if _ then _ else s)
    split
    · exact inv_frame h (frame_setProcess (sameCache_prepareExecution _ _ _ _))
    · exact h
  | poll i => exact inv_frame h (frame_setProcess (sameCache_pollSnapshot _ _))
  | clear i available => exact inv_clear h i available
  | receive i available => exact inv_frame h (frame_receive s i available)
  | fail i failure => exact inv_frame h (frame_fail s i failure)
  | settle i => exact inv_frame h (frame_setProcess (sameCache_settle _ _))
  | enter i request => exact inv_frame h (frame_send (frame_refl s) rfl)
  | exit i leaseId => exact inv_frame h (frame_exit s i leaseId)
  | serve n => exact inv_serve h n
  | fault resource => exact inv_fault h resource
  | publish => exact inv_publish h
  | deliver i position => exact inv_deliver h i position
  | tick elapsed => exact inv_frame h ⟨rfl, rfl, rfl, fun _ => ⟨rfl, rfl⟩, fun _ hc => Or.inl hc⟩

/-! ## Runs -/

/-- A run leaves live owners alone exactly where no faulted target was granted to another client,
and is still held, since the status was published. -/
theorem clear_fault_leaves_owners (roleCode : SourceRole → ℕ) (timeouts : ι → Timeouts)
    (timeoutSec : ι → ℚ) (contracts : ι → Dict String String) (now : ℚ) (ls : List (Label ι)) :
    Follows step LeavesOwners
      (init roleCode (fun i => Process.new (timeouts i) (timeoutSec i) (contracts i)) now) ls ↔
    Follows step NoGrantSince
      (init roleCode (fun i => Process.new (timeouts i) (timeoutSec i) (contracts i)) now) ls :=
  follows_congr Inv (fun _ l h _ => leavesOwners_iff h l) (fun s l h _ _ => inv_step s l h)
    (inv_init roleCode timeouts timeoutSec contracts now) (follows_true _ ls)

/-! ## A live session that a late claim takes away -/

def twoProcesses : System Bool :=
  init (fun _ => 0) (fun _ => Process.new Timeouts.default 5
    (Dict.ofPairs [("arm", "joint_reference")])) 0

def armClaim : ClaimRequest :=
  ⟨.policy, "policy-v2", false, [], [("arm", "joint_reference")]⟩

/-- Both processes read the same FAULT. The first one's claim is served after the second one has
cleared the fault and entered a Session. -/
def lateClear : List (Label Bool) :=
  [.fault "arm", .publish, .deliver true 0, .deliver false 0, .prepare true none true,
    .prepare false none true, .poll true, .poll false, .clear true true, .clear false true,
    .serve 1, .receive false true, .serve 2, .receive false true, .enter false armClaim,
    .serve 3, .serve 0]

theorem lateClear_displaces_owner : ¬ Follows step LeavesOwners twoProcesses lateClear := by
  decide +kernel

end System
end PhysicalAiRuntime.Recovery
