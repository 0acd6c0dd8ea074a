import PhysicalAiRuntime.Fleet.Writers

/-! A session that asks for its parts gets them: once its request is served, its call has returned
and a status message published after the grant arrives, it is active, in whatever state the parts
and the other processes were, and whatever goes on elsewhere meanwhile. -/
namespace PhysicalAiRuntime.Fleet
open Authority Provider Control
open Recovery (ExecutionManager leaseName leaseName_ne_empty)
set_option autoImplicit false
set_option maxHeartbeats 250000
set_option linter.unusedSectionVars false

variable {κ ι : Type} [DecidableEq κ] [DecidableEq ι]

def askedParts (r : ClaimRequest) : List String := r.resources.map Prod.fst

/-- A grant names an endpoint for each requested pair and no other one. -/
theorem endpointsComplete_grantResponse (m : ExecutionManager) {r : ClaimRequest}
    {resources : Dict String String} (h : r.resources = resources.entries) :
    ExecutionManagerClient.endpointsComplete resources (m.grantResponse r) = true := by
  have hkeys : ∀ key, key ∈ (ExecutionManagerClient.responseBindings (m.grantResponse r)).keys ↔
      key ∈ resources.entries := by
    intro key
    rw [ExecutionManagerClient.responseBindings, Dict.mem_keys_ofPairs, ← h]
    constructor
    · rintro ⟨binding, hb, rfl⟩
      obtain ⟨e, he, rfl⟩ := List.mem_map.mp hb
      obtain ⟨item, hitem, rfl⟩ := List.mem_map.mp he
      exact hitem
    · intro hmem
      exact ⟨_, List.mem_map_of_mem (List.mem_map_of_mem hmem), rfl⟩
  unfold ExecutionManagerClient.endpointsComplete
  rw [decide_eq_true_eq]
  exact ⟨fun key hk => (hkeys key).mp hk, fun key hk => (hkeys key).mpr hk⟩

theorem claimRequest_resources {s : Session} {r : ClaimRequest} (h : claimRequest s = .ok r) :
    r.resources = s.config.resources.entries := by
  unfold claimRequest ExecutionManagerClient.claimRequest at h
  split at h
  · cases h
  · split at h
    · cases h
    · cases h
      rfl

theorem claimRequest_parts {s : Session} {r : ClaimRequest} (h : claimRequest s = .ok r)
    {part : String} (hpart : part ∈ s.config.parts) : part ∈ askedParts r := by
  have hkeys : part ∈ s.config.source.resources.keys := s.config.parts_subset part hpart
  rw [← Dict.get?_isSome_iff] at hkeys
  obtain ⟨contract, hc⟩ := Option.isSome_iff_exists.mp hkeys
  unfold askedParts
  rw [claimRequest_resources h]
  refine (Dict.mem_keys_ofPairs _ part).mpr ⟨(part, contract), ?_, rfl⟩
  exact List.mem_filterMap.mpr ⟨part, hpart, by rw [hc]; rfl⟩

/-! ## The parts of a lease -/

/-- All of the parts are allocated to the lease. -/
def Shows (parts : List String) (leaseId : String) (allocations : Dict String Allocation) : Prop :=
  ∀ part ∈ parts, ∃ a, allocations.get? part = some a ∧ a.authorityState = .owned ∧
    a.leaseId = leaseId

namespace System

/-- The lease was granted for the parts, and nobody has taken one of them since. -/
structure Granting (s : System κ ι) (parts : List String) (leaseId : String) : Prop where
  manager : Shows parts leaseId s.manager.allocations
  grant : ∃ (j : ℕ) (g : Grant κ ι), s.grants[j]? = some g ∧ g.leaseId = leaseId ∧
    g.parts = parts ∧ ∀ m ∈ s.published, j < m.grants → Shows parts leaseId m.status.allocations

variable {s s' : System κ ι} {parts : List String} {leaseId : String}

theorem Granting.of_manager (h : s.Granting parts leaseId)
    (hget : ∀ part ∈ parts, ∀ a, s.manager.allocations.get? part = some a →
      a.leaseId = leaseId → s'.manager.allocations.get? part = some a)
    (hg : s'.grants = s.grants) (hp : s'.published = s.published) :
    s'.Granting parts leaseId where
  manager part hpart := by
    obtain ⟨a, ha, howned, hid⟩ := h.manager part hpart
    exact ⟨a, hget part hpart a ha hid, howned, hid⟩
  grant := by
    rw [hg, hp]
    exact h.grant

theorem Granting.of_same (h : s.Granting parts leaseId) (hm : s'.manager = s.manager)
    (hg : s'.grants = s.grants) (hp : s'.published = s.published) : s'.Granting parts leaseId :=
  h.of_manager (fun _ _ _ ha _ => by rw [hm]; exact ha) hg hp

theorem Granting.publish (h : s.Granting parts leaseId) : s.publish.Granting parts leaseId where
  manager := h.manager
  grant := by
    obtain ⟨j, g, hj, hid, hparts, hshows⟩ := h.grant
    refine ⟨j, g, hj, hid, hparts, fun m hm hlt => ?_⟩
    rcases List.mem_append.mp hm with hold | hnew
    · exact hshows m hold hlt
    · rw [List.mem_singleton.mp hnew]
      intro part hpart
      obtain ⟨a, ha, hrest⟩ := h.manager part hpart
      exact ⟨a, (ExecutionManager.get?_status s.manager part).trans ha, hrest⟩

/-- A grant for other parts displaces other leases. -/
theorem Granting.elsewhere (h : s.Granting parts leaseId) (hinv : s.Granted) {r : ClaimRequest}
    (hother : ∀ part ∈ parts, part ∉ askedParts r) {g : Grant κ ι}
    (hm : s'.manager = s.manager.granted r) (hg : s'.grants = s.grants ++ [g])
    (hp : s'.published = s.published) : s'.Granting parts leaseId := by
  obtain ⟨j, mine, hj, hid, hparts, hshows⟩ := h.grant
  have hkept : leaseId ∉ s.manager.displaced r.resources := by
    intro hmem
    obtain ⟨part, a, ha, hpart, haid, hne⟩ := ExecutionManager.mem_displaced.mp hmem
    rcases hinv.manager part a ha with hempty | ⟨last, hlast, hlid⟩
    · exact hne (haid.symm.trans hempty)
    · have hsame : last = mine := hinv.numbered.grant_eq (holder_mem hlast).1
        (List.mem_of_getElem? hj) (hlid.trans (haid.trans hid.symm))
      have hmine : part ∈ parts := by
        rw [← hparts, ← hsame]
        exact (holder_mem hlast).2
      exact hother part hmine hpart
  refine ⟨fun part hpart => ?_, j, mine, ?_, hid, hparts, ?_⟩
  · obtain ⟨a, ha, howned, haid⟩ := h.manager part hpart
    refine ⟨a, ?_, howned, haid⟩
    rw [hm]
    exact ExecutionManager.granted_get?_other (hother part hpart) ha (haid ▸ hkept)
  · rw [hg]
    exact Feed.held_of_prefix (List.prefix_append _ _) hj
  · rw [hp]
    exact hshows

/-- After a grant its parts are with its lease, and no message has shown that yet. -/
theorem Granted.granting (hinv : s.Granted) {r : ClaimRequest} {g : Grant κ ι}
    (hm : s'.manager = s.manager.granted r) (hg : s'.grants = s.grants ++ [g])
    (hp : s'.published = s.published) (hid : g.leaseId = leaseName (s.manager.counter + 1))
    (hparts : g.parts = askedParts r) :
    s'.Granting (askedParts r) (leaseName (s.manager.counter + 1)) where
  manager part hpart := by
    rw [hm]
    exact ExecutionManager.granted_get?_own s.manager hpart
  grant := by
    refine ⟨s.grants.length, g, ?_, hid, hparts, fun m hmem hlt => ?_⟩
    · rw [hg]
      exact List.getElem?_concat_length
    · rw [hp] at hmem
      exact absurd (hinv.count m hmem) (Nat.not_le_of_lt hlt)

/-! ## The call -/

/-- Call `n` is an entry of session `i` of process `k`, which does not enter otherwise. -/
structure Claimed (s : System κ ι) (k : κ) (i : ι) (n : ℕ) (c : Call κ ι) : Prop where
  place : s.calls[n]? = some c
  process : c.process = k
  session : c.session = some i
  asked : claimRequest ((s.world k).session i) = .ok c.request
  waits : c.taken = false → ((s.world k).session i).entered = false
  served : c.taken = true → c.response ≠ none
  granted : ∀ r, c.response = some r → (∃ m : ExecutionManager, r = m.grantResponse c.request) ∧
    s.Granting (askedParts c.request) r.leaseId
  entered : c.taken = true → ∀ r, c.response = some r →
    ((s.world k).session i).entered = true ∧ ((s.world k).session i).leaseId = some r.leaseId

/-- The step leaves the parts of call `n` and session `i` of process `k` alone: no other claim for
the parts is granted, none of them is faulted or released, and the session does not part with its
lease or enter with another answer; its own claim is not refused. -/
def Undisturbed (k : κ) (i : ι) (n : ℕ) (s : System κ ι) : Event κ ι → Prop
  | .serve m => ∀ c ∈ s.calls[n]?, ∀ d ∈ s.calls[m]?, d.response = none →
    if m = n then c.request.preempt = true ∨ s.manager.refuses c.request = none
    else s.manager.refuses d.request = none →
      ∀ part ∈ askedParts c.request, part ∉ askedParts d.request
  | .answer m => m = n ∨ ∀ d ∈ s.calls[m]?, ¬ (d.process = k ∧ d.session = some i)
  | .serveRelease m => ∀ c ∈ s.calls[n]?, ∀ r ∈ c.response, s.releases[m]? ≠ some r.leaseId
  | .fault resource => ∀ c ∈ s.calls[n]?, resource ∉ askedParts c.request
  | .process j l => j = k → ∀ x ∈ (s.world k).settles l, x.session ≠ i
  | _ => True

instance (k : κ) (i : ι) (n : ℕ) (s : System κ ι) (e : Event κ ι) :
    Decidable (s.Undisturbed k i n e) := by
  cases e <;> dsimp only [Undisturbed] <;> infer_instance

variable {k : κ} {i : ι} {n : ℕ} {c : Call κ ι}

theorem claimRequest_config {a b : Session} (h : b.config = a.config) :
    claimRequest b = claimRequest a := by
  unfold claimRequest
  rw [h]

/-- A step that leaves the call and its session alone. -/
theorem Claimed.keep (h : s.Claimed k i n c) (hn : s'.calls[n]? = some c)
    (hk : ((s.world k).session i).Keeps ((s'.world k).session i))
    (hg : ∀ r, c.response = some r → s.Granting (askedParts c.request) r.leaseId →
      s'.Granting (askedParts c.request) r.leaseId) : s'.Claimed k i n c where
  place := hn
  process := h.process
  session := h.session
  asked := (claimRequest_config hk.config).trans h.asked
  waits ht := hk.entered.trans (h.waits ht)
  served := h.served
  granted r hr := ⟨(h.granted r hr).1, hg r hr (h.granted r hr).2⟩
  entered ht r hr := by
    rw [hk.entered, hk.leaseId]
    exact h.entered ht r hr

/-- A step of the manager or of another process. -/
theorem Claimed.elsewhere (h : s.Claimed k i n c) (hn : s'.calls[n]? = some c)
    (hw : s'.world k = s.world k) (hg : ∀ r, c.response = some r →
      s.Granting (askedParts c.request) r.leaseId → s'.Granting (askedParts c.request) r.leaseId) :
    s'.Claimed k i n c := by
  refine h.keep hn ?_ hg
  rw [hw]
  exact Session.Keeps.refl _

def Serves (n : ℕ) : Event κ ι → Prop
  | .serve m => m = n
  | _ => False

def Answers (n : ℕ) : Event κ ι → Prop
  | .answer m => m = n
  | _ => False

/-- What a step makes of a call. -/
structure Advances (n : ℕ) (e : Event κ ι) (c c' : Call κ ι) : Prop where
  response : c.response ≠ none → c'.response = c.response
  taken : c.taken = true → c'.taken = true
  serves : Serves n e → c'.response ≠ none
  answers : Answers n e → c.response ≠ none → c'.taken = true

theorem advances_same {e : Event κ ι} (hs : Serves n e → c.response ≠ none)
    (ha : Answers n e → c.response ≠ none → c.taken = true) : Advances n e c c :=
  ⟨fun _ => rfl, id, hs, ha⟩

theorem Claimed.serve (h : s.Claimed k i n c) (hinv : s.Inv) (m : ℕ)
    (hu : s.Undisturbed k i n (.serve m)) :
    ∃ c', (s.serve m).Claimed k i n c' ∧ Advances n (.serve m : Event κ ι) c c' := by
  by_cases hm : m = n
  · subst hm
    cases hr : c.response with
    | some r =>
      have hsame : s.serve m = s := by simp [System.serve, h.place, hr]
      rw [hsame]
      exact ⟨c, h, advances_same (fun _ => by simp [hr]) fun ha => ha.elim⟩
    | none =>
      have hgrants : s.manager.refuses c.request = none := by
        have hno := hu c h.place c h.place hr
        rw [if_pos rfl] at hno
        rcases hno with hpreempt | hfree
        · exact s.manager.refuses_preempt hpreempt
        · exact hfree
      have hlt := (List.getElem?_eq_some_iff.mp h.place).1
      refine ⟨{ c with response := some (s.manager.grantResponse c.request) }, ?_,
        fun hno => absurd hr hno, id, fun _ => Option.some_ne_none _, fun ha => ha.elim⟩
      have hserve : s.serve m = { s with
          manager := s.manager.granted c.request
          grants := s.grants ++ [⟨c.process, c.session, leaseName (s.manager.counter + 1),
            c.request.resources.map Prod.fst, s.now⟩]
          calls := s.calls.set m
            { c with response := some (s.manager.grantResponse c.request) } } := by
        simp [System.serve, h.place, hr, ExecutionManager.claim, hgrants,
          ExecutionManager.grantResponse]
      rw [hserve]
      refine ⟨List.getElem?_set_self hlt, h.process, h.session, h.asked, h.waits,
        fun _ => Option.some_ne_none _, fun r hresponse => ?_,
        fun ht => absurd hr (h.served ht)⟩
      cases hresponse
      exact ⟨⟨s.manager, rfl⟩, hinv.granted.granting rfl rfl rfl rfl rfl⟩
  · refine ⟨c, ?_, advances_same (fun hs => absurd hs hm) fun ha => ha.elim⟩
    rcases serve_cases s m with hs | ⟨d, hd, hnone, ⟨message, hs⟩ | ⟨hgranted, hs⟩⟩
    · rw [hs]
      exact h
    · rw [hs]
      exact h.elsewhere ((List.getElem?_set_ne hm).trans h.place) rfl fun r _ hg =>
        hg.of_same rfl rfl rfl
    · have hother := hu c h.place d hd hnone
      rw [if_neg hm] at hother
      rw [hs]
      exact h.elsewhere ((List.getElem?_set_ne hm).trans h.place) rfl fun r _ hg =>
        hg.elsewhere hinv.granted (hother hgranted) rfl rfl rfl

/-- The call returns its grant, and its session enters. -/
theorem Claimed.enter (h : s.Claimed k i n c) (hinv : s.Inv) {r : ClaimResponse}
    (hr : c.response = some r) (ht : c.taken = false) :
    ({ s with calls := s.calls.set n { c with taken := true } }.act c.process
      (.enter i (.response r))).Claimed k i n { c with taken := true } := by
  have hlt := (List.getElem?_eq_some_iff.mp h.place).1
  obtain ⟨⟨m, hgrant⟩, hgranting⟩ := h.granted r hr
  have hsuccess : r.success = true := by rw [hgrant]; rfl
  have hcomplete : ExecutionManagerClient.endpointsComplete
      ((s.world k).session i).config.resources r = true := by
    rw [hgrant]
    exact endpointsComplete_grantResponse m (claimRequest_resources h.asked)
  have hclaim := World.claimFor_success ⟨c.request, h.asked⟩ hsuccess
  rw [if_pos hcomplete] at hclaim
  obtain ⟨hconfig, hentered, hlease⟩ := enter_granted (hinv.world k) (h.waits ht) hclaim
  have hworld : ({ s with calls := s.calls.set n { c with taken := true } }.act c.process
      (.enter i (.response r))).world k = (s.world k).step (.enter i (.response r)) := by
    rw [h.process]
    exact Function.update_self _ _ _
  refine ⟨List.getElem?_set_self hlt, h.process, h.session, ?_, fun hno => (by cases hno),
    fun _ => hr ▸ Option.some_ne_none r, fun r' hr' => ?_, fun _ r' hr' => ?_⟩
  · rw [hworld]
    exact (claimRequest_config hconfig).trans h.asked
  · obtain ⟨hm, hg⟩ := h.granted r' hr'
    exact ⟨hm, hg.of_same rfl rfl rfl⟩
  · rw [hr] at hr'
    cases hr'
    rw [hworld]
    exact ⟨hentered, hlease⟩

theorem Claimed.answer (h : s.Claimed k i n c) (hinv : s.Inv) (m : ℕ)
    (hu : s.Undisturbed k i n (.answer m)) :
    ∃ c', (s.answer m).Claimed k i n c' ∧ Advances n (.answer m : Event κ ι) c c' := by
  by_cases hm : m = n
  · subst hm
    cases hr : c.response with
    | none =>
      have hsame : s.answer m = s := by simp [System.answer, h.place, h.session, hr]
      rw [hsame]
      exact ⟨c, h, advances_same (fun hs => hs.elim) fun _ hno => absurd hr hno⟩
    | some r =>
      cases ht : c.taken with
      | true =>
        have hsame : s.answer m = s := by simp [System.answer, h.place, h.session, hr, ht]
        rw [hsame]
        exact ⟨c, h, advances_same (fun hs => hs.elim) fun _ _ => ht⟩
      | false =>
        refine ⟨{ c with taken := true }, ?_, fun _ => rfl, fun _ => rfl, fun hs => hs.elim,
          fun _ _ => rfl⟩
        have hanswer : s.answer m = { s with
            calls := s.calls.set m { c with taken := true } }.act c.process
            (.enter i (.response r)) := by
          simp [System.answer, h.place, h.session, hr, ht]
        rw [hanswer]
        exact h.enter hinv hr ht
  · refine ⟨c, ?_, advances_same (fun hs => hs.elim) fun ha => absurd ha hm⟩
    rcases answer_cases s m with hs | ⟨d, j, r, hd, hj, -, -, hs⟩
    · rw [hs]
      exact h
    · rw [hs]
      have hother := hu.resolve_left hm d hd
      refine h.keep ((List.getElem?_set_ne hm).trans h.place) ?_ fun r _ hg =>
        hg.of_same rfl rfl rfl
      by_cases hk : d.process = k
      · have hne : i ≠ j := fun he => hother ⟨hk, he ▸ hj⟩
        have hsame := (World.sameElsewhere_enterClaim (s.world k) j (.response r)).session i hne
        simp only [act, hk, Function.update_self]
        change ((s.world k).session i).Keeps
          (((s.world k).enterClaim j (.response r)).1.session i)
        rw [hsame]
        exact Session.Keeps.refl _
      · simp only [act, Function.update_of_ne (Ne.symm hk)]
        exact Session.Keeps.refl _

theorem Claimed.step (h : s.Claimed k i n c) (hinv : s.Inv) (e : Event κ ι)
    (hu : s.Undisturbed k i n e) :
    ∃ c', (s.step e).Claimed k i n c' ∧ Advances n e c c' := by
  have hother : ∀ {s' : System κ ι} {e : Event κ ι}, ¬ Serves n e → ¬ Answers n e →
      s'.Claimed k i n c → ∃ c', s'.Claimed k i n c' ∧ Advances n e c c' := fun hs ha hc =>
    ⟨c, hc, advances_same (fun h => absurd h hs) fun h => absurd h ha⟩
  have hask : ∀ (j : κ) (p : Option ι) (r : ClaimRequest), (s.ask j p r).Claimed k i n c :=
    fun j p r => h.elsewhere (Feed.held_of_prefix (List.prefix_append _ _) h.place) rfl
      fun r _ hg => hg.of_same rfl rfl rfl
  cases e with
  | request j p =>
    refine hother id id ?_
    change (s.request j p).Claimed k i n c
    rcases request_cases s j p with hs | ⟨r, hs⟩
    · rw [hs]
      exact h
    · rw [hs]
      exact hask j (some p) r
  | claim j r => exact hother id id (hask j none r)
  | release leaseId =>
    exact hother id id (h.elsewhere h.place rfl fun r _ hg => hg.of_same rfl rfl rfl)
  | serve m => exact h.serve hinv m hu
  | answer m => exact h.answer hinv m hu
  | serveRelease m =>
    refine hother id id ?_
    change (s.serveRelease m).Claimed k i n c
    unfold serveRelease
    split
    · exact h
    next leaseId hm =>
      refine h.elsewhere h.place rfl fun r hr hg => hg.of_manager (fun part _ a ha hid => ?_) rfl rfl
      refine ExecutionManager.release_get? ha fun he => hu c h.place r hr ?_
      rw [hm, ← he, hid]
  | fault resource =>
    refine hother id id (h.elsewhere h.place rfl fun r hr hg =>
      hg.of_manager (fun part hpart a ha _ => ?_) rfl rfl)
    have hne : part ≠ resource := fun he => hu c h.place (he ▸ hpart)
    change (s.manager.allocations.set resource _).get? part = some a
    rw [Dict.get?_set, if_neg hne]
    exact ha
  | publish => exact hother id id (h.elsewhere h.place rfl fun r _ hg => hg.publish)
  | deliver j p =>
    refine hother id id ?_
    change (s.deliver j p).Claimed k i n c
    unfold deliver
    split
    · exact h
    · split
      · refine h.keep h.place ?_ fun r _ hg => hg.of_same rfl rfl rfl
        by_cases hj : k = j
        · subst hj
          simpa using (World.callback_keeps (s.world k) _).session i
        · simpa [hj] using Session.Keeps.refl ((s.world k).session i)
      · exact h
  | process j l =>
    refine hother id id ?_
    rcases process_cases s j l with hs | ⟨hl, -, hs⟩
    · rw [hs]
      exact h
    · rw [hs]
      refine h.keep h.place ?_ fun r _ hg => hg.of_same rfl rfl rfl
      by_cases hj : k = j
      · subst hj
        simp only [act, Function.update_self]
        exact keeps_own (hinv.world k) hl (hu rfl)
      · simp only [act, Function.update_of_ne hj]
        exact Session.Keeps.refl _
  | leave m =>
    refine hother id id ?_
    change (s.leave m).Claimed k i n c
    rcases leave_cases s m with hs | ⟨p, -, hs⟩
    · rw [hs]
      exact h
    · rw [hs]
      exact h.elsewhere h.place rfl fun r _ hg => hg.of_same rfl rfl rfl
  | tick elapsed =>
    exact hother id id (h.keep h.place
      ((World.callback_keeps (s.world k) (.advance elapsed)).session i)
      fun r _ hg => hg.of_same rfl rfl rfl)

/-! ## The status message -/

/-- The message the process received last was published after the lease was granted. -/
def Informed (s : System κ ι) (k : κ) (leaseId : String) : Prop :=
  ∃ p m g, s.position k = some p ∧ s.published[p]? = some m ∧ g ∈ s.grants.take m.grants ∧
    g.leaseId = leaseId

/-- A status message published after the grant of call `n` arrives at process `k`. -/
def Informs (k : κ) (n : ℕ) (s : System κ ι) : Event κ ι → Prop
  | .deliver j p => j = k ∧ Feed.CanRead s.published (s.position k) p ∧
    ∃ m ∈ s.published[p]?, ∃ c ∈ s.calls[n]?, ∃ r ∈ c.response,
      ∃ g ∈ s.grants.take m.grants, g.leaseId = r.leaseId
  | _ => False

instance (k : κ) (n : ℕ) (s : System κ ι) (e : Event κ ι) : Decidable (s.Informs k n e) := by
  cases e <;> dsimp only [Informs] <;> infer_instance

/-- The logs grow, and a process keeps its position or reads a later message. -/
structure Reads (s s' : System κ ι) (k : κ) : Prop where
  grants : s.grants <+: s'.grants
  published : s.published <+: s'.published
  position : s'.position k = s.position k ∨ ∃ p m, Feed.CanRead s.published (s.position k) p ∧
    s.published[p]? = some m ∧ s'.position k = some p

theorem Reads.of_grows (hg : s.grants <+: s'.grants) (hp : s.published <+: s'.published)
    (hk : s'.position = s.position) : Reads s s' k :=
  ⟨hg, hp, Or.inl (by rw [hk])⟩

theorem Reads.of_same (hg : s'.grants = s.grants) (hp : s'.published = s.published)
    (hk : s'.position = s.position) : Reads s s' k :=
  Reads.of_grows (by rw [hg]) (by rw [hp]) hk

theorem reads_step (s : System κ ι) (e : Event κ ι) (k : κ) : Reads s (s.step e) k := by
  cases e with
  | request j i =>
    change Reads s (s.request j i) k
    rcases request_cases s j i with hs | ⟨r, hs⟩
    · rw [hs]
      exact Reads.of_same rfl rfl rfl
    · rw [hs]
      exact Reads.of_same rfl rfl rfl
  | serve n =>
    change Reads s (s.serve n) k
    rcases serve_cases s n with hs | ⟨c, -, -, ⟨message, hs⟩ | ⟨-, hs⟩⟩
    · rw [hs]
      exact Reads.of_same rfl rfl rfl
    · rw [hs]
      exact Reads.of_same rfl rfl rfl
    · rw [hs]
      exact Reads.of_grows (List.prefix_append _ _) (List.prefix_refl _) rfl
  | answer n =>
    change Reads s (s.answer n) k
    rcases answer_cases s n with hs | ⟨c, i, r, -, -, -, -, hs⟩
    · rw [hs]
      exact Reads.of_same rfl rfl rfl
    · rw [hs]
      exact Reads.of_same rfl rfl rfl
  | serveRelease n =>
    change Reads s (s.serveRelease n) k
    unfold serveRelease
    split <;> exact Reads.of_same rfl rfl rfl
  | publish => exact Reads.of_grows (List.prefix_refl _) (List.prefix_append _ _) rfl
  | deliver j n =>
    change Reads s (s.deliver j n) k
    unfold deliver
    split
    · exact Reads.of_same rfl rfl rfl
    next m hm =>
      split
      next hread =>
        refine ⟨List.prefix_refl _, List.prefix_refl _, ?_⟩
        by_cases hj : k = j
        · subst hj
          exact Or.inr ⟨n, m, hread, hm, Function.update_self _ _ _⟩
        · exact Or.inl (Function.update_of_ne hj _ _)
      · exact Reads.of_same rfl rfl rfl
  | process j l =>
    rcases process_cases s j l with hs | ⟨-, -, hs⟩
    · rw [hs]
      exact Reads.of_same rfl rfl rfl
    · rw [hs]
      exact Reads.of_same rfl rfl rfl
  | leave n =>
    change Reads s (s.leave n) k
    rcases leave_cases s n with hs | ⟨p, -, hs⟩
    · rw [hs]
      exact Reads.of_same rfl rfl rfl
    · rw [hs]
      exact Reads.of_same rfl rfl rfl
  | _ => exact Reads.of_same rfl rfl rfl

theorem Informed.step (h : s.Informed k leaseId) (hinv : s.Inv) (e : Event κ ι) :
    (s.step e).Informed k leaseId := by
  obtain ⟨p, m, g, hp, hm, hg, hid⟩ := h
  have hreads := reads_step s e k
  rcases hreads.position with hsame | ⟨p', m', hread, hm', hp'⟩
  · exact ⟨p, m, g, hsame.trans hp, Feed.held_of_prefix hreads.published hm,
      (hreads.grants.take m.grants).subset hg, hid⟩
  · have hle := hinv.granted.rising_le hm hm' (Nat.le_of_lt (hread.2 p hp))
    have hlater : g ∈ s.grants.take m'.grants := (List.take_prefix_take_left hle).subset hg
    exact ⟨p', m', g, hp', Feed.held_of_prefix hreads.published hm',
      (hreads.grants.take m'.grants).subset hlater, hid⟩

theorem Claimed.informed (h : s.Claimed k i n c) {e : Event κ ι} (he : s.Informs k n e)
    {r : ClaimResponse} (hr : c.response = some r) : (s.step e).Informed k r.leaseId := by
  cases e with
  | deliver j p =>
    obtain ⟨rfl, hread, m, hm, d, hd, r', hr', g, hg, hid⟩ := he
    rw [h.place] at hd
    cases hd
    rw [hr] at hr'
    cases hr'
    have hm' : s.published[p]? = some m := hm
    refine ⟨p, m, g, ?_, ?_, ?_, hid⟩
    · change (s.deliver j p).position j = some p
      simp [deliver, hm', hread]
    · change (s.deliver j p).published[p]? = some m
      simp [deliver, hm', hread]
    · change g ∈ (s.deliver j p).grants.take m.grants
      simpa [deliver, hm', hread] using hg
  | _ => exact he.elim

/-! ## The end of a takeover -/

/-- The session is entered, its parts are allocated to its lease, and it is active as long as the
last status message has not expired. -/
structure TakenOver (s : System κ ι) (k : κ) (i : ι) : Prop where
  entered : ((s.world k).session i).entered = true
  owns : ∀ part ∈ ((s.world k).session i).config.parts,
    ((s.world k).session i).owns part s.manager.allocations = true
  active : (s.world k).selection.statusFresh (s.world k).now = true →
    (s.world k).active i = true

theorem Claimed.takenOver (h : s.Claimed k i n c) (hinv : s.Inv) (ht : c.taken = true)
    {r : ClaimResponse} (hr : c.response = some r) (hinformed : s.Informed k r.leaseId) :
    s.TakenOver k i := by
  obtain ⟨hentered, hlease⟩ := h.entered ht r hr
  obtain ⟨-, hmanager, j, g, hj, hgid, -, hshows⟩ := h.granted r hr
  have howns : ∀ {allocations : Dict String Allocation},
      Shows (askedParts c.request) r.leaseId allocations →
      ∀ part ∈ ((s.world k).session i).config.parts,
        ((s.world k).session i).owns part allocations = true := by
    intro allocations hall part hpart
    obtain ⟨a, ha, howned, hid⟩ := hall part (claimRequest_parts h.asked hpart)
    exact Session.owns_iff.mpr ⟨a, ha, howned, by rw [hlease, hid]⟩
  refine ⟨hentered, howns hmanager, fun hfresh => ?_⟩
  have htruthy : truthy ((s.world k).session i).leaseId = true := by
    refine truthy_iff.mpr ⟨r.leaseId, hlease, ?_⟩
    rw [← hgid, hinv.granted.numbered j g hj]
    exact leaseName_ne_empty _
  obtain ⟨p, m, g', hp, hm, hg', hid⟩ := hinformed
  have hfilled : (s.world k).selection.lastStatusMonotonic ≠ none := by
    intro hnone
    simp [ExecutionManagerClient.statusFresh, hnone] at hfresh
  obtain ⟨p', m', hp', hm', hcache⟩ := hinv.cached k hfilled
  rw [hp] at hp'
  cases hp'
  rw [hm] at hm'
  cases hm'
  -- the lease was granted before the message, so the message shows it
  have hbefore : j < m.grants := by
    obtain ⟨q, hq⟩ := List.getElem?_of_mem hg'
    have hlt := (List.getElem?_eq_some_iff.mp hq).1
    have hplace : q = j := hinv.granted.numbered.place
      (Feed.held_of_prefix (List.take_prefix _ _) hq) hj (hid.trans hgid.symm)
    rw [List.length_take] at hlt
    omega
  have hall : (s.world k).allocations = m.status.allocations := by
    unfold World.allocations ExecutionManagerClient.getAllocations
    rw [if_pos hfresh, hcache]
  simp only [World.active, hall, hentered, htruthy, Bool.true_and, List.all_eq_true]
  exact howns (hshows m (List.mem_of_getElem? hm) hbefore)

/-! ## The stages of a takeover -/

/-- Call `n` is an entry of the session, and has come as far as `Q` says. -/
def Reached (k : κ) (i : ι) (n : ℕ) (Q : System κ ι → Call κ ι → Prop) (s : System κ ι) : Prop :=
  s.Inv ∧ ∃ c, s.Claimed k i n c ∧ Q s c

theorem Reached.step {Q Q' : System κ ι → Call κ ι → Prop} {e : Event κ ι}
    (h : s.Reached k i n Q) (hu : s.Undisturbed k i n e)
    (hQ : ∀ c c', s.Inv → s.Claimed k i n c → Q s c → Advances n e c c' → Q' (s.step e) c') :
    (s.step e).Reached k i n Q' := by
  obtain ⟨hinv, c, hc, hq⟩ := h
  obtain ⟨c', hc', hadvances⟩ := hc.step hinv e hu
  exact ⟨inv_step s e hinv, c', hc', hQ c c' hinv hc hq hadvances⟩

/-- A request is served, its call returns, and a message tells the process. -/
theorem takeover_stages (k : κ) (i : ι) (n : ℕ) :
    Trace.Stages step (Undisturbed k i n) (Reached k i n fun _ _ => True)
      [fun _ e => Serves n e, fun _ e => Answers n e, Informs k n]
      (Reached k i n fun s c => c.taken = true ∧
        ∀ r, c.response = some r → s.Informed k r.leaseId) := by
  refine .next (Q := Reached k i n fun _ c => c.response ≠ none)
    (fun s e h hu => h.step hu fun c c' _ _ _ _ => trivial)
    (fun s e h hu hserves => h.step hu fun c c' _ _ _ ha => ha.serves hserves) ?_
  refine .next (Q := Reached k i n fun _ c => c.taken = true)
    (fun s e h hu => h.step hu fun c c' _ _ hq ha => by rw [ha.response hq]; exact hq)
    (fun s e h hu hanswers => h.step hu fun c c' _ _ hq ha => ha.answers hanswers hq) ?_
  refine .next (fun s e h hu => h.step hu fun c c' _ _ hq ha => ha.taken hq)
    (fun s e h hu hinforms => h.step hu fun c c' hinv hc hq ha => ?_)
    (.last fun s e h hu => h.step hu fun c c' hinv hc hq ha => ?_)
  · refine ⟨ha.taken hq, fun r hr => ?_⟩
    rw [ha.response (hc.served hq)] at hr
    exact hc.informed hinforms hr
  · refine ⟨ha.taken hq.1, fun r hr => ?_⟩
    rw [ha.response (hc.served hq.1)] at hr
    exact (hq.2 r hr).step hinv e

theorem claimed_request (hn : ((s.world k).session i).entered = false) {r : ClaimRequest}
    (hr : claimRequest ((s.world k).session i) = .ok r) :
    (s.request k i).Claimed k i s.calls.length ⟨k, some i, r, none, false⟩ := by
  have hask : s.request k i = s.ask k (some i) r := by simp [System.request, hn, hr]
  rw [hask]
  exact ⟨List.getElem?_concat_length, rfl, rfl, hr, fun _ => hn, fun ht => (by cases ht),
    fun _ hno => (by cases hno), fun ht => (by cases ht)⟩

/-- **A takeover completes.** From every state a run can reach, a session that asks for its parts is
active once its request is served, the call has returned and a status message published after the
grant has arrived, in whatever order other sessions, processes and clients act in between, as long
as they leave the session and its parts alone. -/
theorem takeover_completes (roleCode : SourceRole → ℕ) (now : κ → ℚ) (timeouts : κ → Timeouts)
    (config : κ → ι → SessionConfig) (sourceClient : κ → ι → ActionProviderClient)
    (es : List (Event κ ι)) (k : κ) (i : ι) (r : ClaimRequest) :
    let s := Trace.run step (init roleCode now timeouts config sourceClient) es
    ((s.world k).session i).entered = false → claimRequest ((s.world k).session i) = .ok r →
    ∀ es', Trace.Follows step (Undisturbed k i s.calls.length) (s.request k i) es' →
      Trace.Passes step
        [fun _ e => Serves s.calls.length e, fun _ e => Answers s.calls.length e,
          Informs k s.calls.length] (s.request k i) es' →
      (Trace.run step (s.request k i) es').TakenOver k i := by
  intro s hn hr es' hundisturbed hpasses
  have hinv : s.Inv := inv_run (inv_init roleCode now timeouts config sourceClient) es
  have hstart : (s.request k i).Reached k i s.calls.length fun _ _ => True :=
    ⟨inv_request hinv k i, _, claimed_request hn hr, trivial⟩
  obtain ⟨hend, c, hc, htaken, hinformed⟩ :=
    (takeover_stages k i s.calls.length).reached hstart hundisturbed hpasses
  cases hresponse : c.response with
  | none => exact absurd hresponse (hc.served htaken)
  | some response => exact hc.takenOver hend htaken hresponse (hinformed response hresponse)

/-- The first process of the arm executes a plan when it is faulted. -/
def armFaulted : List (Event Bool Unit) :=
  [.request false (), .serve 0, .answer 0, .publish, .deliver false 0, armConfirm false, armExecute,
    .fault "arm"]

/-- The first process asks again, without `preempt`, and is refused. -/
def armTakeover : List (Event Bool Unit) :=
  [.serve 1, .tick 1, .claim false ⟨.teleop, "teleop", false, [], [("arm", "joint_trajectory")]⟩,
    .answer 1, .serve 2, .leave 0, armExecute, .publish, .deliver true 1, armConfirm true]

theorem takeover_completes_arm : (Trace.run step
    ((Trace.run step armSystem armFaulted).request true ()) armTakeover).TakenOver true () := by
  have hcall : 1 = (Trace.run step armSystem armFaulted).calls.length := by decide +kernel
  refine takeover_completes _ _ _ _ _ armFaulted true () _ (by decide +kernel) rfl armTakeover
    (by decide +kernel) ?_
  refine Or.inl ⟨hcall, Or.inr (Or.inr (Or.inl ⟨hcall, ?_⟩))⟩
  exact Or.inr (Or.inr (Or.inr (Or.inr (Or.inl ⟨by decide +kernel, trivial⟩))))

end System
end PhysicalAiRuntime.Fleet
