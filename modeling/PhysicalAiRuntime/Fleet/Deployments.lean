import PhysicalAiRuntime.Control.Displacement
import PhysicalAiRuntime.Fleet.Writers

/-! Each process of the system is a `Deployment`: what is assumed there of the manager, that it
gives no lease twice and no part back to a lease that lost it, is so for the leases it grants to all
processes and the status messages it publishes to them. -/
namespace PhysicalAiRuntime.Fleet
open Authority Provider Control
open Recovery (ExecutionManager leaseName leaseName_injective)
set_option autoImplicit false
set_option maxHeartbeats 250000
set_option linter.unusedSectionVars false

variable {κ ι : Type} [DecidableEq κ] [DecidableEq ι]

/-! ## No part comes back -/

theorem NamesLatest.attributed {grants : List (Grant κ ι)} {m : AuthorityStatus} {part : String}
    {leaseId : String} (h : NamesLatest grants m.allocations)
    (hattr : attributed part m = some leaseId) :
    ∃ g, holder part grants = some g ∧ g.leaseId = leaseId := by
  unfold Control.attributed at hattr
  cases ha : m.allocations.get? part with
  | none =>
    rw [ha] at hattr
    cases hattr
  | some a =>
    rw [ha] at hattr
    by_cases hempty : a.leaseId = ""
    · simp [hempty] at hattr
    · have hid : a.leaseId = leaseId := by simpa [hempty] using hattr
      rcases h part a ha with hno | ⟨g, hg, hgid⟩
      · exact absurd hno hempty
      · exact ⟨g, hg, hgid.trans hid⟩

namespace System

/-- What the status messages show to be given up, the manager does not allocate again. -/
theorem Granted.not_back {s : System κ ι} (h : s.Granted) {part leaseId : String}
    (hup : Feed.GivenUp (attributed part) (s.published.map Snapshot.status) leaseId) :
    attributed part s.manager.status ≠ some leaseId := by
  obtain ⟨a, b, x, y, u, hab, hx, hy, hxa, hyu, hne⟩ := hup
  rw [List.getElem?_map, Option.map_eq_some_iff] at hx hy
  obtain ⟨m, hm, rfl⟩ := hx
  obtain ⟨m', hm', rfl⟩ := hy
  intro hnow
  obtain ⟨g, hg, hgid⟩ := (h.snapshot m (List.mem_of_getElem? hm)).attributed hxa
  obtain ⟨g', hg', hgid'⟩ := (h.snapshot m' (List.mem_of_getElem? hm')).attributed hyu
  have hmanager : NamesLatest s.grants s.manager.status.allocations := by
    intro part' al hal
    rw [ExecutionManager.get?_status] at hal
    exact h.manager part' al hal
  obtain ⟨g'', hg'', hgid''⟩ := hmanager.attributed hnow
  -- the numbers of the three leases rise, and the first is the third
  obtain ⟨i, j, hij, hi, hj⟩ := h.numbered.holder_le
    (List.take_prefix_take_left (h.rising_le hm hm' (Nat.le_of_lt hab))) (List.take_prefix _ _)
    hg hg'
  obtain ⟨j', k, hjk, hj', hk⟩ := h.numbered.holder_le (List.take_prefix _ _)
    (List.prefix_refl _) hg' hg''
  have hjj : j = j' := leaseName_injective (hj.symm.trans hj')
  have hik : i = k := leaseName_injective (hi.symm.trans (hgid.trans (hgid''.symm.trans hk)))
  have hij' : i = j := by omega
  exact hne (by rw [← hgid, ← hgid', hi, hj, hij'])

/-! ## No lease is given twice -/

def leaseOf (c : Call κ ι) : Option String :=
  c.response.bind fun r => if r.success then some r.leaseId else none

/-- Two calls have two leases. -/
def Distinct (s : System κ ι) : Prop :=
  ∀ (n m : ℕ) (c d : Call κ ι) (leaseId : String), s.calls[n]? = some c → s.calls[m]? = some d →
    leaseOf c = some leaseId → leaseOf d = some leaseId → n = m

theorem leaseOf_some {c : Call κ ι} {leaseId : String} (h : leaseOf c = some leaseId) :
    ∃ r, c.response = some r ∧ r.success = true ∧ r.leaseId = leaseId := by
  obtain ⟨r, hr, hs⟩ := Option.bind_eq_some_iff.mp h
  cases hsuccess : r.success with
  | false => simp [hsuccess] at hs
  | true => exact ⟨r, hr, hsuccess, by simpa [hsuccess] using hs⟩

/-- A call of the new list has the lease of the call at its place, or it has a new lease. -/
theorem Distinct.change {s s' : System κ ι} (h : s.Distinct) (n : ℕ) (new : Option String)
    (hcalls : ∀ m d leaseId, s'.calls[m]? = some d → leaseOf d = some leaseId →
      (∃ c, s.calls[m]? = some c ∧ leaseOf c = some leaseId) ∨ (m = n ∧ new = some leaseId))
    (hnew : ∀ leaseId, new = some leaseId →
      ∀ c ∈ s.calls, leaseOf c ≠ some leaseId) : s'.Distinct := by
  intro m p c d leaseId hm hp hc hd
  rcases hcalls m c leaseId hm hc with ⟨c', hm', hc'⟩ | ⟨rfl, hfresh⟩
  · rcases hcalls p d leaseId hp hd with ⟨d', hp', hd'⟩ | ⟨-, hfresh⟩
    · exact h m p c' d' leaseId hm' hp' hc' hd'
    · exact absurd hc' (hnew leaseId hfresh c' (List.mem_of_getElem? hm'))
  · rcases hcalls p d leaseId hp hd with ⟨d', hp', hd'⟩ | ⟨rfl, -⟩
    · exact absurd hd' (hnew leaseId hfresh d' (List.mem_of_getElem? hp'))
    · rfl

theorem Distinct.of_same {s s' : System κ ι} (h : s.Distinct) (hc : s'.calls = s.calls) :
    s'.Distinct := by
  unfold Distinct
  rw [hc]
  exact h

theorem Distinct.set {s : System κ ι} (h : s.Distinct) {n : ℕ} {c : Call κ ι} (c' : Call κ ι)
    (hn : s.calls[n]? = some c)
    (hnew : leaseOf c' = leaseOf c ∨ ∀ leaseId, leaseOf c' = some leaseId →
      ∀ d ∈ s.calls, leaseOf d ≠ some leaseId) {s' : System κ ι}
    (hs : s'.calls = s.calls.set n c') : s'.Distinct := by
  have hplace : ∀ m d, s'.calls[m]? = some d → s.calls[m]? = some d ∨ (m = n ∧ d = c') := by
    intro m d hm
    rw [hs] at hm
    by_cases hmn : n = m
    · subst hmn
      rw [List.getElem?_set_self (List.getElem?_eq_some_iff.mp hn).1] at hm
      exact Or.inr ⟨rfl, (Option.some.inj hm).symm⟩
    · rw [List.getElem?_set_ne hmn] at hm
      exact Or.inl hm
  rcases hnew with hsame | hfresh
  · refine h.change n none (fun m d leaseId hm hd => Or.inl ?_) fun _ hno => (by cases hno)
    rcases hplace m d hm with hold | ⟨rfl, rfl⟩
    · exact ⟨d, hold, hd⟩
    · exact ⟨c, hn, hsame ▸ hd⟩
  · refine h.change n (leaseOf c') (fun m d leaseId hm hd => ?_) hfresh
    rcases hplace m d hm with hold | ⟨rfl, rfl⟩
    · exact Or.inl ⟨d, hold, hd⟩
    · exact Or.inr ⟨rfl, hd⟩

/-- The next lease is in no call. -/
theorem Inv.next_fresh {s : System κ ι} (h : s.Inv) {c : Call κ ι} (hc : c ∈ s.calls) :
    leaseOf c ≠ some (leaseName (s.manager.counter + 1)) := by
  intro hlease
  obtain ⟨r, hr, hsuccess, hid⟩ := leaseOf_some hlease
  obtain ⟨g, hg, -, -, hgid⟩ := h.answered c hc r hr hsuccess
  obtain ⟨n, hn⟩ := List.getElem?_of_mem hg
  have hname := h.granted.numbered n g hn
  rw [hgid, hid] at hname
  have heq := leaseName_injective hname
  have hlt := (List.getElem?_eq_some_iff.mp hn).1
  rw [h.granted.counter] at heq
  omega

theorem distinct_serve {s : System κ ι} (h : s.Inv) (hd : s.Distinct) (n : ℕ) :
    (s.serve n).Distinct := by
  rcases serve_cases s n with hs | ⟨c, hn, hnone, ⟨message, hs⟩ | ⟨-, hs⟩⟩
  · rw [hs]
    exact hd
  · rw [hs]
    refine hd.set _ hn (Or.inl ?_) rfl
    simp [leaseOf, hnone, ExecutionManager.refusal]
  · rw [hs]
    refine hd.set _ hn (Or.inr fun leaseId hl d hmem => ?_) rfl
    have hname : leaseName (s.manager.counter + 1) = leaseId := by
      simpa [leaseOf, ExecutionManager.grantResponse] using hl
    rw [← hname]
    exact h.next_fresh hmem

theorem distinct_ask {s : System κ ι} (hd : s.Distinct) (k : κ) (i : Option ι)
    (r : ClaimRequest) : (s.ask k i r).Distinct := by
  refine hd.change 0 none (fun m d leaseId hm hlease => Or.inl ?_) fun _ hno => (by cases hno)
  rcases Feed.getElem?_concat_cases hm with hold | ⟨-, rfl⟩
  · exact ⟨d, hold, hlease⟩
  · cases hlease

theorem distinct_request {s : System κ ι} (hd : s.Distinct) (k : κ) (i : ι) :
    (s.request k i).Distinct := by
  rcases request_cases s k i with hs | ⟨r, hs⟩
  · rw [hs]
    exact hd
  · rw [hs]
    exact distinct_ask hd k (some i) r

theorem distinct_step (s : System κ ι) (e : Event κ ι) (h : s.Inv ∧ s.Distinct) :
    (s.step e).Inv ∧ (s.step e).Distinct := by
  obtain ⟨hinv, hd⟩ := h
  refine ⟨inv_step s e hinv, ?_⟩
  cases e with
  | request k i => exact distinct_request hd k i
  | claim k r => exact distinct_ask hd k none r
  | release leaseId => exact hd.of_same rfl
  | serve n => exact distinct_serve hinv hd n
  | answer n =>
    change (s.answer n).Distinct
    rcases answer_cases s n with hs | ⟨c, i, r, hn, -, -, -, hs⟩
    · rw [hs]
      exact hd
    · rw [hs]
      exact hd.set { c with taken := true } hn (Or.inl rfl) rfl
  | serveRelease n =>
    change (s.serveRelease n).Distinct
    unfold serveRelease
    split
    · exact hd
    · exact hd.of_same rfl
  | fault resource => exact hd.of_same rfl
  | publish => exact hd.of_same rfl
  | deliver k n =>
    change (s.deliver k n).Distinct
    unfold deliver
    split
    · exact hd
    · split
      · exact hd.of_same rfl
      · exact hd
  | process k l =>
    rcases process_cases s k l with hs | ⟨-, -, hs⟩
    · rw [hs]
      exact hd
    · rw [hs]
      exact hd.of_same rfl
  | leave n =>
    change (s.leave n).Distinct
    rcases leave_cases s n with hs | ⟨p, -, hs⟩
    · rw [hs]
      exact hd
    · rw [hs]
      exact hd.of_same rfl
  | tick elapsed => exact hd.of_same rfl

/-! ## The view of a process -/

structure View (s : System κ ι) (k : κ) (d : Deployment ι) : Prop where
  world : d.world = s.world k
  snapshots : d.snapshots = s.published.map Snapshot.status
  delivered : d.delivered = s.position k
  leases : ∀ leaseId ∈ d.leases, ∃ i, s.Took k i leaseId

theorem View.grows {s s' : System κ ι} {k : κ} {d : Deployment ι} (h : s.View k d)
    (hs : Grows s s') (hw : s'.world k = s.world k) (hp : s'.published = s.published)
    (hposition : s'.position k = s.position k) : s'.View k d where
  world := h.world.trans hw.symm
  snapshots := by rw [h.snapshots, hp]
  delivered := h.delivered.trans hposition.symm
  leases leaseId hl := by
    obtain ⟨i, hi⟩ := h.leases leaseId hl
    exact ⟨i, hs.took k i leaseId hi⟩

theorem View.act {s : System κ ι} {k : κ} {d : Deployment ι} (h : s.View k d) {l : Label ι}
    (ht : ∀ leaseId ∈ Deployment.grantedLease l, ∃ i, s.Took k i leaseId) :
    (s.act k l).View k (d.step (.process l)) where
  world := by
    change d.world.step l = Function.update s.world k ((s.world k).step l) k
    rw [Function.update_self, h.world]
  snapshots := h.snapshots
  delivered := h.delivered
  leases leaseId hl := by
    rcases List.mem_append.mp hl with hold | hnew
    · exact h.leases leaseId hold
    · exact ht leaseId hnew

theorem View.actElsewhere {s : System κ ι} {k j : κ} {d : Deployment ι} (h : s.View k d)
    (hj : j ≠ k) (l : Label ι) : (s.act j l).View k d :=
  h.grows (Grows.of_same rfl rfl rfl) (Function.update_of_ne hj.symm _ _) rfl rfl

theorem own_assumed (d : Deployment ι) {l : Label ι} (hl : own l = true) :
    d.Assumed (.process l) ∧ Deployment.grantedLease l = [] := by
  cases l with
  | callback c =>
    cases c with
    | status m => cases hl
    | event e => exact ⟨fun _ h => (by cases h), rfl⟩
    | advance e => cases hl
  | enter i answer =>
    cases answer with
    | response r => cases hl
    | unavailable => exact ⟨fun _ h => (by cases h), rfl⟩
    | timedOut => exact ⟨fun _ h => (by cases h), rfl⟩
    | raised e => exact ⟨fun _ h => (by cases h), rfl⟩
    | empty => exact ⟨fun _ h => (by cases h), rfl⟩
  | poll i answer => exact ⟨fun _ h => (by cases h), rfl⟩
  | exit i bodyRaised answer => exact ⟨fun _ h => (by cases h), rfl⟩
  | act i action observation now => exact ⟨fun _ h => (by cases h), rfl⟩
  | execute i part plan observation now answer => exact ⟨fun _ h => (by cases h), rfl⟩
  | waitPlan i part answer => exact ⟨fun _ h => (by cases h), rfl⟩
  | cancelPlan i part answer => exact ⟨fun _ h => (by cases h), rfl⟩

/-- The deployment follows the system with these events. -/
def Tracks (s' : System κ ι) (k : κ) (d : Deployment ι) : Prop :=
  ∃ ds, Trace.Follows Deployment.step Deployment.Assumed d ds ∧
    s'.View k (Trace.run Deployment.step d ds)

theorem View.tracks {s' : System κ ι} {k : κ} {d : Deployment ι} (h : s'.View k d) :
    s'.Tracks k d := ⟨[], trivial, h⟩

theorem View.stays {s s' : System κ ι} {k : κ} {d : Deployment ι} (h : s.View k d)
    (hs : Grows s s') (hw : s'.world k = s.world k) (hp : s'.published = s.published)
    (hposition : s'.position k = s.position k) : s'.Tracks k d :=
  (h.grows hs hw hp hposition).tracks

theorem View.one {s' : System κ ι} {k : κ} {d : Deployment ι} (e : Deployment.Event ι)
    (he : d.Assumed e) (h : s'.View k (d.step e)) : s'.Tracks k d := ⟨[e], ⟨he, trivial⟩, h⟩

theorem tracks_publish {s : System κ ι} (h : s.Granted) {k : κ} {d : Deployment ι}
    (hv : s.View k d) : s.publish.Tracks k d := by
  refine View.one (.manager s.manager.status) (fun part leaseId hup => ?_) ?_
  · rw [hv.snapshots] at hup
    exact h.not_back hup
  · refine ⟨hv.world, ?_, hv.delivered, hv.leases⟩
    change d.snapshots ++ [s.manager.status] = (s.published ++ [_]).map Snapshot.status
    rw [hv.snapshots, List.map_append]
    rfl

theorem tracks_deliver {s : System κ ι} {k : κ} {d : Deployment ι} (hv : s.View k d) (j : κ)
    (n : ℕ) : (s.deliver j n).Tracks k d := by
  unfold deliver
  cases hn : s.published[n]? with
  | none => exact hv.tracks
  | some m =>
    by_cases hread : Feed.CanRead s.published (s.position j) n
    · simp only [hread, if_true]
      by_cases hj : j = k
      · subst hj
        have hn' : d.snapshots[n]? = some m.status := by
          rw [hv.snapshots, List.getElem?_map, hn]
          rfl
        refine View.one (.deliver n) ⟨(List.getElem?_eq_some_iff.mp hn').1, ?_⟩ ?_
        · rw [hv.delivered]
          exact hread.2
        · rw [Deployment.step_deliver hn']
          exact ⟨by simp [hv.world], hv.snapshots, by simp, hv.leases⟩
      · exact hv.stays (Grows.of_same rfl rfl rfl) (Function.update_of_ne (Ne.symm hj) _ _) rfl
          (Function.update_of_ne (Ne.symm hj) _ _)
    · simp only [hread, if_false]
      exact hv.tracks

theorem tracks_own {s : System κ ι} {k : κ} {d : Deployment ι} (hv : s.View k d) (j : κ)
    {l : Label ι} (hl : own l = true) : (s.act j l).Tracks k d := by
  by_cases hj : j = k
  · subst hj
    obtain ⟨hassumed, hnone⟩ := own_assumed d hl
    refine View.one (.process l) hassumed (hv.act fun leaseId hmem => ?_)
    rw [hnone] at hmem
    cases hmem
  · exact (hv.actElsewhere hj l).tracks

theorem mem_grantedLease {i : ι} {r : ClaimResponse} {leaseId : String}
    (h : leaseId ∈ Deployment.grantedLease (.enter i (.response r) : Label ι)) :
    r.success = true ∧ r.leaseId = leaseId := by
  change leaseId ∈ (if r.success then [r.leaseId] else []) at h
  cases hsuccess : r.success with
  | false =>
    rw [hsuccess, if_neg Bool.false_ne_true] at h
    cases h
  | true =>
    rw [hsuccess, if_pos rfl, List.mem_singleton] at h
    exact ⟨rfl, h.symm⟩

/-- The response of a call that was not returned yet has a lease that no session took. -/
theorem Distinct.not_taken {s : System κ ι} (hd : s.Distinct) {k : κ} {d : Deployment ι}
    (hv : s.View k d) {n : ℕ} {c : Call κ ι} {r : ClaimResponse} (hn : s.calls[n]? = some c)
    (hr : c.response = some r) (ht : c.taken = false) (hsuccess : r.success = true) :
    r.leaseId ∉ d.leases := by
  intro hold
  obtain ⟨i, m, c', r', hm, ht', -, -, hr', hs', hid⟩ := hv.leases r.leaseId hold
  have hmn := hd m n c' c r.leaseId hm hn (by simp [leaseOf, hr', hs', hid])
    (by simp [leaseOf, hr, hsuccess])
  rw [hmn, hn] at hm
  cases hm
  rw [ht] at ht'
  cases ht'

theorem tracks_answer {s : System κ ι} (hd : s.Distinct) {k : κ} {d : Deployment ι}
    (hv : s.View k d) (n : ℕ) : (s.answer n).Tracks k d := by
  rcases answer_cases s n with hs | ⟨c, i, r, hn, hi, hr, ht, hs⟩
  · rw [hs]
    exact hv.tracks
  · rw [hs]
    have hview := hv.grows (taken_grows hn ht) rfl rfl rfl
    by_cases hk : c.process = k
    · subst hk
      refine View.one (.process (.enter i (.response r))) (fun leaseId hl => ?_)
        (hview.act fun leaseId hl => ?_)
      · obtain ⟨hsuccess, rfl⟩ := mem_grantedLease hl
        exact hd.not_taken hv hn hr ht hsuccess
      · obtain ⟨hsuccess, rfl⟩ := mem_grantedLease hl
        have hlt := (List.getElem?_eq_some_iff.mp hn).1
        exact ⟨i, n, { c with taken := true }, r, List.getElem?_set_self hlt, rfl, rfl, hi, hr,
          hsuccess, rfl⟩
    · exact (hview.actElsewhere hk _).tracks

theorem tracks_tick {s : System κ ι} {k : κ} {d : Deployment ι} (hv : s.View k d)
    (elapsed : ℚ≥0) : (s.step (.tick elapsed)).Tracks k d := by
  refine View.one (.process (.callback (.advance elapsed))) (fun _ h => (by cases h)) ?_
  refine ⟨?_, hv.snapshots, hv.delivered, fun leaseId hl => ?_⟩
  · change d.world.callback (.advance elapsed) = (s.world k).callback (.advance elapsed)
    rw [hv.world]
  · exact hv.leases leaseId (by simpa [Deployment.step, Deployment.grantedLease] using hl)

theorem tracks_step {s : System κ ι} (h : s.Inv) (hd : s.Distinct) {k : κ} {d : Deployment ι}
    (hv : s.View k d) (e : Event κ ι) : (s.step e).Tracks k d := by
  cases e with
  | request j i =>
    change (s.request j i).Tracks k d
    rcases request_cases s j i with hs | ⟨r, hs⟩
    · rw [hs]
      exact hv.tracks
    · rw [hs]
      exact hv.stays (ask_grows s j (some i) r) rfl rfl rfl
  | claim j r => exact hv.stays (ask_grows s j none r) rfl rfl rfl
  | release leaseId => exact hv.stays (Grows.of_same rfl rfl rfl) rfl rfl rfl
  | serve n =>
    have hgrows := serve_grows s n
    change (s.serve n).Tracks k d
    rcases serve_cases s n with hs | ⟨c, -, -, ⟨message, hs⟩ | ⟨-, hs⟩⟩
    · rw [hs]
      exact hv.tracks
    · rw [hs] at hgrows ⊢
      exact hv.stays hgrows rfl rfl rfl
    · rw [hs] at hgrows ⊢
      exact hv.stays hgrows rfl rfl rfl
  | answer n => exact tracks_answer hd hv n
  | serveRelease n =>
    change (s.serveRelease n).Tracks k d
    unfold serveRelease
    split
    · exact hv.tracks
    · exact hv.stays (Grows.of_same rfl rfl rfl) rfl rfl rfl
  | fault resource => exact hv.stays (Grows.of_same rfl rfl rfl) rfl rfl rfl
  | publish => exact tracks_publish h.granted hv
  | deliver j n => exact tracks_deliver hv j n
  | process j l =>
    rcases process_cases s j l with hs | ⟨hl, -, hs⟩
    · rw [hs]
      exact hv.tracks
    · rw [hs]
      exact tracks_own hv j hl
  | leave n =>
    change (s.leave n).Tracks k d
    rcases leave_cases s n with hs | ⟨p, -, hs⟩
    · rw [hs]
      exact hv.tracks
    · rw [hs]
      exact hv.stays (Grows.of_same rfl rfl rfl) rfl rfl rfl
  | tick elapsed => exact tracks_tick hv elapsed

/-- **A process of the system is a deployment.** In every run of any number of processes over the
Execution Manager, each process has the state of a run of a `Deployment` that meets all that is
assumed there of its manager, with the status messages and the position of the system. -/
theorem process_is_deployment (roleCode : SourceRole → ℕ) (now : κ → ℚ) (timeouts : κ → Timeouts)
    (config : κ → ι → SessionConfig) (sourceClient : κ → ι → ActionProviderClient)
    (es : List (Event κ ι)) (k : κ) :
    let s := Trace.run step (init roleCode now timeouts config sourceClient) es
    let start := Deployment.init (now k) (timeouts k) (config k) (sourceClient k)
    ∃ ds, Trace.Follows Deployment.step Deployment.Assumed start ds ∧
      (Trace.run Deployment.step start ds).world = s.world k ∧
      (Trace.run Deployment.step start ds).snapshots = s.published.map Snapshot.status ∧
      (Trace.run Deployment.step start ds).delivered = s.position k := by
  intro s start
  have hstart : (init roleCode now timeouts config sourceClient).View k start :=
    ⟨rfl, rfl, rfl, fun _ h => (by cases h)⟩
  have hdistinct : (init roleCode now timeouts config sourceClient).Distinct := by
    intro n m c d leaseId hn
    simp [init] at hn
  obtain ⟨ds, hds, hview⟩ := Trace.run_simulated (fun s : System κ ι => s.Inv ∧ s.Distinct)
    (fun s d => s.View k d) distinct_step (fun _ _ e h hv => tracks_step h.1 h.2 hv e)
    ⟨inv_init roleCode now timeouts config sourceClient, hdistinct⟩ hstart es
  exact ⟨ds, hds, hview.world, hview.snapshots, hview.delivered⟩

end System
end PhysicalAiRuntime.Fleet
