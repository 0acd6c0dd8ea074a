import PhysicalAiRuntime.Fleet.System

/-! What the allocations of the manager say of the leases it granted: a part is allocated to the
latest grant for it or to nobody, and so it is in every status message, for the grants made before
the message. -/
namespace PhysicalAiRuntime.Fleet
open Authority Provider Control
open Recovery (ExecutionManager leaseName leaseName_injective)
set_option autoImplicit false
set_option maxHeartbeats 250000
set_option linter.unusedSectionVars false

variable {κ ι : Type} [DecidableEq κ] [DecidableEq ι]

/-- The latest grant for a part. -/
def holder (part : String) (grants : List (Grant κ ι)) : Option (Grant κ ι) :=
  Latest.latest (fun g => decide (part ∈ g.parts)) grants

theorem holder_concat (part : String) (grants : List (Grant κ ι)) (g : Grant κ ι) :
    holder part (grants ++ [g]) = if part ∈ g.parts then some g else holder part grants := by
  unfold holder
  rw [Latest.latest_concat]
  by_cases hp : part ∈ g.parts
  · rw [if_pos hp, if_pos (decide_eq_true hp)]
  · rw [if_neg hp, if_neg (by simpa using hp)]

theorem holder_mem {part : String} {grants : List (Grant κ ι)} {g : Grant κ ι}
    (h : holder part grants = some g) : g ∈ grants ∧ part ∈ g.parts := by
  obtain ⟨hmem, hpart⟩ := Latest.latest_mem h
  exact ⟨hmem, of_decide_eq_true hpart⟩

/-- An allocation that names a lease names that of the latest grant for its part. -/
def NamesLatest (grants : List (Grant κ ι)) (allocations : Dict String Allocation) : Prop :=
  ∀ part a, allocations.get? part = some a →
    a.leaseId = "" ∨ ∃ g, holder part grants = some g ∧ g.leaseId = a.leaseId

/-- The ids of the leases are numbered, in the order of the grants. -/
def Numbered (grants : List (Grant κ ι)) : Prop :=
  ∀ (n : ℕ) (g : Grant κ ι), grants[n]? = some g → g.leaseId = leaseName (n + 1)

theorem Numbered.concat {grants : List (Grant κ ι)} (h : Numbered grants) {g : Grant κ ι}
    (hg : g.leaseId = leaseName (grants.length + 1)) : Numbered (grants ++ [g]) := by
  intro n g' hg'
  rcases Feed.getElem?_concat_cases hg' with hold | ⟨rfl, rfl⟩
  · exact h n g' hold
  · exact hg

theorem Numbered.place {grants : List (Grant κ ι)} (h : Numbered grants) {n m : ℕ}
    {g g' : Grant κ ι} (hn : grants[n]? = some g) (hm : grants[m]? = some g')
    (hid : g.leaseId = g'.leaseId) : n = m := by
  rw [h n g hn, h m g' hm] at hid
  have hname := leaseName_injective hid
  omega

theorem Numbered.grant_eq {grants : List (Grant κ ι)} (h : Numbered grants) {g g' : Grant κ ι}
    (hg : g ∈ grants) (hg' : g' ∈ grants) (hid : g.leaseId = g'.leaseId) : g = g' := by
  obtain ⟨n, hn⟩ := List.getElem?_of_mem hg
  obtain ⟨m, hm⟩ := List.getElem?_of_mem hg'
  rw [h.place hn hm hid, hm] at hn
  exact (Option.some.inj hn).symm

/-- The latest grant for a part is not behind the latest one of a longer list. -/
theorem Numbered.holder_le {part : String} {older newer grants : List (Grant κ ι)}
    {g g' : Grant κ ι} (h : Numbered grants) (hold : older <+: newer) (hnew : newer <+: grants)
    (hg : holder part older = some g) (hg' : holder part newer = some g') :
    ∃ n m, n ≤ m ∧ g.leaseId = leaseName n ∧ g'.leaseId = leaseName m := by
  obtain ⟨n, m, hnm, hn, hm⟩ := Latest.latest_moves_on hold hg hg'
  exact ⟨n + 1, m + 1, by omega, h n g (Feed.held_of_prefix hnew hn),
    h m g' (Feed.held_of_prefix hnew hm)⟩

namespace System

/-- The manager, its grants and its status messages. -/
structure Granted (s : System κ ι) : Prop where
  counter : s.manager.counter = s.grants.length
  numbered : Numbered s.grants
  manager : NamesLatest s.grants s.manager.allocations
  count : ∀ m ∈ s.published, m.grants ≤ s.grants.length
  snapshot : ∀ m ∈ s.published, NamesLatest (s.grants.take m.grants) m.status.allocations
  rising : s.published.Pairwise fun m m' => m.grants ≤ m'.grants

theorem granted_init (roleCode : SourceRole → ℕ) (now : κ → ℚ) (timeouts : κ → Timeouts)
    (config : κ → ι → SessionConfig) (sourceClient : κ → ι → ActionProviderClient) :
    (init roleCode now timeouts config sourceClient).Granted where
  counter := rfl
  numbered n g h := by simp [init] at h
  manager part a h := by cases h
  count m h := by cases h
  snapshot m h := by cases h
  rising := List.Pairwise.nil

theorem Granted.of_same {s s' : System κ ι} (h : s.Granted) (hm : s'.manager = s.manager)
    (hg : s'.grants = s.grants) (hp : s'.published = s.published) : s'.Granted := by
  obtain ⟨counter, numbered, manager, count, snapshot, rising⟩ := h
  exact ⟨by rw [hm, hg, counter], by rw [hg]; exact numbered, by rw [hm, hg]; exact manager,
    by rw [hp, hg]; exact count, by rw [hp, hg]; exact snapshot, by rw [hp]; exact rising⟩

/-- The manager may drop allocations and put faults in their place. -/
theorem Granted.of_manager {s s' : System κ ι} (h : s.Granted)
    (hc : s'.manager.counter = s.manager.counter) (hg : s'.grants = s.grants)
    (hp : s'.published = s.published)
    (hget : ∀ part a, s'.manager.allocations.get? part = some a →
      s.manager.allocations.get? part = some a ∨ a.leaseId = "") : s'.Granted where
  counter := by rw [hc, hg, h.counter]
  numbered := by
    rw [hg]
    exact h.numbered
  manager part a ha := by
    rw [hg]
    rcases hget part a ha with hold | hempty
    · exact h.manager part a hold
    · exact Or.inl hempty
  count := by
    rw [hp, hg]
    exact h.count
  snapshot := by
    rw [hp, hg]
    exact h.snapshot
  rising := by
    rw [hp]
    exact h.rising

/-- A grant takes its parts from whoever had them; status messages do not see it. -/
theorem Granted.grant {s s' : System κ ι} (h : s.Granted) {request : ClaimRequest} {g : Grant κ ι}
    (hid : g.leaseId = leaseName (s.manager.counter + 1))
    (hparts : g.parts = request.resources.map Prod.fst)
    (hm : s'.manager = s.manager.granted request) (hg : s'.grants = s.grants ++ [g])
    (hp : s'.published = s.published) : s'.Granted where
  counter := by
    rw [hm, hg, List.length_append, ← h.counter]
    rfl
  numbered := by
    rw [hg]
    exact h.numbered.concat (h.counter ▸ hid)
  manager part a ha := by
    rw [hm] at ha
    rw [hg, holder_concat, hparts]
    rcases ExecutionManager.granted_get?_parts ha with ⟨hother, hold⟩ | ⟨hpart, -, hnew⟩
    · rw [if_neg hother]
      exact h.manager part a hold
    · rw [if_pos hpart]
      exact Or.inr ⟨g, rfl, hid.trans hnew.symm⟩
  count m hmem := by
    rw [hp] at hmem
    rw [hg, List.length_append]
    exact Nat.le_add_right_of_le (h.count m hmem)
  snapshot m hmem := by
    rw [hp] at hmem
    rw [hg, List.take_append_of_le_length (h.count m hmem)]
    exact h.snapshot m hmem
  rising := by
    rw [hp]
    exact h.rising

theorem granted_publish {s : System κ ι} (h : s.Granted) : s.publish.Granted where
  counter := h.counter
  numbered := h.numbered
  manager := h.manager
  count m hm := by
    rcases List.mem_append.mp hm with hold | hnew
    · exact h.count m hold
    · rw [List.mem_singleton.mp hnew]
      exact Nat.le_refl _
  snapshot m hm := by
    rcases List.mem_append.mp hm with hold | hnew
    · exact h.snapshot m hold
    · rw [List.mem_singleton.mp hnew]
      change NamesLatest (s.grants.take s.grants.length) s.manager.status.allocations
      rw [List.take_length]
      intro part a ha
      rw [ExecutionManager.get?_status] at ha
      exact h.manager part a ha
  rising := by
    refine List.pairwise_append.mpr ⟨h.rising, List.pairwise_singleton _ _, fun m hm m' hm' => ?_⟩
    rw [List.mem_singleton.mp hm']
    exact h.count m hm

theorem granted_serve {s : System κ ι} (h : s.Granted) (n : ℕ) : (s.serve n).Granted := by
  rcases serve_cases s n with hs | ⟨c, -, -, ⟨message, hs⟩ | ⟨-, hs⟩⟩
  · rw [hs]
    exact h
  · rw [hs]
    exact h.of_same rfl rfl rfl
  · rw [hs]
    exact h.grant rfl rfl rfl rfl rfl

theorem granted_step (s : System κ ι) (e : Event κ ι) (h : s.Granted) : (s.step e).Granted := by
  cases e with
  | request k i =>
    change (s.request k i).Granted
    rcases request_cases s k i with hs | ⟨r, hs⟩
    · rw [hs]
      exact h
    · rw [hs]
      exact h.of_same rfl rfl rfl
  | claim k r => exact h.of_same rfl rfl rfl
  | release leaseId => exact h.of_same rfl rfl rfl
  | serve n => exact granted_serve h n
  | answer n =>
    change (s.answer n).Granted
    rcases answer_cases s n with hs | ⟨c, i, r, -, -, -, -, hs⟩
    · rw [hs]
      exact h
    · rw [hs]
      exact h.of_same rfl rfl rfl
  | serveRelease n =>
    change (s.serveRelease n).Granted
    unfold serveRelease
    split
    · exact h
    · exact h.of_manager rfl rfl rfl fun _ _ ha =>
        Or.inl (ExecutionManager.removeLeases_get? ha)
  | fault resource =>
    exact h.of_manager rfl rfl rfl fun _ _ ha =>
      (ExecutionManager.fault_get? ha).imp_right And.right
  | publish => exact granted_publish h
  | deliver k n =>
    change (s.deliver k n).Granted
    unfold deliver
    split
    · exact h
    · split
      · exact h.of_same rfl rfl rfl
      · exact h
  | process k l =>
    rcases process_cases s k l with hs | ⟨-, -, hs⟩
    · rw [hs]
      exact h
    · rw [hs]
      exact h.of_same rfl rfl rfl
  | leave n =>
    change (s.leave n).Granted
    rcases leave_cases s n with hs | ⟨p, -, hs⟩
    · rw [hs]
      exact h
    · rw [hs]
      exact h.of_same rfl rfl rfl
  | tick elapsed => exact h.of_same rfl rfl rfl

end System
end PhysicalAiRuntime.Fleet
