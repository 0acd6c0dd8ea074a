import PhysicalAiRuntime.Authority.Messages

/-! The Execution Manager as `FakeAuthority` has it: a claim with `preempt` displaces every lease
that holds a requested resource, a claim without it is refused on a held or faulted resource, and
leases are numbered. -/
namespace PhysicalAiRuntime.Recovery
open Authority
set_option autoImplicit false
set_option maxHeartbeats 250000

def leaseName (n : ℕ) : String := "lease-" ++ Nat.repr n

theorem leaseName_injective {m n : ℕ} (h : leaseName m = leaseName n) : m = n := by
  have hrepr : Nat.repr m = Nat.repr n := by
    have hlist := congrArg String.toList h
    simp only [leaseName, String.toList_append, List.append_cancel_left_eq] at hlist
    exact String.toList_injective hlist
  have hdigits := congrArg (fun s => Nat.ofDigitChars 10 s.toList 0) hrepr
  simpa using hdigits

theorem leaseName_ne_empty (n : ℕ) : leaseName n ≠ "" := by
  intro h
  have hlist := congrArg String.toList h
  simp [leaseName] at hlist

structure ExecutionManager where
  allocations : Dict String Allocation
  counter : ℕ
  /-- The codes of the generated `ClaimControl` message. -/
  roleCode : SourceRole → ℕ

namespace ExecutionManager

def new (roleCode : SourceRole → ℕ) : ExecutionManager := ⟨Dict.empty, 0, roleCode⟩

/-- Some requested resource has an allocation that is, or is not, a fault. -/
def anyAllocated (m : ExecutionManager) (resources : List (String × String)) (fault : Bool) :
    Bool :=
  resources.any fun item => match m.allocations.get? item.1 with
    | none => false
    | some a => (a.authorityState == .fault) == fault

def displaced (m : ExecutionManager) (resources : List (String × String)) : List String :=
  (m.allocations.entries.filter fun e =>
    decide (e.1 ∈ resources.map Prod.fst) && decide (e.2.leaseId ≠ "")).map fun e => e.2.leaseId

def removeLeases (m : ExecutionManager) (leaseIds : List String) : Dict String Allocation :=
  m.allocations.filter fun e => decide (e.2.leaseId ∉ leaseIds)

def ownedAllocation (m : ExecutionManager) (request : ClaimRequest) (command : String) :
    Allocation where
  authorityState := .owned
  leaseId := leaseName (m.counter + 1)
  sourceRole := m.roleCode request.sourceRole
  sourceInstance := request.sourceInstance
  commandContract := command
  requestedController := ""
  observedControllers := []

def roleName : SourceRole → String
  | .policy => "policy"
  | .teleop => "teleop"
  | .planner => "planner"

def endpoint (request : ClaimRequest) (item : String × String) : EndpointBinding where
  resource := item.1
  commandContract := item.2
  endpoint := "/action_sources/" ++ roleName request.sourceRole ++ "/" ++ item.1 ++ "/" ++ item.2
  isAction := item.2 == "joint_trajectory"

def refusal (message : String) : ClaimResponse := ⟨false, message, "", []⟩

def grantResponse (m : ExecutionManager) (request : ClaimRequest) : ClaimResponse :=
  ⟨true, "", leaseName (m.counter + 1), request.resources.map (endpoint request)⟩

def granted (m : ExecutionManager) (request : ClaimRequest) : ExecutionManager :=
  { m with
    allocations := (request.resources.map fun item =>
        (item.1, m.ownedAllocation request item.2)).foldl (fun d e => d.set e.1 e.2)
      (m.removeLeases (m.displaced request.resources))
    counter := m.counter + 1 }

def refuses (m : ExecutionManager) (request : ClaimRequest) : Option String :=
  if !request.preempt && m.anyAllocated request.resources false then
    some "resources_busy_preempt_required"
  else if !request.preempt && m.anyAllocated request.resources true then
    some "resource_fault_requires_explicit_preempt"
  else none

def claim (m : ExecutionManager) (request : ClaimRequest) : ExecutionManager × ClaimResponse :=
  match m.refuses request with
  | some message => (m, refusal message)
  | none => (m.granted request, m.grantResponse request)

def release (m : ExecutionManager) (leaseId : String) : ExecutionManager :=
  { m with allocations := m.removeLeases [leaseId] }

def fault (m : ExecutionManager) (resource : String) : ExecutionManager :=
  { m with allocations := m.allocations.set resource ⟨.fault, "", 0, "", "", "", []⟩ }

def status (m : ExecutionManager) : AuthorityStatus where
  resources := m.allocations.entries.map fun e =>
    { resource := e.1
      authorityState := e.2.authorityState
      leaseId := e.2.leaseId
      sourceRole := e.2.sourceRole
      sourceInstance := e.2.sourceInstance
      commandContract := e.2.commandContract
      requestedController := e.2.requestedController
      observedControllers := e.2.observedControllers }

/-! ## What an allocation comes from -/

/-- A client that receives a status message holds the allocations it was made from. -/
theorem get?_status (m : ExecutionManager) (part : String) :
    m.status.allocations.get? part = m.allocations.get? part := by
  have hpairs : (m.status.resources.map fun item => (item.resource, item.allocation)) =
      m.allocations.entries := by
    rw [status, List.map_map]
    exact List.map_id'' (fun _ => rfl) _
  rw [AuthorityStatus.allocations, hpairs, Dict.ofPairs_entries]

theorem mem_displaced {m : ExecutionManager} {resources : List (String × String)}
    {leaseId : String} : leaseId ∈ m.displaced resources ↔
      ∃ part a, m.allocations.get? part = some a ∧ part ∈ resources.map Prod.fst ∧
        a.leaseId = leaseId ∧ leaseId ≠ "" := by
  unfold displaced
  rw [List.mem_map]
  constructor
  · rintro ⟨⟨part, a⟩, hmem, rfl⟩
    rw [List.mem_filter, Bool.and_eq_true, decide_eq_true_eq, decide_eq_true_eq] at hmem
    exact ⟨part, a, (Dict.get?_eq_some_iff _ _ _).mpr hmem.1, hmem.2.1, rfl, hmem.2.2⟩
  · rintro ⟨part, a, ha, hpart, rfl, hne⟩
    refine ⟨(part, a), ?_, rfl⟩
    rw [List.mem_filter, Bool.and_eq_true, decide_eq_true_eq, decide_eq_true_eq]
    exact ⟨(Dict.get?_eq_some_iff _ _ _).mp ha, hpart, hne⟩

theorem removeLeases_get? {m : ExecutionManager} {leaseIds : List String} {part : String}
    {a : Allocation} (h : (m.removeLeases leaseIds).get? part = some a) :
    m.allocations.get? part = some a :=
  ((Dict.get?_filter_eq_some _ _ _ _).mp h).1

/-- A granted part has the new lease; another part keeps its allocation, or loses it. -/
theorem granted_get?_parts {m : ExecutionManager} {request : ClaimRequest} {part : String}
    {a : Allocation} (h : (m.granted request).allocations.get? part = some a) :
    (part ∉ request.resources.map Prod.fst ∧ m.allocations.get? part = some a) ∨
    (part ∈ request.resources.map Prod.fst ∧ a.authorityState = .owned ∧
      a.leaseId = leaseName (m.counter + 1)) := by
  rw [granted, Dict.get?_foldl_set, Option.or_eq_some_iff] at h
  rcases h with hnew | ⟨hnone, hold⟩
  · right
    obtain ⟨item, hitem, heq⟩ : ∃ item ∈ request.resources,
        (item.1, m.ownedAllocation request item.2) = (part, a) := by
      obtain ⟨l₁, l₂, hsplit, -⟩ := List.lookup_eq_some_iff.mp hnew
      have hmem : (part, a) ∈ (request.resources.map fun item =>
          (item.1, m.ownedAllocation request item.2)).reverse := by
        rw [hsplit]
        exact List.mem_append_right _ (List.mem_cons_self)
      exact List.mem_map.mp (List.mem_reverse.mp hmem)
    cases heq
    exact ⟨List.mem_map_of_mem hitem, rfl, rfl⟩
  · refine Or.inl ⟨fun hpart => ?_, removeLeases_get? hold⟩
    obtain ⟨item, hitem, rfl⟩ := List.mem_map.mp hpart
    have hmem : (item.1, m.ownedAllocation request item.2) ∈ (request.resources.map fun item =>
        (item.1, m.ownedAllocation request item.2)).reverse :=
      List.mem_reverse.mpr (List.mem_map_of_mem hitem)
    have hne := List.lookup_eq_none_iff.mp hnone _ hmem
    simp at hne

/-- An allocation after a grant was there before, or is the granted one. -/
theorem granted_get? {m : ExecutionManager} {request : ClaimRequest} {part : String}
    {a : Allocation} (h : (m.granted request).allocations.get? part = some a) :
    m.allocations.get? part = some a ∨
    (a.authorityState = .owned ∧ a.leaseId = leaseName (m.counter + 1)) :=
  (granted_get?_parts h).imp And.right And.right

/-- The requested parts are owned under the new lease. -/
theorem granted_get?_own (m : ExecutionManager) {request : ClaimRequest} {part : String}
    (hpart : part ∈ request.resources.map Prod.fst) :
    ∃ a, (m.granted request).allocations.get? part = some a ∧ a.authorityState = .owned ∧
      a.leaseId = leaseName (m.counter + 1) := by
  cases h : (m.granted request).allocations.get? part with
  | some a =>
    rcases granted_get?_parts h with ⟨hother, -⟩ | ⟨-, hown⟩
    · exact absurd hpart hother
    · exact ⟨a, rfl, hown⟩
  | none =>
    rw [granted, Dict.get?_foldl_set, Option.or_eq_none_iff] at h
    obtain ⟨item, hitem, rfl⟩ := List.mem_map.mp hpart
    have hmem : (item.1, m.ownedAllocation request item.2) ∈ (request.resources.map fun item =>
        (item.1, m.ownedAllocation request item.2)).reverse :=
      List.mem_reverse.mpr (List.mem_map_of_mem hitem)
    have hne := List.lookup_eq_none_iff.mp h.1 _ hmem
    simp at hne

/-- A part that is not requested keeps its allocation, unless its lease also has a requested one. -/
theorem granted_get?_other {m : ExecutionManager} {request : ClaimRequest} {part : String}
    {a : Allocation} (hpart : part ∉ request.resources.map Prod.fst)
    (ha : m.allocations.get? part = some a) (hkept : a.leaseId ∉ m.displaced request.resources) :
    (m.granted request).allocations.get? part = some a := by
  have hnone : (request.resources.map fun item =>
      (item.1, m.ownedAllocation request item.2)).reverse.lookup part = none := by
    rw [List.lookup_eq_none_iff]
    intro e he
    obtain ⟨item, hitem, rfl⟩ := List.mem_map.mp (List.mem_reverse.mp he)
    have hne : part ≠ item.1 := fun heq => hpart (heq ▸ List.mem_map_of_mem hitem)
    simpa using hne
  rw [granted, Dict.get?_foldl_set, hnone, Option.none_or]
  exact (Dict.get?_filter_eq_some _ _ _ _).mpr ⟨ha, decide_eq_true hkept⟩

/-- A claim with `preempt` is granted, whoever has the parts and also where they are faulted. -/
theorem refuses_preempt (m : ExecutionManager) {request : ClaimRequest}
    (h : request.preempt = true) : m.refuses request = none := by
  simp [refuses, h]

theorem release_get? {m : ExecutionManager} {leaseId part : String} {a : Allocation}
    (ha : m.allocations.get? part = some a) (hne : a.leaseId ≠ leaseId) :
    (m.release leaseId).allocations.get? part = some a := by
  refine (Dict.get?_filter_eq_some _ _ _ _).mpr ⟨ha, ?_⟩
  simpa using hne

theorem fault_get? {m : ExecutionManager} {resource part : String} {a : Allocation}
    (h : (m.fault resource).allocations.get? part = some a) :
    m.allocations.get? part = some a ∨ (a.authorityState = .fault ∧ a.leaseId = "") := by
  rw [fault, Dict.get?_set] at h
  split at h
  · cases h
    exact Or.inr ⟨rfl, rfl⟩
  · exact Or.inl h

end ExecutionManager
end PhysicalAiRuntime.Recovery
