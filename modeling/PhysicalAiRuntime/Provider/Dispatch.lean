import PhysicalAiRuntime.Foundations.Trace
import PhysicalAiRuntime.Provider.Client

/-! `start_joint_trajectory` on the shared background loop. The coroutine is cut at its two waits;
between its sections the session of the client may be left and entered again, because an interrupt
of the blocked caller does not stop the coroutine. -/
namespace PhysicalAiRuntime.Provider
open Authority
set_option autoImplicit false
set_option maxHeartbeats 250000

inductive StartPhase where
  | waitingServer
  | waitingAccept
  | finished
  deriving DecidableEq, Repr

/-- A started coroutine: its locals, the lease its binding was checked under, and how often the
client had been unbound by then. -/
structure StartCoroutine where
  part : String
  trajectory : JointTrajectory
  checkedLease : String
  checkedAt : ℕ
  phase : StartPhase
  deriving DecidableEq

/-- The command client of a session and the coroutines that run on it, each goal being numbered by
its coroutine. `leases` are the leases the client was bound to so far. -/
structure Background where
  client : ActionProviderClient
  coroutines : List StartCoroutine
  unbinds : ℕ
  leases : List String
  dispatched : List Goal

inductive LoopStep where
  | check (part : String) (trajectory : ActionValue) (jointNames : List String)
  | dispatch (k : ℕ) (now : Stamp)
  | fail (k : ℕ)
  | answered (k : ℕ) (accepted : Bool)
  | unbind
  | bind (grant : LeaseGrant)

namespace Background

def init (profile : Option (Dict String PartConfig)) : Background :=
  ⟨ActionProviderClient.new profile, [], 0, [], []⟩

def setPhase (s : Background) (k : ℕ) (co : StartCoroutine) (phase : StartPhase) : Background :=
  { s with coroutines := s.coroutines.set k { co with phase := phase } }

def check (s : Background) (part : String) (trajectory : ActionValue) (jointNames : List String) :
    Background :=
  match s.client.startCheck part trajectory jointNames with
  | .error _ => s
  | .ok (client, message) =>
    { s with
      client := client
      coroutines := s.coroutines ++ [⟨part, message, s.client.leaseId, s.unbinds, .waitingServer⟩] }

def dispatch (s : Background) (k : ℕ) (now : Stamp) : Background :=
  match s.coroutines[k]? with
  | none => s
  | some co =>
    if co.phase = .waitingServer then
      { s.setPhase k co .waitingAccept with
        dispatched := s.dispatched ++ [s.client.startDispatch co.part co.trajectory now] }
    else s

def fail (s : Background) (k : ℕ) : Background :=
  match s.coroutines[k]? with
  | none => s
  | some co => s.setPhase k co .finished

def answered (s : Background) (k : ℕ) (accepted : Bool) : Background :=
  match s.coroutines[k]? with
  | none => s
  | some co =>
    if co.phase = .waitingAccept then
      match s.client.startAccept co.part ⟨k, accepted⟩ with
      | .error _ => s.setPhase k co .finished
      | .ok client => { s.setPhase k co .finished with client := client }
    else s

def bind (s : Background) (grant : LeaseGrant) : Background :=
  match s.client.bind grant with
  | .error _ => s
  | .ok client => { s with client := client, leases := s.leases ++ [grant.leaseId] }

def step (s : Background) : LoopStep → Background
  | .check part trajectory jointNames => s.check part trajectory jointNames
  | .dispatch k now => s.dispatch k now
  | .fail k => s.fail k
  | .answered k accepted => s.answered k accepted
  | .unbind => { s with client := s.client.unbind, unbinds := s.unbinds + 1 }
  | .bind grant => s.bind grant

/-! ## What is required, and when it holds -/

/-- Everything stored in the client was obtained for the lease it is bound to. -/
structure Stored (s : Background) : Prop where
  actionClients : ∀ part a, s.client.actionClients.get? part = some a →
    a.createdFor ≠ "" ∧ a.createdFor = s.client.leaseId
  goalHandles : ∀ part handle, s.client.goalHandles.get? part = some handle →
    ∃ co, s.coroutines[handle.goalId]? = some co ∧ co.checkedLease = s.client.leaseId

/-- A goal is sent under the lease its binding was checked under, which is still bound; and the
step stores nothing that was obtained for another lease. -/
def Safe (s : Background) (l : LoopStep) : Prop :=
  (∀ k now co, l = .dispatch k now → s.coroutines[k]? = some co → co.phase = .waitingServer →
    (s.client.startDispatch co.part co.trajectory now).leaseId = co.checkedLease ∧
      s.client.leaseId = co.checkedLease ∧ co.checkedLease ≠ "") ∧
  (s.step l).Stored

/-- A coroutine that sends its goal or stores its handle does so before the client is unbound. -/
def Undisturbed (s : Background) : LoopStep → Prop
  | .dispatch k _ => ∀ co, s.coroutines[k]? = some co → co.phase = .waitingServer →
    co.checkedAt = s.unbinds
  | .answered k true => ∀ co, s.coroutines[k]? = some co → co.phase = .waitingAccept →
    co.checkedAt = s.unbinds
  | _ => True

instance decidableUndisturbed (s : Background) : ∀ l, Decidable (s.Undisturbed l)
  | .dispatch k _ => inferInstanceAs (Decidable (∀ co ∈ s.coroutines[k]?,
      co.phase = .waitingServer → co.checkedAt = s.unbinds))
  | .answered k true => inferInstanceAs (Decidable (∀ co ∈ s.coroutines[k]?,
      co.phase = .waitingAccept → co.checkedAt = s.unbinds))
  | .check _ _ _ => isTrue trivial
  | .fail _ => isTrue trivial
  | .answered _ false => isTrue trivial
  | .unbind => isTrue trivial
  | .bind _ => isTrue trivial

def FreshLease (s : Background) : LoopStep → Prop
  | .bind grant => grant.leaseId ∉ s.leases
  | _ => True

instance decidableFreshLease (s : Background) : ∀ l, Decidable (s.FreshLease l)
  | .bind grant => inferInstanceAs (Decidable (grant.leaseId ∉ s.leases))
  | .check _ _ _ => isTrue trivial
  | .dispatch _ _ => isTrue trivial
  | .fail _ => isTrue trivial
  | .answered _ _ => isTrue trivial
  | .unbind => isTrue trivial

/-! ## The invariant -/

/-- A coroutine and the client agree on the lease until the client is unbound. -/
structure CheckedInv (s : Background) (co : StartCoroutine) : Prop where
  lease_ne : co.checkedLease ≠ ""
  checkedAt_le : co.checkedAt ≤ s.unbinds
  bound : co.checkedAt = s.unbinds → s.client.leaseId = co.checkedLease

structure Inv (s : Background) : Prop where
  stored : s.Stored
  checked : ∀ co ∈ s.coroutines, s.CheckedInv co

theorem inv_init (profile : Option (Dict String PartConfig)) : (init profile).Inv where
  stored := ⟨fun _ _ h => (nomatch h), fun _ _ h => (nomatch h)⟩
  checked _ h := absurd h List.not_mem_nil

theorem setPhase_self {s : Background} {k : ℕ} {co : StartCoroutine}
    (hk : s.coroutines[k]? = some co) (phase : StartPhase) :
    (s.setPhase k co phase).coroutines[k]? = some { co with phase := phase } :=
  List.getElem?_set_self (List.getElem?_eq_some_iff.mp hk).1

theorem stored_setPhase {s : Background} (h : s.Stored) {k : ℕ} {co : StartCoroutine}
    (hk : s.coroutines[k]? = some co) (phase : StartPhase) : (s.setPhase k co phase).Stored where
  actionClients := h.actionClients
  goalHandles part handle hh := by
    obtain ⟨co', hco, hl⟩ := h.goalHandles part handle hh
    by_cases hg : handle.goalId = k
    · rw [hg, hk] at hco
      cases hco
      exact ⟨{ co with phase := phase }, hg ▸ setPhase_self hk phase, hl⟩
    · refine ⟨co', ?_, hl⟩
      change (s.coroutines.set k _)[handle.goalId]? = _
      rw [List.getElem?_set_ne (Ne.symm hg)]
      exact hco

theorem inv_setPhase {s : Background} (h : s.Inv) {k : ℕ} {co : StartCoroutine}
    (hk : s.coroutines[k]? = some co) (phase : StartPhase) : (s.setPhase k co phase).Inv where
  stored := stored_setPhase h.stored hk phase
  checked co' hmem := by
    rcases List.mem_or_eq_of_mem_set hmem with hold | rfl
    · have hc := h.checked co' hold
      exact ⟨hc.lease_ne, hc.checkedAt_le, hc.bound⟩
    · have hc := h.checked co (List.mem_of_getElem? hk)
      exact ⟨hc.lease_ne, hc.checkedAt_le, hc.bound⟩

theorem inv_check {s : Background} (h : s.Inv) (part : String) (trajectory : ActionValue)
    (jointNames : List String) : (s.check part trajectory jointNames).Inv := by
  unfold check
  cases hc : s.client.startCheck part trajectory jointNames with
  | error e => exact h
  | ok r =>
    obtain ⟨client, message⟩ := r
    have hsame := ActionProviderClient.startCheck_sameStreams hc
    have hbound := hc
    unfold ActionProviderClient.startCheck at hbound
    obtain ⟨b, hb, -⟩ := except_bind_ok hbound
    have hne : s.client.leaseId ≠ "" := (ActionProviderClient.requireBinding_ok hb).1
    have hstores := ActionProviderClient.startCheck_stores hc
    refine ⟨⟨fun p a ha => ?_, fun p handle hh => ?_⟩, fun co hmem => ?_⟩
    · change a.createdFor ≠ "" ∧ a.createdFor = client.leaseId
      rw [hsame.leaseId]
      rcases hstores.1 p a ha with hold | hnew
      · exact h.stored.actionClients p a hold
      · rw [hnew]
        exact ⟨hne, rfl⟩
    · change client.goalHandles.get? p = some handle at hh
      rw [hstores.2] at hh
      obtain ⟨co, hco, hl⟩ := h.stored.goalHandles p handle hh
      have hlt : handle.goalId < s.coroutines.length := (List.getElem?_eq_some_iff.mp hco).1
      refine ⟨co, ?_, ?_⟩
      · change (s.coroutines ++ _)[handle.goalId]? = _
        rw [List.getElem?_append_left hlt]
        exact hco
      · change co.checkedLease = client.leaseId
        rw [hsame.leaseId]
        exact hl
    · rcases List.mem_append.mp hmem with hold | hnew
      · have hco := h.checked co hold
        exact ⟨hco.lease_ne, hco.checkedAt_le, fun he => hsame.leaseId.trans (hco.bound he)⟩
      · rw [List.mem_singleton.mp hnew]
        exact ⟨hne, le_refl _, fun _ => hsame.leaseId⟩

theorem inv_dispatch {s : Background} (h : s.Inv) (k : ℕ) (now : Stamp) :
    (s.dispatch k now).Inv := by
  unfold dispatch
  cases hk : s.coroutines[k]? with
  | none => exact h
  | some co =>
    by_cases hp : co.phase = .waitingServer
    · have hi := inv_setPhase h hk .waitingAccept
      simp only [hp, if_true]
      exact ⟨⟨hi.stored.actionClients, hi.stored.goalHandles⟩,
        fun co hmem => ⟨(hi.checked co hmem).lease_ne, (hi.checked co hmem).checkedAt_le,
          (hi.checked co hmem).bound⟩⟩
    · simp only [hp, if_false]
      exact h

theorem inv_unbind {s : Background} (h : s.Inv) : (s.step .unbind).Inv where
  stored := ⟨fun _ _ h => (nomatch h), fun _ _ h => (nomatch h)⟩
  checked co hmem := by
    have hc := h.checked co hmem
    have hle := hc.checkedAt_le
    refine ⟨hc.lease_ne, Nat.le_succ_of_le hle, fun he => ?_⟩
    change co.checkedAt = s.unbinds + 1 at he
    omega

/-- Nothing is stored in a client that is bound to no lease. -/
theorem Inv.nothing_stored {s : Background} (h : s.Inv) (hl : s.client.leaseId = "")
    (part : String) : s.client.actionClients.get? part = none ∧
      s.client.goalHandles.get? part = none := by
  constructor
  · cases ha : s.client.actionClients.get? part with
    | none => rfl
    | some a =>
      have hs := h.stored.actionClients part a ha
      exact absurd (hs.2.trans hl) hs.1
  · cases hh : s.client.goalHandles.get? part with
    | none => rfl
    | some handle =>
      obtain ⟨co, hco, hc⟩ := h.stored.goalHandles part handle hh
      exact absurd (hc.trans hl) (h.checked co (List.mem_of_getElem? hco)).lease_ne

theorem bind_cases (s : Background) (grant : LeaseGrant) :
    s.bind grant = s ∨ (s.client.leaseId = "" ∧ s.bind grant = { s with
      client := { s.client with leaseId := grant.leaseId, bindings := grant.endpoints }
      leases := s.leases ++ [grant.leaseId] }) := by
  unfold bind ActionProviderClient.bind
  by_cases hl : s.client.leaseId = ""
  · exact Or.inr ⟨hl, by simp [hl]⟩
  · exact Or.inl (by simp [hl])

theorem inv_bind {s : Background} (h : s.Inv) (grant : LeaseGrant) : (s.bind grant).Inv := by
  rcases bind_cases s grant with hb | ⟨hl, hb⟩
  · rw [hb]
    exact h
  · have hnone := h.nothing_stored hl
    rw [hb]
    refine ⟨⟨fun p a ha => ?_, fun p handle hh => ?_⟩, fun co hmem => ?_⟩
    · change s.client.actionClients.get? p = some a at ha
      rw [(hnone p).1] at ha
      cases ha
    · change s.client.goalHandles.get? p = some handle at hh
      rw [(hnone p).2] at hh
      cases hh
    · have hc := h.checked co hmem
      exact ⟨hc.lease_ne, hc.checkedAt_le, fun he =>
        absurd ((hc.bound he).symm.trans hl) hc.lease_ne⟩

/-! ## The section that stores the handle -/

theorem answered_accepted {s : Background} {k : ℕ} {co : StartCoroutine}
    (hk : s.coroutines[k]? = some co) (hp : co.phase = .waitingAccept) :
    s.answered k true = { s.setPhase k co .finished with
      client := { s.client with goalHandles := s.client.goalHandles.set co.part ⟨k, true⟩ } } := by
  unfold answered
  rw [hk]
  simp [hp, ActionProviderClient.startAccept]

theorem answered_rejected {s : Background} {k : ℕ} {co : StartCoroutine}
    (hk : s.coroutines[k]? = some co) (hp : co.phase = .waitingAccept) :
    s.answered k false = s.setPhase k co .finished := by
  unfold answered
  rw [hk]
  simp [hp, ActionProviderClient.startAccept]

theorem answered_idle {s : Background} {k : ℕ} (accepted : Bool)
    (h : ∀ co, s.coroutines[k]? = some co → co.phase ≠ .waitingAccept) :
    s.answered k accepted = s := by
  unfold answered
  cases hk : s.coroutines[k]? with
  | none => rfl
  | some co => simp [h co hk]

/-- Storing the handle of a coroutine keeps the store in order only under the lease it was checked
under. -/
theorem bound_of_stored {s : Background} {k : ℕ} {co : StartCoroutine}
    (hk : s.coroutines[k]? = some co) (hp : co.phase = .waitingAccept)
    (hstored : (s.answered k true).Stored) : s.client.leaseId = co.checkedLease := by
  rw [answered_accepted hk hp] at hstored
  obtain ⟨co', hco', hl⟩ := hstored.goalHandles co.part ⟨k, true⟩ (Dict.get?_set_self _ _ _)
  have heq := (setPhase_self hk .finished).symm.trans hco'
  cases heq
  exact hl.symm

theorem stored_of_bound {s : Background} (h : s.Stored) {k : ℕ} {co : StartCoroutine}
    (hk : s.coroutines[k]? = some co) (hl : s.client.leaseId = co.checkedLease) :
    Stored { s.setPhase k co .finished with
      client := { s.client with goalHandles := s.client.goalHandles.set co.part ⟨k, true⟩ } } := by
  have hset := stored_setPhase h hk .finished
  refine ⟨hset.actionClients, fun p handle hh => ?_⟩
  change (s.client.goalHandles.set co.part ⟨k, true⟩).get? p = some handle at hh
  rw [Dict.get?_set] at hh
  by_cases hp : p = co.part
  · rw [if_pos hp] at hh
    cases hh
    exact ⟨_, setPhase_self hk .finished, hl.symm⟩
  · rw [if_neg hp] at hh
    exact hset.goalHandles p handle hh

theorem inv_answered {s : Background} (h : s.Inv) {k : ℕ} {accepted : Bool}
    (hu : s.Undisturbed (.answered k accepted)) : (s.answered k accepted).Inv := by
  by_cases hidle : ∀ co, s.coroutines[k]? = some co → co.phase ≠ .waitingAccept
  · rw [answered_idle accepted hidle]
    exact h
  · push Not at hidle
    obtain ⟨co, hk, hp⟩ := hidle
    have hi := inv_setPhase h hk .finished
    cases accepted with
    | false =>
      rw [answered_rejected hk hp]
      exact hi
    | true =>
      have hbound := (h.checked co (List.mem_of_getElem? hk)).bound (hu co hk hp)
      rw [answered_accepted hk hp]
      refine ⟨stored_of_bound h.stored hk hbound, fun co' hmem => ?_⟩
      have hc := hi.checked co' hmem
      exact ⟨hc.lease_ne, hc.checkedAt_le, hc.bound⟩

theorem inv_step {s : Background} (h : s.Inv) {l : LoopStep} (hu : s.Undisturbed l) :
    (s.step l).Inv := by
  cases l with
  | check part trajectory jointNames => exact inv_check h part trajectory jointNames
  | dispatch k now => exact inv_dispatch h k now
  | fail k =>
    change (s.fail k).Inv
    unfold fail
    cases hk : s.coroutines[k]? with
    | none => exact h
    | some co => exact inv_setPhase h hk .finished
  | answered k accepted => exact inv_answered h hu
  | unbind => exact inv_unbind h
  | bind grant => exact inv_bind h grant

theorem safe_of_undisturbed {s : Background} (h : s.Inv) {l : LoopStep} (hu : s.Undisturbed l) :
    s.Safe l := by
  refine ⟨?_, (inv_step h hu).stored⟩
  intro k now co hl hk hp
  subst hl
  have hc := h.checked co (List.mem_of_getElem? hk)
  have hb := hc.bound (hu co hk hp)
  exact ⟨hb, hb, hc.lease_ne⟩

/-! ## Leases that are not reused -/

/-- A lease that a coroutine was checked under is not bound again once it was unbound. -/
structure FreshInv (s : Background) : Prop where
  leaseId : s.client.leaseId ≠ "" → s.client.leaseId ∈ s.leases
  checked : ∀ co ∈ s.coroutines, co.checkedLease ∈ s.leases ∧
    (s.client.leaseId = co.checkedLease → co.checkedAt = s.unbinds)

theorem freshInv_init (profile : Option (Dict String PartConfig)) : (init profile).FreshInv where
  leaseId h := absurd rfl h
  checked _ h := absurd h List.not_mem_nil

/-- Only the phases of the coroutines, the stored handles and the goals sent differ. -/
structure SameBinding (s s' : Background) : Prop where
  leaseId : s'.client.leaseId = s.client.leaseId
  unbinds : s'.unbinds = s.unbinds
  leases : s'.leases = s.leases
  coroutines : ∀ co' ∈ s'.coroutines, ∃ co ∈ s.coroutines,
    co'.checkedLease = co.checkedLease ∧ co'.checkedAt = co.checkedAt

theorem FreshInv.of_sameBinding {s s' : Background} (h : s.FreshInv) (hs : SameBinding s s') :
    s'.FreshInv where
  leaseId := by
    rw [hs.leaseId, hs.leases]
    exact h.leaseId
  checked co' hmem := by
    obtain ⟨co, hco, hlease, hat⟩ := hs.coroutines co' hmem
    rw [hs.leaseId, hs.leases, hs.unbinds, hlease, hat]
    exact h.checked co hco

theorem SameBinding.refl (s : Background) : SameBinding s s :=
  ⟨rfl, rfl, rfl, fun co hmem => ⟨co, hmem, rfl, rfl⟩⟩

theorem sameBinding_setPhase {s : Background} {k : ℕ} {co : StartCoroutine}
    (hk : s.coroutines[k]? = some co) (phase : StartPhase) :
    SameBinding s (s.setPhase k co phase) := by
  refine ⟨rfl, rfl, rfl, fun co' hmem => ?_⟩
  rcases List.mem_or_eq_of_mem_set hmem with hold | rfl
  · exact ⟨co', hold, rfl, rfl⟩
  · exact ⟨co, List.mem_of_getElem? hk, rfl, rfl⟩

theorem sameBinding_answered (s : Background) (k : ℕ) (accepted : Bool) :
    SameBinding s (s.answered k accepted) := by
  by_cases hidle : ∀ co, s.coroutines[k]? = some co → co.phase ≠ .waitingAccept
  · rw [answered_idle accepted hidle]
    exact SameBinding.refl s
  · push Not at hidle
    obtain ⟨co, hk, hp⟩ := hidle
    have hset := sameBinding_setPhase hk .finished
    cases accepted with
    | false =>
      rw [answered_rejected hk hp]
      exact hset
    | true =>
      rw [answered_accepted hk hp]
      exact ⟨rfl, rfl, rfl, hset.coroutines⟩

theorem sameBinding_dispatch (s : Background) (k : ℕ) (now : Stamp) :
    SameBinding s (s.dispatch k now) := by
  unfold dispatch
  cases hk : s.coroutines[k]? with
  | none => exact SameBinding.refl s
  | some co =>
    by_cases hp : co.phase = .waitingServer
    · simp only [hp, if_true]
      exact ⟨rfl, rfl, rfl, (sameBinding_setPhase hk .waitingAccept).coroutines⟩
    · simp only [hp, if_false]
      exact SameBinding.refl s

theorem freshInv_check {s : Background} (h : s.FreshInv) (part : String) (trajectory : ActionValue)
    (jointNames : List String) : (s.check part trajectory jointNames).FreshInv := by
  unfold check
  cases hc : s.client.startCheck part trajectory jointNames with
  | error e => exact h
  | ok r =>
    obtain ⟨client, message⟩ := r
    have hl := (ActionProviderClient.startCheck_sameStreams hc).leaseId
    obtain ⟨b, hb, -⟩ := except_bind_ok hc
    have hne := (ActionProviderClient.requireBinding_ok hb).1
    refine ⟨fun _ => ?_, fun co hmem => ?_⟩
    · change client.leaseId ∈ s.leases
      rw [hl]
      exact h.leaseId hne
    · change co.checkedLease ∈ s.leases ∧ (client.leaseId = co.checkedLease → _)
      rw [hl]
      rcases List.mem_append.mp hmem with hold | hnew
      · exact h.checked co hold
      · rw [List.mem_singleton.mp hnew]
        exact ⟨h.leaseId hne, fun _ => rfl⟩

theorem freshInv_bind {s : Background} (h : s.FreshInv) {grant : LeaseGrant}
    (hfresh : grant.leaseId ∉ s.leases) : (s.bind grant).FreshInv := by
  rcases bind_cases s grant with hb | ⟨-, hb⟩
  · rw [hb]
    exact h
  · rw [hb]
    refine ⟨fun _ => List.mem_append_right _ (List.mem_singleton_self _), fun co hmem => ?_⟩
    obtain ⟨hlease, -⟩ := h.checked co hmem
    refine ⟨List.mem_append_left _ hlease, fun he => ?_⟩
    change grant.leaseId = co.checkedLease at he
    rw [he] at hfresh
    exact absurd hlease hfresh

theorem freshInv_step {s : Background} (hi : s.Inv) (h : s.FreshInv) {l : LoopStep}
    (hf : s.FreshLease l) : (s.step l).FreshInv := by
  cases l with
  | check part trajectory jointNames => exact freshInv_check h part trajectory jointNames
  | dispatch k now => exact h.of_sameBinding (sameBinding_dispatch s k now)
  | fail k =>
    change (s.fail k).FreshInv
    unfold fail
    cases hk : s.coroutines[k]? with
    | none => exact h
    | some co => exact h.of_sameBinding (sameBinding_setPhase hk .finished)
  | answered k accepted => exact h.of_sameBinding (sameBinding_answered s k accepted)
  | unbind =>
    refine ⟨fun hne => absurd rfl hne, fun co hmem => ⟨(h.checked co hmem).1, fun he => ?_⟩⟩
    exact absurd he.symm (hi.checked co hmem).lease_ne
  | bind grant => exact freshInv_bind h hf

theorem undisturbed_of_safe {s : Background} (h : s.FreshInv) {l : LoopStep}
    (hsafe : s.Safe l) : s.Undisturbed l := by
  cases l with
  | dispatch k now =>
    intro co hk hp
    exact (h.checked co (List.mem_of_getElem? hk)).2 (hsafe.1 k now co rfl hk hp).2.1
  | answered k accepted =>
    cases accepted with
    | false => trivial
    | true =>
      intro co hk hp
      exact (h.checked co (List.mem_of_getElem? hk)).2 (bound_of_stored hk hp hsafe.2)
  | check part trajectory jointNames => trivial
  | fail k => trivial
  | unbind => trivial
  | bind grant => trivial

/-- **No goal after its session.** Every step of a run is safe where no coroutine sends its goal or
stores its handle after an `unbind` that followed its check; and only there, if lease ids are not
reused. -/
theorem dispatch_safe (profile : Option (Dict String PartConfig)) (ls : List LoopStep) :
    (Trace.Follows step Undisturbed (init profile) ls →
      Trace.Follows step Safe (init profile) ls) ∧
    (Trace.Follows step FreshLease (init profile) ls →
      Trace.Follows step Safe (init profile) ls →
      Trace.Follows step Undisturbed (init profile) ls) := by
  constructor
  · intro hu
    exact Trace.follows_of_invariant Inv (fun _ _ h hl => inv_step h hl)
      (fun _ _ h hl => safe_of_undisturbed h hl) (inv_init profile) hu
  · intro hfresh
    refine (Trace.follows_congr (fun s : Background => s.Inv ∧ s.FreshInv) ?_ ?_
      ⟨inv_init profile, freshInv_init profile⟩ hfresh).mp
    · intro s l h _
      exact ⟨undisturbed_of_safe h.2, safe_of_undisturbed h.1⟩
    · intro s l h hf hu
      exact ⟨inv_step h.1 hu, freshInv_step h.1 h.2 hf⟩

/-! ## An arm that is left and entered again -/

def armGrant (leaseId : String) : LeaseGrant :=
  ⟨leaseId, Dict.ofPairs [(("arm", "joint_trajectory"),
    ⟨"arm", "joint_trajectory", "/arm/follow_joint_trajectory", true⟩)]⟩

def armCheck : LoopStep :=
  .check "arm" (.jointTrajectory ⟨Header.default, ["joint"], [⟨[1], [], [], ⟨1, 0⟩⟩]⟩) ["joint"]

/-- A goal that is accepted and stored before the session is left. -/
def armRun : List LoopStep :=
  [.bind (armGrant "lease-1"), armCheck, .dispatch 0 ⟨0, 0⟩, .answered 0 true, .unbind]

theorem dispatch_safe_arm : Trace.Follows step Safe (init none) armRun ∧
    Trace.Follows step Undisturbed (init none) armRun := by
  have hsafe := (dispatch_safe none armRun).1 (by decide +kernel)
  exact ⟨hsafe, (dispatch_safe none armRun).2 (by decide +kernel) hsafe⟩

/-- What coroutine `k` waits for, the lease it was checked under, and the lease bound now. -/
def waits (s : Background) (k : ℕ) : Option (StartPhase × String) × String :=
  (s.coroutines[k]?.map fun co => (co.phase, co.checkedLease), s.client.leaseId)

theorem waits_eq {s : Background} {k : ℕ} {phase : StartPhase} {checked bound : String}
    (h : s.waits k = (some (phase, checked), bound)) :
    ∃ co, s.coroutines[k]? = some co ∧ co.phase = phase ∧ co.checkedLease = checked ∧
      s.client.leaseId = bound := by
  obtain ⟨hco, hb⟩ := Prod.mk.inj h
  obtain ⟨co, hk, hc⟩ := Option.map_eq_some_iff.mp hco
  obtain ⟨hp, hl⟩ := Prod.mk.inj hc
  exact ⟨co, hk, hp, hl, hb⟩

theorem not_safe_dispatch {s : Background} {k : ℕ} {checked bound : String} (now : Stamp)
    (h : s.waits k = (some (.waitingServer, checked), bound)) (hne : bound ≠ checked) :
    ¬ s.Safe (.dispatch k now) := by
  intro hsafe
  obtain ⟨co, hk, hp, hl, hb⟩ := waits_eq h
  have hbound := (hsafe.1 k now co rfl hk hp).2.1
  rw [hb, hl] at hbound
  exact hne hbound

theorem not_safe_answered {s : Background} {k : ℕ} {checked bound : String}
    (h : s.waits k = (some (.waitingAccept, checked), bound)) (hne : bound ≠ checked) :
    ¬ s.Safe (.answered k true) := by
  intro hsafe
  obtain ⟨co, hk, hp, hl, hb⟩ := waits_eq h
  have hbound := bound_of_stored hk hp hsafe.2
  rw [hb, hl] at hbound
  exact hne hbound

/-- The goal is accepted, the session is left before the coroutine resumes, and the coroutine
stores the handle in the unbound client. With an action client that outlives `unbind`, a goal is
sent under no lease, or under the lease of the next entry. -/
theorem dispatch_unsafe :
    ¬ Trace.Follows step Safe (init none)
      [.bind (armGrant "lease-1"), armCheck, .dispatch 0 ⟨0, 0⟩, .unbind, .answered 0 true] ∧
    ¬ Trace.Follows step Safe (init none)
      [.bind (armGrant "lease-1"), armCheck, .unbind, .dispatch 0 ⟨0, 0⟩] ∧
    ¬ Trace.Follows step Safe (init none)
      [.bind (armGrant "lease-1"), armCheck, .unbind, .bind (armGrant "lease-2"),
        .dispatch 0 ⟨0, 0⟩] := by
  refine ⟨fun h => ?_, fun h => ?_, fun h => ?_⟩
  · have hw : waits (Trace.run step (init none)
        [.bind (armGrant "lease-1"), armCheck, .dispatch 0 ⟨0, 0⟩, .unbind]) 0 =
        (some (.waitingAccept, "lease-1"), "") := by
      decide +kernel
    exact not_safe_answered hw (by decide) h.2.2.2.2.1
  · have hw : waits (Trace.run step (init none)
        [.bind (armGrant "lease-1"), armCheck, .unbind]) 0 =
        (some (.waitingServer, "lease-1"), "") := by
      decide +kernel
    exact not_safe_dispatch ⟨0, 0⟩ hw (by decide) h.2.2.2.1
  · have hw : waits (Trace.run step (init none)
        [.bind (armGrant "lease-1"), armCheck, .unbind, .bind (armGrant "lease-2")]) 0 =
        (some (.waitingServer, "lease-1"), "lease-2") := by
      decide +kernel
    exact not_safe_dispatch ⟨0, 0⟩ hw (by decide) h.2.2.2.2.1

end Background
end PhysicalAiRuntime.Provider
