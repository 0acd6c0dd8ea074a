import PhysicalAiRuntime.Control.Displacement

/-! One `__exit__` in any reachable state: what it does to its lease, and what it leaves of its
session. `_pop_control` refuses a session that is not the last on the stack, but only after the
lease was released and the client unbound. -/
namespace PhysicalAiRuntime.Control
open Authority Provider
set_option autoImplicit false
set_option maxHeartbeats 250000
set_option linter.unusedSectionVars false

variable {ι : Type} [DecidableEq ι]

namespace World

/-! ## All or nothing -/

/-- What became of the lease of an exiting session: the exit was counted as displaced, or the
release of exactly this lease was attempted. -/
def LeaseSettled (w w' : World ι) (i : ι) (answer : ReleaseAnswer) : Prop :=
  (w.isExplicitlyDisplaced i = true ∧ w'.released = w.released ∧
    (w'.session i).diagnostics.displacedExits = (w.session i).diagnostics.displacedExits + 1) ∨
  ∃ l, (w.session i).leaseId = some l ∧ l ≠ "" ∧
    w'.released = w.released ++ if answer.sends then [l] else []

/-- The cleanup ran to its end. -/
structure ExitCompleted (w w' : World ι) (i : ι) (answer : ReleaseAnswer) : Prop where
  lease : LeaseSettled w w' i answer
  unbound : (w'.session i).client.Unbound
  offStack : i ∉ w'.controlStack
  notEntered : (w'.session i).entered = false

/-- The exit was refused and nothing happened. -/
structure ExitRefused (w w' : World ι) (i : ι) (result : Except PyError Unit) : Prop where
  raised : ∃ e, result = .error e
  notReleased : w'.released = w.released
  bound : ¬ (w'.session i).client.Unbound
  entered : (w'.session i).entered = true
  onStack : w'.controlStack = w.controlStack

def ExitAllOrNothing (w : World ι) (i : ι) (bodyRaised : Bool) (answer : ReleaseAnswer) : Prop :=
  ExitCompleted w (w.exit i bodyRaised answer).1 i answer ∨
    ExitRefused w (w.exit i bodyRaised answer).1 i (w.exit i bodyRaised answer).2

theorem not_displaced_lease {w : World ι} {i : ι} (h : w.isExplicitlyDisplaced i = false) :
    ∃ l, (w.session i).leaseId = some l ∧ l ≠ "" := by
  rw [← truthy_iff]
  by_contra ht
  unfold isExplicitlyDisplaced at h
  simp [ht] at h

theorem releaseClaim_lease {w : World ι} {i : ι} {l : String}
    (hl : (w.session i).leaseId = some l) (hne : l ≠ "") (answer : ReleaseAnswer) :
    w.releaseClaim i answer =
      ({ w with released := w.released ++ if answer.sends then [l] else [] },
        match (ExecutionManagerClient.release l answer).2 with
        | .ok () => none
        | .error e => some e) := by
  have hsent := ExecutionManagerClient.release_sent_iff l answer
  have hreleased : (if (ExecutionManagerClient.release l answer).1 = true
      then w.released ++ [l] else w.released) =
      w.released ++ if answer.sends then [l] else [] := by
    by_cases hu : answer.sends = true
    · rw [if_pos (hsent.mpr ⟨hne, hu⟩), if_pos hu]
    · rw [if_neg (fun hs => hu (hsent.mp hs).2), if_neg hu, List.append_nil]
  unfold releaseClaim
  rw [hl, ← hreleased]
  exact if_neg hne

theorem exitRelease_displaced {w : World ι} {i : ι} (h : w.isExplicitlyDisplaced i = true)
    (answer : ReleaseAnswer) :
    w.exitRelease i answer = (w.setSession i { w.session i with
      diagnostics := { (w.session i).diagnostics with
        displacedExits := (w.session i).diagnostics.displacedExits + 1 } }, none) := by
  simp [exitRelease, h]

theorem exitRelease_released {w : World ι} {i : ι} {l : String}
    (h : w.isExplicitlyDisplaced i = false) (hl : (w.session i).leaseId = some l) (hne : l ≠ "")
    (answer : ReleaseAnswer) :
    (w.exitRelease i answer).1 =
        { w with released := w.released ++ if answer.sends then [l] else [] } ∧
      (w.exitRelease i answer).2 = match (ExecutionManagerClient.release l answer).2 with
        | .ok () => none
        | .error e => some e := by
  have hx : w.exitRelease i answer = w.releaseClaim i answer := by
    simp [exitRelease, h]
  rw [hx, releaseClaim_lease hl hne]
  exact ⟨rfl, rfl⟩

/-- The `try` block settles the lease and touches nothing else that an exit is about. -/
theorem exitRelease_settles (w : World ι) (i : ι) (answer : ReleaseAnswer) :
    LeaseSettled w (w.exitRelease i answer).1 i answer ∧
      (w.exitRelease i answer).1.controlStack = w.controlStack ∧
      ((w.exitRelease i answer).1.session i).entered = (w.session i).entered := by
  cases hd : w.isExplicitlyDisplaced i with
  | true =>
    rw [exitRelease_displaced hd]
    refine ⟨Or.inl ⟨hd, rfl, ?_⟩, rfl, ?_⟩ <;> rw [setSession_self]
  | false =>
    obtain ⟨l, hl, hne⟩ := not_displaced_lease hd
    rw [(exitRelease_released hd hl hne answer).1]
    exact ⟨Or.inr ⟨l, hl, hne, rfl⟩, rfl, rfl⟩

theorem leave_session (w : World ι) (i : ι) : (w.leave i).1.session i =
    if w.controlStack.getLast? = some i then (w.session i).closed
    else (w.session i).unbindClient := by
  by_cases hl : w.controlStack.getLast? = some i
  · rw [leave_last hl, if_pos hl]
    exact setSession_self w i _
  · rw [leave_refused hl, if_neg hl]
    exact setSession_self w i _

theorem leave_keeps (w : World ι) (i : ι) :
    (w.leave i).1.released = w.released ∧
      ((w.leave i).1.session i).diagnostics = (w.session i).diagnostics := by
  refine ⟨leave_released w i, ?_⟩
  rw [leave_session]
  by_cases hl : w.controlStack.getLast? = some i
  · rw [if_pos hl]
    rfl
  · rw [if_neg hl]
    rfl

theorem LeaseSettled.leave {w w' : World ι} {i : ι} {answer : ReleaseAnswer}
    (h : LeaseSettled w w' i answer) : LeaseSettled w (w'.leave i).1 i answer := by
  obtain ⟨hreleased, hdiagnostics⟩ := leave_keeps w' i
  unfold LeaseSettled
  rw [hreleased, hdiagnostics]
  exact h

/-- Leaving from the top of the stack finishes the cleanup. -/
theorem leave_completes {w : World ι} (h : w.StackInv) {i : ι}
    (hl : w.controlStack.getLast? = some i) :
    ((w.leave i).1.session i).entered = false ∧ i ∉ (w.leave i).1.controlStack ∧
      ((w.leave i).1.session i).client.Unbound := by
  obtain ⟨outer, ho⟩ := List.getLast?_eq_some_iff.mp hl
  have hn := h.nodup
  rw [ho, List.nodup_append] at hn
  exact leave_closes ho fun hm => hn.2.2 i hm i (List.mem_singleton_self i) rfl

/-- Anywhere else the client is unbound all the same, and the session stays entered. -/
theorem leave_halfway {w : World ι} {i : ι} (hl : w.controlStack.getLast? ≠ some i) :
    ((w.leave i).1.session i).client.Unbound ∧
      ((w.leave i).1.session i).entered = (w.session i).entered := by
  rw [leave_session, if_neg hl]
  exact ⟨ActionProviderClient.unbound_unbind _, rfl⟩

theorem exit_allOrNothing {w : World ι} (h : w.StackInv) {i : ι}
    (hentered : (w.session i).entered = true) (bodyRaised : Bool) (answer : ReleaseAnswer) :
    ExitAllOrNothing w i bodyRaised answer ↔ w.controlStack.getLast? = some i := by
  obtain ⟨hlease, hstack, hsame⟩ := exitRelease_settles w i answer
  unfold ExitAllOrNothing
  rw [exit_fst]
  constructor
  · intro hx
    by_contra hl
    rw [← hstack] at hl
    obtain ⟨hunbound, hkept⟩ := leave_halfway hl
    rcases hx with hdone | hnone
    · rw [hsame, hentered, hdone.notEntered] at hkept
      exact absurd hkept Bool.false_ne_true
    · exact hnone.bound hunbound
  · intro hl
    have hinv : (w.exitRelease i answer).1.StackInv := h.of_keeps (exitRelease_keeps w i answer)
    rw [← hstack] at hl
    obtain ⟨hnot, hoff, hunbound⟩ := leave_completes hinv hl
    exact Or.inl ⟨hlease.leave, hunbound, hoff, hnot⟩

/-- After any run, an exit of an entered session is all or nothing exactly when the session is the
last one on the control stack. -/
theorem exit_allOrNothing_iff (now : ℚ) (timeouts : Timeouts) (config : ι → SessionConfig)
    (sourceClient : ι → ActionProviderClient) (ls : List (Label ι)) (w : World ι) (i : ι)
    (bodyRaised : Bool) (answer : ReleaseAnswer)
    (hw : w = Trace.run step (init now timeouts config sourceClient) ls)
    (hentered : (w.session i).entered = true) :
    ExitAllOrNothing w i bodyRaised answer ↔ w.controlStack.getLast? = some i := by
  have hinv : w.StackInv := hw ▸ stackInv_run (stackInv_init now timeouts config sourceClient) ls
  exact exit_allOrNothing hinv hentered bodyRaised answer

def gripperSource : Agent where
  name := "gripper"
  sourceRole := .policy
  sourceInstance := "policy"
  metadata := []
  resources := Dict.ofPairs [("gripper", "joint_reference")]
  config := none

def gripperConfig : SessionConfig :=
  ⟨gripperSource, ["gripper"], false, 1, by decide, by decide, armConfig.acquireTimeout_pos⟩

def gripperEndpoint : EndpointBinding :=
  ⟨"gripper", "joint_reference", "/gripper/joint_reference", false⟩

def armOrGripper : Bool → SessionConfig
  | true => armConfig
  | false => gripperConfig

def armAndGripper : World Bool :=
  init 0 Timeouts.default armOrGripper fun _ => ActionProviderClient.new none

/-- The arm is entered first, the gripper inside it. -/
def armThenGripper : List (Label Bool) :=
  [.enter true (.response ⟨true, "", "lease-1", [armEndpoint]⟩),
    .enter false (.response ⟨true, "", "lease-2", [gripperEndpoint]⟩),
    .callback (.status ⟨[⟨"arm", .owned, "lease-1", 1, "teleop", "joint_reference", "", []⟩,
      ⟨"gripper", .owned, "lease-2", 0, "policy", "joint_reference", "", []⟩]⟩),
    .poll true (.response true ""), .poll false (.response true "")]

/-- The inner session exits completely. -/
theorem exit_allOrNothing_gripper :
    ExitAllOrNothing (Trace.run step armAndGripper armThenGripper) false false
      (.response true "") := by
  have hentered : ((Trace.run step armAndGripper armThenGripper).session false).entered = true := by
    decide +kernel
  have hlast : (Trace.run step armAndGripper armThenGripper).controlStack.getLast? =
      some false := by
    decide +kernel
  exact (exit_allOrNothing_iff 0 Timeouts.default armOrGripper
    (fun _ => ActionProviderClient.new none) armThenGripper
    (Trace.run step armAndGripper armThenGripper) false false (.response true "") rfl
    hentered).mpr hlast

/-- Closing the outer session first raises after its lease was released: the arm is left unbound,
entered and on the stack. -/
theorem exit_halfway :
    ¬ ExitAllOrNothing (Trace.run step armAndGripper armThenGripper) true false
      (.response true "") := by
  intro hx
  rcases hx with hdone | hnone
  · have hentered : ((((Trace.run step armAndGripper armThenGripper).exit true false
        (.response true "")).1).session true).entered = true := by decide +kernel
    rw [hdone.notEntered] at hentered
    exact absurd hentered Bool.false_ne_true
  · have hreleased : (((Trace.run step armAndGripper armThenGripper).exit true false
        (.response true "")).1).released = ["lease-1"] := by decide +kernel
    rw [hnone.notReleased] at hreleased
    exact absurd hreleased (by decide +kernel)

/-! ## Evidence of displacement -/

/-- The events a run delivers, oldest first. -/
def eventsReceived (ls : List (Label ι)) : List AuthorityEvent :=
  ls.filterMap fun
    | .callback (.event e) => some e
    | _ => none

/-- The last status has not expired and gives some part of the session to another lease. -/
def StatusNamesOther (w : World ι) (i : ι) (l : String) : Prop :=
  ∃ t m, w.lastStatus = some (t, m) ∧ w.now - t ≤ w.selection.statusTimeoutSec ∧
    ∃ part ∈ (w.session i).config.parts, ∃ a, m.allocations.get? part = some a ∧
      a.leaseId ≠ "" ∧ a.leaseId ≠ l

/-- One of the last `eventCapacity` events received says that the lease was preempted. -/
def PreemptedLately (received : List AuthorityEvent) (l : String) : Prop :=
  ∃ e ∈ received.drop (received.length - eventCapacity), e.leaseId = l ∧ e.type = .preempted

theorem step_events (w : World ι) (l : Label ι) :
    (w.step l).selection.events =
      match l with
      | .callback (.event e) => w.selection.events.append e
      | _ => w.selection.events := by
  rcases step_leases w l with ⟨c, rfl⟩ | hs | ⟨i, r, rfl, -, ht⟩
  · cases c <;> rfl
  · rw [hs.selection]
    cases l with
    | callback c =>
      cases c with
      | event e =>
        have h := congrArg ExecutionManagerClient.events hs.selection
        exact h.symm
      | status m => rfl
      | advance d => rfl
    | _ => rfl
  · rw [ht.selection]

/-- The queue holds the last events of everything that was received. -/
theorem events_run {w : World ι} {given : List AuthorityEvent}
    (h : w.selection.events.items = given.drop (given.length - eventCapacity))
    (ls : List (Label ι)) :
    (Trace.run step w ls).selection.events.items =
      (given ++ eventsReceived ls).drop ((given ++ eventsReceived ls).length - eventCapacity) := by
  induction ls generalizing w given with
  | nil =>
    rw [Trace.run_nil, show eventsReceived ([] : List (Label ι)) = [] from rfl, List.append_nil]
    exact h
  | cons l ls ih =>
    have hstep := step_events w l
    rw [Trace.run_cons]
    by_cases he : ∃ e, l = .callback (.event e)
    · obtain ⟨e, rfl⟩ := he
      have hq : (w.step (.callback (.event e))).selection.events.items =
          (given ++ [e]).drop ((given ++ [e]).length - eventCapacity) := by
        rw [hstep]
        exact Deque.append_items h e
      have hr : given ++ eventsReceived (.callback (.event e) :: ls) =
          given ++ [e] ++ eventsReceived ls := by
        rw [List.append_assoc]
        rfl
      rw [hr]
      exact ih hq
    · have hq : (w.step l).selection.events = w.selection.events := by
        rw [hstep]
        split
        · exact absurd ⟨_, rfl⟩ he
        · rfl
      have hr : eventsReceived (l :: ls) = eventsReceived ls := by
        refine List.filterMap_cons_none ?_
        split
        · exact absurd ⟨_, rfl⟩ he
        · rfl
      rw [hr]
      exact ih (hq ▸ h)

/-- A fresh message is what the process acts on. -/
theorem StatusInv.allocations_of_fresh {w : World ι} (h : w.StatusInv) {t : ℚ}
    {m : AuthorityStatus} (hl : w.lastStatus = some (t, m))
    (hfresh : w.now - t ≤ w.selection.statusTimeoutSec) : w.allocations = m.allocations := by
  unfold StatusInv at h
  rw [hl] at h
  obtain ⟨h1, h2⟩ := h
  have hf : w.selection.statusFresh w.now = true := by
    simp [ExecutionManagerClient.statusFresh, h1, not_lt.mpr hfresh]
  unfold allocations ExecutionManagerClient.getAllocations
  rw [hf, if_pos rfl, h2]

theorem isExplicitlyDisplaced_iff {w : World ι} (h : w.StatusInv) {i : ι} {l : String}
    (hl : (w.session i).leaseId = some l) (hne : l ≠ "") :
    w.isExplicitlyDisplaced i = true ↔ StatusNamesOther w i l ∨
      ∃ e ∈ w.selection.events.items, e.leaseId = l ∧ e.type = .preempted := by
  have htruthy : truthy (some l) = true := truthy_iff.mpr ⟨l, rfl, hne⟩
  unfold isExplicitlyDisplaced
  simp only [hl, htruthy, not_true_eq_false, if_false, Bool.or_eq_true]
  refine or_congr ?_ ?_
  · rw [List.any_eq_true]
    constructor
    · intro hany
      obtain ⟨part, hp, hpart⟩ := hany
      cases ha : w.allocations.get? part with
      | none => simp [ha] at hpart
      | some a =>
        obtain ⟨t, m, hm, hfresh, hget⟩ := h.allocations_some ha
        have hother : a.leaseId ≠ "" ∧ a.leaseId ≠ l := by simpa [ha] using hpart
        exact ⟨t, m, hm, hfresh, part, hp, a, hget, hother⟩
    · intro hnames
      obtain ⟨t, m, hm, hfresh, part, hp, a, hget, hother⟩ := hnames
      refine ⟨part, hp, ?_⟩
      rw [h.allocations_of_fresh hm hfresh, hget]
      simpa using hother
  · simp [ExecutionManagerClient.getEvents]

/-! ## The lease of a session -/

/-- Only an entry of the session itself gives it another lease. -/
theorem step_leaseId {w : World ι} {i : ι} {l : Label ι} (h : ∀ answer, l ≠ .enter i answer) :
    ((w.step l).session i).leaseId = (w.session i).leaseId := by
  rcases step_leases w l with ⟨c, rfl⟩ | hs | ⟨j, r, rfl, -, ht⟩
  · cases c <;> rfl
  · exact hs.leaseId i
  · have hj : i ≠ j := fun he => h (.response r) (he ▸ rfl)
    exact ht.otherLease i hj

theorem run_leaseId {i : ι} {ls : List (Label ι)} (h : ∀ answer, Label.enter i answer ∉ ls)
    (w : World ι) : ((Trace.run step w ls).session i).leaseId = (w.session i).leaseId := by
  induction ls generalizing w with
  | nil => rfl
  | cons l ls ih =>
    have hl : ∀ answer, l ≠ .enter i answer := by
      intro answer he
      exact h answer (he ▸ List.mem_cons_self)
    have hls : ∀ answer, Label.enter i answer ∉ ls := by
      intro answer hm
      exact h answer (List.mem_cons_of_mem l hm)
    rw [Trace.run_cons, ih hls, step_leaseId hl]

/-- An `__enter__` returns with a lease: without one the session is never active. -/
theorem enterPoll_returns {w : World ι} {i : ι} {deadline : ℚ} {answer : ReleaseAnswer}
    (h : (w.enterPoll i deadline answer).2 = some (.ok ())) :
    ∃ l, (w.session i).leaseId = some l ∧ l ≠ "" := by
  rcases enterPoll_cases w i deadline answer with ⟨ha, -⟩ | ⟨-, -, hp⟩ | ⟨-, -, e, hp⟩
  · unfold active at ha
    simp only [Bool.and_eq_true] at ha
    exact truthy_iff.mp ha.1.2
  · rw [hp] at h
    cases h
  · rw [hp] at h
    cases h

/-! ## What an exit releases -/

/-- One exit of a session with lease `l` that has received the events `received`. A `release` call
names `l`. -/
structure ExitReleasesOwn (w : World ι) (i : ι) (l : String) (received : List AuthorityEvent)
    (bodyRaised : Bool) (answer : ReleaseAnswer) : Prop where
  displaced : StatusNamesOther w i l ∨ PreemptedLately received l →
    (w.exit i bodyRaised answer).1.released = w.released ∧
      ((w.exit i bodyRaised answer).1.session i).diagnostics.displacedExits =
        (w.session i).diagnostics.displacedExits + 1
  released : ¬ (StatusNamesOther w i l ∨ PreemptedLately received l) →
    (w.exit i bodyRaised answer).1.released =
        w.released ++ (if answer.sends then [l] else []) ∧
      ((w.exit i bodyRaised answer).1.session i).diagnostics.displacedExits =
        (w.session i).diagnostics.displacedExits
  raised : ∀ e, (w.exit i bodyRaised answer).2 = .error e →
    e = ⟨.runtimeError, "control sessions must exit in stack order"⟩ ∨
    (bodyRaised = false ∧ ¬ (StatusNamesOther w i l ∨ PreemptedLately received l) ∧
      (ExecutionManagerClient.release l answer).2 = .error e)
  reported : ∀ e, w.controlStack.getLast? = some i → bodyRaised = false →
    ¬ (StatusNamesOther w i l ∨ PreemptedLately received l) →
    (ExecutionManagerClient.release l answer).2 = .error e →
    (w.exit i bodyRaised answer).2 = .error e

/-- How `__exit__` ends, given what its `try` block did. -/
theorem exit_snd (w : World ι) (i : ι) (bodyRaised : Bool) (answer : ReleaseAnswer) :
    (w.exit i bodyRaised answer).2 =
      if (w.exitRelease i answer).1.controlStack.getLast? = some i then
        match (w.exitRelease i answer).2 with
        | none => .ok ()
        | some e => if bodyRaised then .ok () else .error e
      else .error ⟨.runtimeError, "control sessions must exit in stack order"⟩ := by
  unfold exit
  cases hr : w.exitRelease i answer with
  | mk w' releaseError =>
    by_cases hl : w'.controlStack.getLast? = some i
    · simp only [leave_last hl, if_pos hl]
      cases releaseError with
      | none => rfl
      | some e => cases bodyRaised <;> rfl
    · simp only [leave_refused hl, if_neg hl]

/-- The release error of an exit is reported unless the body raised or the pop is refused. -/
theorem exit_released_snd {w : World ι} {i : ι} {l : String}
    (h : w.isExplicitlyDisplaced i = false) (hl : (w.session i).leaseId = some l) (hne : l ≠ "")
    (bodyRaised : Bool) (answer : ReleaseAnswer) :
    (w.exit i bodyRaised answer).2 =
      if w.controlStack.getLast? = some i then
        if bodyRaised then .ok () else (ExecutionManagerClient.release l answer).2
      else .error ⟨.runtimeError, "control sessions must exit in stack order"⟩ := by
  obtain ⟨hfst, hsnd⟩ := exitRelease_released h hl hne answer
  rw [exit_snd, hfst, hsnd]
  by_cases hlast : w.controlStack.getLast? = some i
  · rw [if_pos hlast, if_pos hlast]
    cases (ExecutionManagerClient.release l answer).2 with
    | ok u => cases bodyRaised <;> rfl
    | error e => rfl
  · rw [if_neg hlast, if_neg hlast]

theorem exit_releasesOwn {w : World ι} (h : w.StatusInv) {i : ι} {l : String}
    (hl : (w.session i).leaseId = some l) (hne : l ≠ "") {received : List AuthorityEvent}
    (hevents : w.selection.events.items = received.drop (received.length - eventCapacity))
    (bodyRaised : Bool) (answer : ReleaseAnswer) :
    ExitReleasesOwn w i l received bodyRaised answer := by
  have hiff := isExplicitlyDisplaced_iff h hl hne
  rw [hevents] at hiff
  change _ ↔ StatusNamesOther w i l ∨ PreemptedLately received l at hiff
  obtain ⟨hreleased, hdiagnostics⟩ := leave_keeps (w.exitRelease i answer).1 i
  rw [← exit_fst w i bodyRaised] at hreleased hdiagnostics
  cases hd : w.isExplicitlyDisplaced i with
  | true =>
    have hshown := hiff.mp hd
    have hx := exitRelease_displaced hd answer
    rw [hx] at hreleased hdiagnostics
    refine ⟨fun _ => ⟨hreleased, ?_⟩, fun hn => absurd hshown hn, fun e he => Or.inl ?_,
      fun _ _ _ hn => absurd hshown hn⟩
    · rw [hdiagnostics, setSession_self]
    · rw [exit_snd, hx] at he
      change (if w.controlStack.getLast? = some i then _ else _) = _ at he
      by_cases hlast : w.controlStack.getLast? = some i
      · rw [if_pos hlast] at he
        cases he
      · rw [if_neg hlast] at he
        exact (Except.error.inj he).symm
  | false =>
    have hnot : ¬ (StatusNamesOther w i l ∨ PreemptedLately received l) := by
      rw [← hiff, hd]
      exact Bool.false_ne_true
    obtain ⟨hfst, -⟩ := exitRelease_released hd hl hne answer
    have hend := exit_released_snd hd hl hne bodyRaised answer
    rw [hfst] at hreleased hdiagnostics
    refine ⟨fun hs => absurd hs hnot, fun _ => ⟨hreleased, congrArg _ hdiagnostics⟩,
      fun e he => ?_, fun e hlast hbody _ he => ?_⟩
    · rw [hend] at he
      by_cases hlast : w.controlStack.getLast? = some i
      · rw [if_pos hlast] at he
        cases bodyRaised with
        | true => cases he
        | false => exact Or.inr ⟨rfl, hnot, he⟩
      · rw [if_neg hlast] at he
        exact Or.inl (Except.error.inj he).symm
    · rw [hend, if_pos hlast, hbody]
      exact he

/-- A session whose `__enter__` returned and that was not entered again exits under the lease of
that entry, which it releases unless what the client received shows that the lease was displaced. -/
theorem exit_releases_own_lease (now : ℚ) (timeouts : Timeouts) (config : ι → SessionConfig)
    (sourceClient : ι → ActionProviderClient) (pre body : List (Label ι)) (i : ι) (deadline : ℚ)
    (pollAnswer : ReleaseAnswer) (bodyRaised : Bool) (answer : ReleaseAnswer) (w : World ι)
    (hreturned : ((Trace.run step (init now timeouts config sourceClient) pre).enterPoll i deadline
      pollAnswer).2 = some (.ok ()))
    (hbody : ∀ claim, Label.enter i claim ∉ body)
    (hw : w = Trace.run step (init now timeouts config sourceClient)
      (pre ++ .poll i pollAnswer :: body)) :
    ∃ l, (w.session i).leaseId = some l ∧ l ≠ "" ∧
      ExitReleasesOwn w i l (eventsReceived (pre ++ .poll i pollAnswer :: body)) bodyRaised
        answer := by
  obtain ⟨l, hl, hne⟩ := enterPoll_returns hreturned
  have hinit : (init now timeouts config sourceClient).StatusInv := rfl
  have hstatus : w.StatusInv := hw ▸ statusInv_run hinit _
  have hlease : (w.session i).leaseId = some l := by
    have hbody' : ∀ claim, Label.enter i claim ∉ Label.poll i pollAnswer :: body := by
      intro claim hm
      rcases List.mem_cons.mp hm with he | hm
      · cases he
      · exact hbody claim hm
    rw [hw, Trace.run_append, run_leaseId hbody', hl]
  have hempty : (init now timeouts config sourceClient).selection.events.items =
      ([] : List AuthorityEvent).drop (([] : List AuthorityEvent).length - eventCapacity) :=
    List.drop_nil.symm
  have hevents := events_run hempty (pre ++ .poll i pollAnswer :: body)
  rw [List.nil_append, ← hw] at hevents
  exact ⟨l, hlease, hne, exit_releasesOwn hstatus hlease hne hevents bodyRaised answer⟩

/-- The arm is entered and confirmed, and the confirmation expires. -/
def armConfirmed : List (Label Unit) :=
  [.enter () (.response ⟨true, "", "lease-1", [armEndpoint]⟩),
    .callback (.status (Deployment.armStatus "lease-1"))]

def armExpired : World Unit :=
  Trace.run step armWorld
    (armConfirmed ++ .poll () (.response true "") :: [.callback (.advance 4)])

/-- An expired confirmation is no evidence of displacement. -/
theorem armExpired_undisplaced (l : String) :
    ¬ (StatusNamesOther armExpired () l ∨ PreemptedLately [] l) := by
  have hstatus : armExpired.lastStatus = some (0, Deployment.armStatus "lease-1") := by
    decide +kernel
  rintro (⟨t, m, ht, hfresh, -⟩ | ⟨e, he, -⟩)
  · rw [hstatus] at ht
    cases ht
    exact absurd hfresh (by decide +kernel)
  · rw [List.drop_nil] at he
    exact absurd he List.not_mem_nil

/-- The arm's lease is released. -/
theorem exit_releases_own_lease_arm :
    (armExpired.exit () false (.response true "")).1.released = ["lease-1"] := by
  have hreturned : ((Trace.run step armWorld armConfirmed).enterPoll () 1
      (.response true "")).2 = some (.ok ()) := by
    decide +kernel
  have hbody : ∀ claim, Label.enter () claim ∉ ([.callback (.advance 4)] : List (Label Unit)) := by
    intro claim hm
    cases List.mem_singleton.mp hm
  obtain ⟨l, hl, -, hx⟩ := exit_releases_own_lease 0 Timeouts.default (fun _ => armConfig)
    (fun _ => ActionProviderClient.new none) armConfirmed [.callback (.advance 4)] () 1
    (.response true "") false (.response true "") armExpired hreturned hbody rfl
  have hlease : (armExpired.session ()).leaseId = some "lease-1" := by decide +kernel
  have hreleased : armExpired.released = [] := by decide +kernel
  rw [hl] at hlease
  rw [(hx.released (armExpired_undisplaced l)).1, hreleased, Option.some.inj hlease]
  rfl

/-- Where the release service does not come up, the undisplaced arm exits without a request. -/
theorem exit_unavailable_releases_nothing :
    (armExpired.session ()).leaseId = some "lease-1" ∧
      ¬ (StatusNamesOther armExpired () "lease-1" ∨ PreemptedLately [] "lease-1") ∧
      (armExpired.exit () false .unavailable).1.released ≠
        armExpired.released ++ ["lease-1"] := by
  refine ⟨?_, armExpired_undisplaced "lease-1", ?_⟩
  · decide +kernel
  · decide +kernel

end World
end PhysicalAiRuntime.Control
