import PhysicalAiRuntime.Apps.Teleop

/-! When teleoperation leaves a session behind. The sessions of a finished engagement are in the
active stack, which every way out of the loop closes; those of an engagement under way are only in
its candidate stack, which an interrupt does not close. -/
namespace PhysicalAiRuntime.Apps
open Authority Provider Control Trace
set_option autoImplicit false
set_option maxHeartbeats 250000

namespace Teleop

/-- No session is left at the STANDBY prompt, nor when `ctx.close()` is called, and by then every
session whose entry returned has had its exit run. -/
structure Clean (s : Teleop) : Prop where
  standby : s.phase = .prompt → s.isActive = false →
    (∀ i, (s.world.session i).entered = false) ∧ s.sessions = Dict.empty
  closed : s.phase = .closed →
    (∀ i ∈ s.entries, i ∈ s.exits) ∧ ∀ i, (s.world.session i).entered = false

/-- An interrupt of an engagement one of whose sessions is entered, which includes the session
whose confirmation it waits for. -/
def Strands (s : Teleop) (l : Label) : Prop :=
  match l, s.phase with
  | .interrupt, .claiming _ => s.candidate ≠ []
  | .interrupt, .waiting _ => True
  | .interruptRelease _, .waiting k => s.candidate ≠ [] ∧
    ∃ deadline, s.world.waiting (s.engagement, k) = some deadline ∧
      s.world.active (s.engagement, k) = false ∧ deadline ≤ s.world.now
  | _, _ => False

/-! ## What the control stack holds -/

theorem enterClaim_controlStack {w w' : World SessionId} {i : SessionId} {answer : ClaimAnswer}
    {result : Except PyError Unit} (h : w.enterClaim i answer = (w', result)) :
    w'.controlStack = w.controlStack ++ (if result = .ok () then [i] else []) := by
  rcases World.enterClaim_cases w i answer with ⟨-, e, hc⟩ | ⟨g, -, -, ⟨-, e, hc⟩ | ⟨-, hc⟩⟩
  · rw [hc] at h
    cases h
    simp
  · rw [hc] at h
    cases h
    simp [World.recordGrant, World.setSession]
  · rw [hc] at h
    cases h
    simp [World.beginWait, World.pushControl, World.recordGrant, World.setSession]

theorem leave_controlStack {w : World SessionId} {i : SessionId} {outer : List SessionId}
    (h : w.controlStack = outer ++ [i]) : (w.leave i).1.controlStack = outer := by
  have hlast : w.controlStack.getLast? = some i := by rw [h, List.getLast?_concat]
  rw [World.leave_last hlast]
  show w.controlStack.dropLast = outer
  rw [h, List.dropLast_concat]

theorem releaseClaim_controlStack (w : World SessionId) (i : SessionId) (answer : ReleaseAnswer) :
    (w.releaseClaim i answer).1.controlStack = w.controlStack :=
  (World.releaseClaim_keeps w i answer).controlStack

theorem exit_controlStack {w : World SessionId} {i : SessionId} {outer : List SessionId}
    (h : w.controlStack = outer ++ [i]) (bodyRaised : Bool) (answer : ReleaseAnswer) :
    (w.exit i bodyRaised answer).1.controlStack = outer := by
  rw [World.exit_fst]
  apply leave_controlStack
  rw [(World.exitRelease_keeps w i answer).controlStack, h]

theorem leaveInterrupted_controlStack {w : World SessionId} {i : SessionId}
    {outer : List SessionId} (h : w.controlStack = outer ++ [i]) (sent : Bool) :
    (leaveInterrupted w i sent).controlStack = outer := by
  unfold leaveInterrupted
  apply leave_controlStack
  cases sent with
  | true => exact (releaseClaim_controlStack w i _).trans h
  | false => exact h

theorem stackInv_leaveInterrupted {w : World SessionId} (h : w.StackInv) (i : SessionId)
    (sent : Bool) : (leaveInterrupted w i sent).StackInv := by
  unfold leaveInterrupted
  apply World.stackInv_leave
  cases sent with
  | true => exact World.stackInv_releaseClaim h i _
  | false => exact h

/-! ## The invariant -/

/-- The control stack is `stack`, and every session whose entry returned is in it or has exited. -/
structure Ledger (w : World SessionId) (entries exits stack : List SessionId) : Prop where
  stackInv : w.StackInv
  controlStack : w.controlStack = stack
  accounted : ∀ i ∈ entries, i ∈ exits ∨ i ∈ stack

def Holds (s : Teleop) (stack : List SessionId) : Prop :=
  Ledger s.world s.entries s.exits stack

/-- The session of the `k`-th leader is entered and not yet in the candidate stack. -/
def Waits (s : Teleop) (k : ℕ) : Prop :=
  s.world.StackInv ∧ s.world.controlStack = s.candidate ++ [(s.engagement, k)] ∧
    ∀ i ∈ s.entries, i ∈ s.exits ∨ i ∈ s.candidate

def PhaseInv (s : Teleop) : Prop :=
  match s.phase with
  | .prompt => s.candidate = [] ∧
    (s.isActive = false → s.activeStack = none ∧ s.sessions = Dict.empty) ∧
    s.Holds (s.activeStack.getD [])
  | .claiming _ => s.activeStack = none ∧ s.isActive = true ∧ s.Holds s.candidate
  | .waiting k => s.activeStack = none ∧ s.isActive = true ∧ s.Waits k
  | .discarding _ => s.activeStack = none ∧ s.Holds s.candidate
  | .preempting => s.candidate = [] ∧ s.isActive = true ∧ s.Holds (s.activeStack.getD [])
  | .releasing _ => s.candidate = [] ∧ s.Holds (s.activeStack.getD [])
  | .closing _ _ => s.candidate = [] ∧ s.sessions = Dict.empty ∧
    s.Holds (s.activeStack.getD [])
  | .closed => s.Holds []
  | .aborted => True

theorem clean_of_phaseInv {s : Teleop} (h : s.PhaseInv) : s.Clean := by
  have hnone : s.Holds [] → ∀ i, (s.world.session i).entered = false := by
    intro hholds i
    have hentered := hholds.stackInv.entered i
    rw [hholds.controlStack] at hentered
    exact Bool.eq_false_of_not_eq_true fun he => absurd (hentered.mp he) List.not_mem_nil
  unfold PhaseInv at h
  refine ⟨fun hphase hidle => ?_, fun hphase => ?_⟩
  · rw [hphase] at h
    obtain ⟨hactive, hsessions⟩ := h.2.1 hidle
    have hholds := h.2.2
    rw [hactive] at hholds
    exact ⟨hnone hholds, hsessions⟩
  · rw [hphase] at h
    refine ⟨fun i hi => ?_, hnone h⟩
    exact (h.accounted i hi).resolve_right List.not_mem_nil

/-! ## Leaving the loop -/

theorem phaseInv_finalize {s : Teleop} (h : s.Holds (s.activeStack.getD [])) :
    s.finalize.PhaseInv := ⟨rfl, h⟩

theorem phaseInv_released {s : Teleop} (h : s.Holds []) (hcandidate : s.candidate = [])
    (hsessions : s.sessions = Dict.empty) (last : Bool) : (s.released last).PhaseInv := by
  cases last with
  | true => exact h
  | false => exact ⟨hcandidate, fun _ => ⟨rfl, hsessions⟩, h⟩

theorem phaseInv_closeActive {s : Teleop} (h : s.Holds (s.activeStack.getD []))
    (hcandidate : s.candidate = []) (hsessions : s.sessions = Dict.empty) (last : Bool)
    (pending : Option Raised) : (s.closeActive last pending).PhaseInv := by
  unfold closeActive
  cases hstack : s.activeStack with
  | none =>
    rw [hstack] at h
    exact phaseInv_released h hcandidate hsessions last
  | some stack =>
    cases stack with
    | nil =>
      have hempty : s.Holds [] := by
        rw [hstack] at h
        exact h
      have hreleased := phaseInv_released hempty hcandidate hsessions last
      show (s.closedStack last pending).PhaseInv
      unfold closedStack
      cases pending with
      | none => exact hreleased
      | some raised =>
        cases raised with
        | exception => exact hreleased
        | keyboardInterrupt =>
          cases last with
          | true => exact trivial
          | false => exact phaseInv_finalize h
    | cons i stack =>
      rw [hstack] at h
      exact ⟨hcandidate, hsessions, h⟩

theorem phaseInv_discard {s : Teleop} (h : s.Holds s.candidate) (hactive : s.activeStack = none)
    (pending : Option Raised) : (s.discard pending).PhaseInv := by
  unfold discard
  cases hcandidate : s.candidate with
  | nil =>
    rw [hcandidate] at h
    apply phaseInv_finalize
    show Holds _ (s.activeStack.getD [])
    rw [hactive]
    exact h
  | cons i rest =>
    rw [hcandidate] at h
    exact ⟨hactive, h⟩

theorem phaseInv_engagementFailed {s : Teleop} (h : s.Holds s.candidate)
    (hactive : s.activeStack = none) : s.engagementFailed.PhaseInv := by
  apply phaseInv_discard
  · exact h
  · exact hactive

theorem phaseInv_engage {s : Teleop} (h : s.Holds s.candidate) (hactive : s.activeStack = none)
    (hengaged : s.isActive = true) (k : ℕ) : (s.engage k).PhaseInv := by
  unfold engage
  by_cases hk : k < s.leaders.length
  · rw [if_pos hk]
    exact ⟨hactive, hengaged, h⟩
  · rw [if_neg hk]
    exact ⟨rfl, hengaged, h⟩

/-! ## Exits -/

/-- Running one exit puts the session in the ledger and, if it is the last one, takes it off the
control stack; the rest of the state is as it was. -/
def Exits (run : Teleop → SessionId → Option Raised → Teleop × Option Raised) : Prop :=
  ∀ s i pending, ∃ w, (run s i pending).1 = { s with world := w, exits := s.exits ++ [i] } ∧
    (s.world.StackInv → w.StackInv) ∧
    ∀ outer, s.world.controlStack = outer ++ [i] → w.controlStack = outer

theorem exits_exitOne (answer : ReleaseAnswer) :
    Exits fun s i pending => s.exitOne i pending answer := by
  intro s i pending
  refine ⟨(s.world.exit i pending.isSome answer).1, ?_,
    fun hinv => World.stackInv_exit hinv i _ answer,
    fun outer hstack => exit_controlStack hstack _ answer⟩
  show (s.exitOne i pending answer).1 = _
  unfold exitOne
  cases hexit : s.world.exit i pending.isSome answer with
  | mk w result =>
    cases result with
    | error e => rfl
    | ok u => rfl

theorem exits_interruptible (sent : Bool) :
    Exits fun s i pending =>
      if s.world.isExplicitlyDisplaced i then s.exitOne i pending .unavailable
      else s.exitInterrupted i sent := by
  intro s i pending
  simp only
  by_cases hdisplaced : s.world.isExplicitlyDisplaced i = true
  · rw [if_pos hdisplaced]
    exact exits_exitOne .unavailable s i pending
  · rw [if_neg hdisplaced]
    exact ⟨leaveInterrupted s.world i sent, rfl, fun hinv => stackInv_leaveInterrupted hinv i sent,
      fun outer hstack => leaveInterrupted_controlStack hstack sent⟩

theorem holds_exited {s : Teleop} {i : SessionId} {outer : List SessionId}
    (h : s.Holds (outer ++ [i])) {w : World SessionId} (hinv : w.StackInv)
    (hstack : w.controlStack = outer) :
    Holds { s with world := w, exits := s.exits ++ [i] } outer := by
  refine ⟨hinv, hstack, fun j hj => ?_⟩
  cases h.accounted j hj with
  | inl hexited => exact Or.inl (List.mem_append_left _ hexited)
  | inr hmem =>
    cases List.mem_append.mp hmem with
    | inl houter => exact Or.inr houter
    | inr hlast => exact Or.inl (List.mem_append_right _ hlast)

theorem phaseInv_exitStep {run : Teleop → SessionId → Option Raised → Teleop × Option Raised}
    (hrun : Exits run) {s : Teleop} (h : s.PhaseInv) : (s.exitStep run).PhaseInv := by
  have hs := h
  unfold PhaseInv at h
  unfold exitStep
  cases hphase : s.phase with
  | discarding pending =>
    rw [hphase] at h
    obtain ⟨hactive, hholds⟩ := h
    simp only
    cases hlast : s.candidate.getLast? with
    | none => exact hs
    | some i =>
      obtain ⟨outer, houter⟩ := List.getLast?_eq_some_iff.mp hlast
      obtain ⟨w, hw, hinv, hstack⟩ := hrun s i pending
      rw [houter] at hholds
      have hexited := holds_exited hholds (hinv hholds.stackInv) (hstack outer hholds.controlStack)
      show (discard { (run s i pending).1 with
        candidate := (run s i pending).1.candidate.dropLast } (run s i pending).2).PhaseInv
      rw [hw]
      apply phaseInv_discard
      · show Ledger w s.entries (s.exits ++ [i]) s.candidate.dropLast
        rw [houter, List.dropLast_concat]
        exact hexited
      · exact hactive
  | closing last pending =>
    rw [hphase] at h
    obtain ⟨hcandidate, hsessions, hholds⟩ := h
    simp only
    cases hactive : s.activeStack with
    | none => exact hs
    | some stack =>
      cases hlast : stack.getLast? with
      | none =>
        simp only [Option.bind_some, hlast]
        exact hs
      | some i =>
        obtain ⟨outer, houter⟩ := List.getLast?_eq_some_iff.mp hlast
        obtain ⟨w, hw, hinv, hstack⟩ := hrun s i pending
        rw [hactive, Option.getD_some, houter] at hholds
        have hexited := holds_exited hholds (hinv hholds.stackInv)
          (hstack outer hholds.controlStack)
        simp only [Option.bind_some, hlast]
        show (closeActive { (run s i pending).1 with
          activeStack := (run s i pending).1.activeStack.map List.dropLast } last
            (run s i pending).2).PhaseInv
        rw [hw]
        apply phaseInv_closeActive
        · show Ledger w s.entries (s.exits ++ [i]) ((s.activeStack.map List.dropLast).getD [])
          rw [hactive, Option.map_some, Option.getD_some, houter, List.dropLast_concat]
          exact hexited
        · exact hcandidate
        · exact hsessions
  | _ => exact hs

/-! ## Callbacks -/

theorem Holds.of_keeps {s : Teleop} {stack : List SessionId} (h : s.Holds stack)
    {w : World SessionId} (hk : World.KeepsSessions s.world w) :
    Holds { s with world := w } stack :=
  ⟨h.stackInv.of_keeps hk, hk.controlStack.trans h.controlStack, h.accounted⟩

theorem PhaseInv.of_keeps {s : Teleop} (h : s.PhaseInv) {w : World SessionId}
    (hk : World.KeepsSessions s.world w) : PhaseInv { s with world := w } := by
  unfold PhaseInv at h ⊢
  cases hphase : s.phase with
  | prompt =>
    rw [hphase] at h
    exact ⟨h.1, h.2.1, h.2.2.of_keeps hk⟩
  | claiming k =>
    rw [hphase] at h
    exact ⟨h.1, h.2.1, h.2.2.of_keeps hk⟩
  | waiting k =>
    rw [hphase] at h
    obtain ⟨hactive, hengaged, hinv, hstack, haccounted⟩ := h
    exact ⟨hactive, hengaged, hinv.of_keeps hk, hk.controlStack.trans hstack, haccounted⟩
  | discarding pending =>
    rw [hphase] at h
    exact ⟨h.1, h.2.of_keeps hk⟩
  | preempting =>
    rw [hphase] at h
    exact ⟨h.1, h.2.1, h.2.2.of_keeps hk⟩
  | releasing last =>
    rw [hphase] at h
    exact ⟨h.1, h.2.of_keeps hk⟩
  | closing last pending =>
    rw [hphase] at h
    exact ⟨h.1, h.2.1, h.2.2.of_keeps hk⟩
  | closed =>
    rw [hphase] at h
    exact h.of_keeps hk
  | aborted => trivial

theorem relay_keeps (s : Teleop) (name part : String) (message : JointTrajectory) (now : Stamp) :
    ∃ w, World.KeepsSessions s.world w ∧
      s.relay name part message now = { s with world := w } := by
  have hsame := World.KeepsSessions.refl s.world
  unfold relay
  cases s.sessions.get? name with
  | none => exact ⟨s.world, hsame, rfl⟩
  | some i =>
    simp only
    by_cases hactive : s.world.activeFor i part = true
    · rw [if_pos hactive]
      exact ⟨_, World.act_keeps s.world i _ none now, rfl⟩
    · rw [if_neg hactive]
      exact ⟨s.world, hsame, rfl⟩

/-! ## Entering -/

theorem phaseInv_claim {s : Teleop} (h : s.Holds s.candidate) (hactive : s.activeStack = none)
    (hengaged : s.isActive = true) (k : ℕ) (answer : ClaimAnswer) :
    (s.claim k answer).PhaseInv := by
  unfold claim
  have hinv := World.stackInv_enterClaim h.stackInv (s.engagement, k) answer
  cases hclaim : s.world.enterClaim (s.engagement, k) answer with
  | mk w result =>
    have hstack := enterClaim_controlStack hclaim
    rw [hclaim] at hinv
    rw [h.controlStack] at hstack
    cases result with
    | error e =>
      have hkept : w.controlStack = s.candidate := by simpa using hstack
      exact phaseInv_engagementFailed ⟨hinv, hkept, h.accounted⟩ hactive
    | ok u => exact ⟨hactive, hengaged, hinv, by simpa using hstack, h.accounted⟩

theorem phaseInv_entered {s : Teleop} {k : ℕ} (h : s.Waits k) (hactive : s.activeStack = none)
    (hengaged : s.isActive = true) : (s.entered k).PhaseInv := by
  obtain ⟨hinv, hstack, haccounted⟩ := h
  apply phaseInv_engage
  · refine ⟨hinv, hstack, fun i hi => ?_⟩
    cases List.mem_append.mp hi with
    | inl hentered =>
      exact (haccounted i hentered).imp id fun hmem => List.mem_append_left _ hmem
    | inr hlast => exact Or.inr (List.mem_append_right _ hlast)
  · exact hactive
  · exact hengaged

theorem phaseInv_poll {s : Teleop} {k : ℕ} (hphase : s.phase = .waiting k) (h : s.PhaseInv)
    (answer : ReleaseAnswer) : (s.poll k answer).PhaseInv := by
  have hs := h
  unfold PhaseInv at h
  rw [hphase] at h
  obtain ⟨hactive, hengaged, hinv, hstack, haccounted⟩ := h
  unfold poll
  cases s.world.waiting (s.engagement, k) with
  | none => exact hs
  | some deadline =>
    simp only
    have hpolled := World.stackInv_enterPoll hinv (s.engagement, k) deadline answer
    rcases World.enterPoll_cases s.world (s.engagement, k) deadline answer with
      ⟨-, hpoll⟩ | ⟨-, -, hpoll⟩ | ⟨-, -, e, hpoll⟩
    · rw [hpoll] at hpolled ⊢
      exact phaseInv_entered ⟨hpolled, hstack, haccounted⟩ hactive hengaged
    · rw [hpoll]
      exact hs
    · rw [hpoll] at hpolled ⊢
      refine phaseInv_engagementFailed ⟨hpolled, ?_, haccounted⟩ hactive
      exact leave_controlStack
        ((releaseClaim_controlStack s.world (s.engagement, k) answer).trans hstack)

/-! ## Steps -/

theorem phaseInv_submit {s : Teleop} (hphase : s.phase = .prompt) (h : s.PhaseInv) :
    s.submit.PhaseInv := by
  unfold PhaseInv at h
  rw [hphase] at h
  obtain ⟨hcandidate, hidle, hholds⟩ := h
  unfold submit
  cases hactive : s.isActive with
  | true => exact ⟨hcandidate, hholds⟩
  | false =>
    obtain ⟨hnone, -⟩ := hidle hactive
    rw [hnone] at hholds
    apply phaseInv_engage
    · exact hholds
    · exact hnone
    · rfl

theorem phaseInv_preempt {s : Teleop} (h : s.PhaseInv) (contextOk : Bool)
    (answer : String → PreemptAnswer) : (s.step (.preempt contextOk answer)).PhaseInv := by
  have hs := h
  unfold step
  unfold PhaseInv at h
  cases hphase : s.phase with
  | preempting =>
    rw [hphase] at h
    obtain ⟨hcandidate, hengaged, hholds⟩ := h
    simp only
    by_cases hconfirmed : setTeleopPreempt s.leaders contextOk answer = true
    · rw [if_pos hconfirmed]
      refine ⟨hcandidate, fun hidle => ?_, hholds⟩
      exact absurd (hidle.symm.trans hengaged) Bool.false_ne_true
    · rw [if_neg hconfirmed]
      exact ⟨hcandidate, hholds⟩
  | releasing last =>
    rw [hphase] at h
    have hholds : Holds { s with sessions := Dict.empty } (s.activeStack.getD []) := h.2
    exact phaseInv_closeActive hholds h.1 rfl last none
  | _ => exact hs

theorem phaseInv_interrupt {s : Teleop} (h : s.PhaseInv) (hl : ¬ s.Strands .interrupt) :
    s.interrupt.PhaseInv := by
  have hs := h
  unfold PhaseInv at h
  unfold Strands at hl
  unfold interrupt
  cases hphase : s.phase with
  | claiming k =>
    rw [hphase] at h hl
    obtain ⟨hactive, -, hholds⟩ := h
    rw [not_not.mp hl] at hholds
    apply phaseInv_finalize
    rw [hactive]
    exact hholds
  | waiting k =>
    rw [hphase] at hl
    exact absurd trivial hl
  | preempting =>
    rw [hphase] at h
    exact phaseInv_finalize h.2.2
  | releasing last =>
    rw [hphase] at h
    cases last with
    | true => trivial
    | false => exact phaseInv_finalize h.2
  | _ => exact hs

theorem phaseInv_backOutInterrupted {s : Teleop} {k : ℕ} (hphase : s.phase = .waiting k)
    (h : s.PhaseInv) (sent : Bool) (hl : ¬ s.Strands (.interruptRelease sent)) :
    (s.backOutInterrupted k sent).PhaseInv := by
  have hs := h
  unfold PhaseInv at h
  unfold Strands at hl
  rw [hphase] at h hl
  obtain ⟨hactive, -, hinv, hstack, haccounted⟩ := h
  unfold backOutInterrupted
  cases hwaiting : s.world.waiting (s.engagement, k) with
  | none => exact hs
  | some deadline =>
    simp only
    by_cases hout : s.world.active (s.engagement, k) = false ∧ deadline ≤ s.world.now
    · rw [if_pos hout]
      have hcandidate : s.candidate = [] := by
        by_contra hne
        exact hl ⟨hne, deadline, hwaiting, hout⟩
      rw [hcandidate] at hstack haccounted
      have hleft : (leaveInterrupted s.world (s.engagement, k) sent).controlStack = [] :=
        leaveInterrupted_controlStack hstack sent
      apply phaseInv_finalize
      show Holds _ (s.activeStack.getD [])
      rw [hactive]
      exact ⟨stackInv_leaveInterrupted hinv _ sent, hleft, haccounted⟩
    · rw [if_neg hout]
      exact hs

theorem phaseInv_step {s : Teleop} (h : s.PhaseInv) {l : Label} (hl : ¬ s.Strands l) :
    (s.step l).PhaseInv := by
  have hs := h
  cases l with
  | callback c => exact h.of_keeps (World.callback_keeps s.world c)
  | relay name part message now =>
    obtain ⟨w, hk, hrelay⟩ := relay_keeps s name part message now
    show (s.relay name part message now).PhaseInv
    rw [hrelay]
    exact h.of_keeps hk
  | submit =>
    show (if s.phase = .prompt then s.submit else s).PhaseInv
    by_cases hphase : s.phase = .prompt
    · rw [if_pos hphase]
      exact phaseInv_submit hphase h
    · rw [if_neg hphase]
      exact h
  | stop =>
    show (if s.phase = .prompt then s.finalize else s).PhaseInv
    by_cases hphase : s.phase = .prompt
    · rw [if_pos hphase]
      unfold PhaseInv at h
      rw [hphase] at h
      exact phaseInv_finalize h.2.2
    · rw [if_neg hphase]
      exact h
  | agentRaised =>
    unfold step
    unfold PhaseInv at h
    cases hphase : s.phase with
    | claiming k =>
      rw [hphase] at h
      exact phaseInv_engagementFailed h.2.2 h.1
    | _ => exact hs
  | claim answer =>
    unfold step
    unfold PhaseInv at h
    cases hphase : s.phase with
    | claiming k =>
      rw [hphase] at h
      exact phaseInv_claim h.2.2 h.1 h.2.1 k answer
    | _ => exact hs
  | poll answer =>
    unfold step
    cases hphase : s.phase with
    | waiting k => exact phaseInv_poll hphase h answer
    | _ => exact hs
  | preempt contextOk answer => exact phaseInv_preempt h contextOk answer
  | exit answer => exact phaseInv_exitStep (exits_exitOne answer) h
  | interrupt => exact phaseInv_interrupt h hl
  | interruptRelease sent =>
    show (s.interruptRelease sent).PhaseInv
    unfold interruptRelease
    cases hphase : s.phase with
    | waiting k => exact phaseInv_backOutInterrupted hphase h sent hl
    | _ => exact phaseInv_exitStep (exits_interruptible sent) h

/-! ## After an interrupt -/

/-- A session is entered that no stack holds, and the loop is over. -/
structure Stranded (s : Teleop) : Prop where
  phase : s.phase = .releasing true ∨ s.phase = .closed ∨ s.phase = .aborted
  activeStack : s.activeStack = none
  entered : ∃ i, (s.world.session i).entered = true

theorem Stranded.of_keeps {s : Teleop} (h : s.Stranded) {w : World SessionId}
    (hk : World.KeepsSessions s.world w) : Stranded { s with world := w } := by
  refine ⟨h.phase, h.activeStack, ?_⟩
  obtain ⟨i, hi⟩ := h.entered
  exact ⟨i, (hk.session i).entered.trans hi⟩

theorem stranded_step {s : Teleop} (h : s.Stranded) (l : Label) : (s.step l).Stranded := by
  cases l with
  | callback c => exact h.of_keeps (World.callback_keeps s.world c)
  | relay name part message now =>
    obtain ⟨w, hk, hrelay⟩ := relay_keeps s name part message now
    show (s.relay name part message now).Stranded
    rw [hrelay]
    exact h.of_keeps hk
  | preempt contextOk answer =>
    unfold step
    rcases h.phase with hphase | hphase | hphase
    · rw [hphase]
      simp only [closeActive, h.activeStack]
      exact ⟨Or.inr (Or.inl rfl), rfl, h.entered⟩
    · rw [hphase]
      exact h
    · rw [hphase]
      exact h
  | interrupt =>
    show s.interrupt.Stranded
    unfold interrupt
    rcases h.phase with hphase | hphase | hphase
    · rw [hphase]
      exact ⟨Or.inr (Or.inr rfl), h.activeStack, h.entered⟩
    · rw [hphase]
      exact h
    · rw [hphase]
      exact h
  | _ =>
    have hrest : ∀ l, s.step l = s → (s.step l).Stranded := fun l hsame => by rw [hsame]; exact h
    apply hrest
    rcases h.phase with hphase | hphase | hphase <;>
      simp [step, interruptRelease, exitStep, hphase]

theorem stranded_finalize {s : Teleop} (hactive : s.activeStack = none) (hinv : s.world.StackInv)
    (hstack : s.world.controlStack ≠ []) : s.finalize.Stranded := by
  obtain ⟨i, hi⟩ := List.exists_mem_of_ne_nil _ hstack
  exact ⟨Or.inl rfl, hactive, i, (hinv.entered i).mpr hi⟩

theorem stranded_of_strands {s : Teleop} (h : s.PhaseInv) {l : Label} (hl : s.Strands l) :
    (s.step l).Stranded := by
  unfold PhaseInv at h
  cases l with
  | interrupt =>
    show s.interrupt.Stranded
    unfold Strands at hl
    unfold interrupt
    cases hphase : s.phase with
    | claiming k =>
      rw [hphase] at h hl
      obtain ⟨hactive, -, hholds⟩ := h
      apply stranded_finalize hactive hholds.stackInv
      rw [hholds.controlStack]
      exact hl
    | waiting k =>
      rw [hphase] at h
      obtain ⟨hactive, -, hinv, hstack, -⟩ := h
      apply stranded_finalize hactive hinv
      rw [hstack]
      exact List.concat_ne_nil _ _
    | _ =>
      rw [hphase] at hl
      exact False.elim hl
  | interruptRelease sent =>
    show (s.interruptRelease sent).Stranded
    unfold Strands at hl
    unfold interruptRelease
    cases hphase : s.phase with
    | waiting k =>
      rw [hphase] at h hl
      obtain ⟨hactive, -, hinv, hstack, -⟩ := h
      obtain ⟨hne, deadline, hwaiting, hout⟩ := hl
      simp only [backOutInterrupted, hwaiting]
      rw [if_pos hout]
      refine stranded_finalize hactive (stackInv_leaveInterrupted hinv _ sent) ?_
      show (leaveInterrupted s.world (s.engagement, k) sent).controlStack ≠ []
      rw [leaveInterrupted_controlStack hstack sent]
      exact hne
    | _ =>
      rw [hphase] at hl
      exact False.elim hl
  | _ => exact False.elim hl

/-! ## Runs -/

theorem phaseInv_init (leaders : List Leader) (now : ℚ) (timeouts : Timeouts)
    (config : SessionId → SessionConfig) (sourceClient : SessionId → ActionProviderClient) :
    (init leaders (World.init now timeouts config sourceClient)).PhaseInv := by
  have hholds : Ledger (World.init now timeouts config sourceClient) [] [] [] :=
    ⟨World.stackInv_init now timeouts config sourceClient, rfl, fun i hi => absurd hi List.not_mem_nil⟩
  cases leaders with
  | nil => exact hholds
  | cons leader leaders => exact ⟨rfl, fun _ => ⟨rfl, rfl⟩, hholds⟩

/-- The operator's interrupts decide. While none of them falls in an engagement with a session
entered, nothing is left behind in any state of the run; and a run that reaches `ctx.close()` with
nothing left behind has had none. -/
theorem run_clean_iff (leaders : List Leader) (now : ℚ) (timeouts : Timeouts)
    (config : SessionId → SessionConfig) (sourceClient : SessionId → ActionProviderClient)
    (ls : List Label) :
    let start := init leaders (World.init now timeouts config sourceClient)
    (Follows step (fun s l => ¬ s.Strands l) start ls → (run step start ls).Clean) ∧
      ((run step start ls).phase = .closed →
        ((run step start ls).Clean ↔ Follows step (fun s l => ¬ s.Strands l) start ls)) := by
  intro start
  have hstart : start.PhaseInv := phaseInv_init leaders now timeouts config sourceClient
  have hkept : ∀ ks, Follows step (fun s l => ¬ s.Strands l) start ks →
      (run step start ks).PhaseInv := fun ks hks =>
    run_invariant PhaseInv (fun _ _ h hl => phaseInv_step h hl) hstart hks
  have hclean : Follows step (fun s l => ¬ s.Strands l) start ls → (run step start ls).Clean :=
    fun hls => clean_of_phaseInv (hkept ls hls)
  refine ⟨hclean, fun hclosed => ⟨fun hc => ?_, hclean⟩⟩
  by_contra hnot
  obtain ⟨pre, l, post, hls, hpre, hl⟩ := follows_first_failure hnot
  have hstranded := stranded_of_strands (hkept pre hpre) (not_not.mp hl)
  have hend : (run step start ls).Stranded := by
    rw [hls, run_append, run_cons]
    exact run_invariant' Stranded (fun _ l h => stranded_step h l) hstranded post
  obtain ⟨i, hi⟩ := hend.entered
  exact absurd (((hc.closed hclosed).2 i).symm.trans hi) Bool.false_ne_true

/-! ## The two leaders of a bimanual arm -/

def leftAgent : Agent where
  name := "TeleopJoint_Left"
  sourceRole := .teleop
  sourceInstance := "TeleopJoint_Left"
  metadata := []
  resources := Dict.ofPairs [("left_arm", "joint_reference"), ("left_gripper", "joint_reference")]
  config := none

def rightAgent : Agent where
  name := "TeleopJoint_Right"
  sourceRole := .teleop
  sourceInstance := "TeleopJoint_Right"
  metadata := []
  resources := Dict.ofPairs [("right_arm", "joint_reference"), ("right_gripper", "joint_reference")]
  config := none

def leftConfig : SessionConfig where
  source := leftAgent
  parts := ["left_arm", "left_gripper"]
  preempt := true
  acquireTimeout := 5
  parts_ne := by decide
  parts_subset := by decide
  acquireTimeout_pos := Timeouts.default.timeoutSec_pos

def rightConfig : SessionConfig where
  source := rightAgent
  parts := ["right_arm", "right_gripper"]
  preempt := true
  acquireTimeout := 5
  parts_ne := by decide
  parts_subset := by decide
  acquireTimeout_pos := Timeouts.default.timeoutSec_pos

def bimanualLeaders : List Leader :=
  [⟨"left_leader", "/piper_leader_left/preempt"⟩, ⟨"right_leader", "/piper_leader_right/preempt"⟩]

def bimanualConfig (i : SessionId) : SessionConfig := if i.2 = 0 then leftConfig else rightConfig

def bimanual : Teleop :=
  init bimanualLeaders
    (World.init 0 Timeouts.default bimanualConfig fun _ => ActionProviderClient.new none)

/-- The parts of one side are granted as `lease`, reported owned and confirmed. -/
def sideEntered (arm gripper lease : String) : List Label :=
  [.claim (.response ⟨true, "", lease,
      [⟨arm, "joint_reference", "/" ++ arm ++ "/reference", false⟩,
        ⟨gripper, "joint_reference", "/" ++ gripper ++ "/reference", false⟩]⟩),
    .callback (.status ⟨[⟨arm, .owned, lease, 1, "", "joint_reference", "", []⟩,
      ⟨gripper, .owned, lease, 1, "", "joint_reference", "", []⟩]⟩),
    .poll .unavailable]

/-- Both leaders are engaged, the operator releases them and quits. -/
def bimanualReleased : List Label :=
  [.submit] ++ sideEntered "left_arm" "left_gripper" "lease-1" ++
    sideEntered "right_arm" "right_gripper" "lease-2" ++
    [.preempt true fun _ => .confirmed, .submit, .preempt true fun _ => .confirmed,
      .exit (.response true ""), .exit (.response true ""), .stop,
      .preempt true fun _ => .confirmed]

theorem bimanualReleased_clean :
    (run step bimanual bimanualReleased).entries = [(1, 0), (1, 1)] ∧
      (run step bimanual bimanualReleased).phase = .closed ∧
      (run step bimanual bimanualReleased).Clean := by
  have hfollows : Follows step (fun s l => ¬ s.Strands l) bimanual bimanualReleased :=
    ⟨id, id, id, id, id, id, id, id, id, id, id, id, id, id, trivial⟩
  refine ⟨by decide +kernel, by decide +kernel, ?_⟩
  exact (run_clean_iff bimanualLeaders 0 Timeouts.default bimanualConfig
    (fun _ => ActionProviderClient.new none) bimanualReleased).1 hfollows

/-- The operator interrupts the claim of the second leader. -/
def bimanualInterrupted : List Label :=
  [.submit] ++ sideEntered "left_arm" "left_gripper" "lease-1" ++
    [.interrupt, .preempt true fun _ => .confirmed]

theorem bimanualInterrupted_stranded :
    ¬ ∀ (leaders : List Leader) (now : ℚ) (timeouts : Timeouts)
      (config : SessionId → SessionConfig) (sourceClient : SessionId → ActionProviderClient)
      (ls : List Label),
      (run step (init leaders (World.init now timeouts config sourceClient)) ls).Clean := by
  intro hall
  have hclean : (run step bimanual bimanualInterrupted).Clean := hall _ _ _ _ _ _
  have hclosed : (run step bimanual bimanualInterrupted).phase = .closed := by decide +kernel
  have hentry : (1, 0) ∈ (run step bimanual bimanualInterrupted).entries := by decide +kernel
  have hexit : (1, 0) ∉ (run step bimanual bimanualInterrupted).exits := by decide +kernel
  exact hexit ((hclean.closed hclosed).1 (1, 0) hentry)

end Teleop
end PhysicalAiRuntime.Apps
