import Mathlib.Algebra.Field.Rat
import PhysicalAiRuntime.Config.Profile
import PhysicalAiRuntime.Foundations.Latest
import PhysicalAiRuntime.Recovery.LiveOwners

/-! What `prepare_execution` knows when it marks execution as prepared: one process over a whole
application run, whatever status messages arrive and whatever the Execution Manager answers. -/
namespace PhysicalAiRuntime.Recovery
open Authority Config Trace Latest
set_option autoImplicit false
set_option maxHeartbeats 250000

/-! ## The contracts of a profile -/

/-- `_profile_command_contracts`. -/
def profileCommandContracts (profile : EmbodimentConfig) : Dict Key String :=
  Dict.ofPairs (profile.agents.entries.flatMap fun e => e.2.resources.entries)

def namedPair : Key × String → Option (String × String)
  | (.str name, contract) => some (name, contract)
  | _ => none

/-- The contracts whose resource a status message can name. -/
def namedContracts (profile : EmbodimentConfig) : Dict String String :=
  Dict.ofPairs ((profileCommandContracts profile).entries.filterMap namedPair)

theorem namedPair_eq_some {e : Key × String} {pair : String × String} :
    namedPair e = some pair ↔ e = (.str pair.1, pair.2) := by
  obtain ⟨key, contract⟩ := e
  cases key with
  | str name => simp [namedPair, Prod.ext_iff]
  | int n => simp [namedPair]
  | other object => simp [namedPair]

/-- A resource is in the union exactly where some agent of the profile names it. -/
theorem mem_namedContracts (profile : EmbodimentConfig) (part : String) :
    part ∈ (namedContracts profile).keys ↔ ∃ name agent,
      profile.agents.get? name = some agent ∧ .str part ∈ agent.resources.keys := by
  have hunion : part ∈ (namedContracts profile).keys ↔
      .str part ∈ (profileCommandContracts profile).keys := by
    unfold namedContracts
    rw [Dict.mem_keys_ofPairs]
    constructor
    · intro ⟨pair, hpair, hpart⟩
      obtain ⟨e, he, hnamed⟩ := List.mem_filterMap.mp hpair
      have hkey := namedPair_eq_some.mp hnamed
      subst hkey
      exact List.mem_map.mpr ⟨_, he, by rw [hpart]⟩
    · intro hmem
      obtain ⟨e, he, hkey⟩ := List.mem_map.mp hmem
      refine ⟨(part, e.2), List.mem_filterMap.mpr ⟨e, he, ?_⟩, rfl⟩
      exact namedPair_eq_some.mpr (Prod.ext hkey rfl)
  rw [hunion]
  unfold profileCommandContracts
  rw [Dict.mem_keys_ofPairs]
  constructor
  · intro ⟨pair, hpair, hpart⟩
    obtain ⟨e, he, hmem⟩ := List.mem_flatMap.mp hpair
    exact ⟨e.1, e.2, (Dict.get?_eq_some_iff _ _ _).mpr he, List.mem_map.mpr ⟨pair, hmem, hpart⟩⟩
  · intro ⟨name, agent, hagent, hpart⟩
    obtain ⟨pair, hmem, hkey⟩ := List.mem_map.mp hpart
    exact ⟨pair, List.mem_flatMap.mpr ⟨_, (Dict.get?_eq_some_iff _ _ _).mp hagent, hmem⟩, hkey⟩

/-! ## One process over a run -/

structure Startup where
  process : Process
  /-- The most recent status message that the client received, and when. -/
  last : Option (ℚ × AuthorityStatus)
  now : ℚ

namespace Startup

inductive Event where
  | status (message : AuthorityStatus)
  | elapse (seconds : ℚ≥0)
  /-- The application calls `prepare_execution`. -/
  | call (timeoutSec : Option ℚ) (available : Bool)
  | poll
  | clear (available : Bool)
  | claimAnswered (answer : ClaimAnswer) (available : Bool)
  | releaseAnswered (answer : ReleaseAnswer)
  | settle

def init (profile : EmbodimentConfig) (timeouts : Timeouts) (timeoutSec now : ℚ) : Startup :=
  ⟨Process.new timeouts timeoutSec (namedContracts profile), none, now⟩

def step (s : Startup) : Event → Startup
  | .status message =>
    { s with process := s.process.onStatus s.now 0 message, last := some (s.now, message) }
  | .elapse seconds => { s with now := s.now + seconds }
  | .call timeoutSec available =>
    if s.process.phase = .idle then
      { s with process := s.process.prepareExecution s.now timeoutSec available }
    else s
  | .poll => { s with process := s.process.pollSnapshot s.now }
  | .clear available => { s with process := (s.process.clearFault s.now available 0).1 }
  | .claimAnswered answer available =>
    { s with process := (s.process.claimAnswered answer available 0).1 }
  | .releaseAnswered answer => { s with process := s.process.releaseAnswered s.now answer }
  | .settle => { s with process := s.process.settle s.now }

/-- No resource that an agent of the profile names is in FAULT by the last status message. -/
def FaultFree (profile : EmbodimentConfig) (last : Option (ℚ × AuthorityStatus)) : Prop :=
  ∀ t message, last = some (t, message) → ∀ name agent, profile.agents.get? name = some agent →
    ∀ part, .str part ∈ agent.resources.keys →
      authorityState message.allocations part ≠ .fault

/-- A step that marks execution as prepared leaves no fault behind, a call that ends otherwise
raises, and the next call starts over. -/
structure Prepares (profile : EmbodimentConfig) (s : Startup) (l : Event) : Prop where
  faultFree : s.process.executionPrepared = false →
    (s.step l).process.executionPrepared = true → FaultFree profile (s.step l).last
  raises : s.process.phase ≠ .idle → (s.step l).process.phase = .idle →
    (s.step l).process.executionPrepared = false →
    ∃ e, (s.step l).process.returned = some (.error e)
  retries : ∀ timeoutSec, l = .call timeoutSec true → s.process.phase = .idle →
    s.process.executionPrepared = false → 0 < timeoutSec.getD s.process.timeoutSec →
    (s.step l).process.phase = .describing (s.now + timeoutSec.getD s.process.timeoutSec)

/-! ## What a call is given -/

/-- The clock, and the last status message with the time at which it came in. -/
structure Moment where
  now : ℚ
  last : Option (ℚ × AuthorityStatus)

namespace Moment

/-- A message is shown for `statusTimeoutSec` after it came in. -/
def shown (m : Moment) (statusTimeoutSec : ℚ) : Snapshot :=
  match m.last with
  | none => Dict.empty
  | some (t, message) => if statusTimeoutSec < m.now - t then Dict.empty else message.allocations

def InFault (m : Moment) (statusTimeoutSec : ℚ) (part : String) : Prop :=
  authorityState (m.shown statusTimeoutSec) part = .fault

/-- The part is shown in FAULT, or under a lease of `clear_fault` itself. -/
def Uncleared (m : Moment) (statusTimeoutSec : ℚ) (part : String) : Prop :=
  ∃ item, (m.shown statusTimeoutSec).get? part = some item ∧ (item.authorityState = .fault ∨
    (item.authorityState = .owned ∧ item.sourceInstance = "rmi_clear_fault"))

end Moment

/-- What the sections of `prepare_execution` get from the clock, the status messages and the
manager, in the order in which they run. -/
inductive Input where
  | called (now timeoutSec : ℚ)
  /-- A look of the waiting loop. -/
  | looked (m : Moment)
  /-- The deadline check of the waiting loop. -/
  | waited (m : Moment)
  /-- The look at the start of `clear_fault`. -/
  | cleared (m : Moment)
  /-- The manager answers the release of `clear_fault`. -/
  | released (now : ℚ)
  /-- A round of the settling loop. -/
  | settled (m : Moment)

namespace Input

def isCalled : Input → Bool
  | .called _ _ => true
  | _ => false

def isLooked : Input → Bool
  | .looked _ => true
  | _ => false

def isCleared : Input → Bool
  | .cleared _ => true
  | _ => false

def isReleased : Input → Bool
  | .released _ => true
  | _ => false

end Input

def moment (s : Startup) : Moment := ⟨s.now, s.last⟩

/-- The input of the section that a step runs. -/
def reads (s : Startup) : Event → List Input
  | .call timeoutSec _ =>
    match s.process.phase with
    | .idle => [.called s.now (timeoutSec.getD s.process.timeoutSec)]
    | _ => []
  | .poll =>
    match s.process.phase with
    | .describing _ => [.looked s.moment]
    | .undescribed _ => [.waited s.moment]
    | _ => []
  | .clear _ =>
    match s.process.phase with
    | .clearing _ => [.cleared s.moment]
    | _ => []
  | .releaseAnswered _ =>
    match s.process.phase with
    | .releasing _ _ _ => [.released s.now]
    | _ => []
  | .settle =>
    match s.process.phase with
    | .settling _ _ => [.settled s.moment]
    | _ => []
  | _ => []

/-- The profile's agents command this resource. -/
def Commands (profile : EmbodimentConfig) (part : String) : Prop :=
  ∃ name agent, profile.agents.get? name = some agent ∧ .str part ∈ agent.resources.keys

/-- After the inputs `given` the call takes its next input for the end of the faults, though the
last status message shows one. Nothing was shown up to the deadline; or the two looks before the
claim have no fault in common; or since the release the client's timeout has passed, or none of
the faults that both looks had is still shown. -/
def Misleads (profile : EmbodimentConfig) (timeouts : Timeouts) (given : List Input) : Input → Prop
  | .waited m => ¬ FaultFree profile m.last ∧
    ∃ t timeoutSec, latest Input.isCalled given = some (.called t timeoutSec) ∧
      t + timeoutSec ≤ m.now
  | .cleared m => ¬ FaultFree profile m.last ∧
    ∃ m₁, latest Input.isLooked given = some (.looked m₁) ∧ ∀ part, Commands profile part →
      m₁.InFault timeouts.statusTimeoutSec part → ¬ m.InFault timeouts.statusTimeoutSec part
  | .settled m => ¬ FaultFree profile m.last ∧
    ∃ m₁ m₂ t, latest Input.isLooked given = some (.looked m₁) ∧
      latest Input.isCleared given = some (.cleared m₂) ∧
      latest Input.isReleased given = some (.released t) ∧
      (t + timeouts.timeoutSec ≤ m.now ∨ ∀ part, Commands profile part →
        m₁.InFault timeouts.statusTimeoutSec part → m₂.InFault timeouts.statusTimeoutSec part →
          ¬ m.Uncleared timeouts.statusTimeoutSec part)
  | _ => False

/-! ## How a step of the call ends -/

/-- The ways in which a piece of `prepare_execution` moves on; it marks execution as prepared
exactly where `marks` holds. -/
inductive Moves (marks : Prop) (p : Process) : Process → Prop
  | stays (h : ¬ marks) : Moves marks p p
  | waits (h : ¬ marks) (hopen : p.phase ≠ .idle ∨ p.executionPrepared = false) (phase : Phase)
      (hphase : phase ≠ .idle) : Moves marks p { p with phase := phase }
  | raised (h : ¬ marks) (e : PyError) : Moves marks p (p.raises e)
  | answers (h : ¬ marks) (hidle : p.phase = .idle) (snapshot : Snapshot) :
    Moves marks p { p with returned := some (.ok snapshot) }
  | prepared (h : marks) (snapshot : Snapshot) : Moves marks p (p.prepared snapshot)

theorem moves_described {p : Process} (hopen : p.phase ≠ .idle) (snapshot : Snapshot) :
    Moves ((faulted p.contracts snapshot).isEmpty = true) p (p.described snapshot) := by
  unfold Process.described
  by_cases hempty : (faulted p.contracts snapshot).isEmpty = true
  · rw [if_pos hempty]
    exact .prepared hempty _
  · rw [if_neg hempty]
    exact .waits hempty (.inl hopen) _ (by simp)

theorem moves_prepareExecution {p : Process} (hidle : p.phase = .idle) (now : ℚ)
    (timeoutSec : Option ℚ) (available : Bool) :
    Moves False p (p.prepareExecution now timeoutSec available) := by
  simp only [Process.prepareExecution]
  by_cases htimeout : timeoutSec.getD p.timeoutSec ≤ 0
  · rw [if_pos htimeout]
    exact .raised id _
  · rw [if_neg htimeout]
    by_cases hprepared : p.executionPrepared = true
    · rw [if_pos hprepared]
      exact .answers id hidle _
    · rw [if_neg hprepared]
      by_cases havailable : available = true
      · rw [if_neg (not_not.mpr havailable)]
        exact .waits id (.inr (Bool.eq_false_of_not_eq_true hprepared)) _ (by simp)
      · rw [if_pos havailable]
        exact .raised id _

/-- The look of the waiting loop, or its deadline check. -/
def PollMarks (p : Process) (now : ℚ) : Prop :=
  match p.phase with
  | .describing _ => (p.describeAuthority now).isEmpty = false ∧
      (faulted p.contracts (p.describeAuthority now)).isEmpty = true
  | .undescribed deadline => deadline ≤ now
  | _ => False

theorem faulted_empty (contracts : Dict String String) :
    (faulted contracts Dict.empty).isEmpty = true := by
  simp [faulted, Dict.filter, Dict.isEmpty, authorityState]

theorem moves_pollSnapshot (p : Process) (now : ℚ) :
    Moves (PollMarks p now) p (p.pollSnapshot now) := by
  unfold PollMarks Process.pollSnapshot
  cases hphase : p.phase with
  | describing deadline =>
    have hopen : p.phase ≠ .idle := by simp [hphase]
    cases hempty : (p.describeAuthority now).isEmpty with
    | true => exact .waits (by simp) (.inl hopen) _ (by simp)
    | false => simpa using moves_described hopen (p.describeAuthority now)
  | undescribed deadline =>
    have hopen : p.phase ≠ .idle := by simp [hphase]
    by_cases hnow : now < deadline
    · simp only [if_pos hnow, not_le.mpr hnow]
      exact .waits id (.inl hopen) _ (by simp)
    · have h := moves_described hopen Dict.empty
      simpa [hnow, not_lt.mp hnow, faulted_empty] using h
  | _ => exact .stays id

def ClearMarks (p : Process) (now : ℚ) : Prop :=
  match p.phase with
  | .clearing resources => (faulted resources (p.describeAuthority now)).isEmpty = true
  | _ => False

theorem moves_clearFault (p : Process) (now : ℚ) (available : Bool) :
    Moves (ClearMarks p now) p (p.clearFault now available 0).1 := by
  unfold ClearMarks Process.clearFault
  cases hphase : p.phase with
  | clearing resources =>
    have hopen : p.phase ≠ .idle := by simp [hphase]
    simp only
    by_cases hempty : (faulted resources (p.describeAuthority now)).isEmpty = true
    · rw [if_pos hempty]
      exact .prepared hempty _
    · rw [if_neg hempty]
      cases ExecutionManagerClient.claimRequest .policy "rmi_clear_fault"
        (faulted resources (p.describeAuthority now)) true [("reason", "clear_fault")] with
      | error e => exact .raised hempty e
      | ok request =>
        cases available with
        | true => exact .waits hempty (.inl hopen) _ (by simp)
        | false => exact .raised hempty _
  | _ => exact .stays id

theorem moves_claimAnswered (p : Process) (answer : ClaimAnswer) (available : Bool) :
    Moves False p (p.claimAnswered answer available 0).1 := by
  unfold Process.claimAnswered
  cases hphase : p.phase with
  | claiming targets call =>
    have hopen : p.phase ≠ .idle := by simp [hphase]
    simp only
    cases ExecutionManagerClient.claimResult targets answer with
    | error e => exact .raised id e
    | ok grant =>
      simp only
      by_cases hsent : grant.leaseId ≠ "" ∧ available = true
      · rw [if_pos hsent]
        exact .waits id (.inl hopen) _ (by simp)
      · rw [if_neg hsent]
        cases (ExecutionManagerClient.release grant.leaseId .unavailable).2 with
        | error e => exact .raised id e
        | ok u => exact .stays id
  | _ => exact .stays id

theorem moves_releaseAnswered (p : Process) (now : ℚ) (answer : ReleaseAnswer) :
    Moves False p (p.releaseAnswered now answer) := by
  unfold Process.releaseAnswered
  cases hphase : p.phase with
  | releasing targets leaseId call =>
    have hopen : p.phase ≠ .idle := by simp [hphase]
    simp only
    cases (ExecutionManagerClient.release leaseId answer).2 with
    | error e => exact .raised id e
    | ok u => exact .waits id (.inl hopen) _ (by simp)
  | _ => exact .stays id

def SettleMarks (p : Process) (now : ℚ) : Prop :=
  match p.phase with
  | .settling targets deadline =>
    ¬ (now < deadline ∧ Process.pending targets (p.describeAuthority now) = true)
  | _ => False

theorem moves_settle (p : Process) (now : ℚ) : Moves (SettleMarks p now) p (p.settle now) := by
  unfold SettleMarks Process.settle
  cases p.phase with
  | settling targets deadline =>
    simp only
    by_cases hwait : now < deadline ∧ Process.pending targets (p.describeAuthority now) = true
    · rw [if_pos hwait]
      exact .stays (not_not.mpr hwait)
    · rw [if_neg hwait]
      exact .prepared hwait _
  | _ => exact .stays id

/-- The steps that mark execution as prepared. -/
def Marks (s : Startup) : Event → Prop
  | .poll => PollMarks s.process s.now
  | .clear _ => ClearMarks s.process s.now
  | .settle => SettleMarks s.process s.now
  | _ => False

/-- What is not the clock or a status message is a step of the call. -/
theorem step_moves (s : Startup) (l : Event) :
    (∃ message, l = .status message) ∨ (∃ seconds, l = .elapse seconds) ∨
      ((s.step l).last = s.last ∧ Moves (Marks s l) s.process (s.step l).process) := by
  cases l with
  | status message => exact Or.inl ⟨message, rfl⟩
  | elapse seconds => exact Or.inr (Or.inl ⟨seconds, rfl⟩)
  | call timeoutSec available =>
    apply Or.inr ∘ Or.inr
    by_cases hidle : s.process.phase = .idle
    · simp only [step, if_pos hidle]
      exact ⟨trivial, moves_prepareExecution hidle s.now timeoutSec available⟩
    · simp only [step, if_neg hidle]
      exact ⟨trivial, .stays id⟩
  | poll => exact Or.inr (Or.inr ⟨rfl, moves_pollSnapshot s.process s.now⟩)
  | clear available => exact Or.inr (Or.inr ⟨rfl, moves_clearFault s.process s.now available⟩)
  | claimAnswered answer available =>
    exact Or.inr (Or.inr ⟨rfl, moves_claimAnswered s.process answer available⟩)
  | releaseAnswered answer =>
    exact Or.inr (Or.inr ⟨rfl, moves_releaseAnswered s.process s.now answer⟩)
  | settle => exact Or.inr (Or.inr ⟨rfl, moves_settle s.process s.now⟩)

/-! ## The invariant -/

/-- The cache holds the last message and the time it came in, the timeouts and the contracts are
those of the client and the profile, and a call that is under way has not marked execution as
prepared. -/
structure Inv (profile : EmbodimentConfig) (timeouts : Timeouts) (s : Startup) : Prop where
  received : s.process.client.lastStatusMonotonic = s.last.map Prod.fst
  cached : ∀ t message, s.last = some (t, message) →
    s.process.client.allocations = message.allocations
  configured : s.process.client.toTimeouts = timeouts
  contracts : s.process.contracts = namedContracts profile
  unprepared : s.process.phase ≠ .idle → s.process.executionPrepared = false

theorem inv_init (profile : EmbodimentConfig) (timeouts : Timeouts) (timeoutSec now : ℚ) :
    Inv profile timeouts (init profile timeouts timeoutSec now) where
  received := rfl
  cached t message h := by cases h
  configured := rfl
  contracts := rfl
  unprepared _ := rfl

theorem Moves.frame {marks : Prop} {p p' : Process} (h : Moves marks p p') :
    p'.client = p.client ∧ p'.contracts = p.contracts := by
  cases h with
  | stays _ => exact ⟨rfl, rfl⟩
  | waits _ _ phase _ => exact ⟨rfl, rfl⟩
  | raised _ e => exact ⟨rfl, rfl⟩
  | answers _ _ snapshot => exact ⟨rfl, rfl⟩
  | prepared _ snapshot => exact ⟨rfl, rfl⟩

theorem Moves.unprepared {marks : Prop} {p p' : Process} (h : Moves marks p p')
    (hp : p.phase ≠ .idle → p.executionPrepared = false) (hphase : p'.phase ≠ .idle) :
    p'.executionPrepared = false := by
  cases h with
  | stays _ => exact hp hphase
  | waits _ hopen phase _ => exact hopen.elim hp id
  | raised _ e => exact absurd rfl hphase
  | answers _ hidle snapshot => exact absurd hidle hphase
  | prepared _ snapshot => exact absurd rfl hphase

theorem inv_step {profile : EmbodimentConfig} {timeouts : Timeouts} {s : Startup}
    (h : Inv profile timeouts s) (l : Event) : Inv profile timeouts (s.step l) := by
  rcases step_moves s l with ⟨message, rfl⟩ | ⟨seconds, rfl⟩ | ⟨hlast, hmoves⟩
  · refine ⟨rfl, fun t m hm => ?_, h.configured, h.contracts, h.unprepared⟩
    cases hm
    rfl
  · exact ⟨h.received, h.cached, h.configured, h.contracts, h.unprepared⟩
  · obtain ⟨hclient, hcontracts⟩ := hmoves.frame
    refine ⟨?_, fun t m hm => ?_, ?_, hcontracts.trans h.contracts,
      hmoves.unprepared h.unprepared⟩
    · rw [hclient, hlast]
      exact h.received
    · rw [hclient]
      exact h.cached t m (hlast ▸ hm)
    · rw [hclient]
      exact h.configured

/-- A look at the cache sees what the moment shows. -/
theorem Inv.describeAuthority {profile : EmbodimentConfig} {timeouts : Timeouts} {s : Startup}
    (h : Inv profile timeouts s) :
    s.process.describeAuthority s.now = s.moment.shown timeouts.statusTimeoutSec := by
  unfold Process.describeAuthority ExecutionManagerClient.getAllocations
    ExecutionManagerClient.statusFresh Moment.shown moment
  rw [h.received, h.configured]
  cases hlast : s.last with
  | none => rfl
  | some received =>
    obtain ⟨t, message⟩ := received
    by_cases hexpired : timeouts.statusTimeoutSec < s.now - t
    · simp [hexpired]
    · simp [hexpired, h.cached t message hlast]

/-- The targets of `clear_fault` are the faults that its two looks have in common. -/
def Targeted (profile : EmbodimentConfig) (timeouts : Timeouts) (given : List Input)
    (targets : Dict String String) : Prop :=
  ∃ m₁ m₂, latest Input.isLooked given = some (.looked m₁) ∧
    latest Input.isCleared given = some (.cleared m₂) ∧
    targets = faulted (faulted (namedContracts profile) (m₁.shown timeouts.statusTimeoutSec))
      (m₂.shown timeouts.statusTimeoutSec)

/-- What a call remembers of the inputs it was given. -/
def Recounts (profile : EmbodimentConfig) (timeouts : Timeouts) (given : List Input) :
    Phase → Prop
  | .idle => True
  | .describing deadline | .undescribed deadline =>
    ∃ t timeoutSec, latest Input.isCalled given = some (.called t timeoutSec) ∧
      deadline = t + timeoutSec
  | .clearing resources => ∃ m, latest Input.isLooked given = some (.looked m) ∧
    resources = faulted (namedContracts profile) (m.shown timeouts.statusTimeoutSec)
  | .claiming targets _ | .releasing targets _ _ => Targeted profile timeouts given targets
  | .settling targets deadline => Targeted profile timeouts given targets ∧
    ∃ t, latest Input.isReleased given = some (.released t) ∧ deadline = t + timeouts.timeoutSec

theorem recounts_described {profile : EmbodimentConfig} {timeouts : Timeouts} {p : Process}
    (hcontracts : p.contracts = namedContracts profile) {given : List Input} {m : Moment}
    (hlooked : latest Input.isLooked given = some (.looked m)) :
    Recounts profile timeouts given (p.described (m.shown timeouts.statusTimeoutSec)).phase := by
  unfold Process.described
  by_cases hempty : (faulted p.contracts (m.shown timeouts.statusTimeoutSec)).isEmpty = true
  · rw [if_pos hempty]
    trivial
  · rw [if_neg hempty]
    exact ⟨m, hlooked, by rw [hcontracts]⟩

theorem recounts_prepareExecution {profile : EmbodimentConfig} {timeouts : Timeouts}
    {p : Process} (hidle : p.phase = .idle) (now : ℚ) (timeoutSec : Option ℚ) (available : Bool)
    (given : List Input) :
    Recounts profile timeouts (given ++ [.called now (timeoutSec.getD p.timeoutSec)])
      (p.prepareExecution now timeoutSec available).phase := by
  simp only [Process.prepareExecution]
  by_cases htimeout : timeoutSec.getD p.timeoutSec ≤ 0
  · rw [if_pos htimeout]
    trivial
  · rw [if_neg htimeout]
    by_cases hprepared : p.executionPrepared = true
    · rw [if_pos hprepared]
      change Recounts profile timeouts _ p.phase
      rw [hidle]
      trivial
    · rw [if_neg hprepared]
      by_cases havailable : available = true
      · rw [if_neg (not_not.mpr havailable)]
        refine ⟨now, timeoutSec.getD p.timeoutSec, ?_, rfl⟩
        exact latest_concat_of_pos _ rfl
      · rw [if_pos havailable]
        trivial

theorem recounts_poll {profile : EmbodimentConfig} {timeouts : Timeouts} {s : Startup}
    (h : Inv profile timeouts s) {given : List Input}
    (hgiven : Recounts profile timeouts given s.process.phase) :
    Recounts profile timeouts (given ++ s.reads .poll) (s.process.pollSnapshot s.now).phase := by
  unfold reads Process.pollSnapshot
  rw [h.describeAuthority]
  cases hphase : s.process.phase with
  | describing deadline =>
    rw [hphase] at hgiven
    simp only
    by_cases hempty : (s.moment.shown timeouts.statusTimeoutSec).isEmpty = true
    · obtain ⟨t, timeoutSec, hcalled, hdeadline⟩ := hgiven
      rw [if_pos hempty]
      refine ⟨t, timeoutSec, ?_, hdeadline⟩
      rwa [latest_concat_of_neg _ rfl]
    · rw [if_neg hempty]
      exact recounts_described h.contracts (latest_concat_of_pos _ rfl)
  | undescribed deadline =>
    rw [hphase] at hgiven
    simp only
    by_cases hnow : s.now < deadline
    · obtain ⟨t, timeoutSec, hcalled, hdeadline⟩ := hgiven
      rw [if_pos hnow]
      refine ⟨t, timeoutSec, ?_, hdeadline⟩
      rwa [latest_concat_of_neg _ rfl]
    · rw [if_neg hnow, Process.described, if_pos (faulted_empty _)]
      trivial
  | _ =>
    simp only [List.append_nil]
    rw [hphase] at hgiven ⊢
    exact hgiven

theorem recounts_clear {profile : EmbodimentConfig} {timeouts : Timeouts} {s : Startup}
    (h : Inv profile timeouts s) {given : List Input}
    (hgiven : Recounts profile timeouts given s.process.phase) (available : Bool) :
    Recounts profile timeouts (given ++ s.reads (.clear available))
      (s.process.clearFault s.now available 0).1.phase := by
  unfold reads Process.clearFault
  rw [h.describeAuthority]
  cases hphase : s.process.phase with
  | clearing resources =>
    rw [hphase] at hgiven
    obtain ⟨m, hlooked, hresources⟩ := hgiven
    simp only
    by_cases hempty :
        (faulted resources (s.moment.shown timeouts.statusTimeoutSec)).isEmpty = true
    · rw [if_pos hempty]
      trivial
    · rw [if_neg hempty]
      cases ExecutionManagerClient.claimRequest .policy "rmi_clear_fault"
        (faulted resources (s.moment.shown timeouts.statusTimeoutSec)) true
        [("reason", "clear_fault")] with
      | error e => trivial
      | ok request =>
        cases available with
        | false => trivial
        | true =>
          refine ⟨m, s.moment, ?_, ?_, by rw [hresources]⟩
          · rwa [latest_concat_of_neg _ rfl]
          · exact latest_concat_of_pos _ rfl
  | _ =>
    simp only [List.append_nil]
    rw [hphase] at hgiven ⊢
    exact hgiven

theorem recounts_claimAnswered {profile : EmbodimentConfig} {timeouts : Timeouts} {p : Process}
    {given : List Input} (hgiven : Recounts profile timeouts given p.phase)
    (answer : ClaimAnswer) (available : Bool) :
    Recounts profile timeouts given (p.claimAnswered answer available 0).1.phase := by
  unfold Process.claimAnswered
  cases hphase : p.phase with
  | claiming targets call =>
    rw [hphase] at hgiven
    simp only
    cases ExecutionManagerClient.claimResult targets answer with
    | error e => trivial
    | ok grant =>
      simp only
      by_cases hsent : grant.leaseId ≠ "" ∧ available = true
      · rw [if_pos hsent]
        exact hgiven
      · rw [if_neg hsent]
        cases (ExecutionManagerClient.release grant.leaseId .unavailable).2 with
        | error e => trivial
        | ok u =>
          rw [← hphase] at hgiven
          exact hgiven
  | _ =>
    rw [hphase] at hgiven ⊢
    exact hgiven

theorem Targeted.concat {profile : EmbodimentConfig} {timeouts : Timeouts} {given : List Input}
    {targets : Dict String String} (h : Targeted profile timeouts given targets) {x : Input}
    (hlooked : x.isLooked = false) (hcleared : x.isCleared = false) :
    Targeted profile timeouts (given ++ [x]) targets := by
  obtain ⟨m₁, m₂, h₁, h₂, htargets⟩ := h
  refine ⟨m₁, m₂, ?_, ?_, htargets⟩
  · rwa [latest_concat_of_neg _ hlooked]
  · rwa [latest_concat_of_neg _ hcleared]

theorem recounts_releaseAnswered {profile : EmbodimentConfig} {timeouts : Timeouts}
    {s : Startup} (h : Inv profile timeouts s) {given : List Input}
    (hgiven : Recounts profile timeouts given s.process.phase) (answer : ReleaseAnswer) :
    Recounts profile timeouts (given ++ s.reads (.releaseAnswered answer))
      (s.process.releaseAnswered s.now answer).phase := by
  unfold reads Process.releaseAnswered
  cases hphase : s.process.phase with
  | releasing targets leaseId call =>
    rw [hphase] at hgiven
    simp only
    cases (ExecutionManagerClient.release leaseId answer).2 with
    | error e => trivial
    | ok u =>
      refine ⟨Targeted.concat hgiven rfl rfl, s.now, ?_, by rw [h.configured]⟩
      exact latest_concat_of_pos _ rfl
  | _ =>
    simp only [List.append_nil]
    rw [hphase] at hgiven ⊢
    exact hgiven

theorem recounts_settle {profile : EmbodimentConfig} {timeouts : Timeouts} {s : Startup}
    {given : List Input} (hgiven : Recounts profile timeouts given s.process.phase) :
    Recounts profile timeouts (given ++ s.reads .settle) (s.process.settle s.now).phase := by
  unfold reads Process.settle
  cases hphase : s.process.phase with
  | settling targets deadline =>
    rw [hphase] at hgiven
    obtain ⟨htargets, t, hreleased, hdeadline⟩ := hgiven
    simp only
    by_cases hwait : s.now < deadline ∧
        Process.pending targets (s.process.describeAuthority s.now) = true
    · rw [if_pos hwait, hphase]
      refine ⟨htargets.concat rfl rfl, t, ?_, hdeadline⟩
      rwa [latest_concat_of_neg _ rfl]
    · rw [if_neg hwait]
      trivial
  | _ =>
    simp only [List.append_nil]
    rw [hphase] at hgiven ⊢
    exact hgiven

theorem recounts_step {profile : EmbodimentConfig} {timeouts : Timeouts} {s : Startup}
    (h : Inv profile timeouts s) {given : List Input}
    (hgiven : Recounts profile timeouts given s.process.phase) (l : Event) :
    Recounts profile timeouts (given ++ s.reads l) (s.step l).process.phase := by
  cases l with
  | status message => rwa [show s.reads (.status message) = [] from rfl, List.append_nil]
  | elapse seconds => rwa [show s.reads (.elapse seconds) = [] from rfl, List.append_nil]
  | call timeoutSec available =>
    by_cases hidle : s.process.phase = .idle
    · simp only [step, reads, hidle]
      exact recounts_prepareExecution hidle s.now timeoutSec available given
    · have hreads : s.reads (.call timeoutSec available) = [] := by
        unfold reads
        cases hphase : s.process.phase with
        | idle => exact absurd hphase hidle
        | _ => rfl
      simp only [step, if_neg hidle, hreads, List.append_nil]
      exact hgiven
  | poll => exact recounts_poll h hgiven
  | clear available => exact recounts_clear h hgiven available
  | claimAnswered answer available =>
    rw [show s.reads (.claimAnswered answer available) = [] from rfl, List.append_nil]
    exact recounts_claimAnswered hgiven answer available
  | releaseAnswered answer => exact recounts_releaseAnswered h hgiven answer
  | settle => exact recounts_settle hgiven

/-! ## The step that marks -/

theorem faultFree_of_faulted {profile : EmbodimentConfig} {t : ℚ} {message : AuthorityStatus}
    (h : (faulted (namedContracts profile) message.allocations).isEmpty = true) :
    FaultFree profile (some (t, message)) := by
  intro t' m hm name agent hagent part hpart hfault
  cases hm
  have hmem : part ∈ (faulted (namedContracts profile) message.allocations).entries.map
      Prod.fst :=
    System.mem_keys_faulted.mpr
      ⟨(mem_namedContracts profile part).mpr ⟨name, agent, hagent, hpart⟩, hfault⟩
  unfold Dict.isEmpty at h
  rw [List.isEmpty_iff.mp h] at hmem
  cases hmem

theorem Moves.prepared_iff {marks : Prop} {p p' : Process} (h : Moves marks p p')
    (hp : p.executionPrepared = false) : p'.executionPrepared = true ↔ marks := by
  cases h with
  | stays h => simp [hp, h]
  | waits h _ phase _ => simp [hp, h]
  | raised h e => simp [Process.raises, hp, h]
  | answers h _ snapshot => simp [hp, h]
  | prepared h snapshot => simp [Process.prepared, h]

theorem Moves.raises {marks : Prop} {p p' : Process} (h : Moves marks p p')
    (hopen : p.phase ≠ .idle) (hidle : p'.phase = .idle) (hp : p'.executionPrepared = false) :
    ∃ e, p'.returned = some (.error e) := by
  cases h with
  | stays _ => exact absurd hidle hopen
  | waits _ _ phase hphase => exact absurd hidle hphase
  | raised _ e => exact ⟨e, rfl⟩
  | answers _ h _ => exact absurd h hopen
  | prepared _ snapshot => cases hp

theorem Marks.phase_ne_idle {s : Startup} {l : Event} (h : Marks s l) :
    s.process.phase ≠ .idle := by
  intro hidle
  cases l with
  | poll => simp [Marks, PollMarks, hidle] at h
  | clear available => simp [Marks, ClearMarks, hidle] at h
  | settle => simp [Marks, SettleMarks, hidle] at h
  | _ => exact h

theorem retries_step (s : Startup) (timeoutSec : Option ℚ) (hidle : s.process.phase = .idle)
    (hp : s.process.executionPrepared = false)
    (ht : 0 < timeoutSec.getD s.process.timeoutSec) :
    (s.step (.call timeoutSec true)).process.phase =
      .describing (s.now + timeoutSec.getD s.process.timeoutSec) := by
  unfold step
  simp [hidle, Process.prepareExecution, not_le.mpr ht, hp]

/-- A step keeps the promise of `prepare_execution` unless it marks while a fault is shown. -/
theorem Inv.prepares_iff {profile : EmbodimentConfig} {timeouts : Timeouts} {s : Startup}
    (h : Inv profile timeouts s) (l : Event) :
    Prepares profile s l ↔ ¬ (¬ FaultFree profile s.last ∧ Marks s l) := by
  constructor
  · intro hprepares ⟨hfault, hmarks⟩
    have hp := h.unprepared hmarks.phase_ne_idle
    rcases step_moves s l with ⟨message, rfl⟩ | ⟨seconds, rfl⟩ | ⟨hlast, hmoves⟩
    · exact hmarks
    · exact hmarks
    · have hfree := hprepares.faultFree hp ((hmoves.prepared_iff hp).mpr hmarks)
      rw [hlast] at hfree
      exact hfault hfree
  · intro hnot
    rcases step_moves s l with ⟨message, rfl⟩ | ⟨seconds, rfl⟩ | ⟨hlast, hmoves⟩
    · refine ⟨fun hp hp' => ?_, fun hopen hidle => absurd hidle hopen, fun _ h => by cases h⟩
      exact absurd (hp.symm.trans hp') Bool.false_ne_true
    · refine ⟨fun hp hp' => ?_, fun hopen hidle => absurd hidle hopen, fun _ h => by cases h⟩
      exact absurd (hp.symm.trans hp') Bool.false_ne_true
    · refine ⟨fun hp hp' => ?_, hmoves.raises, fun timeoutSec hl hidle hp ht => ?_⟩
      · by_contra hfault
        rw [hlast] at hfault
        exact hnot ⟨hfault, (hmoves.prepared_iff hp).mp hp'⟩
      · subst hl
        exact retries_step s timeoutSec hidle hp ht

/-! ## The inputs that mislead -/

theorem faulted_isEmpty_iff {resources : Dict String String} {snapshot : Snapshot} :
    (faulted resources snapshot).isEmpty = true ↔
      ∀ part ∈ resources.keys, authorityState snapshot part ≠ .fault := by
  unfold Dict.isEmpty
  rw [List.isEmpty_iff]
  constructor
  · intro hempty part hpart hfault
    have hmem := System.mem_keys_faulted.mpr ⟨hpart, hfault⟩
    rw [hempty] at hmem
    cases hmem
  · intro hnone
    by_contra hne
    obtain ⟨e, he⟩ := List.exists_mem_of_ne_nil _ hne
    obtain ⟨hpart, hfault⟩ := System.mem_keys_faulted.mp (List.mem_map_of_mem he)
    exact hnone e.1 hpart hfault

/-- A resource in FAULT at a look, among those of the profile. -/
theorem mem_keys_faulted_named {profile : EmbodimentConfig} {snapshot : Snapshot}
    {part : String} : part ∈ (faulted (namedContracts profile) snapshot).keys ↔
      Commands profile part ∧ authorityState snapshot part = .fault := by
  rw [Dict.keys, System.mem_keys_faulted, mem_namedContracts]
  exact Iff.rfl

theorem mem_keys_targets {profile : EmbodimentConfig} {first second : Snapshot}
    {part : String} : part ∈ (faulted (faulted (namedContracts profile) first) second).keys ↔
      Commands profile part ∧ authorityState first part = .fault ∧
        authorityState second part = .fault := by
  rw [Dict.keys, System.mem_keys_faulted, mem_keys_faulted_named, and_assoc]

theorem pending_iff {targets : Dict String String} {m : Moment} {statusTimeoutSec : ℚ} :
    Process.pending targets (m.shown statusTimeoutSec) = true ↔
      ∃ part ∈ targets.keys, m.Uncleared statusTimeoutSec part := by
  unfold Process.pending Moment.Uncleared
  rw [List.any_eq_true]
  refine exists_congr fun part => and_congr_right fun _ => ?_
  cases (m.shown statusTimeoutSec).get? part with
  | none => simp
  | some item => simp

/-- The look of the waiting loop marks only what the last message shows to be free of faults. -/
theorem Inv.faultFree_of_looked {profile : EmbodimentConfig} {timeouts : Timeouts} {s : Startup}
    (h : Inv profile timeouts s)
    (hsome : (s.process.describeAuthority s.now).isEmpty = false)
    (hfaulted : (faulted s.process.contracts (s.process.describeAuthority s.now)).isEmpty =
      true) : FaultFree profile s.last := by
  rw [h.describeAuthority] at hsome hfaulted
  rw [h.contracts] at hfaulted
  unfold Moment.shown moment at hsome hfaulted
  cases hlast : s.last with
  | none =>
    rw [hlast] at hsome
    cases hsome
  | some received =>
    obtain ⟨t, message⟩ := received
    rw [hlast] at hsome hfaulted
    simp only at hsome hfaulted
    by_cases hexpired : timeouts.statusTimeoutSec < s.now - t
    · rw [if_pos hexpired] at hsome
      cases hsome
    · rw [if_neg hexpired] at hfaulted
      exact faultFree_of_faulted hfaulted

theorem misleads_waited_iff {profile : EmbodimentConfig} {timeouts : Timeouts}
    {given : List Input} {deadline : ℚ} (m : Moment)
    (hgiven : Recounts profile timeouts given (.undescribed deadline)) :
    Misleads profile timeouts given (.waited m) ↔
      ¬ FaultFree profile m.last ∧ deadline ≤ m.now := by
  obtain ⟨t, timeoutSec, hcalled, rfl⟩ := hgiven
  refine and_congr_right fun _ => ⟨fun hmisled => ?_, fun hdeadline => ?_⟩
  · obtain ⟨t', timeoutSec', hcalled', hdeadline⟩ := hmisled
    rw [hcalled] at hcalled'
    cases hcalled'
    exact hdeadline
  · exact ⟨t, timeoutSec, hcalled, hdeadline⟩

theorem misleads_cleared_iff {profile : EmbodimentConfig} {timeouts : Timeouts}
    {given : List Input} {resources : Dict String String} (m : Moment)
    (hgiven : Recounts profile timeouts given (.clearing resources)) :
    Misleads profile timeouts given (.cleared m) ↔ ¬ FaultFree profile m.last ∧
      (faulted resources (m.shown timeouts.statusTimeoutSec)).isEmpty = true := by
  obtain ⟨m₁, hlooked, rfl⟩ := hgiven
  rw [faulted_isEmpty_iff]
  refine and_congr_right fun _ => ⟨fun hmisled part hpart => ?_, fun hnone => ?_⟩
  · obtain ⟨m₁', hlooked', hnone⟩ := hmisled
    rw [hlooked] at hlooked'
    cases hlooked'
    obtain ⟨hcommands, hfault⟩ := mem_keys_faulted_named.mp hpart
    exact hnone part hcommands hfault
  · refine ⟨m₁, hlooked, fun part hcommands hfault => ?_⟩
    exact hnone part (mem_keys_faulted_named.mpr ⟨hcommands, hfault⟩)

theorem misleads_settled_iff {profile : EmbodimentConfig} {timeouts : Timeouts}
    {given : List Input} {targets : Dict String String} {deadline : ℚ} (m : Moment)
    (hgiven : Recounts profile timeouts given (.settling targets deadline)) :
    Misleads profile timeouts given (.settled m) ↔ ¬ FaultFree profile m.last ∧
      ¬ (m.now < deadline ∧
        Process.pending targets (m.shown timeouts.statusTimeoutSec) = true) := by
  obtain ⟨⟨m₁, m₂, hlooked, hcleared, rfl⟩, t, hreleased, rfl⟩ := hgiven
  rw [pending_iff, not_and_or, not_lt]
  refine and_congr_right fun _ => ⟨fun hmisled => ?_, fun hover => ?_⟩
  · obtain ⟨m₁', m₂', t', hlooked', hcleared', hreleased', hover⟩ := hmisled
    rw [hlooked] at hlooked'
    rw [hcleared] at hcleared'
    rw [hreleased] at hreleased'
    cases hlooked'
    cases hcleared'
    cases hreleased'
    refine hover.imp_right fun hnone ⟨part, hpart, huncleared⟩ => ?_
    obtain ⟨hcommands, hfirst, hsecond⟩ := mem_keys_targets.mp hpart
    exact hnone part hcommands hfirst hsecond huncleared
  · refine ⟨m₁, m₂, t, hlooked, hcleared, hreleased, hover.imp_right fun hnone => ?_⟩
    intro part hcommands hfirst hsecond huncleared
    exact hnone ⟨part, mem_keys_targets.mpr ⟨hcommands, hfirst, hsecond⟩, huncleared⟩

/-- A step keeps the promise unless it is given an input that misleads it. -/
theorem Inv.prepares_iff_reads {profile : EmbodimentConfig} {timeouts : Timeouts} {s : Startup}
    (h : Inv profile timeouts s) {given : List Input}
    (hgiven : Recounts profile timeouts given s.process.phase) (l : Event) :
    Prepares profile s l ↔ ∀ pre x, pre ++ [x] <+: s.reads l →
      ¬ Misleads profile timeouts (given ++ pre) x := by
  rw [h.prepares_iff l]
  cases l with
  | poll =>
    simp only [Marks, PollMarks, reads]
    cases hphase : s.process.phase with
    | describing deadline =>
      rw [forall_concat_prefix_singleton (Q := fun pre x => ¬ Misleads profile timeouts
        (given ++ pre) x)]
      refine iff_of_true ?_ id
      rintro ⟨hfault, hsome, hfaulted⟩
      exact hfault (h.faultFree_of_looked hsome hfaulted)
    | undescribed deadline =>
      rw [hphase] at hgiven
      rw [forall_concat_prefix_singleton (Q := fun pre x => ¬ Misleads profile timeouts
        (given ++ pre) x), List.append_nil, misleads_waited_iff s.moment hgiven]
      exact Iff.rfl
    | _ => exact iff_of_true (fun hmarks => hmarks.2) forall_concat_prefix_nil
  | clear available =>
    simp only [Marks, ClearMarks, reads]
    cases hphase : s.process.phase with
    | clearing resources =>
      rw [hphase] at hgiven
      rw [forall_concat_prefix_singleton (Q := fun pre x => ¬ Misleads profile timeouts
        (given ++ pre) x), List.append_nil, misleads_cleared_iff s.moment hgiven,
        h.describeAuthority]
      exact Iff.rfl
    | _ => exact iff_of_true (fun hmarks => hmarks.2) forall_concat_prefix_nil
  | settle =>
    simp only [Marks, SettleMarks, reads]
    cases hphase : s.process.phase with
    | settling targets deadline =>
      rw [hphase] at hgiven
      rw [forall_concat_prefix_singleton (Q := fun pre x => ¬ Misleads profile timeouts
        (given ++ pre) x), List.append_nil, misleads_settled_iff s.moment hgiven,
        h.describeAuthority]
      exact Iff.rfl
    | _ => exact iff_of_true (fun hmarks => hmarks.2) forall_concat_prefix_nil
  | call timeoutSec available =>
    refine iff_of_true (fun hmarks => hmarks.2) fun pre x hx hmisleads => ?_
    unfold reads at hx
    cases hphase : s.process.phase with
    | idle =>
      rw [hphase] at hx
      obtain rfl : x = _ := List.mem_singleton.mp (hx.subset (by simp))
      exact hmisleads
    | _ =>
      rw [hphase] at hx
      exact absurd (hx.subset (List.mem_append_right pre (List.mem_singleton_self x)))
        List.not_mem_nil
  | releaseAnswered answer =>
    refine iff_of_true (fun hmarks => hmarks.2) fun pre x hx hmisleads => ?_
    unfold reads at hx
    cases hphase : s.process.phase with
    | releasing targets leaseId call =>
      rw [hphase] at hx
      obtain rfl : x = _ := List.mem_singleton.mp (hx.subset (by simp))
      exact hmisleads
    | _ =>
      rw [hphase] at hx
      exact absurd (hx.subset (List.mem_append_right pre (List.mem_singleton_self x)))
        List.not_mem_nil
  | _ => exact iff_of_true (fun hmarks => hmarks.2) forall_concat_prefix_nil

/-- **Prepared means fault-free.** A run keeps the promise of `prepare_execution` exactly where
none of the inputs that its calls are given misleads them. -/
theorem prepared_faultFree_iff (profile : EmbodimentConfig) (timeouts : Timeouts)
    (timeoutSec now : ℚ) (ls : List Event) :
    Follows step (Prepares profile) (init profile timeouts timeoutSec now) ls ↔
      ∀ given x, given ++ [x] <+: outputs step reads (init profile timeouts timeoutSec now) ls →
        ¬ Misleads profile timeouts given x := by
  have hstart : Inv profile timeouts (init profile timeouts timeoutSec now) ∧
      Recounts profile timeouts [] (init profile timeouts timeoutSec now).process.phase :=
    ⟨inv_init profile timeouts timeoutSec now, trivial⟩
  have hrun := follows_iff_outputs (Q := fun given x => ¬ Misleads profile timeouts given x)
    (fun s given => Inv profile timeouts s ∧ Recounts profile timeouts given s.process.phase)
    (fun _ l _ h => ⟨inv_step h.1 l, recounts_step h.1 h.2 l⟩)
    (fun _ l _ h => h.1.prepares_iff_reads h.2 l) hstart ls
  simpa only [List.nil_append] using hrun

/-! ## A fault that outlives the deadline -/

def armPart : PartConfig where
  name := .str "arm"
  partType := "arm"
  jointNames := ["j1"]
  controllerManager := "/controller_manager"
  controllers := Dict.ofPairs [(.str "joint_space_reference", ⟨"arm_jspc",
    "manipulation_position_controllers/JointSpacePositionController", "position", Dict.empty,
    Dict.ofPairs [("joint_reference", "/execution/arm/joint_reference")]⟩)]
  defaultController := "joint_space_reference"
  parent := none
  baseFrame := none
  flangeFrame := none
  tcpFrame := none

def policyProfile : EmbodimentConfig where
  name := "test"
  parts := Dict.ofPairs [(.str "arm", armPart)]
  groups := Dict.empty
  metadata := Dict.ofPairs [(.str "name", .str "test")]
  hostRoles := Dict.empty
  cameras := Dict.empty
  agents := Dict.ofPairs [(.str "Policy", ⟨.str "Policy", .policy,
    Dict.ofPairs [(.str "arm", "joint_reference")], none⟩)]
  recording := Dict.empty
  features := Dict.empty
  calibration := Dict.empty
  streams := Dict.empty
  rawData := Dict.empty

def armFault : AuthorityStatus := ⟨[⟨"arm", .fault, "", 0, "", "", "", []⟩]⟩

/-- The fault is read, a claim and its release succeed, and the fault is still there when the wait
for the cleared arm is over. -/
def stuckFault : List Event :=
  [.status armFault, .call none true, .poll, .clear true,
    .claimAnswered (.response ⟨true, "", "lease-1",
      [⟨"arm", "joint_reference", "/arm/joint_reference", false⟩]⟩) true,
    .releaseAnswered (.response true ""), .elapse 6, .status armFault]

theorem stuckFault_prepared : ¬ Follows step (Prepares policyProfile)
    (init policyProfile Timeouts.default 5 0) (stuckFault ++ [.settle]) := by
  intro hrun
  obtain ⟨hprepares, -⟩ := ((follows_append _ _ _).mp hrun).2
  have hbefore : (run step (init policyProfile Timeouts.default 5 0)
      stuckFault).process.executionPrepared = false := by
    decide +kernel
  have hafter : (step (run step (init policyProfile Timeouts.default 5 0) stuckFault)
      .settle).process.executionPrepared = true := by
    decide +kernel
  have hagent : ∃ agent, policyProfile.agents.get? (.str "Policy") = some agent ∧
      .str "arm" ∈ agent.resources.keys := ⟨_, rfl, by decide⟩
  obtain ⟨agent, hget, hmem⟩ := hagent
  have hlast : ∃ t, (step (run step (init policyProfile Timeouts.default 5 0) stuckFault)
      .settle).last = some (t, armFault) := ⟨_, rfl⟩
  obtain ⟨t, hlast⟩ := hlast
  have hfree := hprepares.faultFree hbefore hafter t armFault hlast _ agent hget "arm" hmem
  exact hfree (by decide)

end Startup
end PhysicalAiRuntime.Recovery
