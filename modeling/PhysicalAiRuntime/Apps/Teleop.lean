import PhysicalAiRuntime.Control.Stack

/-! The main loop of the teleoperation application. It is cut at its blocking calls: the prompt, the
claim and the wait of an entry, the leader services, and the release of an exit. An operator
interrupt may end any of them. -/
namespace PhysicalAiRuntime.Apps
open Authority Provider Control
set_option autoImplicit false
set_option maxHeartbeats 250000

/-! ## The leaders -/

structure Leader where
  name : String
  preemptService : String
  deriving DecidableEq

/-- How the preempt service of a leader answers. -/
inductive PreemptAnswer where
  | unavailable
  | timedOut
  | noResponse
  | refused (message : String)
  | raised (className : String)
  | confirmed
  deriving DecidableEq

def preemptFailure (leader : Leader) (answer : PreemptAnswer) : Option String :=
  if leader.preemptService = "" then some (leader.name ++ ": missing preempt_service")
  else match answer with
    | .unavailable => some (leader.name ++ ": " ++ leader.preemptService ++ " unavailable")
    | .timedOut => some (leader.name ++ ": " ++ leader.preemptService ++ " timed out")
    | .noResponse => some (leader.name ++ ": no response")
    | .refused message => some (leader.name ++ ": " ++ message)
    | .raised className => some (leader.name ++ ": " ++ className)
    | .confirmed => none

def setTeleopPreempt (leaders : List Leader) (contextOk : Bool)
    (answer : String → PreemptAnswer) : Bool :=
  if leaders.isEmpty ∨ ¬ contextOk then leaders.isEmpty
  else (leaders.filterMap fun leader => preemptFailure leader (answer leader.name)).isEmpty

/-! ## The state of `main` -/

/-- A session is named by its engagement and the place of its leader. -/
abbrev SessionId : Type := ℕ × ℕ

inductive Raised where
  | exception
  | keyboardInterrupt
  deriving DecidableEq

/-- Where `main` is; `last` marks the release of the `finally` block. -/
inductive Phase where
  | prompt
  | claiming (k : ℕ)
  | waiting (k : ℕ)
  /-- `candidate.close()`, with the exception it will raise. -/
  | discarding (pending : Option Raised)
  | preempting
  | releasing (last : Bool)
  /-- `active_stack.close()`, with the exception it will raise. -/
  | closing (last : Bool) (pending : Option Raised)
  /-- `ctx.close()` is called. -/
  | closed
  /-- An interrupt left the `finally` block before `ctx.close()`. -/
  | aborted
  deriving DecidableEq

structure Teleop where
  leaders : List Leader
  world : World SessionId
  engagement : ℕ
  isActive : Bool
  sessions : Dict String SessionId
  activeStack : Option (List SessionId)
  candidate : List SessionId
  phase : Phase
  /-- The sessions whose `__enter__` has returned, and those whose `__exit__` has run. -/
  entries : List SessionId
  exits : List SessionId

namespace Teleop

inductive Label where
  | callback (c : World.Callback)
  /-- A leader sends a reference for `part`. -/
  | relay (name part : String) (message : JointTrajectory) (now : Stamp)
  | submit
  /-- An interrupt or the end of the input at the prompt. -/
  | stop
  /-- `make_agent` or `run` raises. -/
  | agentRaised
  | claim (answer : ClaimAnswer)
  | poll (answer : ReleaseAnswer)
  | preempt (contextOk : Bool) (answer : String → PreemptAnswer)
  | exit (answer : ReleaseAnswer)
  | interrupt
  /-- An interrupt of a release of a lease; `sent` says that the request had been sent. -/
  | interruptRelease (sent : Bool)

def init (leaders : List Leader) (world : World SessionId) : Teleop where
  leaders := leaders
  world := world
  engagement := 0
  isActive := false
  sessions := Dict.empty
  activeStack := none
  candidate := []
  phase := if leaders.isEmpty then .closed else .prompt
  entries := []
  exits := []

/-! ## Releasing -/

/-- Whatever ends the loop leads to the `finally` block; a candidate stack is lost with its
frame. -/
def finalize (s : Teleop) : Teleop := { s with candidate := [], phase := .releasing true }

/-- The end of `_release_teleop`, once the active stack is closed. -/
def released (s : Teleop) (last : Bool) : Teleop :=
  { s with
    activeStack := none
    isActive := false
    phase := if last then .closed else .prompt }

/-- `active_stack.close()` has run every exit; only an interrupt passes `except Exception`. -/
def closedStack (s : Teleop) (last : Bool) (pending : Option Raised) : Teleop :=
  match pending with
  | some .keyboardInterrupt => if last then { s with phase := .aborted } else s.finalize
  | _ => s.released last

def closeActive (s : Teleop) (last : Bool) (pending : Option Raised) : Teleop :=
  match s.activeStack with
  | none => s.released last
  | some [] => s.closedStack last pending
  | some (_ :: _) => { s with phase := .closing last pending }

/-- `candidate.close()` has run every exit; the exception of the entry or of an exit goes on. -/
def discard (s : Teleop) (pending : Option Raised) : Teleop :=
  match s.candidate with
  | [] => { s with isActive := s.isActive && pending.isSome }.finalize
  | _ :: _ => { s with phase := .discarding pending }

/-- The `except` clause of the engagement. -/
def engagementFailed (s : Teleop) : Teleop := { s with sessions := Dict.empty }.discard none

/-! ## Exits -/

/-- A release interrupted by the operator; the `finally` block of the session still runs. -/
def leaveInterrupted (w : World SessionId) (i : SessionId) (sent : Bool) : World SessionId :=
  ((if sent then (w.releaseClaim i .timedOut).1 else w).leave i).1

/-- One exit of a stack that is being closed, and the exception that is on its way after it. -/
def exitOne (s : Teleop) (i : SessionId) (pending : Option Raised) (answer : ReleaseAnswer) :
    Teleop × Option Raised :=
  match s.world.exit i pending.isSome answer with
  | (w, .error _) => ({ s with world := w, exits := s.exits ++ [i] }, some .exception)
  | (w, .ok ()) => ({ s with world := w, exits := s.exits ++ [i] }, pending)

def exitInterrupted (s : Teleop) (i : SessionId) (sent : Bool) : Teleop × Option Raised :=
  ({ s with world := leaveInterrupted s.world i sent, exits := s.exits ++ [i] },
    some .keyboardInterrupt)

/-- The exit of the last session of the stack under way, by `exitOne` or an interrupt. -/
def exitStep (s : Teleop)
    (run : Teleop → SessionId → Option Raised → Teleop × Option Raised) : Teleop :=
  match s.phase with
  | .discarding pending =>
    match s.candidate.getLast? with
    | none => s
    | some i =>
      let (s, pending) := run s i pending
      { s with candidate := s.candidate.dropLast }.discard pending
  | .closing last pending =>
    match s.activeStack.bind List.getLast? with
    | none => s
    | some i =>
      let (s, pending) := run s i pending
      { s with activeStack := s.activeStack.map List.dropLast }.closeActive last pending
  | _ => s

/-! ## Engaging -/

/-- The next leader, or the leader services once every session is entered. -/
def engage (s : Teleop) (k : ℕ) : Teleop :=
  if k < s.leaders.length then { s with phase := .claiming k }
  else { s with activeStack := some s.candidate, candidate := [], phase := .preempting }

def submit (s : Teleop) : Teleop :=
  if s.isActive then { s with isActive := false, phase := .releasing false }
  else { s with
    isActive := true
    engagement := s.engagement + 1
    candidate := [] }.engage 0

def claim (s : Teleop) (k : ℕ) (answer : ClaimAnswer) : Teleop :=
  match s.world.enterClaim (s.engagement, k) answer with
  | (w, .error _) => { s with world := w }.engagementFailed
  | (w, .ok ()) => { s with world := w, phase := .waiting k }

def leaderName (s : Teleop) (k : ℕ) : String := (s.leaders[k]?.map Leader.name).getD ""

def entered (s : Teleop) (k : ℕ) : Teleop :=
  { s with
    sessions := s.sessions.set (s.leaderName k) (s.engagement, k)
    candidate := s.candidate ++ [(s.engagement, k)]
    entries := s.entries ++ [(s.engagement, k)] }.engage (k + 1)

def poll (s : Teleop) (k : ℕ) (answer : ReleaseAnswer) : Teleop :=
  match s.world.waiting (s.engagement, k) with
  | none => s
  | some deadline =>
    match s.world.enterPoll (s.engagement, k) deadline answer with
    | (w, none) => { s with world := w }
    | (w, some (.ok ())) => { s with world := w }.entered k
    | (w, some (.error _)) => { s with world := w }.engagementFailed

/-- The release of an entry that timed out is interrupted. -/
def backOutInterrupted (s : Teleop) (k : ℕ) (sent : Bool) : Teleop :=
  match s.world.waiting (s.engagement, k) with
  | none => s
  | some deadline =>
    if s.world.active (s.engagement, k) = false ∧ deadline ≤ s.world.now then
      { s with world := leaveInterrupted s.world (s.engagement, k) sent }.finalize
    else s

/-! ## Steps -/

def relay (s : Teleop) (name part : String) (message : JointTrajectory) (now : Stamp) : Teleop :=
  match s.sessions.get? name with
  | none => s
  | some i =>
    if s.world.activeFor i part then
      { s with
        world := (s.world.act i ⟨part, "joint_reference", .jointTrajectory message⟩ none now).1 }
    else s

def interrupt (s : Teleop) : Teleop :=
  match s.phase with
  | .claiming _ => s.finalize
  | .waiting _ => s.finalize
  | .preempting => s.finalize
  | .releasing last => if last then { s with phase := .aborted } else s.finalize
  | _ => s

def interruptRelease (s : Teleop) (sent : Bool) : Teleop :=
  match s.phase with
  | .waiting k => s.backOutInterrupted k sent
  | _ => s.exitStep fun s i pending =>
    -- an exit that finds its session displaced sends no release to interrupt
    if s.world.isExplicitlyDisplaced i then s.exitOne i pending .unavailable
    else s.exitInterrupted i sent

def step (s : Teleop) : Label → Teleop
  | .callback c => { s with world := s.world.callback c }
  | .relay name part message now => s.relay name part message now
  | .submit => if s.phase = .prompt then s.submit else s
  | .stop => if s.phase = .prompt then s.finalize else s
  | .agentRaised => match s.phase with
    | .claiming _ => s.engagementFailed
    | _ => s
  | .claim answer => match s.phase with
    | .claiming k => s.claim k answer
    | _ => s
  | .poll answer => match s.phase with
    | .waiting k => s.poll k answer
    | _ => s
  | .preempt contextOk answer => match s.phase with
    | .preempting =>
      if setTeleopPreempt s.leaders contextOk answer then { s with phase := .prompt }
      else { s with phase := .releasing false }
    | .releasing last => { s with sessions := Dict.empty }.closeActive last none
    | _ => s
  | .exit answer => s.exitStep fun s i pending => s.exitOne i pending answer
  | .interrupt => s.interrupt
  | .interruptRelease sent => s.interruptRelease sent

end Teleop
end PhysicalAiRuntime.Apps
