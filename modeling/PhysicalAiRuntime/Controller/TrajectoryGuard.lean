import Mathlib.Algebra.Field.Rat
import Mathlib.Data.NNRat.Defs
import Mathlib.Algebra.Order.Ring.Rat
import PhysicalAiRuntime.Foundations.PyError
import PhysicalAiRuntime.Foundations.Trace

/-! `JointTrajectoryControllerClient` with its trajectory guard. Each block under the lock is one
step; the coroutines of `send`, `wait_for_result` and `cancel` are cut at these blocks and at their
awaits, and are resumed in any order. Goals are numbered as they are dispatched, and the handle of a
goal is its number. -/
namespace PhysicalAiRuntime.Controller
set_option autoImplicit false
set_option maxHeartbeats 250000

/-! ## The blocks under the lock -/

structure JointTrajectoryControllerClient where
  goalHandle : Option ℕ
  goalPending : Bool
  guardActive : Bool
  guardPublisher : Bool
  deriving DecidableEq, Repr

namespace JointTrajectoryControllerClient

def new (guardPublisher : Bool) : JointTrajectoryControllerClient :=
  ⟨none, false, false, guardPublisher⟩

/-- What a `publish` puts on the heartbeat topic. -/
def publish (c : JointTrajectoryControllerClient) (data : Bool) : List Bool :=
  if c.guardPublisher then [data] else []

def busy (c : JointTrajectoryControllerClient) : Bool := c.goalPending || c.goalHandle.isSome

/-- `send` up to its first await. -/
def beginSend (c : JointTrajectoryControllerClient) (isTrajectory : Bool) :
    Except PyError JointTrajectoryControllerClient :=
  if ¬ isTrajectory then .error ⟨.typeError, "trajectory must be a JointTrajectory"⟩
  else if c.busy then
    .error ⟨.controllerClientError, "a trajectory goal is already active for this controller"⟩
  else .ok { c with goalPending := true }

def serverFailed (c : JointTrajectoryControllerClient) : JointTrajectoryControllerClient :=
  { c with goalPending := false }

def arm (c : JointTrajectoryControllerClient) : JointTrajectoryControllerClient :=
  { c with guardActive := true }

/-- The outcome of the dispatch is unknown: silence without a disarm. -/
def dispatchUnknown (c : JointTrajectoryControllerClient) : JointTrajectoryControllerClient :=
  { c with goalPending := false, guardActive := false }

def acceptGoal (c : JointTrajectoryControllerClient) (handle : ℕ) :
    JointTrajectoryControllerClient :=
  { c with goalPending := false, goalHandle := some handle }

def markTerminal (c : JointTrajectoryControllerClient) (handle : ℕ) :
    JointTrajectoryControllerClient × List Bool :=
  if c.goalHandle = some handle then
    ({ c with goalHandle := none, guardActive := false }, c.publish false)
  else (c, [])

def abandon (c : JointTrajectoryControllerClient) (handle : ℕ) :
    JointTrajectoryControllerClient :=
  if c.goalHandle = some handle then { c with guardActive := false } else c

def heartbeat (c : JointTrajectoryControllerClient) : List Bool :=
  if c.guardActive then c.publish true else []

end JointTrajectoryControllerClient

/-! ## Coroutines -/

inductive ResultStatus where
  | succeeded
  | canceled
  | aborted
  | other (repr : String)
  deriving DecidableEq, Repr

/-- What `wait_for_result` raises for a status. -/
def ResultStatus.error : ResultStatus → Option PyError
  | .succeeded => none
  | .canceled => some ⟨.trajectoryCanceledError, "trajectory goal was canceled"⟩
  | .aborted => some ⟨.controllerClientError, "trajectory goal was aborted"⟩
  | .other repr => some ⟨.controllerClientError,
      "trajectory finished with unexpected status " ++ repr⟩

inductive Resumption where
  /-- The server is ready, or the section is done without an exception. -/
  | proceed
  | cancelledError
  | timeoutError
  | exception
  /-- An exception that neither `CancelledError` nor `Exception` covers. -/
  | killed
  | accepted
  | rejected
  | result (status : ResultStatus)
  | cancelAnswer (goalsCanceling : Bool)
  deriving DecidableEq, Repr

inductive Ending where
  | returns (handle : Option ℕ)
  | raises (e : PyError)
  /-- The exception of the await is passed on. -/
  | propagates (r : Resumption)
  deriving DecidableEq, Repr

inductive Coroutine where
  | sendWaitingServer
  | sendArming
  | sendDispatching
  | sendWaitingAccept (goal : ℕ)
  | waitingResult (handle : ℕ)
  /-- In the `finally` block of `wait_for_result`, after an unsuccessful result. -/
  | waitFinally (handle : ℕ) (e : PyError)
  | cancelWaiting (handle : ℕ)
  | finished (ending : Ending)
  deriving DecidableEq, Repr

def Resumption.caught : Resumption → Bool
  | .cancelledError => true
  | .timeoutError => true
  | .exception => true
  | _ => false

def rejectedError : PyError := ⟨.controllerClientError, "trajectory goal was rejected"⟩

/-- One section of a coroutine; `goal` is the number the next goal gets. -/
def resume (c : JointTrajectoryControllerClient) (goal : ℕ) :
    Coroutine → Resumption → JointTrajectoryControllerClient × Coroutine × List Bool
  | .finished ending, _ => (c, .finished ending, [])
  | _, .killed => (c, .finished (.propagates .killed), [])
  | .sendWaitingServer, .proceed => (c, .sendArming, [])
  | .sendWaitingServer, r =>
    if r.caught then (c.serverFailed, .finished (.propagates r), [])
    else (c, .sendWaitingServer, [])
  | .sendArming, .proceed => (c.arm, .sendDispatching, c.publish true)
  | .sendDispatching, .proceed => (c, .sendWaitingAccept goal, [])
  | .sendDispatching, r =>
    if r.caught then (c.dispatchUnknown, .finished (.propagates r), [])
    else (c, .sendDispatching, [])
  | .sendWaitingAccept g, .accepted => (c.acceptGoal g, .finished (.returns (some g)), [])
  | .sendWaitingAccept _, .rejected =>
    (c.dispatchUnknown, .finished (.raises rejectedError), c.publish false)
  | .sendWaitingAccept g, r =>
    if r.caught then (c.dispatchUnknown, .finished (.propagates r), [])
    else (c, .sendWaitingAccept g, [])
  | .waitingResult h, .result status =>
    match status.error with
    | none => ((c.markTerminal h).1, .finished (.returns none), (c.markTerminal h).2)
    | some e => (c.abandon h, .waitFinally h e, [])
  | .waitingResult _, .timeoutError => (c, .finished (.propagates .timeoutError), [])
  | .waitingResult h, .cancelledError => (c.abandon h, .finished (.propagates .cancelledError), [])
  | .waitingResult h, .exception => (c.abandon h, .finished (.propagates .exception), [])
  | .waitFinally h e, .proceed => ((c.markTerminal h).1, .finished (.raises e), (c.markTerminal h).2)
  | .cancelWaiting h, .cancelAnswer _ =>
    ((c.markTerminal h).1, .finished (.returns none), (c.markTerminal h).2)
  | .cancelWaiting _, .cancelledError => (c, .finished (.propagates .cancelledError), [])
  | .cancelWaiting h, .timeoutError => (c.abandon h, .finished (.propagates .timeoutError), [])
  | .cancelWaiting h, .exception => (c.abandon h, .finished (.propagates .exception), [])
  | co, _ => (c, co, [])

/-- A dispatch that raises may have sent its goal. -/
def dispatches : Coroutine → Resumption → Bool
  | .sendDispatching, .proceed => true
  | .sendDispatching, .killed => true
  | .sendDispatching, r => r.caught
  | _, _ => false

/-- The goal whose handle `send` returns after this section. -/
def accepts : Coroutine → Resumption → Option ℕ
  | .sendWaitingAccept g, .accepted => some g
  | _, _ => none

/-- The goal of which the client learns in this section that it does not run, or was canceled. An
answer that names no canceling goal does not say so. -/
def learns : Coroutine → Resumption → Option ℕ
  | .sendWaitingAccept g, .rejected => some g
  | .waitingResult h, .result _ => some h
  | .cancelWaiting h, .cancelAnswer true => some h
  | _, _ => none

/-! ## The client, its coroutines and the clock -/

/-- What became of a dispatched goal: `known` to be rejected, terminal or canceled, and `silent`
once no heartbeat was published for as long as the guard waits. -/
structure GoalRecord where
  dispatchedAt : ℚ
  known : Bool
  silent : Bool
  deriving DecidableEq, Repr

def GoalRecord.settled (r : GoalRecord) : Bool := r.known || r.silent

structure Guard where
  client : JointTrajectoryControllerClient
  coroutines : List Coroutine
  goals : List GoalRecord
  handles : List ℕ
  now : ℚ
  lastBeat : ℚ
  published : List Bool

inductive GuardStep where
  | send (isTrajectory : Bool)
  | waitForResult (handle : ℕ)
  | cancel
  | resume (k : ℕ) (r : Resumption)
  | heartbeat
  | tick (elapsed : ℚ≥0)

namespace Guard

def init (guardPublisher : Bool) (now : ℚ) : Guard :=
  ⟨JointTrajectoryControllerClient.new guardPublisher, [], [], [], now, now, []⟩

/-- Messages on the heartbeat topic; a heartbeat is a message that says true. -/
def emit (s : Guard) (messages : List Bool) : Guard :=
  { s with
    published := s.published ++ messages
    lastBeat := if true ∈ messages then s.now else s.lastBeat }

def send (s : Guard) (isTrajectory : Bool) : Outcome Guard Unit :=
  match s.client.beginSend isTrajectory with
  | .error e => (s, .error e)
  | .ok client =>
    ({ s with client := client, coroutines := s.coroutines ++ [.sendWaitingServer] }, .ok ())

def waitForResult (s : Guard) (handle : ℕ) : Guard :=
  if handle ∈ s.handles then { s with coroutines := s.coroutines ++ [.waitingResult handle] } else s

def cancel (s : Guard) : Guard :=
  match s.client.goalHandle with
  | none => s
  | some handle => { s with coroutines := s.coroutines ++ [.cancelWaiting handle] }

def learn (goals : List GoalRecord) : Option ℕ → List GoalRecord
  | none => goals
  | some g => goals.modify g fun record => { record with known := true }

def resumeAt (s : Guard) (k : ℕ) (r : Resumption) : Guard :=
  match s.coroutines[k]? with
  | none => s
  | some co =>
    let (client, co', messages) := resume s.client s.goals.length co r
    emit { s with
      client := client
      coroutines := s.coroutines.set k co'
      goals := learn s.goals (learns co r) ++
        if dispatches co r then [⟨s.now, false, false⟩] else []
      handles := s.handles ++ (accepts co r).toList } messages

def heartbeat (s : Guard) : Guard := s.emit s.client.heartbeat

/-- Time passes; `guardTimeout` is how long the RT guard waits for a heartbeat. -/
def tick (guardTimeout : ℚ) (s : Guard) (elapsed : ℚ≥0) : Guard :=
  { s with
    now := s.now + elapsed
    goals := s.goals.map fun record => { record with
      silent := record.silent ||
        decide (guardTimeout ≤ s.now + elapsed - max record.dispatchedAt s.lastBeat) } }

def step (guardTimeout : ℚ) (s : Guard) : GuardStep → Guard
  | .send isTrajectory => (s.send isTrajectory).1
  | .waitForResult handle => s.waitForResult handle
  | .cancel => s.cancel
  | .resume k r => s.resumeAt k r
  | .heartbeat => s.heartbeat
  | .tick elapsed => s.tick guardTimeout elapsed

end Guard
end PhysicalAiRuntime.Controller
