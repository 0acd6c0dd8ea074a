import Mathlib.Algebra.Order.Field.Rat
import Mathlib.Data.List.Infix
import PhysicalAiRuntime.Foundations.PyError
import PhysicalAiRuntime.Foundations.SharedInput
import PhysicalAiRuntime.Foundations.Trace

/-! The loop of `record.py` over its episodes, with the threads that wait for the ENTER at the end
of an episode. The main thread and every stop thread call `input()` on the same standard input; a
stop thread ends only when its call returns. -/
namespace PhysicalAiRuntime.Apps
open Trace
set_option autoImplicit false
set_option maxHeartbeats 250000

/-! ## What is read and recorded -/

/-- What `input()` meets: a line, or the end of the input, for which it raises `EOFError`. -/
inductive Entry where
  | line (text : String)
  | eof
  deriving DecidableEq

inductive Reader where
  | main
  /-- The stop thread of a recording. -/
  | stop (recording : ℕ)
  deriving DecidableEq

inductive StopThread where
  /-- Not yet in `input()`. -/
  | started
  | reading
  /-- `input()` has returned. -/
  | returned
  /-- The stop event is set. -/
  | finished
  /-- `input()` has raised. -/
  | failed
  deriving DecidableEq

/-- A path, by the components that `pathlib` finds in its text. -/
structure EpisodePath where
  parts : List String
  deriving DecidableEq

def EpisodePath.name (p : EpisodePath) : String := (p.parts.getLast?.filter (· ≠ "/")).getD ""

def EpisodePath.parent (p : EpisodePath) : EpisodePath :=
  if p.parts = ["/"] then p else ⟨p.parts.dropLast⟩

/-- An entry of `saved_episodes`, with the number of the recording it is about. -/
structure SavedEpisode where
  recording : ℕ
  path : Option EpisodePath
  deriving DecidableEq

inductive GateChoice where
  | save
  | discard
  | replay
  | quit
  | unknown
  deriving DecidableEq

/-- `str.isspace` of a character. -/
def isSpace (c : Char) : Bool :=
  (9 ≤ c.toNat && c.toNat ≤ 13) || (28 ≤ c.toNat && c.toNat ≤ 32) ||
    (0x2000 ≤ c.toNat && c.toNat ≤ 0x200A) ||
    c.toNat ∈ [0x85, 0xA0, 0x1680, 0x2028, 0x2029, 0x202F, 0x205F, 0x3000]

def strip (text : List Char) : List Char :=
  ((text.dropWhile isSpace).reverse.dropWhile isSpace).reverse

/-- `choice`. Only ASCII letters have a lower case among the letters of the words below. -/
def gateChoice (text : String) : GateChoice :=
  let choice := (strip text.toList).map Char.toLower
  if choice ∈ ["".toList, "s".toList, "save".toList] then .save
  else if choice ∈ ["d".toList, "discard".toList] then .discard
  else if choice ∈ ["r".toList, "replay".toList] then .replay
  else if choice ∈ ["q".toList, "quit".toList] then .quit
  else .unknown

/-- `_finalized_episode_directory`: the path of the final status, where there is one. -/
def finalizedEpisodeDirectory (episodePath : Option EpisodePath) (isDir : Bool) :
    Except PyError EpisodePath :=
  match episodePath with
  | none => .error ⟨.runtimeError, "recorder finalized episode without an episode_path"⟩
  | some path => .ok (if isDir then path else path.parent)

/-! ## The state -/

/-- Where the main thread is. -/
inductive RecordLoop.Phase where
  | staging
  /-- At the prompt before an episode. -/
  | ready
  /-- From `metadata` to the start of the stop thread. -/
  | engaging
  | recording
  /-- The exits of the sessions and of the recorder's scope. -/
  | releasing
  /-- At the Episode Action prompt. -/
  | gate
  | discarding
  /-- `homing_thread.join()`. -/
  | joining
  | replaying
  | quitting
  /-- From the `finally` block on. -/
  | ended
  deriving DecidableEq

structure RecordLoop where
  targetEpisodes : ℤ
  /-- `none` is a duration that is never reached. -/
  maxDurationS : Option ℚ
  currentEpIdx : ℤ
  phase : RecordLoop.Phase
  input : SharedInput Reader Entry
  /-- The stop threads that were started, by the number of their recording. -/
  stopThreads : List StopThread
  /-- `none` as long as it is not assigned. -/
  elapsed : Option ℚ
  /-- `none` is the empty text. -/
  lastRecordedPath : Option EpisodePath
  savedEpisodes : List SavedEpisode
  removed : List EpisodePath
  /-- The recordings that ran into the maximal duration. -/
  timedOut : List ℕ

namespace RecordLoop

/-- What the operator, the clock, the threads and the other parts of the program do. -/
inductive Label where
  /-- The operator enters a line, or ends the input; `k` picks a reader. -/
  | enter (entry : Entry) (k : ℕ)
  /-- The main thread calls `input()`. -/
  | ask
  /-- The stop thread of a recording goes on. -/
  | thread (recording : ℕ)
  | staged
  /-- Whether every leader has confirmed. -/
  | engaged (confirmed : Bool)
  | iterate (elapsed : ℚ)
  | concluded (episodePath : Option EpisodePath) (isDir : Bool)
  | cleaned (isDir : Bool)
  | joined
  | replayed
  /-- An exception or an interrupt ends the loop. -/
  | raised

def init (targetEpisodes : ℤ) (maxDurationS : Option ℚ) : RecordLoop where
  targetEpisodes := targetEpisodes
  maxDurationS := maxDurationS
  currentEpIdx := 1
  phase := if 1 ≤ targetEpisodes then .staging else .ended
  input := SharedInput.new
  stopThreads := []
  elapsed := none
  lastRecordedPath := none
  savedEpisodes := []
  removed := []
  timedOut := []

/-- The number of the latest recording. -/
def recording (s : RecordLoop) : ℕ := s.stopThreads.length - 1

def finish (s : RecordLoop) : RecordLoop :=
  { s with phase := .ended, input := s.input.leave .main }

def nextEpisode (s : RecordLoop) : RecordLoop :=
  { s with phase := if s.currentEpIdx ≤ s.targetEpisodes then .staging else .ended }

def setThread (s : RecordLoop) (n : ℕ) (t : StopThread) : RecordLoop :=
  { s with stopThreads := s.stopThreads.set n t }

/-! ## A line is received -/

def choose (s : RecordLoop) (text : String) : RecordLoop :=
  match gateChoice text with
  | .save =>
    { s with
      savedEpisodes := s.savedEpisodes ++ [⟨s.recording, s.lastRecordedPath⟩]
      currentEpIdx := s.currentEpIdx + 1
      phase := .joining }
  | .discard => { s with phase := .discarding }
  | .replay => { s with phase := .replaying }
  | .quit => { s with phase := .quitting }
  | .unknown => s

def answer (s : RecordLoop) : Entry → RecordLoop
  | .eof => s.finish
  | .line text =>
    match s.phase with
    | .ready => { s with phase := .engaging, lastRecordedPath := none }
    | .gate => s.choose text
    | _ => s

def receive (s : RecordLoop) (r : Reader) (e : Entry) : RecordLoop :=
  match r with
  | .main => s.answer e
  | .stop n => s.setThread n (match e with
    | .line _ => .returned
    | .eof => .failed)

def enter (s : RecordLoop) (e : Entry) (k : ℕ) : RecordLoop :=
  match s.input.receiver k with
  | some r => { s with input := s.input.enter e k }.receive r e
  | none => { s with input := s.input.enter e k }

/-- A reader calls `input()`. -/
def ask (s : RecordLoop) (r : Reader) : RecordLoop :=
  match (s.input.ask r).2 with
  | some e => { s with input := (s.input.ask r).1 }.receive r e
  | none => { s with input := (s.input.ask r).1 }

/-! ## The steps -/

def thread (s : RecordLoop) (n : ℕ) : RecordLoop :=
  match s.stopThreads[n]? with
  | some .started => (s.setThread n .reading).ask (.stop n)
  | some .returned => s.setThread n .finished
  | _ => s

/-- One round of the recording loop. -/
def iterate (s : RecordLoop) (elapsed : ℚ) : RecordLoop :=
  if s.stopThreads[s.recording]? = some .finished then { s with phase := .releasing }
  else if s.maxDurationS.any (· ≤ elapsed) then
    { s with
      elapsed := some elapsed
      timedOut := s.timedOut ++ [s.recording]
      phase := .releasing }
  else { s with elapsed := some elapsed }

/-- The text about the episode reads `elapsed`, which a loop without a round leaves unassigned. -/
def concluded (s : RecordLoop) (episodePath : Option EpisodePath) (isDir : Bool) : RecordLoop :=
  match finalizedEpisodeDirectory episodePath isDir with
  | .error _ => s.finish
  | .ok path =>
    if s.elapsed.isSome then { s with lastRecordedPath := some path, phase := .gate }
    else { s with lastRecordedPath := some path }.finish

def cleaned (s : RecordLoop) (isDir : Bool) : RecordLoop :=
  match s.lastRecordedPath with
  | some path =>
    if isDir ∧ "episode_".toList <:+: path.name.toList then
      { s with removed := s.removed ++ [path], phase := .joining }
    else { s with phase := .joining }
  | none => { s with phase := .joining }

def mainStep (s : RecordLoop) (l : Label) : RecordLoop :=
  match s.phase, l with
  | .ended, _ => s
  | _, .raised => s.finish
  | .staging, .staged => { s with phase := .ready }
  | .ready, .ask => s.ask .main
  | .engaging, .engaged true =>
    { s with stopThreads := s.stopThreads ++ [.started], phase := .recording }
  | .engaging, .engaged false => s.finish
  | .recording, .iterate elapsed => s.iterate elapsed
  | .releasing, .concluded episodePath isDir => s.concluded episodePath isDir
  | .gate, .ask => s.ask .main
  | .discarding, .cleaned isDir => s.cleaned isDir
  | .joining, .joined => s.nextEpisode
  | .replaying, .replayed => { s with phase := .gate }
  | .quitting, .joined => { s with currentEpIdx := s.targetEpisodes + 1 }.nextEpisode
  | _, _ => s

/-- A label that does not fit the state has no effect. -/
def step (s : RecordLoop) : Label → RecordLoop
  | .enter entry k => s.enter entry k
  | .thread n => s.thread n
  | l => s.mainStep l

end RecordLoop
end PhysicalAiRuntime.Apps
