import Mathlib.Algebra.Field.Rat
import PhysicalAiRuntime.Foundations.PyError
import PhysicalAiRuntime.Foundations.Deque

/-! A sensor: the bounded history of its stream, and the sections of `SampleBuffer` that run under
the lock. A message comes with what the converter makes of it. -/
namespace PhysicalAiRuntime.Sensing
set_option autoImplicit false
set_option maxHeartbeats 250000

variable {ν : Type} {c : ℕ}

structure TimestampedSample (ν : Type) where
  value : ν
  sourceTimeS : ℚ
  receiveTimeS : ℚ
  sequence : ℕ
  frameId : String

structure SampleBuffer (c : ℕ) (ν : Type) where
  samples : Deque c (TimestampedSample ν)
  capacity_pos : 0 < c

namespace SampleBuffer

def new (c : ℕ) : Except PyError (SampleBuffer c ν) :=
  if h : 0 < c then .ok ⟨Deque.empty, h⟩
  else .error ⟨.valueError, "sample buffer capacity must be positive"⟩

def add (b : SampleBuffer c ν) (sample : TimestampedSample ν) : SampleBuffer c ν :=
  ⟨b.samples.append sample, b.capacity_pos⟩

def latest (b : SampleBuffer c ν) : Option (TimestampedSample ν) := b.samples.items.getLast?

def snapshot (b : SampleBuffer c ν) : List (TimestampedSample ν) := b.samples.items

def timedOut : PyError := ⟨.timeoutError, "timed out waiting for the next sensor sample"⟩

/-- The sequence number that `wait_next` starts from, which it chooses itself if it is given none. -/
def startSequence (b : SampleBuffer c ν) (afterSequence : Option ℕ) : ℕ :=
  afterSequence.getD ((b.latest.map TimestampedSample.sequence).getD 0)

/-- One pass of the loop of `wait_next` at time `now`; `none` where it goes on to wait. -/
def look (b : SampleBuffer c ν) (now deadline : ℚ) (afterSequence : ℕ) :
    Except PyError (Option (TimestampedSample ν)) :=
  match b.latest.filter fun latest => afterSequence < latest.sequence with
  | some latest => .ok (some latest)
  | none => if deadline - now ≤ 0 then .error timedOut else .ok none

theorem look_some {b : SampleBuffer c ν} {now deadline : ℚ} {afterSequence : ℕ}
    {sample : TimestampedSample ν} (h : b.look now deadline afterSequence = .ok (some sample)) :
    b.latest = some sample ∧ afterSequence < sample.sequence := by
  unfold look at h
  cases hfound : b.latest.filter fun latest => afterSequence < latest.sequence with
  | none =>
    rw [hfound] at h
    by_cases hlate : deadline - now ≤ 0 <;> simp [hlate] at h
  | some latest =>
    rw [hfound] at h
    cases h
    obtain ⟨hlatest, hnewer⟩ := Option.filter_eq_some_iff.mp hfound
    exact ⟨hlatest, of_decide_eq_true hnewer⟩

theorem look_error {b : SampleBuffer c ν} {now deadline : ℚ} {afterSequence : ℕ} {e : PyError}
    (h : b.look now deadline afterSequence = .error e) :
    ∀ sample, b.latest = some sample → sample.sequence ≤ afterSequence := by
  intro sample hsample
  by_contra hnewer
  unfold look at h
  rw [hsample, Option.filter_some, if_pos (by simpa using hnewer)] at h
  cases h

/-- A new sample is the latest one. -/
theorem latest_add (b : SampleBuffer c ν) (sample : TimestampedSample ν) :
    (b.add sample).latest = some sample := by
  have hpos := b.capacity_pos
  have hlength := b.samples.length_le
  unfold latest add Deque.append
  dsimp only
  rw [List.getLast?_drop, if_neg, List.getLast?_concat]
  rw [List.length_append, List.length_singleton]
  omega

end SampleBuffer

/-- The header of a message: its stamp in seconds, if it has one, and its frame. -/
structure Header where
  stampS : Option ℚ
  frameId : String

/-- A message at the time of the node's clock, and the value or the exception of the converter. -/
structure Message (ν : Type) where
  nowS : ℚ
  header : Option Header
  conversion : Except PyError ν

def headerMetadata (header : Option Header) (receiveTimeS : ℚ) : ℚ × String :=
  match header with
  | none => (receiveTimeS, "")
  | some ⟨none, frameId⟩ => (receiveTimeS, frameId)
  | some ⟨some stampS, frameId⟩ => (if stampS ≤ 0 then receiveTimeS else stampS, frameId)

def Message.sample (m : Message ν) (value : ν) (sequence : ℕ) : TimestampedSample ν :=
  let (sourceTimeS, frameId) := headerMetadata m.header m.nowS
  ⟨value, sourceTimeS, m.nowS, sequence, frameId⟩

structure Sensor (c : ℕ) (ν : Type) where
  name : String
  topic : String
  buffer : SampleBuffer c ν
  sequence : ℕ
  name_ne : name ≠ ""
  topic_ne : topic ≠ ""

namespace Sensor

def new (name topic : String) (c : ℕ) : Except PyError (Sensor c ν) :=
  if hname : name = "" then .error ⟨.valueError, "sensor name must not be empty"⟩
  else if htopic : topic = "" then .error ⟨.valueError, "sensor topic must not be empty"⟩
  else do return ⟨name, topic, ← SampleBuffer.new c, 0, hname, htopic⟩

def latest (s : Sensor c ν) : Except PyError (TimestampedSample ν) :=
  match s.buffer.latest with
  | some sample => .ok sample
  | none => .error ⟨.runtimeError,
      "sensor " ++ pyRepr s.name ++ " has no sample; call wait_until_ready()"⟩

def history (s : Sensor c ν) : List (TimestampedSample ν) := s.buffer.snapshot

def isReady (s : Sensor c ν) : Bool := s.buffer.latest.isSome

/-- `_on_message`: an exception of the converter goes on to the executor. -/
def onMessage (s : Sensor c ν) (m : Message ν) : Outcome (Sensor c ν) Unit :=
  match m.conversion with
  | .error e => (s, .error e)
  | .ok value =>
    let sequence := s.sequence + 1
    ({ s with sequence := sequence, buffer := s.buffer.add (m.sample value sequence) }, .ok ())

theorem new_ok {name topic : String} {s : Sensor c ν} (h : new name topic c = .ok s) :
    s.history = [] ∧ s.sequence = 0 := by
  unfold new at h
  by_cases hname : name = ""
  · rw [dif_pos hname] at h
    cases h
  · rw [dif_neg hname] at h
    by_cases htopic : topic = ""
    · rw [dif_pos htopic] at h
      cases h
    · rw [dif_neg htopic] at h
      obtain ⟨buffer, hbuffer, h⟩ := except_bind_ok h
      cases h
      unfold SampleBuffer.new at hbuffer
      by_cases hc : 0 < c
      · rw [dif_pos hc] at hbuffer
        cases hbuffer
        exact ⟨rfl, rfl⟩
      · rw [dif_neg hc] at hbuffer
        cases hbuffer

/-! ## What was converted -/

/-- The messages that were converted, with their values. -/
def converted (messages : List (Message ν)) : List (Message ν × ν) :=
  messages.filterMap fun m => m.conversion.toOption.map fun value => (m, value)

/-- Their samples, numbered from one. -/
def numbered (converted : List (Message ν × ν)) : List (TimestampedSample ν) :=
  (converted.zipIdx 1).map fun e => e.1.1.sample e.1.2 e.2

/-- The history is the end of all that was converted, and the counter how much that is. -/
structure Holds (s : Sensor c ν) (values : List (Message ν × ν)) : Prop where
  history : s.history = (numbered values).drop (values.length - c)
  sequence : s.sequence = values.length

theorem numbered_concat (values : List (Message ν × ν)) (m : Message ν) (value : ν) :
    numbered (values ++ [(m, value)]) =
      numbered values ++ [m.sample value (values.length + 1)] := by
  unfold numbered
  rw [List.zipIdx_append, List.map_append, Nat.add_comm 1]
  rfl

@[simp] theorem length_numbered (values : List (Message ν × ν)) :
    (numbered values).length = values.length := by
  unfold numbered
  rw [List.length_map, List.length_zipIdx]

theorem new_holds {name topic : String} {s : Sensor c ν} (h : new name topic c = .ok s) :
    s.Holds [] := by
  obtain ⟨hhistory, hsequence⟩ := new_ok h
  exact ⟨hhistory.trans List.drop_nil.symm, hsequence⟩

/-- A conversion that succeeds adds its sample, one that fails nothing. -/
theorem Holds.onMessage {s : Sensor c ν} {values : List (Message ν × ν)} (h : s.Holds values)
    (m : Message ν) : (s.onMessage m).1.Holds (values ++ converted [m]) := by
  cases hconversion : m.conversion with
  | error e =>
    have hnone : converted [m] = [] := by
      simp [converted, hconversion, Except.toOption]
    have hsame : (s.onMessage m).1 = s := by
      simp [Sensor.onMessage, hconversion]
    rw [hnone, hsame, List.append_nil]
    exact h
  | ok value =>
    have hone : converted [m] = [(m, value)] := by
      simp [converted, hconversion, Except.toOption]
    have hadd : (s.onMessage m).1.history =
        (s.buffer.samples.append (m.sample value (s.sequence + 1))).items := by
      simp [Sensor.onMessage, hconversion, Sensor.history, SampleBuffer.snapshot, SampleBuffer.add]
    have hcount : (s.onMessage m).1.sequence = s.sequence + 1 := by
      simp [Sensor.onMessage, hconversion]
    have hhistory := h.history
    rw [← length_numbered values] at hhistory
    rw [hone]
    refine ⟨?_, ?_⟩
    · rw [hadd, Deque.append_items hhistory, h.sequence, ← numbered_concat, length_numbered]
    · rw [hcount, h.sequence, List.length_append]
      rfl

theorem holds_foldl {s : Sensor c ν} {values : List (Message ν × ν)} (h : s.Holds values)
    (messages : List (Message ν)) :
    (messages.foldl (fun s m => (s.onMessage m).1) s).Holds (values ++ converted messages) := by
  induction messages generalizing s values with
  | nil => rwa [List.foldl_nil, converted, List.filterMap_nil, List.append_nil]
  | cons m messages ih =>
    have hcons : converted (m :: messages) = converted [m] ++ converted messages := by
      unfold converted
      rw [← List.filterMap_append, List.singleton_append]
    rw [List.foldl_cons, hcons, ← List.append_assoc]
    exact ih (h.onMessage m)

/-- The numbers of the history are consecutive and end at the number of conversions. -/
theorem Holds.sequences {s : Sensor c ν} {values : List (Message ν × ν)} (h : s.Holds values) :
    s.history.map TimestampedSample.sequence =
      List.range' (values.length - min values.length c + 1) (min values.length c) := by
  have hall : (numbered values).map TimestampedSample.sequence = List.range' 1 values.length := by
    unfold numbered
    rw [List.map_map, ← List.zipIdx_map_snd 1 values]
    rfl
  rw [h.history, List.map_drop, hall, List.drop_range']
  congr 1 <;> omega

end Sensor
end PhysicalAiRuntime.Sensing
