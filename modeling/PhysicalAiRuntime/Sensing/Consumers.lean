import Mathlib.Logic.Function.Basic
import PhysicalAiRuntime.Foundations.Trace
import PhysicalAiRuntime.Sensing.Sensor

/-! A sensor and the threads that wait on it: messages are delivered one at a time, and each section
of a `wait_next` call under the lock is a step of its own. -/
namespace PhysicalAiRuntime.Sensing
open Trace
set_option autoImplicit false
set_option maxHeartbeats 250000

variable {ν ι : Type} {c : ℕ}

/-- Where the call of a consumer stands: before its first section, or in the wait of its loop. A
waiting thread may be woken by a message, by its timeout or by nothing. -/
inductive Waiting where
  | entering (deadline : ℚ) (afterSequence : Option ℕ)
  | waiting (deadline : ℚ) (afterSequence : ℕ)
  deriving DecidableEq

structure Consumer (ν : Type) where
  /-- `after_sequence` as the latest call was given it. -/
  argument : Option ℕ
  call : Option Waiting
  /-- The samples that its calls have returned. -/
  received : List (TimestampedSample ν)
  timeouts : ℕ

namespace Consumer

def new : Consumer ν := ⟨none, none, [], 0⟩

/-- A thread makes one call at a time. -/
def start (x : Consumer ν) (now : ℚ) (afterSequence : Option ℕ) (timeout : ℚ) : Consumer ν :=
  if x.call.isSome then x
  else { x with
    argument := afterSequence
    call := some (.entering (now + timeout) afterSequence) }

/-- What the loop does with one look at the buffer. -/
def looked (x : Consumer ν) (b : SampleBuffer c ν) (now deadline : ℚ) (afterSequence : ℕ) :
    Consumer ν :=
  match b.look now deadline afterSequence with
  | .ok (some sample) => { x with call := none, received := x.received ++ [sample] }
  | .ok none => { x with call := some (.waiting deadline afterSequence) }
  | .error _ => { x with call := none, timeouts := x.timeouts + 1 }

/-- A section of the call under the lock. -/
def turn (x : Consumer ν) (b : SampleBuffer c ν) (now : ℚ) : Consumer ν :=
  match x.call with
  | none => x
  | some (.entering deadline afterSequence) =>
    x.looked b now deadline (b.startSequence afterSequence)
  | some (.waiting deadline afterSequence) => x.looked b now deadline afterSequence

/-- An open call has `q` for its `after_sequence`. -/
def GoesFrom (x : Consumer ν) (q : ℕ) : Prop :=
  match x.call with
  | none => True
  | some (.entering _ afterSequence) => afterSequence = some q
  | some (.waiting _ afterSequence) => afterSequence = q

/-- A call that returns returns the latest sample, which is newer than what it goes from; any other
goes on from there. -/
inductive Looked (x : Consumer ν) (b : SampleBuffer c ν) (q : ℕ) (x' : Consumer ν) : Prop
  | same (hreceived : x'.received = x.received) (hfrom : x'.GoesFrom q)
  | returned (sample : TimestampedSample ν) (hreceived : x'.received = x.received ++ [sample])
      (hidle : x'.call = none) (hlatest : b.latest = some sample) (hnewer : q < sample.sequence)

theorem looked_cases (x : Consumer ν) (b : SampleBuffer c ν) (now deadline : ℚ) (q : ℕ) :
    Looked x b q (x.looked b now deadline q) ∧ (x.looked b now deadline q).argument = x.argument := by
  unfold looked
  cases hlook : b.look now deadline q with
  | error e => exact ⟨.same rfl trivial, rfl⟩
  | ok found =>
    cases found with
    | none => exact ⟨.same rfl rfl, rfl⟩
    | some sample =>
      obtain ⟨hlatest, hnewer⟩ := SampleBuffer.look_some hlook
      exact ⟨.returned sample rfl rfl hlatest hnewer, rfl⟩

/-- A turn without a call does nothing, any other is one look. -/
theorem turn_cases (x : Consumer ν) (b : SampleBuffer c ν) (now : ℚ) :
    (x.call = none ∧ x.turn b now = x) ∨ ∃ deadline q, x.turn b now = x.looked b now deadline q ∧
      ∀ r, x.GoesFrom r → q = r := by
  unfold turn GoesFrom
  cases x.call with
  | none => exact Or.inl ⟨rfl, rfl⟩
  | some waiting =>
    apply Or.inr
    cases waiting with
    | entering deadline afterSequence =>
      refine ⟨deadline, _, rfl, fun r hr => ?_⟩
      rw [hr]
      rfl
    | waiting deadline afterSequence => exact ⟨deadline, afterSequence, rfl, fun r hr => hr⟩

theorem turn_argument (x : Consumer ν) (b : SampleBuffer c ν) (now : ℚ) :
    (x.turn b now).argument = x.argument := by
  cases x.turn_cases b now with
  | inl h => rw [h.2]
  | inr h =>
    obtain ⟨deadline, q, hturn, -⟩ := h
    rw [hturn]
    exact (x.looked_cases b now deadline q).2

theorem turn_looked {x : Consumer ν} {q : ℕ} (h : x.GoesFrom q) (b : SampleBuffer c ν)
    (now : ℚ) : Looked x b q (x.turn b now) := by
  cases x.turn_cases b now with
  | inl hidle =>
    rw [hidle.2]
    exact .same rfl h
  | inr hlook =>
    obtain ⟨deadline, r, hturn, hfrom⟩ := hlook
    have heq := hfrom q h
    subst heq
    rw [hturn]
    exact (x.looked_cases b now deadline r).1

/-- A turn returns a sample only if it is the latest one. -/
theorem turn_newest (x : Consumer ν) (b : SampleBuffer c ν) (now : ℚ) :
    (x.turn b now).received = x.received ∨ ∃ sample,
      (x.turn b now).received = x.received ++ [sample] ∧ b.latest = some sample := by
  cases x.turn_cases b now with
  | inl hidle => exact Or.inl (by rw [hidle.2])
  | inr hlook =>
    obtain ⟨deadline, q, hturn, -⟩ := hlook
    rw [hturn]
    cases (x.looked_cases b now deadline q).1 with
    | same hreceived hfrom => exact Or.inl hreceived
    | returned sample hreceived hidle hlatest hnewer =>
      exact Or.inr ⟨sample, hreceived, hlatest⟩

end Consumer

structure Stream (c : ℕ) (ν ι : Type) where
  sensor : Sensor c ν
  now : ℚ
  consumers : ι → Consumer ν

namespace Stream

inductive Event (ν ι : Type) where
  | deliver (m : Message ν)
  | elapse (seconds : ℚ≥0)
  | call (i : ι) (afterSequence : Option ℕ) (timeout : ℚ)
  /-- The thread of the consumer gets the lock. -/
  | turn (i : ι)

variable [DecidableEq ι]

def init (sensor : Sensor c ν) (now : ℚ) : Stream c ν ι := ⟨sensor, now, fun _ => Consumer.new⟩

def step (s : Stream c ν ι) : Event ν ι → Stream c ν ι
  | .deliver m => { s with sensor := (s.sensor.onMessage m).1 }
  | .elapse seconds => { s with now := s.now + seconds }
  | .call i afterSequence timeout =>
    { s with consumers :=
        Function.update s.consumers i ((s.consumers i).start s.now afterSequence timeout) }
  | .turn i =>
    { s with consumers :=
        Function.update s.consumers i ((s.consumers i).turn s.sensor.buffer s.now) }

/-! ## The history of a run -/

def delivered : Event ν ι → Option (Message ν)
  | .deliver m => some m
  | _ => none

/-- Only deliveries change the sensor. -/
theorem run_sensor (s : Stream c ν ι) (ls : List (Event ν ι)) : (run step s ls).sensor =
    (ls.filterMap delivered).foldl (fun sensor m => (sensor.onMessage m).1) s.sensor := by
  induction ls generalizing s with
  | nil => rfl
  | cons l ls ih =>
    rw [run_cons, ih]
    cases l <;> rfl

/-! ## What a step does to a consumer -/

/-- The ways in which a step moves a consumer on. -/
inductive Moves (s : Stream c ν ι) (l : Event ν ι) (i : ι) : Consumer ν → Prop
  | stays : Moves s l i (s.consumers i)
  | starts (afterSequence : Option ℕ) (timeout : ℚ) (hl : l = .call i afterSequence timeout)
      (hidle : (s.consumers i).call = none) :
      Moves s l i { s.consumers i with
        argument := afterSequence
        call := some (.entering (s.now + timeout) afterSequence) }
  | turns (hl : l = .turn i) : Moves s l i ((s.consumers i).turn s.sensor.buffer s.now)

theorem step_moves (s : Stream c ν ι) (l : Event ν ι) (i : ι) :
    Moves s l i ((s.step l).consumers i) := by
  cases l with
  | deliver m => exact .stays
  | elapse seconds => exact .stays
  | call j afterSequence timeout =>
    by_cases hij : i = j
    · subst hij
      have hself : (s.step (.call i afterSequence timeout)).consumers i =
          (s.consumers i).start s.now afterSequence timeout := Function.update_self _ _ _
      rw [hself]
      unfold Consumer.start
      cases hcall : (s.consumers i).call with
      | none => exact .starts afterSequence timeout rfl hcall
      | some waiting => exact .stays
    · have hother : (s.step (.call j afterSequence timeout)).consumers i = s.consumers i :=
        Function.update_of_ne hij _ _
      rw [hother]
      exact .stays
  | turn j =>
    by_cases hij : i = j
    · subst hij
      have hself : (s.step (.turn i)).consumers i =
          (s.consumers i).turn s.sensor.buffer s.now := Function.update_self _ _ _
      rw [hself]
      exact .turns rfl
    · have hother : (s.step (.turn j)).consumers i = s.consumers i :=
        Function.update_of_ne hij _ _
      rw [hother]
      exact .stays

/-! ## History and progress -/

def FailureHarmless (s : Stream c ν ι) (l : Event ν ι) : Prop :=
  ∀ m e, l = .deliver m → m.conversion = .error e → (s.step l).sensor = s.sensor

/-- What a call returns is the latest sample, and newer than the argument of the call. -/
def ReceivesNewest (s : Stream c ν ι) (l : Event ν ι) : Prop :=
  ∀ i, ((s.step l).consumers i).received = (s.consumers i).received ∨ ∃ sample,
    ((s.step l).consumers i).received = (s.consumers i).received ++ [sample] ∧
    s.sensor.buffer.latest = some sample ∧
    ∀ argument, (s.consumers i).argument = some argument → argument < sample.sequence

/-- A call of the consumer is given the sequence of the last sample, once there is one. -/
def PassesBack (i : ι) (s : Stream c ν ι) (l : Event ν ι) : Prop :=
  ∀ afterSequence timeout, l = .call i afterSequence timeout → (s.consumers i).call = none →
    ∀ last, (s.consumers i).received.getLast? = some last → afterSequence = some last.sequence

end Stream

namespace Consumer

/-- An open call goes from its argument. -/
def Faithful (x : Consumer ν) : Prop := ∀ q, x.argument = some q → x.GoesFrom q

/-- Increasing samples, and a call that goes on from the last of them. -/
structure Ordered (x : Consumer ν) : Prop where
  increasing : x.received.Pairwise fun a b => a.sequence < b.sequence
  goesFrom : ∀ last, x.received.getLast? = some last → x.GoesFrom last.sequence

theorem goesFrom_of_idle {x : Consumer ν} (h : x.call = none) (q : ℕ) : x.GoesFrom q := by
  unfold GoesFrom
  rw [h]
  trivial

theorem Faithful.turn {x : Consumer ν} (h : x.Faithful) (b : SampleBuffer c ν) (now : ℚ) :
    (x.turn b now).Faithful := by
  intro q hq
  rw [turn_argument] at hq
  cases turn_looked (h q hq) b now with
  | same hreceived hfrom => exact hfrom
  | returned sample hreceived hidle hlatest hnewer => exact goesFrom_of_idle hidle q

theorem increasing_concat {samples : List (TimestampedSample ν)} {sample : TimestampedSample ν}
    (h : samples.Pairwise fun a b => a.sequence < b.sequence)
    (hlast : ∀ last, samples.getLast? = some last → last.sequence < sample.sequence) :
    (samples ++ [sample]).Pairwise fun a b => a.sequence < b.sequence := by
  rw [List.pairwise_append]
  refine ⟨h, List.pairwise_singleton _ _, fun a ha b hb => ?_⟩
  rw [List.mem_singleton.mp hb]
  obtain ⟨front, last, hsamples⟩ := (List.eq_nil_or_concat samples).resolve_left (List.ne_nil_of_mem ha)
  rw [List.concat_eq_append] at hsamples
  subst hsamples
  have hend := hlast last List.getLast?_concat
  rw [List.pairwise_append] at h
  cases List.mem_append.mp ha with
  | inl hfront => exact (h.2.2 a hfront last List.mem_cons_self).trans hend
  | inr heq => rwa [List.mem_singleton.mp heq]

theorem Ordered.turn {x : Consumer ν} (h : x.Ordered) (b : SampleBuffer c ν) (now : ℚ) :
    (x.turn b now).Ordered := by
  cases hlast : x.received.getLast? with
  | some last =>
    cases turn_looked (h.goesFrom last hlast) b now with
    | same hreceived hfrom =>
      refine ⟨hreceived ▸ h.increasing, fun other hother => ?_⟩
      rw [hreceived, hlast] at hother
      cases hother
      exact hfrom
    | returned sample hreceived hidle hlatest hnewer =>
      refine ⟨?_, fun other _ => goesFrom_of_idle hidle other.sequence⟩
      rw [hreceived]
      apply increasing_concat h.increasing
      intro other hother
      rw [hlast] at hother
      cases hother
      exact hnewer
  | none =>
    have hnil := List.getLast?_eq_none_iff.mp hlast
    cases x.turn_cases b now with
    | inl hidle =>
      rw [hidle.2]
      exact h
    | inr hlook =>
      obtain ⟨deadline, q, hturn, -⟩ := hlook
      rw [hturn]
      cases (x.looked_cases b now deadline q).1 with
      | same hreceived hfrom =>
        refine ⟨hreceived ▸ h.increasing, fun other hother => ?_⟩
        rw [hreceived, hlast] at hother
        cases hother
      | returned sample hreceived hidle hlatest hnewer =>
        refine ⟨?_, fun other _ => goesFrom_of_idle hidle other.sequence⟩
        rw [hreceived, hnil]
        exact List.pairwise_singleton _ _

end Consumer

namespace Stream
variable [DecidableEq ι]

theorem step_faithful {s : Stream c ν ι} (h : ∀ i, (s.consumers i).Faithful) (l : Event ν ι) (i : ι) :
    ((s.step l).consumers i).Faithful := by
  have hmoves := step_moves s l i
  generalize (s.step l).consumers i = x at hmoves ⊢
  cases hmoves with
  | stays => exact h i
  | starts afterSequence timeout hl hidle => exact fun q hq => hq
  | turns hl => exact (h i).turn s.sensor.buffer s.now

theorem step_ordered {s : Stream c ν ι} {l : Event ν ι} {i : ι} (h : (s.consumers i).Ordered)
    (hback : PassesBack i s l) : ((s.step l).consumers i).Ordered := by
  have hmoves := step_moves s l i
  generalize (s.step l).consumers i = x at hmoves ⊢
  cases hmoves with
  | stays => exact h
  | starts afterSequence timeout hl hidle =>
    exact ⟨h.increasing, fun last hlast => hback afterSequence timeout hl hidle last hlast⟩
  | turns hl => exact h.turn s.sensor.buffer s.now

theorem step_receivesNewest {s : Stream c ν ι} (h : ∀ i, (s.consumers i).Faithful)
    (l : Event ν ι) : ReceivesNewest s l := by
  intro i
  have hmoves := step_moves s l i
  generalize (s.step l).consumers i = x at hmoves ⊢
  cases hmoves with
  | stays => exact Or.inl rfl
  | starts afterSequence timeout hl hidle => exact Or.inl rfl
  | turns hl =>
    cases (s.consumers i).turn_newest s.sensor.buffer s.now with
    | inl hsame => exact Or.inl hsame
    | inr hreturned =>
      obtain ⟨sample, hreceived, hlatest⟩ := hreturned
      refine Or.inr ⟨sample, hreceived, hlatest, fun argument hargument => ?_⟩
      cases Consumer.turn_looked (h i argument hargument) s.sensor.buffer s.now with
      | same hsame hfrom =>
        rw [hsame] at hreceived
        exact absurd hreceived (by simp)
      | returned other hother hidle hlatest' hnewer =>
        rw [hlatest] at hlatest'
        cases hlatest'
        exact hnewer

theorem step_failureHarmless (s : Stream c ν ι) (l : Event ν ι) : FailureHarmless s l := by
  intro m e hl hconversion
  subst hl
  show (s.sensor.onMessage m).1 = s.sensor
  unfold Sensor.onMessage
  rw [hconversion]

/-- **Sensor history and progress.** Over every run from a new sensor: the history is the end of
all that was converted, a failed conversion changes nothing, a call returns the latest sample if
that is newer than its argument, and a consumer that passes back what it got receives increasing
numbers. -/
theorem sensor_history_and_progress {name topic : String} {sensor : Sensor c ν}
    (h : Sensor.new name topic c = .ok sensor) (now : ℚ) (ls : List (Event ν ι)) :
    let values := Sensor.converted (ls.filterMap delivered)
    let last := run step (init sensor now) ls
    (last.sensor.history = (Sensor.numbered values).drop (values.length - c) ∧
      last.sensor.history.map TimestampedSample.sequence =
        List.range' (values.length - min values.length c + 1) (min values.length c) ∧
      last.sensor.sequence = values.length) ∧
    Follows step FailureHarmless (init sensor now) ls ∧
    Follows step ReceivesNewest (init sensor now) ls ∧
    ∀ i, Follows step (PassesBack i) (init sensor now) ls →
      (last.consumers i).received.Pairwise fun a b => a.sequence < b.sequence := by
  intro values last
  have hholds : last.sensor.Holds values := by
    have hrun : last.sensor = _ := run_sensor (init sensor now) ls
    rw [hrun]
    exact Sensor.holds_foldl (Sensor.new_holds h) (ls.filterMap delivered)
  have hfaithful : ∀ i, ((init (ι := ι) sensor now).consumers i).Faithful :=
    fun i q hq => Consumer.goesFrom_of_idle rfl q
  refine ⟨⟨hholds.history, hholds.sequences, hholds.sequence⟩, ?_, ?_, fun i hback => ?_⟩
  · exact follows_of_invariant (fun _ => True) (fun _ _ _ _ => trivial)
      (fun s l _ _ => step_failureHarmless s l) trivial (follows_true _ ls)
  · exact follows_of_invariant (fun s : Stream c ν ι => ∀ i, (s.consumers i).Faithful)
      (fun s l hs _ => step_faithful hs l) (fun s l hs _ => step_receivesNewest hs l) hfaithful
      (follows_true _ ls)
  · have hordered : ((init (ι := ι) sensor now).consumers i).Ordered :=
      ⟨List.Pairwise.nil, fun other _ => Consumer.goesFrom_of_idle rfl other.sequence⟩
    exact (run_invariant (fun s : Stream c ν ι => (s.consumers i).Ordered)
      (fun s l hs hl => step_ordered hs hl) hordered hback).increasing

def reading (now : ℚ) : Message ℚ := ⟨now, none, .ok now⟩

def unreadable : Message ℚ := ⟨1, none, .error ⟨.valueError, "unsupported encoding"⟩⟩

/-- Three readings and a failure, with a consumer that goes on from the second reading. -/
def twoWaits : List (Event ℚ Unit) :=
  [.deliver (reading 1), .deliver unreadable, .call () none 5, .turn (), .deliver (reading 2),
    .turn (), .call () (some 2) 5, .turn (), .deliver (reading 3), .turn ()]

theorem sensor_history_and_progress_two : ∃ sensor : Sensor 2 ℚ,
    Sensor.new "wrench" "/wrench" 2 = .ok sensor ∧
    let values := Sensor.converted (twoWaits.filterMap delivered)
    let last := run step (init (ι := Unit) sensor 0) twoWaits
    (last.sensor.history = (Sensor.numbered values).drop (values.length - 2) ∧
      last.sensor.history.map TimestampedSample.sequence =
        List.range' (values.length - min values.length 2 + 1) (min values.length 2) ∧
      last.sensor.sequence = values.length) ∧
    Follows step FailureHarmless (init (ι := Unit) sensor 0) twoWaits ∧
    Follows step ReceivesNewest (init (ι := Unit) sensor 0) twoWaits ∧
    ∀ i, Follows step (PassesBack i) (init (ι := Unit) sensor 0) twoWaits →
      (last.consumers i).received.Pairwise fun a b => a.sequence < b.sequence :=
  ⟨_, rfl, sensor_history_and_progress (rfl : Sensor.new "wrench" "/wrench" 2 = _) 0 twoWaits⟩

end Stream
end PhysicalAiRuntime.Sensing
