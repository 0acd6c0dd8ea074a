import PhysicalAiRuntime.Sensing.Consumers

/-! `Sensor.wait_until_ready` against the arrivals of its stream. The readiness check and the wait
are two sections, and the wait starts from whatever has arrived by its own first one. -/
namespace PhysicalAiRuntime.Sensing
open Trace
set_option autoImplicit false
set_option maxHeartbeats 250000

variable {ν : Type} {c : ℕ}

/-- Where a call of `wait_until_ready` stands. -/
inductive Phase where
  | idle
  /-- `is_ready` has answered no. -/
  | checked (timeout : ℚ)
  /-- Inside `wait_next`. -/
  | opened (call : Waiting)
  | ended (result : Except PyError Unit)
  deriving DecidableEq

structure Readiness (c : ℕ) (ν : Type) where
  sensor : Sensor c ν
  now : ℚ
  phase : Phase

namespace Readiness

inductive Event (ν : Type) where
  | deliver (m : Message ν)
  | elapse (seconds : ℚ≥0)
  | call (timeout : ℚ)
  /-- The calling thread goes on. -/
  | turn

def init (sensor : Sensor c ν) (now : ℚ) : Readiness c ν := ⟨sensor, now, .idle⟩

def looked (s : Readiness c ν) (deadline : ℚ) (afterSequence : ℕ) : Phase :=
  match s.sensor.buffer.look s.now deadline afterSequence with
  | .ok (some _) => .ended (.ok ())
  | .ok none => .opened (.waiting deadline afterSequence)
  | .error e => .ended (.error e)

def turn (s : Readiness c ν) : Phase :=
  match s.phase with
  | .checked timeout => .opened (.entering (s.now + timeout) none)
  | .opened (.entering deadline afterSequence) =>
    s.looked deadline (s.sensor.buffer.startSequence afterSequence)
  | .opened (.waiting deadline afterSequence) => s.looked deadline afterSequence
  | phase => phase

/-- The section of `is_ready`. -/
def check (s : Readiness c ν) (timeout : ℚ) : Phase :=
  match s.phase with
  | .idle => if s.sensor.isReady then .ended (.ok ()) else .checked timeout
  | phase => phase

def step (s : Readiness c ν) : Event ν → Readiness c ν
  | .deliver m => { s with sensor := (s.sensor.onMessage m).1 }
  | .elapse seconds => { s with now := s.now + seconds }
  | .call timeout => { s with phase := s.check timeout }
  | .turn => { s with phase := s.turn }

def Ended (s : Readiness c ν) : Prop := ∃ result, s.phase = .ended result

/-- A step that ends the call with an exception finds the buffer empty. -/
def NeverMisses (s : Readiness c ν) (l : Event ν) : Prop :=
  ¬ s.Ended → ∀ e, (s.step l).phase = .ended (.error e) → (s.step l).sensor.buffer.latest = none

/-- Between the check that failed and the first section of the wait. -/
def Between (s : Readiness c ν) : Prop :=
  (∃ timeout, s.phase = .checked timeout) ∨
    ∃ deadline afterSequence, s.phase = .opened (.entering deadline afterSequence)

/-- No sample arrives there. -/
def Timely (s : Readiness c ν) (l : Event ν) : Prop :=
  s.Between → ∀ m value, l = .deliver m → m.conversion ≠ .ok value

/-! ## What arrives -/

/-- The latest sample of the buffer has been counted. -/
def Counted (s : Readiness c ν) : Prop :=
  ∀ sample, s.sensor.buffer.latest = some sample → 0 < sample.sequence

theorem latest_onMessage (sensor : Sensor c ν) (m : Message ν) :
    (sensor.onMessage m).1.buffer.latest = match m.conversion with
      | .error _ => sensor.buffer.latest
      | .ok value => some (m.sample value (sensor.sequence + 1)) := by
  unfold Sensor.onMessage
  cases m.conversion with
  | error e => rfl
  | ok value => exact SampleBuffer.latest_add _ _

theorem sample_sequence (m : Message ν) (value : ν) (n : ℕ) :
    (m.sample value n).sequence = n := rfl

theorem step_counted {s : Readiness c ν} (h : s.Counted) (l : Event ν) : (s.step l).Counted := by
  cases l with
  | deliver m =>
    intro sample hsample
    change (s.sensor.onMessage m).1.buffer.latest = some sample at hsample
    rw [latest_onMessage] at hsample
    cases hconversion : m.conversion with
    | error e =>
      rw [hconversion] at hsample
      exact h sample hsample
    | ok value =>
      rw [hconversion] at hsample
      rw [← Option.some.inj hsample, sample_sequence]
      exact Nat.succ_pos _
  | elapse seconds => exact h
  | call timeout => exact h
  | turn => exact h

/-- A buffer with a sample keeps one. -/
theorem step_latest {s : Readiness c ν} (h : s.sensor.buffer.latest ≠ none) (l : Event ν) :
    (s.step l).sensor.buffer.latest ≠ none := by
  cases l with
  | deliver m =>
    change (s.sensor.onMessage m).1.buffer.latest ≠ none
    rw [latest_onMessage]
    cases m.conversion with
    | error e => exact h
    | ok value => exact Option.some_ne_none _
  | elapse seconds => exact h
  | call timeout => exact h
  | turn => exact h

/-! ## The wait without an arrival in between -/

/-- Nothing has arrived while the wait has not chosen its start, which is then the very first
number. -/
def Unfed (s : Readiness c ν) : Prop :=
  match s.phase with
  | .checked _ => s.sensor.buffer.latest = none
  | .opened (.entering _ afterSequence) =>
    afterSequence = none ∧ s.sensor.buffer.latest = none
  | .opened (.waiting _ afterSequence) => afterSequence = 0
  | _ => True

/-- One look ends the call or leaves it waiting from the same number. -/
theorem looked_cases (s : Readiness c ν) (deadline : ℚ) (afterSequence : ℕ) :
    s.looked deadline afterSequence = .ended (.ok ()) ∨
      s.looked deadline afterSequence = .opened (.waiting deadline afterSequence) ∨
      ∃ e, s.looked deadline afterSequence = .ended (.error e) ∧
        ∀ sample, s.sensor.buffer.latest = some sample → sample.sequence ≤ afterSequence := by
  unfold looked
  cases hlook : s.sensor.buffer.look s.now deadline afterSequence with
  | error e => exact Or.inr (Or.inr ⟨e, rfl, SampleBuffer.look_error hlook⟩)
  | ok found =>
    cases found with
    | none => exact Or.inr (Or.inl rfl)
    | some sample => exact Or.inl rfl

/-- A look from zero ends the call with an exception only if the buffer is empty. -/
theorem looked_zero {s : Readiness c ν} (h : s.Counted) (deadline : ℚ) :
    Unfed { s with phase := s.looked deadline 0 } ∧
      ∀ e, s.looked deadline 0 = .ended (.error e) → s.sensor.buffer.latest = none := by
  rcases s.looked_cases deadline 0 with hok | hwaiting | ⟨e, herror, hnone⟩
  · rw [hok]
    exact ⟨trivial, fun e he => by cases he⟩
  · rw [hwaiting]
    exact ⟨rfl, fun e he => by cases he⟩
  · rw [herror]
    refine ⟨trivial, fun _ _ => ?_⟩
    cases hlatest : s.sensor.buffer.latest with
    | none => rfl
    | some sample => exact absurd (hnone sample hlatest) (Nat.not_le_of_lt (h sample hlatest))

theorem startSequence_empty {b : SampleBuffer c ν} (h : b.latest = none) :
    b.startSequence none = 0 := by
  unfold SampleBuffer.startSequence
  rw [h]
  rfl

theorem turn_unfed {s : Readiness c ν} (hcounted : s.Counted) (h : s.Unfed) :
    Unfed { s with phase := s.turn } ∧
      (¬ s.Ended → ∀ e, s.turn = .ended (.error e) → s.sensor.buffer.latest = none) := by
  unfold turn
  cases hphase : s.phase with
  | idle => exact ⟨trivial, fun _ e he => by cases he⟩
  | ended result => exact ⟨trivial, fun hopen => absurd ⟨result, hphase⟩ hopen⟩
  | checked timeout =>
    unfold Unfed at h
    rw [hphase] at h
    exact ⟨⟨rfl, h⟩, fun _ e he => by cases he⟩
  | opened call =>
    unfold Unfed at h
    rw [hphase] at h
    cases call with
    | entering deadline afterSequence =>
      obtain ⟨hnone, hlatest⟩ := h
      have hstart : s.sensor.buffer.startSequence afterSequence = 0 := by
        rw [hnone]
        exact startSequence_empty hlatest
      dsimp only
      rw [hstart]
      obtain ⟨hunfed, hraise⟩ := looked_zero hcounted deadline
      exact ⟨hunfed, fun _ => hraise⟩
    | waiting deadline afterSequence =>
      change afterSequence = 0 at h
      subst h
      obtain ⟨hunfed, hraise⟩ := looked_zero hcounted deadline
      exact ⟨hunfed, fun _ => hraise⟩

theorem deliver_unfed {s : Readiness c ν} (h : s.Unfed) {m : Message ν}
    (htimely : s.Timely (.deliver m)) : (s.step (.deliver m)).Unfed := by
  have hkept : s.Between → (s.sensor.onMessage m).1.buffer.latest = s.sensor.buffer.latest := by
    intro hbetween
    rw [latest_onMessage]
    cases hconversion : m.conversion with
    | error e => rfl
    | ok value => exact absurd hconversion (htimely hbetween m value rfl)
  unfold Unfed at h ⊢
  change match s.phase with
    | .checked _ => (s.sensor.onMessage m).1.buffer.latest = none
    | .opened (.entering _ afterSequence) =>
      afterSequence = none ∧ (s.sensor.onMessage m).1.buffer.latest = none
    | .opened (.waiting _ afterSequence) => afterSequence = 0
    | _ => True
  unfold Between at hkept
  cases hphase : s.phase with
  | idle => trivial
  | ended result => trivial
  | checked timeout =>
    rw [hphase] at h hkept
    exact (hkept (Or.inl ⟨timeout, rfl⟩)).trans h
  | opened call =>
    rw [hphase] at h hkept
    cases call with
    | entering deadline afterSequence =>
      exact ⟨h.1, (hkept (Or.inr ⟨deadline, afterSequence, rfl⟩)).trans h.2⟩
    | waiting deadline afterSequence => exact h

theorem check_unfed {s : Readiness c ν} (h : s.Unfed) (timeout : ℚ) :
    Unfed { s with phase := s.check timeout } := by
  unfold check
  cases hphase : s.phase with
  | idle =>
    dsimp only
    cases hlatest : s.sensor.buffer.latest with
    | none =>
      have hready : s.sensor.isReady = false := by
        unfold Sensor.isReady
        rw [hlatest]
        rfl
      rw [hready]
      exact hlatest
    | some sample =>
      have hready : s.sensor.isReady = true := by
        unfold Sensor.isReady
        rw [hlatest]
        rfl
      rw [hready]
      trivial
  | checked t =>
    unfold Unfed at h
    rw [hphase] at h
    exact h
  | opened call =>
    unfold Unfed at h
    rw [hphase] at h
    exact h
  | ended result => trivial

/-- A check raises nothing. -/
theorem check_not_error {s : Readiness c ν} (hopen : ¬ s.Ended) (timeout : ℚ) (e : PyError) :
    s.check timeout ≠ .ended (.error e) := by
  intro heq
  unfold check at heq
  cases hphase : s.phase with
  | idle =>
    rw [hphase] at heq
    dsimp only at heq
    by_cases hready : s.sensor.isReady = true
    · rw [if_pos hready] at heq
      cases heq
    · rw [if_neg hready] at heq
      cases heq
  | checked t =>
    rw [hphase] at heq
    cases heq
  | opened call =>
    rw [hphase] at heq
    cases heq
  | ended result => exact hopen ⟨result, hphase⟩

theorem step_unfed {s : Readiness c ν} (hcounted : s.Counted) (h : s.Unfed) {l : Event ν}
    (htimely : s.Timely l) : (s.step l).Unfed ∧ s.NeverMisses l := by
  cases l with
  | deliver m =>
    exact ⟨deliver_unfed h htimely, fun hopen e he => absurd ⟨_, he⟩ hopen⟩
  | elapse seconds => exact ⟨h, fun hopen e he => absurd ⟨_, he⟩ hopen⟩
  | call timeout =>
    exact ⟨check_unfed h timeout, fun hopen e he => absurd he (check_not_error hopen timeout e)⟩
  | turn => exact turn_unfed hcounted h

/-! ## An arrival in between -/

/-- A call that has ended stays so. -/
theorem step_ended {s : Readiness c ν} {result : Except PyError Unit}
    (h : s.phase = .ended result) (l : Event ν) : (s.step l).phase = .ended result := by
  cases l with
  | deliver m => exact h
  | elapse seconds => exact h
  | call timeout =>
    change s.check timeout = _
    unfold check
    rw [h]
  | turn =>
    change s.turn = _
    unfold turn
    rw [h]

theorem run_ended {s : Readiness c ν} {result : Except PyError Unit}
    (h : s.phase = .ended result) (ls : List (Event ν)) :
    (run step s ls).phase = .ended result :=
  run_invariant' (fun s : Readiness c ν => s.phase = .ended result)
    (fun _ l hs => step_ended hs l) h ls

/-- An open call that has a sample and ends with an exception misses it. -/
theorem misses_of_sample {s : Readiness c ν} {ls : List (Event ν)} (hopen : ¬ s.Ended)
    (hlatest : s.sensor.buffer.latest ≠ none) {e : PyError}
    (hraised : (run step s ls).phase = .ended (.error e)) : ¬ Follows step NeverMisses s ls := by
  induction ls generalizing s with
  | nil => exact absurd ⟨_, hraised⟩ hopen
  | cons l ls ih =>
    intro ⟨hstep, hrest⟩
    have hkept := step_latest hlatest l
    by_cases hend : (s.step l).Ended
    · obtain ⟨result, hresult⟩ := hend
      have hsame := run_ended hresult ls
      rw [run_cons, hsame] at hraised
      rw [hraised] at hresult
      exact hkept (hstep hopen e hresult)
    · exact ih hend hkept hraised hrest

/-- **Readiness wait.** A call never misses a sample of its buffer in a run in which none arrives
between the check and the first section of the wait, and in a run that ends it with an exception
only then. -/
theorem ready_wait_never_misses {name topic : String} {sensor : Sensor c ν}
    (h : Sensor.new name topic c = .ok sensor) (now : ℚ) (ls : List (Event ν)) :
    (Follows step Timely (init sensor now) ls → Follows step NeverMisses (init sensor now) ls) ∧
    ∀ e, (run step (init sensor now) ls).phase = .ended (.error e) →
      Follows step NeverMisses (init sensor now) ls → Follows step Timely (init sensor now) ls := by
  have hnone : sensor.buffer.latest = none := by
    change sensor.history.getLast? = none
    rw [(Sensor.new_ok h).1]
    rfl
  constructor
  · intro htimely
    have hstart : (init sensor now).Counted ∧ (init sensor now).Unfed :=
      ⟨fun sample hsample => absurd (hnone.symm.trans hsample) (Option.some_ne_none sample).symm,
        trivial⟩
    exact follows_of_invariant (fun s : Readiness c ν => s.Counted ∧ s.Unfed)
      (fun s l hs hl => ⟨step_counted hs.1 l, (step_unfed hs.1 hs.2 hl).1⟩)
      (fun s l hs hl => (step_unfed hs.1 hs.2 hl).2) hstart htimely
  · intro e hraised hnever
    by_contra hlate
    obtain ⟨pre, l, post, hls, -, hbad⟩ := follows_first_failure hlate
    subst hls
    rw [follows_append] at hnever
    rw [run_append, run_cons] at hraised
    generalize run step (init sensor now) pre = s at hraised hnever hbad
    unfold Timely at hbad
    push Not at hbad
    obtain ⟨hbetween, m, value, rfl, hconversion⟩ := hbad
    have hopen : ¬ (s.step (.deliver m)).Ended := by
      intro ⟨result, hresult⟩
      change s.phase = .ended result at hresult
      rcases hbetween with ⟨timeout, hphase⟩ | ⟨deadline, afterSequence, hphase⟩
      · rw [hphase] at hresult
        cases hresult
      · rw [hphase] at hresult
        cases hresult
    have hlatest : (s.step (.deliver m)).sensor.buffer.latest ≠ none := by
      change (s.sensor.onMessage m).1.buffer.latest ≠ none
      rw [latest_onMessage, hconversion]
      exact Option.some_ne_none _
    exact misses_of_sample hopen hlatest hraised hnever.2.2

def wrench : Sensor 8 ℚ :=
  ⟨"wrench", "/wrench", ⟨Deque.empty, by decide⟩, 0, by decide, by decide⟩

/-- A message without a sample arrives between the check and the wait, and a reading after that. -/
def lateReading : List (Event ℚ) :=
  [.call 1, .turn, .deliver Stream.unreadable, .turn, .elapse (1 / 2), .deliver (Stream.reading 1),
    .turn]

/-- Nothing arrives. -/
def noReading : List (Event ℚ) := [.call 1, .turn, .turn, .elapse 2, .turn]

theorem timely_quiet {s : Readiness c ν} {l : Event ν} (h : ∀ m, l ≠ .deliver m) : s.Timely l :=
  fun _ m _ hl => absurd hl (h m)

theorem ready_wait_never_misses_wrench :
    (Follows step Timely (init wrench 0) lateReading ∧
      Follows step NeverMisses (init wrench 0) lateReading) ∧
    (run step (init wrench 0) noReading).phase = .ended (.error SampleBuffer.timedOut) ∧
      Follows step Timely (init wrench 0) noReading := by
  have hnew : Sensor.new "wrench" "/wrench" 8 = .ok wrench := rfl
  have htimely : Follows step Timely (init wrench 0) lateReading := by
    refine ⟨timely_quiet nofun, timely_quiet nofun, fun _ m value hl hok => ?_, timely_quiet nofun,
      timely_quiet nofun, fun hbetween => ?_, timely_quiet nofun, trivial⟩
    · cases hl
      cases hok
    · -- the call is inside its wait when the reading arrives
      have hwaiting : (run step (init wrench 0) (lateReading.take 5)).phase =
          .opened (.waiting 1 0) := by
        decide +kernel
      rcases hbetween with ⟨timeout, hphase⟩ | ⟨deadline, afterSequence, hphase⟩
      · cases hwaiting.symm.trans hphase
      · cases hwaiting.symm.trans hphase
  have hraised : (run step (init wrench 0) noReading).phase =
      .ended (.error SampleBuffer.timedOut) := by
    decide +kernel
  have hnever : Follows step NeverMisses (init wrench 0) noReading :=
    ⟨fun _ _ _ => rfl, fun _ _ _ => rfl, fun _ _ _ => rfl, fun _ _ _ => rfl, fun _ _ _ => rfl,
      trivial⟩
  exact ⟨⟨htimely, (ready_wait_never_misses hnew 0 lateReading).1 htimely⟩, hraised,
    (ready_wait_never_misses hnew 0 noReading).2 _ hraised hnever⟩

/-- One reading, which arrives between the check and the wait. -/
def latchedReading : List (Event ℚ) :=
  [.call 1, .turn, .deliver (Stream.reading 1), .turn, .elapse 2, .turn]

/-- The call times out although the sensor is ready. -/
theorem latched_reading_missed :
    (run step (init wrench 0) latchedReading).phase = .ended (.error SampleBuffer.timedOut) ∧
      (run step (init wrench 0) latchedReading).sensor.isReady = true ∧
      ¬ Follows step NeverMisses (init wrench 0) latchedReading := by
  have hraised : (run step (init wrench 0) latchedReading).phase =
      .ended (.error SampleBuffer.timedOut) := by
    decide +kernel
  refine ⟨hraised, rfl, fun hnever => ?_⟩
  obtain ⟨-, -, -, hrest⟩ := hnever
  have hopen : ¬ (run step (init wrench 0) (latchedReading.take 3)).Ended := by
    intro ⟨result, hresult⟩
    cases hresult
  exact misses_of_sample hopen (Option.some_ne_none _)
    (hraised : (run step _ [.turn, .elapse 2, .turn]).phase = _) hrest

end Readiness
end PhysicalAiRuntime.Sensing
