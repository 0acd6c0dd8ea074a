import Mathlib.Algebra.Order.Ring.Rat
import Mathlib.Logic.Function.Basic
import PhysicalAiRuntime.Foundations.PyError
import PhysicalAiRuntime.Foundations.Trace

/-! `EpisodeScope` over one `EpisodeRecorder`: which requests each recording gets from the uses of
its scope. The calls come from threads that run no asyncio loop, as `_run_sync` demands, and a call
of a service method counts as the request. -/
namespace PhysicalAiRuntime.Recording
set_option autoImplicit false
set_option maxHeartbeats 250000
set_option linter.unusedSectionVars false

variable {Status : Type}

inductive Raised where
  | exception (e : PyError)
  | interrupt
  deriving DecidableEq, Repr

inductive Request where
  | stop
  | discard (succeeded : Bool)
  deriving DecidableEq, Repr

structure EpisodeScope (Status : Type) where
  task : String
  metadata : List (String × String)
  stopTimeout : ℚ
  task_ne : task ≠ ""
  stopTimeout_pos : 0 < stopTimeout
  startedStatus : Option Status
  finalStatus : Option Status
  entered : Bool
  discarded : Bool

namespace EpisodeScope

def new (task : String) (metadata : List (String × String)) (stopTimeout : ℚ) :
    Except PyError (EpisodeScope Status) :=
  if ht : task = "" then .error ⟨.valueError, "task must not be empty"⟩
  else if hs : 0 < stopTimeout then
    .ok ⟨task, metadata, stopTimeout, ht, hs, none, none, false, false⟩
  else .error ⟨.valueError, "stop_timeout must be positive"⟩

/-- `discard`: the scope, the requests issued, and how the call ends. -/
def discard (s : EpisodeScope Status) (answer : Except Raised Status) :
    EpisodeScope Status × List Request × Except Raised (Option Status) :=
  if ¬ s.entered then (s, [], .error (.exception ⟨.runtimeError, "episode scope is not active"⟩))
  else if s.discarded then (s, [], .ok s.finalStatus)
  else match answer with
    | .error e => (s, [.discard false], .error e)
    | .ok status =>
      ({ s with finalStatus := some status, discarded := true }, [.discard true], .ok (some status))

/-- `__enter__` on an active recorder; `start` answers `start_recording`. -/
def enter (s : EpisodeScope Status) (start : Except Raised Status) :
    EpisodeScope Status × Except Raised Unit :=
  if s.entered then
    (s, .error (.exception ⟨.runtimeError, "episode scope is already entered"⟩))
  else match start with
    | .error e => (s, .error e)
    | .ok status => ({ s with startedStatus := some status, entered := true }, .ok ())

/-- The `try` block of `__exit__`; `body` is the exception the body ended in. -/
def finalize (s : EpisodeScope Status) (body : Option Raised) (answer : Except Raised Status) :
    EpisodeScope Status × List Request × Except Raised Unit :=
  if s.discarded then (s, [], .ok ())
  else match body, answer with
    | some _, .ok status =>
      ({ s with finalStatus := some status, discarded := true }, [.discard true], .ok ())
    | some _, .error (.exception _) => (s, [.discard false], .ok ())
    | some _, .error .interrupt => (s, [.discard false], .error .interrupt)
    | none, .ok status => ({ s with finalStatus := some status }, [.stop], .ok ())
    | none, .error e => (s, [.stop], .error e)

def exit (s : EpisodeScope Status) (body : Option Raised) (answer : Except Raised Status) :
    EpisodeScope Status × List Request × Except Raised Unit :=
  let (s', requests, result) := s.finalize body answer
  ({ s' with entered := false }, requests, result)

end EpisodeScope

/-! ## Uses of scopes -/

/-- A scope with the requests its recordings got: `past` of the earlier uses, `current` of the use
it is in or was in last. `explicit` says that `discard` was called in that use. -/
structure Tracked (Status : Type) where
  scope : EpisodeScope Status
  past : List (List Request)
  current : Option (List Request)
  explicit : Bool

def Tracked.recordings (t : Tracked Status) : List (List Request) := t.past ++ t.current.toList

/-- The recorder and its scopes; `active` is the recorder's flag. -/
structure Episodes (ι Status : Type) where
  active : Bool
  tracked : ι → Tracked Status

inductive EpisodeCall (ι Status : Type) where
  | enter (i : ι) (activate prepare : Except Raised Unit) (start : Except Raised Status)
  | discard (i : ι) (answer : Except Raised Status)
  | exit (i : ι) (body : Option Raised) (answer : Except Raised Status)

/-- `activate`: the flag it leaves, and how it ends. -/
def activate (active : Bool) (activate prepare : Except Raised Unit) : Bool × Except Raised Unit :=
  if active then (true, .ok ())
  else match activate, prepare with
    | .error e, _ => (false, .error e)
    | .ok _, .error e => (false, .error e)
    | .ok _, .ok _ => (true, .ok ())

namespace Tracked

def enter (t : Tracked Status) (start : Except Raised Status) : Tracked Status :=
  match t.scope.enter start with
  | (scope, .error _) => { t with scope := scope }
  | (scope, .ok _) => ⟨scope, t.recordings, some [], false⟩

def discard (t : Tracked Status) (answer : Except Raised Status) : Tracked Status :=
  let (scope, requests, _) := t.scope.discard answer
  { t with scope := scope, current := t.current.map (· ++ requests), explicit := true }

def exit (t : Tracked Status) (body : Option Raised) (answer : Except Raised Status) :
    Tracked Status :=
  let (scope, requests, _) := t.scope.exit body answer
  { t with scope := scope, current := t.current.map (· ++ requests) }

end Tracked

namespace Episodes
variable {ι : Type} [DecidableEq ι]

def setTracked (s : Episodes ι Status) (i : ι) (t : Tracked Status) : Episodes ι Status :=
  { s with tracked := Function.update s.tracked i t }

/-- `__enter__`, which activates the recorder first. -/
def enter (s : Episodes ι Status) (i : ι) (activateAnswer prepareAnswer : Except Raised Unit)
    (start : Except Raised Status) : Episodes ι Status :=
  if (s.tracked i).scope.entered then s
  else match activate s.active activateAnswer prepareAnswer with
    | (active, .error _) => { s with active := active }
    | (active, .ok _) => { s.setTracked i ((s.tracked i).enter start) with active := active }

def step (s : Episodes ι Status) : EpisodeCall ι Status → Episodes ι Status
  | .enter i activateAnswer prepareAnswer start => s.enter i activateAnswer prepareAnswer start
  | .discard i answer => s.setTracked i ((s.tracked i).discard answer)
  | .exit i body answer => s.setTracked i ((s.tracked i).exit body answer)

/-- Scopes that were never entered, on a recorder that is not active yet. -/
def init (scope : ι → EpisodeScope Status) : Episodes ι Status where
  active := false
  tracked i := ⟨{ scope i with
    startedStatus := none, finalStatus := none, entered := false, discarded := false }, [], none,
    false⟩

/-- `with` statements: `__exit__` is called on an entered scope only. -/
def WithStatements (s : Episodes ι Status) : EpisodeCall ι Status → Prop
  | .exit i _ _ => (s.tracked i).scope.entered = true
  | _ => True

instance decidableWithStatements (s : Episodes ι Status) : ∀ l, Decidable (s.WithStatements l)
  | .exit i _ _ => inferInstanceAs (Decidable ((s.tracked i).scope.entered = true))
  | .enter _ _ _ _ => isTrue trivial
  | .discard _ _ => isTrue trivial

end Episodes

/-! ## What is required, and when it holds -/

/-- No stop request follows a successful discard of the same recording. -/
def NoStopAfterDiscard (requests : List Request) : Prop :=
  ∀ before after, requests = before ++ .discard true :: after → .stop ∉ after

/-- `__exit__` leaves the recording with a request; and with exactly one stop request when the body
ended normally, nobody called `discard`, and `__exit__` returns. -/
def ExitFinalizes (t : Tracked Status) (body : Option Raised) (answer : Except Raised Status) :
    Prop :=
  ∃ requests, (t.exit body answer).current = some requests ∧ requests ≠ [] ∧
    (body = none → t.explicit = false → (t.scope.exit body answer).2.2 = .ok () →
      requests.count .stop = 1)

def NoEarlierDiscard (t : Tracked Status) : Prop :=
  ∀ requests ∈ t.past, .discard true ∉ requests

theorem noStopAfterDiscard_nil : NoStopAfterDiscard [] := by
  intro before after h
  simp at h

theorem noStopAfterDiscard_concat {requests : List Request} (h : .discard true ∉ requests)
    (q : Request) : NoStopAfterDiscard (requests ++ [q]) := by
  intro before after he hmem
  rcases List.eq_nil_or_concat after with rfl | ⟨rest, last, rfl⟩
  · exact List.not_mem_nil hmem
  · have hsplit : requests ++ [q] = (before ++ .discard true :: rest) ++ [last] := by
      rw [he]
      simp
    have hinit := (List.append_inj' hsplit rfl).1
    refine h ?_
    rw [hinit]
    simp

/-! ## The invariant of a scope -/

structure TrackedInv (t : Tracked Status) : Prop where
  flag : t.scope.discarded = true ↔ ∃ requests ∈ t.recordings, .discard true ∈ requests
  ordered : ∀ requests ∈ t.recordings, NoStopAfterDiscard requests
  current : t.scope.entered = true → ∃ requests, t.current = some requests ∧
    .stop ∉ requests ∧ (requests ≠ [] → NoEarlierDiscard t) ∧
    (.discard true ∈ requests → t.explicit = true)

theorem mem_recordings {t : Tracked Status} {current : List Request} (h : t.current = some current)
    (requests : List Request) :
    requests ∈ t.recordings ↔ requests ∈ t.past ∨ requests = current := by
  unfold Tracked.recordings
  rw [h]
  simp

/-- What one call of a scope issues, from the flag before it to the flag after it. -/
inductive Issues : Bool → List Request → Bool → Prop
  | nothing (discarded : Bool) : Issues discarded [] discarded
  | discarded : Issues false [.discard true] true
  | kept (q : Request) (hq : q ≠ .discard true) : Issues false [q] false

theorem Issues.not_discarded {before after : Bool} {requests : List Request}
    (h : Issues before requests after) (hne : requests ≠ []) : before = false := by
  cases h with
  | nothing _ => exact absurd rfl hne
  | discarded => rfl
  | kept _ _ => rfl

/-- A recording that has a request, or gets one now, comes after no discarded one. -/
theorem TrackedInv.noEarlierDiscard {t : Tracked Status} (h : TrackedInv t)
    (he : t.scope.entered = true) {current requests : List Request} (hc : t.current = some current)
    {discarded : Bool} (hi : Issues t.scope.discarded requests discarded)
    (hne : current ++ requests ≠ []) : NoEarlierDiscard t := by
  obtain ⟨current', hc', -, hclean, -⟩ := h.current he
  obtain rfl : current = current' := Option.some.inj (hc.symm.trans hc')
  by_cases hempty : current = []
  · rw [hempty, List.nil_append] at hne
    intro r hr hd
    have hset := h.flag.mpr ⟨r, (mem_recordings hc r).mpr (Or.inl hr), hd⟩
    rw [hi.not_discarded hne] at hset
    cases hset
  · exact hclean hempty

theorem discard_issues (s : EpisodeScope Status) (answer : Except Raised Status) :
    Issues s.discarded (s.discard answer).2.1 (s.discard answer).1.discarded := by
  unfold EpisodeScope.discard
  cases he : s.entered with
  | false => exact Issues.nothing s.discarded
  | true =>
    cases hd : s.discarded with
    | true =>
      have hn := Issues.nothing s.discarded
      simpa [hd] using hn
    | false =>
      cases answer with
      | error e => simpa [hd] using Issues.kept (.discard false) (by decide)
      | ok status => simpa using Issues.discarded

theorem exit_issues (s : EpisodeScope Status) (body : Option Raised)
    (answer : Except Raised Status) :
    Issues s.discarded (s.exit body answer).2.1 (s.exit body answer).1.discarded := by
  unfold EpisodeScope.exit EpisodeScope.finalize
  cases hd : s.discarded with
  | true =>
    have hn := Issues.nothing s.discarded
    simpa [hd] using hn
  | false =>
    cases body with
    | none => cases answer <;> simpa [hd] using Issues.kept .stop (by decide)
    | some b =>
      cases answer with
      | ok status => simpa using Issues.discarded
      | error e => cases e <;> simpa [hd] using Issues.kept (.discard false) (by decide)

/-- `__exit__` issues one request, unless the scope counts as discarded. -/
theorem exit_requests {s : EpisodeScope Status} (hd : s.discarded = false) (body : Option Raised)
    (answer : Except Raised Status) :
    (s.exit body answer).2.1 = match body, answer with
      | none, _ => [.stop]
      | some _, .ok _ => [.discard true]
      | some _, .error _ => [.discard false] := by
  unfold EpisodeScope.exit EpisodeScope.finalize
  cases body with
  | none => cases answer <;> simp [hd]
  | some b =>
    cases answer with
    | ok status => simp [hd]
    | error e => cases e <;> simp [hd]

/-- Requests issued in step with the flag keep the flag true to the record, and the stop requests
before the discards. -/
theorem record_append {t : Tracked Status} (h : TrackedInv t) {current requests : List Request}
    (hc : t.current = some current) {discarded : Bool}
    (hi : Issues t.scope.discarded requests discarded) :
    (discarded = true ↔ ∃ r ∈ t.past ++ [current ++ requests], .discard true ∈ r) ∧
    ∀ r ∈ t.past ++ [current ++ requests], NoStopAfterDiscard r := by
  have hflag := h.flag
  have hcurrent := h.ordered current ((mem_recordings hc current).mpr (Or.inr rfl))
  simp only [mem_recordings hc, or_and_right, exists_or, exists_eq_left] at hflag
  have hpast : ∀ r ∈ t.past, NoStopAfterDiscard r := by
    intro r hr
    exact h.ordered r ((mem_recordings hc r).mpr (Or.inl hr))
  simp only [List.mem_append, List.mem_singleton, or_and_right, exists_or, exists_eq_left,
    or_imp, forall_and, forall_eq]
  generalize hd : t.scope.discarded = before at hi hflag
  cases hi with
  | nothing discarded =>
    simp only [List.append_nil, List.not_mem_nil, or_false]
    exact ⟨hflag, hpast, hcurrent⟩
  | discarded =>
    have hnot : .discard true ∉ current := fun hm => by simp [hm] at hflag
    exact ⟨by simp, hpast, noStopAfterDiscard_concat hnot _⟩
  | kept q hq =>
    have hnot : .discard true ∉ current := fun hm => by simp [hm] at hflag
    refine ⟨?_, hpast, noStopAfterDiscard_concat hnot _⟩
    rw [hflag]
    simp [Ne.symm hq]

theorem enter_cases (t : Tracked Status) (start : Except Raised Status) :
    t.enter start = t ∨ ∃ status, t.enter start =
      ⟨{ t.scope with startedStatus := some status, entered := true }, t.recordings, some [],
        false⟩ := by
  unfold Tracked.enter EpisodeScope.enter
  cases he : t.scope.entered with
  | true => exact Or.inl (by simp)
  | false =>
    cases start with
    | error e => exact Or.inl (by simp)
    | ok status => exact Or.inr ⟨status, by simp⟩

theorem trackedInv_enter {t : Tracked Status} (h : TrackedInv t) (start : Except Raised Status) :
    TrackedInv (t.enter start) := by
  rcases enter_cases t start with he | ⟨status, he⟩
  · rw [he]
    exact h
  · rw [he]
    refine ⟨?_, ?_, fun _ => ⟨[], rfl, List.not_mem_nil, fun hne => absurd rfl hne,
      fun hm => absurd hm List.not_mem_nil⟩⟩
    · change t.scope.discarded = true ↔ _
      rw [h.flag]
      constructor
      · rintro ⟨r, hr, hd⟩
        exact ⟨r, List.mem_append_left _ hr, hd⟩
      · rintro ⟨r, hr, hd⟩
        rcases List.mem_append.mp hr with hold | hnew
        · exact ⟨r, hold, hd⟩
        · rw [Option.toList_some, List.mem_singleton] at hnew
          rw [hnew] at hd
          exact absurd hd List.not_mem_nil
    · intro requests hm
      rcases List.mem_append.mp hm with hold | hnew
      · exact h.ordered requests hold
      · rw [Option.toList_some, List.mem_singleton] at hnew
        rw [hnew]
        exact noStopAfterDiscard_nil

theorem discard_entered (s : EpisodeScope Status) (answer : Except Raised Status) :
    (s.discard answer).1.entered = s.entered ∧ .stop ∉ (s.discard answer).2.1 ∧
      (s.entered = false → (s.discard answer).2.1 = [] ∧
        (s.discard answer).1.discarded = s.discarded) := by
  unfold EpisodeScope.discard
  cases he : s.entered with
  | false => simp [he]
  | true =>
    cases hd : s.discarded with
    | true => simp [he]
    | false => cases answer <;> simp [he]

theorem trackedInv_discard {t : Tracked Status} (h : TrackedInv t) (answer : Except Raised Status) :
    TrackedInv (t.discard answer) := by
  obtain ⟨hentered, hstop, hidle⟩ := discard_entered t.scope answer
  have hissues := discard_issues t.scope answer
  have hscope : (t.discard answer).scope = (t.scope.discard answer).1 := rfl
  have hnew : (t.discard answer).current =
      t.current.map (· ++ (t.scope.discard answer).2.1) := rfl
  cases he : t.scope.entered with
  | false =>
    obtain ⟨hnone, hflag⟩ := hidle he
    have hrec : (t.discard answer).recordings = t.recordings := by
      unfold Tracked.recordings
      rw [hnew, hnone]
      cases t.current <;> simp [Tracked.discard]
    refine ⟨?_, ?_, fun hin => ?_⟩
    · rw [hscope, hflag, hrec]
      exact h.flag
    · rw [hrec]
      exact h.ordered
    · rw [hscope, hentered, he] at hin
      cases hin
  | true =>
    obtain ⟨current, hc, hns, -, -⟩ := h.current he
    obtain ⟨hflag, hordered⟩ := record_append h hc hissues
    have hrec : (t.discard answer).recordings =
        t.past ++ [current ++ (t.scope.discard answer).2.1] := by
      unfold Tracked.recordings
      rw [hnew, hc]
      rfl
    refine ⟨by rw [hrec]; exact hflag, by rw [hrec]; exact hordered, fun _ => ?_⟩
    refine ⟨current ++ (t.scope.discard answer).2.1, by rw [hnew, hc]; rfl, ?_,
      h.noEarlierDiscard he hc hissues, fun _ => rfl⟩
    simp [hns, hstop]

theorem trackedInv_exit {t : Tracked Status} (h : TrackedInv t) (he : t.scope.entered = true)
    (body : Option Raised) (answer : Except Raised Status) : TrackedInv (t.exit body answer) := by
  obtain ⟨current, hc, -, -, -⟩ := h.current he
  obtain ⟨hflag, hordered⟩ := record_append h hc (exit_issues t.scope body answer)
  have hrec : (t.exit body answer).recordings =
      t.past ++ [current ++ (t.scope.exit body answer).2.1] := by
    unfold Tracked.recordings
    change t.past ++ (t.current.map (· ++ (t.scope.exit body answer).2.1)).toList = _
    rw [hc]
    rfl
  refine ⟨by rw [hrec]; exact hflag, by rw [hrec]; exact hordered, fun hin => ?_⟩
  change false = true at hin
  cases hin

/-- Where no earlier recording was discarded, the flag tells of the recording of this use. -/
theorem TrackedInv.flag_current {t : Tracked Status} (h : TrackedInv t)
    (hearlier : NoEarlierDiscard t) {current : List Request} (hc : t.current = some current) :
    t.scope.discarded = true ↔ .discard true ∈ current := by
  rw [h.flag]
  constructor
  · rintro ⟨r, hr, hd⟩
    rcases (mem_recordings hc r).mp hr with hpast | rfl
    · exact absurd hd (hearlier r hpast)
    · exact hd
  · intro hd
    exact ⟨current, (mem_recordings hc current).mpr (Or.inr rfl), hd⟩

/-- On a scope with no earlier discard `__exit__` finalizes; after one it issues nothing. -/
theorem exitFinalizes_iff {t : Tracked Status} (h : TrackedInv t) (he : t.scope.entered = true)
    (body : Option Raised) (answer : Except Raised Status) :
    ExitFinalizes t body answer ↔ NoEarlierDiscard t := by
  obtain ⟨current, hc, hns, -, hexplicit⟩ := h.current he
  have hnew : (t.exit body answer).current =
      some (current ++ (t.scope.exit body answer).2.1) := by
    change t.current.map (· ++ (t.scope.exit body answer).2.1) = _
    rw [hc]
    rfl
  constructor
  · rintro ⟨requests, hr, hne, -⟩
    rw [hnew] at hr
    cases hr
    exact h.noEarlierDiscard he hc (exit_issues t.scope body answer) hne
  · intro hearlier
    have hflag := h.flag_current hearlier hc
    refine ⟨_, hnew, ?_, fun hbody hex _ => ?_⟩
    · cases hd : t.scope.discarded with
      | true =>
        intro hempty
        have hm := hflag.mp hd
        rw [(List.append_eq_nil_iff.mp hempty).1] at hm
        exact List.not_mem_nil hm
      | false =>
        rw [exit_requests hd]
        cases body with
        | none => simp
        | some b => cases answer <;> simp
    · have hd : t.scope.discarded = false := by
        rw [Bool.eq_false_iff]
        intro ht
        have htrue := hexplicit (hflag.mp ht)
        rw [hex] at htrue
        cases htrue
      rw [exit_requests hd, hbody, List.count_append, List.count_eq_zero.mpr hns]
      simp

/-! ## Runs -/

namespace Episodes
variable {ι : Type} [DecidableEq ι]

/-- After the call no recording has a stop request behind a successful discard, and a call of
`__exit__` has finalized its recording. -/
def Finalized (s : Episodes ι Status) (l : EpisodeCall ι Status) : Prop :=
  (∀ i, ∀ requests ∈ ((s.step l).tracked i).recordings, NoStopAfterDiscard requests) ∧
  ∀ i body answer, l = .exit i body answer → ExitFinalizes (s.tracked i) body answer

def ExitsClean (s : Episodes ι Status) : EpisodeCall ι Status → Prop
  | .exit i _ _ => NoEarlierDiscard (s.tracked i)
  | _ => True

instance decidableExitsClean (s : Episodes ι Status) : ∀ l, Decidable (s.ExitsClean l)
  | .exit i _ _ => inferInstanceAs
      (Decidable (∀ requests ∈ (s.tracked i).past, Request.discard true ∉ requests))
  | .enter _ _ _ _ => isTrue trivial
  | .discard _ _ => isTrue trivial

def Inv (s : Episodes ι Status) : Prop := ∀ i, TrackedInv (s.tracked i)

theorem inv_setTracked {s : Episodes ι Status} (h : s.Inv) {i : ι} {t : Tracked Status}
    (ht : TrackedInv t) : (s.setTracked i t).Inv := by
  intro j
  by_cases hj : j = i
  · rw [hj]
    simpa [setTracked] using ht
  · simpa [setTracked, hj] using h j

theorem inv_step {s : Episodes ι Status} (h : s.Inv) {l : EpisodeCall ι Status}
    (hl : s.WithStatements l) : (s.step l).Inv := by
  cases l with
  | enter i activateAnswer prepareAnswer start =>
    change (s.enter i activateAnswer prepareAnswer start).Inv
    unfold enter
    by_cases he : (s.tracked i).scope.entered = true
    · rw [if_pos he]
      exact h
    · rw [if_neg he]
      cases ha : activate s.active activateAnswer prepareAnswer with
      | mk active result =>
        cases result with
        | error e => exact h
        | ok _ => exact inv_setTracked h (trackedInv_enter (h i) start)
  | discard i answer => exact inv_setTracked h (trackedInv_discard (h i) answer)
  | exit i body answer => exact inv_setTracked h (trackedInv_exit (h i) hl body answer)

theorem inv_init (scope : ι → EpisodeScope Status) : (init scope).Inv := by
  intro i
  refine ⟨?_, fun _ hr => absurd hr List.not_mem_nil, fun he => absurd he Bool.false_ne_true⟩
  constructor
  · intro hd
    cases hd
  · rintro ⟨r, hr, -⟩
    exact absurd hr List.not_mem_nil

theorem finalized_iff {s : Episodes ι Status} (h : s.Inv) {l : EpisodeCall ι Status}
    (hl : s.WithStatements l) : s.Finalized l ↔ s.ExitsClean l := by
  have hordered : ∀ i, ∀ requests ∈ ((s.step l).tracked i).recordings,
      NoStopAfterDiscard requests := fun i => (inv_step h hl i).ordered
  constructor
  · intro hf
    cases l with
    | exit i body answer => exact (exitFinalizes_iff (h i) hl body answer).mp (hf.2 i _ _ rfl)
    | enter i activateAnswer prepareAnswer start => trivial
    | discard i answer => trivial
  · intro hc
    refine ⟨hordered, ?_⟩
    intro i body answer he
    subst he
    exact (exitFinalizes_iff (h i) hl body answer).mpr hc

/-- **Recordings are finalized.** Over any run of scopes used by `with` statements, every `__exit__`
finalizes its recording, and no stop follows a discard, exactly when no scope is exited from a use
that came after a discarded recording of the same scope. -/
theorem recordings_finalized_iff (scope : ι → EpisodeScope Status)
    (calls : List (EpisodeCall ι Status))
    (hcalls : Trace.Follows step WithStatements (init scope) calls) :
    Trace.Follows step Finalized (init scope) calls ↔
      Trace.Follows step ExitsClean (init scope) calls :=
  Trace.follows_congr Inv (fun _ _ h hl => finalized_iff h hl) (fun _ _ h hl _ => inv_step h hl)
    (inv_init scope) hcalls

/-! ## One scope used twice -/

def pickScope : EpisodeScope String :=
  ⟨"pick", [], 300, by decide, by decide, none, none, false, false⟩

def pickEnter : EpisodeCall Unit String := .enter () (.ok ()) (.ok ()) (.ok "recording")

theorem pick_finalized : Trace.Follows step Finalized (init fun _ => pickScope)
    [pickEnter, .discard () (.error .interrupt), .exit () none (.ok "idle"), pickEnter,
      .exit () (some .interrupt) (.ok "idle")] :=
  (recordings_finalized_iff (fun _ => pickScope) _ (by decide +kernel)).mpr (by decide +kernel)

/-- The first use is discarded; the second ends normally, and its recording gets no request. -/
theorem second_use_not_finalized : ¬ Trace.Follows step Finalized (init fun _ => pickScope)
    [pickEnter, .discard () (.ok "idle"), .exit () none (.ok "idle"), pickEnter,
      .exit () none (.ok "idle")] := by
  intro h
  obtain ⟨requests, hr, hne, -⟩ := h.2.2.2.2.1.2 () none (.ok "idle") rfl
  have hnone : (((Trace.run step (init fun _ : Unit => pickScope) [pickEnter,
      .discard () (.ok "idle"), .exit () none (.ok "idle"), pickEnter]).tracked ()).exit none
      (.ok "idle")).current = some [] := by
    decide +kernel
  exact hne (Option.some.inj (hr.symm.trans hnone))

end Episodes
end PhysicalAiRuntime.Recording
