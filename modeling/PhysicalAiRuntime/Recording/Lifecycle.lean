import PhysicalAiRuntime.Foundations.Monitor
import PhysicalAiRuntime.Recording.EpisodeScope

/-! `EpisodeRecorder` as the client of the recorder service: in what order its operations, and the
scopes on it, call the service, whatever the service answers. As for the scopes, the calls come
from threads that run no asyncio loop. -/
namespace PhysicalAiRuntime.Recording
set_option autoImplicit false
set_option maxHeartbeats 250000
set_option linter.unusedSectionVars false

variable {ι Status : Type} [DecidableEq ι]

/-- A call of the service client; `returned` says that it did not raise. -/
inductive ServiceCall where
  | activate (returned : Bool)
  | prepare (returned : Bool)
  | waitReady (timeoutS : ℚ)
  | getStatus
  | startRecording (task : String) (manifestContext : List (String × String))
  | stopRecording (timeoutS : ℚ)
  | discard
  | close (returned : Bool)
  deriving DecidableEq, Repr

/-- The recorder with the scopes made on it and the calls it issued. -/
structure EpisodeRecorder (ι Status : Type) where
  active : Bool
  scopes : ι → EpisodeScope Status
  calls : List ServiceCall

namespace EpisodeRecorder

def call (r : EpisodeRecorder ι Status) (c : ServiceCall) : EpisodeRecorder ι Status :=
  { r with calls := r.calls ++ [c] }

def activateCalls (active : Bool) (activate prepare : Except Raised Unit) : List ServiceCall :=
  if active then []
  else match activate with
    | .error _ => [.activate false]
    | .ok _ => [.activate true, .prepare prepare.isOk]

/-- `activate`, which is `prepare` and `__enter__` too. -/
def activate (r : EpisodeRecorder ι Status) (activateAnswer prepareAnswer : Except Raised Unit) :
    EpisodeRecorder ι Status × Except Raised Unit :=
  let (active, result) := Recording.activate r.active activateAnswer prepareAnswer
  ({ r with
      active := active
      calls := r.calls ++ activateCalls r.active activateAnswer prepareAnswer }, result)

/-- `self.activate()` in front of a body that is left out when it raises. -/
def whenActive {α : Type} (r : EpisodeRecorder ι Status)
    (activateAnswer prepareAnswer : Except Raised Unit)
    (body : EpisodeRecorder ι Status → EpisodeRecorder ι Status × Except Raised α) :
    EpisodeRecorder ι Status × Except Raised α :=
  match r.activate activateAnswer prepareAnswer with
  | (r, .error e) => (r, .error e)
  | (r, .ok ()) => body r

def waitReady (r : EpisodeRecorder ι Status) (activateAnswer prepareAnswer : Except Raised Unit)
    (timeoutS : ℚ) (answer : Except Raised Status) :
    EpisodeRecorder ι Status × Except Raised Status :=
  r.whenActive activateAnswer prepareAnswer fun r => (r.call (.waitReady timeoutS), answer)

def status (r : EpisodeRecorder ι Status) (activateAnswer prepareAnswer : Except Raised Unit)
    (answer : Except Raised Status) : EpisodeRecorder ι Status × Except Raised Status :=
  r.whenActive activateAnswer prepareAnswer fun r => (r.call .getStatus, answer)

def discard (r : EpisodeRecorder ι Status) (activateAnswer prepareAnswer : Except Raised Unit)
    (answer : Except Raised Status) : EpisodeRecorder ι Status × Except Raised Status :=
  r.whenActive activateAnswer prepareAnswer fun r => (r.call .discard, answer)

/-- `close`, which is `__exit__` too. -/
def close (r : EpisodeRecorder ι Status) (answer : Except Raised Unit) :
    EpisodeRecorder ι Status × Except Raised Unit :=
  if r.active then
    match answer with
    | .error e => (r.call (.close false), .error e)
    | .ok () => ({ r.call (.close true) with active := false }, .ok ())
  else (r, .ok ())

def setScope (r : EpisodeRecorder ι Status) (i : ι) (s : EpisodeScope Status) :
    EpisodeRecorder ι Status :=
  { r with scopes := Function.update r.scopes i s }

/-- `EpisodeScope.__enter__`. -/
def enterScope (r : EpisodeRecorder ι Status) (i : ι)
    (activateAnswer prepareAnswer : Except Raised Unit) (start : Except Raised Status) :
    EpisodeRecorder ι Status × Except Raised Unit :=
  if (r.scopes i).entered then
    (r, .error (.exception ⟨.runtimeError, "episode scope is already entered"⟩))
  else
    r.whenActive activateAnswer prepareAnswer fun r =>
      let (scope, result) := (r.scopes i).enter start
      ((r.call (.startRecording scope.task scope.metadata)).setScope i scope, result)

/-- The service call of a request that a scope issues. -/
def scopeCall (s : EpisodeScope Status) : Request → ServiceCall
  | .stop => .stopRecording s.stopTimeout
  | .discard _ => .discard

def issue (r : EpisodeRecorder ι Status) (i : ι) (s : EpisodeScope Status)
    (requests : List Request) : EpisodeRecorder ι Status :=
  { r.setScope i s with calls := r.calls ++ requests.map (scopeCall s) }

/-- `EpisodeScope.discard`. -/
def discardScope (r : EpisodeRecorder ι Status) (i : ι) (answer : Except Raised Status) :
    EpisodeRecorder ι Status × Except Raised (Option Status) :=
  let (scope, requests, result) := (r.scopes i).discard answer
  (r.issue i scope requests, result)

/-- `EpisodeScope.__exit__`. -/
def exitScope (r : EpisodeRecorder ι Status) (i : ι) (body : Option Raised)
    (answer : Except Raised Status) : EpisodeRecorder ι Status × Except Raised Unit :=
  let (scope, requests, result) := (r.scopes i).exit body answer
  (r.issue i scope requests, result)

end EpisodeRecorder

/-- A use of the recorder or of one of its scopes, with what the service answers. -/
inductive RecorderUse (ι Status : Type) where
  | activate (activate prepare : Except Raised Unit)
  | waitReady (activate prepare : Except Raised Unit) (timeoutS : ℚ)
      (answer : Except Raised Status)
  | status (activate prepare : Except Raised Unit) (answer : Except Raised Status)
  | discard (activate prepare : Except Raised Unit) (answer : Except Raised Status)
  | close (answer : Except Raised Unit)
  | enterScope (i : ι) (activate prepare : Except Raised Unit) (start : Except Raised Status)
  | discardScope (i : ι) (answer : Except Raised Status)
  | exitScope (i : ι) (body : Option Raised) (answer : Except Raised Status)

namespace EpisodeRecorder

def step (r : EpisodeRecorder ι Status) : RecorderUse ι Status → EpisodeRecorder ι Status
  | .activate a p => (r.activate a p).1
  | .waitReady a p timeoutS answer => (r.waitReady a p timeoutS answer).1
  | .status a p answer => (r.status a p answer).1
  | .discard a p answer => (r.discard a p answer).1
  | .close answer => (r.close answer).1
  | .enterScope i a p start => (r.enterScope i a p start).1
  | .discardScope i answer => (r.discardScope i answer).1
  | .exitScope i body answer => (r.exitScope i body answer).1

def init (scopes : ι → EpisodeScope Status) : EpisodeRecorder ι Status :=
  ⟨false, fun i => { scopes i with entered := false, discarded := false }, []⟩

end EpisodeRecorder

/-! ## The service -/

inductive Phase where
  | inactive
  | activated
  | ready
  deriving DecidableEq, Repr

/-- The service is activated, then prepared, then used, then closed. Where `strict` does not hold,
a recording may be stopped or discarded in any phase. -/
def Phase.step (strict : Bool) (phase : Phase) : ServiceCall → Option Phase
  | .activate returned =>
    if phase = .ready then none else some (if returned then .activated else phase)
  | .prepare returned =>
    if phase = .activated then some (if returned then .ready else phase) else none
  | .close returned =>
    if phase = .ready then some (if returned then .inactive else phase) else none
  | .waitReady _ => if phase = .ready then some phase else none
  | .getStatus => if phase = .ready then some phase else none
  | .startRecording _ _ => if phase = .ready then some phase else none
  | .stopRecording _ => if strict ∧ phase ≠ .ready then none else some phase
  | .discard => if strict ∧ phase ≠ .ready then none else some phase

namespace EpisodeRecorder

/-- The service accepted every call, and it is ready exactly while the recorder is active. -/
def Agrees (strict : Bool) (r : EpisodeRecorder ι Status) : Prop :=
  ∃ phase, Monitor.after (Phase.step strict) .inactive r.calls = some phase ∧
    (r.active = true ↔ phase = .ready)

def Accepted (r : EpisodeRecorder ι Status) : Prop :=
  ∃ phase, Monitor.after (Phase.step true) .inactive r.calls = some phase

/-- A scope that asks for its recording asks an active recorder. -/
def Served (r : EpisodeRecorder ι Status) : RecorderUse ι Status → Prop
  | .discardScope i answer => ((r.scopes i).discard answer).2.1 ≠ [] → r.active = true
  | .exitScope i body answer => ((r.scopes i).exit body answer).2.1 ≠ [] → r.active = true
  | _ => True

/-- The recorder is closed outside its scopes only, and scopes are exited that were entered. -/
def Nested (r : EpisodeRecorder ι Status) : RecorderUse ι Status → Prop
  | .close _ => ∀ i, (r.scopes i).entered = false
  | .exitScope i _ _ => (r.scopes i).entered = true
  | _ => True

variable {strict : Bool} {r : EpisodeRecorder ι Status}

/-- A call that leaves a ready service ready. -/
theorem Agrees.call (h : r.Agrees strict) (ha : r.active = true) {c : ServiceCall}
    (hc : Phase.step strict .ready c = some .ready) : (r.call c).Agrees strict := by
  obtain ⟨phase, hphase, hactive⟩ := h
  rw [hactive.mp ha] at hphase
  refine ⟨.ready, ?_, fun _ => rfl, fun _ => ha⟩
  exact (Monitor.after_call hphase c).trans hc

theorem Agrees.activate (h : r.Agrees strict) (a p : Except Raised Unit) :
    (r.activate a p).1.Agrees strict ∧
      ((r.activate a p).2 = .ok () → (r.activate a p).1.active = true) := by
  obtain ⟨phase, hphase, hactive⟩ := h
  unfold EpisodeRecorder.activate Recording.activate activateCalls
  cases ha : r.active with
  | true =>
    simp only [if_true, List.append_nil]
    exact ⟨⟨phase, hphase, by rw [← hactive, ha]⟩, fun _ => trivial⟩
  | false =>
    have hne : phase ≠ .ready := fun he => by
      rw [hactive.mpr he] at ha
      cases ha
    have hcall : ∀ returned, Monitor.after (Phase.step strict) .inactive
        (r.calls ++ [.activate returned]) = some (if returned then .activated else phase) :=
      fun returned => (Monitor.after_call hphase _).trans (if_neg hne)
    cases a with
    | error e =>
      refine ⟨⟨phase, hcall false, ?_⟩, fun h => by cases h⟩
      simp [hne]
    | ok _ =>
      have hprepare : Monitor.after (Phase.step strict) .inactive
          (r.calls ++ [.activate true, .prepare p.isOk]) =
          some (if p.isOk then .ready else .activated) := by
        rw [← List.singleton_append, ← List.append_assoc, Monitor.after_call (hcall true)]
        rfl
      refine ⟨⟨_, hprepare, ?_⟩, fun h => ?_⟩
      · cases p <;> simp [Except.isOk, Except.toBool]
      · cases p with
        | error e => cases h
        | ok _ => rfl

/-- A body that runs on an active recorder keeps the agreement. -/
theorem Agrees.whenActive {α : Type} (h : r.Agrees strict) (a p : Except Raised Unit)
    {body : EpisodeRecorder ι Status → EpisodeRecorder ι Status × Except Raised α}
    (hbody : ∀ r : EpisodeRecorder ι Status, r.Agrees strict → r.active = true →
      (body r).1.Agrees strict) : (r.whenActive a p body).1.Agrees strict := by
  obtain ⟨hagrees, hactive⟩ := h.activate a p
  unfold EpisodeRecorder.whenActive
  cases hr : r.activate a p with
  | mk r' result =>
    rw [hr] at hagrees hactive
    cases result with
    | error e => exact hagrees
    | ok _ => exact hbody r' hagrees (hactive rfl)

theorem Agrees.close (h : r.Agrees strict) (answer : Except Raised Unit) :
    (r.close answer).1.Agrees strict := by
  unfold EpisodeRecorder.close
  by_cases ha : r.active = true
  · rw [if_pos ha]
    cases answer with
    | error e => exact h.call ha rfl
    | ok _ =>
      obtain ⟨phase, hphase, hactive⟩ := h
      rw [hactive.mp ha] at hphase
      exact ⟨.inactive, (Monitor.after_call hphase _).trans rfl, by simp⟩
  · rw [if_neg ha]
    exact h

/-- What a scope issues is accepted where the recorder is active, or where it always is. -/
theorem Agrees.issue (h : r.Agrees strict) (i : ι) (s : EpisodeScope Status)
    {requests : List Request} (hone : requests.length ≤ 1)
    (ha : strict = true → requests ≠ [] → r.active = true) :
    (r.issue i s requests).Agrees strict := by
  obtain ⟨phase, hphase, hactive⟩ := h
  refine ⟨phase, ?_, hactive⟩
  match requests with
  | [] => exact (congrArg _ (List.append_nil _)).trans hphase
  | [q] =>
    have hnot : ¬ (strict = true ∧ phase ≠ .ready) := fun hc =>
      hc.2 (hactive.mp (ha hc.1 (List.cons_ne_nil q [])))
    refine (Monitor.after_call hphase _).trans ?_
    cases q with
    | stop => exact if_neg hnot
    | discard succeeded => exact if_neg hnot
  | q :: q' :: rest => exact absurd hone (by simp)

theorem requests_le_one {before after : Bool} {requests : List Request}
    (h : Issues before requests after) : requests.length ≤ 1 := by
  cases h <;> simp

theorem agrees_step (h : r.Agrees strict) (l : RecorderUse ι Status)
    (hl : strict = true → r.Served l) : (r.step l).Agrees strict := by
  cases l with
  | activate a p => exact (h.activate a p).1
  | waitReady a p timeoutS answer => exact h.whenActive a p fun r hr ha => hr.call ha rfl
  | status a p answer => exact h.whenActive a p fun r hr ha => hr.call ha rfl
  | discard a p answer =>
    refine h.whenActive a p fun r hr ha => hr.call ha ?_
    exact if_neg fun hc => hc.2 rfl
  | close answer => exact h.close answer
  | enterScope i a p start =>
    change (r.enterScope i a p start).1.Agrees strict
    unfold enterScope
    by_cases he : (r.scopes i).entered = true
    · rw [if_pos he]
      exact h
    · rw [if_neg he]
      refine h.whenActive a p fun r hr ha => ?_
      have hc := hr.call ha (c := .startRecording ((r.scopes i).enter start).1.task
        ((r.scopes i).enter start).1.metadata) rfl
      exact hc
  | discardScope i answer =>
    exact h.issue i _ (requests_le_one (discard_issues (r.scopes i) answer)) hl
  | exitScope i body answer =>
    exact h.issue i _ (requests_le_one (exit_issues (r.scopes i) body answer)) hl

/-- A request of a scope is refused while the recorder is not active. -/
theorem served_of_accepted (h : r.Agrees true) {l : RecorderUse ι Status}
    (ha : (r.step l).Accepted) : r.Served l := by
  obtain ⟨phase, hphase, hactive⟩ := h
  have hissue : ∀ (i : ι) (s : EpisodeScope Status) (requests : List Request),
      (r.issue i s requests).Accepted → requests ≠ [] → r.active = true := by
    intro i s requests hacc hne
    obtain ⟨q, rest, rfl⟩ := List.exists_cons_of_ne_nil hne
    obtain ⟨last, hlast⟩ := hacc
    have hfirst : ∃ k, Monitor.after (Phase.step true) .inactive
        (r.calls ++ [scopeCall s q]) = some k := by
      have hall : Monitor.after (Phase.step true) .inactive
          (r.calls ++ [scopeCall s q] ++ rest.map (scopeCall s)) = some last := by
        rw [List.append_assoc]
        exact hlast
      exact Monitor.after_prefix hall
    rw [Monitor.after_call hphase] at hfirst
    obtain ⟨k, hk⟩ := hfirst
    rw [hactive]
    by_contra hready
    have hrefused : Phase.step true phase (scopeCall s q) = none := by
      cases q with
      | stop => exact if_pos ⟨rfl, hready⟩
      | discard succeeded => exact if_pos ⟨rfl, hready⟩
    rw [hrefused] at hk
    cases hk
  cases l with
  | discardScope i answer => exact hissue i _ _ ha
  | exitScope i body answer => exact hissue i _ _ ha
  | activate a p => trivial
  | waitReady a p timeoutS answer => trivial
  | status a p answer => trivial
  | discard a p answer => trivial
  | close answer => trivial
  | enterScope i a p start => trivial

/-! ## Runs -/

theorem whenActive_calls {α : Type} (r : EpisodeRecorder ι Status) (a p : Except Raised Unit)
    {body : EpisodeRecorder ι Status → EpisodeRecorder ι Status × Except Raised α}
    (hbody : ∀ r : EpisodeRecorder ι Status, r.calls <+: (body r).1.calls) :
    r.calls <+: (r.whenActive a p body).1.calls := by
  have hactivate : r.calls <+: (r.activate a p).1.calls := List.prefix_append _ _
  unfold whenActive
  cases hr : r.activate a p with
  | mk r' result =>
    rw [hr] at hactivate
    cases result with
    | error e => exact hactivate
    | ok _ => exact hactivate.trans (hbody r')

/-- Calls are only ever added. -/
theorem step_calls (r : EpisodeRecorder ι Status) (l : RecorderUse ι Status) :
    r.calls <+: (r.step l).calls := by
  cases l with
  | activate a p => exact List.prefix_append _ _
  | waitReady a p timeoutS answer =>
    exact whenActive_calls r a p fun _ => List.prefix_append _ _
  | status a p answer => exact whenActive_calls r a p fun _ => List.prefix_append _ _
  | discard a p answer => exact whenActive_calls r a p fun _ => List.prefix_append _ _
  | close answer =>
    change r.calls <+: (r.close answer).1.calls
    unfold close
    by_cases ha : r.active = true
    · rw [if_pos ha]
      cases answer <;> exact List.prefix_append _ _
    · simp [ha]
  | enterScope i a p start =>
    change r.calls <+: (r.enterScope i a p start).1.calls
    unfold enterScope
    by_cases he : (r.scopes i).entered = true
    · simp [he]
    · rw [if_neg he]
      exact whenActive_calls r a p fun _ => List.prefix_append _ _
  | discardScope i answer => exact List.prefix_append _ _
  | exitScope i body answer => exact List.prefix_append _ _

theorem run_calls (r : EpisodeRecorder ι Status) (ls : List (RecorderUse ι Status)) :
    r.calls <+: (Trace.run step r ls).calls := by
  induction ls generalizing r with
  | nil => exact List.prefix_refl _
  | cons l ls ih => exact (step_calls r l).trans (ih (r.step l))

theorem agrees_run (h : r.Agrees strict) {ls : List (RecorderUse ι Status)}
    (hls : Trace.Follows step (fun r l => strict = true → Served r l) r ls) :
    (Trace.run step r ls).Agrees strict :=
  Trace.run_invariant (Agrees strict) (fun _ l h hl => agrees_step h l hl) h hls

theorem Accepted.of_prefix {r' : EpisodeRecorder ι Status} (h : r'.Accepted)
    (hp : r.calls <+: r'.calls) : r.Accepted := by
  obtain ⟨more, hmore⟩ := hp
  obtain ⟨phase, hphase⟩ := h
  rw [← hmore] at hphase
  exact Monitor.after_prefix hphase

theorem accepted_run_iff (h : r.Agrees true) (ls : List (RecorderUse ι Status)) :
    (Trace.run step r ls).Accepted ↔ Trace.Follows step Served r ls := by
  induction ls generalizing r with
  | nil =>
    obtain ⟨phase, hphase, -⟩ := h
    exact ⟨fun _ => trivial, fun _ => ⟨phase, hphase⟩⟩
  | cons l ls ih =>
    rw [Trace.run_cons, Trace.follows_cons]
    constructor
    · intro ha
      have hl := served_of_accepted h (ha.of_prefix (run_calls (r.step l) ls))
      exact ⟨hl, (ih (agrees_step h l fun _ => hl)).mp ha⟩
    · intro hs
      exact (ih (agrees_step h l fun _ => hs.1)).mpr hs.2

/-! ## Scopes used by `with` statements -/

/-- An entered scope is on an active recorder. -/
def ScopesActive (r : EpisodeRecorder ι Status) : Prop :=
  ∀ i, (r.scopes i).entered = true → r.active = true

theorem activate_active (active : Bool) (a p : Except Raised Unit) :
    (active = true → (Recording.activate active a p).1 = true) ∧
      ((Recording.activate active a p).2 = .ok () → (Recording.activate active a p).1 = true) := by
  unfold Recording.activate
  cases active with
  | true => exact ⟨fun _ => rfl, fun _ => rfl⟩
  | false => cases a <;> cases p <;> simp

theorem ScopesActive.activate (h : r.ScopesActive) (a p : Except Raised Unit) :
    (r.activate a p).1.ScopesActive :=
  fun i hi => (activate_active r.active a p).1 (h i hi)

/-- A body that keeps the scopes of an active recorder active does so behind `activate` too. -/
theorem ScopesActive.whenActive {α : Type} (h : r.ScopesActive) (a p : Except Raised Unit)
    {body : EpisodeRecorder ι Status → EpisodeRecorder ι Status × Except Raised α}
    (hbody : ∀ r : EpisodeRecorder ι Status, r.active = true → (body r).1.active = true) :
    (r.whenActive a p body).1.ScopesActive := by
  have hkeeps := h.activate a p
  have hactive := (activate_active r.active a p).2
  unfold EpisodeRecorder.whenActive
  cases hr : r.activate a p with
  | mk r' result =>
    cases result with
    | error e =>
      rw [hr] at hkeeps
      exact hkeeps
    | ok _ =>
      have hnow : (r.activate a p).1.active = true := hactive (congrArg Prod.snd hr)
      rw [hr] at hnow
      exact fun _ _ => hbody r' hnow

theorem entered_discard (s : EpisodeScope Status) (answer : Except Raised Status) :
    (s.discard answer).1.entered = s.entered ∧
      (s.entered = false → (s.discard answer).2.1 = []) := by
  unfold EpisodeScope.discard
  cases he : s.entered with
  | false => exact ⟨by simp [he], fun _ => by simp⟩
  | true =>
    refine ⟨?_, fun h => by cases h⟩
    cases hd : s.discarded with
    | true => simp [he]
    | false => cases answer <;> simp [he]

theorem ScopesActive.issue (h : r.ScopesActive) (i : ι) {s : EpisodeScope Status}
    (hs : s.entered = true → (r.scopes i).entered = true) (requests : List Request) :
    (r.issue i s requests).ScopesActive := by
  intro j hj
  by_cases hji : j = i
  · subst hji
    have hentered : s.entered = true := by simpa [EpisodeRecorder.issue, setScope] using hj
    exact h j (hs hentered)
  · have hentered : (r.scopes j).entered = true := by
      simpa [EpisodeRecorder.issue, setScope, hji] using hj
    exact h j hentered

theorem scopesActive_step (h : r.ScopesActive) (l : RecorderUse ι Status) (hl : r.Nested l) :
    (r.step l).ScopesActive := by
  cases l with
  | activate a p => exact h.activate a p
  | waitReady a p timeoutS answer => exact h.whenActive a p fun r ha => ha
  | status a p answer => exact h.whenActive a p fun r ha => ha
  | discard a p answer => exact h.whenActive a p fun r ha => ha
  | close answer =>
    intro i hi
    have hscope : (r.step (.close answer)).scopes i = r.scopes i := by
      change (r.close answer).1.scopes i = r.scopes i
      unfold EpisodeRecorder.close
      cases r.active <;> cases answer <;> rfl
    rw [hscope, hl i] at hi
    cases hi
  | enterScope i a p start =>
    change (r.enterScope i a p start).1.ScopesActive
    unfold enterScope
    by_cases he : (r.scopes i).entered = true
    · rw [if_pos he]
      exact h
    · rw [if_neg he]
      exact h.whenActive a p fun r ha => ha
  | discardScope i answer =>
    have hentered := (entered_discard (r.scopes i) answer).1
    exact h.issue i (fun he => hentered.symm.trans he) _
  | exitScope i body answer => exact h.issue i (fun he => by cases he) _

theorem served_of_nested (h : r.ScopesActive) {l : RecorderUse ι Status} (hl : r.Nested l) :
    r.Served l := by
  cases l with
  | discardScope i answer =>
    intro hne
    apply h i
    by_contra he
    exact hne ((entered_discard (r.scopes i) answer).2 (Bool.eq_false_iff.mpr he))
  | exitScope i body answer => exact fun _ => h i hl
  | activate a p => trivial
  | waitReady a p timeoutS answer => trivial
  | status a p answer => trivial
  | discard a p answer => trivial
  | close answer => trivial
  | enterScope i a p start => trivial

theorem served_of_nested_run (h : r.ScopesActive) {ls : List (RecorderUse ι Status)}
    (hls : Trace.Follows step Nested r ls) : Trace.Follows step Served r ls :=
  Trace.follows_of_invariant ScopesActive (fun _ l h hl => scopesActive_step h l hl)
    (fun _ _ h hl => served_of_nested h hl) h hls

variable (scopes : ι → EpisodeScope Status)

theorem agrees_init (strict : Bool) : (init scopes).Agrees strict :=
  ⟨.inactive, rfl, by simp [init]⟩

theorem scopesActive_init : (init scopes).ScopesActive := fun i hi => by cases hi

/-- **The recorder as a client.** Over any run of uses of a recorder and its scopes, whatever the
service answers: the service is activated and prepared before it is used and closed when it is ready
only, where a stop or a discard may come at any time; it never gets a stop or a discard outside that
time exactly when each scope that issues one is on an active recorder; and it never does when the
recorder is closed outside its scopes only. -/
theorem recorder_calls (ls : List (RecorderUse ι Status)) :
    (Trace.run step (init scopes) ls).Agrees false ∧
    ((Trace.run step (init scopes) ls).Accepted ↔ Trace.Follows step Served (init scopes) ls) ∧
    (Trace.Follows step Nested (init scopes) ls → (Trace.run step (init scopes) ls).Accepted) := by
  have hiff := accepted_run_iff (agrees_init scopes true) ls
  refine ⟨agrees_run (agrees_init scopes false) ?_, hiff, fun hn => ?_⟩
  · refine Trace.follows_of_invariant (fun _ => True) (fun _ _ _ _ => trivial) ?_ trivial
      (Trace.follows_true _ ls)
    intro _ _ _ _ hfalse
    cases hfalse
  · exact hiff.mpr (served_of_nested_run (scopesActive_init scopes) hn)

end EpisodeRecorder
end PhysicalAiRuntime.Recording
