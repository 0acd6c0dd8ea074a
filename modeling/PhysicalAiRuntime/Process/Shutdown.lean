import Mathlib.Data.List.Perm.Basic
import PhysicalAiRuntime.Process.Context

/-! `Context.close`: what a process gives back when it ends, however the calls of `close` end. -/
namespace PhysicalAiRuntime.Process
open Config Recording
set_option autoImplicit false
set_option maxHeartbeats 250000
set_option linter.unusedSectionVars false

variable {Obj : Type} [DecidableEq Obj]

/-- The subscription that a call destroys. -/
def ContextCall.destroyed : ContextCall → Option ℕ
  | .destroySubscription n => some n
  | _ => none

def ContextUse.isClose : ContextUse Obj → Bool
  | .close _ _ => true
  | _ => false

/-- The subscriptions of the selector that `close` of the context destroys through it. -/
def Selector.held : Selector → List ℕ
  | .executionManagerClient status events => [status, events]
  | .other => []

/-- `ExecutionManagerClient.close` does not guard its calls: the subscription that it does not get
to where it fails to destroy the first one. -/
def Selector.missed (answer : ContextCall → Except Raised Unit) : Selector → List ℕ
  | .executionManagerClient status events =>
    match answer (.destroySubscription status) with
    | .ok () => []
    | .error _ => [events]
  | .other => []

namespace Context
variable (lower : String → String) {s : Context Obj}

/-- The subscriptions that the context would destroy, in the order of `close`. -/
def held (s : Context Obj) : List ℕ :=
  s.cameras.entries.map (fun e => e.2.subscription) ++
  s.sensors.entries.map (fun e => e.2.subscription) ++ s.selector.held ++ [s.stateSubscription]

theorem block_singleton (answer : ContextCall → Except Raised Unit) (c : ContextCall) :
    (block answer [c]).1 = [c] := by
  unfold block
  cases answer c with
  | ok u => rfl
  | error e => rfl

/-- What a close that is not interrupted calls. -/
def called (s : Context Obj) (answer : ContextCall → Except Raised Unit) (rclpyOk : Bool) :
    List ContextCall :=
  (s.closing rclpyOk).flatMap fun group => (block answer group).1

theorem selector_destroyed (answer : ContextCall → Except Raised Unit) (selector : Selector) :
    (block answer selector.closing).1.filterMap ContextCall.destroyed ++ selector.missed answer =
      selector.held := by
  cases selector with
  | other => rw [Selector.closing, block_singleton]; rfl
  | executionManagerClient status events =>
    simp only [Selector.closing, Selector.missed, Selector.held, block]
    cases answer (.destroySubscription status) with
    | error e => rfl
    | ok u =>
      cases answer (.destroySubscription events) with
      | error e => rfl
      | ok u =>
        cases answer .destroyClaimClient with
        | error e => rfl
        | ok u => cases answer .destroyReleaseClient <;> rfl

/-- What is destroyed and what is missed is what is held. -/
theorem called_destroyed (s : Context Obj) (answer : ContextCall → Except Raised Unit)
    (rclpyOk : Bool) :
    ((s.called answer rclpyOk).filterMap ContextCall.destroyed ++
      s.selector.missed answer).Perm s.held := by
  have hstreams : ∀ es : List (String × Stream Obj), ((es.map fun e =>
      [ContextCall.destroySubscription e.2.subscription]).flatMap fun group =>
        (block answer group).1).filterMap ContextCall.destroyed =
      es.map fun e => e.2.subscription := by
    intro es
    simp only [List.flatMap_map, block_singleton]
    induction es with
    | nil => rfl
    | cons e es ih =>
      rw [List.flatMap_cons, List.filterMap_append, ih]
      rfl
  have hrecorder : ((s.recorder.toList.map fun n => [ContextCall.closeRecorder n]).flatMap
      fun group => (block answer group).1).filterMap ContextCall.destroyed = [] := by
    cases s.recorder with
    | none => rfl
    | some n =>
      simp only [Option.toList_some, List.map_cons, List.map_nil, List.flatMap_cons,
        List.flatMap_nil, block_singleton, List.append_nil]
      rfl
  have hfirst : ∀ (b : Bool) (c : ContextCall), c.destroyed = none →
      ((if b then [[c]] else []).flatMap fun group => (block answer group).1).filterMap
        ContextCall.destroyed = [] := by
    intro b c hc
    cases b with
    | false => rfl
    | true => simp [block_singleton, hc]
  have hnode : ((if s.ownsNode then [.destroyNode] :: if rclpyOk then [[.rclpyShutdown]] else []
      else []).flatMap fun group => (block answer group).1).filterMap ContextCall.destroyed =
      [] := by
    cases s.ownsNode with
    | false => rfl
    | true =>
      simp only [if_true, List.flatMap_cons, block_singleton, List.filterMap_append]
      exact hfirst rclpyOk .rclpyShutdown rfl
  unfold called closing held
  simp only [List.flatMap_append, List.filterMap_append, hstreams, hrecorder, hnode,
    hfirst s.executor .shutdownExecutor rfl, hfirst s.spinThread .joinSpinThread rfl,
    List.flatMap_cons, List.flatMap_nil, block_singleton, List.nil_append, List.append_nil,
    ← selector_destroyed answer s.selector, List.append_assoc]
  refine List.Perm.append_left _ (List.Perm.append_left _ (List.Perm.append_left _ ?_))
  exact List.perm_append_comm

/-- What is held is what was made. -/
def Accounted (s : Context Obj) : Prop := s.held.Perm (List.range s.subscriptions)

theorem accounted_init (profile : EmbodimentConfig) (robot : Obj) (options : ContextOptions) :
    (init profile robot options).Accounted := by
  unfold Accounted held init
  cases options.defaultSelector with
  | false => simp [Dict.empty, Selector.held]
  | true => simp [Dict.empty, Selector.held, List.range_succ]

theorem entries_set_of_none {α : Type} {d : Dict String α} {name : String}
    (hnone : d.get? name = none) (v : α) : (d.set name v).entries = d.entries ++ [(name, v)] := by
  refine Dict.entries_set ?_ v
  rw [← Dict.get?_isSome_iff, hnone]
  exact Bool.false_ne_true

theorem accounted_step (h : s.Accounted) (l : ContextUse Obj) : (s.step lower l).Accounted := by
  have hchanges := step_changes lower s l
  generalize s.step lower l = t at hchanges ⊢
  unfold Accounted held at h ⊢
  cases hchanges with
  | nothing _ _ _ hselector hstate hsubscriptions _ hcameras _ hsensors _ =>
    rw [hselector, hstate, hsubscriptions, hcameras, hsensors]
    exact h
  | agent name config a _ _ _ _ _ => exact h
  | camera name config x _ hnone hx _ _ _ =>
    rw [entries_set_of_none hnone, List.map_append, List.range_succ]
    refine List.Perm.trans ?_ (h.append_right [s.subscriptions])
    simp only [List.map_cons, List.map_nil, hx, List.append_assoc]
    refine List.Perm.append_left _ ?_
    have hlast := (List.perm_append_singleton s.subscriptions
      (s.sensors.entries.map (fun e => e.2.subscription) ++ s.selector.held ++
        [s.stateSubscription])).symm
    simpa only [List.append_assoc, List.cons_append, List.nil_append] using hlast
  | sensor name x hnone hx _ =>
    rw [entries_set_of_none hnone, List.map_append, List.range_succ]
    refine List.Perm.trans ?_ (h.append_right [s.subscriptions])
    simp only [List.map_cons, List.map_nil, hx, List.append_assoc]
    refine List.Perm.append_left _ (List.Perm.append_left _ ?_)
    have hlast := (List.perm_append_singleton s.subscriptions
      (s.selector.held ++ [s.stateSubscription])).symm
    simpa only [List.append_assoc, List.cons_append, List.nil_append] using hlast

/-- Until `close` is called, the context is open and has called nothing. -/
theorem open_step (h : s.closed = false ∧ s.calls = []) {l : ContextUse Obj}
    (hl : l.isClose = false) :
    (s.step lower l).closed = false ∧ (s.step lower l).calls = [] := by
  cases l with
  | close answer rclpyOk => cases hl
  | makeAgent name request =>
    change (s.makeAgent name request).1.closed = _ ∧ (s.makeAgent name request).1.calls = _
    obtain ⟨he, -⟩ | ⟨config, -, -, he⟩ := makeAgent_cases s name request
    · rw [he]
      exact h
    · rw [he]
      exact h
  | makeCamera name converter historySize subscribe =>
    change (s.makeCamera lower name converter historySize subscribe).1.closed = _ ∧
      (s.makeCamera lower name converter historySize subscribe).1.calls = _
    obtain ⟨he, -⟩ | ⟨config, -, -, he⟩ :=
      makeCamera_cases lower s name converter historySize subscribe
    · rw [he]
      exact h
    · rw [he]
      exact h
  | makeSensor name topic messageType converter historySize subscribe =>
    change (s.makeSensor name topic messageType converter historySize subscribe).1.closed = _ ∧
      (s.makeSensor name topic messageType converter historySize subscribe).1.calls = _
    obtain ⟨he, -⟩ | ⟨-, he⟩ :=
      makeSensor_cases s name topic messageType converter historySize subscribe
    · rw [he]
      exact h
    · rw [he]
      exact h
  | makeRecorder config client =>
    simp only [step, makeRecorder]
    split
    · split <;> exact h
    · split <;> exact h

/-- A closed context calls nothing more. -/
theorem closed_step (h : s.closed = true) (l : ContextUse Obj) :
    (s.step lower l).closed = true ∧ (s.step lower l).calls = s.calls := by
  cases l with
  | makeAgent name request =>
    change (s.makeAgent name request).1.closed = _ ∧ (s.makeAgent name request).1.calls = _
    obtain ⟨he, -⟩ | ⟨config, -, -, he⟩ := makeAgent_cases s name request
    · rw [he]
      exact ⟨h, rfl⟩
    · rw [he]
      exact ⟨h, rfl⟩
  | makeCamera name converter historySize subscribe =>
    change (s.makeCamera lower name converter historySize subscribe).1.closed = _ ∧
      (s.makeCamera lower name converter historySize subscribe).1.calls = _
    obtain ⟨he, -⟩ | ⟨config, -, -, he⟩ :=
      makeCamera_cases lower s name converter historySize subscribe
    · rw [he]
      exact ⟨h, rfl⟩
    · rw [he]
      exact ⟨h, rfl⟩
  | makeSensor name topic messageType converter historySize subscribe =>
    change (s.makeSensor name topic messageType converter historySize subscribe).1.closed = _ ∧
      (s.makeSensor name topic messageType converter historySize subscribe).1.calls = _
    obtain ⟨he, -⟩ | ⟨-, he⟩ :=
      makeSensor_cases s name topic messageType converter historySize subscribe
    · rw [he]
      exact ⟨h, rfl⟩
    · rw [he]
      exact ⟨h, rfl⟩
  | makeRecorder config client =>
    simp only [step, makeRecorder]
    split
    · split <;> exact ⟨h, rfl⟩
    · split <;> exact ⟨h, rfl⟩
  | close answer rclpyOk =>
    simp only [step, close, h, if_true]
    exact ⟨trivial, trivial⟩

theorem closed_run (h : s.closed = true) (ls : List (ContextUse Obj)) :
    (Trace.run (step lower) s ls).calls = s.calls := by
  induction ls generalizing s with
  | nil => rfl
  | cons l ls ih =>
    obtain ⟨hclosed, hcalls⟩ := closed_step lower h l
    rw [Trace.run_cons, ih hclosed, hcalls]

/-- What a block raises, one of its calls has raised. -/
theorem block_raised {answer : ContextCall → Except Raised Unit} {group : List ContextCall}
    {e : Raised} (h : (block answer group).2 = .error e) : ∃ c, answer c = .error e := by
  induction group with
  | nil => cases h
  | cons c rest ih =>
    unfold block at h
    cases hc : answer c with
    | error e' =>
      rw [hc] at h
      exact ⟨c, hc.trans h⟩
    | ok u =>
      rw [hc] at h
      exact ih h

theorem untilInterrupt_spec (answer : ContextCall → Except Raised Unit)
    (groups : List (List ContextCall)) :
    (untilInterrupt answer groups).1 <+: groups.flatMap (fun group => (block answer group).1) ∧
      ((∀ c, answer c ≠ .error .interrupt) → (untilInterrupt answer groups).1 =
        groups.flatMap fun group => (block answer group).1) := by
  induction groups with
  | nil => exact ⟨List.prefix_refl _, fun _ => rfl⟩
  | cons group rest ih =>
    unfold untilInterrupt
    rw [List.flatMap_cons]
    cases hblock : block answer group with
    | mk calls result =>
      have hgo : calls ++ (untilInterrupt answer rest).1 <+:
          calls ++ rest.flatMap (fun group => (block answer group).1) :=
        (List.prefix_append_right_inj calls).mpr ih.1
      cases result with
      | ok u => exact ⟨hgo, fun h => congrArg (calls ++ ·) (ih.2 h)⟩
      | error e =>
        cases e with
        | exception e => exact ⟨hgo, fun h => congrArg (calls ++ ·) (ih.2 h)⟩
        | interrupt =>
          refine ⟨List.prefix_append _ _, fun h => ?_⟩
          obtain ⟨c, hc⟩ := block_raised (congrArg Prod.snd hblock)
          exact absurd hc (h c)

variable {lower}

end Context

/-- A context with the default selector and one sensor is closed, and makes another one. -/
def closedLate : Context ℕ :=
  Trace.run (Context.step id) (Context.init emptyProfile 0 ⟨true, true, false⟩)
    ([wristSensor none] ++ .close (fun _ => .ok ()) true ::
      [.makeSensor "base" "/base" (.other "Wrench") none 8 (.ok ())])

end PhysicalAiRuntime.Process
