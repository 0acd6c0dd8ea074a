import PhysicalAiRuntime.Control.Entry

/-! Well-nested scopes on one robot. Sessions are entered and exited as `with` statements do, with
any failure on the way; between the operations the control stack is the list of the open scopes,
and each open scope has its client bound to its own grant. -/
namespace PhysicalAiRuntime.Control
open Authority Provider
set_option autoImplicit false
set_option maxHeartbeats 250000
set_option linter.unusedSectionVars false

variable {ι : Type} [DecidableEq ι]

/-- The operations a program makes on the robot and its sessions, each taken as a whole. -/
inductive Op (ι : Type) where
  | callback (c : World.Callback)
  | enter (i : ι) (claim : ClaimAnswer) (history : List (List World.Callback))
      (release : ReleaseAnswer)
  | exit (i : ι) (bodyRaised : Bool) (answer : ReleaseAnswer)
  | act (i : ι) (action : Action) (observation : Option Observation) (now : Stamp)
  | execute (i : ι) (part : String) (plan : ActionValue) (observation : Option Observation)
      (now : Stamp) (answer : ActionProviderClient.StartAnswer)
  | sendAction (action : Action) (observation : Option Observation) (now : Stamp)
  | robotExecute (part : String) (plan : ActionValue) (observation : Option Observation)
      (now : Stamp) (answer : ActionProviderClient.StartAnswer)
  | waitPlan (i : ι) (part : String) (answer : ActionProviderClient.ResultAnswer)
  | cancelPlan (i : ι) (part : String) (answer : ActionProviderClient.CancelAnswer)

/-- A process and the scopes the program is in, outermost first. -/
structure Scopes (ι : Type) where
  world : World ι
  opened : List ι

namespace Scopes

def step (s : Scopes ι) : Op ι → Scopes ι
  | .callback c => { s with world := s.world.callback c }
  | .enter i claim history release =>
    match s.world.enter i claim history release with
    | none => s
    | some (w, .ok ()) => ⟨w, s.opened ++ [i]⟩
    | some (w, .error _) => { s with world := w }
  | .exit i bodyRaised answer => ⟨(s.world.exit i bodyRaised answer).1, s.opened.dropLast⟩
  | .act i action observation now => { s with world := (s.world.act i action observation now).1 }
  | .execute i part plan observation now answer =>
    { s with world := (s.world.execute i part plan observation now answer).1 }
  | .sendAction action observation now =>
    { s with world := (s.world.sendAction action observation now).1 }
  | .robotExecute part plan observation now answer =>
    { s with world := (s.world.robotExecute part plan observation now answer).1 }
  | .waitPlan i part answer => { s with world := (s.world.waitPlan i part answer).1 }
  | .cancelPlan i part answer => { s with world := (s.world.cancelPlan i part answer).1 }

/-- `with` statements: only the innermost open scope is left. -/
def WellNested (s : Scopes ι) : Op ι → Prop
  | .exit i _ _ => s.opened.getLast? = some i
  | _ => True

instance (s : Scopes ι) (op : Op ι) : Decidable (s.WellNested op) := by
  cases op <;> unfold WellNested <;> infer_instance

def init (now : ℚ) (timeouts : Timeouts) (config : ι → SessionConfig)
    (sourceClient : ι → ActionProviderClient) : Scopes ι :=
  ⟨World.init now timeouts config sourceClient, []⟩

end Scopes

namespace World

/-! ## The invariant -/

structure Nested (w : World ι) (opened : List ι) : Prop where
  stack : w.controlStack = opened
  stackInv : w.StackInv
  inv : w.Inv
  bound : ∀ i ∈ opened, ∃ g, w.grant i = some g ∧ (w.session i).leaseId = some g.leaseId ∧
    (w.session i).client.BoundTo g
  popRefusals : w.popRefusals = 0

theorem Nested.of_keeps {w w' : World ι} {opened : List ι} (h : w.Nested opened)
    (hk : KeepsSessions w w') : w'.Nested opened where
  stack := hk.controlStack.trans h.stack
  stackInv := h.stackInv.of_keeps hk
  inv := h.inv.of_keeps hk
  bound i hi := by
    obtain ⟨g, hg, hl, hb⟩ := h.bound i hi
    refine ⟨g, ?_, ?_, (hk.session i).boundTo g hb⟩
    · rw [hk.grant]
      exact hg
    · rw [(hk.session i).leaseId]
      exact hl
  popRefusals := hk.popRefusals.trans h.popRefusals

theorem Nested.unbound {w : World ι} {opened : List ι} (h : w.Nested opened) {i : ι}
    (hi : i ∉ opened) : (w.session i).client.Unbound := by
  have hf : (w.session i).entered = false := by
    rw [← h.stack, ← h.stackInv.entered i] at hi
    exact Bool.eq_false_iff.mpr hi
  exact (h.inv i).unbound hf

theorem SameControl.keeps {w w' : World ι} (h : SameControl w w') : KeepsSessions w w' where
  controlStack := h.controlStack
  grant := h.grant
  entries := h.entries
  popRefusals := h.popRefusals
  session i := by
    rw [h.session]
    exact Session.Keeps.refl (w.session i)

/-! ## Opening and closing a scope -/

theorem nested_granted {w : World ι} {opened : List ι} (h : w.Nested opened) {i : ι}
    (hn : (w.session i).entered = false) (g : LeaseGrant) :
    (w.granted i g).Nested (opened ++ [i]) := by
  have hu := (h.inv i).unbound hn
  have hclient : ((w.granted i g).session i).client.BoundTo g := by
    simpa [granted, beginWait, pushControl] using ActionProviderClient.boundTo_bind hu g
  have hgrant : (w.granted i g).grant i = some g :=
    show Function.update w.grant i (some g) i = some g from Function.update_self ..
  have hlease : ((w.granted i g).session i).leaseId = some g.leaseId := by
    simp [granted, beginWait, pushControl, recordGrant]
  have hself : ((w.granted i g).session i).entered = true := by
    simp [granted, beginWait, pushControl]
  have hother : ∀ j, j ≠ i → (w.granted i g).session j = w.session j := by
    intro j hj
    exact (setSession_ne (w.recordGrant i g) _ hj).trans (setSession_ne w _ hj)
  have hgrants : ∀ j, j ≠ i → (w.granted i g).grant j = w.grant j := by
    intro j hj
    exact Function.update_of_ne hj _ _
  refine ⟨?_, ?_, ?_, ?_, h.popRefusals⟩
  · change w.controlStack ++ [i] = opened ++ [i]
    rw [h.stack]
  · have hrecord : (w.recordGrant i g).StackInv :=
      ⟨h.stackInv.nodup, fun j => by rw [recordGrant_entered]; exact h.stackInv.entered j⟩
    exact stackInv_beginWait hrecord (by rw [recordGrant_entered]; exact hn) _
  · intro j
    by_cases hj : j = i
    · rw [hj, hgrant]
      exact ⟨fun _ => ⟨g, rfl, hlease⟩, Or.inr ⟨hself, g, rfl, hclient⟩⟩
    · rw [hother j hj, hgrants j hj]
      exact h.inv j
  · intro j hj
    by_cases hji : j = i
    · rw [hji]
      exact ⟨g, hgrant, hlease, hclient⟩
    · rw [hother j hji, hgrants j hji]
      refine h.bound j ?_
      simpa [hji] using hj

theorem nested_leave {w : World ι} {outer : List ι} {i : ι} (h : w.Nested (outer ++ [i])) :
    (w.leave i).1.Nested outer := by
  have hlast : w.controlStack.getLast? = some i := by
    rw [h.stack]
    simp
  have hni : ∀ j ∈ outer, j ≠ i := by
    have hn := h.stackInv.nodup
    rw [h.stack, List.nodup_append] at hn
    intro j hj
    exact hn.2.2 j hj i (List.mem_singleton_self i)
  have hstack := stackInv_leave h.stackInv i
  have hinv := inv_leave h.inv i
  rw [leave_last hlast] at hstack hinv ⊢
  refine ⟨?_, hstack, hinv, fun j hj => ?_, h.popRefusals⟩
  · change w.controlStack.dropLast = outer
    rw [h.stack]
    simp
  · obtain ⟨g, hg, hl, hb⟩ := h.bound j (List.mem_append_left [i] hj)
    refine ⟨g, hg, ?_, ?_⟩
    · change ((w.setSession i (w.session i).closed).session j).leaseId = _
      rw [setSession_ne w _ (hni j hj)]
      exact hl
    · change ((w.setSession i (w.session i).closed).session j).client.BoundTo g
      rw [setSession_ne w _ (hni j hj)]
      exact hb

theorem nested_waiting {w : World ι} {opened : List ι} (h : w.Nested opened)
    (waiting : ι → Option ℚ) : { w with waiting := waiting }.Nested opened :=
  h.of_keeps ⟨rfl, rfl, rfl, rfl, fun i => Session.Keeps.refl (w.session i)⟩

/-- An entry that returns opens its scope; one that raises leaves the open scopes as they were. -/
theorem nested_enter {w w' : World ι} {opened : List ι} (h : w.Nested opened) {i : ι}
    {claim : ClaimAnswer} {history : List (List Callback)} {release : ReleaseAnswer}
    {result : Except PyError Unit} (he : w.enter i claim history release = some (w', result)) :
    (result = .ok () ∧ w'.Nested (opened ++ [i])) ∨ (∃ e, result = .error e ∧ w'.Nested opened) := by
  rcases enter_cases (fun hf => ((h.inv i).unbound hf).leaseId) he with
    ⟨rfl, -, e, hr⟩ | ⟨g, w1, hn, -, hs, ⟨hr, -, rfl⟩ | ⟨e, w2, hr, h2, rfl⟩⟩
  · exact Or.inr ⟨e, hr, h⟩
  · have h1 := (nested_granted h hn g).of_keeps hs.keeps
    exact Or.inl ⟨hr, nested_waiting h1 _⟩
  · have h1 := (nested_granted h hn g).of_keeps hs.keeps
    have h3 := nested_leave (h1.of_keeps (releaseClaim_keeps w1 i release))
    rw [← h2] at h3
    exact Or.inr ⟨e, hr, nested_waiting h3 _⟩

theorem nested_exit {w : World ι} {outer : List ι} {i : ι} (h : w.Nested (outer ++ [i]))
    (bodyRaised : Bool) (answer : ReleaseAnswer) :
    (w.exit i bodyRaised answer).1.Nested outer := by
  rw [exit_fst]
  exact nested_leave (h.of_keeps (exitRelease_keeps w i answer))

theorem sendAction_keeps (w : World ι) (action : Action) (observation : Option Observation)
    (now : Stamp) : KeepsSessions w (w.sendAction action observation now).1 := by
  unfold sendAction
  cases w.controlFor action.part with
  | error e => exact KeepsSessions.refl w
  | ok i => exact act_keeps w i action observation now

theorem robotExecute_keeps (w : World ι) (part : String) (plan : ActionValue)
    (observation : Option Observation) (now : Stamp)
    (answer : ActionProviderClient.StartAnswer) :
    KeepsSessions w (w.robotExecute part plan observation now answer).1 := by
  unfold robotExecute
  cases w.controlFor part with
  | error e => exact KeepsSessions.refl w
  | ok i => exact execute_keeps w i part plan observation now answer

end World

theorem Scopes.nested_step {s : Scopes ι} {op : Op ι} (h : s.world.Nested s.opened)
    (hop : s.WellNested op) : (s.step op).world.Nested (s.step op).opened := by
  cases op with
  | callback c => exact h.of_keeps (World.callback_keeps s.world c)
  | enter i claim history release =>
    cases he : s.world.enter i claim history release with
    | none => simpa [Scopes.step, he] using h
    | some r =>
      obtain ⟨w', result⟩ := r
      rcases World.nested_enter h he with ⟨rfl, hw⟩ | ⟨e, rfl, hw⟩
      · simpa [Scopes.step, he] using hw
      · simpa [Scopes.step, he] using hw
  | exit i bodyRaised answer =>
    obtain ⟨outer, ho⟩ := List.getLast?_eq_some_iff.mp hop
    change (s.world.exit i bodyRaised answer).1.Nested s.opened.dropLast
    rw [ho] at h ⊢
    rw [List.dropLast_concat]
    exact World.nested_exit h bodyRaised answer
  | act i action observation now => exact h.of_keeps (World.act_keeps s.world i action observation now)
  | execute i part plan observation now answer =>
    exact h.of_keeps (World.execute_keeps s.world i part plan observation now answer)
  | sendAction action observation now =>
    exact h.of_keeps (World.sendAction_keeps s.world action observation now)
  | robotExecute part plan observation now answer =>
    exact h.of_keeps (World.robotExecute_keeps s.world part plan observation now answer)
  | waitPlan i part answer => exact h.of_keeps (World.waitPlan_keeps s.world i part answer)
  | cancelPlan i part answer => exact h.of_keeps (World.cancelPlan_keeps s.world i part answer)

/-! ## Routing -/

namespace World

/-- Session `i` is the innermost of the open scopes whose parts contain `part`. -/
def InnermostFor (w : World ι) (opened : List ι) (part : String) (i : ι) : Prop :=
  ∃ outer inner, opened = outer ++ i :: inner ∧ part ∈ (w.session i).config.parts ∧
    ∀ j ∈ inner, part ∉ (w.session j).config.parts

theorem controlFor_cases (w : World ι) (part : String) :
    (∃ i, w.InnermostFor w.controlStack part i ∧ w.controlFor part = .ok i) ∨
    ((∀ i ∈ w.controlStack, part ∉ (w.session i).config.parts) ∧
      ∃ e, w.controlFor part = .error e) := by
  unfold controlFor
  cases hs : w.controlStack with
  | nil => exact Or.inr ⟨fun i hi => absurd hi List.not_mem_nil, _, rfl⟩
  | cons j rest =>
    cases hf : ((j :: rest).reverse.find? fun i => decide (part ∈ (w.session i).config.parts)) with
    | none =>
      have hnone := List.find?_eq_none.mp hf
      refine Or.inr ⟨fun i hi => ?_, _, rfl⟩
      simpa using hnone i (List.mem_reverse.mpr hi)
    | some k =>
      obtain ⟨hk, inner, outer, hsplit, hinner⟩ := List.find?_eq_some_iff_append.mp hf
      refine Or.inl ⟨k, ⟨outer.reverse, inner.reverse, ?_, by simpa using hk, fun i hi => ?_⟩, rfl⟩
      · have hr := congrArg List.reverse hsplit
        simpa using hr
      · simpa using hinner i (List.mem_reverse.mp hi)

/-- The state between two operations: the stack, the clients, and where a command for a part goes. -/
structure ControlStack (w : World ι) (opened : List ι) : Prop where
  stack : w.controlStack = opened
  nodup : opened.Nodup
  entered : ∀ i, (w.session i).entered = true ↔ i ∈ opened
  bound : ∀ i ∈ opened, ∃ g, w.grant i = some g ∧ (w.session i).leaseId = some g.leaseId ∧
    (w.session i).client.leaseId = g.leaseId ∧ (w.session i).client.bindings = g.endpoints
  unbound : ∀ i, i ∉ opened → (w.session i).client.Unbound
  popRefusals : w.popRefusals = 0
  sendAction : ∀ action observation now,
    (∃ i, w.InnermostFor opened action.part i ∧
      w.sendAction action observation now = w.act i action observation now) ∨
    ((∀ i ∈ opened, action.part ∉ (w.session i).config.parts) ∧
      ∃ e, w.sendAction action observation now = (w, .error e))
  execute : ∀ part plan observation now answer,
    (∃ i, w.InnermostFor opened part i ∧
      w.robotExecute part plan observation now answer = w.execute i part plan observation now answer) ∨
    ((∀ i ∈ opened, part ∉ (w.session i).config.parts) ∧
      ∃ e, w.robotExecute part plan observation now answer = (w, .error e))

theorem Nested.controlStack {w : World ι} {opened : List ι} (h : w.Nested opened) :
    w.ControlStack opened where
  stack := h.stack
  nodup := h.stack ▸ h.stackInv.nodup
  entered i := h.stack ▸ h.stackInv.entered i
  bound i hi := by
    obtain ⟨g, hg, hl, hb⟩ := h.bound i hi
    exact ⟨g, hg, hl, hb.leaseId, hb.bindings⟩
  unbound i hi := h.unbound hi
  popRefusals := h.popRefusals
  sendAction action observation now := by
    unfold World.sendAction
    rw [← h.stack]
    rcases controlFor_cases w action.part with ⟨i, hi, hc⟩ | ⟨hnone, e, hc⟩
    · exact Or.inl ⟨i, hi, by rw [hc]⟩
    · exact Or.inr ⟨hnone, e, by rw [hc]⟩
  execute part plan observation now answer := by
    unfold World.robotExecute
    rw [← h.stack]
    rcases controlFor_cases w part with ⟨i, hi, hc⟩ | ⟨hnone, e, hc⟩
    · exact Or.inl ⟨i, hi, by rw [hc]⟩
    · exact Or.inr ⟨hnone, e, by rw [hc]⟩

theorem nested_init (now : ℚ) (timeouts : Timeouts) (config : ι → SessionConfig)
    (sourceClient : ι → ActionProviderClient) :
    (init now timeouts config sourceClient).Nested [] :=
  ⟨rfl, stackInv_init now timeouts config sourceClient, inv_init now timeouts config sourceClient,
    fun _ hi => absurd hi List.not_mem_nil, rfl⟩

end World

namespace Scopes

/-- **Control stack.** After every well-nested run the stack of the robot is the list of the open
scopes; exactly these are bound, each to its own grant, and commands go to the innermost. -/
theorem controlStack_opened (now : ℚ) (timeouts : Timeouts) (config : ι → SessionConfig)
    (sourceClient : ι → ActionProviderClient) (ops : List (Op ι)) (s : Scopes ι)
    (hs : s = Trace.run step (init now timeouts config sourceClient) ops)
    (hops : Trace.Follows step WellNested (init now timeouts config sourceClient) ops) :
    s.world.ControlStack s.opened := by
  have hnested : s.world.Nested s.opened := by
    rw [hs]
    exact Trace.run_invariant (fun s : Scopes ι => s.world.Nested s.opened)
      (fun _ _ h hop => nested_step h hop)
      (World.nested_init now timeouts config sourceClient) hops
  exact hnested.controlStack

/-- A scope of the arm, and one of the arm and its gripper that preempts it. -/
def armConfigs (inner : Bool) : SessionConfig :=
  if inner then
    { World.armConfig with
      source := { World.armSource with
        resources := Dict.ofPairs [("arm", "joint_reference"), ("gripper", "joint_reference")] }
      parts := ["arm", "gripper"]
      preempt := true
      parts_ne := List.cons_ne_nil _ _
      parts_subset := by decide }
  else World.armConfig

def gripperEndpoint : EndpointBinding :=
  ⟨"gripper", "joint_reference", "/gripper/joint_reference", false⟩

/-- The preempting scope inside the other one, and an entry of the outer session that is refused. -/
def armOps : List (Op Bool) :=
  [.enter false (.response ⟨true, "", "lease-1", [World.armEndpoint]⟩)
      [[.status ⟨[⟨"arm", .owned, "lease-1", 1, "teleop", "joint_reference", "", []⟩]⟩]]
      (.response true ""),
    .enter true (.response ⟨true, "", "lease-2", [World.armEndpoint, gripperEndpoint]⟩)
      [[.status ⟨[⟨"arm", .owned, "lease-2", 1, "teleop", "joint_reference", "", []⟩,
        ⟨"gripper", .owned, "lease-2", 1, "teleop", "joint_reference", "", []⟩]⟩]]
      (.response true ""),
    .enter false (.response ⟨true, "", "lease-3", [World.armEndpoint]⟩) [] (.response true ""),
    .exit true false (.response true ""), .exit false false (.response true "")]

/-- The scopes after the first `n` operations. -/
def armScopes (n : ℕ) : Scopes Bool :=
  Trace.run step (init 0 Timeouts.default armConfigs fun _ => ActionProviderClient.new none)
    (armOps.take n)

theorem controlStack_opened_arm : (armScopes 3).world.ControlStack [false, true] ∧
    (armScopes 4).world.ControlStack [false] ∧ (armScopes 5).world.ControlStack [] := by
  have hboth : (armScopes 3).opened = [false, true] := by decide +kernel
  have houter : (armScopes 4).opened = [false] := by decide +kernel
  have hnone : (armScopes 5).opened = [] := by decide +kernel
  refine ⟨?_, ?_, ?_⟩
  · rw [← hboth]
    exact controlStack_opened 0 Timeouts.default armConfigs (fun _ => ActionProviderClient.new none)
      (armOps.take 3) _ rfl (by decide +kernel)
  · rw [← houter]
    exact controlStack_opened 0 Timeouts.default armConfigs (fun _ => ActionProviderClient.new none)
      (armOps.take 4) _ rfl (by decide +kernel)
  · rw [← hnone]
    exact controlStack_opened 0 Timeouts.default armConfigs (fun _ => ActionProviderClient.new none)
      (armOps.take 5) _ rfl (by decide +kernel)

end Scopes
end PhysicalAiRuntime.Control
