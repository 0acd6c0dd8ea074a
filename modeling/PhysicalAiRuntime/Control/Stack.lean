import PhysicalAiRuntime.Control.Binding

/-! The control stack of the robot. In whatever order sessions are entered and exited, the stack
holds exactly the entered sessions, each once. -/
namespace PhysicalAiRuntime.Control
open Authority Provider
set_option autoImplicit false
set_option maxHeartbeats 250000
set_option linter.unusedSectionVars false

variable {ι : Type} [DecidableEq ι]

namespace World

structure StackInv (w : World ι) : Prop where
  nodup : w.controlStack.Nodup
  entered : ∀ i, (w.session i).entered = true ↔ i ∈ w.controlStack

theorem StackInv.of_keeps {w w' : World ι} (h : w.StackInv) (hk : KeepsSessions w w') :
    w'.StackInv where
  nodup := by
    rw [hk.controlStack]
    exact h.nodup
  entered i := by
    rw [hk.controlStack, (hk.session i).entered]
    exact h.entered i

theorem stackInv_leave {w : World ι} (h : w.StackInv) (i : ι) : (w.leave i).1.StackInv := by
  by_cases hl : w.controlStack.getLast? = some i
  · obtain ⟨outer, ho⟩ := List.getLast?_eq_some_iff.mp hl
    have hn := h.nodup
    rw [ho, List.nodup_append] at hn
    rw [leave_last hl]
    have hd : w.controlStack.dropLast = outer := by simp [ho]
    refine ⟨?_, fun j => ?_⟩
    · change w.controlStack.dropLast.Nodup
      rw [hd]
      exact hn.1
    · change ((w.setSession i (w.session i).closed).session j).entered = true ↔
        j ∈ w.controlStack.dropLast
      rw [hd]
      by_cases hj : j = i
      · subst hj
        rw [setSession_self]
        have hni : j ∉ outer := fun hm => hn.2.2 j hm j (List.mem_singleton_self j) rfl
        simp [Session.closed, hni]
      · rw [setSession_ne w _ hj, h.entered j, ho]
        simp [hj]
  · rw [leave_refused hl]
    refine ⟨h.nodup, fun j => ?_⟩
    change ((w.setSession i (w.session i).unbindClient).session j).entered = true ↔
      j ∈ w.controlStack
    rw [← h.entered j]
    by_cases hj : j = i
    · subst hj
      rw [setSession_self]
      rfl
    · rw [setSession_ne w _ hj]

theorem stackInv_releaseClaim {w : World ι} (h : w.StackInv) (i : ι) (answer : ReleaseAnswer) :
    (w.releaseClaim i answer).1.StackInv := h.of_keeps (releaseClaim_keeps w i answer)

theorem recordGrant_entered (w : World ι) (i : ι) (g : LeaseGrant) (j : ι) :
    ((w.recordGrant i g).session j).entered = (w.session j).entered := by
  by_cases hj : j = i
  · subst hj
    simp [recordGrant]
  · exact congrArg Session.entered (setSession_ne w _ hj)

theorem stackInv_beginWait {w : World ι} (h : w.StackInv) {i : ι}
    (hi : (w.session i).entered = false) (client : ActionProviderClient) :
    (w.beginWait i client).StackInv := by
  have hni : i ∉ w.controlStack := by
    rw [← h.entered i, hi]
    exact Bool.false_ne_true
  refine ⟨?_, fun j => ?_⟩
  · change (w.controlStack ++ [i]).Nodup
    rw [List.nodup_append]
    refine ⟨h.nodup, List.nodup_singleton i, fun a ha b hb hab => ?_⟩
    rw [List.mem_singleton] at hb
    exact hni (hb ▸ hab ▸ ha)
  · change ((w.setSession i _).session j).entered = true ↔ j ∈ w.controlStack ++ [i]
    by_cases hj : j = i
    · subst hj
      rw [setSession_self]
      simp
    · rw [setSession_ne w _ hj, h.entered j]
      simp [hj]

theorem stackInv_enterClaim {w : World ι} (h : w.StackInv) (i : ι) (answer : ClaimAnswer) :
    (w.enterClaim i answer).1.StackInv := by
  have hrecord : ∀ g, (w.recordGrant i g).StackInv := fun g =>
    ⟨h.nodup, fun j => by rw [recordGrant_entered]; exact h.entered j⟩
  rcases enterClaim_cases w i answer with ⟨-, e, hc⟩ | ⟨g, -, hf, ⟨-, e, hc⟩ | ⟨-, hc⟩⟩
  · rw [hc]
    exact h
  · rw [hc]
    exact hrecord g
  · rw [hc]
    exact stackInv_beginWait (hrecord g) (by rw [recordGrant_entered]; exact hf) _

theorem stackInv_enterPoll {w : World ι} (h : w.StackInv) (i : ι) (deadline : ℚ)
    (answer : ReleaseAnswer) : (w.enterPoll i deadline answer).1.StackInv := by
  rcases enterPoll_cases w i deadline answer with ⟨-, hp⟩ | ⟨-, -, hp⟩ | ⟨-, -, e, hp⟩
  · rw [hp]
    exact ⟨h.nodup, h.entered⟩
  · rw [hp]
    exact h
  · have hl := stackInv_leave (stackInv_releaseClaim h i answer) i
    rw [hp]
    exact ⟨hl.nodup, hl.entered⟩

theorem stackInv_exit {w : World ι} (h : w.StackInv) (i : ι) (bodyRaised : Bool)
    (answer : ReleaseAnswer) : (w.exit i bodyRaised answer).1.StackInv := by
  rw [exit_fst]
  exact stackInv_leave (h.of_keeps (exitRelease_keeps w i answer)) i

theorem stackInv_step {w : World ι} (h : w.StackInv) (l : Label ι) : (w.step l).StackInv := by
  cases l with
  | callback c => exact h.of_keeps (callback_keeps w c)
  | enter i answer => exact stackInv_enterClaim h i answer
  | poll i answer =>
    change (w.poll i answer).StackInv
    unfold poll
    cases w.waiting i with
    | none => exact h
    | some deadline => exact stackInv_enterPoll h i deadline answer
  | exit i bodyRaised answer => exact stackInv_exit h i bodyRaised answer
  | act i action observation now => exact h.of_keeps (act_keeps w i action observation now)
  | execute i part plan observation now answer =>
    exact h.of_keeps (execute_keeps w i part plan observation now answer)
  | waitPlan i part answer => exact h.of_keeps (waitPlan_keeps w i part answer)
  | cancelPlan i part answer => exact h.of_keeps (cancelPlan_keeps w i part answer)

theorem stackInv_init (now : ℚ) (timeouts : Timeouts) (config : ι → SessionConfig)
    (sourceClient : ι → ActionProviderClient) :
    (init now timeouts config sourceClient).StackInv :=
  ⟨List.nodup_nil, fun _ => by simp [init, Session.new]⟩

theorem stackInv_run {w : World ι} (h : w.StackInv) (ls : List (Label ι)) :
    (Trace.run step w ls).StackInv :=
  Trace.run_invariant' StackInv (fun _ l hi => stackInv_step hi l) h ls

end World
end PhysicalAiRuntime.Control
