import Mathlib.Data.List.Basic

/-! Monitors. A party that serves calls is described by the state it keeps and by the calls that
this state forbids; a trace of calls is accepted when none of them was forbidden. -/
namespace PhysicalAiRuntime.Monitor
set_option autoImplicit false
set_option maxHeartbeats 250000

variable {κ γ : Type} {step : κ → γ → Option κ}

/-- The state after the calls, if all of them were allowed. -/
def after (step : κ → γ → Option κ) (k : κ) (calls : List γ) : Option κ := calls.foldlM step k

@[simp] theorem after_nil (k : κ) : after step k [] = some k := rfl

theorem after_append (k : κ) (calls more : List γ) :
    after step k (calls ++ more) = (after step k calls).bind fun k' => after step k' more := by
  unfold after
  exact List.foldlM_append

/-- A call after an accepted trace is judged in the state the trace leads to. -/
theorem after_call {k k' : κ} {calls : List γ} (h : after step k calls = some k') (call : γ) :
    after step k (calls ++ [call]) = step k' call := by
  rw [after_append, h, Option.bind_some]
  simp [after]

theorem after_trans {k k' k'' : κ} {calls more : List γ} (h : after step k calls = some k')
    (h' : after step k' more = some k'') : after step k (calls ++ more) = some k'' := by
  rw [after_append, h, Option.bind_some, h']

/-- What was accepted in full was accepted up to every point. -/
theorem after_prefix {k k'' : κ} {calls more : List γ}
    (h : after step k (calls ++ more) = some k'') : ∃ k', after step k calls = some k' := by
  rw [after_append, Option.bind_eq_some_iff] at h
  obtain ⟨k', h, -⟩ := h
  exact ⟨k', h⟩

end PhysicalAiRuntime.Monitor
