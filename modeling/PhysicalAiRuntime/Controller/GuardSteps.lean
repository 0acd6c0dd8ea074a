import PhysicalAiRuntime.Controller.TrajectoryGuard

/-! What one step of the client can do: the cases of a section, what they do to the flags, the
handles and the heartbeat topic, and from them the cases of a step. -/
namespace PhysicalAiRuntime.Controller
set_option autoImplicit false
set_option maxHeartbeats 250000

/-! ## Places of a coroutine -/

/-- The coroutine is a `send` between its first block and the end of its goal's acceptance. -/
def Coroutine.pending : Coroutine → Bool
  | .sendWaitingServer => true
  | .sendArming => true
  | .sendDispatching => true
  | .sendWaitingAccept _ => true
  | _ => false

/-- The coroutine is a `send` that has not armed yet. -/
def Coroutine.unarmed : Coroutine → Bool
  | .sendWaitingServer => true
  | .sendArming => true
  | _ => false

/-- The goal handle a `wait_for_result` or `cancel` holds. -/
def Coroutine.handle : Coroutine → Option ℕ
  | .waitingResult h => some h
  | .waitFinally h _ => some h
  | .cancelWaiting h => some h
  | _ => none

theorem Coroutine.pending_of_unarmed {co : Coroutine} (h : co.unarmed = true) :
    co.pending = true := by
  cases co <;> first | rfl | cases h

theorem accepts_eq_some {co : Coroutine} {r : Resumption} {g : ℕ} (h : accepts co r = some g) :
    co = .sendWaitingAccept g ∧ r = .accepted := by
  unfold accepts at h
  split at h
  · cases h
    exact ⟨rfl, rfl⟩
  · cases h

theorem dispatches_eq_true {co : Coroutine} {r : Resumption} (h : dispatches co r = true) :
    co = .sendDispatching := by
  cases co <;> first | rfl | cases h

theorem mem_publish {c : JointTrajectoryControllerClient} {data m : Bool}
    (h : m ∈ c.publish data) : m = data := by
  unfold JointTrajectoryControllerClient.publish at h
  split at h
  · exact List.mem_singleton.mp h
  · cases h

/-! ## Sections -/

/-- Where a coroutine that holds a handle goes on an answer. -/
def Answered (co co' : Coroutine) (h : ℕ) (r : Resumption) : Prop :=
  (∃ ending, co' = .finished ending) ∨ ∃ e, co' = .waitFinally h e ∧ learns co r = some h

/-- The answers on which a handle is marked terminal. -/
def Ends (co : Coroutine) (r : Resumption) (h : ℕ) : Prop :=
  learns co r = some h ∨ (∃ e, co = .waitFinally h e) ∨
    (co = .cancelWaiting h ∧ r = .cancelAnswer false)

inductive Section (c : JointTrajectoryControllerClient) (goal : ℕ) :
    Coroutine → Resumption → JointTrajectoryControllerClient × Coroutine × List Bool → Prop
  | idle (co co' : Coroutine) (r : Resumption)
      (hco : co' = co ∨ (∃ ending, co' = .finished ending) ∨
        (co = .sendWaitingServer ∧ co' = .sendArming))
      (hd : dispatches co r = false) (hl : learns co r = none) (ha : accepts co r = none) :
      Section c goal co r (c, co', [])
  | serverFailed (r : Resumption) :
      Section c goal .sendWaitingServer r (c.serverFailed, .finished (.propagates r), [])
  | arm : Section c goal .sendArming .proceed (c.arm, .sendDispatching, c.publish true)
  | dispatched : Section c goal .sendDispatching .proceed (c, .sendWaitingAccept goal, [])
  | dispatchKilled :
      Section c goal .sendDispatching .killed (c, .finished (.propagates .killed), [])
  | dispatchFailed (r : Resumption) (hd : dispatches .sendDispatching r = true) :
      Section c goal .sendDispatching r (c.dispatchUnknown, .finished (.propagates r), [])
  | acceptLost (g : ℕ) (r : Resumption) (hl : learns (.sendWaitingAccept g) r = none)
      (hr : r ≠ .accepted) :
      Section c goal (.sendWaitingAccept g) r (c.dispatchUnknown, .finished (.propagates r), [])
  | accepted (g : ℕ) :
      Section c goal (.sendWaitingAccept g) .accepted
        (c.acceptGoal g, .finished (.returns (some g)), [])
  | rejected (g : ℕ) :
      Section c goal (.sendWaitingAccept g) .rejected
        (c.dispatchUnknown, .finished (.raises rejectedError), c.publish false)
  | marked (co : Coroutine) (h : ℕ) (r : Resumption) (ending : Ending)
      (hh : co.handle = some h) (htracked : c.goalHandle = some h)
      (hl : Ends co r h) :
      Section c goal co r
        ({ c with goalHandle := none, guardActive := false }, .finished ending, c.publish false)
  | abandoned (co co' : Coroutine) (h : ℕ) (r : Resumption) (hh : co.handle = some h)
      (htracked : c.goalHandle = some h) (hco : Answered co co' h r) :
      Section c goal co r ({ c with guardActive := false }, co', [])
  /-- An answer for a goal that is not tracked. -/
  | late (co co' : Coroutine) (h : ℕ) (r : Resumption) (hh : co.handle = some h)
      (hlate : c.goalHandle ≠ some h) (hco : Answered co co' h r) : Section c goal co r (c, co', [])

variable {c : JointTrajectoryControllerClient} {goal : ℕ} {co : Coroutine} {r : Resumption}
  {out : JointTrajectoryControllerClient × Coroutine × List Bool}

theorem section_markTerminal {h : ℕ} (ending : Ending) (hh : co.handle = some h)
    (hl : Ends co r h) :
    Section c goal co r ((c.markTerminal h).1, .finished ending, (c.markTerminal h).2) := by
  unfold JointTrajectoryControllerClient.markTerminal
  by_cases htracked : c.goalHandle = some h
  · rw [if_pos htracked]
    exact Section.marked co h r ending hh htracked hl
  · rw [if_neg htracked]
    exact Section.late co _ h r hh htracked (Or.inl ⟨ending, rfl⟩)

theorem section_abandon {co' : Coroutine} {h : ℕ} (hh : co.handle = some h)
    (hco : Answered co co' h r) :
    Section c goal co r (c.abandon h, co', []) := by
  unfold JointTrajectoryControllerClient.abandon
  by_cases htracked : c.goalHandle = some h
  · rw [if_pos htracked]
    exact Section.abandoned co co' h r hh htracked hco
  · rw [if_neg htracked]
    exact Section.late co co' h r hh htracked hco

theorem resume_section (c : JointTrajectoryControllerClient) (goal : ℕ) (co : Coroutine)
    (r : Resumption) : Section c goal co r (resume c goal co r) := by
  cases co with
  | sendWaitingServer =>
    cases r <;> first
      | exact Section.serverFailed _
      | exact Section.idle _ _ _ (by simp) rfl rfl rfl
  | sendArming =>
    cases r <;> first
      | exact Section.arm
      | exact Section.idle _ _ _ (by simp) rfl rfl rfl
  | sendDispatching =>
    cases r <;> first
      | exact Section.dispatched
      | exact Section.dispatchKilled
      | exact Section.dispatchFailed _ rfl
      | exact Section.idle _ _ _ (by simp) rfl rfl rfl
  | sendWaitingAccept g =>
    cases r <;> first
      | exact Section.accepted g
      | exact Section.rejected g
      | exact Section.acceptLost g _ rfl (by simp)
      | exact Section.idle _ _ _ (by simp) rfl rfl rfl
  | waitingResult h =>
    cases r with
    | result status =>
      cases status with
      | succeeded => exact section_markTerminal _ rfl (Or.inl rfl)
      | _ => exact section_abandon rfl (Or.inr ⟨_, rfl, rfl⟩)
    | _ => first
      | exact section_abandon rfl (Or.inl ⟨_, rfl⟩)
      | exact Section.idle _ _ _ (by simp) rfl rfl rfl
  | waitFinally h e =>
    cases r <;> first
      | exact section_markTerminal _ rfl (Or.inr (Or.inl ⟨e, rfl⟩))
      | exact Section.idle _ _ _ (by simp) rfl rfl rfl
  | cancelWaiting h =>
    cases r with
    | cancelAnswer goalsCanceling =>
      cases goalsCanceling with
      | true => exact section_markTerminal _ rfl (Or.inl rfl)
      | false => exact section_markTerminal _ rfl (Or.inr (Or.inr ⟨rfl, rfl⟩))
    | _ => first
      | exact section_abandon rfl (Or.inl ⟨_, rfl⟩)
      | exact Section.idle _ _ _ (by simp) rfl rfl rfl
  | finished ending =>
    cases r <;> exact Section.idle _ _ _ (by simp) rfl rfl rfl

/-! ## What a section does -/

theorem section_guardPublisher (hs : Section c goal co r out) :
    out.1.guardPublisher = c.guardPublisher := by
  cases hs <;> rfl

/-- The tracked handle is kept, cleared by the coroutine that holds it, or accepted. -/
theorem section_goalHandle (hs : Section c goal co r out) :
    out.1.goalHandle = c.goalHandle ∨
    (∃ handle ending, c.goalHandle = some handle ∧ co.handle = some handle ∧ out =
      ({ c with goalHandle := none, guardActive := false }, .finished ending, c.publish false)) ∨
    (∃ g, co = .sendWaitingAccept g ∧ r = .accepted ∧
      out = (c.acceptGoal g, .finished (.returns (some g)), [])) := by
  cases hs with
  | accepted g => exact Or.inr (Or.inr ⟨g, rfl, rfl, rfl⟩)
  | marked _ handle _ ending hh htracked _ =>
    exact Or.inr (Or.inl ⟨handle, ending, htracked, hh, rfl⟩)
  | _ => exact Or.inl rfl

/-- How a coroutine comes to hold a handle, to wait for an acceptance or to dispatch. -/
structure Arrives (goal : ℕ) (co co' : Coroutine) (r : Resumption) : Prop where
  handle : ∀ handle, co'.handle = some handle → co.handle = some handle
  accepting : ∀ g, co' = .sendWaitingAccept g →
    (co = .sendWaitingAccept g ∧ accepts co r = none) ∨
    (g = goal ∧ co = .sendDispatching ∧ r = .proceed)
  dispatching : co' = .sendDispatching →
    (co = .sendDispatching ∧ dispatches co r = false) ∨ (co = .sendArming ∧ r = .proceed)
  final : ∀ handle e, co' = .waitFinally handle e →
    co = .waitFinally handle e ∨ learns co r = some handle

theorem arrives_finished (ending : Ending) : Arrives goal co (.finished ending) r :=
  ⟨fun _ h => (nomatch h), fun _ h => (nomatch h), fun h => (nomatch h), fun _ _ h => (nomatch h)⟩

theorem arrives_answered {co' : Coroutine} {h : ℕ} (hh : co.handle = some h)
    (hco : Answered co co' h r) : Arrives goal co co' r := by
  rcases hco with ⟨ending, rfl⟩ | ⟨e, rfl, hl⟩
  · exact arrives_finished ending
  · refine ⟨fun _ heq => hh.trans heq, fun _ heq => (nomatch heq), fun heq => (nomatch heq),
      fun _ _ heq => ?_⟩
    cases heq
    exact Or.inr hl

theorem section_arrives (hs : Section c goal co r out) : Arrives goal co out.2.1 r := by
  cases hs with
  | idle _ co' _ hco hd hl ha =>
    rcases hco with rfl | ⟨ending, rfl⟩ | ⟨rfl, rfl⟩
    · exact ⟨fun _ h => h, fun _ h => Or.inl ⟨h, ha⟩, fun h => Or.inl ⟨h, hd⟩,
        fun _ _ h => Or.inl h⟩
    · exact arrives_finished ending
    · exact ⟨fun _ h => (nomatch h), fun _ h => (nomatch h), fun h => (nomatch h),
        fun _ _ h => (nomatch h)⟩
  | arm =>
    exact ⟨fun _ h => (nomatch h), fun _ h => (nomatch h), fun _ => Or.inr ⟨rfl, rfl⟩,
      fun _ _ h => (nomatch h)⟩
  | dispatched =>
    refine ⟨fun _ h => (nomatch h), fun g h => ?_, fun h => (nomatch h), fun _ _ h => (nomatch h)⟩
    cases h
    exact Or.inr ⟨rfl, rfl, rfl⟩
  | abandoned _ _ handle _ hh _ hco => exact arrives_answered hh hco
  | late _ _ handle _ hh _ hco => exact arrives_answered hh hco
  | _ => exact arrives_finished _

/-- Only the arming section publishes true. -/
theorem section_true (hs : Section c goal co r out) (htrue : true ∈ out.2.2) :
    co = .sendArming ∧ r = .proceed := by
  cases hs with
  | arm => exact ⟨rfl, rfl⟩
  | rejected g => exact nomatch mem_publish htrue
  | marked _ _ _ _ _ _ _ => exact nomatch mem_publish htrue
  | _ => exact absurd htrue List.not_mem_nil

/-- False is published for a rejected goal, and for the tracked one once it is marked terminal. -/
theorem section_false (hs : Section c goal co r out) (hfalse : false ∈ out.2.2) :
    (∃ g, co = .sendWaitingAccept g ∧ learns co r = some g) ∨
    ∃ handle, c.goalHandle = some handle ∧ Ends co r handle := by
  cases hs with
  | arm => exact nomatch mem_publish hfalse
  | rejected g => exact Or.inl ⟨g, rfl, rfl⟩
  | marked _ handle _ _ _ htracked hl => exact Or.inr ⟨handle, htracked, hl⟩
  | _ => exact absurd hfalse List.not_mem_nil

theorem section_inactive (hs : Section c goal co r out)
    (harm : ¬ (co = .sendArming ∧ r = .proceed)) (hinactive : c.guardActive = false) :
    out.1.guardActive = false := by
  cases hs with
  | arm => exact absurd ⟨rfl, rfl⟩ harm
  | idle _ _ _ _ _ _ _ => exact hinactive
  | serverFailed _ => exact hinactive
  | dispatched => exact hinactive
  | dispatchKilled => exact hinactive
  | accepted _ => exact hinactive
  | late _ _ _ _ _ _ _ => exact hinactive
  | _ => rfl

/-- An answer for a goal that is not tracked changes no flag and publishes nothing. -/
theorem section_late (hs : Section c goal co r out) {handle : ℕ} (hh : co.handle = some handle)
    (hlate : c.goalHandle ≠ some handle) : out.1 = c ∧ out.2.2 = [] := by
  cases hs with
  | idle _ _ _ _ _ _ _ => exact ⟨rfl, rfl⟩
  | late _ _ _ _ _ _ _ => exact ⟨rfl, rfl⟩
  | marked _ _ _ _ hh' htracked _ => exact absurd (htracked.trans (hh'.symm.trans hh)) hlate
  | abandoned _ _ _ _ hh' htracked _ => exact absurd (htracked.trans (hh'.symm.trans hh)) hlate
  | _ => exact nomatch hh

namespace Guard

/-! ## Steps -/

/-- A step of coroutine `k`, with everything it changes. -/
structure Resumed (s s' : Guard) (k : ℕ) (r : Resumption) (co : Coroutine)
    (out : JointTrajectoryControllerClient × Coroutine × List Bool) : Prop where
  at_k : s.coroutines[k]? = some co
  section_ : Section s.client s.goals.length co r out
  client : s'.client = out.1
  coroutines : s'.coroutines = s.coroutines.set k out.2.1
  published : s'.published = s.published ++ out.2.2
  goals : s'.goals = learn s.goals (learns co r) ++
    if dispatches co r then [⟨s.now, false, false⟩] else []
  handles : s'.handles = s.handles ++ (accepts co r).toList

/-- The coroutines that start, and what their first block does to the flags. -/
inductive Starts (s : Guard) :
    GuardStep → Coroutine → JointTrajectoryControllerClient → Prop
  | send (isTrajectory : Bool) (hidle : s.client.busy = false) :
      Starts s (.send isTrajectory) .sendWaitingServer { s.client with goalPending := true }
  | waitForResult (handle : ℕ) (hreturned : handle ∈ s.handles) :
      Starts s (.waitForResult handle) (.waitingResult handle) s.client
  | cancel (handle : ℕ) (htracked : s.client.goalHandle = some handle) :
      Starts s .cancel (.cancelWaiting handle) s.client

inductive Stepped (guardTimeout : ℚ) (s : Guard) : GuardStep → Guard → List Bool → Prop
  | nothing (l : GuardStep) : Stepped guardTimeout s l s []
  | started (l : GuardStep) (co : Coroutine) (client : JointTrajectoryControllerClient)
      (hstart : Starts s l co client) :
      Stepped guardTimeout s l { s with client := client, coroutines := s.coroutines ++ [co] } []
  | resumed (k : ℕ) (r : Resumption) (co : Coroutine)
      (out : JointTrajectoryControllerClient × Coroutine × List Bool) (s' : Guard)
      (hr : Resumed s s' k r co out) : Stepped guardTimeout s (.resume k r) s' out.2.2
  | heartbeat : Stepped guardTimeout s .heartbeat s.heartbeat s.client.heartbeat
  | tick (elapsed : ℚ≥0) :
      Stepped guardTimeout s (.tick elapsed) (s.tick guardTimeout elapsed) []

theorem resumed_at {s : Guard} {k : ℕ} {co : Coroutine} (hk : s.coroutines[k]? = some co)
    (r : Resumption) :
    Resumed s (s.resumeAt k r) k r co (resume s.client s.goals.length co r) := by
  unfold resumeAt
  rw [hk]
  exact ⟨hk, resume_section s.client s.goals.length co r, rfl, rfl, rfl, rfl, rfl⟩

theorem send_cases (s : Guard) (isTrajectory : Bool) :
    (∃ e, s.send isTrajectory = (s, .error e)) ∨
    (s.client.busy = false ∧ s.send isTrajectory =
      ({ s with
        client := { s.client with goalPending := true }
        coroutines := s.coroutines ++ [.sendWaitingServer] }, .ok ())) := by
  unfold send
  cases hb : s.client.beginSend isTrajectory with
  | error e => exact Or.inl ⟨e, rfl⟩
  | ok client =>
    unfold JointTrajectoryControllerClient.beginSend at hb
    split at hb
    · cases hb
    split at hb
    · cases hb
    next hidle =>
      cases hb
      exact Or.inr ⟨Bool.eq_false_of_not_eq_true hidle, rfl⟩

theorem published_stepped {guardTimeout : ℚ} {s s' : Guard} {l : GuardStep} {new : List Bool}
    (hs : Stepped guardTimeout s l s' new) : s'.published = s.published ++ new := by
  cases hs with
  | resumed k r co out _ hr => exact hr.published
  | heartbeat => rfl
  | _ => exact (List.append_nil _).symm

def messages (guardTimeout : ℚ) (s : Guard) (l : GuardStep) : List Bool :=
  (step guardTimeout s l).published.drop s.published.length

theorem step_stepped (guardTimeout : ℚ) (s : Guard) (l : GuardStep) :
    ∃ new, Stepped guardTimeout s l (step guardTimeout s l) new := by
  cases l with
  | send isTrajectory =>
    obtain ⟨e, hs⟩ | ⟨hidle, hs⟩ := s.send_cases isTrajectory
    · rw [step, hs]
      exact ⟨[], .nothing _⟩
    · rw [step, hs]
      exact ⟨[], .started _ _ _ (.send isTrajectory hidle)⟩
  | waitForResult handle =>
    show ∃ new, Stepped guardTimeout s _ (s.waitForResult handle) new
    unfold waitForResult
    split
    next hreturned => exact ⟨[], .started _ _ _ (.waitForResult handle hreturned)⟩
    · exact ⟨[], .nothing _⟩
  | cancel =>
    show ∃ new, Stepped guardTimeout s _ s.cancel new
    unfold cancel
    split
    · exact ⟨[], .nothing _⟩
    next handle htracked => exact ⟨[], .started _ _ _ (.cancel handle htracked)⟩
  | resume k r =>
    show ∃ new, Stepped guardTimeout s _ (s.resumeAt k r) new
    cases hk : s.coroutines[k]? with
    | none =>
      unfold resumeAt
      rw [hk]
      exact ⟨[], .nothing _⟩
    | some co => exact ⟨_, .resumed k r co _ _ (resumed_at hk r)⟩
  | heartbeat => exact ⟨_, .heartbeat⟩
  | tick elapsed => exact ⟨_, .tick elapsed⟩

theorem stepped (guardTimeout : ℚ) (s : Guard) (l : GuardStep) :
    Stepped guardTimeout s l (step guardTimeout s l) (messages guardTimeout s l) := by
  obtain ⟨new, hs⟩ := step_stepped guardTimeout s l
  have hnew : messages guardTimeout s l = new := by
    rw [messages, published_stepped hs, List.drop_left]
  rw [hnew]
  exact hs

/-! ## Coroutines and goals after a step -/

variable {s s' : Guard} {k : ℕ} {r : Resumption} {co : Coroutine}
  {out : JointTrajectoryControllerClient × Coroutine × List Bool}

theorem Resumed.self (h : Resumed s s' k r co out) : s'.coroutines[k]? = some out.2.1 := by
  rw [h.coroutines, List.getElem?_set_self (List.getElem?_eq_some_iff.mp h.at_k).1]

/-- The other coroutines are where they were. -/
theorem Resumed.at_cases (h : Resumed s s' k r co out) {j : ℕ} {cj : Coroutine}
    (hj : s'.coroutines[j]? = some cj) :
    (j = k ∧ cj = out.2.1) ∨ (j ≠ k ∧ s.coroutines[j]? = some cj) := by
  by_cases hjk : j = k
  · rw [hjk, h.self] at hj
    exact Or.inl ⟨hjk, (Option.some.inj hj).symm⟩
  · rw [h.coroutines, List.getElem?_set_ne (Ne.symm hjk)] at hj
    exact Or.inr ⟨hjk, hj⟩

theorem Resumed.coroutine_cases (h : Resumed s s' k r co out) {cj : Coroutine}
    (hcj : cj ∈ s'.coroutines) : cj = out.2.1 ∨ ∃ j, j ≠ k ∧ s.coroutines[j]? = some cj := by
  obtain ⟨j, hj⟩ := List.getElem?_of_mem hcj
  exact (h.at_cases hj).imp (fun hself => hself.2) (fun hother => ⟨j, hother⟩)

theorem length_learn (goals : List GoalRecord) (known : Option ℕ) :
    (learn goals known).length = goals.length := by
  cases known <;> simp [learn]

end Guard
end PhysicalAiRuntime.Controller
