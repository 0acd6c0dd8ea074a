import Mathlib.Algebra.Order.BigOperators.Group.List
import PhysicalAiRuntime.Control.Ledger
import PhysicalAiRuntime.Recording.EpisodeScope
import PhysicalAiRuntime.Apps.McapTimeline

/-! The second phase of `main` of the replay application: the loop that sends the timeline of a
recording through a session. The session's world is also the monotonic clock. -/
namespace PhysicalAiRuntime.Apps
open Authority Provider Control Config
set_option autoImplicit false
set_option maxHeartbeats 250000
set_option linter.unusedSectionVars false

/-- What the process receives in a `time.sleep`, which lasts at least as long as it is asked to. -/
structure Sleep where
  callbacks : ℚ → List World.Callback
  full : ∀ d, d ≤ ((callbacks d).map World.Callback.elapsed).sum

/-- One round of the loop: what the process receives before it looks at the clock, in its sleep
and before each command. `none` stands for an interrupt of the operator. -/
structure ReplayRound where
  head : List World.Callback
  asleep : Option Sleep
  before : Key → Option (List World.Callback)
  stamp : Key → Stamp

structure ReplaySchedule where
  claim : ClaimAnswer
  waiting : List (List World.Callback)
  timeoutRelease : ReleaseAnswer
  round : ℕ → ReplayRound
  closing : List World.Callback
  release : ReleaseAnswer

/-- A command of the timeline. -/
structure Planned where
  relTime : ℚ
  part : Key
  positions : List ℚ

def planned (f : Frame ℚ) : List Planned := f.parts.entries.map fun e => ⟨f.relTime, e.1, e.2⟩

def plan (timeline : List (Frame ℚ)) : List Planned := timeline.flatMap planned

/-- A call of `session.act` that returned: when, whether the lease was confirmed, and what it
published. -/
structure Handled where
  planned : Planned
  time : ℚ
  active : Bool
  published : List Publication

/-- `reached` holds the clock at the head of each round with the argument of its `time.sleep`, if
it sleeps. -/
structure ReplaySession (ι : Type) where
  world : World ι
  startTime : ℚ
  reached : List (ℚ × Option ℚ)
  handled : List Handled

namespace ReplaySession
variable {ι : Type} [DecidableEq ι]

def begin (w : World ι) : ReplaySession ι := ⟨w, w.now, [], []⟩

def receive (s : ReplaySession ι) (callbacks : List World.Callback) : ReplaySession ι :=
  { s with world := callbacks.foldl World.callback s.world }

def reach (s : ReplaySession ι) (sleep : Option ℚ) : ReplaySession ι :=
  { s with reached := s.reached ++ [(s.world.now, sleep)] }

def handle (s : ReplaySession ι) (w : World ι) (p : Planned) (active : Bool) : ReplaySession ι :=
  { s with
    world := w
    handled := s.handled ++
      [⟨p, s.world.now, active, w.published.drop s.world.published.length⟩] }

/-- A part whose name is not a string, which no session has. -/
def notOwned (w : World ι) (i : ι) (part : Key) : PyError :=
  ⟨.valueError, "control source " ++ pyRepr (w.session i).config.source.name ++
    " does not own requested resource " ++ part.repr ++ " in this scope"⟩

def act (i : ι) (r : ReplayRound) (s : ReplaySession ι) (p : Planned) :
    ReplaySession ι × Except Recording.Raised Unit :=
  match r.before p.part with
  | none => (s, .error .interrupt)
  | some callbacks =>
    let s := s.receive callbacks
    match p.part with
    | .str part =>
      match s.world.act i ⟨part, "joint_reference", .positions p.positions⟩ none
          (r.stamp p.part) with
      | (w, .error e) => ({ s with world := w }, .error (.exception e))
      | (w, .ok ()) => (s.handle w p (s.world.activeFor i part), .ok ())
    | _ => (s, .error (.exception (notOwned s.world i p.part)))

/-- The loop over the parts of a frame. -/
def acts (i : ι) (r : ReplayRound) :
    ReplaySession ι → List Planned → ReplaySession ι × Except Recording.Raised Unit
  | s, [] => (s, .ok ())
  | s, p :: ps =>
    match act i r s p with
    | (s', .error e) => (s', .error e)
    | (s', .ok ()) => acts i r s' ps

def frame (i : ι) (r : ReplayRound) (s : ReplaySession ι) (f : Frame ℚ) :
    ReplaySession ι × Except Recording.Raised Unit :=
  let delay := s.startTime + f.relTime - s.world.now
  if 0 < delay then
    match r.asleep with
    | none => (s.reach (some delay), .error .interrupt)
    | some sleep => acts i r ((s.reach (some delay)).receive (sleep.callbacks delay)) (planned f)
  else acts i r (s.reach none) (planned f)

/-- The loop over the timeline, from round `k` on. -/
def loop (i : ι) (round : ℕ → ReplayRound) : ℕ → ReplaySession ι → List (Frame ℚ) →
    ReplaySession ι × Except Recording.Raised Unit
  | _, s, [] => (s, .ok ())
  | k, s, f :: fs =>
    match frame i (round k) (s.receive (round k).head) f with
    | (s', .error e) => (s', .error e)
    | (s', .ok ()) => loop i round (k + 1) s' fs

def raised : Except Recording.Raised Unit → Bool
  | .error _ => true
  | .ok () => false

/-- The `with` statement over session `i`; `none` while its entry waits. -/
def replay (w : World ι) (i : ι) (schedule : ReplaySchedule) (timeline : List (Frame ℚ)) :
    Option (ReplaySession ι × Except Recording.Raised Unit) :=
  match w.enter i schedule.claim schedule.waiting schedule.timeoutRelease with
  | none => none
  | some (w, .error e) => some (begin w, .error (.exception e))
  | some (w, .ok ()) =>
    let (s, result) :=
      loop i schedule.round 0 (begin w) timeline
    match (schedule.closing.foldl World.callback s.world).exit i (raised result)
        schedule.release with
    | (w, .error e) => some ({ s with world := w }, .error (.exception e))
    | (w, .ok ()) => some ({ s with world := w }, result)

/-! ## What a replay has done -/

/-- With its lease confirmed, a call has published the positions of its command. -/
def Sends (h : Handled) : Prop :=
  if h.active then ∃ p, h.published = [p] ∧ Homing.Carries p.envelope.command h.planned.positions
  else h.published = []

/-- From `s` to `t` the calls `new` of `act` have returned, for commands at the head of `ps` and
none before its time. -/
structure Proceeds (s t : ReplaySession ι) (ps : List Planned) (new : List Handled) : Prop where
  startTime : t.startTime = s.startTime
  now : s.world.now ≤ t.world.now
  handled : t.handled = s.handled ++ new
  order : new.map Handled.planned <+: ps
  notEarly : ∀ h ∈ new, s.startTime + h.planned.relTime ≤ h.time
  sends : ∀ h ∈ new, Sends h
  published : t.world.published = s.world.published ++ new.flatMap Handled.published
  dispatched : t.world.dispatched = s.world.dispatched

/-- A part of the loop proceeds through `ps`, to its end if it returns. -/
def Does (s : ReplaySession ι) (ps : List Planned)
    (r : ReplaySession ι × Except Recording.Raised Unit) : Prop :=
  ∃ new, Proceeds s r.1 ps new ∧ (r.2 = .ok () → new.map Handled.planned = ps)

variable {s t u : ReplaySession ι} {ps qs : List Planned} {new more : List Handled}

theorem Proceeds.trans (h : Proceeds s t ps new) (hall : new.map Handled.planned = ps)
    (h' : Proceeds t u qs more) : Proceeds s u (ps ++ qs) (new ++ more) where
  startTime := h'.startTime.trans h.startTime
  now := h.now.trans h'.now
  handled := by rw [h'.handled, h.handled, List.append_assoc]
  order := by
    rw [List.map_append, hall]
    exact (List.prefix_append_right_inj ps).mpr h'.order
  notEarly x hx := by
    cases List.mem_append.mp hx with
    | inl hx => exact h.notEarly x hx
    | inr hx => exact h.startTime ▸ h'.notEarly x hx
  sends x hx := by
    cases List.mem_append.mp hx with
    | inl hx => exact h.sends x hx
    | inr hx => exact h'.sends x hx
  published := by rw [h'.published, h.published, List.flatMap_append, List.append_assoc]
  dispatched := h'.dispatched.trans h.dispatched

theorem Proceeds.append (h : Proceeds s t ps new) (qs : List Planned) :
    Proceeds s t (ps ++ qs) new :=
  { h with order := h.order.trans (List.prefix_append ps qs) }

/-- Nothing is handled while time passes. -/
theorem Proceeds.idle (ps : List Planned) (hstart : t.startTime = s.startTime)
    (hnow : s.world.now ≤ t.world.now) (hhandled : t.handled = s.handled)
    (hsame : World.SameCommands s.world t.world) : Proceeds s t ps [] where
  startTime := hstart
  now := hnow
  handled := by rw [hhandled, List.append_nil]
  order := List.nil_prefix
  notEarly _ h := absurd h List.not_mem_nil
  sends _ h := absurd h List.not_mem_nil
  published := by rw [hsame.published, List.flatMap_nil, List.append_nil]
  dispatched := hsame.dispatched

theorem Does.failed (h : Proceeds s t ps new) (e : Recording.Raised) :
    Does s ps (t, .error e) :=
  ⟨new, h, fun he => by cases he⟩

/-! ## One command -/

theorem elapsed_nonneg (c : World.Callback) : 0 ≤ c.elapsed := by
  cases c with
  | status message => exact le_refl _
  | event message => exact le_refl _
  | advance d => exact d.2

theorem now_le_callbacks (w : World ι) (cs : List World.Callback) :
    w.now ≤ (cs.foldl World.callback w).now := by
  rw [World.now_callbacks]
  have hsum : 0 ≤ (cs.map World.Callback.elapsed).sum := by
    apply List.sum_nonneg
    intro x hx
    obtain ⟨c, -, rfl⟩ := List.mem_map.mp hx
    exact elapsed_nonneg c
  linarith

theorem receive_proceeds (s : ReplaySession ι) (cs : List World.Callback) (ps : List Planned) :
    Proceeds s (s.receive cs) ps [] :=
  Proceeds.idle ps rfl (now_le_callbacks _ cs) rfl (World.sameCommands_callbacks _ cs)

theorem reach_proceeds (s : ReplaySession ι) (sleep : Option ℚ) (ps : List Planned) :
    Proceeds s (s.reach sleep) ps [] :=
  Proceeds.idle ps rfl (le_refl _) rfl (World.SameCommands.refl _)

theorem act_error {w w' : World ι} {i : ι} {action : Action} {stamp : Stamp} {e : PyError}
    (h : w.act i action none stamp = (w', .error e)) : w' = w := by
  unfold World.act at h
  dsimp only at h
  split at h
  · exact (Prod.mk.inj h).1.symm
  · split at h
    · cases h
    · split at h
      · cases h
      · split at h
        · exact (Prod.mk.inj h).1.symm
        · cases h

theorem act_dispatched (w : World ι) (i : ι) (action : Action) (stamp : Stamp) :
    (w.act i action none stamp).1.dispatched = w.dispatched := by
  rcases World.act_cases w i action none stamp with h | ⟨d, h⟩ | ⟨client, p, -, -, -, h⟩
  · rw [h]
  · rw [h]
    rfl
  · rw [h]
    rfl

theorem does_act (i : ι) (r : ReplayRound) {p : Planned}
    (hdue : s.startTime + p.relTime ≤ s.world.now) : Does s [p] (act i r s p) := by
  unfold act
  cases r.before p.part with
  | none => exact Does.failed (Proceeds.idle _ rfl (le_refl _) rfl (World.SameCommands.refl _)) _
  | some cs =>
    dsimp only
    have hreceive := receive_proceeds s cs
    cases hpart : p.part with
    | int n => exact Does.failed (hreceive _) _
    | other o => exact Does.failed (hreceive _) _
    | str part =>
      dsimp only
      cases hact : (s.receive cs).world.act i ⟨part, "joint_reference", .positions p.positions⟩
          none (r.stamp (.str part)) with
      | mk w result =>
        cases result with
        | error e =>
          obtain rfl := act_error hact
          exact Does.failed (hreceive _) _
        | ok u =>
          have hnow : w.now = (s.receive cs).world.now := by
            have hsame := World.sameElsewhere_act (s.receive cs).world i
              ⟨part, "joint_reference", .positions p.positions⟩ none (r.stamp (.str part))
            rw [hact] at hsame
            exact hsame.now
          have hin := hreceive []
          refine ⟨[⟨p, (s.receive cs).world.now, (s.receive cs).world.activeFor i part,
            w.published.drop (s.receive cs).world.published.length⟩], ?_, fun _ => rfl⟩
          have hsends : w.published = (s.receive cs).world.published ++
                w.published.drop (s.receive cs).world.published.length ∧
              Sends ⟨p, (s.receive cs).world.now, (s.receive cs).world.activeFor i part,
                w.published.drop (s.receive cs).world.published.length⟩ := by
            unfold Sends
            rcases Homing.act_ok hact with ⟨hoff, hpub⟩ | ⟨hon, client, q, hsend, hpub⟩
            · rw [hoff, hpub]
              simp
            · rw [hon, hpub]
              simp only [List.drop_left, if_pos, true_and]
              exact ⟨q, rfl, Homing.carries_of_send hsend⟩
          refine ⟨rfl, hin.now.trans (ge_of_eq hnow), rfl, List.prefix_refl _, ?_, ?_, ?_, ?_⟩
          · intro h hh
            obtain rfl := List.mem_singleton.mp hh
            exact hdue.trans hin.now
          · intro h hh
            obtain rfl := List.mem_singleton.mp hh
            exact hsends.2
          · rw [List.flatMap_singleton, ← (World.sameCommands_callbacks s.world cs).published]
            exact hsends.1
          · have hdispatched := act_dispatched (s.receive cs).world i
              ⟨part, "joint_reference", .positions p.positions⟩ (r.stamp (.str part))
            rw [hact] at hdispatched
            exact hdispatched.trans hin.dispatched

theorem does_acts (i : ι) (r : ReplayRound) {ps : List Planned}
    (hdue : ∀ p ∈ ps, s.startTime + p.relTime ≤ s.world.now) : Does s ps (acts i r s ps) := by
  induction ps generalizing s with
  | nil => exact ⟨[], Proceeds.idle _ rfl (le_refl _) rfl (World.SameCommands.refl _), fun _ => rfl⟩
  | cons p ps ih =>
    obtain ⟨new, hnew, hall⟩ := does_act i r (hdue p List.mem_cons_self)
    unfold acts
    cases hact : act i r s p with
    | mk t result =>
      rw [hact] at hnew hall
      cases result with
      | error e => exact Does.failed (hnew.append ps) e
      | ok u =>
        obtain ⟨more, hmore, hrest⟩ := ih (s := t) fun q hq => by
          rw [hnew.startTime]
          exact (hdue q (List.mem_cons_of_mem _ hq)).trans hnew.now
        refine ⟨new ++ more, hnew.trans (hall rfl) hmore, fun hok => ?_⟩
        rw [List.map_append, hall rfl, hrest hok]
        rfl

/-! ## The loop -/

/-- A round that looks at the clock before its frame is due sleeps for the rest. -/
def Slept (startTime : ℚ) (x : ℚ × Option ℚ) (f : Frame ℚ) : Prop :=
  x.2 = if 0 < startTime + f.relTime - x.1 then some (startTime + f.relTime - x.1) else none

theorem acts_reached (i : ι) (r : ReplayRound) (s : ReplaySession ι) (ps : List Planned) :
    (acts i r s ps).1.reached = s.reached := by
  induction ps generalizing s with
  | nil => rfl
  | cons p ps ih =>
    have hact : (act i r s p).1.reached = s.reached := by
      unfold act
      cases r.before p.part with
      | none => rfl
      | some cs =>
        dsimp only
        cases p.part with
        | int n => rfl
        | other o => rfl
        | str part =>
          dsimp only
          split <;> rfl
    unfold acts
    cases hresult : act i r s p with
    | mk t result =>
      rw [hresult] at hact
      cases result with
      | error e => exact hact
      | ok u => exact (ih t).trans hact

theorem due_of_planned {f : Frame ℚ} (hdue : s.startTime + f.relTime ≤ s.world.now) :
    ∀ p ∈ planned f, s.startTime + p.relTime ≤ s.world.now := by
  intro p hp
  obtain ⟨e, -, rfl⟩ := List.mem_map.mp hp
  exact hdue

/-- A sleep that is as long as asked ends when the frame is due. -/
theorem due_after_sleep (s : ReplaySession ι) (f : Frame ℚ) (sleep : Sleep) (asked : Option ℚ) :
    let delay := s.startTime + f.relTime - s.world.now
    s.startTime + f.relTime ≤ ((s.reach asked).receive (sleep.callbacks delay)).world.now := by
  intro delay
  have hfull := sleep.full delay
  change _ ≤ ((sleep.callbacks delay).foldl World.callback s.world).now
  rw [World.now_callbacks]
  linarith

theorem does_frame (i : ι) (r : ReplayRound) (s : ReplaySession ι) (f : Frame ℚ) :
    Does s (planned f) (frame i r s f) ∧
      ∃ x, (frame i r s f).1.reached = s.reached ++ [x] ∧ Slept s.startTime x f := by
  unfold frame
  dsimp only
  by_cases hearly : 0 < s.startTime + f.relTime - s.world.now
  · have hslept : Slept s.startTime (s.world.now, some (s.startTime + f.relTime - s.world.now)) f := by
      unfold Slept
      rw [if_pos hearly]
    rw [if_pos hearly]
    cases r.asleep with
    | none => exact ⟨Does.failed (reach_proceeds s _ _) _, _, rfl, hslept⟩
    | some sleep =>
      dsimp only
      refine ⟨?_, _, acts_reached i r _ _, hslept⟩
      have hidle := (reach_proceeds s (some (s.startTime + f.relTime - s.world.now)) []).trans rfl
        (receive_proceeds _ (sleep.callbacks (s.startTime + f.relTime - s.world.now)) [])
      obtain ⟨new, hnew, hall⟩ := does_acts i r
        (due_of_planned (due_after_sleep s f sleep _))
      exact ⟨new, hidle.trans rfl hnew, hall⟩
  · have hslept : Slept s.startTime (s.world.now, none) f := by
      unfold Slept
      rw [if_neg hearly]
    rw [if_neg hearly]
    refine ⟨?_, _, acts_reached i r _ _, hslept⟩
    obtain ⟨new, hnew, hall⟩ := does_acts (s := s.reach none) i r
      (due_of_planned (f := f) (sub_nonpos.mp (not_lt.mp hearly)))
    exact ⟨new, (reach_proceeds s none []).trans rfl hnew, hall⟩

/-- The rounds of a loop from `s` to `t` over `fs`. -/
def Rounds (s t : ReplaySession ι) (fs : List (Frame ℚ)) (new : List (ℚ × Option ℚ)) : Prop :=
  t.reached = s.reached ++ new ∧ List.Forall₂ (Slept s.startTime) new (fs.take new.length)

theorem does_loop (i : ι) (round : ℕ → ReplayRound) (k : ℕ) (s : ReplaySession ι)
    (fs : List (Frame ℚ)) :
    Does s (plan fs) (loop i round k s fs) ∧ ∃ new, Rounds s (loop i round k s fs).1 fs new := by
  induction fs generalizing k s with
  | nil =>
    exact ⟨⟨[], Proceeds.idle _ rfl (le_refl _) rfl (World.SameCommands.refl _), fun _ => rfl⟩, [],
      (List.append_nil _).symm, List.Forall₂.nil⟩
  | cons f fs ih =>
    have hhead := receive_proceeds s (round k).head []
    obtain ⟨⟨new, hnew, hall⟩, x, hx, hslept⟩ :=
      does_frame i (round k) (s.receive (round k).head) f
    unfold loop
    cases hframe : frame i (round k) (s.receive (round k).head) f with
    | mk t result =>
      rw [hframe] at hnew hall hx
      have hfirst := hhead.trans rfl hnew
      rw [List.nil_append, List.nil_append] at hfirst
      cases result with
      | error e =>
        refine ⟨Does.failed (hfirst.append (plan fs)) e, [x], hx, ?_⟩
        exact List.Forall₂.cons hslept List.Forall₂.nil
      | ok u =>
        obtain ⟨⟨more, hmore, hrest⟩, xs, hxs, hrounds⟩ := ih (k + 1) t
        refine ⟨⟨new ++ more, hfirst.trans (hall rfl) hmore, fun hok => ?_⟩, x :: xs, ?_, ?_⟩
        · rw [List.map_append, hall rfl, hrest hok]
          rfl
        · rw [hxs, hx, List.append_assoc]
          rfl
        · rw [hfirst.startTime] at hrounds
          exact List.Forall₂.cons hslept hrounds

/-! ## The session -/

/-- What the process has done when a replay of `timeline` from `w` on ends as `s`. -/
structure Plays (w : World ι) (timeline : List (Frame ℚ)) (s : ReplaySession ι) : Prop where
  order : s.handled.map Handled.planned <+: plan timeline
  notEarly : ∀ h ∈ s.handled, s.startTime + h.planned.relTime ≤ h.time
  sends : ∀ h ∈ s.handled, Sends h
  published : s.world.published = w.published ++ s.handled.flatMap Handled.published
  dispatched : s.world.dispatched = w.dispatched
  sleeps : List.Forall₂ (Slept s.startTime) s.reached (timeline.take s.reached.length)

theorem plays_of_loop {w w1 : World ι} {i : ι} {round : ℕ → ReplayRound}
    {timeline : List (Frame ℚ)} (hw : World.SameCommands w w1)
    {result : Except Recording.Raised Unit}
    (h : loop i round 0 (begin w1) timeline = (s, result)) :
    Plays w timeline s ∧ (result = .ok () → s.handled.map Handled.planned = plan timeline) := by
  obtain ⟨⟨new, hnew, hall⟩, xs, hxs, hrounds⟩ := does_loop i round 0 (begin w1) timeline
  rw [h] at hnew hall hxs
  have hhandled : s.handled = new := hnew.handled
  have hreached : s.reached = xs := hxs
  have hpublished := hnew.published
  subst hhandled hreached
  refine ⟨⟨hnew.order, ?_, hnew.sends, ?_, hnew.dispatched.trans hw.dispatched, ?_⟩, hall⟩
  · rw [hnew.startTime]
    exact hnew.notEarly
  · rw [hpublished, ← hw.published]
    rfl
  · rw [hnew.startTime]
    exact hrounds

theorem Plays.ended {w w' : World ι} {timeline : List (Frame ℚ)} (h : Plays w timeline s)
    (hw : World.SameCommands s.world w') : Plays w timeline { s with world := w' } :=
  ⟨h.order, h.notEarly, h.sends, hw.published.trans h.published, hw.dispatched.trans h.dispatched,
    h.sleeps⟩

theorem replay_plays {w : World ι} {i : ι} {schedule : ReplaySchedule} {timeline : List (Frame ℚ)}
    {result : Except Recording.Raised Unit}
    (h : replay w i schedule timeline = some (s, result)) :
    Plays w timeline s ∧ (result = .ok () → s.handled.map Handled.planned = plan timeline) := by
  unfold replay at h
  split at h
  · cases h
  · next w1 e henter =>
    cases h
    have hsame := World.sameCommands_enter henter
    refine ⟨⟨List.nil_prefix, ?_, ?_, ?_, hsame.dispatched, List.Forall₂.nil⟩, fun hok => ?_⟩
    · exact fun _ hmem => absurd hmem List.not_mem_nil
    · exact fun _ hmem => absurd hmem List.not_mem_nil
    · exact hsame.published.trans (List.append_nil _).symm
    · cases hok
  · next w1 henter =>
    cases hloop : loop i schedule.round 0 (begin w1) timeline with
    | mk s' looped =>
      obtain ⟨hplays, hall⟩ := plays_of_loop (World.sameCommands_enter henter) hloop
      rw [hloop] at h
      dsimp only at h
      have hexit := (World.sameCommands_callbacks s'.world schedule.closing).trans
        (World.sameCommands_exit _ i (raised looped) schedule.release)
      split at h
      · next w2 e hleft =>
        rw [hleft] at hexit
        cases h
        exact ⟨hplays.ended hexit, fun hok => by cases hok⟩
      · next w2 hleft =>
        rw [hleft] at hexit
        cases h
        exact ⟨hplays.ended hexit, hall⟩

/-! ## From the recording to the robot -/

/-- The frame of an event plans the positions of the event. -/
theorem planned_of_event {a : Arithmetic} {t0 : ℕ} {events : List (ActionEvent ℚ)}
    {r : Trajectory ℚ} (h : LastValueJoin a t0 events r) {e : ActionEvent ℚ} (he : e ∈ events) :
    ⟨seconds a t0 e.logTime, e.part, e.positions⟩ ∈ plan r.timeline := by
  obtain ⟨k, hk, hek⟩ := List.mem_iff_getElem.mp he
  have hlength : k < r.timeline.length := h.length ▸ hk
  have htime := congrArg (fun times => times[k]?) h.times
  have hlatest := h.latest k r.timeline[k] (List.getElem?_eq_getElem hlength) e.part
  have htake : events.take (k + 1) = events.take k ++ [e] := by
    rw [List.take_add_one, List.getElem?_eq_getElem hk, hek, Option.toList_some]
  rw [htake, List.filter_append, List.filter_singleton, decide_eq_true rfl, cond_true,
    List.getLast?_concat, Option.map_some, Dict.get?_eq_some_iff] at hlatest
  simp only [List.getElem?_map, List.getElem?_eq_getElem hlength, List.getElem?_eq_getElem hk,
    hek, Option.map_some, Option.some.injEq] at htime
  refine List.mem_flatMap.mpr ⟨_, List.getElem_mem hlength, List.mem_map.mpr ⟨_, hlatest, ?_⟩⟩
  rw [htime]
  rfl

/-- **Replay.** Whatever the services answer, the process receives and the operator does, the
commands of a replay are those of the timeline up to where it ends: in their order, none before its
time, each published with the last recorded positions of its part while the lease is confirmed. A
replay that returns has handled every recorded event. -/
theorem replay_follows_recording (within : Object → String → Except PyError Bool) (a : Rounding)
    (path : String) {profile : EmbodimentConfig} {topics : Dict String Key}
    (htopics : topicToPart within profile.parts = .ok topics) {messages : List (McapMessage ℚ)}
    (hevent : ∃ m ∈ messages, (actionEvent topics m).isSome) :
    ∃ ordered t0 r, InLogOrder (messages.filterMap (actionEvent topics)) ordered ∧
      LastValueJoin a.toArithmetic t0 ordered r ∧
      loadMcapTrajectory within a.toArithmetic path profile messages = .ok r ∧
      ∀ (w : World ι) i schedule s result, replay w i schedule r.timeline = some (s, result) →
        Plays w r.timeline s ∧
        (result = .ok () → s.handled.map Handled.planned = plan r.timeline ∧
          ∀ e ∈ ordered, ∃ h ∈ s.handled,
            h.planned = ⟨seconds a.toArithmetic t0 e.logTime, e.part, e.positions⟩) := by
  have hne : messages.filterMap (actionEvent topics) ≠ [] := by
    obtain ⟨m, hm, hsome⟩ := hevent
    obtain ⟨e, he⟩ := Option.isSome_iff_exists.mp hsome
    exact List.ne_nil_of_mem (List.mem_filterMap.mpr ⟨m, hm, he⟩)
  obtain ⟨ordered, t0, r, horder, hjoin, hload⟩ := load_join within a path htopics hne
  refine ⟨ordered, t0, r, horder, hjoin, hload messages rfl, ?_⟩
  intro w i schedule s result hreplay
  obtain ⟨hplays, hall⟩ := replay_plays hreplay
  refine ⟨hplays, fun hok => ⟨hall hok, fun e he => ?_⟩⟩
  have hmem := planned_of_event hjoin he
  rw [← hall hok] at hmem
  obtain ⟨h, hh, hplanned⟩ := List.mem_map.mp hmem
  exact ⟨h, hh, hplanned⟩

/-- A sleep that is exactly as long as asked. -/
def exactSleep : Sleep := ⟨fun d => [.advance d.toNNRat], fun d => by
  simpa [World.Callback.elapsed] using Rat.le_coe_toNNRat d⟩

def armReplay : ReplaySchedule where
  claim := .response ⟨true, "", "lease-1", [World.armEndpoint]⟩
  waiting := [[.status (Deployment.armStatus "lease-1")]]
  timeoutRelease := .response true ""
  round _ := ⟨[], some exactSleep, fun _ => some [], fun _ => ⟨0, 0⟩⟩
  closing := []
  release := .response true ""

theorem replay_follows_recording_arm : ∃ r, loadMcapTrajectory notIterable
      exactRounding.toArithmetic "episode.mcap" armProfile [armReference 20 1, armReference 10 2] =
        .ok r ∧
    ∃ s, replay Homing.homingWorld () armReplay r.timeline = some (s, .ok ()) ∧
      Plays Homing.homingWorld r.timeline s ∧
      s.handled.map Handled.planned = plan r.timeline := by
  have hevent : ∃ m ∈ [armReference 20 1, armReference 10 2], (actionEvent armTopics m).isSome :=
    ⟨armReference 20 1, List.mem_cons_self, by decide +kernel⟩
  have hsorted : sortBy ActionEvent.logTime
      ([armReference 20 1, armReference 10 2].filterMap (actionEvent armTopics)) =
        [⟨10, .str "arm", [2]⟩, ⟨20, .str "arm", [1]⟩] := rfl
  obtain ⟨ordered, t0, r, -, -, hload, hreplay⟩ := replay_follows_recording (ι := Unit) notIterable
    exactRounding "episode.mcap" armProfile_topics hevent
  have hloaded := loadMcapTrajectory_actions notIterable exactRounding.toArithmetic "episode.mcap"
    armProfile_topics hsorted
  obtain rfl := Except.ok.inj (hload.symm.trans hloaded)
  have hreturns : (replay Homing.homingWorld () armReplay (actionTrajectory
      exactRounding.toArithmetic 10 [⟨10, .str "arm", [2]⟩, ⟨20, .str "arm", [1]⟩]).timeline).map
        Prod.snd = some (.ok ()) := by
    decide +kernel
  obtain ⟨⟨s, result⟩, hs, hok⟩ := Option.map_eq_some_iff.mp hreturns
  obtain rfl : result = .ok () := hok
  obtain ⟨hplays, hall⟩ := hreplay _ _ _ _ _ hs
  exact ⟨_, hload, s, hs, hplays, (hall rfl).1⟩

end ReplaySession
end PhysicalAiRuntime.Apps
