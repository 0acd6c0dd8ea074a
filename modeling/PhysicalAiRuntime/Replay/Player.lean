import PhysicalAiRuntime.Replay.Source

/-! `ActionTimestampRebaser` and the generator of `ReplayPlayer`. One `next` of the generator is a
step with the clock readings that it makes; whatever the consumer does in between, the sleeps it
requests are measured from the origin of the timeline. -/
namespace PhysicalAiRuntime.Replay
open Provider
set_option autoImplicit false
set_option maxHeartbeats 250000

/-! ## The rebaser -/

structure ActionTimestampRebaser where
  sourceOriginNs : Option ℤ
  rosOriginNs : ℤ
  steadyOriginNs : ℤ
  lastSourceNs : Option ℤ
  deriving DecidableEq, Repr

def stampOfNs (ns : ℤ) : Stamp := ⟨ns / 1000000000, (ns % 1000000000).toNat⟩

namespace ActionTimestampRebaser

def new : ActionTimestampRebaser := ⟨none, 0, 0, none⟩

def start (r : ActionTimestampRebaser) (sourceOriginNs rosOriginNs steadyOriginNs : ℤ) :
    Except PyError ActionTimestampRebaser :=
  if sourceOriginNs < 0 ∨ rosOriginNs < 0 ∨ steadyOriginNs < 0 then
    .error ⟨.valueError, "timeline origins must be non-negative"⟩
  else .ok
    { r with
      sourceOriginNs := some sourceOriginNs
      rosOriginNs := rosOriginNs
      steadyOriginNs := steadyOriginNs
      lastSourceNs := none }

/-- The rewritten message and its steady deadline. -/
def rewrite (r : ActionTimestampRebaser) (message : Message) (sourceTimeNs : ℤ) :
    Except PyError (ActionTimestampRebaser × Payload × ℤ) :=
  match r.sourceOriginNs with
  | none => .error ⟨.runtimeError, "timestamp rebaser has not been started"⟩
  | some origin =>
    if sourceTimeNs < origin then .error ⟨.valueError, "action precedes replay origin"⟩
    else if r.lastSourceNs.any fun last => sourceTimeNs < last then
      .error ⟨.valueError, "action source times must be monotonic"⟩
    else match message with
      | .other typeName => .error ⟨.typeError, "unsupported replay action type " ++ typeName⟩
      | .native payload =>
        let relative := sourceTimeNs - origin
        .ok ({ r with lastSourceNs := some sourceTimeNs },
          payload.stamped (stampOfNs (r.rosOriginNs + relative)), r.steadyOriginNs + relative)

end ActionTimestampRebaser

/-! ## The player -/

structure ReplayPlayer (σ : Type) where
  source : σ
  opened : Bool

/-- The generator that `__iter__` returns, between two `next` calls. -/
inductive Generator where
  | created
  | suspended (rebaser : ActionTimestampRebaser)
  | finished
  deriving DecidableEq, Repr

/-- What the clocks show during one `next`; the first two are read for the first action only. -/
structure Reading where
  ros : ℤ
  steadyOrigin : ℤ
  steady : ℤ
  deriving DecidableEq, Repr

/-- How a `next` ends; `sleep` is the argument of the sleep that was requested, in seconds. -/
inductive Result where
  | yielded (message : Payload) (sleep : Option ℚ)
  | stopped
  | raised (e : PyError)
  deriving DecidableEq, Repr

structure Iteration (σ : Type) where
  player : ReplayPlayer σ
  generator : Generator

variable {σ : Type}

namespace ReplayPlayer

def open' (src : ReplayActionSource σ) (p : ReplayPlayer σ) : Outcome (ReplayPlayer σ) Unit :=
  match src.opened p.source with
  | (s, .error e) => ({ p with source := s }, .error e)
  | (s, .ok ()) => (⟨s, true⟩, .ok ())

def close (src : ReplayActionSource σ) (p : ReplayPlayer σ) : ReplayPlayer σ :=
  ⟨src.close p.source, false⟩

def iter (p : ReplayPlayer σ) : Iteration σ := ⟨p, .created⟩

end ReplayPlayer

namespace Iteration

def paced (deadline steady : ℤ) : Option ℚ :=
  if 0 < deadline - steady then some ((deadline - steady : ℤ) / 1000000000) else none

/-- The body of the loop for one pulled action, `rebaser` being `none` for the first one. -/
def emit (rebaser : Option ActionTimestampRebaser) (action : RecordedAction) (r : Reading) :
    Generator × Result :=
  match rebaser.elim
      (ActionTimestampRebaser.new.start action.sourceTimeNs r.ros r.steadyOrigin) Except.ok with
  | .error e => (.finished, .raised e)
  | .ok rebaser =>
    match rebaser.rewrite action.payload action.sourceTimeNs with
    | .error e => (.finished, .raised e)
    | .ok (rebaser, message, deadline) =>
      (.suspended rebaser, .yielded message (paced deadline r.steady))

/-- From a pull on the source to the next `yield`, or to the end of the generator. -/
def resume (src : ReplayActionSource σ) (p : ReplayPlayer σ)
    (rebaser : Option ActionTimestampRebaser) (r : Reading) : Iteration σ × Result :=
  match src.next rebaser.isNone p.source with
  | (s, .error e) => (⟨{ p with source := s }, .finished⟩, .raised e)
  | (s, .ok none) => (⟨{ p with source := s }, .finished⟩, .stopped)
  | (s, .ok (some action)) =>
    let (generator, result) := emit rebaser action r
    (⟨{ p with source := s }, generator⟩, result)

def next (src : ReplayActionSource σ) (it : Iteration σ) (r : Reading) : Iteration σ × Result :=
  match it.generator with
  | .finished => (it, .stopped)
  | .suspended rebaser => resume src it.player (some rebaser) r
  | .created =>
    if it.player.opened = false then
      (⟨it.player, .finished⟩, .raised ⟨.runtimeError, "ReplayPlayer is not open"⟩)
    else match src.reset it.player.source with
      | (s, .error e) => (⟨{ it.player with source := s }, .finished⟩, .raised e)
      | (s, .ok ()) => resume src { it.player with source := s } none r

/-- The iteration after `n` calls of `next`, the `i`-th of which reads `clock i`. -/
def after (src : ReplayActionSource σ) (it : Iteration σ) (clock : ℕ → Reading) : ℕ → Iteration σ
  | 0 => it
  | n + 1 => ((after src it clock n).next src (clock n)).1

def result (src : ReplayActionSource σ) (it : Iteration σ) (clock : ℕ → Reading) (n : ℕ) :
    Result :=
  ((after src it clock n).next src (clock n)).2

/-! ## One action -/

/-- The record times of the first `n` actions do not decrease. -/
def NonDecreasing (actions : List RecordedAction) (n : ℕ) : Prop :=
  ∀ i a b, i + 1 < n → actions[i]? = some a → actions[i + 1]? = some b →
    a.sourceTimeNs ≤ b.sourceTimeNs

theorem NonDecreasing.mono {actions : List RecordedAction} {m n : ℕ} (h : NonDecreasing actions n)
    (hmn : m ≤ n) : NonDecreasing actions m := by
  intro i a b hi ha hb
  exact h i a b (by omega) ha hb

theorem NonDecreasing.origin_le {actions : List RecordedAction} {n : ℕ}
    (h : NonDecreasing actions (n + 1)) {a b : RecordedAction} (ha : actions[0]? = some a)
    (hb : actions[n]? = some b) : a.sourceTimeNs ≤ b.sourceTimeNs := by
  induction n generalizing b with
  | zero =>
    rw [ha] at hb
    rw [Option.some.inj hb]
  | succ n ih =>
    have hlt : n + 1 < actions.length := (List.getElem?_eq_some_iff.mp hb).1
    have hn : actions[n]? = some actions[n] := List.getElem?_eq_getElem (by omega)
    have hle := ih (h.mono (by omega)) hn
    have hstep := h n actions[n] b (by omega) hn hb
    omega

/-- The rebaser that the generator holds before action `n`. -/
def rebaserAt (actions : List RecordedAction) (origin : Reading) : ℕ → Option ActionTimestampRebaser
  | 0 => none
  | n + 1 => actions[0]?.bind fun a => actions[n]?.map fun last =>
      ⟨some a.sourceTimeNs, origin.ros, origin.steadyOrigin, some last.sourceTimeNs⟩

/-- What action `n` yields on a timeline whose clocks showed `origin` at the first action: its
payload under a stamp on the timeline, after a sleep of what is left until then, if anything is. -/
def YieldsAt (actions : List RecordedAction) (origin : Reading) (n : ℕ) (steady : ℤ)
    (result : Result) : Prop :=
  ∃ a a0 payload stamp sleep, actions[n]? = some a ∧ actions[0]? = some a0 ∧
    a.payload = .native payload ∧ stamp.nanosec < 1000000000 ∧
    stamp.sec * 1000000000 + stamp.nanosec = origin.ros + (a.sourceTimeNs - a0.sourceTimeNs) ∧
    (0 < origin.steadyOrigin + (a.sourceTimeNs - a0.sourceTimeNs) - steady →
      sleep = some
        (((origin.steadyOrigin + (a.sourceTimeNs - a0.sourceTimeNs) - steady : ℤ) : ℚ) /
          1000000000)) ∧
    (origin.steadyOrigin + (a.sourceTimeNs - a0.sourceTimeNs) - steady ≤ 0 → sleep = none) ∧
    result = .yielded (payload.stamped stamp) sleep

theorem stampOfNs_spec (ns : ℤ) : (stampOfNs ns).nanosec < 1000000000 ∧
    (stampOfNs ns).sec * 1000000000 + (stampOfNs ns).nanosec = ns := by
  unfold stampOfNs
  constructor
  · change (ns % 1000000000).toNat < 1000000000
    omega
  · change ns / 1000000000 * 1000000000 + ((ns % 1000000000).toNat : ℤ) = ns
    omega

theorem rewrite_native {r : ActionTimestampRebaser} {origin time : ℤ} (payload : Payload)
    (horigin : r.sourceOriginNs = some origin) (hle : origin ≤ time)
    (hlast : ∀ last, r.lastSourceNs = some last → last ≤ time) :
    r.rewrite (.native payload) time = .ok ({ r with lastSourceNs := some time },
      payload.stamped (stampOfNs (r.rosOriginNs + (time - origin))),
      r.steadyOriginNs + (time - origin)) := by
  have hany : (r.lastSourceNs.any fun last => decide (time < last)) = false := by
    cases hl : r.lastSourceNs with
    | none => rfl
    | some last =>
      have h := hlast last hl
      simp only [Option.any_some, decide_eq_false_iff_not]
      omega
  unfold ActionTimestampRebaser.rewrite
  simp [horigin, hany, not_lt.mpr hle]

theorem rewrite_decreasing {r : ActionTimestampRebaser} {origin last time : ℤ} (message : Message)
    (horigin : r.sourceOriginNs = some origin) (hlast : r.lastSourceNs = some last)
    (hlt : time < last) : ∃ text, r.rewrite message time = .error ⟨.valueError, text⟩ := by
  unfold ActionTimestampRebaser.rewrite
  by_cases hle : time < origin
  · exact ⟨_, by simp [horigin, hle]; rfl⟩
  · exact ⟨_, by simp [horigin, hlast, hle, hlt]; rfl⟩

/-- An action in order is yielded, and the generator goes on with the rebaser of the next one. -/
theorem emit_inOrder {actions : List RecordedAction} {origin : Reading} {n : ℕ}
    {a : RecordedAction} {payload : Payload} (r : Reading) (ha : actions[n]? = some a)
    (hnative : a.payload = .native payload) (hn : NonDecreasing actions (n + 1))
    (htime : 0 ≤ a.sourceTimeNs) (hros : 0 ≤ origin.ros) (hsteady : 0 ≤ origin.steadyOrigin)
    (hr : n = 0 → r = origin) :
    ∃ rebaser, rebaserAt actions origin (n + 1) = some rebaser ∧
      (emit (rebaserAt actions origin n) a r).1 = .suspended rebaser ∧
      YieldsAt actions origin n r.steady (emit (rebaserAt actions origin n) a r).2 := by
  have hlt : n < actions.length := (List.getElem?_eq_some_iff.mp ha).1
  have hzero : actions[0]? = some actions[0] := List.getElem?_eq_getElem (by omega)
  have horigin := hn.origin_le hzero ha
  obtain ⟨hnano, hstamp⟩ :=
    stampOfNs_spec (origin.ros + (a.sourceTimeNs - actions[0].sourceTimeNs))
  refine ⟨⟨some actions[0].sourceTimeNs, origin.ros, origin.steadyOrigin, some a.sourceTimeNs⟩,
    by simp [rebaserAt, hzero, ha], ?_⟩
  suffices hemit : emit (rebaserAt actions origin n) a r =
      (.suspended ⟨some actions[0].sourceTimeNs, origin.ros, origin.steadyOrigin,
          some a.sourceTimeNs⟩,
        .yielded (payload.stamped
            (stampOfNs (origin.ros + (a.sourceTimeNs - actions[0].sourceTimeNs))))
          (paced (origin.steadyOrigin + (a.sourceTimeNs - actions[0].sourceTimeNs)) r.steady)) by
    rw [hemit]
    refine ⟨rfl, a, actions[0], payload, _, _, ha, hzero, hnative, hnano, hstamp, ?_, ?_, rfl⟩
    · intro hlate
      exact if_pos hlate
    · intro hlate
      exact if_neg (not_lt.mpr hlate)
  cases n with
  | zero =>
    rw [hzero] at ha
    have hfirst : actions[0] = a := Option.some.inj ha
    have hnot : ¬ (a.sourceTimeNs < 0 ∨ origin.ros < 0 ∨ origin.steadyOrigin < 0) := by omega
    rw [hr rfl, hfirst]
    unfold emit
    simp only [rebaserAt, Option.elim_none, ActionTimestampRebaser.start, if_neg hnot, hnative]
    rw [rewrite_native payload rfl le_rfl (fun last hl => by cases hl)]
  | succ n =>
    have hprev : actions[n]? = some actions[n] := List.getElem?_eq_getElem (by omega)
    have hle := hn n actions[n] a (by omega) hprev ha
    unfold emit
    simp only [rebaserAt, hzero, hprev, Option.bind_some, Option.map_some, Option.elim_some,
      hnative]
    rw [rewrite_native payload rfl horigin (fun last hl => by cases hl; exact hle)]

theorem emit_decreasing {actions : List RecordedAction} (origin r : Reading) {k : ℕ}
    {a b : RecordedAction} (ha : actions[k]? = some a) (hlt : b.sourceTimeNs < a.sourceTimeNs) :
    (emit (rebaserAt actions origin (k + 1)) b r).1 = .finished ∧
      ∃ text, (emit (rebaserAt actions origin (k + 1)) b r).2 = .raised ⟨.valueError, text⟩ := by
  have hk : k < actions.length := (List.getElem?_eq_some_iff.mp ha).1
  have hzero : actions[0]? = some actions[0] := List.getElem?_eq_getElem (by omega)
  obtain ⟨text, he⟩ := rewrite_decreasing
    (r := ⟨some actions[0].sourceTimeNs, origin.ros, origin.steadyOrigin, some a.sourceTimeNs⟩)
    b.payload rfl rfl hlt
  unfold emit
  simp only [rebaserAt, hzero, ha, Option.bind_some, Option.map_some, Option.elim_some, he]
  exact ⟨trivial, text, rfl⟩

/-! ## All `next` calls of an iteration -/

/-- The next call pulls action `n`, with the rebaser that belongs there. -/
def Ready (src : ReplayActionSource σ) (InUse : σ → Prop) (actions : List RecordedAction)
    (origin : Reading) (n : ℕ) (it : Iteration σ) : Prop :=
  it.player.opened = true ∧ InUse it.player.source ∧ ∃ p : ReplayPlayer σ, p.opened = true ∧
    src.Gives InUse (rebaserAt actions origin n).isNone p.source (actions.drop n) ∧
    ∀ r, it.next src r = resume src p (rebaserAt actions origin n) r

/-- The generator has ended; its player is open and its source in use. -/
def Ended (InUse : σ → Prop) (it : Iteration σ) : Prop :=
  it.player.opened = true ∧ InUse it.player.source ∧ it.generator = .finished

variable {src : ReplayActionSource σ} {InUse : σ → Prop} {actions : List RecordedAction}
  {origin : Reading}

theorem ready_iter (hsrc : src.Replays InUse actions) {p : ReplayPlayer σ}
    (hopen : p.opened = true) (huse : InUse p.source) :
    Ready src InUse actions origin 0 p.iter := by
  obtain ⟨s, hreset, hgives⟩ := hsrc p.source huse
  refine ⟨hopen, huse, { p with source := s }, hopen, hgives, fun r => ?_⟩
  simp [next, ReplayPlayer.iter, hopen, hreset, rebaserAt]

theorem ended_next {it : Iteration σ} (h : Ended InUse it) (r : Reading) :
    it.next src r = (it, .stopped) := by
  unfold next
  rw [h.2.2]

theorem ready_exhausted {n : ℕ} {it : Iteration σ} (h : Ready src InUse actions origin n it)
    (hn : actions.length ≤ n) (r : Reading) :
    Ended InUse (it.next src r).1 ∧ (it.next src r).2 = .stopped := by
  obtain ⟨-, -, p, hopen, hgives, hnext⟩ := h
  rw [List.drop_eq_nil_of_le hn] at hgives
  obtain ⟨-, s, hs, huse⟩ := hgives
  rw [hnext]
  unfold resume
  rw [hs]
  exact ⟨⟨hopen, huse, rfl⟩, rfl⟩

/-- A pull of action `n`: what the loop body makes of it, and the source moved on by one. -/
theorem ready_pull {n : ℕ} {it : Iteration σ} (h : Ready src InUse actions origin n it)
    {a : RecordedAction} (ha : actions[n]? = some a) (r : Reading) :
    ∃ s, src.Gives InUse false s (actions.drop (n + 1)) ∧
      it.next src r = (⟨⟨s, true⟩, (emit (rebaserAt actions origin n) a r).1⟩,
        (emit (rebaserAt actions origin n) a r).2) := by
  obtain ⟨-, -, p, hopen, hgives, hnext⟩ := h
  obtain ⟨hlt, hget⟩ := List.getElem?_eq_some_iff.mp ha
  rw [List.drop_eq_getElem_cons hlt, hget] at hgives
  obtain ⟨-, s, hs, hrest⟩ := hgives
  refine ⟨s, hrest, ?_⟩
  rw [hnext]
  unfold resume
  rw [hs, hopen]

theorem ready_next {n : ℕ} {it : Iteration σ} (h : Ready src InUse actions origin n it)
    {a : RecordedAction} {payload : Payload} (r : Reading) (ha : actions[n]? = some a)
    (hnative : a.payload = .native payload) (hn : NonDecreasing actions (n + 1))
    (htime : 0 ≤ a.sourceTimeNs) (hros : 0 ≤ origin.ros) (hsteady : 0 ≤ origin.steadyOrigin)
    (hr : n = 0 → r = origin) :
    Ready src InUse actions origin (n + 1) (it.next src r).1 ∧
      YieldsAt actions origin n r.steady (it.next src r).2 := by
  obtain ⟨s, hgives, hnext⟩ := ready_pull h ha r
  obtain ⟨rebaser, hrebaser, hgenerator, hyields⟩ :=
    emit_inOrder r ha hnative hn htime hros hsteady hr
  rw [hnext, hgenerator]
  refine ⟨⟨rfl, hgives.inUse, ⟨s, true⟩, rfl, ?_, fun r' => ?_⟩, hyields⟩
  · rw [hrebaser]
    exact hgives
  · rw [hrebaser]
    rfl

theorem ready_decreasing {k : ℕ} {it : Iteration σ}
    (h : Ready src InUse actions origin (k + 1) it) {a b : RecordedAction} (r : Reading)
    (ha : actions[k]? = some a) (hb : actions[k + 1]? = some b)
    (hlt : b.sourceTimeNs < a.sourceTimeNs) :
    Ended InUse (it.next src r).1 ∧
      ∃ text, (it.next src r).2 = .raised ⟨.valueError, text⟩ := by
  obtain ⟨s, hgives, hnext⟩ := ready_pull h hb r
  obtain ⟨hgenerator, hraised⟩ := emit_decreasing origin r ha hlt
  rw [hnext, hgenerator]
  exact ⟨⟨rfl, hgives.inUse, rfl⟩, hraised⟩

theorem after_ended {it : Iteration σ} {clock : ℕ → Reading} {n : ℕ}
    (h : Ended InUse (after src it clock n)) (d : ℕ) :
    Ended InUse (after src it clock (n + d)) := by
  induction d with
  | zero => exact h
  | succ d ih =>
    change Ended InUse ((after src it clock (n + d)).next src (clock (n + d))).1
    rw [ended_next ih]
    exact ih

theorem result_ended {it : Iteration σ} {clock : ℕ → Reading} {m n : ℕ} (hmn : m ≤ n)
    (h : Ended InUse (after src it clock m)) : result src it clock n = .stopped := by
  obtain ⟨d, rfl⟩ := Nat.exists_eq_add_of_le hmn
  unfold result
  rw [ended_next (after_ended h d)]

/-! ## The timeline -/

/-- The results of all `next` calls on a timeline that starts with the readings `clock 0`: actions
in order are yielded one for one, and the first decrease of the times ends the iteration. -/
structure Timeline (actions : List RecordedAction) (clock : ℕ → Reading) (result : ℕ → Result) :
    Prop where
  yields : ∀ n, n < actions.length → NonDecreasing actions (n + 1) →
    YieldsAt actions (clock 0) n (clock n).steady (result n)
  stops : NonDecreasing actions actions.length → ∀ n, actions.length ≤ n → result n = .stopped
  raises : ∀ k a b, NonDecreasing actions (k + 1) → actions[k]? = some a →
    actions[k + 1]? = some b → b.sourceTimeNs < a.sourceTimeNs →
    (∃ text, result (k + 1) = .raised ⟨.valueError, text⟩) ∧
      ∀ n, k + 1 < n → result n = .stopped

section Runs
variable {p : ReplayPlayer σ} {clock : ℕ → Reading}
  (hsrc : src.Replays InUse actions)
  (hnative : ∀ a ∈ actions, ∃ payload, a.payload = .native payload)
  (htime : ∀ a ∈ actions, 0 ≤ a.sourceTimeNs)
  (hopen : p.opened = true) (huse : InUse p.source)
  (hros : 0 ≤ (clock 0).ros) (hsteady : 0 ≤ (clock 0).steadyOrigin)
include hsrc hnative htime hopen huse hros hsteady

/-- As long as the times do not decrease, every call finds the next action ready. -/
theorem after_ready (n : ℕ) (hlen : n ≤ actions.length) (hn : NonDecreasing actions n) :
    Ready src InUse actions (clock 0) n (after src p.iter clock n) := by
  induction n with
  | zero => exact ready_iter hsrc hopen huse
  | succ n ih =>
    have hlt : n < actions.length := by omega
    have ha : actions[n]? = some actions[n] := List.getElem?_eq_getElem hlt
    have hmem : actions[n] ∈ actions := List.getElem_mem hlt
    obtain ⟨payload, hpayload⟩ := hnative actions[n] hmem
    exact (ready_next (ih (by omega) (hn.mono (by omega))) (clock n) ha hpayload hn
      (htime actions[n] hmem) hros hsteady (fun h0 => by rw [h0])).1

theorem timeline_iter : Timeline actions clock (result src p.iter clock) where
  yields n hlt hn := by
    have ha : actions[n]? = some actions[n] := List.getElem?_eq_getElem hlt
    have hmem : actions[n] ∈ actions := List.getElem_mem hlt
    have hready := after_ready hsrc hnative htime hopen huse hros hsteady n (by omega)
      (hn.mono (by omega))
    obtain ⟨payload, hpayload⟩ := hnative actions[n] hmem
    exact (ready_next hready (clock n) ha hpayload hn (htime actions[n] hmem) hros hsteady
      (fun h0 => by rw [h0])).2
  stops hn n hle := by
    have hready := after_ready hsrc hnative htime hopen huse hros hsteady actions.length le_rfl hn
    obtain ⟨hended, hstopped⟩ := ready_exhausted hready le_rfl (clock actions.length)
    by_cases h : n = actions.length
    · rw [h]
      exact hstopped
    · have hlater : actions.length + 1 ≤ n := by omega
      exact result_ended hlater hended
  raises k a b hn ha hb hlt := by
    have hlen : k + 1 < actions.length := (List.getElem?_eq_some_iff.mp hb).1
    have hready := after_ready hsrc hnative htime hopen huse hros hsteady (k + 1) (by omega) hn
    obtain ⟨hended, hraised⟩ := ready_decreasing hready (clock (k + 1)) ha hb hlt
    refine ⟨hraised, fun n hlater => ?_⟩
    have hle : k + 1 + 1 ≤ n := by omega
    exact result_ended hle hended

/-- Wherever an iteration stands, its player is open and its source in use. -/
theorem after_inUse (n : ℕ) : (after src p.iter clock n).player.opened = true ∧
    InUse (after src p.iter clock n).player.source := by
  suffices h : Ended InUse (after src p.iter clock n) ∨
      (n ≤ actions.length ∧ NonDecreasing actions n) by
    rcases h with hended | ⟨hlen, hn⟩
    · exact ⟨hended.1, hended.2.1⟩
    · have hready := after_ready hsrc hnative htime hopen huse hros hsteady n hlen hn
      exact ⟨hready.1, hready.2.1⟩
  induction n with
  | zero => exact Or.inr ⟨Nat.zero_le _, fun i _ _ hi => absurd hi (by omega)⟩
  | succ n ih =>
    rcases ih with hended | ⟨hlen, hn⟩
    · exact Or.inl (after_ended hended 1)
    have hready := after_ready hsrc hnative htime hopen huse hros hsteady n hlen hn
    by_cases hlt : n < actions.length
    · by_cases hnext : NonDecreasing actions (n + 1)
      · exact Or.inr ⟨hlt, hnext⟩
      · refine Or.inl ?_
        cases n with
        | zero => exact absurd (fun i _ _ hi => absurd hi (by omega)) hnext
        | succ k =>
          have ha : actions[k]? = some actions[k] := List.getElem?_eq_getElem (by omega)
          have hb : actions[k + 1]? = some actions[k + 1] := List.getElem?_eq_getElem hlt
          have hdecreasing : actions[k + 1].sourceTimeNs < actions[k].sourceTimeNs := by
            by_contra hge
            refine hnext fun i x y hi hx hy => ?_
            by_cases hik : i = k
            · subst hik
              rw [ha] at hx
              rw [hb] at hy
              cases hx
              cases hy
              omega
            · exact hn i x y (by omega) hx hy
          exact (ready_decreasing hready (clock (k + 1)) ha hb hdecreasing).1
    · exact Or.inl (ready_exhausted hready (by omega) (clock n)).1

end Runs

/-- **Replay timeline.** Iterating an open player runs the timeline of its source, and so does
every later iteration, wherever the previous one was left. -/
theorem replay_timeline (src : ReplayActionSource σ) (InUse : σ → Prop)
    (actions : List RecordedAction) (p : ReplayPlayer σ) (clock : ℕ → Reading)
    (hsrc : src.Replays InUse actions)
    (hnative : ∀ a ∈ actions, ∃ payload, a.payload = .native payload)
    (htime : ∀ a ∈ actions, 0 ≤ a.sourceTimeNs) (hopen : p.opened = true) (huse : InUse p.source)
    (hros : 0 ≤ (clock 0).ros) (hsteady : 0 ≤ (clock 0).steadyOrigin) :
    Timeline actions clock (result src p.iter clock) ∧
      ∀ n, (after src p.iter clock n).player.opened = true ∧
        InUse (after src p.iter clock n).player.source ∧
        ∀ again : ℕ → Reading, 0 ≤ (again 0).ros → 0 ≤ (again 0).steadyOrigin →
          Timeline actions again (result src (after src p.iter clock n).player.iter again) := by
  refine ⟨timeline_iter hsrc hnative htime hopen huse hros hsteady, fun n => ?_⟩
  obtain ⟨hopen', huse'⟩ := after_inUse hsrc hnative htime hopen huse hros hsteady n
  exact ⟨hopen', huse', fun again hr hs =>
    timeline_iter hsrc hnative htime hopen' huse' hr hs⟩

/-- An episode with two actions on its topic and a message of another topic between them. -/
def episode : McapActionSource where
  bag := ⟨Dict.ofPairs [("/actions", "trajectory_msgs/msg/JointTrajectory")],
    [("/actions", "a", 10), ("/status", "ok", 20), ("/actions", "b", 30)]⟩
  topic := "/actions"
  deserialize := fun serialized _ => .ok (.native (.joint ⟨Header.default, [serialized], []⟩))

def episodeActions : List RecordedAction :=
  [⟨10, .native (.joint ⟨Header.default, ["a"], []⟩)⟩,
    ⟨30, .native (.joint ⟨Header.default, ["b"], []⟩)⟩]

def episodePlayer : ReplayPlayer (Option Reader) :=
  (ReplayPlayer.open' episode.source ⟨none, false⟩).1

theorem replay_timeline_episode :
    Timeline episodeActions (fun _ => ⟨1000, 2000, 2000⟩)
      (result episode.source episodePlayer.iter fun _ => ⟨1000, 2000, 2000⟩) := by
  have htype : episode.bag.types.get? episode.topic =
      some "trajectory_msgs/msg/JointTrajectory" := rfl
  have hsrc : episode.source.Replays (fun s => s.isSome) episodeActions :=
    McapActionSource.source_replays episode htype rfl
  refine (replay_timeline episode.source (fun s => s.isSome) episodeActions episodePlayer
    (fun _ => ⟨1000, 2000, 2000⟩) hsrc ?_ ?_ rfl rfl (by decide) (by decide)).1
  · intro a ha
    rcases List.mem_cons.mp ha with rfl | ha
    · exact ⟨_, rfl⟩
    · rw [List.mem_singleton.mp ha]
      exact ⟨_, rfl⟩
  · decide

end Iteration
end PhysicalAiRuntime.Replay
