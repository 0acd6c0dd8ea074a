import Mathlib.Tactic.Linarith
import PhysicalAiRuntime.Fleet.Writers

/-! How long two sessions command one part. A status message that is delivered at all is delivered
within `delay`, and a command leaves within its `lag` after its session found itself active; then a
session whose part was granted to another one falls silent within these and its status timeout after
the grant, also where it hears nothing any more. -/
namespace PhysicalAiRuntime.Fleet
open Authority Provider Control
open Recovery (ExecutionManager leaseName)
set_option autoImplicit false
set_option maxHeartbeats 250000
set_option linter.unusedSectionVars false

variable {κ ι : Type} [DecidableEq κ] [DecidableEq ι]

namespace System

/-- A message is delivered within `delay`, or not at all; a command leaves within its `lag`. -/
def Prompt (delay : ℚ) (lag : Pending κ ι → ℚ) (s : System κ ι) : Event κ ι → Prop
  | .deliver _ n => ∀ m ∈ s.published[n]?, s.now ≤ m.time + delay
  | .leave n => ∀ p ∈ s.waiting[n]?, s.now ≤ p.checked + lag p
  | _ => True

instance (delay : ℚ) (lag : Pending κ ι → ℚ) (s : System κ ι) :
    ∀ e : Event κ ι, Decidable (Prompt delay lag s e)
  | .deliver _ n => inferInstanceAs (Decidable (∀ m ∈ s.published[n]?, s.now ≤ m.time + delay))
  | .leave n => inferInstanceAs (Decidable (∀ p ∈ s.waiting[n]?, s.now ≤ p.checked + lag p))
  | .request _ _ | .claim _ _ | .release _ | .serve _ | .answer _ | .serveRelease _ | .fault _
  | .publish | .process _ _ | .tick _ => isTrue trivial

/-- A command is based on a message that was not expired when its session found itself active. -/
def Based (timeout : κ → ℚ) (delay : ℚ) (s : System κ ι) (p : Pending κ ι) : Prop :=
  ∃ n m, p.basis = some n ∧ s.published[n]? = some m ∧
    p.checked ≤ m.time + delay + timeout p.process

/-- The times of messages, grants and commands; `clock` has the clocks of the processes at the
start of the system, and `timeout` their status timeouts. -/
structure Timed (clock timeout : κ → ℚ) (delay : ℚ) (lag : Pending κ ι → ℚ) (s : System κ ι) :
    Prop where
  past : ∀ m ∈ s.published, m.time ≤ s.now
  after : ∀ m ∈ s.published, ∀ (n : ℕ) (g : Grant κ ι), m.grants ≤ n → s.grants[n]? = some g →
    m.time ≤ g.time
  synced : ∀ k, (s.world k).now = clock k + s.now
  bounded : ∀ k, (s.world k).selection.statusTimeoutSec = timeout k
  heard : ∀ k t, (s.world k).selection.lastStatusMonotonic = some t → ∃ n m,
    s.position k = some n ∧ s.published[n]? = some m ∧ t ≤ clock k + m.time + delay
  waits : ∀ p ∈ s.waiting, s.Based timeout delay p
  commands : ∀ c ∈ s.commands, s.Based timeout delay c.toPending ∧
    c.time ≤ c.checked + lag c.toPending

variable {clock timeout : κ → ℚ} {delay : ℚ} {lag : Pending κ ι → ℚ}

theorem timed_init (roleCode : SourceRole → ℕ) (now : κ → ℚ) (timeouts : κ → Timeouts)
    (config : κ → ι → SessionConfig) (sourceClient : κ → ι → ActionProviderClient) :
    (init roleCode now timeouts config sourceClient).Timed now
      (fun k => (timeouts k).statusTimeoutSec) delay lag where
  past m h := by cases h
  after m h := by cases h
  synced k := (add_zero (now k)).symm
  bounded k := rfl
  heard k t h := by cases h
  waits p h := by cases h
  commands c h := by cases h

/-! ## Steps without time -/

/-- Grants of this moment and messages of this moment are added, the processes do nothing. -/
theorem Timed.grows {s s' : System κ ι} (h : s.Timed clock timeout delay lag)
    (newGrants : List (Grant κ ι)) (newMessages : List Snapshot)
    (hg : s'.grants = s.grants ++ newGrants) (hp : s'.published = s.published ++ newMessages)
    (hgrants : ∀ g ∈ newGrants, g.time = s.now)
    (hmessages : ∀ m ∈ newMessages, m.time = s.now ∧ m.grants = s'.grants.length)
    (hw : s'.world = s.world) (hposition : s'.position = s.position)
    (hq : s'.waiting = s.waiting) (hc : s'.commands = s.commands) (hn : s'.now = s.now) :
    s'.Timed clock timeout delay lag := by
  have hprefix : s.published <+: s'.published := by
    rw [hp]
    exact List.prefix_append _ _
  have hbased : ∀ p, s.Based timeout delay p → s'.Based timeout delay p := by
    intro p hp
    obtain ⟨n, m, hb, hm, hle⟩ := hp
    exact ⟨n, m, hb, Feed.held_of_prefix hprefix hm, hle⟩
  refine ⟨fun m hm => ?_, fun m hm n g hle hng => ?_, fun k => ?_, fun k => ?_, fun k t ht => ?_,
    fun p hmem => ?_, fun c hmem => ?_⟩
  · rw [hp] at hm
    rw [hn]
    rcases List.mem_append.mp hm with hold | hnew
    · exact h.past m hold
    · exact le_of_eq (hmessages m hnew).1
  · rw [hp] at hm
    rcases List.mem_append.mp hm with hold | hnew
    · rw [hg] at hng
      by_cases hlt : n < s.grants.length
      · rw [List.getElem?_append_left hlt] at hng
        exact h.after m hold n g hle hng
      · rw [List.getElem?_append_right (Nat.le_of_not_lt hlt)] at hng
        rw [hgrants g (List.mem_of_getElem? hng)]
        exact h.past m hold
    · have hlt := (List.getElem?_eq_some_iff.mp hng).1
      rw [(hmessages m hnew).2] at hle
      omega
  · rw [hw, hn]
    exact h.synced k
  · rw [hw]
    exact h.bounded k
  · rw [hw] at ht
    obtain ⟨n, m, hpos, hm, hle⟩ := h.heard k t ht
    exact ⟨n, m, by rw [hposition, hpos], Feed.held_of_prefix hprefix hm, hle⟩
  · rw [hq] at hmem
    exact hbased p (h.waits p hmem)
  · rw [hc] at hmem
    exact (h.commands c hmem).imp_left (hbased c.toPending)

theorem Timed.of_same {s s' : System κ ι} (h : s.Timed clock timeout delay lag)
    (hg : s'.grants = s.grants) (hp : s'.published = s.published) (hw : s'.world = s.world)
    (hposition : s'.position = s.position) (hq : s'.waiting = s.waiting)
    (hc : s'.commands = s.commands) (hn : s'.now = s.now) : s'.Timed clock timeout delay lag :=
  h.grows [] [] (hg.trans (List.append_nil _).symm) (hp.trans (List.append_nil _).symm)
    (List.forall_mem_nil _) (List.forall_mem_nil _) hw hposition hq hc hn

theorem timed_serve {s : System κ ι} (h : s.Timed clock timeout delay lag) (n : ℕ) :
    (s.serve n).Timed clock timeout delay lag := by
  rcases serve_cases s n with hs | ⟨c, -, -, ⟨message, hs⟩ | ⟨-, hs⟩⟩
  · rw [hs]
    exact h
  · rw [hs]
    exact h.of_same rfl rfl rfl rfl rfl rfl rfl
  · rw [hs]
    refine h.grows _ [] rfl (List.append_nil _).symm (fun g hg => ?_) (List.forall_mem_nil _) rfl rfl
      rfl rfl rfl
    rw [List.mem_singleton.mp hg]

theorem timed_publish {s : System κ ι} (h : s.Timed clock timeout delay lag) :
    s.publish.Timed clock timeout delay lag := by
  refine h.grows [] _ (List.append_nil _).symm rfl (List.forall_mem_nil _) (fun m hm => ?_) rfl rfl
    rfl rfl rfl
  rw [List.mem_singleton.mp hm]
  exact ⟨rfl, rfl⟩

/-! ## A step of a process -/

/-- A session finds itself active while the message in the cache is not expired. -/
theorem Timed.based_begun {s : System κ ι} (h : s.Timed clock timeout delay lag) {l : Label ι}
    {p : Pending κ ι} (hp : Sends (s.world p.process) l p) (hbasis : p.basis = s.position p.process)
    (htime : p.checked = s.now) : s.Based timeout delay p := by
  obtain ⟨-, -, -, howns⟩ := World.activeFor_true hp.active
  obtain ⟨a, ha, -, -⟩ := Session.owns_iff.mp howns
  obtain ⟨t, ht, hfresh, -⟩ := ExecutionManagerClient.getAllocations_some ha
  obtain ⟨n, m, hn, hm, hle⟩ := h.heard p.process t ht
  refine ⟨n, m, hbasis.trans hn, hm, ?_⟩
  rw [h.synced p.process, h.bounded p.process] at hfresh
  rw [htime]
  linarith

theorem timed_act {s : System κ ι} (h : s.Timed clock timeout delay lag) {k : κ} {l : Label ι}
    (hcache : SameCache (s.world k) ((s.world k).step l)) :
    (s.act k l).Timed clock timeout delay lag := by
  have hself : (s.act k l).world k = (s.world k).step l := Function.update_self _ _ _
  have hother : ∀ j, j ≠ k → (s.act k l).world j = s.world j := fun j hj =>
    Function.update_of_ne hj _ _
  refine ⟨h.past, h.after, fun j => ?_, fun j => ?_, fun j t ht => ?_, fun p hp => ?_, h.commands⟩
  · by_cases hj : j = k
    · rw [hj, hself, hcache.now]
      exact h.synced k
    · rw [hother j hj]
      exact h.synced j
  · by_cases hj : j = k
    · rw [hj, hself, hcache.timeout]
      exact h.bounded k
    · rw [hother j hj]
      exact h.bounded j
  · by_cases hj : j = k
    · subst hj
      rw [hself, hcache.monotonic] at ht
      exact h.heard j t ht
    · rw [hother j hj] at ht
      exact h.heard j t ht
  · rcases List.mem_append.mp hp with hold | hnew
    · exact h.waits p hold
    · rcases begun_cases k (s.position k) s.now (s.world k) l with
        hnone | ⟨q, hq, rfl, hbasis, htime, hsends⟩
      · rw [hnone] at hnew
        cases hnew
      · rw [hq, List.mem_singleton] at hnew
        rw [hnew]
        exact h.based_begun hsends hbasis htime

theorem timed_leave {s : System κ ι} (h : s.Timed clock timeout delay lag) {n : ℕ}
    (hprompt : s.Prompt delay lag (.leave n)) : (s.leave n).Timed clock timeout delay lag := by
  rcases leave_cases s n with hs | ⟨p, hn, hs⟩
  · rw [hs]
    exact h
  · rw [hs]
    refine ⟨h.past, h.after, h.synced, h.bounded, h.heard,
      fun q hq => h.waits q (List.mem_of_mem_eraseIdx hq), fun c hc => ?_⟩
    rcases List.mem_append.mp hc with hold | hnew
    · exact h.commands c hold
    · rw [List.mem_singleton.mp hnew]
      exact ⟨h.waits p (List.mem_of_getElem? hn), hprompt p hn⟩

theorem timed_deliver {s : System κ ι} (h : s.Timed clock timeout delay lag) {k : κ} {n : ℕ}
    (hprompt : s.Prompt delay lag (.deliver k n)) : (s.deliver k n).Timed clock timeout delay lag := by
  unfold deliver
  split
  · exact h
  next m hm =>
    split
    · refine ⟨h.past, h.after, fun j => ?_, fun j => ?_, fun j t ht => ?_, h.waits, h.commands⟩
      · by_cases hj : j = k
        · subst hj
          simpa [World.callback] using h.synced j
        · simpa [hj] using h.synced j
      · by_cases hj : j = k
        · subst hj
          simpa [World.callback, ExecutionManagerClient.onStatus] using h.bounded j
        · simpa [hj] using h.bounded j
      · by_cases hj : j = k
        · subst hj
          refine ⟨n, m, by simp, hm, ?_⟩
          have hnow : (s.world j).now = t := by
            simpa [World.callback, ExecutionManagerClient.onStatus] using ht
          have hdelay : s.now ≤ m.time + delay := hprompt m hm
          rw [← hnow, h.synced j]
          linarith
        · obtain ⟨p, m', hp, hm', hle⟩ := h.heard j t (by simpa [hj] using ht)
          exact ⟨p, m', by simpa [hj] using hp, hm', hle⟩
    · exact h

theorem timed_tick {s : System κ ι} (h : s.Timed clock timeout delay lag) (elapsed : ℚ≥0) :
    (s.step (.tick elapsed)).Timed clock timeout delay lag where
  past m hm := by
    have hpast := h.past m hm
    have hforward : (0 : ℚ) ≤ elapsed := elapsed.coe_nonneg
    change m.time ≤ s.now + elapsed
    linarith
  after := h.after
  synced k := by
    change (s.world k).now + elapsed = clock k + (s.now + elapsed)
    rw [h.synced k]
    ring
  bounded := h.bounded
  heard := h.heard
  waits := h.waits
  commands := h.commands

theorem timed_step (s : System κ ι) (e : Event κ ι) (h : s.Timed clock timeout delay lag)
    (hprompt : s.Prompt delay lag e) : (s.step e).Timed clock timeout delay lag := by
  cases e with
  | request k i =>
    change (s.request k i).Timed clock timeout delay lag
    rcases request_cases s k i with hs | ⟨r, hs⟩
    · rw [hs]
      exact h
    · rw [hs]
      exact h.of_same rfl rfl rfl rfl rfl rfl rfl
  | claim k r => exact h.of_same rfl rfl rfl rfl rfl rfl rfl
  | release leaseId => exact h.of_same rfl rfl rfl rfl rfl rfl rfl
  | serve n => exact timed_serve h n
  | answer n =>
    change (s.answer n).Timed clock timeout delay lag
    rcases answer_cases s n with hs | ⟨c, i, r, -, -, -, -, hs⟩
    · rw [hs]
      exact h
    · rw [hs]
      have hcalls : Timed clock timeout delay lag
          { s with calls := s.calls.set n { c with taken := true } } :=
        h.of_same rfl rfl rfl rfl rfl rfl rfl
      exact timed_act hcalls (sameCache_enter _ i r)
  | serveRelease n =>
    change (s.serveRelease n).Timed clock timeout delay lag
    unfold serveRelease
    split
    · exact h
    · exact h.of_same rfl rfl rfl rfl rfl rfl rfl
  | fault resource => exact h.of_same rfl rfl rfl rfl rfl rfl rfl
  | publish => exact timed_publish h
  | deliver k n => exact timed_deliver h hprompt
  | process k l =>
    rcases process_cases s k l with hs | ⟨hl, -, hs⟩
    · rw [hs]
      exact h
    · rw [hs]
      exact timed_act h (sameCache_own _ hl)
  | leave n => exact timed_leave h hprompt
  | tick elapsed => exact timed_tick h elapsed

/-! ## Silence after a later grant -/

/-- `g` was granted after the lease of the command, for its part. -/
def Superseded (s : System κ ι) (c : Command κ ι) (g : Grant κ ι) : Prop :=
  ∃ (i j : ℕ) (mine : Grant κ ι), i < j ∧ s.grants[i]? = some mine ∧ mine.leaseId = c.leaseId ∧
    s.grants[j]? = some g ∧ c.part ∈ g.parts

/-- The message the command is based on was published before the later grant. -/
theorem Inv.superseded_after {s : System κ ι} (h : s.Inv) {c : Command κ ι} {g : Grant κ ι}
    (hc : c ∈ s.commands) (hlater : s.Superseded c g) {n : ℕ} {m : Snapshot}
    (hn : c.basis = some n) (hm : s.published[n]? = some m) :
    ∃ j, m.grants ≤ j ∧ s.grants[j]? = some g := by
  obtain ⟨i, j, mine, hij, hi, hown, hj, hpart⟩ := hlater
  refine ⟨j, ?_, hj⟩
  obtain ⟨-, n', m', g', hn', hm', hg', -, -, hid⟩ := h.latest c hc
  rw [hn] at hn'
  cases hn'
  rw [hm] at hm'
  cases hm'
  obtain ⟨p, hp, hlast⟩ := Latest.latest_place hg'
  have hplace : p = i := h.granted.numbered.place
    (Feed.held_of_prefix (List.take_prefix _ _) hp) hi (hid.trans hown.symm)
  by_contra hlt
  -- otherwise the later grant would be the latest one of the message
  have htake : (s.grants.take m.grants)[j]? = some g := by
    rw [List.getElem?_take_of_lt (by omega)]
    exact hj
  have hnot := hlast j g (by omega) htake
  exact of_decide_eq_false hnot hpart

/-- The first process of the handover goes on after its part is granted away, until the status
expires, and its goal waits for the action server. -/
def armOverlap : List (Event Bool Unit) :=
  [.request false (), .serve 0, .answer 0, .publish, .deliver false 0, armConfirm false,
    .request true (), .serve 1, .answer 1, .tick 1, .tick 1, armExecute, .tick 1, .tick 1, .leave 0,
    armExecute]

end System
end PhysicalAiRuntime.Fleet
