import Mathlib.Tactic.Linarith
import Mathlib.Tactic.FieldSimp
import PhysicalAiRuntime.Apps.McapTimeline

/-! The native rate of a recording, over exact rationals. The joint-state fallback divides the
intervals by the duration; the action path divides the events by it, one more than there are
intervals. -/
namespace PhysicalAiRuntime.Apps
open Config
set_option autoImplicit false
set_option maxHeartbeats 250000

variable {α : Type}

/-! ## Rounding to the nearest integer -/

/-- `k` is nearest to `x`, and even where another integer is as near. -/
structure NearestEven (x : ℚ) (k : ℤ) : Prop where
  lower : 2 * (k : ℚ) - 1 ≤ 2 * x
  upper : 2 * x ≤ 2 * (k : ℚ) + 1
  lowerTie : 2 * x = 2 * (k : ℚ) - 1 → k % 2 = 0
  upperTie : 2 * x = 2 * (k : ℚ) + 1 → k % 2 = 0

theorem nearestEven_roundHalfEven (x : ℚ) : NearestEven x (roundHalfEven x) := by
  have hfloor := Int.floor_le x
  have hceil := Int.lt_floor_add_one x
  unfold roundHalfEven
  dsimp only
  by_cases hlt : x - ⌊x⌋ < 1 / 2
  · rw [if_pos hlt]
    exact ⟨by linarith, by linarith, fun h => absurd h (by linarith), fun h => absurd h (by linarith)⟩
  · rw [if_neg hlt]
    by_cases hgt : 1 / 2 < x - ⌊x⌋
    · rw [if_pos hgt]
      refine ⟨?_, ?_, fun h => absurd h ?_, fun h => absurd h ?_⟩ <;> push_cast
      · linarith
      · linarith
      · exact ne_of_gt (by linarith)
      · exact ne_of_lt (by linarith)
    · rw [if_neg hgt]
      by_cases heven : ⌊x⌋ % 2 = 0
      · rw [if_pos heven]
        exact ⟨by linarith, by linarith, fun _ => heven, fun _ => heven⟩
      · rw [if_neg heven]
        refine ⟨?_, ?_, fun _ => by omega, fun _ => by omega⟩ <;> push_cast
        · linarith
        · linarith

theorem NearestEven.le {x y : ℚ} {k m : ℤ} (hk : NearestEven x k) (hm : NearestEven y m)
    (h : x ≤ y) : k ≤ m := by
  by_contra hlt
  have hsucc : (m : ℚ) + 1 ≤ k := by
    exact_mod_cast not_le.mp hlt
  have heq : (k : ℚ) = m + 1 := by
    linarith [hk.lower, hm.upper]
  have hcast : k = m + 1 := by
    exact_mod_cast heq
  have hmeven := hm.upperTie (by linarith [hk.lower, hm.upper])
  have hkeven := hk.lowerTie (by linarith [hk.lower, hm.upper])
  omega

theorem roundHalfEven_eq_iff {x : ℚ} {k : ℤ} : roundHalfEven x = k ↔ NearestEven x k := by
  have hspec := nearestEven_roundHalfEven x
  constructor
  · intro h
    exact h ▸ hspec
  · intro h
    exact le_antisymm (hspec.le h (le_refl x)) (h.le hspec (le_refl x))

/-- A larger number is rounded to the same integer as long as it does not cross the midpoint. -/
theorem roundHalfEven_eq_of_lt {x y : ℚ} (h : y < x) : roundHalfEven x = roundHalfEven y ↔
    2 * x ≤ 2 * (roundHalfEven y : ℚ) + 1 ∧
      (2 * x = 2 * (roundHalfEven y : ℚ) + 1 → roundHalfEven y % 2 = 0) := by
  have hspec := nearestEven_roundHalfEven y
  rw [roundHalfEven_eq_iff]
  constructor
  · exact fun hx => ⟨hx.upper, hx.upperTie⟩
  · intro ⟨hupper, htie⟩
    exact ⟨by linarith [hspec.lower], hupper, fun heq => absurd heq (by linarith [hspec.lower]), htie⟩

/-! ## Evenly spaced events -/

/-- The times, in any order, are `n` times from `t0` on at a distance of `d`. -/
def EvenlySpaced (n d t0 : ℕ) (times : List ℕ) : Prop :=
  times.Perm ((List.range n).map fun i => t0 + d * i)

instance decidableEvenlySpaced (n d t0 : ℕ) (times : List ℕ) : Decidable (EvenlySpaced n d t0 times) :=
  inferInstanceAs (Decidable (List.Perm times _))

theorem spaced_sorted {β : Type} {key : β → ℕ} {xs : List β} {n d t0 : ℕ}
    (h : EvenlySpaced n d t0 (xs.map key)) :
    (sortBy key xs).map key = (List.range n).map fun i => t0 + d * i := by
  have hperm : ((sortBy key xs).map key).Perm ((List.range n).map fun i => t0 + d * i) :=
    ((sortBy_perm key xs).map key).trans h
  have hsorted : ((sortBy key xs).map key).Pairwise fun s t => s ≤ t :=
    List.pairwise_map.mpr (sortBy_pairwise key xs)
  have hspaced : ((List.range n).map fun i => t0 + d * i).Pairwise fun s t => s ≤ t := by
    rw [List.pairwise_map]
    exact List.pairwise_lt_range.imp fun h => Nat.add_le_add_left (Nat.mul_le_mul_left d h.le) t0
  exact hperm.eq_of_pairwise (fun s t _ _ => Nat.le_antisymm) hsorted hspaced

/-- The first and the last of the sorted events, and how many there are. -/
theorem spaced_ends {β : Type} {key : β → ℕ} {xs : List β} {n d t0 : ℕ} (hn : 2 ≤ n)
    (h : EvenlySpaced n d t0 (xs.map key)) : ∃ first rest,
      sortBy key xs = first :: rest ∧ key first = t0 ∧ (first :: rest).length = n ∧
      (first :: rest).getLast?.map key = some (t0 + d * (n - 1)) := by
  have htimes := spaced_sorted h
  obtain ⟨m, rfl⟩ : ∃ m, n = m + 1 := ⟨n - 1, by omega⟩
  cases hsort : sortBy key xs with
  | nil =>
    rw [hsort] at htimes
    have hlength := congrArg List.length htimes
    simp at hlength
  | cons first rest =>
    rw [hsort] at htimes
    refine ⟨first, rest, rfl, ?_, ?_, ?_⟩
    · have hhead := congrArg List.head? htimes
      rw [List.range_succ_eq_map] at hhead
      simpa using hhead
    · simpa using congrArg List.length htimes
    · rw [← List.getLast?_map, htimes, List.range_succ, List.map_append]
      simp

theorem seconds_exact (t0 s : ℕ) :
    seconds exactRounding.toArithmetic t0 (t0 + s) = (s : ℚ) / 1000000000 := by
  have hdiff : ((t0 + s : ℕ) : ℤ) - (t0 : ℤ) = (s : ℤ) := by
    omega
  unfold seconds
  rw [hdiff]
  rfl

/-! ## The action rate -/

theorem partCounts_single {part : Key} {events : List (ActionEvent α)}
    (h : ∀ e ∈ events, e.part = part) (hne : events ≠ []) :
    (partCounts events).entries = [(part, events.length)] := by
  induction events using List.reverseRecOn with
  | nil => exact absurd rfl hne
  | append_singleton es e ih =>
    have hpart : e.part = part := h e (List.mem_append_right es List.mem_cons_self)
    have hadd : partCounts (es ++ [e]) = (partCounts es).set e.part
        (((partCounts es).get? e.part).getD 0 + 1) := by
      unfold partCounts
      rw [List.foldl_append]
      rfl
    rw [hadd, hpart]
    cases es with
    | nil => rfl
    | cons f es =>
      have hentries := ih (fun g hg => h g (List.mem_append_left [e] hg)) (List.cons_ne_nil f es)
      have hcount : (partCounts (f :: es)).get? part = some (f :: es).length := by
        rw [Dict.get?_eq_some_iff, hentries]
        exact List.mem_cons_self
      rw [hcount]
      change Dict.setEntries part _ (partCounts (f :: es)).entries = _
      rw [hentries, Dict.setEntries, if_pos rfl, List.length_append]
      rfl

theorem totalPrimaryFrames_single {part : Key} {events : List (ActionEvent α)}
    (h : ∀ e ∈ events, e.part = part) (hne : events ≠ []) :
    totalPrimaryFrames events = events.length := by
  unfold totalPrimaryFrames primaryPart
  rw [partCounts_single h hne]
  rfl

/-- Ten times the rate before it is rounded: `n` events or intervals in `s` nanoseconds. -/
def tenths (n s : ℕ) : ℚ := 10 * ((n : ℚ) / ((s : ℚ) / 1000000000))

theorem actionHz_single {part : Key} {events : List (ActionEvent α)} {t0 s : ℕ}
    (h : ∀ e ∈ events, e.part = part) (hs : 10000000 < s)
    (hlast : events.getLast?.map ActionEvent.logTime = some (t0 + s)) :
    actionHz exactRounding.toArithmetic t0 events =
      (roundHalfEven (tenths events.length s) : ℚ) / 10 := by
  have hne : events ≠ [] := by
    intro hnil
    rw [hnil] at hlast
    cases hlast
  have hlong : (1 : ℚ) / 100 ≤ (s : ℚ) / 1000000000 := by
    rw [div_le_div_iff₀ (by norm_num) (by norm_num)]
    exact_mod_cast (by omega : 1 * 1000000000 ≤ s * 100)
  unfold actionHz
  rw [totalPrimaryFrames_single h hne, hlast]
  change roundTenth exactRounding.toArithmetic
    ((events.length : ℚ) / max (seconds exactRounding.toArithmetic t0 (t0 + s)) (1 / 100)) = _
  rw [seconds_exact, max_eq_left hlong]
  rfl

/-! ## The joint-state rate -/

theorem stateTrajectory_hz (parts : Dict Key PartConfig) {events : List (StateEvent α)}
    {t0 s : ℕ} (hn : 2 ≤ events.length) (hs : 10000000 < s)
    (hlast : events.getLast?.map StateEvent.logTime = some (t0 + s)) :
    (stateTrajectory exactRounding.toArithmetic parts t0 events).nativeHz =
      (roundHalfEven (tenths (events.length - 1) s) : ℚ) / 10 := by
  have hlong : (1 : ℚ) / 100 < (s : ℚ) / 1000000000 := by
    rw [div_lt_div_iff₀ (by norm_num) (by norm_num)]
    exact_mod_cast (by omega : 1 * 1000000000 < s * 100)
  have hduration : ((events.map (stateFrame exactRounding.toArithmetic parts t0)).getLast?.map
      Frame.relTime).getD 0 = (s : ℚ) / 1000000000 := by
    obtain ⟨last, hget, htime⟩ := Option.map_eq_some_iff.mp hlast
    rw [List.getLast?_map, hget]
    change seconds exactRounding.toArithmetic t0 last.logTime = _
    rw [htime, seconds_exact]
  have hcount : ((events.length : ℤ) - 1 : ℤ) = ((events.length - 1 : ℕ) : ℤ) := by
    omega
  change stateHz _ (events.map (stateFrame exactRounding.toArithmetic parts t0)) = _
  unfold stateHz
  rw [hduration, List.length_map, if_pos ⟨hlong, hn⟩, hcount]
  rfl

/-! ## Native rate -/

/-- The midpoint above `k` tenths of a hertz, which is what the intervals are rounded to, is not
crossed by the events. -/
def RateKept (n d : ℕ) : Prop :=
  let k := roundHalfEven (10000000000 / d)
  2 * 10000000000 * (n : ℤ) ≤ (2 * k + 1) * (((n - 1) * d : ℕ) : ℤ) ∧
    (2 * 10000000000 * (n : ℤ) = (2 * k + 1) * (((n - 1) * d : ℕ) : ℤ) → k % 2 = 0)

theorem tenths_intervals {n d : ℕ} (hn : 2 ≤ n) (hd : 0 < d) :
    tenths (n - 1) ((n - 1) * d) = 10000000000 / d := by
  have hpred : ((n - 1 : ℕ) : ℚ) ≠ 0 := by
    exact_mod_cast (by omega : n - 1 ≠ 0)
  have hne : (d : ℚ) ≠ 0 := by
    exact_mod_cast hd.ne'
  unfold tenths
  push_cast
  field_simp
  norm_num

theorem roundTenth_rate (d : ℕ) : roundTenth exactRounding.toArithmetic (1000000000 / d) =
    (roundHalfEven (10000000000 / d) : ℚ) / 10 := by
  have hten : (10 : ℚ) * (1000000000 / d) = 10000000000 / d := by
    rw [← mul_div_assoc]
    norm_num
  unfold roundTenth
  rw [hten]
  rfl

theorem tenths_lt {n s : ℕ} (hn : 0 < n) (hs : 0 < s) : tenths (n - 1) s < tenths n s := by
  have hcount : ((n - 1 : ℕ) : ℚ) < n := by
    exact_mod_cast (by omega : n - 1 < n)
  have hpos : (0 : ℚ) < (s : ℚ) / 1000000000 := div_pos (by exact_mod_cast hs) (by norm_num)
  unfold tenths
  exact mul_lt_mul_of_pos_left (div_lt_div_of_pos_right hcount hpos) (by norm_num)

theorem two_mul_tenths (n s : ℕ) : 2 * tenths n s = (2 * 10000000000 * n : ℚ) / s := by
  unfold tenths
  rw [div_div_eq_mul_div]
  ring

/-- One event too many is divided by the duration, which shows unless the rate is kept. -/
theorem tenths_rounded_iff {n d : ℕ} (hn : 2 ≤ n) (hd : 0 < d) :
    roundHalfEven (tenths n ((n - 1) * d)) = roundHalfEven (10000000000 / d) ↔ RateKept n d := by
  have hs : 0 < (n - 1) * d := Nat.mul_pos (by omega) hd
  have hsq : (0 : ℚ) < (((n - 1) * d : ℕ) : ℚ) := by
    exact_mod_cast hs
  have hlt := tenths_lt (by omega : 0 < n) hs
  rw [tenths_intervals hn hd] at hlt
  rw [roundHalfEven_eq_of_lt hlt, two_mul_tenths, div_le_iff₀ hsq, div_eq_iff hsq.ne']
  unfold RateKept
  constructor
  · intro ⟨hle, htie⟩
    exact ⟨by exact_mod_cast hle, fun heq => htie (by exact_mod_cast heq)⟩
  · intro ⟨hle, htie⟩
    exact ⟨by exact_mod_cast hle, fun heq => htie (by exact_mod_cast heq)⟩

/-- A recording of less than ten seconds is never given its rate. -/
theorem not_rateKept_of_short {n d : ℕ} (hn : 2 ≤ n) (hd : 0 < d)
    (hshort : (n - 1) * d < 10000000000) : ¬ RateKept n d := by
  have hs : 0 < (n - 1) * d := Nat.mul_pos (by omega) hd
  have hsq : (0 : ℚ) < (((n - 1) * d : ℕ) : ℚ) := by
    exact_mod_cast hs
  have hshortq : (((n - 1) * d : ℕ) : ℚ) < 10000000000 := by
    exact_mod_cast hshort
  have hexcess : tenths (n - 1) ((n - 1) * d) + 1 < tenths n ((n - 1) * d) := by
    have hstep : tenths n ((n - 1) * d) - tenths (n - 1) ((n - 1) * d) =
        10000000000 / (((n - 1) * d : ℕ) : ℚ) := by
      unfold tenths
      rw [Nat.cast_sub (by omega : 1 ≤ n), Nat.cast_one]
      rw [div_div_eq_mul_div, div_div_eq_mul_div]
      ring
    have hone : 1 < 10000000000 / (((n - 1) * d : ℕ) : ℚ) := (one_lt_div hsq).mpr hshortq
    linarith
  rw [tenths_intervals hn hd] at hexcess
  rw [← tenths_rounded_iff hn hd]
  intro heq
  have hupper := (nearestEven_roundHalfEven (tenths n ((n - 1) * d))).upper
  have hlower := (nearestEven_roundHalfEven (10000000000 / (d : ℚ))).lower
  rw [heq] at hupper
  linarith

/-- **Native rate.** The fallback gives evenly spaced frames their rate, to the tenth; the action
path gives it to as many events at the same times if and only if the rate is kept. -/
theorem action_rate_iff (within : Object → String → Except PyError Bool) (path : String)
    {profile : EmbodimentConfig} {topics : Dict String Key}
    (htopics : topicToPart within profile.parts = .ok topics) {n d t : ℕ} (hn : 2 ≤ n)
    (hd : 10000000 < (n - 1) * d) {actions states : List (McapMessage α)} {part : Key}
    (hpart : ∀ e ∈ actions.filterMap (actionEvent topics), e.part = part)
    (hactions : EvenlySpaced n d t
      ((actions.filterMap (actionEvent topics)).map ActionEvent.logTime))
    (hnone : states.filterMap (actionEvent topics) = [])
    (hstates : EvenlySpaced n d t
      ((states.filterMap (stateEvent topics)).map StateEvent.logTime)) :
    ∃ r s, loadMcapTrajectory within exactRounding.toArithmetic path profile actions = .ok r ∧
      loadMcapTrajectory within exactRounding.toArithmetic path profile states = .ok s ∧
      s.nativeHz = roundTenth exactRounding.toArithmetic (1000000000 / d) ∧
      (r.nativeHz = roundTenth exactRounding.toArithmetic (1000000000 / d) ∧
        r.nativeHz = s.nativeHz ↔ RateKept n d) := by
  have hdpos : 0 < d := Nat.pos_of_ne_zero fun hzero => by
    rw [hzero, Nat.mul_zero] at hd
    omega
  obtain ⟨e, es, hsort, htime, hlength, hlast⟩ := spaced_ends hn hactions
  obtain ⟨f, fs, hsort', htime', hlength', hlast'⟩ := spaced_ends hn hstates
  rw [Nat.mul_comm] at hlast hlast'
  have hsingle : ∀ g ∈ e :: es, g.part = part := by
    intro g hg
    rw [← hsort, mem_sortBy] at hg
    exact hpart g hg
  have haction := actionHz_single hsingle hd hlast
  have hstate := stateTrajectory_hz profile.parts (hlength'.symm ▸ hn) hd hlast'
  rw [hlength] at haction
  rw [hlength', tenths_intervals hn hdpos, ← roundTenth_rate] at hstate
  refine ⟨_, _, loadMcapTrajectory_actions within _ path htopics hsort,
    loadMcapTrajectory_states within _ path htopics hnone hsort', ?_, ?_⟩
  · rw [htime']
    exact hstate
  · rw [htime, htime', hstate, and_self]
    have hhz : (actionTrajectory exactRounding.toArithmetic t (e :: es)).nativeHz =
        actionHz exactRounding.toArithmetic t (e :: es) := rfl
    rw [hhz, haction, roundTenth_rate, ← tenths_rounded_iff hn hdpos,
      div_left_inj' (by norm_num : (10 : ℚ) ≠ 0), Int.cast_inj]

theorem action_rate_arm : ∃ r s,
    loadMcapTrajectory notIterable exactRounding.toArithmetic "episode.mcap" armProfile
      [armReference 20000000 1, armReference 0 0] = .ok r ∧
    loadMcapTrajectory notIterable exactRounding.toArithmetic "episode.mcap" armProfile
      [armStates 0 0, armStates 20000000 1] = .ok s ∧
    s.nativeHz = roundTenth exactRounding.toArithmetic (1000000000 / (20000000 : ℕ)) ∧
    (r.nativeHz = roundTenth exactRounding.toArithmetic (1000000000 / (20000000 : ℕ)) ∧
      r.nativeHz = s.nativeHz ↔ RateKept 2 20000000) :=
  action_rate_iff (n := 2) (d := 20000000) (t := 0) notIterable "episode.mcap" armProfile_topics (by decide)
    (by decide) (by decide +kernel : ∀ e ∈ _, ActionEvent.part e = .str "arm") (by decide +kernel)
    (by decide +kernel) (by decide +kernel)

def threeReferences : List (McapMessage ℚ) :=
  [armReference 0 0, armReference 20000000 1, armReference 40000000 2]

/-- Three references of a stream at fifty hertz are replayed at seventy-five. -/
theorem action_rate_too_high :
    EvenlySpaced 3 20000000 0
      ((threeReferences.filterMap (actionEvent armTopics)).map ActionEvent.logTime) ∧
    (∀ e ∈ threeReferences.filterMap (actionEvent armTopics), e.part = .str "arm") ∧
    ∃ r, loadMcapTrajectory notIterable exactRounding.toArithmetic "episode.mcap" armProfile
        threeReferences = .ok r ∧
      r.nativeHz = 75 ∧
      roundTenth exactRounding.toArithmetic (1000000000 / (20000000 : ℕ)) = 50 :=
  ⟨by decide +kernel, by decide +kernel, _, rfl, by decide +kernel, by decide +kernel⟩

end PhysicalAiRuntime.Apps
