import Mathlib.Data.Nat.Find
import PhysicalAiRuntime.Foundations.Buffer

/-! The payload of a padded JPEG buffer. The loop counts an unsigned index down to the end of the
last end marker; the end it finds is a greatest place where the used bytes end with the marker. -/
namespace PhysicalAiRuntime.MjpegCam
open Buffer
set_option autoImplicit false
set_option maxHeartbeats 250000

/-! ## The code -/

/-- `data[i] == first && data[j] == second`. -/
def hasPair (data : List UInt8) (i j : UInt64) (first second : UInt8) : Reading Bool := do
  if (← load data i.toNat) = first then
    return (← load data j.toNat) = second
  else
    return false

/-- The loop from `i` on, and the return behind it. -/
def lastEoi (data : List UInt8) (bytesused i : UInt64) : Reading UInt64 :=
  if h : 2 ≤ i then do
    if ← hasPair data (i - 2) (i - 1) 0xFF 0xD9 then
      return i
    else
      lastEoi data bytesused (i - 1)
  else
    return bytesused
termination_by i.toNat
decreasing_by
  have hi : 2 ≤ i.toNat := h
  have hone : (1 : UInt64) ≤ i := UInt64.le_iff_toNat_le.mpr (Nat.le_of_lt hi)
  rw [UInt64.toNat_sub_of_le i 1 hone]
  exact Nat.sub_lt (Nat.lt_of_lt_of_le Nat.two_pos hi) Nat.one_pos

/-- `none` is the null pointer. -/
def jpegPayloadSize (data : Option (List UInt8)) (bytesused : UInt64) : Reading UInt64 :=
  match data with
  | none => return bytesused
  | some data =>
    if bytesused < 4 then
      return bytesused
    else do
      if ← hasPair data 0 1 0xFF 0xD8 then
        lastEoi data bytesused bytesused
      else
        return bytesused

/-- The data that `capture_loop` publishes of a dequeued buffer, if it publishes. -/
def captured (buffers : List (Option (List UInt8))) (index : ℕ) (bytesused : UInt32) :
    Reading (Option (List UInt8)) :=
  match buffers[index]? with
  | some (some data) =>
    if 4 ≤ bytesused then do
      let used ← jpegPayloadSize (some data) bytesused.toUInt64
      return some (← (List.range used.toNat).mapM (load data))
    else
      return none
  | _ => return none

/-! ## The end of the payload -/

/-- The first `i` bytes end with an end marker. -/
def EndsAt (data : List UInt8) (i : ℕ) : Prop := [0xFF, 0xD9] <:+ data.take i

instance (data : List UInt8) : DecidablePred (EndsAt data) := fun i =>
  inferInstanceAs (Decidable ([0xFF, 0xD9] <:+ data.take i))

/-- Zero if there is no end marker. -/
def payloadEnd (data : List UInt8) (n : ℕ) : ℕ := Nat.findGreatest (EndsAt data) n

def payloadSize (data : List UInt8) (bytesused : UInt64) : UInt64 :=
  if [0xFF, 0xD8] <+: data.take bytesused.toNat ∧ payloadEnd data bytesused.toNat ≠ 0 then
    UInt64.ofNat (payloadEnd data bytesused.toNat)
  else
    bytesused

theorem EndsAt.two_le {data : List UInt8} {i : ℕ} (h : EndsAt data i) : 2 ≤ i := by
  have hlength := h.length_le
  rw [List.length_take] at hlength
  exact Nat.le_trans hlength (Nat.min_le_left _ _)

/-- The last two of `i + 2` bytes. -/
theorem endsAt_add_two {data : List UInt8} {i : ℕ} {a b : UInt8} (ha : data[i]? = some a)
    (hb : data[i + 1]? = some b) : EndsAt data (i + 2) ↔ a = 0xFF ∧ b = 0xD9 := by
  have htake : data.take (i + 2) = data.take i ++ [a, b] := by
    rw [List.take_add_one, hb, List.take_add_one, ha, List.append_assoc]
    rfl
  unfold EndsAt
  rw [htake]
  constructor
  · intro h
    have hsame : [0xFF, 0xD9] <:+ [a, b] :=
      List.suffix_of_suffix_length_le h (List.suffix_append _ _) (Nat.le_refl 2)
    have heq := hsame.eq_of_length rfl
    injection heq with hfirst htail
    injection htail with hsecond
    exact ⟨hfirst.symm, hsecond.symm⟩
  · rintro ⟨rfl, rfl⟩
    exact List.suffix_append _ _

/-! ## The loop -/

theorem hasPair_reads {data : List UInt8} {i j : UInt64} {first second a b : UInt8} {n : ℕ}
    (ha : data[i.toNat]? = some a) (hb : data[j.toNat]? = some b) (hi : i.toNat < n)
    (hj : j.toNat < n) :
    Reads n (hasPair data i j first second) (decide (a = first ∧ b = second)) := by
  refine (reads_load ha hi).bind ?_
  by_cases hfirst : a = first
  · rw [if_pos hfirst]
    refine (reads_load hb hj).bind ?_
    rw [show decide (a = first ∧ b = second) = decide (b = second) by simp [hfirst]]
    exact reads_pure _
  · rw [if_neg hfirst, decide_eq_false fun h => hfirst h.1]
    exact reads_pure _

theorem payloadEnd_small {data : List UInt8} {n : ℕ} (hn : n < 2) : payloadEnd data n = 0 :=
  Nat.findGreatest_eq_zero_iff.mpr fun _ _ hle hends =>
    absurd (Nat.le_trans hends.two_le hle) (Nat.not_le_of_lt hn)

theorem EndsAt.payloadEnd {data : List UInt8} {n : ℕ} (h : EndsAt data n) :
    payloadEnd data n = n :=
  Nat.findGreatest_eq_iff.mpr ⟨Nat.le_refl n, fun _ => h,
    fun _ hlt hle => absurd hle (Nat.not_le_of_lt hlt)⟩

/-- The guard of the loop keeps its two indices from wrapping. -/
theorem toNat_sub_one_two {i : UInt64} (h : 2 ≤ i) :
    (i - 1).toNat = i.toNat - 1 ∧ (i - 2).toNat = i.toNat - 2 := by
  have hone : (1 : UInt64) ≤ i := UInt64.le_iff_toNat_le.mpr (Nat.le_of_lt h)
  exact ⟨UInt64.toNat_sub_of_le i 1 hone, UInt64.toNat_sub_of_le i 2 h⟩

/-- One round of the loop tells whether the first `i` bytes end with the marker. -/
theorem round_reads {data : List UInt8} {i : UInt64} {n : ℕ} (h : 2 ≤ i)
    (hdata : i.toNat ≤ data.length) (hn : i.toNat ≤ n) :
    Reads n (hasPair data (i - 2) (i - 1) 0xFF 0xD9) (decide (EndsAt data i.toNat)) := by
  obtain ⟨hsecond, hfirst⟩ := toNat_sub_one_two h
  obtain ⟨k, hk⟩ : ∃ k, i.toNat = k + 2 := ⟨i.toNat - 2, (Nat.sub_add_cancel h).symm⟩
  rw [hk] at hsecond hfirst hdata hn ⊢
  have hlt : k + 1 < data.length := hdata
  have ha := List.getElem?_eq_getElem (Nat.lt_of_succ_lt hlt)
  have hb := List.getElem?_eq_getElem hlt
  rw [decide_eq_decide.mpr (endsAt_add_two ha hb)]
  refine hasPair_reads ?_ ?_ ?_ ?_
  · rw [hfirst]
    exact ha
  · rw [hsecond]
    exact hb
  · omega
  · omega

/-- The end that the loop returns from `i` on. -/
theorem lastEoi_reads {data : List UInt8} {bytesused i : UInt64} {n : ℕ}
    (hdata : i.toNat ≤ data.length) (hn : i.toNat ≤ n) :
    Reads n (lastEoi data bytesused i)
      (if payloadEnd data i.toNat ≠ 0 then UInt64.ofNat (payloadEnd data i.toNat)
        else bytesused) := by
  induction hk : i.toNat using Nat.strong_induction_on generalizing i with
  | _ k ih =>
    subst hk
    rw [lastEoi]
    by_cases htwo : 2 ≤ i
    · rw [dif_pos htwo]
      refine (round_reads htwo hdata hn).bind ?_
      by_cases hends : EndsAt data i.toNat
      · have hend : payloadEnd data i.toNat = i.toNat :=
          Nat.findGreatest_eq_iff.mpr ⟨Nat.le_refl _, fun _ => hends,
            fun _ hlt hle => absurd hle (Nat.not_le_of_lt hlt)⟩
        have hne : i.toNat ≠ 0 := Nat.ne_of_gt (Nat.lt_of_lt_of_le Nat.two_pos hends.two_le)
        rw [decide_eq_true hends, hends.payloadEnd, if_pos hne, UInt64.ofNat_toNat]
        exact reads_pure i
      · obtain ⟨hsecond, -⟩ := toNat_sub_one_two htwo
        have hge : 2 ≤ i.toNat := htwo
        have hend : payloadEnd data i.toNat = payloadEnd data (i - 1).toNat := by
          obtain ⟨k, hk⟩ : ∃ k, i.toNat = k + 1 := ⟨i.toNat - 1, by omega⟩
          rw [hk] at hends hsecond ⊢
          rw [hsecond]
          exact Nat.findGreatest_of_not hends
        rw [decide_eq_false hends, hend]
        exact ih (i - 1).toNat (by omega) (by omega) (by omega) rfl
    · have hsmall : i.toNat < 2 := Nat.lt_of_not_le htwo
      rw [dif_neg htwo, payloadEnd_small hsmall, if_neg fun h => h rfl]
      exact reads_pure bytesused

/-! ## The size -/

theorem endsAt_payloadEnd {data : List UInt8} {n : ℕ} (h : payloadEnd data n ≠ 0) :
    EndsAt data (payloadEnd data n) := Nat.findGreatest_of_ne_zero rfl h

theorem payloadEnd_lt_size (data : List UInt8) (bytesused : UInt64) :
    payloadEnd data bytesused.toNat < UInt64.size :=
  Nat.lt_of_le_of_lt (Nat.findGreatest_le _) bytesused.toNat_lt_size

/-- With a start marker and an end marker the size is the end of the last end marker. -/
theorem payloadSize_of_markers {data : List UInt8} {bytesused : UInt64}
    (hstart : [0xFF, 0xD8] <+: data.take bytesused.toNat)
    (hend : payloadEnd data bytesused.toNat ≠ 0) :
    (payloadSize data bytesused).toNat = payloadEnd data bytesused.toNat := by
  unfold payloadSize
  rw [if_pos ⟨hstart, hend⟩, UInt64.toNat_ofNat_of_lt' (payloadEnd_lt_size data bytesused)]

theorem payloadSize_of_not {data : List UInt8} {bytesused : UInt64}
    (h : ¬ ([0xFF, 0xD8] <+: data.take bytesused.toNat ∧
      payloadEnd data bytesused.toNat ≠ 0)) : payloadSize data bytesused = bytesused := if_neg h

theorem payloadSize_le (data : List UInt8) (bytesused : UInt64) :
    payloadSize data bytesused ≤ bytesused := by
  by_cases h : [0xFF, 0xD8] <+: data.take bytesused.toNat ∧ payloadEnd data bytesused.toNat ≠ 0
  · rw [UInt64.le_iff_toNat_le, payloadSize_of_markers h.1 h.2]
    exact Nat.findGreatest_le _
  · rw [payloadSize_of_not h]
    exact UInt64.le_refl _

theorem starts_iff {data : List UInt8} {n : ℕ} {a b : UInt8} (hn : 2 ≤ n) (ha : data[0]? = some a)
    (hb : data[1]? = some b) : [0xFF, 0xD8] <+: data.take n ↔ a = 0xFF ∧ b = 0xD8 := by
  obtain ⟨rest, rfl⟩ : ∃ rest, data = a :: b :: rest := by
    match data with
    | [] => cases ha
    | [x] => cases hb
    | x :: y :: rest =>
      cases ha
      cases hb
      exact ⟨rest, rfl⟩
  rw [List.prefix_take_iff]
  constructor
  · rintro ⟨⟨rest', heq⟩, -⟩
    injection heq with hfirst htail
    injection htail with hsecond
    exact ⟨hfirst.symm, hsecond.symm⟩
  · rintro ⟨rfl, rfl⟩
    exact ⟨⟨rest, rfl⟩, hn⟩

/-- An end marker does not overlap the start marker. -/
theorem EndsAt.four_le {data : List UInt8} {i : ℕ} (hends : EndsAt data i)
    (hstart : [0xFF, 0xD8] <+: data) (hi : i ≤ data.length) : 4 ≤ i := by
  obtain ⟨rest, rfl⟩ := hstart
  have htwo := hends.two_le
  by_contra hlt
  obtain rfl | rfl : i = 2 ∨ i = 3 := by omega
  · obtain ⟨-, hsecond⟩ := (endsAt_add_two (i := 0) (a := 0xFF) (b := 0xD8) rfl rfl).mp hends
    exact absurd hsecond (by decide)
  · have hb := List.getElem?_eq_getElem (l := [0xFF, 0xD8] ++ rest) (Nat.lt_of_succ_le hi)
    obtain ⟨hfirst, -⟩ := (endsAt_add_two (i := 1) (a := 0xD8) rfl hb).mp hends
    exact absurd hfirst (by decide)

/-- Fewer than four bytes cannot hold both markers. -/
theorem payloadSize_short {data : List UInt8} {bytesused : UInt64}
    (hdata : bytesused.toNat ≤ data.length) (h : bytesused < 4) :
    payloadSize data bytesused = bytesused := by
  refine payloadSize_of_not fun ⟨hstart, hend⟩ => ?_
  have hle : payloadEnd data bytesused.toNat ≤ bytesused.toNat := Nat.findGreatest_le _
  have hfour := (endsAt_payloadEnd hend).four_le (List.prefix_take_iff.mp hstart).1
    (Nat.le_trans hle hdata)
  exact absurd (Nat.le_trans hfour hle) (Nat.not_le_of_lt h)

/-- **The code computes the size**, and reads nothing beyond the used bytes. -/
theorem jpegPayloadSize_reads {data : List UInt8} {bytesused : UInt64}
    (h : bytesused.toNat ≤ data.length) :
    Reads bytesused.toNat (jpegPayloadSize (some data) bytesused) (payloadSize data bytesused) := by
  unfold jpegPayloadSize
  by_cases hshort : bytesused < 4
  · dsimp only
    rw [if_pos hshort, payloadSize_short h hshort]
    exact reads_pure bytesused
  · have hfour : 4 ≤ bytesused.toNat := Nat.le_of_not_lt hshort
    have ha := List.getElem?_eq_getElem (show 0 < data.length by omega)
    have hb := List.getElem?_eq_getElem (show 1 < data.length by omega)
    have hstarts := starts_iff (Nat.le_trans (by decide) hfour) ha hb
    have hpair : Reads bytesused.toNat (hasPair data 0 1 0xFF 0xD8)
        (decide ([0xFF, 0xD8] <+: data.take bytesused.toNat)) := by
      rw [decide_eq_decide.mpr hstarts]
      exact hasPair_reads ha hb (show 0 < bytesused.toNat by omega)
        (show 1 < bytesused.toNat by omega)
    dsimp only
    rw [if_neg hshort]
    refine hpair.bind ?_
    by_cases hstart : [0xFF, 0xD8] <+: data.take bytesused.toNat
    · unfold payloadSize
      simp only [hstart, decide_true, if_true, true_and]
      exact lastEoi_reads h (Nat.le_refl _)
    · rw [decide_eq_false hstart, payloadSize_of_not fun hboth => hstart hboth.1]
      exact reads_pure bytesused

/-- The last of two end markers counts. -/
example : (jpegPayloadSize
    (some [0xFF, 0xD8, 0xFF, 0xD9, 0x11, 0xFF, 0xD9, 0x00]) 8).run' [] = some 7 := by
  decide +kernel

/-! ## What the size is -/

/-- A pair that ends a word and a longer word ends the rest: its two bytes differ, so it cannot
straddle the seam. -/
theorem pair_suffix_rest {α : Type} {a b : α} (hab : a ≠ b) {w q : List α} (hw : [a, b] <:+ w)
    (hq : q ≠ []) (h : [a, b] <:+ w ++ q) : [a, b] <:+ q := by
  match q with
  | [] => exact absurd rfl hq
  | [x] =>
    obtain ⟨pre, rfl⟩ := hw
    have hlast : [b, x] <:+ pre ++ [a, b] ++ [x] := ⟨pre ++ [a], by simp⟩
    have hsame := List.suffix_of_suffix_length_le h hlast (Nat.le_refl 2)
    injection hsame.eq_of_length rfl with hfirst
    exact absurd hfirst hab
  | x :: y :: rest =>
    exact List.suffix_of_suffix_length_le h (List.suffix_append _ _) (by simp)

theorem payloadEnd_packet {data w p : List UInt8} {n : ℕ} (hused : data.take n = w ++ p)
    (hn : n ≤ data.length) (hend : [0xFF, 0xD9] <:+ w) (hpadding : ¬ [0xFF, 0xD9] <:+: p) :
    payloadEnd data n = w.length := by
  have hlength : n = w.length + p.length := by
    rw [← List.length_append, ← hused, List.length_take_of_le hn]
  have hcut : ∀ m ≤ n, data.take m = w.take m ++ p.take (m - w.length) := by
    intro m hm
    rw [← List.take_append, ← hused, List.take_take, Nat.min_eq_left hm]
  refine Nat.findGreatest_eq_iff.mpr ⟨by omega, fun _ => ?_, fun m hlt hm hends => hpadding ?_⟩
  · unfold EndsAt
    rw [hcut _ (by omega), List.take_length, Nat.sub_self, List.take_zero, List.append_nil]
    exact hend
  · unfold EndsAt at hends
    rw [hcut m hm, List.take_of_length_le (Nat.le_of_lt hlt)] at hends
    have hne : p.take (m - w.length) ≠ [] := by
      intro hnil
      have hzero := congrArg List.length hnil
      rw [List.length_take, List.length_nil] at hzero
      omega
    exact (pair_suffix_rest (by decide) hend hne hends).isInfix.trans (List.take_prefix _ _).isInfix

/-- The size of a packet with padding is its length. -/
theorem payloadSize_packet {data w p : List UInt8} {bytesused : UInt64}
    (hused : data.take bytesused.toNat = w ++ p) (hdata : bytesused.toNat ≤ data.length)
    (hstart : [0xFF, 0xD8] <+: w) (hend : [0xFF, 0xD9] <:+ w)
    (hpadding : ¬ [0xFF, 0xD9] <:+: p) : (payloadSize data bytesused).toNat = w.length := by
  have hpacket := payloadEnd_packet hused hdata hend hpadding
  have hpos : w.length ≠ 0 := Nat.ne_of_gt (Nat.lt_of_lt_of_le Nat.two_pos hend.length_le)
  rw [payloadSize_of_markers ?_ (by rw [hpacket]; exact hpos), hpacket]
  rw [hused]
  exact hstart.trans (List.prefix_append w p)

theorem payloadSize_unmarked {data : List UInt8} {bytesused : UInt64}
    (h : ¬ [0xFF, 0xD8] <+: data.take bytesused.toNat ∨
      ¬ [0xFF, 0xD9] <:+: data.take bytesused.toNat) : payloadSize data bytesused = bytesused := by
  refine payloadSize_of_not fun ⟨hstart, hend⟩ => ?_
  rcases h with hno | hno
  · exact hno hstart
  · have hle : payloadEnd data bytesused.toNat ≤ bytesused.toNat := Nat.findGreatest_le _
    exact hno ((endsAt_payloadEnd hend).isInfix.trans (List.take_prefix_take_left hle).isInfix)

theorem payloadSize_idempotent (data : List UInt8) (bytesused : UInt64) :
    payloadSize data (payloadSize data bytesused) = payloadSize data bytesused := by
  by_cases h : [0xFF, 0xD8] <+: data.take bytesused.toNat ∧ payloadEnd data bytesused.toNat ≠ 0
  · have hsize := payloadSize_of_markers h.1 h.2
    have hends := endsAt_payloadEnd h.2
    have hsame := hends.payloadEnd
    have hstart : [0xFF, 0xD8] <+: data.take (payloadSize data bytesused).toNat := by
      rw [hsize]
      exact List.prefix_take_iff.mpr ⟨(List.prefix_take_iff.mp h.1).1, hends.two_le⟩
    rw [← UInt64.toNat_inj, payloadSize_of_markers hstart ?_, hsize, hsame]
    rw [hsize, hsame]
    exact h.2
  · rw [payloadSize_of_not h, payloadSize_of_not h]

/-- What a size says about the used bytes of a buffer. A packet `w` has both markers, and its
padding `p` no end marker of its own. -/
structure Trims (data : List UInt8) (bytesused size : UInt64) : Prop where
  le : size ≤ bytesused
  packet : ∀ w p, data.take bytesused.toNat = w ++ p → [0xFF, 0xD8] <+: w → [0xFF, 0xD9] <:+ w →
    ¬ [0xFF, 0xD9] <:+: p → size.toNat = w.length
  unmarked : ¬ [0xFF, 0xD8] <+: data.take bytesused.toNat ∨
    ¬ [0xFF, 0xD9] <:+: data.take bytesused.toNat → size = bytesused
  again : Reads size.toNat (jpegPayloadSize (some data) size) size

/-- **JPEG padding is trimmed exactly**, and only used bytes are read. -/
theorem padding_trimmed_exactly (data : List UInt8) (bytesused : UInt64)
    (h : bytesused.toNat ≤ data.length) :
    ∃ size, Reads bytesused.toNat (jpegPayloadSize (some data) bytesused) size ∧
      Trims data bytesused size := by
  refine ⟨payloadSize data bytesused, jpegPayloadSize_reads h, ?_⟩
  have hle := payloadSize_le data bytesused
  refine ⟨hle, fun w p hused hstart hend hpadding =>
    payloadSize_packet hused h hstart hend hpadding, payloadSize_unmarked, ?_⟩
  have hagain := jpegPayloadSize_reads (Nat.le_trans (UInt64.le_iff_toNat_le.mp hle) h)
  rw [payloadSize_idempotent] at hagain
  exact hagain

/-- Two bytes of padding, the first of which continues the last byte of the packet. -/
theorem padding_trimmed_exactly_seam :
    ∃ size, Reads 8 (jpegPayloadSize (some [0xFF, 0xD8, 0x01, 0xFF, 0xFF, 0xD9, 0xD9, 0xFF]) 8)
        size ∧
      Trims [0xFF, 0xD8, 0x01, 0xFF, 0xFF, 0xD9, 0xD9, 0xFF] 8 size :=
  padding_trimmed_exactly _ 8 (by decide)

end PhysicalAiRuntime.MjpegCam
