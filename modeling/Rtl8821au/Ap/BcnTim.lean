import Mathlib.Data.Finset.Basic
import Mathlib.Tactic.IntervalCases
import Rtl8821au.Lib.Buffer
import Rtl8821au.Lib.Elements
import Rtl8821au.Lib.Run
import Rtl8821au.Xmit.Queues

/-!
# The traffic indication map of the beacon

`update_BCNTIM` (`rtw_ap.c`, lines 100–221) writes the stations with buffered traffic,
which the power-save code records in the 16 bits of `tim_bitmap`, into the element list
of the beacon: in the place of the TIM element if there is one, else behind a head of SSID,
rates and 3 bytes that it takes for the DS Parameter Set.

The receiver's reading of the element is `timBit` and `timGroup`. `set_tx_beacon_cmd`,
which sends a copy of the beacon, is left out. `BIT(32)` is undefined in C; here it is 0, as
for every id that `tim_bitmap` has no bit for.

Results:
* `recorded_getLsbD`: what `tim_bitmap` holds after any run of the power-save code.
* `timData_decodes_iff`: when the encoded map is the recorded one.
* `updateBcnTim_take`: what the element list is after the update.
* `updateBcnTim_truthful_iff`: when the beacon tells the truth.
-/

namespace Rtl8821au.Ap

open Buffer Elements Run
open Recv (Bytes)
open Xmit (bit)

/-! ## Recording -/

/-- A station, or group traffic as id 0, gets its first buffered frame or loses its last. -/
inductive TimOp where
  | buffer (aid : ℕ)
  | drain (aid : ℕ)
  deriving DecidableEq, Repr

/-- `tim_bitmap |= BIT(aid)` and `tim_bitmap &= ~BIT(aid)` (`rtw_xmit.c`, lines 2301, 2359,
    2581, 2593 and 2690). -/
def recordStep (tim : BitVec 16) : TimOp → BitVec 16
  | .buffer aid => tim ||| bit aid
  | .drain aid => tim &&& ~~~bit aid

/-- Who has buffered traffic. -/
def bufferedStep (s : Finset ℕ) : TimOp → Finset ℕ
  | .buffer aid => insert aid s
  | .drain aid => s.erase aid

def recorded (ops : List TimOp) : BitVec 16 := run recordStep 0 ops

def buffered (ops : List TimOp) : Finset ℕ := run bufferedStep ∅ ops

/-! ## Model of the C code -/

/-- `MAX_IE_SZ` (`wlan_bssdef.h`, line 24). -/
def maxIeSz : ℕ := 768

/-- `_FIXED_IE_LENGTH_`, which is `_BEACON_IE_OFFSET_` (`wifi.h`, lines 535–538). -/
def fixedIeLength : ℕ := 12

/-- `_SSID_IE_`, `_SUPPORTEDRATES_IE_` and `_TIM_IE_`. -/
def ssidIe : UInt8 := 0

def supportedratesIe : UInt8 := 1

def timIe : UInt8 := 5

/-- `IEs` and `IELength` of `WLAN_BSSID_EX`. -/
structure BcnIes where
  ies : Bytes
  ieLength : ℕ
  ies_length : ies.length = maxIeSz

/-- `rtw_get_ie` (`rtw_ieee80211.c`, lines 227–258) behind the test of `limit`: where the
    element is and its length. Every round passes two bytes at least, so `limit` rounds are
    enough. -/
def rtwGetIeLoop (pbuf : Bytes) (index : UInt8) (limit : ℕ) :
    (fuel p i : ℕ) → Option (ℕ × ℕ)
  | 0, _, _ => none
  | fuel + 1, p, i =>
    let tmp := (pbuf.getD (p + 1) 0).toNat
    if pbuf.getD p 0 = index then some (p, tmp)
    else if i + (tmp + 2) ≥ limit then none
    else rtwGetIeLoop pbuf index limit fuel (p + (tmp + 2)) (i + (tmp + 2))

/-- The search in the elements of a beacon. -/
def BcnIes.rtwGetIe (n : BcnIes) (index : UInt8) : Option (ℕ × ℕ) :=
  let limit := n.ieLength - fixedIeLength
  rtwGetIeLoop n.ies index limit limit fixedIeLength 0

/-- `offset` where no TIM element is found (lines 142–157): the head of SSID, rates and
    3 bytes for the DS Parameter Set. -/
def BcnIes.headLen (n : BcnIes) : ℕ :=
  let len (index : UInt8) : ℕ := (n.rtwGetIe index).elim 0 fun ie => ie.2 + 2
  fixedIeLength + len ssidIe + len supportedratesIe + 3

/-- Where the element goes, and how many bytes it replaces (lines 123–163). -/
def BcnIes.timPlace (n : BcnIes) : ℕ × ℕ :=
  match n.rtwGetIe timIe with
  | some (p, len) => if len > 0 then (p, len + 2) else (n.headLen, 0)
  | none => (n.headLen, 0)

/-- `remainder_ielen`, an unsigned difference. -/
def BcnIes.remainderIelen (n : BcnIes) : ℕ :=
  (n.ieLength + 2 ^ 33 - n.timPlace.1 - n.timPlace.2) % 2 ^ 32

/-- The bytes of `tim_bitmap_le`. -/
def timLow (tim : BitVec 16) : UInt8 := UInt8.ofBitVec (tim.setWidth 8)

def timHigh (tim : BitVec 16) : UInt8 := UInt8.ofBitVec ((tim >>> 8).setWidth 8)

/-- The partial virtual bitmap (lines 190–206). -/
def timPvb (tim : BitVec 16) : Bytes :=
  if tim &&& 0xff00#16 ≠ 0 ∧ tim &&& 0x00fe#16 ≠ 0 then [timLow tim, timHigh tim]
  else if tim &&& 0x00fe#16 ≠ 0 then [timLow tim]
  else if tim &&& 0xff00#16 ≠ 0 then [timHigh tim]
  else [timLow tim]

/-- DTIM count, DTIM period, bitmap control and the bitmap (lines 182–206). -/
def timData (tim : BitVec 16) : Bytes :=
  0 :: 1 :: (if tim &&& bit 0 ≠ 0 then 1 else 0) :: timPvb tim

/-- What is written from `dst_ie` on (lines 173–206). -/
def timBytes (tim : BitVec 16) : Bytes :=
  timIe :: (if tim &&& 0xff00#16 ≠ 0 ∧ tim &&& 0x00fe#16 ≠ 0 then 5 else 4) :: timData tim

/-- `update_BCNTIM`; `rtwMalloc` says which sizes can be had. A byte that falls behind
    `IEs` is no part of the list. -/
def updateBcnTim (rtwMalloc : ℕ → Bool) (tim : BitVec 16) (n : BcnIes) : BcnIes :=
  let offset := n.timPlace.1
  let remainder := (n.ies.drop (offset + n.timPlace.2)).take n.remainderIelen
  let dst := offset + (timBytes tim).length
  let ies := overwrite n.ies offset (timBytes tim)
  { ies :=
      if n.remainderIelen > 0 ∧ rtwMalloc n.remainderIelen then overwrite ies dst remainder
      else ies
    ieLength := (dst + n.remainderIelen) % 2 ^ 32
    ies_length := by split <;> simp [ies, n.ies_length] }

/-! ## The receiver -/

/-- The bit of a station in a TIM element: the bitmap begins with octet `2 · offset` of the
    full map, where the offset is the upper 7 bits of the bitmap control. -/
def timBit (data : Bytes) (aid : ℕ) : Bool :=
  let n1 := 2 * ((data.getD 2 0).toNat / 2)
  n1 ≤ aid / 8 && ((data.drop 3).getD (aid / 8 - n1) 0).toNat.testBit (aid % 8)

/-- The group bit is the lowest bit of the bitmap control. -/
def timGroup (data : Bytes) : Bool := (data.getD 2 0).toNat.testBit 0

/-- The receiver finds the stations of `s`, and the group bit as id 0. -/
def Decodes (data : Bytes) (s : Finset ℕ) : Prop :=
  (∀ aid, 0 < aid → (timBit data aid = true ↔ aid ∈ s)) ∧ (timGroup data = true ↔ 0 ∈ s)

/-- A well-formed element list has one TIM element at most, which is not empty. -/
structure WellFormed (els : List Elem) : Prop where
  unique : (els.filter (·.id = timIe)).length ≤ 1
  filled : ∀ e ∈ els, e.id = timIe → 0 < e.data.length

/-- The beacon holds the fixed fields and the elements. -/
structure Holds (n : BcnIes) (fixed : Bytes) (els : List Elem) : Prop where
  fixed_length : fixed.length = fixedIeLength
  ieLength_eq : n.ieLength = fixedIeLength + (encodeAll els).length
  take_eq : n.ies.take n.ieLength = fixed ++ encodeAll els

/-- The beacon holds the other elements of `els` in their order, and one TIM element
    that decodes to `s`. -/
def Truthful (n : BcnIes) (fixed : Bytes) (els : List Elem) (s : Finset ℕ) : Prop :=
  ∃ els₁ e els₂, els₁ ++ els₂ = els.filter (·.id ≠ timIe) ∧ e.id = timIe ∧
    Decodes e.data s ∧ Holds n fixed (els₁ ++ e :: els₂)

/-! ## The recorded bits -/

theorem bit_getLsbD (aid k : ℕ) (hk : k < 16) : (bit aid).getLsbD k = true ↔ k = aid := by
  rw [bit, BitVec.getLsbD_shiftLeft, BitVec.getLsbD_one]
  simp only [hk, decide_true, Bool.true_and, Bool.and_eq_true, Bool.not_eq_true',
    decide_eq_false_iff_not, decide_eq_true_eq]
  omega

theorem recordStep_getLsbD {tim : BitVec 16} {s : Finset ℕ}
    (h : ∀ k < 16, tim.getLsbD k = true ↔ k ∈ s) (op : TimOp) (k : ℕ) (hk : k < 16) :
    (recordStep tim op).getLsbD k = true ↔ k ∈ bufferedStep s op := by
  have hbit (aid : ℕ) : (bit aid).getLsbD k = true ↔ k = aid := bit_getLsbD aid k hk
  cases op with
  | buffer aid =>
    show (tim ||| bit aid).getLsbD k = true ↔ k ∈ insert aid s
    rw [BitVec.getLsbD_or, Bool.or_eq_true, h k hk, hbit, Finset.mem_insert, or_comm]
  | drain aid =>
    show (tim &&& ~~~bit aid).getLsbD k = true ↔ k ∈ s.erase aid
    rw [BitVec.getLsbD_and, BitVec.getLsbD_not, Bool.and_eq_true, h k hk, Finset.mem_erase,
      and_comm, ne_eq, ← hbit aid]
    simp [hk]

/-- `tim_bitmap` holds the set, as far as its bits go. -/
theorem recorded_getLsbD (ops : List TimOp) (k : ℕ) (hk : k < 16) :
    (recorded ops).getLsbD k = true ↔ k ∈ buffered ops := by
  have hrun : ∀ (tim : BitVec 16) (s : Finset ℕ),
      (∀ k < 16, tim.getLsbD k = true ↔ k ∈ s) →
      ∀ k < 16, (run recordStep tim ops).getLsbD k = true ↔ k ∈ run bufferedStep s ops := by
    induction ops with
    | nil => exact fun _ _ h => h
    | cons op ops ih => exact fun _ _ h => ih _ _ (recordStep_getLsbD h op)
  exact hrun 0 ∅ (fun k _ => by simp) k hk

/-! ## The encoded map -/

variable {tim : BitVec 16}

/-- A mask tests the bits in it. -/
theorem and_mask_ne_zero (mask : BitVec 16) :
    tim &&& mask ≠ 0 ↔ ∃ k < 16, mask.getLsbD k = true ∧ tim.getLsbD k = true := by
  constructor
  · intro hne
    by_contra hnone
    refine hne (BitVec.eq_of_getLsbD_eq fun k hk => ?_)
    by_contra hset
    have hbits : tim.getLsbD k = true ∧ mask.getLsbD k = true := by simpa using hset
    exact hnone ⟨k, hk, hbits.2, hbits.1⟩
  · rintro ⟨k, hk, hmask, hset⟩ hzero
    have := congrArg (BitVec.getLsbD · k) hzero
    simp [hmask, hset] at this

/-- The test for a station in the low byte. -/
theorem low_ne_zero : tim &&& 0x00fe#16 ≠ 0 ↔ ∃ k, 0 < k ∧ k < 8 ∧ tim.getLsbD k = true := by
  have hmask : ∀ k < 16, (0x00fe#16).getLsbD k = decide (0 < k ∧ k < 8) := by decide
  rw [and_mask_ne_zero]
  constructor
  · rintro ⟨k, hk, hm, hset⟩
    rw [hmask k hk, decide_eq_true_iff] at hm
    exact ⟨k, hm.1, hm.2, hset⟩
  · rintro ⟨k, h0, h8, hset⟩
    exact ⟨k, by omega, by rw [hmask k (by omega), decide_eq_true_iff]; omega, hset⟩

/-- The test for a station in the high byte. -/
theorem high_ne_zero : tim &&& 0xff00#16 ≠ 0 ↔ ∃ k, 8 ≤ k ∧ k < 16 ∧ tim.getLsbD k = true := by
  have hmask : ∀ k < 16, (0xff00#16).getLsbD k = decide (8 ≤ k) := by decide
  rw [and_mask_ne_zero]
  constructor
  · rintro ⟨k, hk, hm, hset⟩
    rw [hmask k hk, decide_eq_true_iff] at hm
    exact ⟨k, hm, hk, hset⟩
  · rintro ⟨k, h8, hk, hset⟩
    exact ⟨k, hk, by rw [hmask k hk, decide_eq_true_iff]; omega, hset⟩

theorem timLow_testBit (k : ℕ) :
    (timLow tim).toNat.testBit k = (decide (k < 8) && tim.getLsbD k) := by
  show ((tim.setWidth 8).toNat).testBit k = _
  rw [BitVec.testBit_toNat, BitVec.getLsbD_setWidth]

theorem timHigh_testBit (k : ℕ) :
    (timHigh tim).toNat.testBit k = (decide (k < 8) && tim.getLsbD (k + 8)) := by
  show (((tim >>> 8).setWidth 8).toNat).testBit k = _
  rw [BitVec.testBit_toNat, BitVec.getLsbD_setWidth, BitVec.getLsbD_ushiftRight, Nat.add_comm]

/-- With a bitmap control of 0 or 1 the bitmap begins with octet 0. -/
theorem timBit_cons (x y c : UInt8) (pvb : Bytes) (hc : c.toNat < 2) (aid : ℕ) :
    timBit (x :: y :: c :: pvb) aid = (pvb.getD (aid / 8) 0).toNat.testBit (aid % 8) := by
  have : c.toNat / 2 = 0 := by omega
  simp [timBit, this]

theorem group_ne_zero : tim &&& bit 0 ≠ 0 ↔ tim.getLsbD 0 = true := by
  rw [and_mask_ne_zero]
  constructor
  · rintro ⟨k, hk, hbit, hset⟩
    rwa [(bit_getLsbD 0 k hk).mp hbit] at hset
  · exact fun hset => ⟨0, by decide, by decide, hset⟩

theorem timGroup_timData : timGroup (timData tim) = true ↔ tim.getLsbD 0 = true := by
  rw [← group_ne_zero]
  show ((if tim &&& bit 0 ≠ 0 then 1 else 0 : UInt8).toNat.testBit 0 = true) ↔ _
  split_ifs with h
  · exact iff_of_true (by decide) h
  · exact iff_of_false (by decide) h

theorem timBit_timData (aid : ℕ) :
    timBit (timData tim) aid = ((timPvb tim).getD (aid / 8) 0).toNat.testBit (aid % 8) := by
  refine timBit_cons _ _ _ _ ?_ aid
  split_ifs <;> decide

/-- Both bytes are there. -/
theorem timBit_both (hhigh : tim &&& 0xff00#16 ≠ 0) (hlow : tim &&& 0x00fe#16 ≠ 0) (aid : ℕ) :
    timBit (timData tim) aid = tim.getLsbD aid := by
  rw [timBit_timData, timPvb, if_pos ⟨hhigh, hlow⟩]
  obtain h | h | h : aid / 8 = 0 ∨ aid / 8 = 1 ∨ 2 ≤ aid / 8 := by omega
  · have haid : aid % 8 = aid := by omega
    have h8 : aid < 8 := by omega
    simp [h, haid, timLow_testBit, h8]
  · have haid : aid % 8 + 8 = aid := by omega
    have h8 : aid % 8 < 8 := by omega
    simp [h, haid, timHigh_testBit, h8]
  · rw [List.getD_eq_default _ _ h, BitVec.getLsbD_of_ge _ _ (by omega)]
    simp

/-- One byte is read as the low byte. -/
theorem timBit_one {b : UInt8} (hpvb : timPvb tim = [b]) (aid : ℕ) :
    timBit (timData tim) aid = (decide (aid < 8) && b.toNat.testBit aid) := by
  rw [timBit_timData, hpvb]
  rcases Nat.lt_or_ge aid 8 with h | h
  · have hdiv : aid / 8 = 0 := by omega
    have haid : aid % 8 = aid := by omega
    simp [hdiv, haid, h]
  · have h1 : 1 ≤ aid / 8 := by omega
    rw [List.getD_eq_default _ _ h1]
    simp [h]

/-- The map can be encoded: all ids have a bit, and a station in the high byte comes with
    one in the low byte. -/
def Narrow (s : Finset ℕ) : Prop :=
  (∀ aid ∈ s, aid < 16) ∧ ((∃ aid ∈ s, 8 ≤ aid) → ∃ aid ∈ s, 0 < aid ∧ aid < 8)

section

variable {s : Finset ℕ} (htim : ∀ k < 16, tim.getLsbD k = true ↔ k ∈ s)

include htim

theorem low_iff : tim &&& 0x00fe#16 ≠ 0 ↔ ∃ aid ∈ s, 0 < aid ∧ aid < 8 := by
  rw [low_ne_zero]
  constructor
  · exact fun ⟨k, h0, h8, hset⟩ => ⟨k, (htim k (by omega)).mp hset, h0, h8⟩
  · exact fun ⟨k, hk, h0, h8⟩ => ⟨k, h0, h8, (htim k (by omega)).mpr hk⟩

theorem high_iff : tim &&& 0xff00#16 ≠ 0 ↔ ∃ aid ∈ s, 8 ≤ aid ∧ aid < 16 := by
  rw [high_ne_zero]
  constructor
  · exact fun ⟨k, h8, hk, hset⟩ => ⟨k, (htim k hk).mp hset, h8, hk⟩
  · exact fun ⟨k, hk, h8, h16⟩ => ⟨k, h8, h16, (htim k h16).mpr hk⟩

/-- Two bytes hold the whole `tim_bitmap`. -/
theorem decodes_both (hhigh : tim &&& 0xff00#16 ≠ 0) (hlow : tim &&& 0x00fe#16 ≠ 0) :
    (∀ aid, 0 < aid → (timBit (timData tim) aid = true ↔ aid ∈ s)) ↔ ∀ aid ∈ s, aid < 16 := by
  simp only [timBit_both hhigh hlow]
  constructor
  · intro h aid haid
    rcases Nat.eq_zero_or_pos aid with rfl | hpos
    · decide
    · exact BitVec.lt_of_getLsbD ((h aid hpos).mpr haid)
  · intro h aid _
    exact ⟨fun hset => (htim aid (BitVec.lt_of_getLsbD hset)).mp hset,
      fun haid => (htim aid (h aid haid)).mpr haid⟩

/-- Without a station in the high byte the low byte holds the map. -/
theorem decodes_low (hhigh : ¬tim &&& 0xff00#16 ≠ 0) :
    (∀ aid, 0 < aid → (timBit (timData tim) aid = true ↔ aid ∈ s)) ↔ ∀ aid ∈ s, aid < 8 := by
  have hpvb : timPvb tim = [timLow tim] := by simp [timPvb, not_not.mp hhigh]
  have hbit (aid : ℕ) : timBit (timData tim) aid = true ↔ aid < 8 ∧ tim.getLsbD aid = true := by
    rw [timBit_one hpvb, timLow_testBit]
    simp
  simp only [hbit]
  constructor
  · intro h aid haid
    rcases Nat.eq_zero_or_pos aid with rfl | hpos
    · decide
    · exact ((h aid hpos).mpr haid).1
  · intro h aid _
    refine ⟨fun hset => (htim aid (by omega)).mp hset.2, fun haid => ?_⟩
    have h8 : aid < 8 := h aid haid
    exact ⟨h8, (htim aid (by omega)).mpr haid⟩

/-- A high byte alone is read as the low one, so its stations are missed. -/
theorem not_decodes_high (hhigh : tim &&& 0xff00#16 ≠ 0) (hlow : ¬tim &&& 0x00fe#16 ≠ 0) :
    ¬∀ aid, 0 < aid → (timBit (timData tim) aid = true ↔ aid ∈ s) := by
  intro h
  have hpvb : timPvb tim = [timHigh tim] := by
    rw [timPvb, if_neg fun h => hlow h.2, if_neg hlow, if_pos hhigh]
  obtain ⟨k, hk, h8, -⟩ := (high_iff htim).mp hhigh
  have hbit := (h k (by omega)).mpr hk
  rw [timBit_one hpvb, Bool.and_eq_true, decide_eq_true_iff] at hbit
  omega

theorem timData_decodes_iff : Decodes (timData tim) s ↔ Narrow s := by
  have hgroup : timGroup (timData tim) = true ↔ 0 ∈ s :=
    timGroup_timData.trans (htim 0 (by decide))
  rw [Decodes, and_iff_left hgroup]
  by_cases hhigh : tim &&& 0xff00#16 ≠ 0
  · by_cases hlow : tim &&& 0x00fe#16 ≠ 0
    · rw [decodes_both htim hhigh hlow, Narrow]
      exact (and_iff_left fun _ => (low_iff htim).mp hlow).symm
    · refine iff_of_false (not_decodes_high htim hhigh hlow) fun h => ?_
      obtain ⟨k, hk, h8, -⟩ := (high_iff htim).mp hhigh
      exact hlow ((low_iff htim).mpr (h.2 ⟨k, hk, h8⟩))
  · rw [decodes_low htim hhigh, Narrow]
    have hno : ∀ aid ∈ s, 8 ≤ aid → 16 ≤ aid := fun aid haid h8 => by
      by_contra h16
      exact hhigh ((high_iff htim).mpr ⟨aid, haid, h8, by omega⟩)
    constructor
    · intro h
      refine ⟨fun aid haid => Nat.lt_trans (h aid haid) (by decide), ?_⟩
      rintro ⟨aid, haid, h8⟩
      exact absurd (h aid haid) (by omega)
    · intro h aid haid
      by_contra h8
      have := h.1 aid haid
      have := hno aid haid (by omega)
      omega

end

/-! ## The element -/

/-- The element that `update_BCNTIM` writes. -/
def timElem (tim : BitVec 16) : Elem where
  id := timIe
  data := timData tim
  length_lt := by
    have : (timPvb tim).length ≤ 2 := by unfold timPvb; split_ifs <;> simp
    show (timPvb tim).length + 3 < 256
    omega

theorem timElem_encode (tim : BitVec 16) : (timElem tim).encode = timBytes tim := by
  have hlen : UInt8.ofNat (timData tim).length =
      if tim &&& 0xff00#16 ≠ 0 ∧ tim &&& 0x00fe#16 ≠ 0 then 5 else 4 := by
    show UInt8.ofNat ((timPvb tim).length + 3) = _
    unfold timPvb
    split_ifs <;> rfl
  show timIe :: UInt8.ofNat (timData tim).length :: timData tim = timBytes tim
  rw [hlen, timBytes]

/-- The two forms of the element. -/
theorem timBytes_eq (tim : BitVec 16) : ∃ c : UInt8, c.toNat < 2 ∧
    ((∃ b, timBytes tim = [5, 4, 0, 1, c, b]) ∨
      tim &&& 0x00fe#16 ≠ 0 ∧ ∃ b b', timBytes tim = [5, 5, 0, 1, c, b, b']) := by
  refine ⟨if tim &&& bit 0 ≠ 0 then 1 else 0, by split_ifs <;> decide, ?_⟩
  by_cases hboth : tim &&& 0xff00#16 ≠ 0 ∧ tim &&& 0x00fe#16 ≠ 0
  · refine .inr ⟨hboth.2, timLow tim, timHigh tim, ?_⟩
    rw [timBytes, timData, timPvb, if_pos hboth, if_pos hboth]
    rfl
  · left
    rw [timBytes, timData, timPvb, if_neg hboth, if_neg hboth]
    split_ifs <;> exact ⟨_, rfl⟩

/-- A first octet of 0 or 1 indicates no station from 1 to 7. -/
theorem timBit_low_octet (x y c b : UInt8) (pvb : Bytes) (hc : c.toNat < 2) (hb : b.toNat < 2)
    {aid : ℕ} (h0 : 0 < aid) (h8 : aid < 8) : timBit (x :: y :: c :: b :: pvb) aid = false := by
  have hdiv : aid / 8 = 0 := by omega
  have hmod : aid % 8 = aid := by omega
  rw [timBit_cons _ _ _ _ hc, hdiv, hmod]
  have hle : 2 ^ 1 ≤ 2 ^ aid := Nat.pow_le_pow_right (by decide) h0
  exact Nat.testBit_lt_two_pow (by show b.toNat < _; omega)

/-- A rotation of the element that is an element with the same reading is the element. -/
theorem rotation_timBytes {s : Finset ℕ} (htim : ∀ k < 16, tim.getLsbD k = true ↔ k ∈ s)
    {e : Elem} (hid : e.id = timIe) (hdec : Decodes e.data s) {r : ℕ}
    (hr : r < (timBytes tim).length)
    (h : e.encode = (timBytes tim).drop r ++ (timBytes tim).take r) : r = 0 := by
  -- the id and the length stand at the front of the rotation
  have hlen : e.data.length + 2 = (timBytes tim).length := by
    have := congrArg List.length h
    rw [Elem.encode_length, List.length_append, List.length_drop, List.length_take] at this
    omega
  have hfront : timIe :: UInt8.ofNat ((timBytes tim).length - 2) :: e.data =
      (timBytes tim).drop r ++ (timBytes tim).take r := by
    rw [← h, ← hlen, Nat.add_sub_cancel, ← hid]
    rfl
  by_contra hpos
  obtain ⟨c, hc, ⟨b, hb⟩ | ⟨hlow, b, b', hb⟩⟩ := timBytes_eq tim
  · have hc5 : (5 : UInt8) ≠ c := by rintro rfl; exact absurd hc (by decide)
    rw [hb] at hfront hr
    have hr : r < 6 := hr
    interval_cases r <;> simp [timIe, hc5] at hfront hpos
  · have hc5 : (5 : UInt8) ≠ c := by rintro rfl; exact absurd hc (by decide)
    obtain ⟨aid, haid, h0, h8⟩ := (low_iff htim).mp hlow
    have hset := (hdec.1 aid h0).mpr haid
    rw [hb] at hfront hr
    have hr : r < 7 := hr
    interval_cases r <;> simp [timIe, hc5] at hfront hpos
    · rw [hfront.2.2, timBit_low_octet _ _ _ _ _ (by decide) (by decide) h0 h8] at hset
      exact absurd hset (by decide)
    · rw [hfront.2, timBit_low_octet _ _ _ _ _ (by decide) hc h0 h8] at hset
      exact absurd hset (by decide)

/-! ## The search -/

/-- The two bytes in front of an element, wherever it stands. -/
theorem getD_elem {pre post : Bytes} {e : Elem} :
    (pre ++ e.encode ++ post).getD pre.length 0 = e.id ∧
      ((pre ++ e.encode ++ post).getD (pre.length + 1) 0).toNat = e.data.length := by
  rw [List.append_assoc, getD_append_right (Nat.le_refl _),
    getD_append_right (Nat.le_add_right _ _), Nat.sub_self, Nat.add_sub_cancel_left]
  exact ⟨rfl, e.toNat_length⟩

theorem rtwGetIeLoop_none {index : UInt8} {limit : ℕ} {els : List Elem}
    (hels : ∀ e ∈ els, e.id ≠ index) (pre post : Bytes) (fuel i : ℕ) (hi : i < limit)
    (hlim : i + (encodeAll els).length = limit) :
    rtwGetIeLoop (pre ++ encodeAll els ++ post) index limit fuel pre.length i = none := by
  induction els generalizing pre fuel i with
  | nil => simp at hlim; omega
  | cons e els ih =>
    rcases fuel with _ | fuel
    · rfl
    rw [encodeAll_cons, List.length_append, Elem.encode_length] at hlim
    have hsplit : pre ++ encodeAll (e :: els) ++ post =
        pre ++ e.encode ++ (encodeAll els ++ post) := by simp
    obtain ⟨hid, hlen⟩ := @getD_elem pre (encodeAll els ++ post) e
    rw [hsplit, rtwGetIeLoop, hid, hlen, if_neg (hels e List.mem_cons_self)]
    split_ifs with hstop
    · rfl
    · have := ih (fun x hx => hels x (List.mem_cons_of_mem e hx)) (pre ++ e.encode)
        fuel (i + (e.data.length + 2)) (by omega) (by omega)
      rwa [List.length_append, Elem.encode_length, List.append_assoc _ _ post] at this

theorem rtwGetIeLoop_first {index : UInt8} {els₁ els₂ : List Elem} {e : Elem}
    (he : e.id = index) (hels : ∀ x ∈ els₁, x.id ≠ index) (pre post : Bytes) (limit fuel i : ℕ)
    (hlim : i + (encodeAll els₁).length < limit) (hfuel : els₁.length < fuel) :
    rtwGetIeLoop (pre ++ encodeAll (els₁ ++ e :: els₂) ++ post) index limit fuel pre.length i =
      some (pre.length + (encodeAll els₁).length, e.data.length) := by
  induction els₁ generalizing pre fuel i with
  | nil =>
    obtain ⟨fuel, rfl⟩ : ∃ k, fuel = k + 1 := ⟨fuel - 1, by simp at hfuel; omega⟩
    have hsplit : pre ++ encodeAll ([] ++ e :: els₂) ++ post =
        pre ++ e.encode ++ (encodeAll els₂ ++ post) := by simp
    obtain ⟨hid, hlen⟩ := @getD_elem pre (encodeAll els₂ ++ post) e
    rw [hsplit, rtwGetIeLoop, hid, hlen, if_pos he]
    rfl
  | cons x els₁ ih =>
    obtain ⟨fuel, rfl⟩ : ∃ k, fuel = k + 1 := ⟨fuel - 1, by simp at hfuel; omega⟩
    rw [encodeAll_cons, List.length_append, Elem.encode_length] at hlim
    have hsplit : pre ++ encodeAll (x :: els₁ ++ e :: els₂) ++ post =
        pre ++ x.encode ++ (encodeAll (els₁ ++ e :: els₂) ++ post) := by simp
    obtain ⟨hid, hlen⟩ := @getD_elem pre (encodeAll (els₁ ++ e :: els₂) ++ post) x
    rw [hsplit, rtwGetIeLoop, hid, hlen, if_neg (hels x List.mem_cons_self),
      if_neg (by omega)]
    have := ih (fun y hy => hels y (List.mem_cons_of_mem x hy)) (pre ++ x.encode)
      fuel (i + (x.data.length + 2)) (by omega) (by simpa using hfuel)
    rw [List.length_append, Elem.encode_length, List.append_assoc _ _ post] at this
    rw [this, encodeAll_cons, List.length_append, Elem.encode_length, Nat.add_assoc]

theorem length_le_encodeAll (els : List Elem) : 2 * els.length ≤ (encodeAll els).length := by
  induction els with
  | nil => exact Nat.le_refl 0
  | cons e els ih =>
    rw [encodeAll_cons, List.length_append, Elem.encode_length, List.length_cons]
    omega

variable {n : BcnIes} {fixed : Bytes} {els els₁ els₂ : List Elem} {index : UInt8} {e : Elem}

theorem Holds.ies_eq (h : Holds n fixed els) :
    n.ies = fixed ++ encodeAll els ++ n.ies.drop n.ieLength := by
  rw [← h.take_eq, List.take_append_drop]

theorem Holds.ieLength_le (h : Holds n fixed els) : n.ieLength ≤ maxIeSz := by
  have := congrArg List.length h.take_eq
  rw [List.length_take, n.ies_length, List.length_append, h.fixed_length, ← h.ieLength_eq] at this
  omega

theorem Holds.rtwGetIe_none (h : Holds n fixed els) (hels : ∀ e ∈ els, e.id ≠ index) :
    n.rtwGetIe index = none := by
  have hlim : n.ieLength - fixedIeLength = (encodeAll els).length := by
    rw [h.ieLength_eq, Nat.add_sub_cancel_left]
  rcases Nat.eq_zero_or_pos (encodeAll els).length with h0 | hpos
  · simp only [BcnIes.rtwGetIe, hlim, h0]
    rfl
  · have := rtwGetIeLoop_none hels fixed (n.ies.drop n.ieLength)
      (encodeAll els).length 0 hpos (Nat.zero_add _)
    rw [← h.ies_eq, h.fixed_length] at this
    simp only [BcnIes.rtwGetIe, hlim, this]

theorem Holds.rtwGetIe_first (h : Holds n fixed (els₁ ++ e :: els₂)) (he : e.id = index)
    (hels : ∀ x ∈ els₁, x.id ≠ index) :
    n.rtwGetIe index = some (fixedIeLength + (encodeAll els₁).length, e.data.length) := by
  have hlim : n.ieLength - fixedIeLength = (encodeAll (els₁ ++ e :: els₂)).length := by
    rw [h.ieLength_eq, Nat.add_sub_cancel_left]
  have hlen : (encodeAll els₁).length + (e.data.length + 2) + (encodeAll els₂).length =
      (encodeAll (els₁ ++ e :: els₂)).length := by simp [Nat.add_assoc]
  have hcount := length_le_encodeAll els₁
  have := @rtwGetIeLoop_first _ _ els₂ _ he hels fixed (n.ies.drop n.ieLength)
    (encodeAll (els₁ ++ e :: els₂)).length (encodeAll (els₁ ++ e :: els₂)).length 0
    (by omega) (by omega)
  rw [← h.ies_eq, h.fixed_length] at this
  simp only [BcnIes.rtwGetIe, hlim, this]

/-! ## The update -/

/-- The element goes where the list has room for it, and what follows it is backed up, or
    need not be. -/
def Backed (rtwMalloc : ℕ → Bool) (tim : BitVec 16) (n : BcnIes) : Prop :=
  n.timPlace.1 + n.timPlace.2 ≤ n.ieLength ∧
    (n.remainderIelen = 0 ∨ rtwMalloc n.remainderIelen = true ∨
      n.timPlace.2 = (timBytes tim).length)

variable {rtwMalloc : ℕ → Bool}

theorem timBytes_length (tim : BitVec 16) : (timBytes tim).length ≤ 7 := by
  obtain ⟨c, -, ⟨b, hb⟩ | ⟨-, b, b', hb⟩⟩ := timBytes_eq tim <;> simp [hb]

theorem overwrite_eq {mem bs : Bytes} {off : ℕ} (h : off + bs.length ≤ mem.length) :
    overwrite mem off bs = mem.take off ++ bs ++ mem.drop (off + bs.length) := by
  have hbs : bs.take (mem.length - off) = bs := List.take_of_length_le (by omega)
  rw [overwrite, hbs, List.append_assoc]

section

variable (hn : n.ieLength ≤ maxIeSz) (hb : Backed rtwMalloc tim n)

include hn hb

theorem remainderIelen_eq :
    n.remainderIelen = n.ieLength - (n.timPlace.1 + n.timPlace.2) := by
  have hle : n.ieLength ≤ 768 := hn
  have := hb.1
  unfold BcnIes.remainderIelen
  omega

theorem updateBcnTim_ieLength : (updateBcnTim rtwMalloc tim n).ieLength =
    n.timPlace.1 + (timBytes tim).length + (n.ieLength - (n.timPlace.1 + n.timPlace.2)) := by
  have hle : n.ieLength ≤ 768 := hn
  have hlen := timBytes_length tim
  have := hb.1
  show (n.timPlace.1 + (timBytes tim).length + n.remainderIelen) % 2 ^ 32 = _
  rw [remainderIelen_eq hn hb]
  omega

/-- The list after the update, if it fits: the new element in the place of the bytes that
    it replaces. -/
theorem updateBcnTim_take (hfit : (updateBcnTim rtwMalloc tim n).ieLength ≤ maxIeSz) :
    (updateBcnTim rtwMalloc tim n).ies.take (updateBcnTim rtwMalloc tim n).ieLength =
      (n.ies.take n.ieLength).take n.timPlace.1 ++ timBytes tim ++
        (n.ies.take n.ieLength).drop (n.timPlace.1 + n.timPlace.2) := by
  have hlen : n.ies.length = 768 := n.ies_length
  have hn' : n.ieLength ≤ 768 := hn
  have hrem := remainderIelen_eq hn hb
  rw [updateBcnTim_ieLength hn hb, ← hrem] at hfit ⊢
  have hfit' : n.timPlace.1 + (timBytes tim).length + n.remainderIelen ≤ 768 := hfit
  obtain ⟨hle, hback⟩ := hb
  have htail : (n.ies.take n.ieLength).drop (n.timPlace.1 + n.timPlace.2) =
      (n.ies.drop (n.timPlace.1 + n.timPlace.2)).take n.remainderIelen := by
    rw [List.drop_take, hrem]
  rw [htail, List.take_take, Nat.min_eq_left (by omega)]
  have hmem : overwrite n.ies n.timPlace.1 (timBytes tim) =
      n.ies.take n.timPlace.1 ++ timBytes tim ++
        n.ies.drop (n.timPlace.1 + (timBytes tim).length) := overwrite_eq (by omega)
  have hhead : (n.ies.take n.timPlace.1 ++ timBytes tim).length =
      n.timPlace.1 + (timBytes tim).length := by
    rw [List.length_append, List.length_take]
    omega
  have hremLen : ((n.ies.drop (n.timPlace.1 + n.timPlace.2)).take n.remainderIelen).length =
      n.remainderIelen := by
    rw [List.length_take, List.length_drop]
    omega
  unfold updateBcnTim
  by_cases hcopy : n.remainderIelen > 0 ∧ rtwMalloc n.remainderIelen = true
  · -- the remainder is copied back behind the element
    simp only [if_pos hcopy, hmem]
    rw [overwrite_eq (by rw [hremLen, ← hmem, overwrite_length]; omega), ← hhead,
      List.take_left]
    exact List.take_left' (by rw [List.length_append, hremLen])
  · simp only [if_neg hcopy, hmem]
    rw [← hhead, List.take_append, Nat.add_sub_cancel_left, List.take_of_length_le (by omega),
      hhead]
    rcases hback with h0 | hok | hsame
    · rw [h0, List.take_zero, List.take_zero]
    · have : n.remainderIelen = 0 := by
        by_contra hne
        exact hcopy ⟨Nat.pos_of_ne_zero hne, hok⟩
      rw [this, List.take_zero, List.take_zero]
    · rw [hsame]

end

/-! ## What the receiver finds -/

/-- The new list fits into `IEs`. -/
def Room (tim : BitVec 16) (els : List Elem) : Prop :=
  fixedIeLength + (encodeAll (els.filter (·.id ≠ timIe))).length + (timBytes tim).length ≤ maxIeSz

/-- Without a TIM element an element begins behind the assumed head; or what stands there
    up to a later element are copies of the new element, so that the bytes are the same. -/
def Placed (tim : BitVec 16) (n : BcnIes) (fixed : Bytes) (els : List Elem) : Prop :=
  (∃ e ∈ els, e.id = timIe) ∨
    ∃ els₁ els₂, els = els₁ ++ els₂ ∧ n.headLen ≤ fixedIeLength + (encodeAll els₁).length ∧
      (fixed ++ encodeAll els₁).drop n.headLen ++ timBytes tim =
        timBytes tim ++ (fixed ++ encodeAll els₁).drop n.headLen

theorem filter_tim (he : e.id = timIe) (h₁ : ∀ x ∈ els₁, x.id ≠ timIe)
    (h₂ : ∀ x ∈ els₂, x.id ≠ timIe) :
    (els₁ ++ e :: els₂).filter (·.id = timIe) = [e] ∧
      (els₁ ++ e :: els₂).filter (·.id ≠ timIe) = els₁ ++ els₂ := by
  constructor
  · rw [List.filter_append, List.filter_cons_of_pos (by simpa using he),
      List.filter_eq_nil_iff.mpr (by simpa using h₁),
      List.filter_eq_nil_iff.mpr (by simpa using h₂)]
    rfl
  · rw [List.filter_append, List.filter_cons_of_neg (by simpa using he),
      List.filter_eq_self.mpr (by simpa using h₁), List.filter_eq_self.mpr (by simpa using h₂)]

theorem WellFormed.others (h : WellFormed (els₁ ++ e :: els₂)) (he : e.id = timIe) :
    (∀ x ∈ els₁, x.id ≠ timIe) ∧ ∀ x ∈ els₂, x.id ≠ timIe := by
  have hle := h.unique
  rw [List.filter_append, List.filter_cons_of_pos (by simpa using he), List.length_append,
    List.length_cons] at hle
  have hnil {l : List Elem} (hl : (l.filter (·.id = timIe)).length = 0) :
      ∀ x ∈ l, x.id ≠ timIe := by
    have := List.filter_eq_nil_iff.mp (List.eq_nil_of_length_eq_zero hl)
    simpa using this
  exact ⟨hnil (by omega), hnil (by omega)⟩

theorem Holds.timPlace_present (h : Holds n fixed (els₁ ++ e :: els₂))
    (hw : WellFormed (els₁ ++ e :: els₂)) (he : e.id = timIe) :
    n.timPlace = (fixedIeLength + (encodeAll els₁).length, e.data.length + 2) := by
  have hpos := hw.filled e (by simp) he
  rw [BcnIes.timPlace, h.rtwGetIe_first he (hw.others he).1]
  exact if_pos hpos

theorem Holds.timPlace_absent (h : Holds n fixed els) (hels : ∀ x ∈ els, x.id ≠ timIe) :
    n.timPlace = (n.headLen, 0) := by
  rw [BcnIes.timPlace, h.rtwGetIe_none hels]

/-- When the beacon holds a given list after the update. -/
theorem holds_update_iff (h : Holds n fixed els) (hb : Backed rtwMalloc tim n)
    (els' : List Elem) :
    Holds (updateBcnTim rtwMalloc tim n) fixed els' ↔
      (updateBcnTim rtwMalloc tim n).ieLength ≤ maxIeSz ∧
        (fixed ++ encodeAll els).take n.timPlace.1 ++ timBytes tim ++
          (fixed ++ encodeAll els).drop (n.timPlace.1 + n.timPlace.2) =
            fixed ++ encodeAll els' := by
  have hn := h.ieLength_le
  constructor
  · intro h'
    have htake := updateBcnTim_take hn hb h'.ieLength_le
    rw [h'.take_eq, h.take_eq] at htake
    exact ⟨h'.ieLength_le, htake.symm⟩
  · rintro ⟨hfit, heq⟩
    have hlen := congrArg List.length heq
    have hle := hb.1
    have hsum := h.ieLength_eq
    simp only [List.length_append, List.length_take, List.length_drop, h.fixed_length,
      ← hsum] at hlen
    refine ⟨h.fixed_length, ?_, ?_⟩
    · rw [updateBcnTim_ieLength hn hb]
      omega
    · rw [updateBcnTim_take hn hb hfit, h.take_eq, heq]

theorem update_fits_iff (h : Holds n fixed els) (hb : Backed rtwMalloc tim n)
    (hroom : n.timPlace.2 + (encodeAll (els.filter (·.id ≠ timIe))).length =
      (encodeAll els).length) :
    (updateBcnTim rtwMalloc tim n).ieLength ≤ maxIeSz ↔ Room tim els := by
  rw [updateBcnTim_ieLength h.ieLength_le hb, Room]
  have hle := hb.1
  have hsum := h.ieLength_eq
  omega

/-- The element is replaced in its place. -/
theorem truthful_present {s : Finset ℕ} (htim : ∀ k < 16, tim.getLsbD k = true ↔ k ∈ s)
    (h : Holds n fixed (els₁ ++ e :: els₂)) (hw : WellFormed (els₁ ++ e :: els₂))
    (he : e.id = timIe) (hb : Backed rtwMalloc tim n) :
    Truthful (updateBcnTim rtwMalloc tim n) fixed (els₁ ++ e :: els₂) s ↔
      Narrow s ∧ Room tim (els₁ ++ e :: els₂) := by
  obtain ⟨h₁, h₂⟩ := hw.others he
  have hfilter := (filter_tim he h₁ h₂).2
  have hplace := h.timPlace_present hw he
  have hfits := update_fits_iff h hb (by
    rw [hplace, hfilter, encodeAll_append, encodeAll_append, encodeAll_cons, List.length_append,
      List.length_append, List.length_append, Elem.encode_length]
    omega)
  -- what is written is the list with the new element
  have hspliced : (fixed ++ encodeAll (els₁ ++ e :: els₂)).take n.timPlace.1 ++ timBytes tim ++
      (fixed ++ encodeAll (els₁ ++ e :: els₂)).drop (n.timPlace.1 + n.timPlace.2) =
        fixed ++ encodeAll (els₁ ++ timElem tim :: els₂) := by
    have hsplit : fixed ++ encodeAll (els₁ ++ e :: els₂) =
        (fixed ++ encodeAll els₁) ++ e.encode ++ encodeAll els₂ := by simp
    have hoff : (fixed ++ encodeAll els₁).length = n.timPlace.1 := by
      rw [List.length_append, h.fixed_length, hplace]
    have hend : ((fixed ++ encodeAll els₁) ++ e.encode).length =
        n.timPlace.1 + n.timPlace.2 := by
      rw [List.length_append, hoff, Elem.encode_length, hplace]
    rw [hsplit, ← hend, List.drop_left, ← hoff, List.append_assoc _ e.encode, List.take_left]
    simp [timElem_encode]
  constructor
  · rintro ⟨els₁', e', els₂', hothers, hid, hdec, hholds⟩
    obtain ⟨hfit, heq⟩ := (holds_update_iff h hb _).mp hholds
    rw [hspliced] at heq
    have hlists := encodeAll_injective (List.append_cancel_left heq)
    have hmem : ∀ x ∈ els₁' ++ els₂', x.id ≠ timIe := by
      rw [hothers, hfilter]
      exact fun x hx => (List.mem_append.mp hx).elim (h₁ x) (h₂ x)
    have htims := congrArg (List.filter (·.id = timIe)) hlists
    rw [(filter_tim rfl h₁ h₂).1, (filter_tim hid (fun x hx => hmem x (List.mem_append_left _ hx))
      fun x hx => hmem x (List.mem_append_right _ hx)).1] at htims
    obtain rfl : timElem tim = e' := List.singleton_inj.mp htims
    exact ⟨(timData_decodes_iff htim).mp hdec, hfits.mp hfit⟩
  · rintro ⟨hnarrow, hroom⟩
    exact ⟨els₁, timElem tim, els₂, hfilter.symm, rfl, (timData_decodes_iff htim).mpr hnarrow,
      (holds_update_iff h hb _).mpr ⟨hfits.mpr hroom, hspliced⟩⟩

/-- An insertion in front of the place is none: an element that begins there would have
    to be a TIM element. -/
theorem not_inserted_before {u v m w : Bytes} (hels : ∀ x ∈ els₂, x.id ≠ timIe)
    (hm : m.getD 0 0 = timIe) (hne : m ≠ []) (hw : w ≠ []) (hu : w ++ u = encodeAll els₂)
    (h : w ++ v = m ++ encodeAll els₂) : False := by
  rcases els₂ with _ | ⟨e, els₂⟩
  · exact hw (List.append_eq_nil_iff.mp hu).1
  · obtain ⟨b, w, rfl⟩ := List.exists_cons_of_ne_nil hw
    obtain ⟨b', m, rfl⟩ := List.exists_cons_of_ne_nil hne
    simp only [List.cons_append, List.cons.injEq] at h
    simp only [List.cons_append, encodeAll_cons, Elem.encode, List.cons.injEq] at hu
    have hb' : b' = timIe := hm
    exact hels e List.mem_cons_self (by rw [← hu.1, h.1, hb'])

/-- The element is inserted. -/
theorem truthful_absent {s : Finset ℕ} (htim : ∀ k < 16, tim.getLsbD k = true ↔ k ∈ s)
    (h : Holds n fixed els) (hels : ∀ x ∈ els, x.id ≠ timIe)
    (hb : Backed rtwMalloc tim n) :
    Truthful (updateBcnTim rtwMalloc tim n) fixed els s ↔
      Narrow s ∧ Room tim els ∧ Placed tim n fixed els := by
  have hfilter : els.filter (·.id ≠ timIe) = els := List.filter_eq_self.mpr (by simpa using hels)
  have hplace := h.timPlace_absent hels
  have hfits := update_fits_iff h hb (by rw [hplace, hfilter, Nat.zero_add])
  have hholds := holds_update_iff h hb
  simp only [hplace, Nat.add_zero, hfits] at hholds
  constructor
  · rintro ⟨els₁, e, els₂, hothers, hid, hdec, hnew⟩
    obtain ⟨hroom, heq⟩ := (hholds _).mp hnew
    rw [hfilter] at hothers
    subst hothers
    have hlenA : (fixed ++ encodeAll els₁).length = fixedIeLength + (encodeAll els₁).length := by
      rw [List.length_append, h.fixed_length]
    have hm : e.encode.getD 0 0 = timIe := hid
    rw [encodeAll_append, encodeAll_append, encodeAll_cons, ← List.append_assoc fixed,
      ← List.append_assoc fixed, ← List.append_assoc (fixed ++ encodeAll els₁) e.encode] at heq
    rcases Nat.lt_or_ge (fixed ++ encodeAll els₁).length n.headLen with hlt | hge
    · exfalso
      have hle : n.headLen ≤ n.ieLength := by simpa [hplace] using hb.1
      obtain ⟨k, hk⟩ := Nat.exists_eq_add_of_lt hlt
      rw [h.ieLength_eq, encodeAll_append, List.length_append] at hle
      rw [hk, Nat.add_assoc, List.take_length_add_append, List.drop_length_add_append,
        List.append_assoc, List.append_assoc, List.append_assoc _ e.encode] at heq
      have hw : (encodeAll els₂).take (k + 1) ≠ [] := by
        refine List.ne_nil_of_length_pos ?_
        rw [List.length_take]
        omega
      exact not_inserted_before (fun x hx => hels x (List.mem_append_right _ hx)) hm
        (List.cons_ne_nil _ _) hw (List.take_append_drop _ _) (List.append_cancel_left heq)
    · rw [insert_eq_insert_iff hge] at heq
      have hne : timBytes tim ≠ [] := List.cons_ne_nil _ _
      obtain ⟨r, hr, hrot⟩ := rotation_of_append heq hne
      have hr0 := rotation_timBytes htim hid hdec hr hrot
      have hsame : e.encode = timBytes tim := by rw [hrot, hr0]; simp
      have hdata : e.data = timData tim := by
        rw [← timElem_encode] at hsame
        exact (List.cons.inj (List.cons.inj hsame).2).2
      rw [hdata] at hdec
      rw [hsame] at heq
      exact ⟨(timData_decodes_iff htim).mp hdec, hroom,
        .inr ⟨els₁, els₂, rfl, hlenA ▸ hge, heq⟩⟩
  · rintro ⟨hnarrow, hroom, ⟨e, he, hid⟩ | ⟨els₁, els₂, rfl, hle, hcopies⟩⟩
    · exact absurd hid (hels e he)
    · refine ⟨els₁, timElem tim, els₂, hfilter.symm, rfl, (timData_decodes_iff htim).mpr hnarrow,
        (hholds _).mpr ⟨hroom, ?_⟩⟩
      have hge : n.headLen ≤ (fixed ++ encodeAll els₁).length := by
        rw [List.length_append, h.fixed_length]
        exact hle
      have := (insert_eq_insert_iff (b := encodeAll els₂) hge).mpr hcopies
      simpa [timElem_encode] using this

/-- The beacon tells the truth exactly if every id has a bit, a station in the high byte
    comes with one in the low byte, the list fits, and the place is in front of an element. -/
theorem updateBcnTim_truthful_iff (rtwMalloc : ℕ → Bool) (ops : List TimOp) (n : BcnIes)
    (fixed : Bytes) (els : List Elem) (h : Holds n fixed els) (hw : WellFormed els)
    (hb : Backed rtwMalloc (recorded ops) n) :
    Truthful (updateBcnTim rtwMalloc (recorded ops) n) fixed els (buffered ops) ↔
      Narrow (buffered ops) ∧ Room (recorded ops) els ∧ Placed (recorded ops) n fixed els := by
  have htim := recorded_getLsbD ops
  rcases exists_first timIe els with hels | ⟨els₁, e, els₂, rfl, he, -⟩
  · exact truthful_absent htim h hels hb
  · rw [truthful_present htim h hw he hb]
    have hplaced : Placed (recorded ops) n fixed (els₁ ++ e :: els₂) := .inl ⟨e, by simp, he⟩
    rw [and_iff_left hplaced]

/-- A beacon with given elements. -/
def beaconOf (fixed : Bytes) (els : List Elem) (hfit : (fixed ++ encodeAll els).length ≤ maxIeSz) :
    BcnIes where
  ies := fixed ++ encodeAll els ++ List.replicate (maxIeSz - (fixed ++ encodeAll els).length) 0
  ieLength := (fixed ++ encodeAll els).length
  ies_length := by rw [List.length_append, List.length_replicate]; omega

theorem holds_beaconOf (hfixed : fixed.length = fixedIeLength)
    (hfit : (fixed ++ encodeAll els).length ≤ maxIeSz) :
    Holds (beaconOf fixed els hfit) fixed els where
  fixed_length := hfixed
  ieLength_eq := by rw [← hfixed, ← List.length_append]; rfl
  take_eq := List.take_left

theorem plainSsid_lt : [(0x61 : UInt8), 0x70].length < 256 := by decide

theorem plainRates_lt : [(0x82 : UInt8), 0x84, 0x8b, 0x96].length < 256 := by decide

theorem plainChannel_lt : [(6 : UInt8)].length < 256 := by decide

/-- SSID, supported rates and DS Parameter Set. -/
def plainEls : List Elem :=
  [⟨ssidIe, [0x61, 0x70], plainSsid_lt⟩,
    ⟨supportedratesIe, [0x82, 0x84, 0x8b, 0x96], plainRates_lt⟩, ⟨3, [6], plainChannel_lt⟩]

def plainBeacon : BcnIes := beaconOf (List.replicate 12 0) plainEls (by decide)

theorem plainBeacon_holds : Holds plainBeacon (List.replicate 12 0) plainEls :=
  holds_beaconOf rfl (by decide)

theorem plainEls_wellFormed : WellFormed plainEls := ⟨by decide, by decide⟩

theorem plainBeacon_headLen : plainBeacon.timPlace = (25, 0) ∧ plainBeacon.headLen = 25 := by
  decide +kernel

theorem plainBeacon_backed (tim : BitVec 16) : Backed (fun _ => true) tim plainBeacon := by
  have hlen : plainBeacon.ieLength = 25 := rfl
  rw [Backed, plainBeacon_headLen.1, hlen]
  exact ⟨by decide, .inr (.inl rfl)⟩

/-- Stations 1 and 9 and group traffic. -/
theorem updateBcnTim_truthful_two : Truthful
    (updateBcnTim (fun _ => true) (recorded [.buffer 1, .buffer 9, .buffer 0]) plainBeacon)
    (List.replicate 12 0) plainEls (buffered [.buffer 1, .buffer 9, .buffer 0]) := by
  refine (updateBcnTim_truthful_iff _ _ _ _ _ plainBeacon_holds plainEls_wellFormed
    (plainBeacon_backed _)).mpr
      ⟨⟨by decide, fun _ => ⟨1, by decide, by decide⟩⟩, by unfold Room; decide, ?_⟩
  refine .inr ⟨plainEls, [], rfl, ?_, ?_⟩
  · rw [plainBeacon_headLen.2]
    decide
  · rw [plainBeacon_headLen.2]
    decide

/-- Station 8 alone is written into the low byte, where no receiver looks for it. -/
theorem station_eight_missed :
    Holds plainBeacon (List.replicate 12 0) plainEls ∧ WellFormed plainEls ∧
      ¬Truthful (updateBcnTim (fun _ => true) (recorded [.buffer 8]) plainBeacon)
        (List.replicate 12 0) plainEls (buffered [.buffer 8]) := by
  refine ⟨plainBeacon_holds, plainEls_wellFormed, fun h => ?_⟩
  have hels : ∀ x ∈ plainEls, x.id ≠ timIe := by decide
  obtain ⟨⟨-, hlow⟩, -⟩ := (truthful_absent (recorded_getLsbD [.buffer 8]) plainBeacon_holds hels
    (plainBeacon_backed _)).mp h
  obtain ⟨aid, haid, h0, h8⟩ := hlow ⟨8, by decide, by decide⟩
  obtain rfl : aid = 8 := by simpa [buffered, bufferedStep] using haid
  exact absurd h8 (by decide)

end Rtl8821au.Ap
