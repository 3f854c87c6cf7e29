import Rtl8821au.Lib.Run
import Rtl8821au.Lib.ShiftRegister
import Mathlib.Algebra.Group.Int.Defs
import Mathlib.Algebra.Group.Nat.Defs
import Mathlib.Data.Int.Notation
import Mathlib.Data.List.Induction
import Mathlib.Logic.Function.Basic
import Mathlib.Tactic.SplitIfs

/-!
# Smoothed signal strength

`odm_Process_RSSIForDM` (`trx.c`, lines 1453–1614) keeps two averages for each station, of the
packets at CCK rates and of those at OFDM rates, and weighs them by how many of the last 64
packets were of either kind.

* `rssi_stays_in_range`: what holds of a station after every call.

The value of -1 for "no CCK packet yet" is converted to an unsigned number in the sum, where its
weight is zero.
-/

namespace Rtl8821au.Phy.RssiForDm

open Run

/-! ## Model of the C code -/

/-- `struct _ODM_Phy_Status_Info_`: `RxPWDBAll` and `RxMIMOSignalStrength` of the two paths. -/
structure PhyInfo where
  rxPWDBAll : UInt8
  signalStrengthA : UInt8
  signalStrengthB : UInt8

/-- `struct _ODM_Per_Pkt_Info_`. -/
structure PktInfo where
  dataRate : UInt8
  stationID : UInt8
  bPacketMatchBSSID : Bool
  bPacketToSelf : Bool
  bPacketBeacon : Bool

/-- `RSSI_STA` (`sta_info.h`, lines 47–53). -/
structure RssiSta where
  undecoratedSmoothedPWDB : ℤ
  undecoratedSmoothedCCK : ℤ
  undecoratedSmoothedOFDM : ℤ
  packetMap : UInt64
  validBit : UInt8

/-- A station from `rtw_alloc_stainfo` (`rtw_sta_mgt.c`, lines 335–336); the rest is zero. -/
def RssiSta.init : RssiSta where
  undecoratedSmoothedPWDB := -1
  undecoratedSmoothedCCK := -1
  undecoratedSmoothedOFDM := 0
  packetMap := 0
  validBit := 0

/-- What the function reads and writes of the driver. -/
structure Dm where
  staInfo : UInt8 → Option RssiSta
  rxRate : UInt8
  rssiA : UInt8
  rssiB : UInt8
  numQryBeaconPkt : UInt16

/-- `isCCKrate`; `DESC_RATE11M` is 3. -/
def PktInfo.isCCKrate (pkt : PktInfo) : Bool := pkt.dataRate ≤ 3

/-- `RSSI_Ave` of an OFDM packet (lines 1509–1537). -/
def rssiAve (phy : PhyInfo) : ℤ :=
  if phy.signalStrengthB = 0 then phy.signalStrengthA.toNat
  else
    let a : ℤ := phy.signalStrengthA.toNat
    let b : ℤ := phy.signalStrengthB.toNat
    let rssiMax := if a > b then a else b
    let rssiMin := if a > b then b else a
    if rssiMax - rssiMin < 3 then rssiMax
    else if rssiMax - rssiMin < 6 then rssiMax - 1
    else if rssiMax - rssiMin < 10 then rssiMax - 2
    else rssiMax - 3

/-- The two filters (lines 1540–1553 and 1563–1576); `Rx_Smooth_Factor` is 20. -/
def smooth (smoothed pwdbAll ave : ℤ) : ℤ :=
  if smoothed ≤ 0 then pwdbAll
  else if pwdbAll > smoothed % 2 ^ 32 then (smoothed * (20 - 1) + ave).tdiv 20 + 1
  else (smoothed * (20 - 1) + ave).tdiv 20

/-- Lines 1508–1585: the averages, the map and `ValidBit`. -/
def RssiSta.heard (st : RssiSta) (isCCKrate : Bool) (phy : PhyInfo) : RssiSta :=
  let validBit := if st.validBit ≥ 64 then 64 else st.validBit + 1
  if isCCKrate then
    { st with
      undecoratedSmoothedCCK :=
        smooth st.undecoratedSmoothedCCK phy.rxPWDBAll.toNat phy.rxPWDBAll.toNat
      packetMap := st.packetMap <<< 1
      validBit }
  else
    { st with
      undecoratedSmoothedOFDM :=
        smooth st.undecoratedSmoothedOFDM phy.rxPWDBAll.toNat (rssiAve phy)
      packetMap := st.packetMap <<< 1 ||| 1
      validBit }

/-- `OFDM_pkt` (lines 1587–1588). -/
def RssiSta.ofdmPkt (st : RssiSta) : UInt32 :=
  (List.range st.validBit.toNat).foldl
    (fun n i => n + ((st.packetMap >>> UInt64.ofNat i).toUInt8 &&& 1).toUInt32) 0

/-- `Weighting`. -/
def weighting (ofdmPkt : UInt32) : UInt32 := if ofdmPkt <<< 4 > 64 then 64 else ofdmPkt <<< 4

/-- The sum of the two averages with the weights `weight` and `total - weight`. -/
def RssiSta.weighted (st : RssiSta) (weight total : UInt32) : UInt32 :=
  weight * UInt32.ofInt st.undecoratedSmoothedOFDM +
    (total - weight) * UInt32.ofInt st.undecoratedSmoothedCCK

/-- `UndecoratedSmoothedPWDB` (lines 1590–1598). -/
def RssiSta.pwdb (st : RssiSta) : ℤ :=
  if st.validBit = 64 then ((st.weighted (weighting st.ofdmPkt) 64) >>> 6).toInt32.toInt
  else if st.validBit ≠ 0 then
    (st.weighted st.ofdmPkt st.validBit.toUInt32 / st.validBit.toUInt32).toInt32.toInt
  else 0

/-- Lines 1508–1602. -/
def RssiSta.processed (st : RssiSta) (isCCKrate : Bool) (phy : PhyInfo) : RssiSta :=
  let st := st.heard isCCKrate phy
  { st with undecoratedSmoothedPWDB := st.pwdb }

/-- `odm_Process_RSSIForDM` (lines 1453–1614). -/
def odmProcessRssiForDm (dm : Dm) (p : PhyInfo × PktInfo) : Dm :=
  let phy := p.1
  let pkt := p.2
  if pkt.stationID = 0xFF then dm
  else
    match dm.staInfo pkt.stationID with
    | none => dm
    | some st =>
      if !pkt.bPacketMatchBSSID then dm
      else
        let dm := { dm with
          numQryBeaconPkt := if pkt.bPacketBeacon then dm.numQryBeaconPkt + 1 else dm.numQryBeaconPkt
          rxRate := pkt.dataRate }
        if pkt.bPacketToSelf || pkt.bPacketBeacon then
          { dm with
            staInfo := Function.update dm.staInfo pkt.stationID
              (some (st.processed pkt.isCCKrate phy))
            rssiA := if pkt.isCCKrate then phy.rxPWDBAll else phy.signalStrengthA
            rssiB := if pkt.isCCKrate then 0xFF else phy.signalStrengthB }
        else dm

/-! ## What is to hold -/

/-- Receive powers are percentages. -/
structure PhyInfo.InRange (phy : PhyInfo) : Prop where
  all : phy.rxPWDBAll ≤ 100
  pathA : phy.signalStrengthA ≤ 100
  pathB : phy.signalStrengthB ≤ 100

/-- The packet counts for the station. -/
def PktInfo.countsFor (id : UInt8) (pkt : PktInfo) : Bool :=
  pkt.stationID == id && pkt.stationID != 0xFF && pkt.bPacketMatchBSSID &&
    (pkt.bPacketToSelf || pkt.bPacketBeacon)

/-- The packets that count for the station, the latest first: whether they came at OFDM rates. -/
def history (id : UInt8) (pkts : List (PhyInfo × PktInfo)) : List Bool :=
  ((pkts.filter fun p => p.2.countsFor id).map fun p => !p.2.isCCKrate).reverse

/-- -1, or a percentage. -/
def Percentage (x : ℤ) : Prop := x = -1 ∨ 0 ≤ x ∧ x ≤ 100

/-- Over the integers a weighted sum of two averages is what the unsigned arithmetic yields: no
    difference, product or sum leaves the 32 bits. -/
structure RssiSta.NoWrap (st : RssiSta) (weight total : UInt32) : Prop where
  weight_le : weight.toNat ≤ total.toNat
  ofdm : 0 ≤ weight.toNat * st.undecoratedSmoothedOFDM
  cck : 0 ≤ (total.toNat - weight.toNat : ℤ) * st.undecoratedSmoothedCCK
  sum_lt : weight.toNat * st.undecoratedSmoothedOFDM +
    (total.toNat - weight.toNat : ℤ) * st.undecoratedSmoothedCCK < 2 ^ 32
  sum_eq : ((st.weighted weight total).toNat : ℤ) =
    weight.toNat * st.undecoratedSmoothedOFDM +
      (total.toNat - weight.toNat : ℤ) * st.undecoratedSmoothedCCK

/-- A station that has heard the packets `hist`. -/
structure RssiSta.Good (st : RssiSta) (hist : List Bool) : Prop where
  cck : Percentage st.undecoratedSmoothedCCK
  ofdm : Percentage st.undecoratedSmoothedOFDM
  pwdb : Percentage st.undecoratedSmoothedPWDB
  validBit : st.validBit.toNat = min 64 hist.length
  ofdmPkt_le : st.ofdmPkt.toNat ≤ 64
  bits : st.ofdmPkt.toNat =
    (List.range st.validBit.toNat).countP fun i => st.packetMap.toBitVec.getLsbD i
  count : st.ofdmPkt.toNat = (hist.take st.validBit.toNat).count true
  shift : (st.ofdmPkt <<< 4).toNat = st.ofdmPkt.toNat * 16
  partly : st.validBit ≠ 64 → st.NoWrap st.ofdmPkt st.validBit.toUInt32
  full : st.validBit = 64 → st.NoWrap (weighting st.ofdmPkt) 64

/-! ## The filters -/

theorem rssiAve_range {phy : PhyInfo} (h : phy.InRange) : 0 ≤ rssiAve phy ∧ rssiAve phy ≤ 100 := by
  have ha : phy.signalStrengthA.toNat ≤ 100 := h.pathA
  have hb : phy.signalStrengthB.toNat ≤ 100 := h.pathB
  unfold rssiAve
  dsimp only
  split_ifs <;> omega

/-- A filter stays a percentage, whatever it was. -/
theorem smooth_range {smoothed pwdbAll ave : ℤ} (hs : smoothed ≤ 100)
    (hp : 0 ≤ pwdbAll ∧ pwdbAll ≤ 100) (ha : 0 ≤ ave ∧ ave ≤ 100) :
    0 ≤ smooth smoothed pwdbAll ave ∧ smooth smoothed pwdbAll ave ≤ 100 := by
  unfold smooth
  split
  · exact hp
  · have hconv : smoothed % 2 ^ 32 = smoothed := Int.emod_eq_of_lt (by omega) (by omega)
    rw [hconv, Int.tdiv_eq_ediv_of_nonneg (by omega)]
    split_ifs <;> omega

/-! ## The packet map -/

theorem toBitVec_map (m : UInt64) : (m <<< 1).toBitVec = ShiftRegister.push m.toBitVec false ∧
    (m <<< 1 ||| 1).toBitVec = ShiftRegister.push m.toBitVec true := by
  constructor <;> simp [ShiftRegister.push]

theorem toNat_bit (m : UInt64) {i : ℕ} (hi : i < 64) :
    ((m >>> UInt64.ofNat i).toUInt8 &&& 1).toUInt32.toNat =
      if m.toBitVec.getLsbD i then 1 else 0 := by
  have hshift : (m >>> UInt64.ofNat i).toNat = m.toNat >>> i := by
    rw [UInt64.toNat_shiftRight, UInt64.toNat_ofNat', Nat.mod_eq_of_lt (by omega : i < 2 ^ 64),
      Nat.mod_eq_of_lt hi]
  have hbit : m.toBitVec.getLsbD i = decide (m.toNat >>> i % 2 = 1) := by
    rw [Nat.shiftRight_eq_div_pow]
    exact Nat.testBit_eq_decide_div_mod_eq
  rw [UInt8.toNat_toUInt32, UInt8.toNat_and, UInt64.toNat_toUInt8, hshift, hbit]
  show m.toNat >>> i % 2 ^ 8 &&& 1 = _
  rw [Nat.and_one_is_mod, Nat.mod_mod_of_dvd _ (by decide : 2 ∣ 2 ^ 8)]
  rcases Nat.mod_two_eq_zero_or_one (m.toNat >>> i) with h | h <;> rw [h] <;> rfl

theorem toNat_ofdmPkt {st : RssiSta} (h : st.validBit.toNat ≤ 64) :
    st.ofdmPkt.toNat =
      (List.range st.validBit.toNat).countP fun i => st.packetMap.toBitVec.getLsbD i := by
  unfold RssiSta.ofdmPkt
  generalize st.validBit.toNat = k at h
  induction k with
  | zero => rfl
  | succ k ih =>
    have hle : (List.range k).countP (fun i => st.packetMap.toBitVec.getLsbD i) ≤ k := by
      simpa using List.countP_le_length (p := fun i => st.packetMap.toBitVec.getLsbD i)
        (l := List.range k)
    rw [List.range_succ, List.foldl_append, List.foldl_cons, List.foldl_nil, UInt32.toNat_add,
      ih (by omega), toNat_bit st.packetMap (by omega), List.countP_append, List.countP_singleton,
      Nat.mod_eq_of_lt]
    split <;> omega

/-! ## The weighted sum -/

theorem toNat_ofInt {x : ℤ} (h : 0 ≤ x ∧ x ≤ 100) : ((UInt32.ofInt x).toNat : ℤ) = x := by
  have hmod : x % 2 ^ 32 = x := Int.emod_eq_of_lt h.1 (by omega)
  rw [UInt32.ofInt, hmod, UInt32.toNat_ofNat', Nat.mod_eq_of_lt (by omega)]
  omega

/-- The unsigned sum over natural numbers. -/
theorem toNat_weighted (st : RssiSta) {weight total : UInt32} (hw : weight.toNat ≤ total.toNat)
    (hlt : weight.toNat * (UInt32.ofInt st.undecoratedSmoothedOFDM).toNat +
      (total.toNat - weight.toNat) * (UInt32.ofInt st.undecoratedSmoothedCCK).toNat < 2 ^ 32) :
    (st.weighted weight total).toNat =
      weight.toNat * (UInt32.ofInt st.undecoratedSmoothedOFDM).toNat +
        (total.toNat - weight.toNat) * (UInt32.ofInt st.undecoratedSmoothedCCK).toNat := by
  have hsub : (total - weight).toNat = total.toNat - weight.toNat :=
    UInt32.toNat_sub_of_le total weight hw
  rw [RssiSta.weighted, UInt32.toNat_add, UInt32.toNat_mul, UInt32.toNat_mul, hsub,
    ← Nat.add_mod, Nat.mod_eq_of_lt hlt]

/-- The sum is a percentage of `total`; an average that is none has the weight zero. -/
theorem noWrap_of_range {st : RssiSta} {weight total : UInt32} (hw : weight.toNat ≤ total.toNat)
    (ht : total.toNat ≤ 64)
    (ho : 0 ≤ st.undecoratedSmoothedOFDM ∧ st.undecoratedSmoothedOFDM ≤ 100)
    (hc : weight.toNat < total.toNat →
      0 ≤ st.undecoratedSmoothedCCK ∧ st.undecoratedSmoothedCCK ≤ 100) :
    st.NoWrap weight total ∧ (st.weighted weight total).toNat ≤ total.toNat * 100 := by
  have hofdm := toNat_ofInt ho
  have hcck : (((total.toNat - weight.toNat) *
      (UInt32.ofInt st.undecoratedSmoothedCCK).toNat : ℕ) : ℤ) =
      (total.toNat - weight.toNat : ℤ) * st.undecoratedSmoothedCCK := by
    rcases Nat.lt_or_eq_of_le hw with hlt | heq
    · rw [Int.natCast_mul, toNat_ofInt (hc hlt), Int.natCast_sub hw]
    · simp [heq]
  have hfirst : weight.toNat * (UInt32.ofInt st.undecoratedSmoothedOFDM).toNat ≤
      weight.toNat * 100 := Nat.mul_le_mul_left _ (by omega)
  have hsecond : (total.toNat - weight.toNat) * (UInt32.ofInt st.undecoratedSmoothedCCK).toNat ≤
      (total.toNat - weight.toNat) * 100 := by
    rcases Nat.lt_or_eq_of_le hw with hlt | heq
    · have hrange := hc hlt
      have hval := toNat_ofInt hrange
      exact Nat.mul_le_mul_left _ (by omega)
    · simp [heq]
  have hsum := toNat_weighted st hw (by omega)
  have hprod : ((weight.toNat * (UInt32.ofInt st.undecoratedSmoothedOFDM).toNat : ℕ) : ℤ) =
      weight.toNat * st.undecoratedSmoothedOFDM := by rw [Int.natCast_mul, hofdm]
  refine ⟨⟨hw, ?_, ?_, ?_, ?_⟩, by omega⟩
  · rw [← hprod]
    exact Int.natCast_nonneg _
  · rw [← hcck]
    exact Int.natCast_nonneg _
  · rw [← hprod, ← hcck]
    omega
  · rw [← hprod, ← hcck, hsum]
    rfl

/-! ## One packet -/

/-- What the packets heard so far say of the averages and of the map. -/
structure RssiSta.Inv (st : RssiSta) (hist : List Bool) : Prop where
  tracks : ShiftRegister.Tracks st.packetMap.toBitVec hist
  validBit : st.validBit.toNat = min 64 hist.length
  ofdm : 0 ≤ st.undecoratedSmoothedOFDM ∧ st.undecoratedSmoothedOFDM ≤ 100
  none : false ∉ hist → st.undecoratedSmoothedCCK = -1
  some : false ∈ hist → 0 ≤ st.undecoratedSmoothedCCK ∧ st.undecoratedSmoothedCCK ≤ 100

theorem inv_init : RssiSta.init.Inv [] where
  tracks := ShiftRegister.tracks_zero
  validBit := rfl
  ofdm := by decide
  none _ := rfl
  some h := absurd h List.not_mem_nil

theorem RssiSta.Inv.cck_le {st : RssiSta} {hist : List Bool} (h : st.Inv hist) :
    st.undecoratedSmoothedCCK ≤ 100 := by
  by_cases hm : false ∈ hist
  · exact (h.some hm).2
  · have hnone := h.none hm
    omega

theorem toNat_validBit {st : RssiSta} {n : ℕ} (h : st.validBit.toNat = min 64 n) :
    (if st.validBit ≥ 64 then 64 else st.validBit + 1).toNat = min 64 (n + 1) := by
  split
  case isTrue hge =>
    have hge' : 64 ≤ st.validBit.toNat := hge
    show 64 = _
    omega
  case isFalse hlt =>
    have hlt' : ¬ 64 ≤ st.validBit.toNat := hlt
    rw [UInt8.toNat_add]
    show (st.validBit.toNat + 1) % 256 = _
    omega

theorem inv_heard {st : RssiSta} {hist : List Bool} (h : st.Inv hist) {phy : PhyInfo}
    (hphy : phy.InRange) (isCCKrate : Bool) :
    (st.heard isCCKrate phy).Inv ((!isCCKrate) :: hist) := by
  have hall : phy.rxPWDBAll.toNat ≤ 100 := hphy.all
  have hp : 0 ≤ (phy.rxPWDBAll.toNat : ℤ) ∧ (phy.rxPWDBAll.toNat : ℤ) ≤ 100 := by omega
  have hvalid := toNat_validBit h.validBit
  cases isCCKrate with
  | true =>
    have hcck := smooth_range h.cck_le hp hp
    refine ⟨?_, hvalid, h.ofdm, fun hm => absurd List.mem_cons_self hm, fun _ => hcck⟩
    show ShiftRegister.Tracks (st.packetMap <<< 1).toBitVec _
    rw [(toBitVec_map st.packetMap).1]
    exact ShiftRegister.tracks_push h.tracks false
  | false =>
    have hofdm := smooth_range h.ofdm.2 hp (rssiAve_range hphy)
    refine ⟨?_, hvalid, hofdm, fun hm => h.none fun hmem => hm (List.mem_cons_of_mem _ hmem),
      fun hm => h.some ?_⟩
    · show ShiftRegister.Tracks (st.packetMap <<< 1 ||| 1).toBitVec _
      rw [(toBitVec_map st.packetMap).2]
      exact ShiftRegister.tracks_push h.tracks true
    · simpa using hm

/-! ## The weights -/

section weights

variable {st : RssiSta} {hist : List Bool} (h : st.Inv hist)

include h

theorem RssiSta.Inv.ofdmPkt_eq :
    st.ofdmPkt.toNat = (hist.take st.validBit.toNat).count true := by
  have hvalid := h.validBit
  rw [toNat_ofdmPkt (by omega)]
  exact ShiftRegister.countP_range_of_tracks h.tracks (by omega) (by omega)

theorem RssiSta.Inv.ofdmPkt_le : st.ofdmPkt.toNat ≤ st.validBit.toNat := by
  rw [h.ofdmPkt_eq]
  exact Nat.le_trans List.count_le_length (List.length_take_le _ _)

/-- If not all of the last packets were OFDM packets there was one at a CCK rate. -/
theorem RssiSta.Inv.cck_of_lt (hlt : st.ofdmPkt.toNat < st.validBit.toNat) :
    0 ≤ st.undecoratedSmoothedCCK ∧ st.undecoratedSmoothedCCK ≤ 100 := by
  apply h.some
  by_contra hnone
  have hall : (hist.take st.validBit.toNat).count true = (hist.take st.validBit.toNat).length := by
    refine List.count_eq_length.mpr fun b hb => ?_
    cases b with
    | true => rfl
    | false => exact absurd (List.mem_of_mem_take hb) hnone
  have hcount := h.ofdmPkt_eq
  have hvalid := h.validBit
  rw [hall, List.length_take] at hcount
  omega

theorem RssiSta.Inv.shift_eq : (st.ofdmPkt <<< 4).toNat = st.ofdmPkt.toNat * 16 := by
  have hle := h.ofdmPkt_le
  have hvalid := h.validBit
  rw [UInt32.toNat_shiftLeft]
  show (st.ofdmPkt.toNat <<< 4) % 2 ^ 32 = _
  rw [Nat.shiftLeft_eq]
  omega

theorem RssiSta.Inv.toNat_weighting :
    (weighting st.ofdmPkt).toNat = min 64 (st.ofdmPkt.toNat * 16) := by
  have hshift := h.shift_eq
  unfold weighting
  split
  case isTrue hgt =>
    have hgt' : 64 < (st.ofdmPkt <<< 4).toNat := hgt
    show 64 = _
    omega
  case isFalse hle =>
    have hle' : ¬ 64 < (st.ofdmPkt <<< 4).toNat := hle
    omega

theorem RssiSta.Inv.partly :
    st.NoWrap st.ofdmPkt st.validBit.toUInt32 ∧
      (st.weighted st.ofdmPkt st.validBit.toUInt32).toNat ≤ st.validBit.toNat * 100 := by
  have hvalid := h.validBit
  have htotal : st.validBit.toUInt32.toNat = st.validBit.toNat := UInt8.toNat_toUInt32 _
  rw [← htotal]
  apply noWrap_of_range
  · rw [htotal]
    exact h.ofdmPkt_le
  · omega
  · exact h.ofdm
  · rw [htotal]
    exact h.cck_of_lt

theorem RssiSta.Inv.full (hfull : st.validBit = 64) :
    st.NoWrap (weighting st.ofdmPkt) 64 ∧
      (st.weighted (weighting st.ofdmPkt) 64).toNat ≤ 64 * 100 := by
  have hweight := h.toNat_weighting
  have htotal : (64 : UInt32).toNat = 64 := rfl
  have hvalid : st.validBit.toNat = 64 := congrArg UInt8.toNat hfull
  apply noWrap_of_range
  · omega
  · omega
  · exact h.ofdm
  · intro hlt
    exact h.cck_of_lt (by omega)

end weights

theorem toInt_of_le {u : UInt32} (h : u.toNat ≤ 100) :
    0 ≤ u.toInt32.toInt ∧ u.toInt32.toInt ≤ 100 := by
  have heq : u.toInt32.toInt = u.toNat := BitVec.toInt_eq_toNat_of_lt (by
    show 2 * u.toNat < 2 ^ 32
    omega)
  omega

theorem RssiSta.Inv.pwdb_range {st : RssiSta} {hist : List Bool} (h : st.Inv hist) :
    0 ≤ st.pwdb ∧ st.pwdb ≤ 100 := by
  unfold RssiSta.pwdb
  split
  case isTrue hfull =>
    apply toInt_of_le
    have hle := (h.full hfull).2
    rw [UInt32.toNat_shiftRight]
    show (st.weighted (weighting st.ofdmPkt) 64).toNat >>> 6 ≤ 100
    rw [Nat.shiftRight_eq_div_pow]
    omega
  case isFalse hnot =>
    split
    case isTrue hne =>
      apply toInt_of_le
      have hpos : 0 < st.validBit.toNat := Nat.pos_of_ne_zero fun h0 => hne (UInt8.toNat.inj h0)
      rw [UInt32.toNat_div, UInt8.toNat_toUInt32]
      exact Nat.div_le_of_le_mul h.partly.2
    case isFalse => decide

theorem good_of_inv {st : RssiSta} {hist : List Bool} (h : st.Inv hist)
    (hpwdb : Percentage st.undecoratedSmoothedPWDB) : st.Good hist where
  cck := by
    by_cases hm : false ∈ hist
    · exact .inr (h.some hm)
    · exact .inl (h.none hm)
  ofdm := .inr h.ofdm
  pwdb := hpwdb
  validBit := h.validBit
  ofdmPkt_le := Nat.le_trans h.ofdmPkt_le (by have hvalid := h.validBit; omega)
  bits := toNat_ofdmPkt (by have hvalid := h.validBit; omega)
  count := h.ofdmPkt_eq
  shift := h.shift_eq
  partly _ := h.partly.1
  full hfull := (h.full hfull).1

/-! ## Runs -/

/-- A call changes a station exactly if its packet counts for it. -/
theorem staInfo_step {dm : Dm} {id : UInt8} {st : RssiSta} (h : dm.staInfo id = some st)
    (p : PhyInfo × PktInfo) :
    (odmProcessRssiForDm dm p).staInfo id =
      some (if p.2.countsFor id then st.processed p.2.isCCKrate p.1 else st) := by
  obtain ⟨phy, pkt⟩ := p
  unfold odmProcessRssiForDm
  by_cases hid : pkt.stationID = id
  · subst hid
    simp only [h]
    split_ifs <;> simp_all [PktInfo.countsFor]
  · have hnot : pkt.countsFor id = false := by simp [PktInfo.countsFor, hid]
    have hother : ∀ f : UInt8 → Option RssiSta, ∀ x,
        Function.update f pkt.stationID x id = f id := fun f x =>
      Function.update_of_ne (Ne.symm hid) x f
    rw [hnot, if_neg Bool.false_ne_true]
    dsimp only
    split
    · exact h
    · split
      · exact h
      · split
        · exact h
        · split
          · exact (hother _ _).trans h
          · exact h

theorem history_append (id : UInt8) (pkts : List (PhyInfo × PktInfo)) (p : PhyInfo × PktInfo) :
    history id (pkts ++ [p]) =
      if p.2.countsFor id then (!p.2.isCCKrate) :: history id pkts else history id pkts := by
  unfold history
  rw [List.filter_append, List.map_append, List.reverse_append]
  by_cases h : p.2.countsFor id <;> simp [h]

theorem inv_run {dm : Dm} {id : UInt8} (hinit : dm.staInfo id = some RssiSta.init)
    (pkts : List (PhyInfo × PktInfo)) (hpower : ∀ p ∈ pkts, p.1.InRange) :
    ∃ st, (run odmProcessRssiForDm dm pkts).staInfo id = some st ∧
      st.Inv (history id pkts) ∧ Percentage st.undecoratedSmoothedPWDB := by
  induction pkts using List.reverseRecOn with
  | nil => exact ⟨RssiSta.init, hinit, inv_init, .inl rfl⟩
  | append_singleton pkts p ih =>
    obtain ⟨st, hst, hinv, hpwdb⟩ := ih fun q hq => hpower q (List.mem_append_left _ hq)
    have hp : p.1.InRange := hpower p (List.mem_append_right _ List.mem_cons_self)
    rw [run_append, run_cons, run_nil, staInfo_step hst p, history_append]
    refine ⟨_, rfl, ?_⟩
    split
    · have hnext := inv_heard hinv hp p.2.isCCKrate
      exact ⟨⟨hnext.tracks, hnext.validBit, hnext.ofdm, hnext.none, hnext.some⟩,
        .inr hnext.pwdb_range⟩
    · exact ⟨hinv, hpwdb⟩

/-- A station that is new, and any packets for it and for others: after every one of them its
    averages are percentages or -1, `ValidBit` and the count of OFDM packets are right, and the
    weights that were used in the last call did not wrap. -/
theorem rssi_stays_in_range (dm : Dm) (id : UInt8) (hinit : dm.staInfo id = some RssiSta.init)
    (pkts : List (PhyInfo × PktInfo)) (hpower : ∀ p ∈ pkts, p.1.InRange) :
    ∃ st, (run odmProcessRssiForDm dm pkts).staInfo id = some st ∧ st.Good (history id pkts) := by
  obtain ⟨st, hst, hinv, hpwdb⟩ := inv_run hinit pkts hpower
  exact ⟨st, hst, good_of_inv hinv hpwdb⟩

/-- A driver with one station that is new. -/
def newStation : Dm where
  staInfo id := if id = 0 then some RssiSta.init else none
  rxRate := 0
  rssiA := 0
  rssiB := 0
  numQryBeaconPkt := 0

/-- A beacon at a CCK rate and one at an OFDM rate. -/
def twoBeacons : List (PhyInfo × PktInfo) :=
  [(⟨40, 0, 0⟩, ⟨0, 0, true, false, true⟩), (⟨60, 70, 50⟩, ⟨4, 0, true, false, true⟩)]

theorem rssi_stays_in_range_beacons :
    ∃ st, (run odmProcessRssiForDm newStation twoBeacons).staInfo 0 = some st ∧
      st.Good [true, false] :=
  rssi_stays_in_range newStation 0 rfl twoBeacons (by
    intro p hp
    simp only [twoBeacons, List.mem_cons, List.not_mem_nil, or_false] at hp
    rcases hp with rfl | rfl <;> exact ⟨by decide, by decide, by decide⟩)

end Rtl8821au.Phy.RssiForDm
