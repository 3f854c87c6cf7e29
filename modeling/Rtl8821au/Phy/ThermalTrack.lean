import Rtl8821au.Lib.Run
import Rtl8821au.Phy.SwingTables

/-!
# Thermal tracking of the transmit power

The two callbacks of `dm.c` (lines 1199–1410 and 1413–1598), with the functions that they set the
power with (lines 459–623 and 877–992), `rtl8821au_dm_clean_txpower_tracking_state` (lines
2295–2325), the initialisation (lines 343–399), and what `rtl8821au_phy_switch_wirelessband` and
`phy_get_tx_swing_8821au` (`phy.c`, lines 4213–4365 and 4694–4717) do to the same variables.

**What the code does on purpose.** It works with the mean of the last four readings that are not 0,
so that one reading equal to the base does not restore the default.

**What goes wrong.** The distance from the base is limited by the size of the table of scales, which
is 37, and is an index into tables of 30 entries.

`char` is a type with or without a sign, as the device says.
-/

namespace Rtl8821au.Phy.ThermalTrack

open Checked PowerLimit SwingTables
open TxPower (u8 s8 RfPath)

/-! ## The device -/

inductive Chip where
  | rtl8812
  | rtl8821
  deriving DecidableEq

/-- What does not change: the chip, the type of its front end, the compiler's `char`, and what is
    read from the EEPROM. -/
structure Device where
  chip : Chip
  normalChip : Bool
  rfeType : ℕ
  charSigned : Bool
  eepromThermalmeter : Fin 256
  autoloadFailflag : Bool
  externalPa : Band → Bool
  /-- The bytes at `EEPROM_TX_BBSWING_2G_8812` and `EEPROM_TX_BBSWING_5G_8812`. -/
  txBbswing : Band → Fin 256

/-- A number kept in a `char`. -/
def Device.char (dev : Device) (x : ℤ) : ℤ := if dev.charSigned then s8 x else u8 x

/-- The paths below `MAX_PATH_NUM_8812A`, which is 2, and below `MAX_PATH_NUM_8821A`, which
    is 1. -/
def Device.paths (dev : Device) : List RfPath :=
  match dev.chip with
  | .rtl8812 => [.a, .b]
  | .rtl8821 => [.a]

/-- The part of `struct rtl_dm` that tracking reads and writes, with the band, the channel and the
    scales in the registers. -/
structure Dm where
  currentBandtype : Band
  currentChannel : ℕ
  txRate : ℕ
  txpowerTrackControl : Bool
  thermalvalue : ℕ
  thermalvalueIqk : ℕ
  thermalvalueLck : ℕ
  thermalvalueAvg : ℕ → ℕ
  thermalvalueAvgIndex : ℕ
  defaultOfdmIndex : ℤ
  ofdmIndex : RfPath → ℤ
  deltaPowerIndex : RfPath → ℤ
  deltaPowerIndexLast : RfPath → ℤ
  powerIndexOffset : RfPath → ℤ
  absoluteOfdmSwingIdx : RfPath → ℤ
  remnantOfdmSwingIdx : RfPath → ℤ
  swingIdxOfdm : RfPath → ℤ
  swingIdxOfdmBase : RfPath → ℤ
  defaultCckIndex : ℤ
  cckIndex : ℤ
  remnantCckIdx : ℤ
  swingIdxCck : ℤ
  swingIdxCckBase : ℤ
  modifyTxagcFlagPathA : Bool
  /-- `swing_diff_2g` and `swing_diff_5g`. -/
  swingDiff : Band → ℤ
  txScale : RfPath → ℕ

variable (dev : Device)

/-! ## The swing of a band -/

/-- The difference and the scale for a code of the EEPROM. It has two bits, and is compared with
    `0x10` and `0x11`. -/
def swingOfCode (code : ℕ) : Option (ℤ × ℕ) :=
  if code = 0x00 then some (0, 0x200)
  else if code = 0x01 then some (-3, 0x16A)
  else if code = 0x10 then some (-6, 0x101)
  else if code = 0x11 then some (-9, 0x0B6)
  else none

/-- Lines 4307–4331, and again 4334–4358. -/
def applyCode (band : Band) (code : ℕ) (r : ℕ × Dm) : ℕ × Dm :=
  match swingOfCode code with
  | some (diff, out) => (out, { r.2 with
      swingDiff := Function.update r.2.swingDiff band (dev.char diff) })
  | none => r

/-- Lines 4228–4265, for a band: the registry's swing is -1. -/
def swingAutoloadFail (band : Band) (s : Dm) : ℕ × Dm :=
  let reg := dev.char (-1)
  let swing := dev.char (-1 * reg)
  let set (diff : ℤ) := { s with swingDiff := Function.update s.swingDiff band (dev.char diff) }
  if swing = 0 then (0x200, set swing)
  else if swing = -3 then (0x16A, set swing)
  else if swing = -6 then (0x101, set swing)
  else if swing = -9 then (0x0B6, set swing)
  else if dev.externalPa band then (0x16A, set (-3))
  else (0x200, set 0)

/-- `phy_get_tx_swing_8821au`, on either path, which it does not look at. -/
def phyGetTxSwing (band : Band) (s : Dm) : ℕ × Dm :=
  if dev.autoloadFailflag then swingAutoloadFail dev band s
  else
    let swing := if dev.txBbswing band = 0xFF then 0 else (dev.txBbswing band).val
    let swingA := swing % 4
    let swingB := swing / 4 % 4
    applyCode dev band swingB (applyCode dev band swingA (0x200, s))

/-- The two codes of a band. -/
def Device.codes (band : Band) : ℕ × ℕ :=
  let swing := if dev.txBbswing band = 0xFF then 0 else (dev.txBbswing band).val
  (swing % 4, swing / 4 % 4)

/-- `getSwingIndex`. -/
def getSwingIndex (s : Dm) : ℕ × Dm :=
  let r := phyGetTxSwing dev s.currentBandtype s
  (txscallingTbl.idxOf r.1, r.2)

/-! ## Reset -/

/-- `rtl8821au_dm_initialize_txpower_tracking_thermalmeter`. -/
def initializeTxpowerTracking (s : Dm) : Dm :=
  let r := getSwingIndex dev s
  let index : ℤ := if r.1 = txscaleTableSize then 24 else r.1
  { r.2 with
    txpowerTrackControl := true
    thermalvalue := dev.eepromThermalmeter
    thermalvalueIqk := dev.eepromThermalmeter
    thermalvalueLck := dev.eepromThermalmeter
    defaultOfdmIndex := index
    defaultCckIndex := 24
    swingIdxCckBase := 24
    cckIndex := 24
    swingIdxOfdmBase := fun _ => index
    ofdmIndex := fun _ => dev.char index
    deltaPowerIndex := fun _ => 0
    deltaPowerIndexLast := fun _ => 0
    powerIndexOffset := fun _ => 0 }

/-- `rtl8821au_dm_clean_txpower_tracking_state`, which leaves `cck_index` as it is. -/
def cleanTxpowerTrackingState (s : Dm) : Dm :=
  { s with
    swingIdxCckBase := s.defaultCckIndex
    swingIdxCck := s.defaultCckIndex
    swingIdxOfdmBase := fun _ => s.defaultOfdmIndex
    swingIdxOfdm := fun _ => s.defaultOfdmIndex
    ofdmIndex := fun _ => dev.char s.defaultOfdmIndex
    powerIndexOffset := fun _ => 0
    deltaPowerIndex := fun _ => 0
    deltaPowerIndexLast := fun _ => 0
    absoluteOfdmSwingIdx := fun _ => 0
    remnantOfdmSwingIdx := fun _ => 0
    modifyTxagcFlagPathA := false
    remnantCckIdx := 0
    thermalvalue := dev.eepromThermalmeter
    thermalvalueIqk := dev.eepromThermalmeter
    thermalvalueLck := dev.eepromThermalmeter }

/-- The condition under which a switch of the band changes the swing (line 4695). -/
def Device.adjusts : Bool := dev.normalChip || dev.chip = .rtl8821

/-- Lines 4709–4713. -/
def adjustDefault (band currentBand : Band) (s : Dm) : Dm :=
  if band ≠ currentBand then
    let diff := s8 (s.swingDiff .on24G - s.swingDiff .on5G)
    let diff := s8 (if band = .on24G then diff else -1 * diff)
    { s with defaultOfdmIndex := u8 (s.defaultOfdmIndex + diff * 2) }
  else s

/-- `rtl8821au_phy_switch_wirelessband`. -/
def switchWirelessband (band : Band) (s : Dm) : Dm :=
  let currentBand := s.currentBandtype
  let s := { s with currentBandtype := band }
  if dev.adjusts then
    let r := phyGetTxSwing dev band s
    let s := { r.2 with txScale := Function.update r.2.txScale .a r.1 }
    let r := phyGetTxSwing dev band s
    let s := { r.2 with txScale := Function.update r.2.txScale .b r.1 }
    cleanTxpowerTrackingState dev (adjustDefault band currentBand s)
  else s

/-! ## Setting the power -/

/-- `txscalling_tbl[i]`. -/
def readScale (i : ℤ) : Except Checked.Fault ℕ :=
  if 0 ≤ i ∧ i < txscaleTableSize then .ok (txscallingTbl.getD i.toNat 0) else .error .beyond

/-- `PwrTrackingLimit`; `TxRate` is `0xFF`. -/
def pwrTrackingLimit : ℤ := 26

/-- `rtl8812au_dm_pxpwr_track_set_pwr`, with `BBSWING`. -/
def pxpwrTrackSetPwr (s : Dm) (p : RfPath) : Except Checked.Fault Dm := do
  let final := if pwrTrackingLimit < s.ofdmIndex p then pwrTrackingLimit else s.ofdmIndex p
  let scale ← readScale final
  .ok { s with txScale := Function.update s.txScale p scale }

/-- `rtl8821au_dm_txpwr_track_set_pwr`, with `MIX_MODE`, on path A. -/
def txpwrTrackSetPwr (s : Dm) (p : RfPath) : Except Checked.Fault Dm :=
  let final := s8 (s.defaultOfdmIndex + s.absoluteOfdmSwingIdx p)
  if pwrTrackingLimit < final then do
    let scale ← readScale pwrTrackingLimit
    .ok { s with
      remnantCckIdx := dev.char (final - pwrTrackingLimit)
      remnantOfdmSwingIdx :=
        Function.update s.remnantOfdmSwingIdx p (dev.char (final - pwrTrackingLimit))
      txScale := Function.update s.txScale p scale
      modifyTxagcFlagPathA := true }
  else if final < 0 then do
    let scale ← readScale 0
    .ok { s with
      remnantCckIdx := dev.char final
      remnantOfdmSwingIdx := Function.update s.remnantOfdmSwingIdx p (dev.char final)
      txScale := Function.update s.txScale p scale
      modifyTxagcFlagPathA := true }
  else do
    let scale ← readScale final
    let s := { s with txScale := Function.update s.txScale p scale }
    if s.modifyTxagcFlagPathA then
      .ok { s with
        remnantCckIdx := 0
        remnantOfdmSwingIdx := Function.update s.remnantOfdmSwingIdx p 0
        modifyTxagcFlagPathA := false }
    else .ok s

/-! ## The callbacks -/

/-- `eeprom_thermalmeter`. -/
def Device.base : ℕ := dev.eepromThermalmeter

/-- Lines 1231–1234: whether there is a base to track from. -/
def Device.calibrated : Bool := dev.base ≠ 0 ∧ dev.base ≠ 0xFF

def distance (x y : ℕ) : ℕ := if y < x then x - y else y - x

/-- Lines 1238–1241; `AVG_THERMAL_NUM_8812A` is 4. -/
def recordReading (reading : Fin 64) (s : Dm) : Dm :=
  let next := s.thermalvalueAvgIndex + 1
  { s with
    thermalvalueAvg := Function.update s.thermalvalueAvg s.thermalvalueAvgIndex reading
    thermalvalueAvgIndex := if next = 4 then 0 else next }

/-- Lines 1243–1253. -/
def average (reading : Fin 64) (s : Dm) : ℕ :=
  let values := ((List.range 4).map s.thermalvalueAvg).filter (· ≠ 0)
  if values.length ≠ 0 then values.sum / values.length % 256 else reading

/-- A table, at an index. -/
def readTable (l : List ℕ) (i : ℕ) : Except Checked.Fault ℤ :=
  if i < l.length then .ok (l.getD i 0) else .error .beyond

/-- The new index of a path (lines 1281–1316). Above the base, the index for the mix mode is that of
    path A on either path. -/
def moveIndex (t : Swing) (thermal delta : ℕ) (s : Dm) (p : RfPath) : Except Checked.Fault Dm :=
  if dev.base < thermal then do
    let v ← readTable (t.up p) delta
    let absolute ← readTable t.upA delta
    .ok { s with
      deltaPowerIndexLast := Function.update s.deltaPowerIndexLast p (s.deltaPowerIndex p)
      deltaPowerIndex := Function.update s.deltaPowerIndex p (dev.char v)
      absoluteOfdmSwingIdx := Function.update s.absoluteOfdmSwingIdx p (dev.char absolute) }
  else do
    let v ← readTable (t.down p) delta
    .ok { s with
      deltaPowerIndexLast := Function.update s.deltaPowerIndexLast p (s.deltaPowerIndex p)
      deltaPowerIndex := Function.update s.deltaPowerIndex p (dev.char (-1 * v))
      absoluteOfdmSwingIdx := Function.update s.absoluteOfdmSwingIdx p (dev.char (-1 * v)) }

/-- `TXSCALE_TABLE_SIZE-1`. -/
def lastScale : ℤ := 36

/-- The index as it is kept (lines 1342–1346). -/
def clampIndex (x : ℤ) : ℤ := if lastScale < x then lastScale else if x < 0 then 0 else x

/-- One turn of the loop over the paths (lines 1319–1347). -/
def offsetIndex (s : Dm) (p : RfPath) : Dm :=
  let offset := if s.deltaPowerIndex p = s.deltaPowerIndexLast p then 0
    else dev.char (s.deltaPowerIndex p - s.deltaPowerIndexLast p)
  let ofdm := dev.char (s.swingIdxOfdmBase p + offset)
  let cck := dev.char (s.swingIdxCckBase + offset)
  { s with
    powerIndexOffset := Function.update s.powerIndexOffset p offset
    ofdmIndex := Function.update s.ofdmIndex p (clampIndex ofdm)
    swingIdxOfdm := Function.update s.swingIdxOfdm p (u8 ofdm)
    cckIndex := cck
    swingIdxCck := u8 cck }

/-- `power_index_offset[p] = 0` (line 1356). -/
def clearOffset (s : Dm) (p : RfPath) : Dm :=
  { s with powerIndexOffset := Function.update s.powerIndexOffset p 0 }

/-- `swing_idx_ofdm_base[p] = swing_idx_ofdm[p]` (line 1397). -/
def commitBase (s : Dm) (p : RfPath) : Dm :=
  { s with swingIdxOfdmBase := Function.update s.swingIdxOfdmBase p (s.swingIdxOfdm p) }

/-- Lines 1273–1357. -/
def moveSwing (t : Swing) (thermal : ℕ) (s : Dm) : Except Checked.Fault Dm :=
  if 0 < distance thermal s.thermalvalue ∧ s.txpowerTrackControl then do
    let delta := distance thermal dev.base
    let delta := if txscaleTableSize ≤ delta then txscaleTableSize - 1 else delta
    let s ← dev.paths.foldlM (moveIndex dev t thermal delta) s
    let s := dev.paths.foldl (offsetIndex dev) s
    .ok { s with cckIndex := if lastScale < s.cckIndex then lastScale else s.cckIndex }
  else .ok (dev.paths.foldl clearOffset s)

/-- Lines 1363–1402. -/
def configureSwing (setPwr : Dm → RfPath → Except Checked.Fault Dm) (thermal : ℕ) (s : Dm) :
    Except Checked.Fault Dm :=
  if (s.powerIndexOffset .a ≠ 0 ∨ s.powerIndexOffset .b ≠ 0) ∧ s.txpowerTrackControl then do
    let s ← dev.paths.foldlM setPwr s
    let s := dev.paths.foldl commitBase { s with swingIdxCckBase := s.swingIdxCck }
    .ok { s with thermalvalue := thermal }
  else .ok s

/-- `IQK_THRESHOLD`. -/
def iqkThreshold : ℕ := 8

/-- Lines 1263–1267. -/
def lcCalibrate (thermal : ℕ) (s : Dm) : Dm :=
  if iqkThreshold ≤ distance thermal s.thermalvalueLck then { s with thermalvalueLck := thermal }
  else s

/-- `rtl8812au_do_iqk` and `rtl8821au_do_iqk`, if the temperature has changed by enough. -/
def doIqk (thermal deltaIqk : ℕ) (s : Dm) : Dm :=
  if iqkThreshold ≤ deltaIqk then { s with thermalvalueIqk := thermal } else s

/-- What the two callbacks have in common. -/
def txpowerTrackingCallback (t : Swing) (setPwr : Dm → RfPath → Except Checked.Fault Dm)
    (reading : Fin 64) (s : Dm) : Except Checked.Fault Dm :=
  if s.txpowerTrackControl ∧ dev.calibrated then do
    let s := recordReading reading s
    let thermal := average reading s
    let deltaIqk := distance thermal s.thermalvalueIqk
    let s ← moveSwing dev t thermal (lcCalibrate thermal s)
    let s ← configureSwing dev setPwr thermal s
    .ok (doIqk thermal deltaIqk s)
  else .ok s

/-- `rtl8812au_dm_txpower_tracking_callback_thermalmeter`. -/
def rtl8812auTxpowerTrackingCallback (reading : Fin 64) (s : Dm) : Except Checked.Fault Dm :=
  txpowerTrackingCallback dev
    (rtl8812auGetDeltaSwingTable dev.rfeType dev.normalChip s.txRate s.currentChannel)
    pxpwrTrackSetPwr reading s

/-- `rtl8821au_dm_txpower_tracking_callback_thermalmeter`. -/
def rtl8821auTxpowerTrackingCallback (reading : Fin 64) (s : Dm) : Except Checked.Fault Dm :=
  txpowerTrackingCallback dev (rtl8821auGetDeltaSwingTable s.currentChannel)
    (txpwrTrackSetPwr dev) reading s

/-- `rtl8821au_check_tx_power_tracking_thermalmeter` (lines 1600–1624). -/
def checkTxPowerTracking (reading : Fin 64) (s : Dm) : Except Checked.Fault Dm :=
  match dev.chip with
  | .rtl8812 => rtl8812auTxpowerTrackingCallback dev reading s
  | .rtl8821 => rtl8821auTxpowerTrackingCallback dev reading s

/-! ## Runs -/

/-- What happens to these variables: a reading, a switch of the band, a new channel or a new rate,
    the reset after a channel or a bandwidth is programmed, and the initialisation. -/
inductive Event where
  | track (reading : Fin 64)
  | switchBand (band : Band)
  | setChannel (channel : ℕ)
  | updateInitRate (rate : ℕ)
  | clean
  | init

def step (s : Dm) : Event → Except Checked.Fault Dm
  | .track reading => checkTxPowerTracking dev reading s
  | .switchBand band => .ok (switchWirelessband dev band s)
  | .setChannel channel => .ok { s with currentChannel := channel }
  | .updateInitRate rate => .ok { s with txRate := rate }
  | .clean => .ok (cleanTxpowerTrackingState dev s)
  | .init => .ok (initializeTxpowerTracking dev s)

/-- All zero, in the 2.4 GHz band. -/
def zeroed : Dm where
  currentBandtype := .on24G
  currentChannel := 0
  txRate := 0
  txpowerTrackControl := false
  thermalvalue := 0
  thermalvalueIqk := 0
  thermalvalueLck := 0
  thermalvalueAvg := fun _ => 0
  thermalvalueAvgIndex := 0
  defaultOfdmIndex := 0
  ofdmIndex := fun _ => 0
  deltaPowerIndex := fun _ => 0
  deltaPowerIndexLast := fun _ => 0
  powerIndexOffset := fun _ => 0
  absoluteOfdmSwingIdx := fun _ => 0
  remnantOfdmSwingIdx := fun _ => 0
  swingIdxOfdm := fun _ => 0
  swingIdxOfdmBase := fun _ => 0
  defaultCckIndex := 0
  cckIndex := 0
  remnantCckIdx := 0
  swingIdxCck := 0
  swingIdxCckBase := 0
  modifyTxagcFlagPathA := false
  swingDiff := fun _ => 0
  txScale := fun _ => 0

/-- When the hardware has been brought up in a band (`hw.c`, lines 2188–2215). -/
def start (band : Band) : Dm := initializeTxpowerTracking dev (switchWirelessband dev band zeroed)

/-- A run, which ends at the first read outside a table. -/
def runStep (x : Except Checked.Fault Dm) (e : Event) : Except Checked.Fault Dm :=
  x >>= fun s => step dev s e

end Rtl8821au.Phy.ThermalTrack
