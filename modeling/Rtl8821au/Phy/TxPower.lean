import Mathlib.Algebra.BigOperators.Fin
import Mathlib.Tactic.IntervalCases
import Rtl8821au.Lib.Checked
import Rtl8821au.Phy.PowerLimit

/-!
# The index of the transmit power

`_rtl8821au_get_txpower_index` (`phy.c`, lines 3407–3492) over the calibration, and the three bytes
for training (lines 5075–5108).

* `streams_sum`: the differences of the streams.
* `index_base_eq`: the sum of base and differences, as a byte.
* `index_right`: the index is the sum, limited.

**What the code does on purpose.** On a chip that is not a normal one it takes one from an index
that is odd.

**What goes wrong.** The sum is only limited from above, and kept in eight bits: below zero, and
from 128 on, it is another number. A channel that is in no table has the index of its number.
At 80 MHz in the 5 GHz band the rate MCS 23 has the difference of four streams, and the rates
without streams lose theirs.

What the power by rate, the limit and the tracking return is arbitrary.
-/

namespace Rtl8821au.Phy.TxPower

open Checked PowerLimit

/-! ## Numbers -/

/-- A number kept in an `u8`, and in a `s8`. -/
def u8 (x : ℤ) : ℤ := x % 256

def s8 (x : ℤ) : ℤ := (x + 128) % 256 - 128

/-! ## Calibration -/

/-- `RF90_PATH_A` to `RF90_PATH_D`; `MAX_RF_PATH` is 4. -/
inductive RfPath where
  | a
  | b
  | c
  | d
deriving DecidableEq

def RfPath.idx : RfPath → ℕ
  | .a => 0
  | .b => 1
  | .c => 2
  | .d => 3

/-- The base of the power for so many channels, and its differences for one to four streams, of
    four bits with a sign. -/
abbrev Bases (n : ℕ) : Type := RfPath → Fin n → Fin 64

abbrev Diffs : Type := RfPath → Fin 4 → BitVec 4

/-- The power in `struct rtl_efuse` (`wifi.h`, lines 377–407). -/
structure Calibration where
  cck : Bases 14
  ht40Level : Bases 59
  legacyHtDiff : Diffs
  ht20Diff : Diffs
  ht40Diff : Diffs
  bw40Base5g : Bases 59
  bw80Base5g : Bases 7
  ofdmDiff5g : Diffs
  bw20Diff5g : Diffs
  bw40Diff5g : Diffs
  bw80Diff5g : Diffs

/-- One entry. -/
def readBase {n : ℕ} (bases : Bases n) (path : RfPath) (i : ℕ) : Except Checked.Fault ℤ :=
  if h : i < n then .ok (bases path ⟨i, h⟩).val else .error .beyond

/-! ## Rates -/

/-- `IS_CCK_RATE`. -/
def isCckRate (rate : ℕ) : Bool := rate = 0x02 ∨ rate = 0x04 ∨ rate = 0x0B ∨ rate = 0x16

/-- From `MGN_6M` to `MGN_54M`, without the rates of CCK. -/
def isOfdmRate (rate : ℕ) : Bool := 0x0C ≤ rate ∧ rate ≤ 0x6C ∧ ¬ isCckRate rate

/-- From a rate of HT to `MGN_MCS31`, or from one of VHT to `MGN_VHT4SS_MCS9`. -/
def ratesFrom (ht vht rate : ℕ) : Bool := ht ≤ rate ∧ rate ≤ 0x9F ∨ vht ≤ rate ∧ rate ≤ 0xC7

theorem stream0_lt : 0 < 4 := by decide

theorem stream1_lt : 1 < 4 := by decide

theorem stream2_lt : 2 < 4 := by decide

theorem stream3_lt : 3 < 4 := by decide

/-- The differences that are added for the streams; `ht4` is the first rate of HT that has the
    fourth. -/
def addStreams (diff : Fin 4 → BitVec 4) (ht4 rate : ℕ) (txPower : ℤ) : ℤ :=
  let txPower :=
    if ratesFrom 0x80 0xA0 rate then u8 (txPower + (diff ⟨0, stream0_lt⟩).toInt) else txPower
  let txPower :=
    if ratesFrom 0x88 0xAA rate then u8 (txPower + (diff ⟨1, stream1_lt⟩).toInt) else txPower
  let txPower :=
    if ratesFrom 0x90 0xB4 rate then u8 (txPower + (diff ⟨2, stream2_lt⟩).toInt) else txPower
  if ratesFrom ht4 0xBE rate then u8 (txPower + (diff ⟨3, stream3_lt⟩).toInt) else txPower

/-! ## The index -/

/-- `_rtl8821au_phy_get_chnl_index` (lines 2903–2932); `idx` is what is in `ChannelIdx`. -/
def getChnlIndex (channel : UInt8) (idx : ℕ) : Bool × ℕ :=
  if channel ≤ 14 then (true, (channel - 1).toNat)
  else (false, (channel5G.findIdx? (· == channel)).getD idx)

/-- `channel5G_80M`. -/
def channel5G80M : List UInt8 := [42, 58, 106, 122, 138, 155, 171]

/-- The loop over it, without an end at what is found. -/
def index80M (channel : UInt8) (idx : ℕ) : ℕ :=
  (List.range 7).foldl (fun idx i => if channel5G80M[i]? = some channel then i else idx) idx

/-- The base (lines 2955–2962, and 3027–3032). -/
def readBase24G (cal : Calibration) (path : RfPath) (rate chnlIdx : ℕ) : Except Checked.Fault ℤ :=
  if isCckRate rate then readBase cal.cck path chnlIdx
  else if 0x0C ≤ rate then readBase cal.ht40Level path chnlIdx
  else .ok 0

def readBase5G (cal : Calibration) (path : RfPath) (rate chnlIdx : ℕ) : Except Checked.Fault ℤ :=
  if 0x0C ≤ rate then readBase cal.bw40Base5g path chnlIdx else .ok 0

/-- The 2.4 GHz part of `_rtl8821au_get_txpower_index_base` (lines 2954–3025). -/
def indexBase24G (cal : Calibration) (path : RfPath) (rate : ℕ) (width : ChannelWidth)
    (chnlIdx : ℕ) : Except Checked.Fault ℤ := do
  let txPower ← readBase24G cal path rate chnlIdx
  let txPower :=
    if isOfdmRate rate then u8 (txPower + (cal.legacyHtDiff path ⟨0, stream0_lt⟩).toInt) else txPower
  match width with
  | .width20 => .ok (addStreams (cal.ht20Diff path) 0x98 rate txPower)
  | .width40 => .ok (addStreams (cal.ht40Diff path) 0x98 rate txPower)
  | .width80 => .ok (addStreams (cal.ht40Diff path) 0x98 rate txPower)
  | _ => .ok txPower

/-- The 5 GHz part (lines 3026–3099). -/
def indexBase5G (cal : Calibration) (path : RfPath) (rate : ℕ) (width : ChannelWidth)
    (channel : UInt8) (chnlIdx : ℕ) : Except Checked.Fault ℤ := do
  let txPower ← readBase5G cal path rate chnlIdx
  let txPower :=
    if isOfdmRate rate then u8 (txPower + (cal.ofdmDiff5g path ⟨0, stream0_lt⟩).toInt) else txPower
  match width with
  | .width20 => .ok (addStreams (cal.bw20Diff5g path) 0x98 rate txPower)
  | .width40 => .ok (addStreams (cal.bw40Diff5g path) 0x98 rate txPower)
  | .width80 => do
    -- what was read before is lost
    let txPower ← readBase cal.bw80Base5g path (index80M channel chnlIdx)
    .ok (addStreams (cal.bw80Diff5g path) 0x97 rate txPower)
  | _ => .ok txPower

/-- `_rtl8821au_get_txpower_index_base` (lines 2938–3103). -/
def getTxpowerIndexBase (cal : Calibration) (path : RfPath) (rate : ℕ) (width : ChannelWidth)
    (channel : UInt8) : Except Checked.Fault ℤ :=
  let (in24G, chnlIdx) := getChnlIndex channel (channel - 1).toNat
  if in24G then indexBase24G cal path rate width chnlIdx
  else indexBase5G cal path rate width channel chnlIdx

/-- What the power by rate, the limit and the tracking return for a rate. -/
structure Offsets where
  byRate : ℕ → Int8
  limit : ℕ → Int8
  tracking : ℕ → Int8

/-- `_rtl8821au_get_txpower_index`. -/
def getTxpowerIndex (cal : Calibration) (o : Offsets) (isNormalChip : Bool) (path : RfPath)
    (rate : ℕ) (width : ChannelWidth) (channel : UInt8) : Except Checked.Fault ℤ := do
  let base ← getTxpowerIndexBase cal path rate width channel
  let txpower := s8 base
  let byRate := (o.byRate rate).toInt
  let limit := (o.limit rate).toInt
  let byRate := if byRate > limit then limit else byRate
  let txpower := s8 (txpower + byRate)
  let txpower := s8 (txpower + (o.tracking rate).toInt)
  let txpower := if txpower > maxPowerIndex then maxPowerIndex else txpower
  let txpower := if txpower.tmod 2 = 1 ∧ ¬ isNormalChip then s8 (txpower - 1) else txpower
  .ok (u8 txpower)

/-! ## Training -/

/-- The data of `_rtl8821au_phy_txpower_training_by_path` (lines 5096–5105). -/
def trainingData (powerLevel : BitVec 32) : BitVec 32 :=
  let atLeast2 (x : BitVec 32) : BitVec 32 := if 2 < x then x else 2
  let level0 := powerLevel - 10
  let level1 := level0 - 8
  let level2 := level1 - 6
  atLeast2 level0 ||| (atLeast2 level1 <<< 8) ||| (atLeast2 level2 <<< 16)

/-- A byte of it; the register takes three. -/
def byteOf (data : BitVec 32) (i : ℕ) : ℕ := (data >>> (8 * i)).toNat % 256

/-- `_rtl8821au_phy_txpower_training_by_path`: what is written for a path, if it is there. -/
def txpowerTraining (numTotalRfpath : ℕ) (cal : Calibration) (o : Offsets) (isNormalChip : Bool)
    (path : RfPath) (width : ChannelWidth) (channel : UInt8) :
    Except Checked.Fault (Option (BitVec 32)) :=
  if numTotalRfpath ≤ path.idx then .ok none
  else do
    let powerLevel ← getTxpowerIndex cal o isNormalChip (if path = .a then .a else .b) 0x87 width
      channel
    .ok (some (trainingData (.ofInt 32 powerLevel)))

/-! ## What it should be -/

/-- The calibration, the power by rate and so on of a channel. -/
structure Request where
  cal : Calibration
  offsets : Offsets
  isNormalChip : Bool
  numTotalRfpath : ℕ
  width : ChannelWidth
  channel : UInt8

/-- The spatial streams of a rate of HT or VHT. -/
def streams (rate : ℕ) : ℕ :=
  if 0x80 ≤ rate ∧ rate ≤ 0x9F then (rate - 0x80) / 8 + 1
  else if 0xA0 ≤ rate ∧ rate ≤ 0xC7 then (rate - 0xA0) / 10 + 1
  else 0

/-- A difference for each of them. -/
def streamDiffs (diff : Fin 4 → BitVec 4) (rate : ℕ) : ℤ :=
  ∑ i : Fin 4, if i.val < streams rate then (diff i).toInt else 0

/-- The base of a channel in a table of these channels. -/
def lookup {n : ℕ} (bases : Bases n) (channels : List UInt8) (path : RfPath) (channel : UInt8) :
    Option ℤ :=
  (channels.findIdx? (· == channel)).bind fun i =>
    if h : i < n then some (bases path ⟨i, h⟩).val else none

namespace Request

variable (q : Request) (path : RfPath) (rate : ℕ)

/-- The base; a rate that has none adds nothing. -/
def base : Option ℤ :=
  if q.channel ≤ 14 then
    if isCckRate rate then lookup q.cal.cck Band.on24G.channelList path q.channel
    else if 0x0C ≤ rate then lookup q.cal.ht40Level Band.on24G.channelList path q.channel
    else some 0
  else if q.width = .width80 then lookup q.cal.bw80Base5g channel5G80M path q.channel
  else if 0x0C ≤ rate then lookup q.cal.bw40Base5g Band.on5G.channelList path q.channel
  else some 0

/-- The difference of a rate without streams. -/
def ofdmDiff : ℤ :=
  if isOfdmRate rate then
    ((if q.channel ≤ 14 then q.cal.legacyHtDiff path ⟨0, stream0_lt⟩
      else q.cal.ofdmDiff5g path ⟨0, stream0_lt⟩) : BitVec 4).toInt
  else 0

/-- The differences of the bandwidth. -/
def widthDiffs : Option Diffs :=
  match q.width with
  | .width20 => some (if q.channel ≤ 14 then q.cal.ht20Diff else q.cal.bw20Diff5g)
  | .width40 => some (if q.channel ≤ 14 then q.cal.ht40Diff else q.cal.bw40Diff5g)
  | .width80 => some (if q.channel ≤ 14 then q.cal.ht40Diff else q.cal.bw80Diff5g)
  | _ => none

/-- The sum, given the base. -/
def sum (base : ℤ) : ℤ :=
  base + q.ofdmDiff path rate + q.widthDiffs.elim 0 (fun diff => streamDiffs (diff path) rate) +
    min (q.offsets.byRate rate).toInt (q.offsets.limit rate).toInt +
    (q.offsets.tracking rate).toInt

/-- A sum between 0 and `MAX_POWER_INDEX`. -/
def limited (x : ℤ) : ℤ := max 0 (min x maxPowerIndex)

/-- Less one, if it is odd and the chip is not a normal one. -/
def lowered (x : ℤ) : ℤ := if x % 2 = 1 ∧ ¬ q.isNormalChip then x - 1 else x

def index : Except Checked.Fault ℤ :=
  getTxpowerIndex q.cal q.offsets q.isNormalChip path rate q.width q.channel

def training : Except Checked.Fault (Option (BitVec 32)) :=
  txpowerTraining q.numTotalRfpath q.cal q.offsets q.isNormalChip path q.width q.channel

/-- Every read is inside, and the index is the sum between the limits. -/
def IndexExact : Prop :=
  ∃ base ∈ q.base path rate, q.index path rate = .ok (limited (q.sum path rate base))

/-- Less one on a chip that is not normal. -/
def IndexRight : Prop :=
  ∃ base ∈ q.base path rate, q.index path rate = .ok (q.lowered (limited (q.sum path rate base)))

/-- Every byte is between 2 and `MAX_POWER_INDEX`. -/
def TrainingRight : Prop :=
  ∃ data, q.training path = .ok data ∧
    ∀ d ∈ data, ∀ i < 3, 2 ≤ byteOf d i ∧ (byteOf d i : ℤ) ≤ maxPowerIndex

/-! ## When it is -/

/-- The difference of four streams is only added to rates that have them, and that of a rate
    without streams is not lost. -/
def DiffsKept : Prop :=
  14 < q.channel → q.width = .width80 →
    (rate = 0x97 → q.cal.bw80Diff5g path ⟨3, stream3_lt⟩ = 0) ∧ q.ofdmDiff path rate = 0

/-- The channel is in the table, and the sum in seven bits. -/
def Fits : Prop :=
  (∃ base ∈ q.base path rate, 0 ≤ q.sum path rate base ∧ q.sum path rate base ≤ 127) ∧
    q.DiffsKept path rate

/-- The path is not there, or its index at MCS 7 is large enough to take 24 from it. -/
def TrainingFits : Prop :=
  path.idx < q.numTotalRfpath →
    q.Fits (if path = .a then .a else .b) 0x87 ∧
      ∀ base ∈ q.base (if path = .a then .a else .b) 0x87,
        24 ≤ q.lowered (limited (q.sum (if path = .a then .a else .b) 0x87 base))

end Request

/-! ## The parts -/

section parts

variable {diff : Fin 4 → BitVec 4} {rate : ℕ} {txPower : ℤ}

theorem u8_u8_add (x y : ℤ) : u8 (u8 x + y) = u8 (x + y) := Int.emod_add_emod _ _ _

theorem u8_u8 (x : ℤ) : u8 (u8 x) = u8 x := Int.emod_emod_of_dvd _ (Int.dvd_refl 256)

theorem ratesFrom_iff {k : ℕ} (hk : k < 4) :
    ratesFrom (0x80 + 8 * k) (0xA0 + 10 * k) rate = decide (k < streams rate) := by
  rw [ratesFrom, streams, decide_eq_decide]
  split_ifs <;> omega

theorem streams_le (rate : ℕ) : streams rate ≤ 4 := by
  rw [streams]
  split_ifs <;> omega

/-- The differences of the streams. -/
theorem addStreams_eq (htx : u8 txPower = txPower) :
    addStreams diff 0x98 rate txPower = u8 (txPower + streamDiffs diff rate) := by
  have h1 : ratesFrom 0x80 0xA0 rate = decide (0 < streams rate) := @ratesFrom_iff rate 0 (by decide)
  have h2 : ratesFrom 0x88 0xAA rate = decide (1 < streams rate) := @ratesFrom_iff rate 1 (by decide)
  have h3 : ratesFrom 0x90 0xB4 rate = decide (2 < streams rate) := @ratesFrom_iff rate 2 (by decide)
  have h4 : ratesFrom 0x98 0xBE rate = decide (3 < streams rate) := @ratesFrom_iff rate 3 (by decide)
  have hle := streams_le rate
  rw [addStreams, h1, h2, h3, h4, streamDiffs, Fin.sum_univ_four]
  interval_cases streams rate
  · simp [htx]
  · simp
  · simp [u8_u8_add, add_assoc]
  · simp [u8_u8_add, add_assoc]
  · simp [u8_u8_add, add_assoc]

/-- With the fourth one rate too early, if that changes nothing. -/
theorem addStreams_early (htx : u8 txPower = txPower) (h : rate = 0x97 → diff 3 = 0) :
    addStreams diff 0x97 rate txPower = u8 (txPower + streamDiffs diff rate) := by
  rw [← addStreams_eq htx]
  by_cases hrate : rate = 0x97
  · subst hrate
    simp [addStreams, ratesFrom, h rfl, u8_u8]
  · have hsame : ratesFrom 0x97 0xBE rate = ratesFrom 0x98 0xBE rate := by
      rw [ratesFrom, ratesFrom, decide_eq_decide]
      omega
    rw [addStreams, addStreams, hsame]

/-- A channel that a table has is read at its place there. -/
theorem readBase_lookup {n : ℕ} {bases : Bases n} {channels : List UInt8} {path : RfPath}
    {channel : UInt8} {base : ℤ} (h : base ∈ lookup bases channels path channel) :
    ∃ i, channels.findIdx? (· == channel) = some i ∧ readBase bases path i = .ok base := by
  obtain ⟨i, hi, h⟩ := Option.bind_eq_some_iff.mp h
  refine ⟨i, hi, ?_⟩
  rw [readBase]
  split_ifs at h ⊢ with hn
  · rw [Option.some.inj h]

theorem base_range {n : ℕ} {bases : Bases n} {path : RfPath} {i : ℕ} {base : ℤ}
    (h : readBase bases path i = .ok base) : u8 base = base := by
  rw [readBase] at h
  split_ifs at h with hn
  have hbase := Except.ok.inj h
  have hlt := (bases path ⟨i, hn⟩).isLt
  rw [u8]
  omega

end parts

/-! ## Channels -/

section channels

variable {channel : UInt8} {i : ℕ}

/-- A channel that has a place is in the list. -/
theorem mem_of_position {channels : List UInt8}
    (h : channels.findIdx? (· == channel) = some i) : channel ∈ channels := by
  obtain ⟨hi, hx, -⟩ := List.findIdx?_eq_some_iff_getElem.mp h
  exact beq_iff_eq.mp hx ▸ List.getElem_mem hi

theorem position_24G (h : Band.on24G.channelList.findIdx? (· == channel) = some i) :
    channel ≠ 0 ∧ (channel - 1).toNat = i := by
  have hmem := mem_of_position h
  simp only [Band.channelList, List.mem_cons, List.not_mem_nil, or_false] at hmem
  rcases hmem with rfl | rfl | rfl | rfl | rfl | rfl | rfl | rfl | rfl | rfl | rfl | rfl | rfl |
    rfl <;>
    exact ⟨by decide, Option.some.inj h⟩

theorem position_80M (h : channel5G80M.findIdx? (· == channel) = some i) (idx : ℕ) :
    index80M channel idx = i ∧ ∃ j < 59, channel5G.findIdx? (· == channel) = some j := by
  have hmem := mem_of_position h
  simp only [channel5G80M, List.mem_cons, List.not_mem_nil, or_false] at hmem
  rcases hmem with rfl | rfl | rfl | rfl | rfl | rfl | rfl <;>
    obtain rfl := Option.some.inj h
  all_goals exact ⟨rfl, _, by decide, rfl⟩

end channels

/-! ## The index -/

section index

variable {q : Request} {path : RfPath} {rate : ℕ} {base : ℤ}

/-- Base and differences, without the offsets. -/
def Request.levels (q : Request) (path : RfPath) (rate : ℕ) (base : ℤ) : ℤ :=
  base + q.ofdmDiff path rate + q.widthDiffs.elim 0 (fun diff => streamDiffs (diff path) rate)

theorem if_u8_add {P : Prop} [Decidable P] {x d : ℤ} (hx : u8 x = x) :
    (if P then u8 (x + d) else x) = u8 (x + if P then d else 0) := by
  split_ifs
  · rfl
  · rw [add_zero, hx]

/-- The base in the 2.4 GHz band. -/
theorem readBase24G_eq (h14 : q.channel ≤ 14) (hbase : base ∈ q.base path rate) :
    readBase24G q.cal path rate (q.channel - 1).toNat = .ok base ∧ u8 base = base := by
  rw [Request.base, if_pos h14] at hbase
  rw [readBase24G]
  split_ifs at hbase ⊢ with hcck hlow
  · obtain ⟨i, hi, hread⟩ := readBase_lookup hbase
    rw [(position_24G hi).2]
    exact ⟨hread, base_range hread⟩
  · obtain ⟨i, hi, hread⟩ := readBase_lookup hbase
    rw [(position_24G hi).2]
    exact ⟨hread, base_range hread⟩
  · obtain rfl := Option.some.inj hbase
    exact ⟨rfl, rfl⟩

theorem indexBase24G_eq (h14 : q.channel ≤ 14) (hbase : base ∈ q.base path rate) :
    getTxpowerIndexBase q.cal path rate q.width q.channel =
      .ok (u8 (q.levels path rate base)) := by
  obtain ⟨hread, hrange⟩ := readBase24G_eq h14 hbase
  rw [getTxpowerIndexBase, getChnlIndex, if_pos h14]
  simp only [if_true, indexBase24G, hread, bind_ok, if_u8_add hrange, Request.levels,
    Request.ofdmDiff, Request.widthDiffs, if_pos h14]
  cases q.width <;> simp only [addStreams_eq (u8_u8 _), u8_u8_add, Option.elim, add_zero]

/-- The base in the 5 GHz band, but at 80 MHz. -/
theorem readBase5G_eq (h14 : ¬ q.channel ≤ 14) (hwidth : q.width ≠ .width80)
    (hbase : base ∈ q.base path rate) (idx : ℕ) :
    readBase5G q.cal path rate ((channel5G.findIdx? (· == q.channel)).getD idx) = .ok base ∧
      u8 base = base := by
  rw [Request.base, if_neg h14, if_neg hwidth] at hbase
  rw [readBase5G]
  split_ifs at hbase ⊢ with hlow
  · obtain ⟨i, hi, hread⟩ := readBase_lookup hbase
    have hi' : channel5G.findIdx? (· == q.channel) = some i := hi
    rw [hi']
    exact ⟨hread, base_range hread⟩
  · obtain rfl := Option.some.inj hbase
    exact ⟨rfl, rfl⟩

theorem indexBase5G_eq (h14 : ¬ q.channel ≤ 14) (hbase : base ∈ q.base path rate)
    (hkept : q.DiffsKept path rate) :
    getTxpowerIndexBase q.cal path rate q.width q.channel =
      .ok (u8 (q.levels path rate base)) := by
  rw [getTxpowerIndexBase, getChnlIndex, if_neg h14]
  simp only [Bool.false_eq_true, if_false, indexBase5G]
  by_cases hwidth : q.width = .width80
  · rw [Request.base, if_neg h14, if_pos hwidth] at hbase
    obtain ⟨i, hi, hread⟩ := readBase_lookup hbase
    obtain ⟨-, j, hj, hplace⟩ := position_80M hi 0
    have hindex := (position_80M hi j).1
    obtain ⟨hearly, hofdm⟩ := hkept (UInt8.not_le.mp h14) hwidth
    obtain ⟨first, hfirst⟩ : ∃ first, readBase5G q.cal path rate j = .ok first := by
      rw [readBase5G]
      split_ifs
      · exact ⟨_, dif_pos hj⟩
      · exact ⟨0, rfl⟩
    have hdiffs : q.widthDiffs = some q.cal.bw80Diff5g := by
      rw [Request.widthDiffs, hwidth]
      exact congrArg some (if_neg h14)
    rw [hplace, Option.getD_some, hfirst, bind_ok, hwidth, Request.levels, hofdm, hdiffs, add_zero]
    simp only [hindex, hread, bind_ok, addStreams_early (base_range hread) hearly, Option.elim]
  · obtain ⟨hread, hrange⟩ := readBase5G_eq h14 hwidth hbase (q.channel - 1).toNat
    simp only [hread, bind_ok, if_u8_add hrange, Request.levels, Request.ofdmDiff,
      Request.widthDiffs, if_neg h14]
    cases hw : q.width <;>
      simp only [addStreams_eq (u8_u8 _), u8_u8_add, Option.elim, add_zero]
    exact absurd hw hwidth

theorem s8_u8 (x : ℤ) : s8 (u8 x) = s8 x := by
  rw [s8, s8, u8]
  omega

theorem s8_s8_add (x y : ℤ) : s8 (s8 x + y) = s8 (x + y) := by
  rw [s8, s8, s8]
  omega

theorem s8_eq {x : ℤ} (h0 : 0 ≤ x) (h127 : x ≤ 127) : s8 x = x := by
  rw [s8]
  omega

theorem limited_range (x : ℤ) : 0 ≤ Request.limited x ∧ Request.limited x ≤ 63 := by
  rw [Request.limited, maxPowerIndex]
  omega

theorem lowered_range (q : Request) {x : ℤ} (h0 : 0 ≤ x) (h63 : x ≤ 63) :
    0 ≤ q.lowered x ∧ q.lowered x ≤ 63 := by
  rw [Request.lowered]
  split_ifs <;> omega

/-- The sum in seven bits is limited, and made even if it has to be. -/
theorem index_right_of_fits (h : q.Fits path rate) : q.IndexRight path rate := by
  obtain ⟨⟨base, hbase, h0, h127⟩, hkept⟩ := h
  have hindex : getTxpowerIndexBase q.cal path rate q.width q.channel =
      .ok (u8 (q.levels path rate base)) := by
    by_cases h14 : q.channel ≤ 14
    · exact indexBase24G_eq h14 hbase
    · exact indexBase5G_eq h14 hbase hkept
  have hsum : q.sum path rate base = q.levels path rate base +
      min (q.offsets.byRate rate).toInt (q.offsets.limit rate).toInt +
      (q.offsets.tracking rate).toInt := rfl
  have hmin : (if (q.offsets.byRate rate).toInt > (q.offsets.limit rate).toInt then
      (q.offsets.limit rate).toInt else (q.offsets.byRate rate).toInt) =
        min (q.offsets.byRate rate).toInt (q.offsets.limit rate).toInt := by
    rw [min_def]
    split_ifs <;> omega
  refine ⟨base, hbase, ?_⟩
  rw [Request.index, getTxpowerIndex, hindex, bind_ok]
  simp only [hmin, s8_u8, s8_s8_add, ← hsum, s8_eq h0 h127]
  have hlimited : (if q.sum path rate base > maxPowerIndex then maxPowerIndex
      else q.sum path rate base) = Request.limited (q.sum path rate base) := by
    rw [Request.limited, maxPowerIndex]
    split_ifs <;> omega
  obtain ⟨hlow, hhigh⟩ := limited_range (q.sum path rate base)
  rw [hlimited, Request.lowered, Int.tmod_eq_emod_of_nonneg hlow]
  split_ifs with hodd
  · rw [s8_eq (by omega) (by omega), u8, Int.emod_eq_of_lt (by omega) (by omega)]
  · rw [u8, Int.emod_eq_of_lt (by omega) (by omega)]

/-- From 24 on every level that is trained stays above zero. -/
theorem trainingByte_range : ∀ p < 64, 24 ≤ p → ∀ i < 3,
    2 ≤ byteOf (trainingData (.ofNat 32 p)) i ∧ byteOf (trainingData (.ofNat 32 p)) i ≤ 63 := by
  decide +kernel

theorem training_right_of_fits (h : q.TrainingFits path) : q.TrainingRight path := by
  rw [Request.TrainingRight, Request.training, txpowerTraining]
  by_cases hpath : q.numTotalRfpath ≤ path.idx
  · refine ⟨none, if_pos hpath, fun d hd => ?_⟩
    cases hd
  · obtain ⟨hfits, h24⟩ := h (Nat.lt_of_not_le hpath)
    obtain ⟨base, hbase, hindex⟩ := index_right_of_fits hfits
    rw [Request.index] at hindex
    have hlevel := h24 base hbase
    obtain ⟨hlow, hhigh⟩ := limited_range
      (q.sum (if path = .a then .a else .b) 0x87 base)
    obtain ⟨hlow, hhigh⟩ := lowered_range q hlow hhigh
    rw [if_neg hpath, hindex, bind_ok]
    refine ⟨_, rfl, fun d hd i hi => ?_⟩
    obtain rfl := Option.some.inj hd
    generalize q.lowered _ = p at hlevel hlow hhigh ⊢
    lift p to ℕ using hlow
    have hbyte := trainingByte_range p (by omega) (by omega) i hi
    rw [maxPowerIndex, BitVec.ofInt_natCast]
    exact ⟨hbyte.1, by exact_mod_cast hbyte.2⟩

/-- For a channel that is in the tables, and a sum in seven bits, the index is the sum between the
    limits, less one if it is odd and the chip not a normal one, and the bytes for training are
    between theirs if it is large enough. -/
theorem power_right (q : Request) (path : RfPath) :
    (∀ rate, q.Fits path rate → q.IndexRight path rate) ∧
      (q.TrainingFits path → q.TrainingRight path) :=
  ⟨fun _ => index_right_of_fits, training_right_of_fits⟩

end index

/-! ## Two chips -/

/-- Every base is the same, and there are no differences. -/
def flat (level : Fin 64) : Calibration where
  cck := fun _ _ => level
  ht40Level := fun _ _ => level
  legacyHtDiff := fun _ _ => 0
  ht20Diff := fun _ _ => 0
  ht40Diff := fun _ _ => 0
  bw40Base5g := fun _ _ => level
  bw80Base5g := fun _ _ => level
  ofdmDiff5g := fun _ _ => 0
  bw20Diff5g := fun _ _ => 0
  bw40Diff5g := fun _ _ => 0
  bw80Diff5g := fun _ _ => 0

/-- Channel 36, and no power by rate. -/
def chip (level : Fin 64) (isNormalChip : Bool) : Request where
  cal := flat level
  offsets := ⟨fun _ => 0, fun _ => 63, fun _ => 0⟩
  isNormalChip := isNormalChip
  numTotalRfpath := 1
  width := .width20
  channel := 36

theorem chip_fits (level : Fin 64) (isNormalChip : Bool) :
    (chip level isNormalChip).Fits .a 0x87 ∧
      (chip level isNormalChip).sum .a 0x87 level.val = level.val := by
  have hsum : (chip level isNormalChip).sum .a 0x87 level.val = level.val := by
    simp [Request.sum, Request.ofdmDiff, Request.widthDiffs, chip, flat, streamDiffs, isOfdmRate]
  have hlt := level.isLt
  refine ⟨⟨⟨level.val, rfl, ?_, ?_⟩, fun _ hwidth => by cases hwidth⟩, hsum⟩
  · rw [hsum]
    omega
  · rw [hsum]
    omega

/-- A test chip has 20 for 21. -/
theorem testChip_lowered : ¬ (chip 21 false).IndexExact .a 0x87 := by
  rintro ⟨base, hbase, hindex⟩
  obtain ⟨base', hbase', hright⟩ := index_right_of_fits (chip_fits 21 false).1
  have h21 : 21 = base := Option.some.inj hbase
  have h21' : 21 = base' := Option.some.inj hbase'
  have hsum : (chip 21 false).sum .a 0x87 21 = 21 := (chip_fits 21 false).2
  have heq := Except.ok.inj (hindex.symm.trans hright)
  rw [← h21, ← h21', hsum] at heq
  exact absurd heq (by decide)

/-- A normal one has 40 for 40, and can be trained. -/
theorem normalChip_right :
    (chip 40 true).IndexRight .a 0x87 ∧ (chip 40 true).TrainingRight .a := by
  refine ⟨(power_right (chip 40 true) .a).1 0x87 (chip_fits 40 true).1,
    (power_right (chip 40 true) .a).2 fun _ => ⟨(chip_fits 40 true).1, fun base hbase => ?_⟩⟩
  have h40 : 40 = base := Option.some.inj hbase
  have hsum : (chip 40 true).sum (if RfPath.a = .a then .a else .b) 0x87 40 = 40 :=
    (chip_fits 40 true).2
  rw [← h40, hsum]
  decide

end Rtl8821au.Phy.TxPower
