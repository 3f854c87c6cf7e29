import Mathlib.Data.List.Nodup
import Mathlib.Data.List.ProdSigma
import Mathlib.Data.List.Range
import Mathlib.Tactic.SplitIfs
import Rtl8821au.Lib.Run

/-!
# Limits of the transmit power

The tables `txpwr_limit_2_4g` and `txpwr_limit_5g` of `struct rtl_phy` (`wifi.h`): how they are
initialised, loaded, turned into power indices and read (`phy.c`). The second table lies right
behind the first; an index that leaves its dimension reaches the next row, as the compiled code
computes it. What the memory held before is arbitrary.

* `load_cell`, `convert_addr`: what the cells hold after loading, and after the conversion.
* `limit_used_iff`: when the limit used is the one loaded.

The loader numbers the channels by groups and the reader by positions; the loader has six rate
sections and the reader ten. Strings have no NUL and fewer than 65536 characters.
-/

namespace Rtl8821au.Phy.PowerLimit

open Run

/-! ## Tables -/

/-- The values of `enum band_type` that have a table. -/
inductive Band where
  | on24G
  | on5G
  deriving DecidableEq, Repr

/-- `MAX_2_4G_BANDWITH_NUM` and `MAX_5G_BANDWITH_NUM`. -/
def Band.bandwidths : Band → ℕ
  | .on24G => 2
  | .on5G => 4

/-- `CHANNEL_MAX_NUMBER_2G` and `CHANNEL_MAX_NUMBER_5G`. -/
def Band.channels : Band → ℕ
  | .on24G => 14
  | .on5G => 54

/-- The offset of `[i][j][k][m][l]` in the table of a band; `MAX_RATE_SECTION_NUM` is 6 and
    `MAX_RF_PATH_NUM` is 2. -/
def offset (band : Band) (i j k : ℕ) (m : ℤ) (l : ℕ) : ℤ :=
  (((i * band.bandwidths + j) * 6 + k) * band.channels + m) * 2 + l

/-- The size of a table; `MAX_REGULATION_NUM` is 3. -/
def Band.size (band : Band) : ℤ := 3 * band.bandwidths * 6 * band.channels * 2

/-- Where a table starts. -/
def Band.start : Band → ℤ
  | .on24G => 0
  | .on5G => Band.on24G.size

/-- An access: the table and the offset in it. -/
abbrev Access := Band × ℤ

/-- The access is inside its table. -/
def Inside (x : Access) : Prop := 0 ≤ x.2 ∧ x.2 < x.1.size

/-- The memory of both tables and what was accessed in it. -/
structure Tables where
  cell : ℤ → Int8
  touched : List Access

def Tables.read (t : Tables) (band : Band) (off : ℤ) : Int8 × Tables :=
  (t.cell (band.start + off), { t with touched := (band, off) :: t.touched })

def Tables.write (t : Tables) (band : Band) (off : ℤ) (v : Int8) : Tables where
  cell := Function.update t.cell (band.start + off) v
  touched := (band, off) :: t.touched

def maxPowerIndex : ℤ := 0x3F

/-- A loop nest of `_rtl8821au_phy_init_txpower_limit`. -/
def initBand (band : Band) (rateSections channels numTotalRfpath : ℕ) (t : Tables) : Tables :=
  (List.range 3 ×ˢ List.range band.bandwidths ×ˢ List.range rateSections ×ˢ List.range channels ×ˢ
    List.range numTotalRfpath).foldl
    (fun t (i, j, k, m, l) => t.write band (offset band i j k m l) (.ofInt maxPowerIndex)) t

/-- `_rtl8821au_phy_init_txpower_limit` (lines 5984–6010), with the numbers of rate sections and
    channel groups of `wifi.h` (lines 274–278). -/
def initTxpowerLimit (numTotalRfpath : ℕ) (t : Tables) : Tables :=
  initBand .on5G 4 14 numTotalRfpath (initBand .on24G 3 5 numTotalRfpath t)

/-! ## Loading -/

/-- The seven strings of a line of a limit table. -/
structure Entry where
  regulation : List Char
  band : List Char
  bandwidth : List Char
  rateSection : List Char
  rfPath : List Char
  channel : List Char
  powerLimit : List Char
  deriving DecidableEq, Repr

/-- `eqNByte` (lines 2535–2548). -/
def eqNByte (str1 str2 : List Char) (num : ℕ) : Bool :=
  num ≠ 0 && (List.range num).all fun i => str1[i]? == str2[i]?

/-- The loop of `Getu8IntegerFromStringInDecimal` (lines 2513–2530). -/
def decimal (pInt : UInt8) : List Char → Bool × UInt8
  | [] => (true, pInt)
  | c :: str =>
    if '0' ≤ c ∧ c ≤ '9' then decimal (pInt * 10 + (c.toNat - 48).toUInt8) str else (false, pInt)

def getu8IntegerFromStringInDecimal (str : List Char) : Bool × UInt8 := decimal 0 str

/-- `phy_GetChannelGroup` (lines 2551–2605). -/
def phyGetChannelGroup (band : Band) (channel : UInt8) : ℤ :=
  let c := channel.toNat
  match band with
  | .on24G =>
    if c ≤ 14 then
      if 1 ≤ c ∧ c ≤ 2 then 0
      else if 3 ≤ c ∧ c ≤ 5 then 1
      else if 6 ≤ c ∧ c ≤ 8 then 2
      else if 9 ≤ c ∧ c ≤ 11 then 3
      else if 12 ≤ c ∧ c ≤ 14 then 4
      else -1
    else -1
  | .on5G =>
    if 36 ≤ c ∧ c ≤ 42 then 0
    else if 44 ≤ c ∧ c ≤ 48 then 1
    else if 50 ≤ c ∧ c ≤ 58 then 2
    else if 60 ≤ c ∧ c ≤ 64 then 3
    else if 100 ≤ c ∧ c ≤ 106 then 4
    else if 108 ≤ c ∧ c ≤ 114 then 5
    else if 116 ≤ c ∧ c ≤ 122 then 6
    else if 124 ≤ c ∧ c ≤ 130 then 7
    else if 132 ≤ c ∧ c ≤ 138 then 8
    else if 140 ≤ c ∧ c ≤ 144 then 9
    else if 149 ≤ c ∧ c ≤ 155 then 10
    else if 157 ≤ c ∧ c ≤ 161 then 11
    else if 165 ≤ c ∧ c ≤ 171 then 12
    else if 173 ≤ c ∧ c ≤ 177 then 13
    else -1

namespace Entry

variable (e : Entry)

def isRegulation (name : List Char) : Bool := eqNByte e.regulation name name.length
def isBand (name : List Char) : Bool := eqNByte e.band name name.length
def isBandwidth (name : List Char) : Bool := eqNByte e.bandwidth name name.length
def isRateSection (name : List Char) : Bool := eqNByte e.rateSection name name.length
def isRfPath (name : List Char) : Bool := eqNByte e.rfPath name name.length

/-- `regulation` of the loader (lines 3593–3598). -/
def regulationIdx : ℕ :=
  if e.isRegulation ['F', 'C', 'C'] then 0
  else if e.isRegulation ['M', 'K', 'K'] then 1
  else if e.isRegulation ['E', 'T', 'S', 'I'] then 2
  else 0

/-- `rateSection` of the loader (lines 3600–3611). -/
def rateSectionIdx : ℕ :=
  if e.isRateSection ['C', 'C', 'K'] then 0
  else if e.isRateSection ['O', 'F', 'D', 'M'] then 1
  else if e.isRateSection ['H', 'T'] ∧ e.isRfPath ['1', 'T'] then 2
  else if e.isRateSection ['H', 'T'] ∧ e.isRfPath ['2', 'T'] then 3
  else if e.isRateSection ['V', 'H', 'T'] ∧ e.isRfPath ['1', 'T'] then 4
  else if e.isRateSection ['V', 'H', 'T'] ∧ e.isRfPath ['2', 'T'] then 5
  else 0

/-- `bandwidth` of the loader (lines 3614–3621). -/
def bandwidthIdx : ℕ :=
  if e.isBandwidth ['2', '0', 'M'] then 0
  else if e.isBandwidth ['4', '0', 'M'] then 1
  else if e.isBandwidth ['8', '0', 'M'] then 2
  else if e.isBandwidth ['1', '6', '0', 'M'] then 3
  else 0

def channelNum : UInt8 := (getu8IntegerFromStringInDecimal e.channel).2

/-- `powerLimit` of the loader (lines 3586–3591). -/
def limit : ℤ :=
  let powerLimit : ℤ := (getu8IntegerFromStringInDecimal e.powerLimit).2.toNat
  if maxPowerIndex < powerLimit then maxPowerIndex else powerLimit

/-- `channelGroup` of the loader, a `uint8_t`. -/
def channelGroup (band : Band) : ℤ := phyGetChannelGroup band e.channelNum % 256

/-- The place of the limit in the table of `band`. -/
def place (band : Band) : ℤ :=
  offset band e.regulationIdx e.bandwidthIdx e.rateSectionIdx (e.channelGroup band) 0

end Entry

/-- `_rtl8821au_phy_set_txpower_limit` (lines 3571–3636). -/
def setTxpowerLimit (t : Tables) (e : Entry) : Tables :=
  if e.isBand ['2', '.', '4', 'G'] then t.write .on24G (e.place .on24G) (.ofInt e.limit)
  else if e.isBand ['5', 'G'] then t.write .on5G (e.place .on5G) (.ofInt e.limit)
  else t

/-! ## Reading -/

/-- `enum CHANNEL_WIDTH`. -/
inductive ChannelWidth where
  | width20
  | width40
  | width80
  | width160
  | width8080
  deriving DecidableEq, Repr

/-- `bandwidth_temp` of the reader (lines 2684–2691); -1 is `none`. -/
def ChannelWidth.idx : ChannelWidth → Option ℕ
  | .width20 => some 0
  | .width40 => some 1
  | .width80 => some 2
  | .width160 => some 3
  | .width8080 => none

/-- `enum rate_section` (`wifi.h`, lines 36–47). -/
def cck : ℕ := 0
def ofdm : ℕ := 1
def htMcs0Mcs7 : ℕ := 2
def htMcs8Mcs15 : ℕ := 3
def htMcs16Mcs23 : ℕ := 4
def htMcs24Mcs31 : ℕ := 5
def vht1ss : ℕ := 6
def vht2ss : ℕ := 7
def vht3ss : ℕ := 8
def vht4ss : ℕ := 9

/-- The switch of the reader (lines 2693–2796) over `enum MGN_RATE` (`def.h`); its numbers are
    those of `enum rate_section`, and -1 is `none`. -/
def rateSection (rate : UInt8) : Option ℕ :=
  if rate = 0x02 ∨ rate = 0x04 ∨ rate = 0x0B ∨ rate = 0x16 then some cck
  else if rate = 0x0C ∨ rate = 0x12 ∨ rate = 0x18 ∨ rate = 0x24 ∨ rate = 0x30 ∨ rate = 0x48 ∨
      rate = 0x60 ∨ rate = 0x6C then some ofdm
  else if 0x80 ≤ rate ∧ rate ≤ 0x87 then some htMcs0Mcs7
  else if 0x88 ≤ rate ∧ rate ≤ 0x8F then some htMcs8Mcs15
  else if 0x90 ≤ rate ∧ rate ≤ 0x97 then some htMcs16Mcs23
  else if 0x98 ≤ rate ∧ rate ≤ 0x9F then some htMcs24Mcs31
  else if 0xA0 ≤ rate ∧ rate ≤ 0xA9 then some vht1ss
  else if 0xAA ≤ rate ∧ rate ≤ 0xB3 then some vht2ss
  else if 0xB4 ≤ rate ∧ rate ≤ 0xBD then some vht3ss
  else if 0xBE ≤ rate ∧ rate ≤ 0xC7 then some vht4ss
  else none

def channel5G : List UInt8 :=
  [36, 38, 40, 42, 44, 46, 48, 50, 52, 54, 56, 58, 60, 62, 64, 100, 102, 104, 106, 108, 110, 112,
    114, 116, 118, 120, 122, 124, 126, 128, 130, 132, 134, 136, 138, 140, 142, 144, 149, 151, 153,
    155, 157, 159, 161, 163, 165, 167, 168, 169, 171, 173, 175, 177]

/-- `_rtl8821au_get_chnl_idx_of_txpwr_limit` (lines 2620–2649); the result is a `char`. -/
def getChnlIdxOfTxpwrLimit (band : Band) (channel : UInt8) : ℤ :=
  match band with
  | .on24G => (Int8.ofInt (channel.toNat - 1)).toInt
  | .on5G =>
    (List.range 54).foldl
      (fun (idx : ℤ) (i : ℕ) => if channel5G[i]? = some channel then i else idx) (-1)

/-- `phy_GetWorldWideLimit` (lines 2607–2618). -/
def phyGetWorldWideLimit (limitTable : ℕ → Int8) : Int8 :=
  (List.range 3).foldl (fun min i => if limitTable i < min then limitTable i else min)
    (limitTable 0)

/-- The bandwidth after the workarounds of the reader (lines 2802–2815). -/
def workaround (band : Band) (rateSection bandwidth : ℕ) : ℕ :=
  let bandwidth := if rateSection = ofdm then 0 else bandwidth
  let bandwidth := if rateSection = cck then 0 else bandwidth
  if (rateSection = htMcs0Mcs7 ∨ rateSection = htMcs8Mcs15) ∧ band = .on5G ∧ bandwidth = 2 then 1
  else bandwidth

/-- `_rtl8821au_phy_get_txpower_limit` (lines 2651–2901); the regulation is always
    `TXPWR_LMT_WW`. -/
def getTxpowerLimit (eepromRegulatory : UInt8) (band : Band) (bandwidth : ChannelWidth)
    (rfPath : ℕ) (rate channel : UInt8) (t : Tables) : Int8 × Tables :=
  if eepromRegulatory = 2 then (.ofInt maxPowerIndex, t)
  else
    match rateSection rate, bandwidth.idx with
    | some sec, some bw =>
      let channelTemp := getChnlIdxOfTxpwrLimit band channel
      if channelTemp = -1 then (.ofInt maxPowerIndex, t)
      else
        let off (i : ℕ) := offset band i (workaround band sec bw) sec channelTemp rfPath
        (phyGetWorldWideLimit fun i => t.cell (band.start + off i),
          (List.range 3).foldl (fun t i => (t.read band (off i)).2) t)
    | _, _ => (.ofInt maxPowerIndex, t)

/-! ## Conversion -/

/-- The memory from `txpwr_by_rate_base_24g` and from `txpwr_by_rate_base_5g` on. -/
structure Bases where
  base24G : ℕ → UInt8
  base5G : ℕ → UInt8

/-- `RF_1TX` to `RF_4TX`. -/
def rf1Tx : ℕ := 0
def rf2Tx : ℕ := 1
def rf3Tx : ℕ := 2
def rf4Tx : ℕ := 3

/-- `_rtl8821au_phy_get_txpower_by_rate_base` (lines 5267–5361). -/
def getTxpowerByRateBase (phy : Bases) (band : Band) (path txnum rateSection : ℕ) : UInt8 :=
  if 3 < path then 0
  else
    match band with
    | .on24G =>
      if rateSection ≤ vht4ss then phy.base24G ((path * 4 + txnum) * 6 + rateSection) else 0
    | .on5G =>
      if ofdm ≤ rateSection ∧ rateSection ≤ vht4ss then
        phy.base5G ((path * 4 + txnum) * 5 + (rateSection - 1))
      else 0

/-- The cell `[regulation][bw][rateSection][channel][RF90_PATH_A]` of
    `_rtl8812au_phy_cross_reference_ht_and_vht_txpower_limit` (lines 6138–6176). -/
def crossReferenceCell (regulation bw channel rateSection : ℕ) (t : Tables) : Tables :=
  let (tempPwrLmt, t) := t.read .on5G (offset .on5G regulation bw rateSection channel 0)
  if tempPwrLmt.toInt = maxPowerIndex ∧ (bw = 0 ∨ bw = 1) ∧ 2 ≤ rateSection ∧ rateSection ≤ 9 then
    let refSection := if rateSection ≤ 5 then rateSection + 4 else rateSection - 4
    let (refLmt, t) := t.read .on5G (offset .on5G regulation bw refSection channel 0)
    t.write .on5G (offset .on5G regulation bw rateSection channel 0) refLmt
  else t

/-- Its loops over the channels and the rate sections. -/
def crossReferenceBw (regulation bw : ℕ) (t : Tables) : Tables :=
  (List.range 54 ×ˢ List.range 6).foldl
    (fun t (channel, rateSection) => crossReferenceCell regulation bw channel rateSection t) t

/-- `_rtl8812au_phy_cross_reference_ht_and_vht_txpower_limit` (lines 6128–6181). -/
def crossReference (t : Tables) : Tables :=
  (List.range 3 ×ˢ List.range 4).foldl (fun t x => crossReferenceBw x.1 x.2 t) t

/-- The chain of conditions for 2.4 GHz (lines 6204–6215). -/
def base24G (phy : Bases) (rfPath : ℕ) : ℕ → Option UInt8
  | 5 => some (getTxpowerByRateBase phy .on24G rfPath rf4Tx htMcs24Mcs31)
  | 4 => some (getTxpowerByRateBase phy .on24G rfPath rf3Tx htMcs16Mcs23)
  | 3 => some (getTxpowerByRateBase phy .on24G rfPath rf2Tx htMcs8Mcs15)
  | 2 => some (getTxpowerByRateBase phy .on24G rfPath rf1Tx htMcs0Mcs7)
  | 1 => some (getTxpowerByRateBase phy .on24G rfPath rf1Tx ofdm)
  | 0 => some (getTxpowerByRateBase phy .on24G rfPath rf1Tx cck)
  | _ => none

/-- The chain of conditions for 5 GHz (lines 6234–6251): with the bases of 2.4 GHz, and with none
    for section 0. -/
def base5G (phy : Bases) (rfPath : ℕ) : ℕ → Option UInt8
  | 9 => some (getTxpowerByRateBase phy .on24G rfPath rf4Tx vht4ss)
  | 8 => some (getTxpowerByRateBase phy .on24G rfPath rf3Tx vht3ss)
  | 7 => some (getTxpowerByRateBase phy .on24G rfPath rf2Tx vht2ss)
  | 6 => some (getTxpowerByRateBase phy .on24G rfPath rf1Tx vht1ss)
  | 5 => some (getTxpowerByRateBase phy .on24G rfPath rf4Tx htMcs24Mcs31)
  | 4 => some (getTxpowerByRateBase phy .on24G rfPath rf3Tx htMcs16Mcs23)
  | 3 => some (getTxpowerByRateBase phy .on24G rfPath rf2Tx htMcs8Mcs15)
  | 2 => some (getTxpowerByRateBase phy .on24G rfPath rf1Tx htMcs0Mcs7)
  | 1 => some (getTxpowerByRateBase phy .on24G rfPath rf1Tx ofdm)
  | _ => none

def convertBase (phy : Bases) : Band → ℕ → ℕ → Option UInt8
  | .on24G => base24G phy
  | .on5G => base5G phy

/-- One path of a rate section of `_rtl8821au_phy_convert_txpower_limit_to_power_index`. The state
    has the base that was looked up last: without a branch for the section it is used again. -/
def convertPath (phy : Bases) (band : Band) (regulation bw channel rateSection : ℕ)
    (tempPwrLmt : Int8) (s : Tables × UInt8) (rfPath : ℕ) : Tables × UInt8 :=
  let base := (convertBase phy band rfPath rateSection).getD s.2
  if tempPwrLmt.toInt ≠ maxPowerIndex then
    (s.1.write band (offset band regulation bw rateSection channel rfPath)
      (.ofInt (tempPwrLmt.toInt - base.toNat)), base)
  else (s.1, base)

/-- One rate section. -/
def convertSection (phy : Bases) (band : Band) (regulation bw channel : ℕ) (s : Tables × UInt8)
    (rateSection : ℕ) : Tables × UInt8 :=
  let (tempPwrLmt, t) := s.1.read band (offset band regulation bw rateSection channel 0)
  (List.range 2).foldl (convertPath phy band regulation bw channel rateSection tempPwrLmt) (t, s.2)

/-- Its loop over the rate sections. -/
def convertChannel (phy : Bases) (band : Band) (s : Tables × UInt8) (x : ℕ × ℕ × ℕ) :
    Tables × UInt8 :=
  (List.range 6).foldl (convertSection phy band x.1 x.2.1 x.2.2) s

/-- One loop nest of `_rtl8821au_phy_convert_txpower_limit_to_power_index`. -/
def convertBand (phy : Bases) (band : Band) (t : Tables) : Tables :=
  ((List.range 3 ×ˢ List.range band.bandwidths ×ˢ List.range band.channels).foldl
    (convertChannel phy band) (t, 0x2E)).1

/-- `_rtl8821au_phy_convert_txpower_limit_to_power_index` (lines 6183–6263). -/
def convertTxpowerLimitToPowerIndex (phy : Bases) (t : Tables) : Tables :=
  convertBand phy .on5G (convertBand phy .on24G (crossReference t))

/-! ## The limit that was loaded -/

/-- The names of an entry are known to the loader. -/
structure Entry.Recognised (e : Entry) : Prop where
  regulation : e.isRegulation ['F', 'C', 'C'] ∨ e.isRegulation ['M', 'K', 'K'] ∨
    e.isRegulation ['E', 'T', 'S', 'I']
  band : e.isBand ['2', '.', '4', 'G'] ∨ e.isBand ['5', 'G']
  bandwidth : e.isBandwidth ['2', '0', 'M'] ∨ e.isBandwidth ['4', '0', 'M'] ∨
    e.isBandwidth ['8', '0', 'M'] ∨ e.isBandwidth ['1', '6', '0', 'M']
  rateSection : e.isRateSection ['C', 'C', 'K'] ∨ e.isRateSection ['O', 'F', 'D', 'M'] ∨
    (e.isRateSection ['H', 'T'] ∨ e.isRateSection ['V', 'H', 'T']) ∧
      (e.isRfPath ['1', 'T'] ∨ e.isRfPath ['2', 'T'])
  channel : (getu8IntegerFromStringInDecimal e.channel).1 = true
  channelGroup : phyGetChannelGroup
    (if e.isBand ['2', '.', '4', 'G'] then .on24G else .on5G) e.channelNum ≠ -1
  powerLimit : (getu8IntegerFromStringInDecimal e.powerLimit).1 = true

/-- A line of a limit table. -/
structure Row extends Entry where
  recognised : toEntry.Recognised

namespace Row

variable (row : Row)

def on : Band := if row.isBand ['2', '.', '4', 'G'] then .on24G else .on5G

/-- The rate section that the line names, in `enum rate_section`. -/
def named : ℕ :=
  if row.isRateSection ['C', 'C', 'K'] then cck
  else if row.isRateSection ['O', 'F', 'D', 'M'] then ofdm
  else if row.isRateSection ['H', 'T'] then
    if row.isRfPath ['1', 'T'] then htMcs0Mcs7 else htMcs8Mcs15
  else if row.isRfPath ['1', 'T'] then vht1ss
  else vht2ss

/-- The base of the rate section that the line names. -/
def ownBase (phy : Bases) : UInt8 :=
  let txnum := if row.named = htMcs8Mcs15 ∨ row.named = vht2ss then rf2Tx else rf1Tx
  getTxpowerByRateBase phy row.on 0 txnum row.named

/-- The group of the line's channel. -/
def group : ℤ := row.channelGroup row.on

/-- The number of the line's first two dimensions together. -/
def line : ℕ := row.regulationIdx * row.on.bandwidths + row.bandwidthIdx

/-- The cell of the line's limit. -/
def addr : ℤ := row.on.start + row.place row.on

end Row

/-- The channels of a band. -/
def Band.channelList : Band → List UInt8
  | .on24G => [1, 2, 3, 4, 5, 6, 7, 8, 9, 10, 11, 12, 13, 14]
  | .on5G => channel5G

/-- What a limit is asked for. -/
structure Query where
  band : Band
  width : ChannelWidth
  rate : UInt8
  channel : UInt8
  ofBand : channel ∈ band.channelList

/-- The limit of the last line that meets `P`. -/
def lastOf (P : Row → Prop) [DecidablePred P] (rows : List Row) (none : ℤ) : ℤ :=
  rows.foldl (fun limit row => if P row then row.limit else limit) none

/-- The line is about what is asked for, and the regulation. -/
def Names (q : Query) (regulation : ℕ) (row : Row) : Prop :=
  row.regulationIdx = regulation ∧ row.on = q.band ∧ q.width.idx = some row.bandwidthIdx ∧
    rateSection q.rate = some row.named ∧ row.channelNum = q.channel

instance (q : Query) (regulation : ℕ) : DecidablePred (Names q regulation) := fun _ =>
  inferInstanceAs (Decidable (_ ∧ _))

/-- The minimum over the regulations. -/
def worst (limit : ℕ → ℤ) : ℤ := min (limit 0) (min (limit 1) (limit 2))

/-- The limit that was loaded for what is asked for. -/
def limitFor (rows : List Row) (q : Query) : ℤ :=
  worst fun regulation => lastOf (Names q regulation) rows maxPowerIndex

/-- `num_total_rfpath` (`rf.c`, lines 293–296). -/
def numTotalRfpath (is2T2R : Bool) : ℕ := if is2T2R then 2 else 1

/-- The tables after initialising and loading. -/
def load (mem : ℤ → Int8) (is2T2R : Bool) (rows : List Row) : Tables :=
  rows.foldl (fun t row => setTxpowerLimit t row.toEntry)
    (initTxpowerLimit (numTotalRfpath is2T2R) ⟨mem, []⟩)

/-- What is asked of the tables. -/
structure LimitUsed (mem : ℤ → Int8) (is2T2R : Bool) (rows : List Row) (q : Query) (phy : Bases) :
    Prop where
  writesInside : ∀ x ∈ (load mem is2T2R rows).touched, Inside x
  readsInside : ∀ eepromRegulatory, eepromRegulatory ≠ 2 →
    ∀ x ∈ (getTxpowerLimit eepromRegulatory q.band q.width 0 q.rate q.channel
      { load mem is2T2R rows with touched := [] }).2.touched, Inside x
  value : ∀ eepromRegulatory, eepromRegulatory ≠ 2 →
    (getTxpowerLimit eepromRegulatory q.band q.width 0 q.rate q.channel
      (load mem is2T2R rows)).1.toInt = limitFor rows q
  convertInside : ∀ x ∈ (convertTxpowerLimitToPowerIndex phy
    { load mem is2T2R rows with touched := [] }).touched, Inside x
  converted : ∀ row ∈ rows,
    ((convertTxpowerLimitToPowerIndex phy (load mem is2T2R rows)).cell row.addr).toInt =
      ((load mem is2T2R rows).cell row.addr).toInt - (row.ownBase phy).toNat

/-! ## When it is the limit used -/

/-- The line's limit goes to `[line][sec][m]` of the table of `band`, `line` counting the first
    two dimensions. -/
def Lands (band : Band) (line sec : ℕ) (m : ℤ) (row : Row) : Prop :=
  row.on = band ∧ row.line = line ∧ row.rateSectionIdx = sec ∧ row.group = m

instance (band : Band) (line sec : ℕ) (m : ℤ) : DecidablePred (Lands band line sec m) := fun _ =>
  inferInstanceAs (Decidable (_ ∧ _))

/-- The rate sections and the channel groups that are initialised. -/
def Band.initSections : Band → ℕ
  | .on24G => 3
  | .on5G => 4

def Band.initChannels : Band → ℕ
  | .on24G => 5
  | .on5G => 14

/-- A cell after initialising. -/
def initial (mem : ℤ → Int8) (band : Band) (i j k : ℕ) (m : ℤ) : ℤ :=
  if k < band.initSections ∧ m < band.initChannels then maxPowerIndex
  else (mem (band.start + offset band i j k m 0)).toInt

/-- A cell after loading. -/
def held (mem : ℤ → Int8) (rows : List Row) (band : Band) (i j k : ℕ) (m : ℤ) : ℤ :=
  lastOf (Lands band (i * band.bandwidths + j) k m) rows (initial mem band i j k m)

/-- The limit in a line's cell. -/
def Row.loaded (row : Row) (rows : List Row) : ℤ :=
  lastOf (Lands row.on row.line row.rateSectionIdx row.group) rows maxPowerIndex

/-- The limit in a line's cell after the cross reference. -/
def Row.referred (row : Row) (rows : List Row) : ℤ :=
  if row.on = .on5G ∧ row.bandwidthIdx ≤ 1 ∧ 2 ≤ row.rateSectionIdx ∧
      row.loaded rows = maxPowerIndex then
    lastOf (Lands .on5G (row.line + 1) (row.rateSectionIdx - 2) row.group) rows maxPowerIndex
  else row.loaded rows

/-- The base that is subtracted from a line's limit. -/
def Row.usedBase (row : Row) (phy : Bases) : UInt8 :=
  (convertBase phy row.on 0 row.rateSectionIdx).getD
    (if row.line = 0 ∧ row.group = 0 then 0x2E
      else getTxpowerByRateBase phy .on24G 1 rf4Tx htMcs24Mcs31)

/-- The base subtracted is the line's own, up to the range of a byte. -/
def BaseFits (phy : Bases) (rows : List Row) (row : Row) : Prop :=
  if row.referred rows = maxPowerIndex then row.ownBase phy = 0
  else (row.ownBase phy).toNat ≤ row.loaded rows + 128 ∧
    (row.referred rows - (row.usedBase phy).toNat) % 256 =
      (row.loaded rows - (row.ownBase phy).toNat) % 256

/-- The position of the channel asked for. -/
def Query.position (q : Query) : ℤ := getChnlIdxOfTxpwrLimit q.band q.channel

/-- The condition on the lines and on what is asked for. -/
structure Matches (mem : ℤ → Int8) (rows : List Row) (q : Query) (phy : Bases) : Prop where
  lines : ∀ row ∈ rows, row.line < 3 * row.on.bandwidths
  cells : ∀ sec bw, rateSection q.rate = some sec → q.width.idx = some bw →
    workaround q.band sec bw + sec / 6 < q.band.bandwidths ∧
      (worst fun i =>
        held mem rows q.band i (workaround q.band sec bw + sec / 6) (sec % 6) q.position) =
        limitFor rows q
  bases : ∀ row ∈ rows, BaseFits phy rows row

/-! ## Places -/

section places

variable {band band' : Band} {i i' j j' k k' l l' : ℕ} {m m' : ℤ}

theorem line_lt (hi : i < 3) (hj : j < band.bandwidths) :
    i * band.bandwidths + j < 3 * band.bandwidths := by
  cases band <;> simp only [Band.bandwidths] at * <;> omega

theorem inside_offset (hk : k < 6) (hm : 0 ≤ m) (hm' : m < band.channels) (hl : l < 2) :
    Inside (band, offset band i j k m l) ↔ i * band.bandwidths + j < 3 * band.bandwidths := by
  cases band <;> simp only [Inside, offset, Band.size, Band.bandwidths, Band.channels] at * <;>
    omega

theorem offset_inj (hk : k < 6) (hm : 0 ≤ m) (hm' : m < band.channels) (hl : l < 2) (hk' : k' < 6)
    (hn : 0 ≤ m') (hn' : m' < band.channels) (hl' : l' < 2) :
    offset band i j k m l = offset band i' j' k' m' l' ↔
      i * band.bandwidths + j = i' * band.bandwidths + j' ∧ k = k' ∧ m = m' ∧ l = l' := by
  cases band <;> simp only [offset, Band.bandwidths, Band.channels] at * <;> omega

/-- An index of the rate section beyond its dimension reaches the next line. -/
theorem offset_carry (band : Band) (i j k : ℕ) (m : ℤ) (l : ℕ) :
    offset band i j k m l = offset band i (j + k / 6) (k % 6) m l := by
  cases band <;> simp only [offset, Band.bandwidths, Band.channels] <;> omega

/-- Places inside different tables are different cells. -/
theorem start_add_inj {x x' : ℤ} (h : Inside (band, x)) (h' : Inside (band', x')) :
    band.start + x = band'.start + x' ↔ band = band' ∧ x = x' := by
  cases band <;> cases band' <;>
    simp only [Inside, Band.start, Band.size, Band.bandwidths, Band.channels, reduceCtorEq,
      false_and, true_and, iff_false] at * <;> omega

end places

/-! ## Lines -/

/-- No group, or one of the first `n`. -/
def GroupBelow (n : ℕ) (g : ℤ) : Prop := g = -1 ∨ 0 ≤ g ∧ g < n

theorem GroupBelow.ite {n : ℕ} {g g' : ℤ} {P : Prop} [Decidable P] (h : GroupBelow n g)
    (h' : GroupBelow n g') : GroupBelow n (if P then g else g') := by
  by_cases hP : P
  · rwa [if_pos hP]
  · rwa [if_neg hP]

theorem phyGetChannelGroup_below (band : Band) (channel : UInt8) :
    GroupBelow band.initChannels (phyGetChannelGroup band channel) := by
  have hnone (n : ℕ) : GroupBelow n (-1) := Or.inl rfl
  cases band with
  | on24G =>
    have hsome (g : ℤ) (h : 0 ≤ g ∧ g < 5) : GroupBelow 5 g := Or.inr h
    refine .ite (.ite (hsome 0 ?_) (.ite (hsome 1 ?_) (.ite (hsome 2 ?_) (.ite (hsome 3 ?_)
      (.ite (hsome 4 ?_) (hnone 5)))))) (hnone 5)
    all_goals decide
  | on5G =>
    have hsome (g : ℤ) (h : 0 ≤ g ∧ g < 14) : GroupBelow 14 g := Or.inr h
    refine .ite (hsome 0 ?_) (.ite (hsome 1 ?_) (.ite (hsome 2 ?_) (.ite (hsome 3 ?_)
      (.ite (hsome 4 ?_) (.ite (hsome 5 ?_) (.ite (hsome 6 ?_) (.ite (hsome 7 ?_)
        (.ite (hsome 8 ?_) (.ite (hsome 9 ?_) (.ite (hsome 10 ?_) (.ite (hsome 11 ?_)
          (.ite (hsome 12 ?_) (.ite (hsome 13 ?_) (hnone 14))))))))))))))
    all_goals decide

namespace Row

variable (row : Row)

theorem bandwidthIdx_lt : row.bandwidthIdx < 4 := by
  unfold Entry.bandwidthIdx
  split_ifs <;> decide

theorem rateSectionIdx_lt : row.rateSectionIdx < 6 := by
  unfold Entry.rateSectionIdx
  split_ifs <;> decide

theorem group_range : 0 ≤ row.group ∧ row.group < row.on.initChannels := by
  have h := (phyGetChannelGroup_below _ _).resolve_left row.recognised.channelGroup
  rw [group, Entry.channelGroup]
  have hle : row.on.initChannels ≤ 14 := by cases row.on <;> decide
  change 0 ≤ phyGetChannelGroup row.on _ ∧ phyGetChannelGroup row.on _ < row.on.initChannels at h
  omega

theorem limit_range : 0 ≤ row.limit ∧ row.limit ≤ maxPowerIndex := by
  unfold Entry.limit
  dsimp only
  split_ifs with h
  · decide
  · exact ⟨Int.natCast_nonneg _, Int.not_lt.mp h⟩

theorem setTxpowerLimit_eq (t : Tables) :
    setTxpowerLimit t row.toEntry = t.write row.on (row.place row.on) (.ofInt row.limit) := by
  unfold setTxpowerLimit on
  by_cases h : row.isBand ['2', '.', '4', 'G'] = true
  · rw [if_pos h, if_pos h]
  · rw [if_neg h, if_neg h, if_pos (row.recognised.band.resolve_left h)]

end Row

theorem initChannels_le (band : Band) : band.initChannels ≤ band.channels := by
  cases band <;> decide

theorem place_inside (row : Row) :
    Inside (row.on, row.place row.on) ↔ row.line < 3 * row.on.bandwidths := by
  have hg := row.group_range
  have hle : (row.on.initChannels : ℤ) ≤ row.on.channels :=
    Int.ofNat_le.mpr (initChannels_le row.on)
  exact inside_offset row.rateSectionIdx_lt hg.1 (Int.lt_of_lt_of_le hg.2 hle) (by decide)

/-! ## Loading -/

@[simp] theorem write_cell (t : Tables) (band : Band) (off : ℤ) (v : Int8) :
    (t.write band off v).cell (band.start + off) = v := Function.update_self ..

theorem write_cell_ne {t : Tables} {band : Band} {off a : ℤ} {v : Int8}
    (h : a ≠ band.start + off) : (t.write band off v).cell a = t.cell a :=
  Function.update_of_ne h ..

theorem foldl_cell {ι : Type*} {f : Tables → ι → Tables} {L : List ι} {a : ℤ}
    (hf : ∀ t, ∀ i ∈ L, (f t i).cell a = t.cell a) (t : Tables) :
    (L.foldl f t).cell a = t.cell a :=
  foldl_keeps (g := fun t : Tables => t.cell a) hf t

theorem foldl_inside {ι : Type*} {f : Tables → ι → Tables} {L : List ι} {t : Tables}
    (hf : ∀ t, ∀ i ∈ L, (∀ x ∈ t.touched, Inside x) → ∀ x ∈ (f t i).touched, Inside x)
    (h : ∀ x ∈ t.touched, Inside x) : ∀ x ∈ (L.foldl f t).touched, Inside x :=
  foldl_keep (P := fun t : Tables => ∀ x ∈ t.touched, Inside x) hf h

theorem foldl_write {ι : Type*} (band : Band) (off : ι → ℤ) (v : Int8) (L : List ι) (t : Tables)
    (a : ℤ) :
    (L.foldl (fun t p => t.write band (off p) v) t).cell a =
      if ∃ p ∈ L, band.start + off p = a then v else t.cell a := by
  induction L generalizing t with
  | nil => simp
  | cons p L ih =>
    rw [List.foldl_cons, ih]
    by_cases hL : ∃ p ∈ L, band.start + off p = a
    · rw [if_pos hL, if_pos (by simp [hL])]
    · rw [if_neg hL]
      by_cases hp : band.start + off p = a
      · rw [if_pos ⟨p, List.mem_cons_self, hp⟩, ← hp, write_cell]
      · rw [if_neg (by simp [hp, hL]), write_cell_ne (Ne.symm hp)]

theorem foldl_write_inside {ι : Type*} {band : Band} (off : ι → ℤ) {v : Int8} {L : List ι}
    {t : Tables} (h : ∀ x ∈ t.touched, Inside x) (hoff : ∀ p ∈ L, Inside (band, off p)) :
    ∀ x ∈ (L.foldl (fun t p => t.write band (off p) v) t).touched, Inside x := by
  refine foldl_inside (fun t p hp ht => ?_) h
  exact List.forall_mem_cons.mpr ⟨hoff p hp, ht⟩

section init

variable {band band' : Band} {rateSections channels n : ℕ} (hsec : rateSections ≤ 6)
  (hchan : channels ≤ band.channels) (hn : n ≤ 2)

include hsec hchan hn

/-- The places of a loop nest of the initialisation. -/
theorem init_place_inside {p : ℕ × ℕ × ℕ × ℕ × ℕ}
    (hp : p ∈ List.range 3 ×ˢ List.range band.bandwidths ×ˢ List.range rateSections ×ˢ
      List.range channels ×ˢ List.range n) :
    Inside (band, offset band p.1 p.2.1 p.2.2.1 p.2.2.2.1 p.2.2.2.2) := by
  obtain ⟨i, j, k, m, l⟩ := p
  simp only [List.mem_product, List.mem_range] at hp
  obtain ⟨hi, hj, hk, hm, hl⟩ := hp
  have hk' : k < 6 := by omega
  have hm' : (m : ℤ) < band.channels := by omega
  have hl' : l < 2 := by omega
  exact (inside_offset hk' (Int.natCast_nonneg m) hm' hl').mpr (line_lt hi hj)

theorem initBand_inside {t : Tables} (h : ∀ x ∈ t.touched, Inside x) :
    ∀ x ∈ (initBand band rateSections channels n t).touched, Inside x :=
  foldl_write_inside (fun p : ℕ × ℕ × ℕ × ℕ × ℕ =>
    offset band p.1 p.2.1 p.2.2.1 p.2.2.2.1 p.2.2.2.2) h fun _ hp =>
      init_place_inside hsec hchan hn hp

theorem initBand_cell {i j k : ℕ} {m : ℤ} (hpos : 0 < n) (hi : i < 3) (hj : j < band.bandwidths)
    (hk : k < 6) (hm : 0 ≤ m) (hm' : m < band.channels) (t : Tables) :
    (initBand band rateSections channels n t).cell (band.start + offset band i j k m 0) =
      if k < rateSections ∧ m < channels then .ofInt maxPowerIndex
      else t.cell (band.start + offset band i j k m 0) := by
  refine (foldl_write band (fun p : ℕ × ℕ × ℕ × ℕ × ℕ =>
    offset band p.1 p.2.1 p.2.2.1 p.2.2.2.1 p.2.2.2.2) _ _ t _).trans ?_
  congr 1
  rw [eq_iff_iff]
  constructor
  · rintro ⟨⟨i', j', k', m', l'⟩, hp, heq⟩
    simp only [List.mem_product, List.mem_range] at hp
    obtain ⟨-, -, hk', hm'', hl⟩ := hp
    have hk6 : k' < 6 := by omega
    have hmc : (m' : ℤ) < band.channels := by omega
    have hl2 : l' < 2 := by omega
    obtain ⟨-, rfl, rfl, -⟩ := (offset_inj hk6 (Int.natCast_nonneg m') hmc hl2 hk hm hm'
      (by decide)).mp (Int.add_left_cancel heq)
    exact ⟨hk', Int.ofNat_lt.mpr hm''⟩
  · rintro ⟨hk', hm''⟩
    refine ⟨(i, j, k, m.toNat, 0), ?_, ?_⟩
    · simp only [List.mem_product, List.mem_range]
      omega
    · dsimp only
      rw [Int.toNat_of_nonneg hm]

theorem initBand_other {x : ℤ} (hne : band' ≠ band) (hx : Inside (band', x)) (t : Tables) :
    (initBand band rateSections channels n t).cell (band'.start + x) =
      t.cell (band'.start + x) := by
  refine (foldl_write band (fun p : ℕ × ℕ × ℕ × ℕ × ℕ =>
    offset band p.1 p.2.1 p.2.2.1 p.2.2.2.1 p.2.2.2.2) _ _ t _).trans (if_neg ?_)
  rintro ⟨p, hp, heq⟩
  rw [start_add_inj (init_place_inside hsec hchan hn hp) hx] at heq
  exact hne heq.1.symm

end init

section load

variable {mem : ℤ → Int8} {is2T2R : Bool} {rows : List Row} {band : Band} {i j k : ℕ} {m : ℤ}

theorem numTotalRfpath_range (is2T2R : Bool) :
    0 < numTotalRfpath is2T2R ∧ numTotalRfpath is2T2R ≤ 2 := by
  cases is2T2R <;> decide

theorem initTxpowerLimit_inside (is2T2R : Bool) :
    ∀ x ∈ (initTxpowerLimit (numTotalRfpath is2T2R) ⟨mem, []⟩).touched, Inside x := by
  have hn := (numTotalRfpath_range is2T2R).2
  refine initBand_inside (by decide) (by decide) hn ?_
  exact initBand_inside (by decide) (by decide) hn fun _ h => absurd h List.not_mem_nil

theorem initTxpowerLimit_cell (is2T2R : Bool) (hi : i < 3) (hj : j < band.bandwidths) (hk : k < 6)
    (hm : 0 ≤ m) (hm' : m < band.channels) :
    ((initTxpowerLimit (numTotalRfpath is2T2R) ⟨mem, []⟩).cell
      (band.start + offset band i j k m 0)).toInt = initial mem band i j k m := by
  obtain ⟨hpos, hn⟩ := numTotalRfpath_range is2T2R
  have hx : Inside (band, offset band i j k m 0) :=
    (inside_offset hk hm hm' (by decide)).mpr (line_lt hi hj)
  rw [initTxpowerLimit, initial]
  cases band with
  | on24G =>
    have hne : Band.on24G ≠ .on5G := by decide
    have h5G : (4 ≤ 6) ∧ 14 ≤ Band.on5G.channels := by decide
    have h24G : (3 ≤ 6) ∧ 5 ≤ Band.on24G.channels := by decide
    rw [initBand_other h5G.1 h5G.2 hn hne hx,
      initBand_cell h24G.1 h24G.2 hn hpos hi hj hk hm hm']
    exact apply_ite Int8.toInt _ _ _
  | on5G =>
    have hne : Band.on5G ≠ .on24G := by decide
    have h5G : (4 ≤ 6) ∧ 14 ≤ Band.on5G.channels := by decide
    have h24G : (3 ≤ 6) ∧ 5 ≤ Band.on24G.channels := by decide
    rw [initBand_cell h5G.1 h5G.2 hn hpos hi hj hk hm hm',
      initBand_other h24G.1 h24G.2 hn hne hx]
    exact apply_ite Int8.toInt _ _ _

theorem addr_eq_iff {row : Row} (hrow : row.line < 3 * row.on.bandwidths)
    (hline : i * band.bandwidths + j < 3 * band.bandwidths) (hk : k < 6) (hm : 0 ≤ m)
    (hm' : m < band.channels) :
    row.addr = band.start + offset band i j k m 0 ↔
      Lands band (i * band.bandwidths + j) k m row := by
  have hg := row.group_range
  have hle : (row.on.initChannels : ℤ) ≤ row.on.channels :=
    Int.ofNat_le.mpr (initChannels_le row.on)
  rw [Row.addr, start_add_inj ((place_inside row).mpr hrow)
    ((inside_offset hk hm hm' (by decide)).mpr hline), Lands]
  refine and_congr_right fun hband => ?_
  subst hband
  refine (offset_inj row.rateSectionIdx_lt hg.1 (Int.lt_of_lt_of_le hg.2 hle) (by decide) hk hm hm'
    (by decide)).trans ?_
  exact ⟨fun h => ⟨h.1, h.2.1, h.2.2.1⟩, fun h => ⟨h.1, h.2.1, h.2.2, rfl⟩⟩

theorem toInt_limit (row : Row) : (Int8.ofInt row.limit).toInt = row.limit := by
  have h := row.limit_range
  rw [maxPowerIndex] at h
  exact Int8.toInt_ofInt_of_le (by omega) (by omega)

theorem loadRows_cell (hrows : ∀ row ∈ rows, row.line < 3 * row.on.bandwidths)
    (hline : i * band.bandwidths + j < 3 * band.bandwidths) (hk : k < 6) (hm : 0 ≤ m)
    (hm' : m < band.channels) (t : Tables) :
    ((rows.foldl (fun t row => setTxpowerLimit t row.toEntry) t).cell
      (band.start + offset band i j k m 0)).toInt =
        lastOf (Lands band (i * band.bandwidths + j) k m) rows
          (t.cell (band.start + offset band i j k m 0)).toInt := by
  induction rows generalizing t with
  | nil => rfl
  | cons row rows ih =>
    obtain ⟨hrow, hrest⟩ := List.forall_mem_cons.mp hrows
    have haddr := addr_eq_iff hrow hline hk hm hm'
    rw [List.foldl_cons, ih hrest, lastOf, lastOf, List.foldl_cons, row.setTxpowerLimit_eq]
    by_cases hlands : Lands band (i * band.bandwidths + j) k m row
    · rw [if_pos hlands, ← haddr.mpr hlands, Row.addr, write_cell, toInt_limit]
    · rw [if_neg hlands, write_cell_ne fun h => hlands (haddr.mp h.symm)]

/-- A cell after loading: the limit of the last line that goes there. -/
theorem load_cell (mem : ℤ → Int8) (is2T2R : Bool)
    (hrows : ∀ row ∈ rows, row.line < 3 * row.on.bandwidths) (hi : i < 3)
    (hj : j < band.bandwidths) (hk : k < 6) (hm : 0 ≤ m) (hm' : m < band.channels) :
    ((load mem is2T2R rows).cell (band.start + offset band i j k m 0)).toInt =
      held mem rows band i j k m := by
  rw [load, loadRows_cell hrows (line_lt hi hj) hk hm hm',
    initTxpowerLimit_cell is2T2R hi hj hk hm hm', held]

theorem loadRows_inside (t : Tables) :
    (∀ x ∈ (rows.foldl (fun t row => setTxpowerLimit t row.toEntry) t).touched, Inside x) ↔
      (∀ x ∈ t.touched, Inside x) ∧ ∀ row ∈ rows, row.line < 3 * row.on.bandwidths := by
  induction rows generalizing t with
  | nil => simp
  | cons row rows ih =>
    rw [List.foldl_cons, ih, row.setTxpowerLimit_eq, Tables.write, List.forall_mem_cons,
      List.forall_mem_cons, place_inside]
    exact ⟨fun h => ⟨h.1.2, h.1.1, h.2⟩, fun h => ⟨⟨h.2.1, h.1⟩, h.2.2⟩⟩

theorem load_inside :
    (∀ x ∈ (load mem is2T2R rows).touched, Inside x) ↔
      ∀ row ∈ rows, row.line < 3 * row.on.bandwidths := by
  rw [load, loadRows_inside, and_iff_right (initTxpowerLimit_inside is2T2R)]

end load

/-! ## Reading -/

theorem worldWideLimit_toInt (f : ℕ → Int8) :
    (phyGetWorldWideLimit f).toInt = worst fun i => (f i).toInt := by
  have hmin (x y : Int8) : (if x < y then x else y).toInt = min x.toInt y.toInt := by
    by_cases hlt : x < y
    · rw [if_pos hlt]
      have := Int8.lt_iff_toInt_lt.mp hlt
      omega
    · rw [if_neg hlt]
      have hge : ¬ x.toInt < y.toInt := fun hc => hlt (Int8.lt_iff_toInt_lt.mpr hc)
      omega
  show (if f 2 < (if f 1 < (if f 0 < f 0 then f 0 else f 0) then f 1
    else (if f 0 < f 0 then f 0 else f 0)) then f 2 else _).toInt = _
  rw [hmin, hmin, hmin, worst]
  omega

theorem position_range (q : Query) : 0 ≤ q.position ∧ q.position < q.band.channels := by
  obtain ⟨band, width, rate, channel, ofBand⟩ := q
  cases band with
  | on24G =>
    have h : ∀ channel ∈ Band.channelList .on24G, 0 ≤ getChnlIdxOfTxpwrLimit .on24G channel ∧
        getChnlIdxOfTxpwrLimit .on24G channel < 14 := by decide +kernel
    exact h channel ofBand
  | on5G =>
    have h : ∀ channel ∈ Band.channelList .on5G, 0 ≤ getChnlIdxOfTxpwrLimit .on5G channel ∧
        getChnlIdxOfTxpwrLimit .on5G channel < 54 := by decide +kernel
    exact h channel ofBand

section read

variable {q : Query} {eepromRegulatory : UInt8} {sec bw : ℕ} {mem : ℤ → Int8} {is2T2R : Bool}
  {rows : List Row}

theorem getTxpowerLimit_none (hreg : eepromRegulatory ≠ 2)
    (h : rateSection q.rate = none ∨ q.width.idx = none) (t : Tables) :
    getTxpowerLimit eepromRegulatory q.band q.width 0 q.rate q.channel t =
      (.ofInt maxPowerIndex, t) := by
  rw [getTxpowerLimit, if_neg hreg]
  split
  · rename_i hsec hbw
    rw [hsec, hbw] at h
    exact absurd h (by simp)
  · rfl

theorem indexed_of_not (h : ¬ (rateSection q.rate = none ∨ q.width.idx = none)) :
    ∃ sec bw, rateSection q.rate = some sec ∧ q.width.idx = some bw := by
  obtain ⟨hsec, hbw⟩ := not_or.mp h
  obtain ⟨sec, hsec⟩ := Option.ne_none_iff_exists'.mp hsec
  obtain ⟨bw, hbw⟩ := Option.ne_none_iff_exists'.mp hbw
  exact ⟨sec, bw, hsec, hbw⟩

/-- The place that the reader looks at for a regulation. -/
def Query.place (q : Query) (sec bw i : ℕ) : ℤ :=
  offset q.band i (workaround q.band sec bw) sec q.position 0

theorem getTxpowerLimit_some (hreg : eepromRegulatory ≠ 2) (hsec : rateSection q.rate = some sec)
    (hbw : q.width.idx = some bw) (t : Tables) :
    getTxpowerLimit eepromRegulatory q.band q.width 0 q.rate q.channel t =
      (phyGetWorldWideLimit fun i => t.cell (q.band.start + q.place sec bw i),
        { t with
          touched := (q.band, q.place sec bw 2) :: (q.band, q.place sec bw 1) ::
            (q.band, q.place sec bw 0) :: t.touched }) := by
  have hpos : q.position ≠ -1 := by
    have := (position_range q).1
    omega
  rw [getTxpowerLimit, if_neg hreg, hsec, hbw]
  exact if_neg hpos

theorem lastOf_of_not {P : Row → Prop} [DecidablePred P] (h : ∀ row ∈ rows, ¬ P row) (none : ℤ) :
    lastOf P rows none = none :=
  foldl_keep (P := fun limit => limit = none) (fun limit row hrow hlimit => by
    rwa [if_neg (h row hrow)]) rfl

theorem limitFor_none (h : rateSection q.rate = none ∨ q.width.idx = none) :
    limitFor rows q = maxPowerIndex := by
  have hnot (i : ℕ) : ∀ row ∈ rows, ¬ Names q i row := by
    rintro row - ⟨-, -, hbw, hsec, -⟩
    rw [hbw, hsec] at h
    exact absurd h (by simp)
  rw [limitFor, worst, lastOf_of_not (hnot 0), lastOf_of_not (hnot 1), lastOf_of_not (hnot 2)]
  rfl

theorem place_carry (q : Query) (sec bw i : ℕ) :
    q.place sec bw i =
      offset q.band i (workaround q.band sec bw + sec / 6) (sec % 6) q.position 0 :=
  offset_carry _ _ _ _ _ _

theorem query_inside {i : ℕ} (h : workaround q.band sec bw + sec / 6 < q.band.bandwidths)
    (hi : i < 3) : Inside (q.band, q.place sec bw i) := by
  obtain ⟨hpos, hpos'⟩ := position_range q
  rw [place_carry, inside_offset (Nat.mod_lt sec (by decide)) hpos hpos' (by decide)]
  exact line_lt hi h

theorem bandwidth_of_inside (h : Inside (q.band, q.place sec bw 2)) :
    workaround q.band sec bw + sec / 6 < q.band.bandwidths := by
  obtain ⟨hpos, hpos'⟩ := position_range q
  rw [place_carry, inside_offset (Nat.mod_lt sec (by decide)) hpos hpos' (by decide)] at h
  omega

theorem query_cell (hrows : ∀ row ∈ rows, row.line < 3 * row.on.bandwidths)
    (h : workaround q.band sec bw + sec / 6 < q.band.bandwidths) {i : ℕ} (hi : i < 3) :
    ((load mem is2T2R rows).cell (q.band.start + q.place sec bw i)).toInt =
      held mem rows q.band i (workaround q.band sec bw + sec / 6) (sec % 6) q.position := by
  obtain ⟨hpos, hpos'⟩ := position_range q
  rw [place_carry]
  exact load_cell mem is2T2R hrows hi h (Nat.mod_lt sec (by decide)) hpos hpos'

/-- What the reader returns, as far as it stays inside the table. -/
theorem getTxpowerLimit_load (hrows : ∀ row ∈ rows, row.line < 3 * row.on.bandwidths)
    (hreg : eepromRegulatory ≠ 2) (hsec : rateSection q.rate = some sec)
    (hbw : q.width.idx = some bw)
    (h : workaround q.band sec bw + sec / 6 < q.band.bandwidths) :
    (getTxpowerLimit eepromRegulatory q.band q.width 0 q.rate q.channel
      (load mem is2T2R rows)).1.toInt =
        worst fun i =>
          held mem rows q.band i (workaround q.band sec bw + sec / 6) (sec % 6) q.position := by
  rw [getTxpowerLimit_some hreg hsec hbw, worldWideLimit_toInt, worst,
    query_cell hrows h (by decide), query_cell hrows h (by decide), query_cell hrows h (by decide)]
  rfl

end read

/-! ## Conversion -/

section cross

variable {i j k m i' j' k' m' : ℕ}

/-- A cell of path A at 5 GHz. -/
def cell5G (i j k m : ℕ) : ℤ := Band.on5G.start + offset .on5G i j k m 0

theorem cell5G_inj (hk : k < 6) (hm : m < 54) (hk' : k' < 6) (hm' : m' < 54) :
    cell5G i j k m = cell5G i' j' k' m' ↔ i * 4 + j = i' * 4 + j' ∧ k = k' ∧ m = m' := by
  simp only [cell5G, offset, Band.bandwidths, Band.channels]
  omega

theorem crossReferenceCell_ne {a : ℤ} (h : a ≠ cell5G i j k m) (t : Tables) :
    (crossReferenceCell i j m k t).cell a = t.cell a := by
  unfold crossReferenceCell
  dsimp only
  split_ifs
  · exact write_cell_ne h
  · exact write_cell_ne h
  · rfl

theorem crossReferenceCell_self (hk : k < 6) (t : Tables) :
    (crossReferenceCell i j m k t).cell (cell5G i j k m) =
      if (t.cell (cell5G i j k m)).toInt = maxPowerIndex ∧ j ≤ 1 ∧ 2 ≤ k then
        t.cell (cell5G i (j + 1) (k - 2) m)
      else t.cell (cell5G i j k m) := by
  unfold crossReferenceCell
  by_cases h : (t.cell (cell5G i j k m)).toInt = maxPowerIndex ∧ j ≤ 1 ∧ 2 ≤ k
  · have href : cell5G i (j + 1) (k - 2) m = cell5G i j (k + 4) m := by
      simp only [cell5G, offset, Band.bandwidths, Band.channels]
      omega
    rw [if_pos h, href]
    have hcond : (j = 0 ∨ j = 1) ∧ 2 ≤ k ∧ k ≤ 9 := by omega
    have hle : k ≤ 5 := by omega
    refine (congrArg (fun t : Tables => t.cell (cell5G i j k m)) (if_pos ⟨h.1, hcond⟩)).trans ?_
    rw [if_pos hle]
    exact write_cell ..
  · rw [if_neg h]
    refine (congrArg (fun t : Tables => t.cell (cell5G i j k m)) (if_neg ?_)).trans rfl
    rintro ⟨hmax, hj, hk2, -⟩
    exact h ⟨hmax, by omega, hk2⟩

/-- A cell and the one it refers to. -/
def pair (a b : ℤ) (t : Tables) : Int8 × Int8 := (t.cell a, t.cell b)

theorem pair_congr {a b : ℤ} {t t' : Tables} (ha : t'.cell a = t.cell a)
    (hb : t'.cell b = t.cell b) : pair a b t' = pair a b t :=
  Prod.ext ha hb

theorem pair_fst (a b : ℤ) (t : Tables) : (pair a b t).1 = t.cell a := rfl

/-- What the cross reference makes of them. -/
def referTo (j k : ℕ) (x : Int8 × Int8) : Int8 × Int8 :=
  (if x.1.toInt = maxPowerIndex ∧ j ≤ 1 ∧ 2 ≤ k then x.2 else x.1, x.2)

theorem crossReferenceBw_pair (hk : k < 6) (hm : m < 54) (t : Tables) :
    pair (cell5G i j k m) (cell5G i (j + 1) (k - 2) m) (crossReferenceBw i j t) =
      referTo j k (pair (cell5G i j k m) (cell5G i (j + 1) (k - 2) m) t) := by
  have hk2 : k - 2 < 6 := by omega
  rw [crossReferenceBw]
  refine foldl_once (i := (m, k)) (List.nodup_range.product List.nodup_range) ?_ ?_ ?_ t
  · simp only [List.mem_product, List.mem_range]
    exact ⟨hm, hk⟩
  · rintro t ⟨m', k'⟩ hmem hne
    simp only [List.mem_product, List.mem_range] at hmem
    have hself : cell5G i j k m ≠ cell5G i j k' m' := fun h => by
      obtain ⟨-, rfl, rfl⟩ := (cell5G_inj hk hm hmem.2 hmem.1).mp h
      exact hne rfl
    have href : cell5G i (j + 1) (k - 2) m ≠ cell5G i j k' m' := fun h => by
      have := (cell5G_inj hk2 hm hmem.2 hmem.1).mp h
      omega
    exact pair_congr (crossReferenceCell_ne hself t) (crossReferenceCell_ne href t)
  · intro t
    have href : cell5G i (j + 1) (k - 2) m ≠ cell5G i j k m := fun h => by
      have := (cell5G_inj hk2 hm hk hm).mp h
      omega
    exact Prod.ext (crossReferenceCell_self hk t) (crossReferenceCell_ne href t)

theorem crossReferenceBw_ne {a : ℤ} (h : ∀ k < 6, ∀ m < 54, a ≠ cell5G i j k m) (t : Tables) :
    (crossReferenceBw i j t).cell a = t.cell a := by
  rw [crossReferenceBw]
  refine foldl_cell ?_ t
  rintro t ⟨m', k'⟩ hmem
  simp only [List.mem_product, List.mem_range] at hmem
  exact crossReferenceCell_ne (h k' hmem.2 m' hmem.1) t

/-- The cells referred to come later in the loops than those that refer to them. -/
theorem crossReference_cell (hi : i < 3) (hj : j < 4) (hk : k < 6) (hm : m < 54) (t : Tables) :
    (crossReference t).cell (cell5G i j k m) =
      if (t.cell (cell5G i j k m)).toInt = maxPowerIndex ∧ j ≤ 1 ∧ 2 ≤ k then
        t.cell (cell5G i (j + 1) (k - 2) m)
      else t.cell (cell5G i j k m) := by
  have hk2 : k - 2 < 6 := by omega
  have hmem : (i, j) ∈ List.range 3 ×ˢ List.range 4 := by
    simp only [List.mem_product, List.mem_range]
    exact ⟨hi, hj⟩
  have hsorted : (List.range 3 ×ˢ List.range 4).Pairwise
    fun x y => x.2 < 4 ∧ y.2 < 4 ∧ x.1 * 4 + x.2 < y.1 * 4 + y.2 := by decide
  obtain ⟨before, after, heq⟩ := List.append_of_mem hmem
  rw [heq, List.pairwise_append, List.pairwise_cons] at hsorted
  obtain ⟨-, ⟨hafter, -⟩, hbefore⟩ := hsorted
  have hlater (t : Tables) :
      (after.foldl (fun t x => crossReferenceBw x.1 x.2 t) t).cell (cell5G i j k m) =
        t.cell (cell5G i j k m) := by
    refine foldl_cell (fun t y hy => crossReferenceBw_ne (fun k' hk' m' hm' h => ?_) t) t
    have hlt := hafter y hy
    have := (cell5G_inj hk hm hk' hm').mp h
    omega
  have hearlier (t : Tables) :
      pair (cell5G i j k m) (cell5G i (j + 1) (k - 2) m)
        (before.foldl (fun t x => crossReferenceBw x.1 x.2 t) t) =
        pair (cell5G i j k m) (cell5G i (j + 1) (k - 2) m) t := by
    refine foldl_keeps (g := pair (cell5G i j k m) (cell5G i (j + 1) (k - 2) m))
      (fun t y hy => ?_) t
    have hlt := hbefore y hy _ List.mem_cons_self
    refine pair_congr (crossReferenceBw_ne (fun k' hk' m' hm' h => ?_) t)
      (crossReferenceBw_ne (fun k' hk' m' hm' h => ?_) t)
    · have := (cell5G_inj hk hm hk' hm').mp h
      omega
    · have := (cell5G_inj hk2 hm hk' hm').mp h
      omega
  rw [crossReference, heq, List.foldl_append, List.foldl_cons, hlater]
  have hpair := crossReferenceBw_pair (i := i) (j := j) hk hm
    (before.foldl (fun t x => crossReferenceBw x.1 x.2 t) t)
  rw [hearlier] at hpair
  have hfst := congrArg Prod.fst hpair
  rw [pair_fst] at hfst
  dsimp only
  rw [hfst]
  rfl

theorem crossReference_other {x : ℤ} (hx : Inside (.on24G, x)) (t : Tables) :
    (crossReference t).cell (Band.on24G.start + x) = t.cell (Band.on24G.start + x) := by
  rw [crossReference]
  refine foldl_cell ?_ t
  rintro t ⟨i, j⟩ hmem
  simp only [List.mem_product, List.mem_range] at hmem
  refine crossReferenceBw_ne (fun k hk m hm h => ?_) t
  have hchan : (m : ℤ) < Band.on5G.channels := Int.ofNat_lt.mpr hm
  have hplace : Inside (.on5G, offset .on5G i j k m 0) :=
    (inside_offset hk (Int.natCast_nonneg m) hchan (by decide)).mpr (line_lt hmem.1 hmem.2)
  exact absurd ((start_add_inj hx hplace).mp h).1 (by decide)

theorem crossReference_inside {t : Tables} (h : ∀ x ∈ t.touched, Inside x) :
    ∀ x ∈ (crossReference t).touched, Inside x := by
  rw [crossReference]
  refine foldl_inside ?_ h
  rintro t ⟨i, j⟩ hij ht
  rw [crossReferenceBw]
  refine foldl_inside ?_ ht
  rintro t ⟨m, k⟩ hmk ht
  simp only [List.mem_product, List.mem_range] at hij hmk
  obtain ⟨⟨hi, hj⟩, hm, hk⟩ := And.intro hij hmk
  have hchan : (m : ℤ) < Band.on5G.channels := Int.ofNat_lt.mpr hm
  have hself : Inside (.on5G, offset .on5G i j k m 0) :=
    (inside_offset hk (Int.natCast_nonneg m) hchan (by decide)).mpr (line_lt hi hj)
  have href (hk4 : k ≤ 5) (hj1 : j = 0 ∨ j = 1) : Inside (.on5G, offset .on5G i j (k + 4) m 0) := by
    rw [offset_carry]
    refine (inside_offset (Nat.mod_lt _ (by decide)) (Int.natCast_nonneg m) hchan
      (by decide)).mpr (line_lt hi ?_)
    simp only [Band.bandwidths]
    omega
  unfold crossReferenceCell
  dsimp only
  split_ifs with hmax hle
  · exact List.forall_mem_cons.mpr ⟨hself, List.forall_mem_cons.mpr ⟨href hle hmax.2.1,
      List.forall_mem_cons.mpr ⟨hself, ht⟩⟩⟩
  · omega
  · exact List.forall_mem_cons.mpr ⟨hself, ht⟩

end cross

section convert

variable {phy : Bases} {band : Band} {i j k m : ℕ}

/-- A cell of path A. -/
def cellA (band : Band) (i j k m : ℕ) : ℤ := band.start + offset band i j k m 0

theorem cell5G_eq (i j k m : ℕ) : cell5G i j k m = cellA .on5G i j k m := rfl

/-- What the conversion makes of a limit. -/
def converted (limit : Int8) (base : UInt8) : Int8 :=
  if limit.toInt ≠ maxPowerIndex then .ofInt (limit.toInt - base.toNat) else limit

section loop

variable {ι : Type*} {f : Tables × UInt8 → ι → Tables × UInt8} {L : List ι} {a : ℤ}

theorem foldl_fst_cell (hf : ∀ s, ∀ x ∈ L, (f s x).1.cell a = s.1.cell a) (s : Tables × UInt8) :
    (L.foldl f s).1.cell a = s.1.cell a :=
  foldl_keeps (g := fun s : Tables × UInt8 => s.1.cell a) hf s

theorem foldl_fst_once {x : ι} (hnd : L.Nodup) (hx : x ∈ L)
    (hf : ∀ s, ∀ y ∈ L, y ≠ x → (f s y).1.cell a = s.1.cell a) {c : Int8 → Int8}
    (hc : ∀ s, (f s x).1.cell a = c (s.1.cell a)) (s : Tables × UInt8) :
    (L.foldl f s).1.cell a = c (s.1.cell a) :=
  foldl_once (g := fun s : Tables × UInt8 => s.1.cell a) hnd hx hf hc s

theorem foldl_fst_inside
    (hf : ∀ s, ∀ x ∈ L, (∀ x ∈ s.1.touched, Inside x) → ∀ y ∈ (f s x).1.touched, Inside y)
    {s : Tables × UInt8} (h : ∀ x ∈ s.1.touched, Inside x) :
    ∀ x ∈ (L.foldl f s).1.touched, Inside x :=
  foldl_keep (P := fun s : Tables × UInt8 => ∀ x ∈ s.1.touched, Inside x) hf h

end loop

theorem convertPath_ne {a : ℤ} {l : ℕ} {v : Int8} {s : Tables × UInt8}
    (h : a ≠ band.start + offset band i j k m l) :
    (convertPath phy band i j m k v s l).1.cell a = s.1.cell a := by
  unfold convertPath
  split_ifs
  · exact write_cell_ne h
  · rfl

theorem convertPath_base (v : Int8) (s : Tables × UInt8) (l : ℕ) :
    (convertPath phy band i j m k v s l).2 = (convertBase phy band l k).getD s.2 := by
  unfold convertPath
  split_ifs <;> rfl

theorem convertSection_eq (s : Tables × UInt8) :
    convertSection phy band i j m s k =
      convertPath phy band i j m k (s.1.cell (cellA band i j k m))
        (convertPath phy band i j m k (s.1.cell (cellA band i j k m))
          ((s.1.read band (offset band i j k m 0)).2, s.2) 0) 1 :=
  rfl

theorem convertSection_base (s : Tables × UInt8) :
    (convertSection phy band i j m s k).2 =
      (convertBase phy band 1 k).getD ((convertBase phy band 0 k).getD s.2) := by
  rw [convertSection_eq, convertPath_base, convertPath_base]

theorem convertSection_ne {a : ℤ} (h : ∀ l < 2, a ≠ band.start + offset band i j k m l)
    (s : Tables × UInt8) : (convertSection phy band i j m s k).1.cell a = s.1.cell a := by
  rw [convertSection_eq, convertPath_ne (h 1 (by decide)), convertPath_ne (h 0 (by decide))]
  rfl

theorem convertSection_cell (s : Tables × UInt8) :
    (convertSection phy band i j m s k).1.cell (cellA band i j k m) =
      converted (s.1.cell (cellA band i j k m)) ((convertBase phy band 0 k).getD s.2) := by
  have hne : cellA band i j k m ≠ band.start + offset band i j k m 1 := by
    cases band <;> simp only [cellA, offset, Band.bandwidths, Band.channels] <;> omega
  rw [convertSection_eq, convertPath_ne hne, convertPath, converted]
  dsimp only
  split_ifs
  · exact write_cell ..
  · rfl

theorem cellA_ne {i' j' k' m' l : ℕ} (hk : k < 6) (hm : m < band.channels) (hk' : k' < 6)
    (hm' : m' < band.channels) (hl : l < 2)
    (hne : ¬ (i * band.bandwidths + j = i' * band.bandwidths + j' ∧ k = k' ∧ m = m')) :
    cellA band i j k m ≠ band.start + offset band i' j' k' m' l := fun h => by
  have heq := (offset_inj hk (Int.natCast_nonneg m) (Int.ofNat_lt.mpr hm) (by decide) hk'
    (Int.natCast_nonneg m') (Int.ofNat_lt.mpr hm') hl).mp (Int.add_left_cancel h)
  exact hne ⟨heq.1, heq.2.1, Int.ofNat_inj.mp heq.2.2.1⟩

/-- The base that the conversion looks up last for each channel. -/
def lastBase (phy : Bases) : UInt8 := getTxpowerByRateBase phy .on24G 1 rf4Tx htMcs24Mcs31

theorem convertChannel_base (s : Tables × UInt8) (x : ℕ × ℕ × ℕ) :
    (convertChannel phy band s x).2 = lastBase phy := by
  rw [convertChannel, show List.range 6 = List.range 5 ++ [5] from rfl, List.foldl_append,
    List.foldl_cons, List.foldl_nil, convertSection_base]
  cases band <;> rfl

theorem convertBase_some (phy : Bases) (band : Band) (hk : k < 6) (hpos : k ≠ 0) :
    ∃ base, convertBase phy band 0 k = some base := by
  have hcases : k = 1 ∨ k = 2 ∨ k = 3 ∨ k = 4 ∨ k = 5 := by omega
  rcases hcases with rfl | rfl | rfl | rfl | rfl <;> cases band <;> exact ⟨_, rfl⟩

theorem convertChannel_cell (hk : k < 6) (hm : m < band.channels) (s : Tables × UInt8) :
    (convertChannel phy band s (i, j, m)).1.cell (cellA band i j k m) =
      converted (s.1.cell (cellA band i j k m)) ((convertBase phy band 0 k).getD s.2) := by
  have hother : ∀ s : Tables × UInt8, ∀ k' < 6, k' ≠ k →
      (convertSection phy band i j m s k').1.cell (cellA band i j k m) =
        s.1.cell (cellA band i j k m) := fun s k' hk' hne =>
    convertSection_ne (fun l hl => cellA_ne hk hm hk' hm hl fun h => hne h.2.1.symm) s
  rw [convertChannel]
  dsimp only
  by_cases hzero : k = 0
  · subst hzero
    rw [show List.range 6 = 0 :: [1, 2, 3, 4, 5] from rfl, List.foldl_cons]
    refine (foldl_fst_cell (fun s k' hk' => ?_) _).trans (convertSection_cell s)
    simp only [List.mem_cons, List.not_mem_nil, or_false] at hk'
    exact hother s k' (by omega) (by omega)
  · obtain ⟨base, hbase⟩ := convertBase_some phy band hk hzero
    rw [hbase, Option.getD_some]
    have hself (s : Tables × UInt8) :
        (convertSection phy band i j m s k).1.cell (cellA band i j k m) =
          converted (s.1.cell (cellA band i j k m)) base := by
      rw [convertSection_cell, hbase, Option.getD_some]
    have honce := foldl_fst_once (f := convertSection phy band i j m) (L := List.range 6)
      (c := fun v => converted v base) List.nodup_range (List.mem_range.mpr hk)
      (fun s k' hk' hne => hother s k' (List.mem_range.mp hk') hne) hself s
    exact honce

theorem convertChannel_ne {a : ℤ} {x : ℕ × ℕ × ℕ}
    (h : ∀ k < 6, ∀ l < 2, a ≠ band.start + offset band x.1 x.2.1 k x.2.2 l)
    (s : Tables × UInt8) : (convertChannel phy band s x).1.cell a = s.1.cell a := by
  rw [convertChannel]
  have hkeep := foldl_fst_cell (f := convertSection phy band x.1 x.2.1 x.2.2) (L := List.range 6)
    (fun s k hk => convertSection_ne (h k (List.mem_range.mp hk)) s) s
  exact hkeep

/-- The channels of a loop nest, in their order. -/
def channelNest (band : Band) : List (ℕ × ℕ × ℕ) :=
  List.range 3 ×ˢ List.range band.bandwidths ×ˢ List.range band.channels

theorem mem_channelNest : (i, j, m) ∈ channelNest band ↔
    i < 3 ∧ j < band.bandwidths ∧ m < band.channels := by
  simp only [channelNest, List.mem_product, List.mem_range]

theorem nodup_channelNest (band : Band) : (channelNest band).Nodup :=
  List.nodup_range.product (List.nodup_range.product List.nodup_range)

theorem head_channelNest (band : Band) : (channelNest band).head? = some (0, 0, 0) := by
  cases band <;> rfl

/-- The base that is there before a channel is converted. -/
theorem base_before {before after : List (ℕ × ℕ × ℕ)} {x : ℕ × ℕ × ℕ}
    (heq : channelNest band = before ++ x :: after) (t : Tables) :
    (before.foldl (convertChannel phy band) (t, 0x2E)).2 =
      if x = (0, 0, 0) then 0x2E else lastBase phy := by
  have hhead := head_channelNest band
  have hnd := nodup_channelNest band
  rw [heq] at hhead hnd
  rcases before.eq_nil_or_concat' with rfl | ⟨init, y, rfl⟩
  · have hx : x = (0, 0, 0) := Option.some_inj.mp hhead
    rw [if_pos hx, List.foldl_nil]
  · have hx : x ≠ (0, 0, 0) := by
      rintro rfl
      have hmem : (0, 0, 0) ∈ init ++ [y] := by
        cases init with
        | nil => exact Option.some_inj.mp hhead ▸ List.mem_singleton_self y
        | cons z init => exact Option.some_inj.mp hhead ▸ List.mem_cons_self
      have hnot := (List.nodup_cons.mp (List.nodup_middle.mp hnd)).1
      exact hnot (List.mem_append_left _ hmem)
    rw [if_neg hx, List.foldl_append, List.foldl_cons, List.foldl_nil, convertChannel_base]

theorem convertChannel_other {x : ℕ × ℕ × ℕ} (hx : x ∈ channelNest band) (hm : m < band.channels)
    (hk : k < 6) (hne : ¬ (x.1 * band.bandwidths + x.2.1 = i * band.bandwidths + j ∧ x.2.2 = m))
    (s : Tables × UInt8) :
    (convertChannel phy band s x).1.cell (cellA band i j k m) =
      s.1.cell (cellA band i j k m) := by
  obtain ⟨i', j', m'⟩ := x
  have hm' := (mem_channelNest.mp hx).2.2
  refine convertChannel_ne (fun k' hk' l hl => cellA_ne hk hm hk' hm' hl fun h => ?_) s
  exact hne ⟨h.1.symm, h.2.2.symm⟩

/-- What the conversion makes of a cell. -/
theorem convertBand_cell (hi : i < 3) (hj : j < band.bandwidths) (hk : k < 6)
    (hm : m < band.channels) (t : Tables) :
    (convertBand phy band t).cell (cellA band i j k m) =
      converted (t.cell (cellA band i j k m))
        ((convertBase phy band 0 k).getD
          (if (i, j, m) = (0, 0, 0) then 0x2E else lastBase phy)) := by
  obtain ⟨before, after, heq⟩ := List.append_of_mem (mem_channelNest.mpr ⟨hi, hj, hm⟩)
  have hnd := nodup_channelNest band
  rw [heq] at hnd
  have hnot : (i, j, m) ∉ before ++ after := (List.nodup_cons.mp (List.nodup_middle.mp hnd)).1
  have hkeep : ∀ L : List (ℕ × ℕ × ℕ), (∀ x ∈ L, x ∈ before ++ after) → ∀ s : Tables × UInt8,
      (L.foldl (convertChannel phy band) s).1.cell (cellA band i j k m) =
        s.1.cell (cellA band i j k m) := by
    intro L hL
    refine foldl_fst_cell (f := convertChannel phy band) fun s x hx => ?_
    have hmem : x ∈ channelNest band := by
      rw [heq]
      exact (List.mem_append.mp (hL x hx)).elim (List.mem_append_left _)
        fun h => List.mem_append_right _ (List.mem_cons_of_mem _ h)
    refine convertChannel_other hmem hm hk (fun hsame => hnot ?_) s
    obtain ⟨i', j', m'⟩ := x
    obtain ⟨-, hj', -⟩ := mem_channelNest.mp hmem
    have hij : i' = i ∧ j' = j := by
      have hline := hsame.1
      cases band <;> simp only [Band.bandwidths] at * <;> omega
    obtain ⟨⟨rfl, rfl⟩, rfl⟩ := And.intro hij hsame.2
    exact hL _ hx
  show ((channelNest band).foldl (convertChannel phy band) (t, 0x2E)).1.cell _ = _
  rw [heq, List.foldl_append, List.foldl_cons,
    hkeep after fun x hx => List.mem_append_right _ hx, convertChannel_cell hk hm,
    hkeep before fun x hx => List.mem_append_left _ hx, base_before heq]

theorem convertPlace_inside {l : ℕ} (hx : (i, j, m) ∈ channelNest band) (hk : k < 6)
    (hl : l < 2) : Inside (band, offset band i j k m l) := by
  obtain ⟨hi, hj, hm⟩ := mem_channelNest.mp hx
  exact (inside_offset hk (Int.natCast_nonneg m) (Int.ofNat_lt.mpr hm) hl).mpr (line_lt hi hj)

theorem convertBand_other {band' : Band} {x : ℤ} (hne : band' ≠ band) (hx : Inside (band', x))
    (t : Tables) :
    (convertBand phy band t).cell (band'.start + x) = t.cell (band'.start + x) := by
  have hkeep := foldl_fst_cell (f := convertChannel phy band) (L := channelNest band)
    (a := band'.start + x) (fun s y hy => convertChannel_ne (fun k hk l hl h =>
      hne ((start_add_inj hx (convertPlace_inside hy hk hl)).mp h).1) s) (t, 0x2E)
  exact hkeep

theorem convertSection_inside {s : Tables × UInt8} (hx : (i, j, m) ∈ channelNest band)
    (hk : k < 6) (h : ∀ x ∈ s.1.touched, Inside x) :
    ∀ x ∈ (convertSection phy band i j m s k).1.touched, Inside x := by
  have hpath (v : Int8) {s : Tables × UInt8} {l : ℕ} (hl : l < 2)
      (h : ∀ x ∈ s.1.touched, Inside x) :
      ∀ x ∈ (convertPath phy band i j m k v s l).1.touched, Inside x := by
    unfold convertPath
    split_ifs
    · exact List.forall_mem_cons.mpr ⟨convertPlace_inside hx hk hl, h⟩
    · exact h
  rw [convertSection_eq]
  refine hpath _ (by decide) (hpath _ (by decide) ?_)
  exact List.forall_mem_cons.mpr ⟨convertPlace_inside hx hk (by decide), h⟩

theorem convertChannel_inside {s : Tables × UInt8} {x : ℕ × ℕ × ℕ} (hx : x ∈ channelNest band)
    (h : ∀ x ∈ s.1.touched, Inside x) :
    ∀ y ∈ (convertChannel phy band s x).1.touched, Inside y := by
  rw [convertChannel]
  refine foldl_fst_inside (f := convertSection phy band x.1 x.2.1 x.2.2) (fun s k hk hs => ?_) h
  exact convertSection_inside hx (List.mem_range.mp hk) hs

theorem convertBand_inside {t : Tables} (h : ∀ x ∈ t.touched, Inside x) :
    ∀ x ∈ (convertBand phy band t).touched, Inside x :=
  foldl_fst_inside (f := convertChannel phy band) (L := channelNest band) (s := (t, 0x2E))
    (fun _ _ hx hs => convertChannel_inside hx hs) h

theorem convert_inside {t : Tables} (h : ∀ x ∈ t.touched, Inside x) :
    ∀ x ∈ (convertTxpowerLimitToPowerIndex phy t).touched, Inside x :=
  convertBand_inside (convertBand_inside (crossReference_inside h))

/-- A cell of 2.4 GHz after the conversion. -/
theorem convert_cell24G (hi : i < 3) (hj : j < 2) (hk : k < 6) (hm : m < 14) (t : Tables) :
    (convertTxpowerLimitToPowerIndex phy t).cell (cellA .on24G i j k m) =
      converted (t.cell (cellA .on24G i j k m))
        ((convertBase phy .on24G 0 k).getD
          (if (i, j, m) = (0, 0, 0) then 0x2E else lastBase phy)) := by
  have hx : Inside (.on24G, offset .on24G i j k m 0) :=
    convertPlace_inside (mem_channelNest.mpr ⟨hi, hj, hm⟩) hk (by decide)
  rw [convertTxpowerLimitToPowerIndex, cellA, convertBand_other (by decide) hx, ← cellA,
    convertBand_cell hi hj hk hm, cellA, crossReference_other hx]

/-- A cell of 5 GHz after the conversion. -/
theorem convert_cell5G (hi : i < 3) (hj : j < 4) (hk : k < 6) (hm : m < 54) (t : Tables) :
    (convertTxpowerLimitToPowerIndex phy t).cell (cellA .on5G i j k m) =
      converted
        (if (t.cell (cellA .on5G i j k m)).toInt = maxPowerIndex ∧ j ≤ 1 ∧ 2 ≤ k then
          t.cell (cellA .on5G i (j + 1) (k - 2) m)
        else t.cell (cellA .on5G i j k m))
        ((convertBase phy .on5G 0 k).getD
          (if (i, j, m) = (0, 0, 0) then 0x2E else lastBase phy)) := by
  have hx : Inside (.on5G, offset .on5G i j k m 0) :=
    convertPlace_inside (mem_channelNest.mpr ⟨hi, hj, hm⟩) hk (by decide)
  have hcross := crossReference_cell hi hj hk hm t
  rw [cell5G_eq, cell5G_eq] at hcross
  rw [convertTxpowerLimitToPowerIndex, convertBand_cell hi hj hk hm, ← hcross, cellA,
    convertBand_other (by decide) hx]

end convert

/-! ## The lines of a table -/

section rows

variable {mem : ℤ → Int8} {is2T2R : Bool} {rows : List Row} {row : Row} {phy : Bases}

theorem lastOf_none {P : Row → Prop} [DecidablePred P] (hrow : row ∈ rows) (hP : P row)
    (d d' : ℤ) : lastOf P rows d = lastOf P rows d' := by
  obtain ⟨before, after, rfl⟩ := List.append_of_mem hrow
  simp only [lastOf, List.foldl_append, List.foldl_cons, if_pos hP]

theorem lastOf_range {P : Row → Prop} [DecidablePred P] :
    0 ≤ lastOf P rows maxPowerIndex ∧ lastOf P rows maxPowerIndex ≤ maxPowerIndex := by
  refine foldl_keep (P := fun limit : ℤ => 0 ≤ limit ∧ limit ≤ maxPowerIndex) ?_ (by decide)
  intro limit row _ h
  by_cases hP : P row
  · rw [if_pos hP]
    exact row.limit_range
  · rwa [if_neg hP]

theorem Row.lands (row : Row) : Lands row.on row.line row.rateSectionIdx row.group row :=
  ⟨rfl, rfl, rfl, rfl⟩

theorem bandwidths_pos (band : Band) : 0 < band.bandwidths := by cases band <;> decide

theorem Row.toNat_group (row : Row) : ((row.group.toNat : ℕ) : ℤ) = row.group :=
  Int.toNat_of_nonneg row.group_range.1

theorem Row.group_lt (row : Row) : row.group.toNat < row.on.channels := by
  have h := row.group_range
  have hle := initChannels_le row.on
  omega

theorem Row.line_div_add_mod (row : Row) :
    row.line / row.on.bandwidths * row.on.bandwidths + row.line % row.on.bandwidths = row.line :=
  Nat.div_add_mod' _ _

theorem Row.addr_eq (row : Row) :
    row.addr = cellA row.on (row.line / row.on.bandwidths) (row.line % row.on.bandwidths)
      row.rateSectionIdx row.group.toNat := by
  have hlt : ((row.group.toNat : ℕ) : ℤ) < row.on.channels := Int.ofNat_lt.mpr row.group_lt
  have hlt' : row.group < row.on.channels := row.toNat_group ▸ hlt
  have hpath : 0 < 2 := by decide
  have hplace := (offset_inj row.rateSectionIdx_lt row.group_range.1 hlt' hpath
    row.rateSectionIdx_lt (Int.natCast_nonneg row.group.toNat) hlt hpath).mpr
    ⟨row.line_div_add_mod.symm, rfl, row.toNat_group.symm, rfl⟩
  exact congrArg (row.on.start + ·) hplace

theorem Row.line_div_lt (hline : row.line < 3 * row.on.bandwidths) :
    row.line / row.on.bandwidths < 3 :=
  Nat.div_lt_of_lt_mul (Nat.mul_comm 3 _ ▸ hline)

/-- A cell that a line's limit is in, and those next to it that are initialised. -/
theorem load_cellA (hrows : ∀ row ∈ rows, row.line < 3 * row.on.bandwidths) {band : Band}
    {i j k : ℕ} (hi : i < 3) (hj : j < band.bandwidths) (hk : k < 6)
    (hchan : row.group.toNat < band.channels) :
    ((load mem is2T2R rows).cell (cellA band i j k row.group.toNat)).toInt =
      lastOf (Lands band (i * band.bandwidths + j) k row.group) rows
        (initial mem band i j k row.group) := by
  have h := load_cell mem is2T2R hrows hi hj hk
    (Int.natCast_nonneg row.group.toNat) (Int.ofNat_lt.mpr hchan)
  rw [held, row.toNat_group] at h
  rwa [cellA, row.toNat_group]

theorem load_addr (mem : ℤ → Int8) (is2T2R : Bool)
    (hrows : ∀ row ∈ rows, row.line < 3 * row.on.bandwidths) (hrow : row ∈ rows) :
    ((load mem is2T2R rows).cell row.addr).toInt = row.loaded rows := by
  rw [row.addr_eq, load_cellA hrows (Row.line_div_lt (hrows row hrow))
    (Nat.mod_lt _ (bandwidths_pos _)) row.rateSectionIdx_lt row.group_lt, row.line_div_add_mod]
  exact lastOf_none hrow row.lands _ _

theorem Row.first_iff (row : Row) :
    (row.line / row.on.bandwidths, row.line % row.on.bandwidths, row.group.toNat) = (0, 0, 0) ↔
      row.line = 0 ∧ row.group = 0 := by
  have hline := row.line_div_add_mod
  have hgroup := row.toNat_group
  simp only [Prod.mk.injEq]
  constructor
  · rintro ⟨hdiv, hmod, hzero⟩
    rw [hdiv, hmod, Nat.zero_mul] at hline
    omega
  · rintro ⟨hzero, hgroup0⟩
    rw [hzero, Nat.zero_div, Nat.zero_mod]
    omega

theorem Row.usedBase_eq (row : Row) (phy : Bases) :
    (convertBase phy row.on 0 row.rateSectionIdx).getD
      (if (row.line / row.on.bandwidths, row.line % row.on.bandwidths, row.group.toNat) =
        (0, 0, 0) then 0x2E else lastBase phy) = row.usedBase phy := by
  rw [usedBase]
  congr 1
  exact if_congr row.first_iff rfl rfl

/-- What the conversion leaves in a line's cell. -/
theorem convert_addr (mem : ℤ → Int8) (is2T2R : Bool) (phy : Bases)
    (hrows : ∀ row ∈ rows, row.line < 3 * row.on.bandwidths) (hrow : row ∈ rows) :
    ∃ v : Int8, v.toInt = row.referred rows ∧
      (convertTxpowerLimitToPowerIndex phy (load mem is2T2R rows)).cell row.addr =
        converted v (row.usedBase phy) := by
  have hdiv := Row.line_div_lt (hrows row hrow)
  have hmod := Nat.mod_lt row.line (bandwidths_pos row.on)
  have hloaded := load_addr mem is2T2R hrows hrow
  have hline := row.line_div_add_mod
  have hused := row.usedBase_eq phy
  have hchan := row.group_lt
  have hgroup := row.group_range
  rw [Row.referred]
  cases hon : row.on with
  | on24G =>
    rw [row.addr_eq] at hloaded ⊢
    rw [hon] at hdiv hmod hloaded hused hchan ⊢
    rw [convert_cell24G hdiv hmod row.rateSectionIdx_lt hchan, hused, if_neg (by simp)]
    exact ⟨_, hloaded, rfl⟩
  | on5G =>
    rw [row.addr_eq] at hloaded ⊢
    rw [hon] at hdiv hmod hloaded hused hchan hline hgroup ⊢
    rw [convert_cell5G hdiv hmod row.rateSectionIdx_lt hchan, hused, hloaded]
    refine ⟨_, ?_, rfl⟩
    have hbw : row.line % Band.on5G.bandwidths = row.bandwidthIdx := by
      have := row.bandwidthIdx_lt
      simp only [Row.line, hon, Band.bandwidths]
      omega
    by_cases href : row.bandwidthIdx ≤ 1 ∧ 2 ≤ row.rateSectionIdx ∧
        row.loaded rows = maxPowerIndex
    · have hj : row.line % Band.on5G.bandwidths ≤ 1 := hbw.symm ▸ href.1
      have hlt := row.rateSectionIdx_lt
      rw [if_pos ⟨href.2.2, hj, href.2.1⟩, if_pos ⟨rfl, href⟩,
        load_cellA hrows hdiv (by simp only [Band.bandwidths] at *; omega) (by omega) hchan]
      have hnext : row.line / Band.on5G.bandwidths * Band.on5G.bandwidths +
          (row.line % Band.on5G.bandwidths + 1) = row.line + 1 := by omega
      rw [hnext, initial, if_pos ⟨by simp only [Band.initSections]; omega, hgroup.2⟩]
    · rw [if_neg fun h => href ⟨hbw ▸ h.2.1, h.2.2, h.1⟩, if_neg fun h => href h.2]
      exact hloaded

theorem converted_iff {v : Int8} (hv : v.toInt = row.referred rows) :
    (converted v (row.usedBase phy)).toInt = row.loaded rows - (row.ownBase phy).toNat ↔
      BaseFits phy rows row := by
  have hrange : 0 ≤ row.loaded rows ∧ row.loaded rows ≤ maxPowerIndex := lastOf_range
  have hsame : row.referred rows = maxPowerIndex → row.loaded rows = maxPowerIndex := by
    rw [Row.referred]
    split_ifs with h
    · exact fun _ => h.2.2.2
    · exact id
  rw [converted, BaseFits, hv]
  by_cases hmax : row.referred rows = maxPowerIndex
  · rw [if_neg (not_not.mpr hmax), if_pos hmax, hv, hmax, hsame hmax, ← UInt8.toNat_inj]
    simp only [UInt8.toNat_zero]
    omega
  · rw [if_pos hmax, if_neg hmax, Int8.toInt_ofInt]
    rw [maxPowerIndex] at hrange
    simp only [Int8.size, Int.bmod]
    split_ifs <;> omega

end rows

/-! ## Main result -/

theorem bases_iff {mem : ℤ → Int8} {is2T2R : Bool} {rows : List Row} {phy : Bases}
    (hrows : ∀ row ∈ rows, row.line < 3 * row.on.bandwidths) {row : Row} (hrow : row ∈ rows) :
    ((convertTxpowerLimitToPowerIndex phy (load mem is2T2R rows)).cell row.addr).toInt =
        ((load mem is2T2R rows).cell row.addr).toInt - (row.ownBase phy).toNat ↔
      BaseFits phy rows row := by
  obtain ⟨v, hv, hcell⟩ := convert_addr mem is2T2R phy hrows hrow
  rw [hcell, load_addr mem is2T2R hrows hrow, converted_iff hv]

/-- The limits are used as they were loaded, inside the tables, exactly when the lines and what
    is asked for meet the condition. -/
theorem limit_used_iff (mem : ℤ → Int8) (is2T2R : Bool) (rows : List Row) (q : Query)
    (phy : Bases) : LimitUsed mem is2T2R rows q phy ↔ Matches mem rows q phy := by
  constructor
  · intro h
    have hrows := load_inside.mp h.writesInside
    refine ⟨hrows, fun sec bw hsec hbw => ?_, fun row hrow => ?_⟩
    · have hreads := h.readsInside 0 (by decide)
      rw [getTxpowerLimit_some (by decide) hsec hbw] at hreads
      have hinside := bandwidth_of_inside (hreads _ List.mem_cons_self)
      refine ⟨hinside, ?_⟩
      rw [← h.value 0 (by decide), getTxpowerLimit_load hrows (by decide) hsec hbw hinside]
    · exact (bases_iff hrows hrow).mp (h.converted row hrow)
  · intro h
    have hnone : ∀ x ∈ ([] : List Access), Inside x := fun _ hx => absurd hx List.not_mem_nil
    refine ⟨load_inside.mpr h.lines, fun reg hreg => ?_, fun reg hreg => ?_,
      convert_inside hnone, fun row hrow => (bases_iff h.lines hrow).mpr (h.bases row hrow)⟩
    · by_cases hindex : rateSection q.rate = none ∨ q.width.idx = none
      · rw [getTxpowerLimit_none hreg hindex]
        exact hnone
      · obtain ⟨sec, bw, hsec, hbw⟩ := indexed_of_not hindex
        have hinside := (h.cells sec bw hsec hbw).1
        rw [getTxpowerLimit_some hreg hsec hbw]
        exact List.forall_mem_cons.mpr ⟨query_inside hinside (by decide),
          List.forall_mem_cons.mpr ⟨query_inside hinside (by decide),
            List.forall_mem_cons.mpr ⟨query_inside hinside (by decide), hnone⟩⟩⟩
    · by_cases hindex : rateSection q.rate = none ∨ q.width.idx = none
      · rw [getTxpowerLimit_none hreg hindex, limitFor_none hindex]
        rfl
      · obtain ⟨sec, bw, hsec, hbw⟩ := indexed_of_not hindex
        obtain ⟨hinside, heq⟩ := h.cells sec bw hsec hbw
        rw [getTxpowerLimit_load h.lines hreg hsec hbw hinside, heq]

/-- The limit for channel 3, which is in the second group. -/
def channel3Row : Row where
  regulation := ['F', 'C', 'C']
  band := ['2', '.', '4', 'G']
  bandwidth := ['2', '0', 'M']
  rateSection := ['C', 'C', 'K']
  rfPath := ['1', 'T']
  channel := ['0', '3']
  powerLimit := ['3', '4']
  recognised := ⟨by decide, by decide, by decide, by decide, by decide, by decide, by decide⟩

/-- The limit of 1 MBit/s on channel 2, the second channel. -/
def channel2Query : Query where
  band := .on24G
  width := .width20
  rate := 0x02
  channel := 2
  ofBand := by decide

/-- The reader takes the position of the channel for its group. -/
theorem channel3_used_for_channel2 :
    ¬ ∀ mem is2T2R rows q phy, LimitUsed mem is2T2R rows q phy := by
  intro hall
  have h := hall (fun _ => 0) false [channel3Row] channel2Query ⟨fun _ => 0, fun _ => 0⟩
  have hvalue := h.value 0 (by decide)
  rw [getTxpowerLimit_load (load_inside.mp h.writesInside) (by decide)
    (show rateSection channel2Query.rate = some 0 by decide)
    (show channel2Query.width.idx = some 0 by decide) (by decide)] at hvalue
  exact absurd hvalue (by decide)

end Rtl8821au.Phy.PowerLimit
