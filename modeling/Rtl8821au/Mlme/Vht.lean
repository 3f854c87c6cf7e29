import Mathlib.Tactic.IntervalCases
import Rtl8821au.Lib.EndsWhen
import Rtl8821au.Lib.Run
import Rtl8821au.Mlme.BssInfo
import Rtl8821au.Mlme.JoinIes

/-!
# VHT negotiation

`rtw_vht.c`, lines 59–595, with `rtw_vht_use_default_setting` (`rtl8821au/sw.c`, lines 105–183),
the lines of `OnAssocReq` and `sta_info_update` that hand a station's capabilities over, and the
two places that ask for a data rate (`ioctl_linux.c`, lines 300–316, and `rtw_ioctl_set.c`, line
1056). What a peer sends is any string. A read in an element is checked against the length it
claims and against the bytes that are there, a read of the table against its columns.

* `rateOk_highestRate`: which maps have a highest rate that exists.
* `restructure_endsWhen`: when a join stays inside the elements, and what it limits itself to.
* `negotiation_right_iff`: which joins, associations and queries keep to bytes and rates that
  exist.

**What goes wrong.** `VHT_caps_handler` reads six bytes of an element of any length, and
`rtw_restructure_vht_ie` the second byte of an HT operation element of one. The hardware's limit
is put on the streams 1 to 4 only, and on a station's map not at all, so that any of the streams
5 to 8 gives a rate that does not exist; a station that comes back without a VHT element keeps
its flag and has a map of zeros. A map without streams has the rate 0, whose column is 32. The
operation element is copied from an array of five bytes as if it had twelve. Where neither an HT
operation element nor a width in a VHT operation element is there, the bandwidth is compared
with a variable that nothing has set.
-/

namespace Rtl8821au.Mlme.Vht

open Checked Elements Run
open BssInfo (hit LookFits getIe_lookup)
open ElemCopy (RfType)
open JoinIes (setBits bit)

/-! ## Model -/

/-- What is asked of the hardware: `rf_type`, which is one of these two, and whether
    `IS_VENDOR_8812A_C_CUT`. -/
structure Hardware where
  rfType : RfType
  cCut : Bool
  known : rfType = .rf1T1R ∨ rfType = .rf2T2R

/-- `struct vht_priv`. -/
structure VhtPriv where
  vhtOption : Bool := false
  ldpcCap : UInt8 := 0
  stbcCap : UInt8 := 0
  beamformCap : UInt8 := 0
  vhtBwmode : UInt8 := 0
  sgi : Bool := false
  ampduLen : UInt8 := 0
  vhtHighestRate : UInt8 := 0
  vhtMcsMap : UInt8 × UInt8 := (0, 0)
  vhtCap : Area 32 := .zero 32
  deriving DecidableEq, Repr

/-- `MGN_VHT1SS_MCS0`, `MGN_VHT1SS_MCS7` and `MGN_VHT2SS_MCS9` (`def.h`, lines 53–72). -/
def mgnVht1ssMcs0 : UInt8 := 0xa0
def mgnVht1ssMcs7 : UInt8 := 0xa7
def mgnVht2ssMcs9 : UInt8 := 0xb3

/-- `LDPC_VHT_ENABLE_RX`, `LDPC_VHT_ENABLE_TX` and `LDPC_VHT_CAP_TX`, which are the same for
    `STBC` (`rtw_rf.h`, lines 149–157). -/
def enableRx : UInt8 := 1
def enableTx : UInt8 := 2
def capTx : UInt8 := 8

/-- `BEAMFORMING_VHT_BEAMFORMER_ENABLE` and `BEAMFORMING_VHT_BEAMFORMEE_ENABLE`. -/
def beamformerEnable : UInt8 := 1
def beamformeeEnable : UInt8 := 2

/-- `CHANNEL_WIDTH_80`. -/
def channelWidth80 : UInt8 := 2

/-- `TEST_FLAG`. -/
def testFlag (x flag : UInt8) : Bool := x &&& flag ≠ 0

/-- `LE_BITS_TO_1BYTE`. -/
def leBits (b : UInt8) (off len : ℕ) : UInt8 :=
  b >>> UInt8.ofNat off &&& 0xff >>> UInt8.ofNat (8 - len)

/-! ### Rates -/

/-- One byte of the map in `rtw_get_vht_highest_rate`. -/
def byteRate (m i rate : UInt8) : UInt8 :=
  if m = 0xff then rate
  else ([0, 2, 4, 6] : List UInt8).foldl (fun rate j =>
    let bitMap := m >>> j &&& 3
    if bitMap = 3 then rate else mgnVht1ssMcs7 + 10 * j / 2 + i * 40 + bitMap) rate

/-- `rtw_get_vht_highest_rate` (lines 59–83). -/
def rtwGetVhtHighestRate (map : UInt8 × UInt8) : UInt8 := byteRate map.2 1 (byteRate map.1 0 0)

/-- `VHT_MCS_DATA_RATE` (lines 33–57), by the bandwidth and the guard interval. -/
def vhtMcsDataRate : ℕ → Bool → List ℕ
  | 0, false => [13, 26, 39, 52, 78, 104, 117, 130, 156, 156,
      26, 52, 78, 104, 156, 208, 234, 260, 312, 312]
  | 0, true => [14, 29, 43, 58, 87, 116, 130, 144, 173, 173,
      29, 58, 87, 116, 173, 231, 260, 289, 347, 347]
  | 1, false => [27, 54, 81, 108, 162, 216, 243, 270, 324, 360,
      54, 108, 162, 216, 324, 432, 486, 540, 648, 720]
  | 1, true => [30, 60, 90, 120, 180, 240, 270, 300, 360, 400,
      60, 120, 180, 240, 360, 480, 540, 600, 720, 800]
  | 2, false => [59, 117, 176, 234, 351, 468, 527, 585, 702, 780,
      117, 234, 351, 468, 702, 936, 1053, 1170, 1404, 1560]
  | 2, true => [65, 130, 195, 260, 390, 520, 585, 650, 780, 867,
      130, 260, 390, 520, 780, 1040, 1170, 1300, 1560, 1734]
  | _, _ => []

/-- `(vht_mcs_rate - MGN_VHT1SS_MCS0) & 0x3f`. -/
def rateColumn (rate : UInt8) : ℕ := (rate - mgnVht1ssMcs0 &&& 0x3f).toNat

/-- A read of the table. -/
def readRate (bw : ℕ) (sgi : Bool) (rate : UInt8) : Except Fault ℕ :=
  match (vhtMcsDataRate bw sgi)[rateColumn rate]? with
  | some r => .ok r
  | none => .error .beyond

/-- `rtw_vht_data_rate` (lines 85–91). -/
def rtwVhtDataRate (bw : UInt8) (sgi : Bool) (rate : UInt8) : Except Fault ℕ :=
  readRate bw.toNat sgi (if mgnVht2ssMcs9 < rate then mgnVht2ssMcs9 else rate)

/-- `rtw_vht_use_default_setting` (`sw.c`, lines 105–183). -/
def rtwVhtUseDefaultSetting (hw : Hardware) (v : VhtPriv) : VhtPriv :=
  let map : UInt8 × UInt8 := (if hw.rfType = .rf1T1R then 0xfe else 0xfa, 0xff)
  { v with
    vhtBwmode := (0x21 &&& 0xf0 : UInt8) >>> 4
    sgi := true
    ldpcCap := if hw.cCut then enableRx ||| enableTx else 0
    stbcCap := if hw.rfType = .rf2T2R then enableTx ||| enableRx else enableRx
    ampduLen := 7
    vhtMcsMap := map
    vhtHighestRate := rtwGetVhtHighestRate map }

/-! ### What a peer can do -/

/-- A capability that is used when it is enabled and the peer has the bits. -/
def capIf (on : Bool) (data : List UInt8) (k off len : ℕ) (cap : UInt8) : Except Fault UInt8 :=
  if on then do
    let b ← readByte data k
    .ok (if leBits b off len ≠ 0 then cap else 0)
  else .ok 0

/-- `cur_ldpc_cap`, `cur_stbc_cap` and `cur_beamform_cap`, from what is enabled in `ap`. -/
def currentCaps (ap : VhtPriv) (data : List UInt8) : Except Fault (UInt8 × UInt8 × UInt8) := do
  let ldpc ← capIf (testFlag ap.ldpcCap enableTx) data 0 4 1 (enableTx ||| capTx)
  let stbc ← capIf (testFlag ap.stbcCap enableTx) data 1 0 3 (enableTx ||| capTx)
  let bfee ← capIf (testFlag ap.beamformCap beamformerEnable) data 1 4 1 beamformeeEnable
  let bfer ← capIf (testFlag ap.beamformCap beamformeeEnable) data 1 3 1 beamformerEnable
  .ok (ldpc, stbc, bfee ||| bfer)

/-- `GET_VHT_CAPABILITY_ELE_MAX_RXAMPDU_FACTOR`, in two bytes. -/
def maxRxampduFactor (data : List UInt8) : Except Fault UInt8 := do
  let lo ← readByte data 2
  let hi ← readByte data 3
  .ok (UInt8.ofNat ((lo.toNat + 256 * hi.toNat) >>> 7 &&& 7))

/-- `memcpy(.., GET_VHT_CAPABILITY_ELE_RX_MCS(..), 2)`. -/
def rxMcs (data : List UInt8) : Except Fault (UInt8 × UInt8) := do
  let m0 ← readByte data 4
  let m1 ← readByte data 5
  .ok (m0, m1)

/-- The streams that the hardware does not have (lines 298–301). -/
def maskStreams (hw : Hardware) (m0 : UInt8) : UInt8 :=
  if hw.rfType = .rf1T1R then m0 ||| 0xfc
  else if hw.rfType = .rf2T2R then m0 ||| 0xf0
  else m0

/-- `VHT_caps_handler` (lines 215–306). -/
def vhtCapsHandler (hw : Hardware) (v : VhtPriv) (data : List UInt8) : Except Fault VhtPriv :=
  if v.vhtOption = false then .ok v
  else do
    let cur ← currentCaps v data
    let b0 ← readByte data 0
    let ampdu ← maxRxampduFactor data
    let mcs ← rxMcs data
    let map := (maskStreams hw mcs.1, mcs.2)
    .ok { v with
      ldpcCap := cur.1
      sgi := leBits b0 5 1 ≠ 0 && v.sgi
      stbcCap := cur.2.1
      beamformCap := cur.2.2
      ampduLen := ampdu
      vhtMcsMap := map
      vhtHighestRate := rtwGetVhtHighestRate map }

/-- `VHT_operation_handler` (lines 308–328). -/
def vhtOperationHandler (htBwmode : UInt8) (v : VhtPriv) (data : List UInt8) :
    Except Fault VhtPriv :=
  if v.vhtOption = false then .ok v
  else do
    let w ← readByte data 0
    .ok { v with
      vhtBwmode :=
        if 1 ≤ w ∧ channelWidth80 ≤ 0x21 &&& 0xf0 then channelWidth80 else htBwmode }

/-- `update_sta_vht_info_apmode` (lines 123–199). `htSgi` is `phtpriv_sta->sgi`. -/
def updateStaVhtInfoApmode (ap sta : VhtPriv) (htSgi : Bool) : Except Fault VhtPriv :=
  if sta.vhtOption = false then .ok sta
  else do
    let data := sta.vhtCap.bytes
    let cur ← currentCaps ap data
    let b0 ← readByte data 0
    let ampdu ← maxRxampduFactor data
    let map ← rxMcs data
    let bwmode := min sta.vhtBwmode ap.vhtBwmode
    .ok { sta with
      ldpcCap := cur.1
      vhtBwmode := bwmode
      sgi :=
        if bwmode = channelWidth80 then leBits b0 5 1 ≠ 0 && ap.sgi
        else if 3 ≤ bwmode then leBits b0 6 1 ≠ 0 && ap.sgi
        else htSgi
      stbcCap := cur.2.1
      beamformCap := cur.2.2
      ampduLen := ampdu
      vhtMcsMap := map
      vhtHighestRate := rtwGetVhtHighestRate map }

/-- A station: `WLAN_STA_VHT` of its `flags`, and its `vhtpriv`. -/
structure Station where
  vhtFlag : Bool := false
  vht : VhtPriv := {}
  deriving DecidableEq, Repr

/-- `GET_VHT_OPERATING_MODE_FIELD_CHNL_WIDTH`, of a notification of one byte. -/
def notifiedWidth : Option (List UInt8) → UInt8
  | some [b] => leBits b 0 2
  | _ => 0

/-- The VHT part of `OnAssocReq` (`rtw_mlme_ext.c`, lines 1554–1566). Where the element is missing
    it is `WLAN_STA_HT` that is cleared. -/
def onAssocReqVht (st : Station) (cap notify : Option (List UInt8)) : Station :=
  match cap with
  | none => { st with vht := {} }
  | some c =>
    if c.length = 12 then
      { vhtFlag := true
        vht := { vhtCap := (Area.zero 32).put 0 c, vhtBwmode := notifiedWidth notify } }
    else { st with vht := {} }

/-- The VHT part of `sta_info_update` (`rtw_ap.c`, lines 2200–2211). -/
def staInfoUpdate (ap : VhtPriv) (st : Station) (htSgi : Bool) : Except Fault Station := do
  let vht ← updateStaVhtInfoApmode ap
    { st.vht with vhtOption := st.vhtFlag && ap.vhtOption } htSgi
  .ok { st with vht := vht }

/-! ### Elements of our own -/

/-- `rtw_set_ie` (`rtw_ieee80211.c`, lines 148–169), from `source` on at `p`. -/
def rtwSetIe (index : UInt8) (len : ℕ) (source : List UInt8) (p : ℕ) :
    Except Fault (List UInt8) := do
  let bytes ← readBytes source p len
  .ok (index :: UInt8.ofNat len :: bytes)

/-- `rtw_build_vht_operation_ie` (lines 330–357); every byte of `operation` is set. -/
def rtwBuildVhtOperationIe (v : VhtPriv) (centerFreq : UInt8) : Except Fault (List UInt8) :=
  let chnlWidth : UInt8 := if channelWidth80 ≤ v.vhtBwmode then 1 else 0
  rtwSetIe 192 12 [chnlWidth, centerFreq, 0, 0xff, 0xff] 0

/-- `rtw_build_vht_op_mode_notify_ie` (lines 359–384). -/
def rtwBuildVhtOpModeNotifyIe (hw : Hardware) (v : VhtPriv) : Except Fault (List UInt8) :=
  let rxNss : UInt8 := if hw.rfType = .rf1T1R then 1 else 2
  rtwSetIe 199 1 [setBits (setBits (setBits 0 0 2 v.vhtBwmode) 4 3 (rxNss - 1)) 7 1 0] 0

/-- What `rtw_build_vht_cap_ie` stores (lines 399–524). The stores that follow a store to the same
    bits are the ones that stay. -/
def vhtCapBytes (hw : Hardware) (v : VhtPriv) (highestRate : ℕ) : List UInt8 :=
  let rxStbc : UInt8 :=
    if testFlag v.stbcCap enableRx then
      if hw.rfType = .rf2T2R then 2 else if hw.rfType = .rf1T1R then 1 else 0
    else 0
  let highest : List UInt8 := [UInt8.ofNat highestRate, UInt8.ofNat (highestRate >>> 8 &&& 0x1f)]
  let b0 := setBits (setBits 0 2 2 0) 4 1 (bit (testFlag v.ldpcCap enableRx))
  let b0 := setBits b0 5 1 (bit v.sgi)
  let b0 := if channelWidth80 < v.vhtBwmode then setBits b0 6 1 (bit v.sgi) else b0
  let b0 := setBits b0 7 1 (bit (testFlag v.stbcCap enableTx))
  let b1 := setBits (setBits 0 0 3 rxStbc) 3 1 (bit (testFlag v.beamformCap beamformerEnable))
  let b1 := setBits (setBits b1 4 1 (bit (testFlag v.beamformCap beamformeeEnable))) 5 3 1
  let b2 := setBits (setBits 0 0 3 1) 3 1 0
  let b2 := setBits (setBits (setBits b2 4 1 0) 5 1 0) 6 1 1
  let b2 := setBits (setBits b2 7 1 1) 2 2 0
  let b3 := setBits 0 0 2 3
  let map := [v.vhtMcsMap.1, v.vhtMcsMap.2]
  [b0, b1, b2, b3] ++ map ++ highest ++ map ++ highest

/-- `rtw_build_vht_cap_ie` (lines 386–529). -/
def rtwBuildVhtCapIe (hw : Hardware) (v : VhtPriv) : Except Fault (VhtPriv × List UInt8) := do
  let rate ← readRate (0x21 >>> 4 &&& 0xf) v.sgi v.vhtHighestRate
  let cap := (Area.zero 32).put 0 (vhtCapBytes hw v ((rate + 1) >>> 1))
  let ie ← rtwSetIe 191 12 cap.bytes 0
  .ok ({ v with vhtCap := cap }, ie)

/-! ### A join -/

/-- What a call has derived, appended and applied: the highest rates, the elements, and the value
    of `operation_bw` with which the bandwidth is compared. -/
structure Output where
  rates : List UInt8 := []
  appended : List (List UInt8) := []
  limit : Option UInt8 := none
  deriving DecidableEq, Repr

/-- A byte of the data of the element at `p`, which claims to have `n` bytes. -/
def readData (f : List UInt8) (p n k : ℕ) : Except Fault UInt8 :=
  if k < n then readByte f (p + 2 + k) else .error .beyond

/-- `CHANNEL_WIDTH_40` or `CHANNEL_WIDTH_20`, from `infos[0]` (lines 558–561). -/
def htWidth (infos : UInt8) : UInt8 := if infos &&& 4 ≠ 0 then 1 else 0

/-- The width of the VHT operation element, from the supported one (lines 571–576). -/
def vhtWidth (supported : UInt8) : UInt8 :=
  if supported = 2 then 4 else if supported = 1 then 3 else channelWidth80

/-- The HT operation element (lines 555–562). -/
def htOperation (f : List UInt8) (bw : UInt8) : Except Fault UInt8 := do
  let found ← getIe f 61 f.length 0
  match found with
  | none => .ok bw
  | some (p, n) =>
    if n = 0 then .ok bw
    else do
      let infos ← readData f p n 1
      .ok (htWidth infos)

/-- The VHT operation element (lines 567–579), with what is appended. -/
def vhtOperation (f : List UInt8) (supported bw : UInt8) :
    Except Fault (UInt8 × List (List UInt8)) := do
  let found ← getIe f 192 f.length 0
  match found with
  | none => .ok (bw, [])
  | some (p, n) =>
    if n = 0 then .ok (bw, [])
    else do
      let w ← readData f p n 0
      let ie ← rtwSetIe 192 n f (p + 2)
      .ok (if 1 ≤ w then vhtWidth supported else bw, [ie])

/-- From line 544 on. `unset` is what is in `operation_bw`. -/
def restructureFound (hw : Hardware) (unset : UInt8) (f : List UInt8) (v : VhtPriv) (p n : ℕ) :
    Except Fault (VhtPriv × Output) := do
  let b ← readData f p n 0
  let cap ← rtwBuildVhtCapIe hw v
  let bw ← htOperation f unset
  let op ← vhtOperation f (leBits b 2 2) bw
  let v' := { cap.1 with vhtBwmode := min cap.1.vhtBwmode op.1 }
  let notify ← rtwBuildVhtOpModeNotifyIe hw v'
  .ok ({ v' with vhtOption := true },
    { rates := [v'.vhtHighestRate]
      appended := cap.2 :: op.2 ++ [notify]
      limit := some op.1 })

/-- `rtw_restructure_vht_ie` (lines 531–595). `f` is what there is from `in_ie + 12` on, of length
    `in_len - 12`. -/
def rtwRestructureVhtIe (hw : Hardware) (unset : UInt8) (f : List UInt8) (v : VhtPriv) :
    Except Fault (VhtPriv × Output) :=
  let v := rtwVhtUseDefaultSetting hw v
  do
    let found ← getIe f 191 f.length 0
    match found with
    | none => .ok (v, { rates := [v.vhtHighestRate] })
    | some (p, n) =>
      if n = 0 then .ok (v, { rates := [v.vhtHighestRate] }) else restructureFound hw unset f v p n

/-! ### Runs -/

/-- The adapter. `phtpriv->bwmode` is never stored to. -/
structure State where
  vht : VhtPriv := {}
  htBwmode : UInt8 := 0
  station : ℕ → Station := fun _ => {}

/-- What happens: a join (`rtw_cmd.c`, lines 744–748) of a network with the elements `f`; a VHT
    capability and a VHT operation element in an association response; a request of a station for
    association, which the rest of `OnAssocReq` accepts or not; the station is freed; an operation
    element is built; the data rate of a network in a scan, and our own. -/
inductive Op where
  | join (htOption : Bool) (unset : UInt8) (f : List UInt8)
  | vhtCaps (data : List UInt8)
  | vhtOperation (data : List UInt8)
  | assoc (x : ℕ) (cap notify : Option (List UInt8)) (htSgi accepted : Bool)
  | free (x : ℕ)
  | buildOperation (centerFreq : UInt8)
  | scanRate (map : UInt8 × UInt8) (sgi : Bool)
  | maxRate

/-- The station `x` has become `st`. -/
def State.setStation (s : State) (x : ℕ) (st : Station) : State :=
  { s with station := fun y => if y = x then st else s.station y }

/-- A request is turned down when the station has its flag and we have no VHT (lines 1568–1572). -/
def execAssoc (s : State) (x : ℕ) (st : Station) (htSgi accepted : Bool) :
    Except Fault (State × Output) :=
  if accepted = false ∨ s.vht.vhtOption = false ∧ st.vhtFlag = true then .ok (s.setStation x st, {})
  else do
    let st ← staInfoUpdate s.vht st htSgi
    .ok (s.setStation x st, { rates := [st.vht.vhtHighestRate] })

/-- One of these. -/
def exec (hw : Hardware) (s : State) : Op → Except Fault (State × Output)
  | .join htOption unset f =>
    let v := { s.vht with vhtOption := false }
    if htOption then do
      let r ← rtwRestructureVhtIe hw unset f v
      .ok ({ s with vht := r.1 }, r.2)
    else .ok ({ s with vht := v }, {})
  | .vhtCaps data => do
    let v ← vhtCapsHandler hw s.vht data
    .ok ({ s with vht := v }, { rates := [v.vhtHighestRate] })
  | .vhtOperation data => do
    let v ← vhtOperationHandler s.htBwmode s.vht data
    .ok ({ s with vht := v }, {})
  | .assoc x cap notify htSgi accepted =>
    execAssoc s x (onAssocReqVht (s.station x) cap notify) htSgi accepted
  | .free x => .ok (s.setStation x {}, {})
  | .buildOperation centerFreq => do
    let ie ← rtwBuildVhtOperationIe s.vht centerFreq
    .ok (s, { appended := [ie] })
  | .scanRate map sgi => do
    let _ ← rtwVhtDataRate channelWidth80 sgi (rtwGetVhtHighestRate map)
    .ok (s, {})
  | .maxRate => do
    let _ ← rtwVhtDataRate s.vht.vhtBwmode s.vht.sgi s.vht.vhtHighestRate
    .ok (s, {})

/-- The state behind it, as far as it comes to its end. -/
def next (hw : Hardware) (s : State) (op : Op) : State :=
  match exec hw s op with
  | .ok r => r.1
  | .error _ => s

/-! ## What is right -/

/-- The rate is 0 or one of those that exist. -/
def RateOk (r : UInt8) : Prop := r = 0 ∨ mgnVht1ssMcs0 ≤ r ∧ r ≤ mgnVht2ssMcs9

instance (r : UInt8) : Decidable (RateOk r) := inferInstanceAs (Decidable (_ ∨ _))

/-- What an element with data says. -/
def announced (index : UInt8) (say : List UInt8 → Option UInt8) (es : List Elem)
    (t : List UInt8) : Option UInt8 :=
  (hit index es t).bind fun r => if r.1 = 0 then none else say r.2

/-- The width in the HT operation element. -/
def htAnnounced (es : List Elem) (t : List UInt8) : Option UInt8 :=
  announced 61 (fun d => some (htWidth (d.getD 1 0))) es t

/-- The supported width in the VHT capability element. -/
def supportedWidth (es : List Elem) (t : List UInt8) : UInt8 :=
  ((hit 191 es t).map fun r => leBits (r.2.getD 0 0) 2 2).getD 0

/-- The width in the VHT operation element, if it is one of VHT. -/
def vhtAnnounced (es : List Elem) (t : List UInt8) : Option UInt8 :=
  announced 192 (fun d =>
    if 1 ≤ d.getD 0 0 then some (vhtWidth (supportedWidth es t)) else none) es t

/-- One of the elements announces the width. -/
def Announces (f : List UInt8) (bw : UInt8) : Prop :=
  htAnnounced (parse f).1 (parse f).2 = some bw ∨ vhtAnnounced (parse f).1 (parse f).2 = some bw

/-- The elements of the network that is joined. -/
def Op.elements : Op → List UInt8
  | .join _ _ f => f
  | _ => []

/-- The rates that are derived exist, and the limit that is applied is one that was announced. -/
structure Keeps (op : Op) (o : Output) : Prop where
  rates : ∀ x ∈ o.rates, RateOk x
  limit : ∀ bw ∈ o.limit, Announces op.elements bw

/-- The call also keeps to the bytes of the elements, to the columns of the table and to sources
    as long as what is copied from them. -/
def Right (hw : Hardware) (s : State) (op : Op) : Prop :=
  ∃ r, exec hw s op = .ok r ∧ Keeps op r.2

/-! ## When it is -/

/-- A map that has none of the streams 3 to 8. -/
def MapFits (m0 m1 : UInt8) : Prop := m1 = 0xff ∧ m0 &&& 0xf0 = 0xf0

instance (m0 m1 : UInt8) : Decidable (MapFits m0 m1) := inferInstanceAs (Decidable (_ ∧ _))

/-- An HT operation element with data has a second byte. -/
def HtFits (es : List Elem) (t : List UInt8) : Prop :=
  LookFits 61 es t ∧ ∀ n d, hit 61 es t = some (n, d) → n ≠ 0 → 1 < n ∧ 1 < d.length

/-- A VHT operation element is all there. -/
def VhtFits (es : List Elem) (t : List UInt8) : Prop :=
  LookFits 192 es t ∧ ∀ n d, hit 192 es t = some (n, d) → n ≠ 0 → n ≤ d.length

/-- Something is said about the width. -/
def Says (es : List Elem) (t : List UInt8) : Prop :=
  htAnnounced es t ≠ none ∨ vhtAnnounced es t ≠ none

/-- The searches end, and when there is a VHT capability element with data, what is read is there
    and the width is announced. -/
def JoinFits (es : List Elem) (t : List UInt8) : Prop :=
  LookFits 191 es t ∧ ∀ n d, hit 191 es t = some (n, d) → n ≠ 0 →
    0 < d.length ∧ HtFits es t ∧ VhtFits es t ∧ Says es t

/-- A station has a map that fits, or has never had VHT. -/
def AssocFits (st : Station) : Option (List UInt8) → Prop
  | none => st.vhtFlag = false
  | some c => if c.length = 12 then MapFits (c.getD 4 0) (c.getD 5 0) else st.vhtFlag = false

/-- The condition on what is received and on the state before it. -/
def Cond (s : State) : Op → Prop
  | .join htOption _ f => htOption = true → JoinFits (parse f).1 (parse f).2
  | .vhtCaps data => s.vht.vhtOption = true → 5 < data.length ∧ data.getD 5 0 = 0xff
  | .vhtOperation data => s.vht.vhtOption = true → 0 < data.length
  | .assoc x cap _ _ accepted =>
    accepted = true → s.vht.vhtOption = true → AssocFits (s.station x) cap
  | .free _ => True
  | .buildOperation _ => False
  | .scanRate map _ => map ≠ (0xff, 0xff)
  | .maxRate => s.vht.vhtHighestRate ≠ 0

/-- The state: the highest rate exists, and the width has a row in the table. -/
structure Inv (s : State) : Prop where
  rate : RateOk s.vht.vhtHighestRate
  width : s.vht.vhtBwmode ≤ channelWidth80
  htWidth : s.htBwmode = 0

/-! ## Rates -/

section rates

variable {m m0 m1 i r : UInt8}

/-- What holds of all bytes. -/
theorem forall_byte {p : UInt8 → Prop} (h : ∀ b : BitVec 8, p ⟨b⟩) (m : UInt8) : p m :=
  h m.toBitVec

/-- Four codes of 3 make the byte `0xff`. -/
theorem codes_all (m : UInt8) (h : ∀ j ∈ ([0, 2, 4, 6] : List UInt8), m >>> j &&& 3 = 3) :
    m = 0xff := by
  revert h
  apply forall_byte (p := fun m => (∀ j ∈ ([0, 2, 4, 6] : List UInt8), m >>> j &&& 3 = 3) →
    m = 0xff)
  decide +kernel

theorem byteRate_full : byteRate 0xff i r = r := if_pos rfl

/-- A byte that has a stream decides on the rate. -/
theorem byteRate_start (hm : m ≠ 0xff) : byteRate m i r = byteRate m i 0 := by
  rw [byteRate, byteRate, if_neg hm, if_neg hm]
  have hone : ¬ ∀ j ∈ ([0, 2, 4, 6] : List UInt8), m >>> j &&& 3 = 3 := fun h => hm (codes_all m h)
  simp only [List.forall_mem_cons, List.not_mem_nil, false_implies, implies_true, and_true] at hone
  simp only [List.foldl_cons, List.foldl_nil]
  split_ifs <;> first | rfl | exact absurd ⟨‹_›, ‹_›, ‹_›, ‹_›⟩ hone

theorem byteRate_first (hm : m ≠ 0xff) :
    mgnVht1ssMcs0 ≤ byteRate m 0 0 ∧ (byteRate m 0 0 ≤ mgnVht2ssMcs9 ↔ m &&& 0xf0 = 0xf0) := by
  revert hm
  apply forall_byte (p := fun m => m ≠ 0xff → mgnVht1ssMcs0 ≤ byteRate m 0 0 ∧
    (byteRate m 0 0 ≤ mgnVht2ssMcs9 ↔ m &&& 0xf0 = 0xf0))
  decide +kernel

/-- The streams 5 to 8 lead behind the last rate. -/
theorem byteRate_second (hm : m ≠ 0xff) : mgnVht2ssMcs9 < byteRate m 1 0 := by
  revert hm
  apply forall_byte (p := fun m => m ≠ 0xff → mgnVht2ssMcs9 < byteRate m 1 0)
  decide +kernel

theorem not_rateOk (hr : mgnVht2ssMcs9 < r) : ¬ RateOk r := by
  rintro (rfl | ⟨-, hle⟩)
  · exact absurd hr (by decide)
  · exact absurd hr (UInt8.not_lt.mpr hle)

/-- The highest rate is that of the last byte with a stream. -/
theorem highestRate_cases (m0 m1 : UInt8) :
    m1 ≠ 0xff ∧ rtwGetVhtHighestRate (m0, m1) = byteRate m1 1 0 ∨
    m1 = 0xff ∧ m0 ≠ 0xff ∧ rtwGetVhtHighestRate (m0, m1) = byteRate m0 0 0 ∨
    m1 = 0xff ∧ m0 = 0xff ∧ rtwGetVhtHighestRate (m0, m1) = 0 := by
  rw [rtwGetVhtHighestRate]
  by_cases h1 : m1 = 0xff
  · right
    rw [h1, byteRate_full]
    by_cases h0 : m0 = 0xff
    · exact .inr ⟨rfl, h0, by rw [h0, byteRate_full]⟩
    · exact .inl ⟨rfl, h0, rfl⟩
  · exact .inl ⟨h1, byteRate_start h1⟩

/-- A map has a highest rate that exists when it has only the streams 1 and 2. -/
theorem rateOk_highestRate : RateOk (rtwGetVhtHighestRate (m0, m1)) ↔ MapFits m0 m1 := by
  rcases highestRate_cases m0 m1 with ⟨h1, hr⟩ | ⟨rfl, h0, hr⟩ | ⟨rfl, rfl, hr⟩
  · rw [hr]
    exact iff_of_false (not_rateOk (byteRate_second h1)) fun h => h1 h.1
  · obtain ⟨hge, hle⟩ := byteRate_first h0
    have hne : byteRate m0 0 0 ≠ 0 := fun h => by
      rw [h] at hge
      exact absurd hge (by decide)
    rw [hr, RateOk, or_iff_right hne, and_iff_right hge, hle, MapFits, and_iff_right rfl]
  · rw [hr]
    exact iff_of_true (.inl rfl) (by decide)

/-- There is none, or it is not below the first one. -/
theorem highestRate_ge (map : UInt8 × UInt8) :
    rtwGetVhtHighestRate map = 0 ∨ mgnVht1ssMcs0 ≤ rtwGetVhtHighestRate map := by
  obtain ⟨m0, m1⟩ := map
  rcases highestRate_cases m0 m1 with ⟨h1, hr⟩ | ⟨-, h0, hr⟩ | ⟨-, -, hr⟩
  · rw [hr]
    exact .inr (UInt8.le_trans (by decide) (UInt8.le_of_lt (byteRate_second h1)))
  · rw [hr]
    exact .inr (byteRate_first h0).1
  · exact .inl hr

theorem highestRate_eq_zero {map : UInt8 × UInt8} :
    rtwGetVhtHighestRate map = 0 ↔ map = (0xff, 0xff) := by
  obtain ⟨m0, m1⟩ := map
  have hzero : ∀ x : UInt8, mgnVht1ssMcs0 ≤ x → x ≠ 0 := fun x hx h => by
    rw [h] at hx
    exact absurd hx (by decide)
  rw [Prod.mk.injEq]
  rcases highestRate_cases m0 m1 with ⟨h1, hr⟩ | ⟨-, h0, hr⟩ | ⟨h1, h0, hr⟩
  · rw [hr]
    refine iff_of_false (hzero _ ?_) fun h => h1 h.2
    exact UInt8.le_trans (by decide) (UInt8.le_of_lt (byteRate_second h1))
  · rw [hr]
    exact iff_of_false (hzero _ (byteRate_first h0).1) fun h => h0 h.1
  · exact iff_of_true hr ⟨h0, h1⟩

/-- With the streams masked that the hardware does not have. -/
theorem mapFits_mask (hw : Hardware) : MapFits (maskStreams hw m0) m1 ↔ m1 = 0xff := by
  refine and_iff_left ?_
  rw [maskStreams]
  rcases hw.known with h | h
  · rw [if_pos h]
    exact forall_byte (p := fun m => (m ||| 0xfc) &&& 0xf0 = 0xf0) (by decide +kernel) m0
  · rw [if_neg (by rw [h]; decide), if_pos h]
    exact forall_byte (p := fun m => (m ||| 0xf0) &&& 0xf0 = 0xf0) (by decide +kernel) m0

/-- The default settings have a rate. -/
theorem default_rateOk (hw : Hardware) (v : VhtPriv) :
    RateOk (rtwVhtUseDefaultSetting hw v).vhtHighestRate ∧
      (rtwVhtUseDefaultSetting hw v).vhtHighestRate ≠ 0 := by
  rcases hw.known with h | h <;> simp only [rtwVhtUseDefaultSetting, h] <;> decide

end rates

/-! ## The table -/

section table

variable {bw : ℕ} {sgi : Bool} {r : UInt8}

theorem vhtMcsDataRate_length (hbw : bw < 3) : (vhtMcsDataRate bw sgi).length = 20 := by
  interval_cases bw <;> cases sgi <;> rfl

/-- A read in the table. -/
theorem endsWhen_readRate (hbw : bw < 3) :
    EndsWhen (rateColumn r < 20) (fun _ => True) (readRate bw sgi r) := by
  rw [readRate]
  by_cases hc : rateColumn r < 20
  · rw [List.getElem?_eq_getElem (by rw [vhtMcsDataRate_length hbw]; exact hc)]
    exact .ok_of hc trivial
  · rw [List.getElem?_eq_none (by rw [vhtMcsDataRate_length hbw]; exact Nat.not_lt.mp hc)]
    exact .error hc

/-- The rates from the first one on have a column, up to the last one. -/
theorem column_clamped (h : r = 0 ∨ mgnVht1ssMcs0 ≤ r) :
    rateColumn (if mgnVht2ssMcs9 < r then mgnVht2ssMcs9 else r) < 20 ↔ r ≠ 0 := by
  revert h
  apply forall_byte (p := fun r => r = 0 ∨ mgnVht1ssMcs0 ≤ r →
    (rateColumn (if mgnVht2ssMcs9 < r then mgnVht2ssMcs9 else r) < 20 ↔ r ≠ 0))
  decide +kernel

/-- `rtw_vht_data_rate` reads the table when there is a rate. -/
theorem endsWhen_dataRate {bw : UInt8} (hbw : bw ≤ channelWidth80)
    (h : r = 0 ∨ mgnVht1ssMcs0 ≤ r) :
    EndsWhen (r ≠ 0) (fun _ => True) (rtwVhtDataRate bw sgi r) := by
  have hlt : bw.toNat < 3 := Nat.lt_succ_of_le (UInt8.le_iff_toNat_le.mp hbw)
  exact (endsWhen_readRate hlt).iff (column_clamped h)

end table

/-! ## The handlers -/

section handlers

variable {hw : Hardware} {ap v sta : VhtPriv} {data : List UInt8}

theorem endsWhen_capIf (on : Bool) (data : List UInt8) (k off len : ℕ) (cap : UInt8) :
    EndsWhen (on = true → k < data.length) (fun _ => True) (capIf on data k off len cap) := by
  cases on
  · exact .ok_of (fun h => by cases h) trivial
  · refine (((endsWhen_readByte data k).bind_ok fun b _ => ?_)).iff ?_
    · exact .ok trivial
    · exact ⟨fun h _ => h, fun h => h rfl⟩

/-- The capabilities are in the first two bytes. -/
theorem currentCaps_fine (hlen : 1 < data.length) : Fine (currentCaps ap data) := by
  have h0 : 0 < data.length := by omega
  have hread : ∀ on k off len cap, k ≤ 1 → EndsWhen True (fun _ => True)
      (capIf on data k off len cap) := fun on k off len cap hk =>
    (endsWhen_capIf on data k off len cap).iff (iff_of_true (fun _ => by omega) trivial)
  have hall : EndsWhen True (fun _ => True) (currentCaps ap data) :=
    (hread _ 0 4 1 _ (by decide)).bind_ok fun _ _ =>
      (hread _ 1 0 3 _ (by decide)).bind_ok fun _ _ =>
        (hread _ 1 4 1 _ (by decide)).bind_ok fun _ _ =>
          (hread _ 1 3 1 _ (by decide)).bind_ok fun _ _ => .ok trivial
  exact hall.fine_iff.mpr trivial

theorem endsWhen_maxRxampdu (data : List UInt8) :
    EndsWhen (2 < data.length ∧ 3 < data.length) (fun _ => True) (maxRxampduFactor data) := by
  refine (endsWhen_readByte data 2).bind fun _ _ => ?_
  exact (endsWhen_readByte data 3).bind_ok fun _ _ => .ok trivial

theorem endsWhen_rxMcs (data : List UInt8) :
    EndsWhen (4 < data.length ∧ 5 < data.length) (· = (data.getD 4 0, data.getD 5 0))
      (rxMcs data) := by
  refine (endsWhen_readByte data 4).bind fun m0 h0 => ?_
  refine (endsWhen_readByte data 5).bind_ok fun m1 h1 => .ok ?_
  rw [h0, h1]

/-- Both readers of capabilities read six bytes, the last two of them for the rate. -/
theorem endsWhen_reads {β : Type} {Q : β → Prop}
    {g : UInt8 × UInt8 × UInt8 → UInt8 → UInt8 → UInt8 × UInt8 → β}
    (hg : ∀ cur b0 ampdu, Q (g cur b0 ampdu (data.getD 4 0, data.getD 5 0))) :
    EndsWhen (5 < data.length) Q (do
      let cur ← currentCaps ap data
      let b0 ← readByte data 0
      let ampdu ← maxRxampduFactor data
      let mcs ← rxMcs data
      .ok (g cur b0 ampdu mcs)) := by
  refine EndsWhen.iff ?_ (C := Fine (currentCaps ap data) ∧ 0 < data.length ∧
    (2 < data.length ∧ 3 < data.length) ∧ 4 < data.length ∧ 5 < data.length) ?_
  · refine (EndsWhen.self _).bind fun cur _ => ?_
    refine (endsWhen_readByte data 0).bind fun b0 _ => ?_
    refine (endsWhen_maxRxampdu data).bind fun ampdu _ => ?_
    refine (endsWhen_rxMcs data).bind_ok fun mcs hmcs => .ok ?_
    rw [hmcs]
    exact hg cur b0 ampdu
  · refine ⟨fun h => h.2.2.2.2, fun h => ⟨currentCaps_fine (by omega), ?_⟩⟩
    omega

/-- `VHT_caps_handler` takes the rate from the map without the streams that are masked. -/
theorem endsWhen_capsHandler (hopt : v.vhtOption = true) :
    EndsWhen (5 < data.length)
      (fun v' => v'.vhtHighestRate =
          rtwGetVhtHighestRate (maskStreams hw (data.getD 4 0), data.getD 5 0) ∧
        v'.vhtBwmode = v.vhtBwmode)
      (vhtCapsHandler hw v data) := by
  rw [vhtCapsHandler, if_neg (by rw [hopt]; decide)]
  exact endsWhen_reads fun cur b0 ampdu => ⟨rfl, rfl⟩

/-- `VHT_operation_handler` reads one byte. -/
theorem endsWhen_operationHandler (hopt : v.vhtOption = true) {htBwmode : UInt8} :
    EndsWhen (0 < data.length)
      (fun v' => v'.vhtHighestRate = v.vhtHighestRate ∧
        (v'.vhtBwmode = channelWidth80 ∨ v'.vhtBwmode = htBwmode))
      (vhtOperationHandler htBwmode v data) := by
  rw [vhtOperationHandler, if_neg (by rw [hopt]; decide)]
  refine (endsWhen_readByte data 0).bind_ok fun w _ => .ok ⟨rfl, ?_⟩
  dsimp only
  by_cases hw : 1 ≤ w ∧ channelWidth80 ≤ 0x21 &&& 0xf0
  · rw [if_pos hw]
    exact .inl rfl
  · rw [if_neg hw]
    exact .inr rfl

/-- A station's rate is read from the bytes that it has in any case. -/
theorem endsWhen_update (hopt : sta.vhtOption = true) (htSgi : Bool) :
    EndsWhen True (fun v' => v'.vhtHighestRate =
        rtwGetVhtHighestRate (sta.vhtCap.bytes.getD 4 0, sta.vhtCap.bytes.getD 5 0))
      (updateStaVhtInfoApmode ap sta htSgi) := by
  have hlen : 5 < sta.vhtCap.bytes.length := by
    rw [sta.vhtCap.length_eq]
    decide
  rw [updateStaVhtInfoApmode, if_neg (by rw [hopt]; decide)]
  exact (endsWhen_reads fun cur b0 ampdu => rfl).iff (iff_of_true hlen trivial)

end handlers

/-! ## A join -/

section join

variable {hw : Hardware} {f pre d t : List UInt8} {es : List Elem} {id len : UInt8} {v : VhtPriv}
  {n : ℕ}

theorem announced_none {index : UInt8} {say : List UInt8 → Option UInt8}
    (h : hit index es t = none) : announced index say es t = none := by
  rw [announced, h]
  rfl

theorem announced_some {index : UInt8} {say : List UInt8 → Option UInt8}
    (h : hit index es t = some (n, d)) :
    announced index say es t = if n = 0 then none else say d := by
  rw [announced, h]
  rfl

/-- The search for an element, what is read in it, and what is left of it without data. -/
theorem endsWhen_element {β : Type} {Q : β → Prop} {P : ℕ → List UInt8 → Prop} {index : UInt8}
    {y : β} {g : ℕ → ℕ → Except Fault β} (hf : f = encodeAll es ++ t) (ht : Stump t)
    (hnone : hit index es t = none → Q y) (hempty : ∀ d, hit index es t = some (0, d) → Q y)
    (hsome : ∀ pre len d, f = pre ++ index :: len :: d → hit index es t = some (len.toNat, d) →
      len.toNat ≠ 0 → EndsWhen (P len.toNat d) Q (g pre.length len.toNat)) :
    EndsWhen (LookFits index es t ∧ ∀ n d, hit index es t = some (n, d) → n ≠ 0 → P n d) Q (do
      let found ← getIe f index f.length 0
      match found with
      | none => .ok y
      | some (p, n) => if n = 0 then .ok y else g p n) := by
  refine getIe_lookup hf ht (fun h => .ok (hnone h)) fun pre len d hfd hhit => ?_
  dsimp only
  by_cases hn : len.toNat = 0
  · rw [if_pos hn]
    rw [hn] at hhit
    exact .ok_of (fun h => absurd hn h) (hempty d hhit)
  · rw [if_neg hn]
    exact (hsome pre len d hfd hhit hn).iff ⟨fun h _ => h, fun h => h hn⟩

theorem endsWhen_readData (hf : f = pre ++ id :: len :: d) (n k : ℕ) :
    EndsWhen (k < n ∧ k < d.length) (· = d.getD k 0) (readData f pre.length n k) := by
  rw [readData]
  by_cases hk : k < n
  · rw [if_pos hk]
    exact (endsWhen_dataByte hf k).iff (and_iff_right hk).symm
  · rw [if_neg hk]
    exact .error fun h => hk h.1

theorem endsWhen_htOperation (hf : f = encodeAll es ++ t) (ht : Stump t) (bw : UInt8) :
    EndsWhen (HtFits es t) (· = (htAnnounced es t).getD bw) (htOperation f bw) := by
  refine endsWhen_element (P := fun n d => 1 < n ∧ 1 < d.length) hf ht (fun h => ?_)
    (fun d h => ?_) fun pre len d hfd h hn => ?_
  · rw [htAnnounced, announced_none h]
    rfl
  · rw [htAnnounced, announced_some h]
    rfl
  · refine (endsWhen_readData hfd _ 1).bind_ok fun infos hinfos => .ok ?_
    rw [htAnnounced, announced_some h, if_neg hn, hinfos]
    rfl

theorem endsWhen_vhtOperation (hf : f = encodeAll es ++ t) (ht : Stump t) (bw : UInt8) :
    EndsWhen (VhtFits es t) (fun r => r.1 = (vhtAnnounced es t).getD bw)
      (vhtOperation f (supportedWidth es t) bw) := by
  refine endsWhen_element (P := fun n d => n ≤ d.length) hf ht (fun h => ?_)
    (fun d h => ?_) fun pre len d hfd h hn => ?_
  · rw [vhtAnnounced, announced_none h]
    rfl
  · rw [vhtAnnounced, announced_some h]
    rfl
  · refine EndsWhen.iff ?_ (C := (0 < len.toNat ∧ 0 < d.length) ∧ len.toNat ≤ d.length) ?_
    · refine (endsWhen_readData hfd _ 0).bind fun w hw => ?_
      refine EndsWhen.bind_ok ((endsWhen_data hfd _).bind_ok fun bytes _ => .ok trivial)
        (Q := fun _ => True) fun ie _ => .ok ?_
      dsimp only
      rw [vhtAnnounced, announced_some h, if_neg hn, hw]
      by_cases hwide : 1 ≤ d.getD 0 0
      · rw [if_pos hwide, if_pos hwide]
        rfl
      · rw [if_neg hwide, if_neg hwide]
        rfl
    · omega

/-- The capability element of the default settings is built. -/
theorem endsWhen_capIe (hbw : rateColumn v.vhtHighestRate < 20) :
    EndsWhen True (fun r => r.1.vhtHighestRate = v.vhtHighestRate ∧ r.1.vhtBwmode = v.vhtBwmode)
      (rtwBuildVhtCapIe hw v) := by
  have hread : EndsWhen True (fun _ => True) (readRate 2 v.sgi v.vhtHighestRate) :=
    (endsWhen_readRate (by decide)).iff (iff_of_true hbw trivial)
  refine hread.bind_ok fun rate _ => ?_
  have hset : EndsWhen True (fun _ => True)
      (rtwSetIe 191 12 ((Area.zero 32).put 0 (vhtCapBytes hw v ((rate + 1) >>> 1))).bytes 0) := by
    refine ((endsWhen_readBytes _ 0 12).bind_ok fun _ _ => .ok trivial).iff
      (iff_of_true (.inr ?_) trivial)
    rw [((Area.zero 32).put 0 _).length_eq]
    decide
  exact hset.bind_ok fun ie _ => .ok ⟨rfl, rfl⟩

theorem vhtCapBytes_length (hw : Hardware) (v : VhtPriv) (r : ℕ) :
    (vhtCapBytes hw v r).length = 12 := rfl

/-- The first twelve bytes of the capabilities are appended. -/
theorem capIe_bytes {rate : ℕ} (hrate : readRate 2 v.sgi v.vhtHighestRate = .ok rate) :
    (rtwBuildVhtCapIe hw v).map Prod.snd =
      .ok (191 :: 12 :: vhtCapBytes hw v ((rate + 1) >>> 1)) := by
  have hcap := vhtCapBytes_length hw v ((rate + 1) >>> 1)
  have htake := (Area.zero 32).take_put_zero (Nat.le_trans (Nat.le_of_eq hcap) (by decide))
  have hset : rtwSetIe 191 12 ((Area.zero 32).put 0 (vhtCapBytes hw v ((rate + 1) >>> 1))).bytes 0 =
      .ok (191 :: 12 :: vhtCapBytes hw v ((rate + 1) >>> 1)) := by
    rw [rtwSetIe, readBytes_of_inside (.inr (by rw [Area.length_eq]; decide)), bind_ok, bytesAt,
      List.drop_zero, ← hcap, htake]
    rfl
  have hbuild : rtwBuildVhtCapIe hw v = (readRate 2 v.sgi v.vhtHighestRate >>= fun rate => _) := rfl
  rw [hbuild, hrate, bind_ok]
  dsimp only
  rw [hset]
  rfl

/-- The highest rate of the hardware has its place in the table. -/
theorem default_rate (hw : Hardware) (v : VhtPriv) :
    readRate 2 (rtwVhtUseDefaultSetting hw v).sgi (rtwVhtUseDefaultSetting hw v).vhtHighestRate =
      .ok (if hw.rfType = .rf1T1R then 867 else 1734) := by
  rcases hw.known with h | h <;> simp only [rtwVhtUseDefaultSetting, h] <;> decide

/-- The element is the one that the model of all the elements of a join appends. -/
theorem capIe_eq {s : JoinIes.Settings} (hrf : s.rfType = hw.rfType) (hcut : s.cCut = hw.cCut)
    (hbfer : s.beamformer = testFlag v.beamformCap beamformerEnable)
    (hbfee : s.beamformee = testFlag v.beamformCap beamformeeEnable) :
    (rtwBuildVhtCapIe hw (rtwVhtUseDefaultSetting hw v)).map Prod.snd =
      .ok (191 :: 12 :: JoinIes.vhtCap s (JoinIes.rtwVhtUseDefaultSetting s)) := by
  have hldpc : testFlag (rtwVhtUseDefaultSetting hw v).ldpcCap enableRx = s.cCut := by
    show testFlag (if hw.cCut then enableRx ||| enableTx else 0) enableRx = s.cCut
    rw [hcut]
    cases hw.cCut <;> decide
  have htx : testFlag (rtwVhtUseDefaultSetting hw v).stbcCap enableTx =
      (JoinIes.rtwVhtUseDefaultSetting s).stbcTx := by
    show testFlag (if hw.rfType = .rf2T2R then enableTx ||| enableRx else enableRx) enableTx =
      decide (s.rfType = .rf2T2R)
    rw [hrf]
    rcases hw.known with h | h <;> rw [h] <;> decide
  have hrx : testFlag (rtwVhtUseDefaultSetting hw v).stbcCap enableRx = true := by
    show testFlag (if hw.rfType = .rf2T2R then enableTx ||| enableRx else enableRx) enableRx = true
    rcases hw.known with h | h <;> rw [h] <;> decide
  have hmap : [(rtwVhtUseDefaultSetting hw v).vhtMcsMap.1,
      (rtwVhtUseDefaultSetting hw v).vhtMcsMap.2] =
      (JoinIes.rtwVhtUseDefaultSetting s).vhtMcsMap := by
    rw [JoinIes.rtwVhtUseDefaultSetting, rtwVhtUseDefaultSetting, hrf]
  have hrate : JoinIes.vhtMcsDataRate.getD
      ((JoinIes.rtwVhtUseDefaultSetting s).vhtHighestRate &&& 0x3f) 0 =
      if hw.rfType = .rf1T1R then 867 else 1734 := by
    show JoinIes.vhtMcsDataRate.getD
      (JoinIes.rtwGetVhtHighestRate [if s.rfType = .rf1T1R then 0xfe else 0xfa, 0xff] &&& 0x3f) 0 =
      _
    rw [hrf]
    rcases hw.known with h | h <;> rw [h] <;> decide
  rw [capIe_bytes (default_rate hw v), JoinIes.vhtCap, vhtCapBytes, hldpc, htx, hrx, hmap, hrate,
    hrf, hbfer, hbfee]
  rfl
theorem endsWhen_notifyIe (hw : Hardware) (v : VhtPriv) :
    EndsWhen True (fun _ => True) (rtwBuildVhtOpModeNotifyIe hw v) :=
  ((endsWhen_readBytes _ 0 1).bind_ok fun _ _ => .ok trivial).iff
    (iff_of_true (.inr (Nat.le_refl 1)) trivial)

/-- Twelve bytes are never read from the five. -/
theorem endsWhen_operationIe (v : VhtPriv) (centerFreq : UInt8) :
    EndsWhen False (fun _ => True) (rtwBuildVhtOperationIe v centerFreq) := by
  refine ((endsWhen_readBytes _ 0 12).bind_ok fun _ _ => .ok trivial).iff (iff_of_false ?_ id)
  rintro (h | h)
  · exact absurd h (by decide)
  · exact absurd (show 12 ≤ 5 from h) (by decide)

/-- There is a VHT capability element with data. -/
def CapFound (es : List Elem) (t : List UInt8) : Prop :=
  ∃ n d, hit 191 es t = some (n, d) ∧ n ≠ 0

/-- What `operation_bw` is in the end. -/
def applied (es : List Elem) (t : List UInt8) (unset : UInt8) : UInt8 :=
  (vhtAnnounced es t).getD ((htAnnounced es t).getD unset)

/-- What a join makes of our settings. -/
structure Joined (es : List Elem) (t : List UInt8) (unset : UInt8) (v : VhtPriv)
    (r : VhtPriv × Output) : Prop where
  rate : r.1.vhtHighestRate = v.vhtHighestRate
  width : r.1.vhtBwmode ≤ v.vhtBwmode
  rates : r.2.rates = [v.vhtHighestRate]

theorem min_le_width (a b : UInt8) : min a b ≤ a := by
  by_cases h : a ≤ b
  · rw [show min a b = a from if_pos h]
    exact UInt8.le_refl a
  · rw [show min a b = b from if_neg h]
    exact UInt8.le_of_lt (UInt8.not_le.mp h)

theorem endsWhen_found {unset : UInt8} (hf : f = encodeAll es ++ t) (ht : Stump t)
    (hrate : rateColumn v.vhtHighestRate < 20) (hfd : f = pre ++ 191 :: len :: d)
    (hhit : hit 191 es t = some (len.toNat, d)) (hn : len.toNat ≠ 0) :
    EndsWhen (0 < d.length ∧ HtFits es t ∧ VhtFits es t)
      (fun r => Joined es t unset v r ∧ r.2.limit = some (applied es t unset))
      (restructureFound hw unset f v pre.length len.toNat) := by
  have hwidth : leBits (d.getD 0 0) 2 2 = supportedWidth es t := by
    rw [supportedWidth, hhit]
    rfl
  refine EndsWhen.iff ?_ (C := (0 < len.toNat ∧ 0 < d.length) ∧ HtFits es t ∧ VhtFits es t)
    (and_congr_left fun _ => and_iff_right (Nat.pos_of_ne_zero hn))
  refine (endsWhen_readData hfd _ 0).bind fun b hb => ?_
  refine (endsWhen_capIe hrate).ok_bind fun cap hcap => ?_
  refine (endsWhen_htOperation hf ht unset).bind fun bw hbw => ?_
  rw [hb, hwidth]
  refine (endsWhen_vhtOperation hf ht bw).bind_ok fun op hop => ?_
  refine (endsWhen_notifyIe hw _).bind_ok fun notify _ => .ok ⟨⟨hcap.1, ?_, ?_⟩, ?_⟩
  · rw [← hcap.2]
    exact min_le_width _ _
  · rw [← hcap.1]
  · rw [applied, ← hbw, ← hop]

/-- When a join keeps to what is there, and what it limits itself to. -/
theorem restructure_endsWhen (unset : UInt8) (hf : f = encodeAll es ++ t) (ht : Stump t) :
    EndsWhen (LookFits 191 es t ∧ ∀ n d, hit 191 es t = some (n, d) → n ≠ 0 →
        0 < d.length ∧ HtFits es t ∧ VhtFits es t)
      (fun r => Joined es t unset (rtwVhtUseDefaultSetting hw v) r ∧
        (CapFound es t ∧ r.2.limit = some (applied es t unset) ∨
          ¬ CapFound es t ∧ r.2.limit = none))
      (rtwRestructureVhtIe hw unset f v) := by
  refine endsWhen_element hf ht (P := fun _ d => 0 < d.length ∧ HtFits es t ∧ VhtFits es t)
    (fun h => ⟨⟨rfl, UInt8.le_refl _, rfl⟩, .inr ⟨?_, rfl⟩⟩)
    (fun d h => ⟨⟨rfl, UInt8.le_refl _, rfl⟩, .inr ⟨?_, rfl⟩⟩) fun pre len d hfd h hn => ?_
  · rintro ⟨n, d, hnd, -⟩
    rw [h] at hnd
    cases hnd
  · rintro ⟨n, d', hnd, hn⟩
    rw [h] at hnd
    exact hn (Prod.mk.inj (Option.some.inj hnd)).1.symm
  · have hrate : rateColumn (rtwVhtUseDefaultSetting hw v).vhtHighestRate < 20 := by
      rcases hw.known with hrf | hrf <;> simp only [rtwVhtUseDefaultSetting, hrf] <;> decide
    refine (endsWhen_found hf ht hrate hfd h hn).weaken fun r hr => ⟨hr.1, .inl ⟨?_, hr.2⟩⟩
    exact ⟨_, d, h, hn⟩

/-- The width that is applied is announced when something is said about it. -/
theorem announces_applied {unset : UInt8} :
    (htAnnounced es t = some (applied es t unset) ∨ vhtAnnounced es t = some (applied es t unset)) ↔
      Says es t := by
  rw [Says, applied]
  cases vhtAnnounced es t with
  | some w => exact iff_of_true (.inr rfl) (.inr (Option.some_ne_none w))
  | none =>
    cases htAnnounced es t with
    | some w => exact iff_of_true (.inl rfl) (.inl (Option.some_ne_none w))
    | none =>
      refine iff_of_false ?_ ?_
      · rintro (h | h) <;> cases h
      · rintro (h | h) <;> exact h rfl

end join

/-! ## One step -/

section step

variable {hw : Hardware} {s : State} {op : Op} {C R : Prop}

/-- The condition decides whether the step is right, and a right step keeps the invariant. -/
structure Settles (hw : Hardware) (s : State) (op : Op) : Prop where
  right_iff : Right hw s op ↔ Cond s op
  inv : Right hw s op → Inv (next hw s op)

theorem Settles.of_endsWhen
    (h : EndsWhen C (fun r => (Keeps op r.2 ↔ R) ∧ (Keeps op r.2 → Inv r.1)) (exec hw s op))
    (hcond : C ∧ R ↔ Cond s op) : Settles hw s op := by
  constructor
  · rw [← hcond]
    constructor
    · rintro ⟨r, hr, hk⟩
      exact ⟨h.only ⟨r, hr⟩, (h.of_ok hr).1.mp hk⟩
    · rintro ⟨hc, hR⟩
      obtain ⟨r, hr, hq⟩ := h.ends hc
      exact ⟨r, hr, hq.1.mpr hR⟩
  · rintro ⟨r, hr, hk⟩
    rw [next, hr]
    exact (h.of_ok hr).2 hk

/-- A step without a fault that derives nothing. -/
theorem Settles.of_quiet {s' : State} (hexec : exec hw s op = .ok (s', {})) (hs : Inv s')
    (hcond : Cond s op) : Settles hw s op := by
  have hkeeps : Keeps op {} := ⟨fun x hx => (by cases hx), fun bw hbw => (by cases hbw)⟩
  refine .of_endsWhen (C := True) (R := True) ?_ (iff_of_true ⟨trivial, trivial⟩ hcond)
  rw [hexec]
  exact .ok ⟨iff_of_true hkeeps trivial, fun _ => hs⟩

/-- One rate and no limit. -/
theorem keeps_rate {x : UInt8} : Keeps op { rates := [x] } ↔ RateOk x := by
  refine ⟨fun h => h.rates x List.mem_cons_self, fun h => ⟨fun y hy => ?_, fun bw hbw => ?_⟩⟩
  · rw [List.mem_singleton.mp hy]
    exact h
  · cases hbw

theorem settles_vhtCaps (hs : Inv s) (data : List UInt8) : Settles hw s (.vhtCaps data) := by
  by_cases hopt : s.vht.vhtOption = true
  · refine .of_endsWhen (C := 5 < data.length) (R := data.getD 5 0 = 0xff) ?_ ?_
    · refine (endsWhen_capsHandler hopt).bind_ok fun v hv => .ok ⟨?_, fun hk => ?_⟩
      · rw [keeps_rate, hv.1, rateOk_highestRate, mapFits_mask]
      · exact ⟨keeps_rate.mp hk, by rw [hv.2]; exact hs.width, hs.htWidth⟩
    · exact ⟨fun h _ => h, fun h => h hopt⟩
  · have hexec : exec hw s (.vhtCaps data) =
        .ok (s, { rates := [s.vht.vhtHighestRate] }) := by
      show (vhtCapsHandler hw s.vht data >>= fun v => _) = _
      rw [vhtCapsHandler, if_pos (Bool.eq_false_of_not_eq_true hopt)]
      rfl
    refine .of_endsWhen (C := True) (R := True) ?_
      (iff_of_true ⟨trivial, trivial⟩ fun h => absurd h hopt)
    rw [hexec]
    exact .ok ⟨iff_of_true (keeps_rate.mpr hs.rate) trivial, fun _ => hs⟩

theorem settles_vhtOperation (hs : Inv s) (data : List UInt8) :
    Settles hw s (.vhtOperation data) := by
  by_cases hopt : s.vht.vhtOption = true
  · refine .of_endsWhen (C := 0 < data.length) (R := True) ?_ ?_
    · refine (endsWhen_operationHandler hopt).bind_ok fun v hv => .ok ⟨?_, fun _ => ?_⟩
      · exact iff_of_true ⟨fun x hx => (by cases hx), fun bw hbw => (by cases hbw)⟩ trivial
      · refine ⟨by rw [hv.1]; exact hs.rate, ?_, hs.htWidth⟩
        rcases hv.2 with hw | hw
        · rw [hw]
          exact UInt8.le_refl _
        · rw [hw, hs.htWidth]
          decide
    · exact ⟨fun h _ => h.1, fun h => ⟨h hopt, trivial⟩⟩
  · have hexec : exec hw s (.vhtOperation data) = .ok (s, {}) := by
      show (vhtOperationHandler s.htBwmode s.vht data >>= fun v => _) = _
      rw [vhtOperationHandler, if_pos (Bool.eq_false_of_not_eq_true hopt)]
      rfl
    exact .of_quiet hexec hs fun h => absurd h hopt

theorem settles_buildOperation (centerFreq : UInt8) :
    Settles hw s (.buildOperation centerFreq) := by
  refine .of_endsWhen (C := False) (R := True) ?_ (iff_of_false (fun h => h.1) id)
  have hbuild : EndsWhen False (fun _ => False) (rtwBuildVhtOperationIe s.vht centerFreq) :=
    ⟨False.elim, (endsWhen_operationIe s.vht centerFreq).only⟩
  exact hbuild.bind_ok fun _ h => h.elim

/-- The two queries. -/
theorem settles_query (hs : Inv s) {bw : UInt8} {sgi : Bool} {r : UInt8}
    (hexec : exec hw s op = (rtwVhtDataRate bw sgi r >>= fun _ => .ok (s, {})))
    (hbw : bw ≤ channelWidth80) (hr : r = 0 ∨ mgnVht1ssMcs0 ≤ r) (hcond : r ≠ 0 ↔ Cond s op) :
    Settles hw s op := by
  refine .of_endsWhen (C := r ≠ 0) (R := True) ?_ (by rw [and_iff_left trivial, hcond])
  rw [hexec]
  refine (endsWhen_dataRate hbw hr).bind_ok fun _ _ => .ok ⟨?_, fun _ => hs⟩
  exact iff_of_true ⟨fun x hx => (by cases hx), fun bw hbw => (by cases hbw)⟩ trivial

theorem keeps_joined {f t : List UInt8} {es : List Elem} {o : Bool} {unset : UInt8}
    {v : VhtPriv} {r : VhtPriv × Output} (hparse : parse f = (es, t))
    (hr : Joined es t unset (rtwVhtUseDefaultSetting hw v) r ∧
      (CapFound es t ∧ r.2.limit = some (applied es t unset) ∨
        ¬ CapFound es t ∧ r.2.limit = none)) :
    Keeps (.join o unset f) r.2 ↔ (CapFound es t → Says es t) := by
  have hrates : ∀ x ∈ r.2.rates, RateOk x := fun x hx => by
    rw [hr.1.rates, List.mem_singleton] at hx
    rw [hx]
    exact (default_rateOk hw v).1
  have hsays : Announces f (applied es t unset) ↔ Says es t := by
    rw [Announces, hparse]
    exact announces_applied
  rcases hr.2 with ⟨hcap, hlimit⟩ | ⟨hcap, hlimit⟩
  · rw [forall_prop_of_true hcap, ← hsays]
    refine ⟨fun h => h.limit _ hlimit, fun h => ⟨hrates, fun bw hbw => ?_⟩⟩
    rw [hlimit] at hbw
    rw [← Option.some.inj hbw]
    exact h
  · refine iff_of_true ⟨hrates, fun bw hbw => ?_⟩ fun h => absurd h hcap
    rw [hlimit] at hbw
    cases hbw

/-- The condition of a join: what is read is there, and the width is announced. -/
theorem joinFits_iff {t : List UInt8} {es : List Elem} :
    ((LookFits 191 es t ∧ ∀ n d, hit 191 es t = some (n, d) → n ≠ 0 →
        0 < d.length ∧ HtFits es t ∧ VhtFits es t) ∧ (CapFound es t → Says es t)) ↔
      JoinFits es t := by
  constructor
  · rintro ⟨⟨hlook, hreads⟩, hsays⟩
    refine ⟨hlook, fun n d hhit hn => ?_⟩
    obtain ⟨hd, hht, hvht⟩ := hreads n d hhit hn
    exact ⟨hd, hht, hvht, hsays ⟨n, d, hhit, hn⟩⟩
  · rintro ⟨hlook, hall⟩
    refine ⟨⟨hlook, fun n d hhit hn => ?_⟩, ?_⟩
    · obtain ⟨hd, hht, hvht, -⟩ := hall n d hhit hn
      exact ⟨hd, hht, hvht⟩
    · rintro ⟨n, d, hhit, hn⟩
      exact (hall n d hhit hn).2.2.2

theorem settles_join (hs : Inv s) (htOption : Bool) (unset : UInt8) (f : List UInt8) :
    Settles hw s (.join htOption unset f) := by
  by_cases hht : htOption = true
  · obtain ⟨es, t, hf, ht⟩ := exists_parse f
    have hparse : parse f = (es, t) := by rw [hf, parse_append es ht]
    refine .of_endsWhen (C := LookFits 191 es t ∧ ∀ n d, hit 191 es t = some (n, d) → n ≠ 0 →
      0 < d.length ∧ HtFits es t ∧ VhtFits es t) (R := CapFound es t → Says es t) ?_ ?_
    · rw [exec, if_pos hht]
      refine (restructure_endsWhen unset hf ht).bind_ok fun r hr => .ok ⟨?_, fun _ => ?_⟩
      · exact keeps_joined hparse hr
      · have hdefault : RateOk r.1.vhtHighestRate := by
          rw [hr.1.rate]
          exact (default_rateOk hw _).1
        exact ⟨hdefault, hr.1.width, hs.htWidth⟩
    · rw [Cond, hparse, forall_prop_of_true hht]
      exact joinFits_iff
  · have hexec : exec hw s (.join htOption unset f) =
        .ok ({ s with vht := { s.vht with vhtOption := false } }, {}) := by
      rw [exec, if_neg hht]
    exact .of_quiet hexec ⟨hs.rate, hs.width, hs.htWidth⟩ fun h => absurd h hht

/-- What a request leaves in a station. -/
theorem onAssocReqVht_rate (st : Station) (cap notify : Option (List UInt8)) :
    (onAssocReqVht st cap notify).vht.vhtHighestRate = 0 := by
  cases cap with
  | none => rfl
  | some c =>
    by_cases hc : c.length = 12
    · rw [onAssocReqVht, if_pos hc]
    · rw [onAssocReqVht, if_neg hc]

theorem assocFits_iff (st : Station) (cap notify : Option (List UInt8)) :
    AssocFits st cap ↔ ((onAssocReqVht st cap notify).vhtFlag = true →
      MapFits ((onAssocReqVht st cap notify).vht.vhtCap.bytes.getD 4 0)
        ((onAssocReqVht st cap notify).vht.vhtCap.bytes.getD 5 0)) := by
  -- without an element there is a map of zeros behind a flag that has been set before
  have hzero : st.vhtFlag = false ↔ (st.vhtFlag = true → MapFits 0 0) := by
    have hno : ¬ MapFits 0 0 := by decide
    cases st.vhtFlag with
    | false => exact iff_of_true rfl fun h => by cases h
    | true => exact iff_of_false (fun h => by cases h) fun h => hno (h rfl)
  cases cap with
  | none => exact hzero
  | some c =>
    by_cases hc : c.length = 12
    · have hbyte : ∀ k < 12, ((Area.zero 32).put 0 c).bytes.getD k 0 = c.getD k 0 := fun k hk => by
        rw [Area.zero_put (by omega), List.getD_append _ _ _ _ (by omega)]
      rw [AssocFits, if_pos hc, onAssocReqVht, if_pos hc]
      rw [hbyte 4 (by decide), hbyte 5 (by decide)]
      exact ⟨fun h _ => h, fun h => h rfl⟩
    · rw [AssocFits, if_neg hc, onAssocReqVht, if_neg hc]
      exact hzero

/-- The rate of a station that has been taken in. -/
theorem endsWhen_staInfoUpdate {ap : VhtPriv} {st : Station} (hrate : st.vht.vhtHighestRate = 0)
    (htSgi : Bool) :
    EndsWhen True (fun st' => RateOk st'.vht.vhtHighestRate ↔
        (ap.vhtOption = true → st.vhtFlag = true →
          MapFits (st.vht.vhtCap.bytes.getD 4 0) (st.vht.vhtCap.bytes.getD 5 0)))
      (staInfoUpdate ap st htSgi) := by
  by_cases hopt : (st.vhtFlag && ap.vhtOption) = true
  · have hboth := Bool.and_eq_true_iff.mp hopt
    refine (endsWhen_update hopt htSgi).bind_ok fun vht hvht => .ok ?_
    dsimp only
    rw [hvht, rateOk_highestRate]
    exact ⟨fun h _ _ => h, fun h => h hboth.2 hboth.1⟩
  · have hupdate : updateStaVhtInfoApmode ap { st.vht with vhtOption := st.vhtFlag && ap.vhtOption }
        htSgi = .ok { st.vht with vhtOption := st.vhtFlag && ap.vhtOption } :=
      if_pos (Bool.eq_false_of_not_eq_true hopt)
    rw [staInfoUpdate, hupdate, bind_ok]
    refine .ok (iff_of_true (.inl hrate) fun hap hflag => absurd ?_ hopt)
    rw [hflag, hap]
    rfl

theorem settles_assoc (hs : Inv s) (x : ℕ) (cap notify : Option (List UInt8))
    (htSgi accepted : Bool) : Settles hw s (.assoc x cap notify htSgi accepted) := by
  have hset : ∀ st, Inv (s.setStation x st) := fun st => ⟨hs.rate, hs.width, hs.htWidth⟩
  by_cases hno : accepted = false ∨ s.vht.vhtOption = false ∧
      (onAssocReqVht (s.station x) cap notify).vhtFlag = true
  · have hexec : exec hw s (.assoc x cap notify htSgi accepted) =
        .ok (s.setStation x (onAssocReqVht (s.station x) cap notify), {}) := by
      rw [exec, execAssoc, if_pos hno]
    refine .of_quiet hexec (hset _) fun hacc hopt => ?_
    rcases hno with h | ⟨h, -⟩
    · rw [hacc] at h
      cases h
    · rw [hopt] at h
      cases h
  · obtain ⟨hacc, -⟩ := not_or.mp hno
    refine .of_endsWhen (C := True) (R := s.vht.vhtOption = true → AssocFits (s.station x) cap)
      ?_ ?_
    · rw [exec, execAssoc, if_neg hno]
      refine (endsWhen_staInfoUpdate (onAssocReqVht_rate _ cap notify) htSgi).bind_ok
        fun st hst => .ok ⟨?_, fun _ => hset st⟩
      rw [keeps_rate, hst, assocFits_iff (s.station x) cap notify]
    · rw [and_iff_right trivial, Cond]
      exact ⟨fun h _ => h, fun h => h (Bool.eq_true_of_not_eq_false hacc)⟩

end step

/-! ## Runs -/

section runs

variable {hw : Hardware} {s : State}

/-- One step. -/
theorem settles (hs : Inv s) (op : Op) : Settles hw s op := by
  cases op with
  | join htOption unset f => exact settles_join hs htOption unset f
  | vhtCaps data => exact settles_vhtCaps hs data
  | vhtOperation data => exact settles_vhtOperation hs data
  | assoc x cap notify htSgi accepted => exact settles_assoc hs x cap notify htSgi accepted
  | free x => exact .of_quiet rfl ⟨hs.rate, hs.width, hs.htWidth⟩ trivial
  | buildOperation centerFreq => exact settles_buildOperation centerFreq
  | scanRate map sgi =>
    exact settles_query hs rfl (UInt8.le_refl _) (highestRate_ge map)
      (not_congr highestRate_eq_zero)
  | maxRate => exact settles_query hs rfl hs.width (hs.rate.imp_right And.left) Iff.rfl

theorem inv_start : Inv {} := ⟨.inl rfl, by decide, rfl⟩

/-- Every step of a run is right exactly when each meets the condition in the state in which it is
    taken. -/
theorem negotiation_right_iff (hw : Hardware) (ops : List Op) :
    Guarded (next hw) (Right hw) {} ops ↔ Guarded (next hw) Cond {} ops :=
  guarded_congr (fun _ op hs => (settles hs op).right_iff)
    (fun _ op hs hright => (settles hs op).inv hright) inv_start

/-- A network with HT and VHT capabilities that says nothing of its width. -/
def loneCapability : List UInt8 :=
  45 :: 26 :: List.replicate 26 0 ++ [191, 12, 0, 0, 0, 0, 0xfe, 0xff, 0, 0, 0xfe, 0xff, 0, 0]

/-- The width is compared with what is in the variable. -/
theorem loneCapability_wrong : ¬ ∀ hw ops, Guarded (next hw) (Right hw) {} ops := by
  intro h
  obtain ⟨⟨r, hr, hk⟩, -⟩ := h ⟨.rf1T1R, false, .inl rfl⟩ [.join true 1 loneCapability]
  have hlimit : (exec ⟨.rf1T1R, false, .inl rfl⟩ {} (.join true 1 loneCapability)).map
      (·.2.limit) = .ok (some 1) := by decide +kernel
  have hbytes : loneCapability = encodeAll [⟨45, List.replicate 26 0, by decide⟩,
      ⟨191, [0, 0, 0, 0, 0xfe, 0xff, 0, 0, 0xfe, 0xff, 0, 0], by decide⟩] ++ [] := rfl
  rw [hr] at hlimit
  have hsays : Announces loneCapability 1 := hk.limit 1 (Except.ok.inj hlimit)
  rw [Announces, hbytes, parse_append (t := []) _ trivial] at hsays
  revert hsays
  decide +kernel

end runs

end Rtl8821au.Mlme.Vht
