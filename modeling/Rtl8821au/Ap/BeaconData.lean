import Rtl8821au.Mlme.BssInfo
import Rtl8821au.Mlme.TranslateScan
import Rtl8821au.Mlme.WpaIn
import Rtl8821au.Recv.Frame

/-!
# The beacon of hostapd

`rtw_check_beacon_data` (`rtw_ap.c`, lines 1024–1317) up to the call of `start_bss_network`, with
`rtw_get_ie` (`rtw_ieee80211.c`, lines 227–258). The body is any string, and `len` is its length.
A read in `IEs` is checked against the bytes of the body, a store against the field it goes to.

* `vendorLoop_seeks`: the two searches for a vendor specific element, by what the body consists of.
* `Holds.lookup`, `Holds.vendor`: a search, and what is done with its result.

**What goes wrong.** A search that goes on behind an element that is not the one keeps the limit
for the whole body, less that one element, so it goes over the end by as much as lies in front of
it; and it ends at an empty element.

Of `ERP_IE_handler`, `HT_caps_handler` and `HT_info_handler` the model has what they read.
-/

namespace Rtl8821au.Ap.BeaconData

open Checked Elements
open Mlme (getIe getIeLoop ElemState)
open Mlme.BssInfo (maxIeSz lengthSsid lengthRatesEx fixedIeLength fixedSz readLe16 hit LookFits
  getIe_lookup)
open Mlme.WpaIe (parseIn)
open Recv (MacAddr)

/-! ## Model -/

/-- `NDIS_802_11_NETWORK_TYPE` and `NDIS_802_11_NETWORK_INFRASTRUCTURE`. -/
inductive NetworkType where
  | fh
  | ds
  | ofdm5
  | ofdm24
  deriving DecidableEq, Repr

inductive NetworkInfrastructure where
  | ibss
  | infrastructure
  | autoUnknown
  | infrastructureMax
  | apMode
  deriving DecidableEq, Repr

/-- What is written or read of `WLAN_BSSID_EX`; `Configuration` and `Ssid` are unfolded. -/
structure WlanBssidEx where
  length : ℕ
  macAddress : MacAddr
  ssidLength : ℕ
  ssid : Area lengthSsid
  privacy : ℕ
  rssi : ℤ
  networkTypeInUse : NetworkType
  configurationLength : ℕ
  beaconPeriod : ℕ
  dsConfig : ℕ
  infrastructureMode : NetworkInfrastructure
  supportedRates : Area lengthRatesEx
  ieLength : ℕ
  ies : Area maxIeSz

/-- What is written or read of `struct security_priv`. -/
structure SecurityPriv where
  dot11AuthAlgrthm : ℕ
  dot8021xalg : ℕ
  wpaPsk : ℕ
  wpaGroupCipher : ℕ
  wpaPairwiseCipher : ℕ
  wpa2GroupCipher : ℕ
  wpa2PairwiseCipher : ℕ

/-- `sizeof(struct rtw_ieee80211_ht_cap)`. -/
def htCapSize : ℕ := 26

/-- What is written or read of the driver: `check_fwstate(pmlmepriv, WIFI_AP_STATE)`,
    `cur_network`, `securitypriv`, `qospriv` and `htpriv`. -/
structure RtlPriv where
  apState : Bool
  network : WlanBssidEx
  networkType : ℕ
  security : SecurityPriv
  qosOption : Bool
  htOption : Bool
  ampduEnable : Bool
  htCap : Area htCapSize

/-- What it does not change: `mac80211.mac_addr`, `registrypriv.wmm_enable`, and whether
    `phy.rf_type` is `RF_1T1R`. -/
structure Env where
  macAddr : MacAddr
  wmmEnable : Bool
  rf1t1r : Bool

/-- The bytes of the body in `IEs`. -/
def WlanBssidEx.body (b : WlanBssidEx) : List UInt8 := b.ies.bytes.take b.ieLength

/-- Those from `_BEACON_IE_OFFSET_` on. -/
def WlanBssidEx.elements (b : WlanBssidEx) : List UInt8 := b.body.drop fixedIeLength

/-- `pbss_network->IELength - _BEACON_IE_OFFSET_`. -/
def WlanBssidEx.limit (b : WlanBssidEx) : ℕ := b.ieLength - fixedIeLength

/-- `rtw_get_ie(ie + _BEACON_IE_OFFSET_, index, &ie_len, ...)`. -/
def WlanBssidEx.getIe (b : WlanBssidEx) (index : UInt8) : Except Fault (Option (ℕ × ℕ)) :=
  Mlme.getIe b.elements index b.limit 0

/-- `ie[_BEACON_IE_OFFSET_ + k] = v`. -/
def WlanBssidEx.store (b : WlanBssidEx) (k : ℕ) (v : UInt8) : Except Fault WlanBssidEx := do
  let ies ← b.ies.copyIn (fixedIeLength + k) [v]
  .ok { b with ies := ies }

/-- A byte that is read and written again. -/
def WlanBssidEx.edit (b : WlanBssidEx) (k : ℕ) (g : UInt8 → UInt8) :
    Except Fault WlanBssidEx := do
  let v ← readByte b.elements k
  b.store k (g v)

/-- The SSID (lines 1091–1096). -/
def adoptSsid (s : RtlPriv) : Except Fault RtlPriv := do
  let found ← s.network.getIe 0
  match found with
  | none => .ok s
  | some (p, len) =>
    if len = 0 then .ok s
    else do
      let bytes ← readBytes s.network.elements (p + 2) len
      let ssid ← (Area.zero lengthSsid).copyIn 0 bytes
      .ok { s with network.ssid := ssid, network.ssidLength := len }

/-- The channel (lines 1099–1105). -/
def adoptChannel (s : RtlPriv) : Except Fault (RtlPriv × UInt8) := do
  let s := { s with network.configurationLength := 0 }
  let found ← s.network.getIe 3
  match found with
  | none => .ok ({ s with network.dsConfig := 0 }, 0)
  | some (p, len) =>
    if len = 0 then .ok ({ s with network.dsConfig := 0 }, 0)
    else do
      let channel ← readByte s.network.elements (p + 2 + 0)
      .ok ({ s with network.dsConfig := channel.toNat }, channel)

/-- An element with rates, copied behind the rates that are there (lines 1110–1121). -/
def addRates (b : WlanBssidEx) (index : UInt8) (r : Area lengthRatesEx × ℕ) :
    Except Fault (Area lengthRatesEx × ℕ) := do
  let found ← b.getIe index
  match found with
  | none => .ok r
  | some (p, len) => do
    let bytes ← readBytes b.elements (p + 2) len
    let rates ← r.1.copyIn r.2 bytes
    .ok (rates, r.2 + len)

/-- `enum NETWORK_TYPE` as far as it occurs. -/
def wirelessInvalid : ℕ := 0
def wireless11b : ℕ := 1
def wireless11g : ℕ := 2
def wireless11bg : ℕ := 3
def wireless11a : ℕ := 4
def wireless11_24n : ℕ := 8
def wireless11g_24n : ℕ := 10
def wireless11bg_24n : ℕ := 11
def wireless11_5n : ℕ := 16
def wireless11a_5n : ℕ := 20
def wireless11_5ac : ℕ := 68

/-- `rtw_check_network_type` (`rtw_ieee80211.c`, lines 118–137), which does not look at the number
    of rates. -/
def rtwCheckNetworkType (rate : List UInt8) (_ratelen channel : ℕ) : Except Fault ℕ :=
  if 14 < channel then do
    let included ← Mlme.TranslateScan.rtwIsCckratesIncluded rate
    .ok (if included then wirelessInvalid else wireless11a)
  else do
    let only ← Mlme.TranslateScan.rtwIsCckratesonlyIncluded rate
    if only then .ok wireless11b
    else do
      let included ← Mlme.TranslateScan.rtwIsCckratesIncluded rate
      .ok (if included then wireless11bg else wireless11g)

/-- `WIFI_CCKRATES` and `WIFI_OFDMRATES`. -/
def wifiCckrates : List UInt8 := [0x82, 0x84, 0x8b, 0x96]
def wifiOfdmrates : List UInt8 := [0x0c, 0x12, 0x18, 0x24, 0x30, 0x48, 0x60, 0x6c]

/-- `rtw_set_supported_rate` (lines 358–387). -/
def rtwSetSupportedRate (mode : ℕ) : Area lengthRatesEx :=
  if mode = wireless11b then (Area.zero lengthRatesEx).put 0 wifiCckrates
  else if mode ∈ [wireless11g, wireless11a, wireless11_5n, wireless11a_5n, wireless11_5ac] then
    (Area.zero lengthRatesEx).put 0 wifiOfdmrates
  else if mode ∈ [wireless11bg, wireless11g_24n, wireless11_24n, wireless11bg_24n] then
    ((Area.zero lengthRatesEx).put 0 wifiCckrates).put 4 wifiOfdmrates
  else .zero lengthRatesEx

/-- The rates (lines 1108–1127). The result has `network_type`. -/
def adoptRates (channel : UInt8) (s : RtlPriv) : Except Fault (RtlPriv × ℕ) := do
  let r ← addRates s.network 1 (.zero lengthRatesEx, 0)
  let r ← addRates s.network 50 r
  let networkType ← rtwCheckNetworkType r.1.bytes r.2 channel.toNat
  .ok ({ s with network.supportedRates := rtwSetSupportedRate networkType }, networkType)

/-- `ht_option` is set when the handlers are called that look at it. -/
def handlerState : ElemState where
  htOption := true
  vhtOption := false
  qosOption := true

/-- The ERP element (lines 1131–1134). -/
def adoptErp (s : RtlPriv) : Except Fault Unit := do
  let found ← s.network.getIe 42
  match found with
  | none => .ok ()
  | some (p, len) =>
    if len = 0 then .ok ()
    else do
      let _ ← Mlme.erpIeHandler s.network.elements handlerState p
      .ok ()

/-- `dot11AuthAlgrthm_8021X`. -/
def dot11AuthAlgrthm8021X : ℕ := 2

/-- The RSN element (lines 1142–1160); `NO_ENCRYPTION` is 0. -/
def adoptRsn (s : RtlPriv) : Except Fault RtlPriv := do
  let s := { s with
    security.wpaPsk := 0, security.wpa2GroupCipher := 0, security.wpa2PairwiseCipher := 0 }
  let found ← s.network.getIe 48
  match found with
  | none => .ok s
  | some (p, len) =>
    if len = 0 then .ok s
    else do
      let o ← parseIn Mlme.WpaIe.rsn (s.network.elements.drop p) (len + 2)
        (Mlme.WpaIe.start false)
      if o.ret then
        .ok { s with
          security.dot11AuthAlgrthm := dot11AuthAlgrthm8021X
          security.dot8021xalg := 1
          security.wpaPsk := s.security.wpaPsk ||| 2
          security.wpa2GroupCipher := o.groupCipher
          security.wpa2PairwiseCipher := o.pairwiseCipher }
      else .ok s

/-- The searches for a vendor specific element (lines 1167–1188 and 1194–1215): `p` and `ie_len`
    are those of the last one. -/
def vendorLoop (f : List UInt8) (limit : ℕ) (oui : List UInt8) :
    ℕ → ℕ → ℕ → Except Fault (Option (ℕ × ℕ))
  | 0, _, _ => .error .timeout
  | fuel + 1, p, ieLen => do
    let found ← getIe f 221 (limit - (ieLen + 2)) p
    match found with
    | none => .ok none
    | some (q, len) => do
      let bytes ← readBytes f (q + 2) oui.length
      if bytes = oui then .ok (some (q, len))
      else if len = 0 then .ok none
      else vendorLoop f limit oui fuel (q + (len + 2)) len

/-- `OUI1` and `WMM_PARA_IE`. -/
def oui1 : List UInt8 := [0x00, 0x50, 0xf2, 0x01]
def wmmParaIe : List UInt8 := [0x00, 0x50, 0xf2, 0x02, 0x01, 0x01]

/-- `p = ie + _BEACON_IE_OFFSET_`, `ie_len = 0` and the loop. -/
def WlanBssidEx.vendor (b : WlanBssidEx) (oui : List UInt8) : Except Fault (Option (ℕ × ℕ)) :=
  vendorLoop b.elements b.limit oui (b.elements.length + 1) 0 0

/-- The WPA element (lines 1163–1188). -/
def adoptWpa (s : RtlPriv) : Except Fault RtlPriv := do
  let s := { s with security.wpaGroupCipher := 0, security.wpaPairwiseCipher := 0 }
  let found ← s.network.vendor oui1
  match found with
  | none => .ok s
  | some (p, len) => do
    let o ← parseIn Mlme.WpaIe.wpa (s.network.elements.drop p) (len + 2) (Mlme.WpaIe.start false)
    if o.ret then
      .ok { s with
        security.dot11AuthAlgrthm := dot11AuthAlgrthm8021X
        security.dot8021xalg := 1
        security.wpaPsk := s.security.wpaPsk ||| 1
        security.wpaGroupCipher := o.groupCipher
        security.wpaPairwiseCipher := o.pairwiseCipher }
    else .ok s

/-- `*(p+8) |= BIT(7)`, and `*(p + 10) &= ~BIT(4)` with the three below it (lines 1199–1205). -/
def editWmm (b : WlanBssidEx) (p : ℕ) : Except Fault WlanBssidEx := do
  let b ← b.edit (p + 2 + 6) (· ||| 0x80)
  let b ← b.edit (p + 2 + 8) (· &&& 0xef)
  let b ← b.edit (p + 2 + 12) (· &&& 0xef)
  let b ← b.edit (p + 2 + 16) (· &&& 0xef)
  b.edit (p + 2 + 20) (· &&& 0xef)

/-- The WMM element (lines 1190–1216). -/
def adoptWmm (e : Env) (s : RtlPriv) : Except Fault RtlPriv := do
  let s := { s with qosOption := false }
  if e.wmmEnable then do
    let found ← s.network.vendor wmmParaIe
    match found with
    | none => .ok s
    | some (p, _) => do
      let b ← editWmm s.network p
      .ok { s with network := b, qosOption := true }
  else .ok s

/-- `WPA_CIPHER_CCMP` in one of the pairwise ciphers. -/
def SecurityPriv.ccmp (c : SecurityPriv) : Bool :=
  c.wpaPairwiseCipher.testBit 4 || c.wpa2PairwiseCipher.testBit 4

/-- `IEEE80211_HT_CAP_AMPDU_DENSITY` as it is masked in lines 1232 and 1234. -/
def density (ccmp : Bool) : UInt8 := if ccmp then 0x1c else 0x00

/-- `supp_mcs_set` (lines 1239–1242). -/
def editMcs (e : Env) (b : WlanBssidEx) (p : ℕ) : Except Fault WlanBssidEx :=
  if e.rf1t1r then do
    let b ← b.store (p + 2 + 3) 0xff
    b.store (p + 2 + 4) 0x00
  else .ok b

/-- The edits of the HT capability element (lines 1230–1242). -/
def editHt (e : Env) (ccmp : Bool) (b : WlanBssidEx) (p : ℕ) : Except Fault WlanBssidEx := do
  let b ← b.edit (p + 2 + 2) (· ||| density ccmp)
  let b ← b.edit (p + 2 + 2) (· ||| 0x03)
  editMcs e b p

/-- The HT capability element (lines 1218–1247): `pHT_caps_ie`. -/
def adoptHt (e : Env) (s : RtlPriv) : Except Fault (RtlPriv × Option ℕ) := do
  let found ← s.network.getIe 45
  match found with
  | none => .ok (s, none)
  | some (p, len) =>
    if len = 0 then .ok (s, none)
    else do
      let b ← editHt e s.security.ccmp s.network p
      let bytes ← readBytes b.elements (p + 2) len
      let htCap ← s.htCap.copyIn 0 bytes
      .ok ({ s with network := b, htCap := htCap }, some p)

/-- `pHT_info_ie` (lines 1250–1253). -/
def findHtInfo (b : WlanBssidEx) : Except Fault (Option ℕ) := do
  let found ← b.getIe 61
  match found with
  | none => .ok none
  | some (p, len) => .ok (if len = 0 then none else some p)

/-- The `switch` over `network_type` (lines 1254–1271). -/
def inUse (networkType : ℕ) : NetworkType :=
  if networkType = wireless11b then .ds
  else if networkType = wireless11a then .ofdm5
  else .ofdm24

/-- `HT_info_handler`, which returns at a null pointer. -/
def htInfoHandler (f : List UInt8) (htInfo : Option ℕ) : Except Fault Unit :=
  match htInfo with
  | none => .ok ()
  | some p => do
    let _ ← Mlme.htInfoHandler f handlerState p
    .ok ()

/-- The two handlers, when there is an HT capability element (lines 1284–1292). -/
def handleHt (f : List UInt8) (htCaps htInfo : Option ℕ) : Except Fault Unit :=
  match htCaps with
  | none => .ok ()
  | some p => do
    let _ ← Mlme.htCapsHandler f handlerState p
    htInfoHandler f htInfo

/-- From the HT information element on (lines 1249–1293). -/
def adoptRest (networkType : ℕ) (s : RtlPriv) (htCaps : Option ℕ) : Except Fault RtlPriv := do
  let htInfo ← findHtInfo s.network
  let networkType := if htCaps.isSome then networkType ||| wireless11_24n else networkType
  handleHt s.network.elements htCaps htInfo
  .ok { s with
    network.networkTypeInUse := inUse networkType
    network.length := fixedSz + s.network.ieLength
    networkType := networkType
    htOption := htCaps.isSome
    qosOption := s.qosOption || htCaps.isSome
    ampduEnable := s.ampduEnable || htCaps.isSome }

/-- From the SSID on (lines 1090–1293); `cap` are the bits that are taken for the capabilities. -/
def adoptElements (e : Env) (cap : ℕ) (s : RtlPriv) : Except Fault RtlPriv := do
  let s ← adoptSsid s
  let r ← adoptChannel s
  let t ← adoptRates r.2 r.1
  adoptErp t.1
  let s ← adoptRsn { t.1 with network.privacy := if cap.testBit 4 then 1 else 0 }
  let s ← adoptWpa s
  let s ← adoptWmm e s
  let h ← adoptHt e s
  adoptRest t.2 h.1 h.2

/-- From line 1075 on: `RTW_GET_LE16(p)` and `RTW_GET_LE16(ie)`. -/
def adopt (e : Env) (s : RtlPriv) : Except Fault RtlPriv := do
  let s := { s with network.rssi := 0, network.macAddress := e.macAddr }
  let period ← readLe16 s.network.body 8
  let cap ← readLe16 s.network.body 0
  adoptElements e cap { s with network.beaconPeriod := period }

/-- `return _FAIL`, or what follows `start_bss_network`. -/
inductive Verdict where
  | fail (s : RtlPriv)
  | started (s : RtlPriv)

/-- The record with the body (lines 1063–1067). -/
def fillIes (s : RtlPriv) (pbuf : List UInt8) : Except Fault RtlPriv := do
  let ies ← (Area.zero maxIeSz).copyIn 0 pbuf
  .ok { s with network.ieLength := pbuf.length, network.ies := ies }

/-- `rtw_check_beacon_data`. -/
def rtwCheckBeaconData (e : Env) (s : RtlPriv) (pbuf : List UInt8) : Except Fault Verdict :=
  if s.apState = false then .ok (.fail s)
  else if maxIeSz < pbuf.length then .ok (.fail s)
  else do
    let s ← fillIes s pbuf
    if s.network.infrastructureMode ≠ .apMode then .ok (.fail s)
    else do
      let s ← adopt e s
      .ok (.started s)

/-! ## Where a search for a vendor specific element ends -/

section seek

variable (oui : List UInt8) (total : ℕ)

/-- The search comes to its end in the body, whose elements have `total` bytes. It goes on from
    `place` as long as that is below `bound`. An element that is passed moves the bound to as far
    behind the end as the element is behind the beginning; it has to have as many bytes behind its
    header as are compared. -/
def SeekFits : ℕ → ℕ → List Elem → List UInt8 → Prop
  | bound, place, x :: es, t =>
    place < bound →
      if x.id = 221 then
        oui.length ≤ (x.data ++ (encodeAll es ++ t)).length ∧
          ((x.data ++ (encodeAll es ++ t)).take oui.length ≠ oui → x.data ≠ [] →
            SeekFits (total + place) (place + (x.data.length + 2)) es t)
      else SeekFits bound (place + (x.data.length + 2)) es t
  | bound, place, [], id :: len :: rest =>
    place < bound →
      if id = 221 then
        oui.length ≤ rest.length ∧ (rest.take oui.length ≠ oui → total ≤ len.toNat + 2)
      else bound ≤ place + (len.toNat + 2)
  | bound, place, [], _ => bound ≤ place

/-- What is found: the length in the header, and the bytes behind it. -/
def sought : ℕ → ℕ → List Elem → List UInt8 → Option (ℕ × List UInt8)
  | bound, place, x :: es, t =>
    if place < bound then
      if x.id = 221 then
        if (x.data ++ (encodeAll es ++ t)).take oui.length = oui then
          some (x.data.length, x.data ++ (encodeAll es ++ t))
        else if x.data = [] then none
        else sought (total + place) (place + (x.data.length + 2)) es t
      else sought bound (place + (x.data.length + 2)) es t
    else none
  | bound, place, [], id :: len :: rest =>
    if place < bound ∧ id = 221 ∧ rest.take oui.length = oui then some (len.toNat, rest) else none
  | _, _, [], _ => none

end seek

/-- The place of what is found. -/
def Located (f : List UInt8) (r : Option (ℕ × ℕ)) : Option (ℕ × List UInt8) → Prop
  | none => r = none
  | some (n, d) => ∃ pre len, f = pre ++ 221 :: len :: d ∧ len.toNat = n ∧
      r = some (pre.length, n)

section vendor

variable {f pre t : List UInt8} {oui : List UInt8} {es : List Elem} {limit fuel gfuel i bound : ℕ}

/-- What `vendorLoop` does with the result of a search. -/
def afterSearch (f : List UInt8) (limit : ℕ) (oui : List UInt8) (fuel : ℕ)
    (found : Option (ℕ × ℕ)) : Except Fault (Option (ℕ × ℕ)) :=
  match found with
  | none => .ok none
  | some (q, len) => do
    let bytes ← readBytes f (q + 2) oui.length
    if bytes = oui then .ok (some (q, len))
    else if len = 0 then .ok none
    else vendorLoop f limit oui fuel (q + (len + 2)) len

theorem vendorLoop_succ (f : List UInt8) (limit : ℕ) (oui : List UInt8) (fuel p ieLen : ℕ) :
    vendorLoop f limit oui (fuel + 1) p ieLen =
      getIe f 221 (limit - (ieLen + 2)) p >>= afterSearch f limit oui fuel := rfl

/-- A search from an element on that has passed `i` bytes, with the check in front. -/
def searchOn (f : List UInt8) (limit gfuel p i : ℕ) : Except Fault (Option (ℕ × ℕ)) :=
  if limit ≤ i then .ok none else getIeLoop f 221 limit gfuel p i

theorem getIe_eq_searchOn (f : List UInt8) (limit p : ℕ) :
    getIe f 221 limit p = searchOn f limit (f.length + 1) p 0 := by
  rw [getIe, searchOn]
  by_cases hlim : limit < 1
  · rw [if_pos hlim, if_pos (by omega)]
  · rw [if_neg hlim, if_neg (by omega)]

/-- A search that has come to its limit. -/
theorem searchOn_stop (hi : limit ≤ i) (r : ℕ) :
    searchOn f limit gfuel r i >>= afterSearch f f.length oui fuel = .ok none := by
  rw [searchOn, if_pos hi]
  rfl

/-- One turn of `rtw_get_ie`. -/
theorem searchOn_turn {id len : UInt8} {d : List UInt8} (hf : f = pre ++ id :: len :: d)
    (hi : i < limit) :
    searchOn f limit (gfuel + 1) pre.length i =
      if id = 221 then .ok (some (pre.length, len.toNat))
      else searchOn f limit gfuel (pre.length + (len.toNat + 2)) (i + (len.toNat + 2)) := by
  rw [searchOn, if_neg (Nat.not_le.mpr hi), getIeLoop, readByte_id hf, bind_ok,
    readByte_length hf, bind_ok, searchOn]

/-- At the end of the body, or at a single byte. -/
theorem searchOn_end (hend : f.length ≤ pre.length + 1) (hi : i < limit) :
    ¬ Fine (searchOn f limit (gfuel + 1) pre.length i) := by
  rw [searchOn, if_neg (Nat.not_le.mpr hi), getIeLoop]
  by_cases hlen : pre.length < f.length
  · rw [readByte_of_lt hlen, bind_ok, readByte_of_le hend, bind_error]
    exact not_fine_error _
  · rw [readByte_of_le (Nat.not_lt.mp hlen), bind_error]
    exact not_fine_error _

/-- The comparison at an element that is found. -/
theorem endsWhen_found {C : Prop} {r : Option (ℕ × List UInt8)} {len : UInt8} {d : List UInt8}
    {n : ℕ} (hf : f = pre ++ 221 :: len :: d) (hn : len.toNat = n)
    (hr : d.take oui.length = oui → r = some (n, d))
    (hempty : d.take oui.length ≠ oui → n = 0 → r = none)
    (hnext : d.take oui.length ≠ oui → n ≠ 0 →
      EndsWhen C (Located f · r) (vendorLoop f limit oui fuel (pre.length + (n + 2)) n)) :
    EndsWhen (oui.length ≤ d.length ∧ (d.take oui.length ≠ oui → n ≠ 0 → C))
      (Located f · r) (afterSearch f limit oui fuel (some (pre.length, n))) := by
  apply (endsWhen_data hf oui.length).bind
  rintro bytes rfl
  by_cases hsame : d.take oui.length = oui
  · rw [if_pos hsame, hr hsame]
    exact .ok_of (fun hno => absurd hsame hno) ⟨pre, len, hf, hn, rfl⟩
  · rw [if_neg hsame]
    by_cases h0 : n = 0
    · rw [if_pos h0, hempty hsame h0]
      exact .ok_of (fun _ hno => absurd h0 hno) rfl
    · rw [if_neg h0]
      exact (hnext hsame h0).iff ⟨fun hc _ _ => hc, fun hc => hc hsame h0⟩

/-- An element that is cut off is the last that a search comes to. -/
theorem searchOn_cut {id len : UInt8} {rest : List UInt8}
    (hf : f = pre ++ id :: len :: rest) (ht : rest.length < len.toNat)
    (hbound : bound + i = pre.length + limit) (hfuel : 1 < gfuel) (hfuel' : 0 < fuel) :
    EndsWhen (SeekFits oui f.length bound pre.length [] (id :: len :: rest))
      (Located f · (sought oui f.length bound pre.length [] (id :: len :: rest)))
      (searchOn f limit gfuel pre.length i >>= afterSearch f f.length oui fuel) := by
  have hlen : f.length = pre.length + (rest.length + 2) := by rw [hf, List.length_append]; rfl
  obtain ⟨gfuel, rfl⟩ : ∃ n, gfuel = n + 2 := ⟨gfuel - 2, by omega⟩
  obtain ⟨fuel, rfl⟩ : ∃ n, fuel = n + 1 := ⟨fuel - 1, by omega⟩
  have hbeyond : ∀ {n lim j : ℕ} {g : Option (ℕ × ℕ) → Except Fault (Option (ℕ × ℕ))},
      j < lim → ¬ Fine (searchOn f lim (n + 1) (pre.length + (len.toNat + 2)) j >>= g) := by
    intro n lim j g hj hfine
    obtain ⟨r, hr, -⟩ := fine_bind.mp hfine
    rw [searchOn, if_neg (Nat.not_le.mpr hj), getIeLoop, readByte_of_le (by omega),
      bind_error] at hr
    cases hr
  rw [SeekFits, sought]
  by_cases hlt : pre.length < bound
  · rw [searchOn_turn hf (by omega)]
    by_cases hid : id = 221
    · subst hid
      simp only [hlt, if_true, true_and, true_imp_iff]
      rw [bind_ok]
      refine (endsWhen_found (C := f.length ≤ len.toNat + 2) hf rfl (fun h => if_pos h)
        (fun h _ => if_neg h) fun hne _ => ?_).iff (and_congr_right fun _ =>
          forall_congr' fun _ => ⟨fun h => h (by omega), fun h _ => h⟩)
      rw [if_neg hne, vendorLoop_succ, getIe_eq_searchOn]
      by_cases hend : f.length ≤ len.toNat + 2
      · rw [searchOn_stop (by omega)]
        exact .ok_of hend rfl
      · exact ⟨fun h => absurd h hend, fun h => absurd h (hbeyond (by omega))⟩
    · simp only [hlt, hid, false_and, and_false, if_false, true_imp_iff]
      by_cases hend : bound ≤ pre.length + (len.toNat + 2)
      · rw [searchOn_stop (by omega)]
        exact .ok_of hend rfl
      · exact ⟨fun h => absurd h hend, fun h => absurd h (hbeyond (by omega))⟩
  · have hno : ¬ (pre.length < bound ∧ id = 221 ∧ rest.take oui.length = oui) := fun h => hlt h.1
    rw [searchOn_stop (by omega), if_neg hno]
    exact .ok_of (fun h => absurd h hlt) rfl

theorem searchOn_stump (hf : f = pre ++ t) (ht : Stump t)
    (hbound : bound + i = pre.length + limit) (hfuel : t.length < gfuel)
    (hfuel' : t.length ≤ fuel) :
    EndsWhen (SeekFits oui f.length bound pre.length [] t)
      (Located f · (sought oui f.length bound pre.length [] t))
      (searchOn f limit gfuel pre.length i >>= afterSearch f f.length oui fuel) := by
  have hshort : ∀ {C : Prop}, f.length ≤ pre.length + 1 → (C ↔ bound ≤ pre.length) →
      EndsWhen C (Located f · none)
        (searchOn f limit gfuel pre.length i >>= afterSearch f f.length oui fuel) := by
    intro C hend hc
    obtain ⟨gfuel, rfl⟩ : ∃ n, gfuel = n + 1 := ⟨gfuel - 1, by omega⟩
    by_cases hle : bound ≤ pre.length
    · rw [searchOn_stop (by omega)]
      exact .ok_of (hc.mpr hle) rfl
    · refine ⟨fun h => absurd (hc.mp h) hle, fun hfine => ?_⟩
      obtain ⟨r, hr, -⟩ := fine_bind.mp hfine
      exact absurd ⟨r, hr⟩ (searchOn_end hend (by omega))
  rcases t with _ | ⟨id, _ | ⟨len, rest⟩⟩
  · exact hshort (by rw [hf, List.append_nil]; omega) Iff.rfl
  · exact hshort (by rw [hf, List.length_append]; exact Nat.le_refl _) Iff.rfl
  · rw [List.length_cons, List.length_cons] at hfuel hfuel'
    exact searchOn_cut hf ht hbound (by omega) (by omega)

/-- A search from an element on. `bound` is where `limit` ends. -/
theorem searchOn_seeks (hf : f = pre ++ (encodeAll es ++ t)) (ht : Stump t)
    (hbound : bound + i = pre.length + limit) (hfuel : (encodeAll es ++ t).length < gfuel)
    (hfuel' : (encodeAll es ++ t).length ≤ fuel) :
    EndsWhen (SeekFits oui f.length bound pre.length es t)
      (Located f · (sought oui f.length bound pre.length es t))
      (searchOn f limit gfuel pre.length i >>= afterSearch f f.length oui fuel) := by
  induction es generalizing pre fuel gfuel i bound limit with
  | nil => exact searchOn_stump hf ht hbound hfuel hfuel'
  | cons x es ih =>
    have hx : f = pre ++ x.id :: UInt8.ofNat x.data.length ::
        (x.data ++ (encodeAll es ++ t)) := by
      rw [hf, encodeAll_cons, List.append_assoc]
      rfl
    have hrest : f = (pre ++ x.encode) ++ (encodeAll es ++ t) := by
      rw [hf, encodeAll_cons, List.append_assoc, List.append_assoc]
    have hnext : (pre ++ x.encode).length = pre.length + (x.data.length + 2) := by
      rw [List.length_append, Elem.encode_length]
    have hlen : f.length = pre.length + (x.data.length + 2) + (encodeAll es ++ t).length := by
      rw [hrest, List.length_append, hnext]
    rw [encodeAll_cons, List.append_assoc, List.length_append, Elem.encode_length] at hfuel hfuel'
    obtain ⟨gfuel, rfl⟩ : ∃ n, gfuel = n + 1 := ⟨gfuel - 1, by omega⟩
    obtain ⟨fuel, rfl⟩ : ∃ n, fuel = n + 1 := ⟨fuel - 1, by omega⟩
    rw [SeekFits, sought]
    by_cases hlt : pre.length < bound
    · rw [searchOn_turn hx (by omega), x.toNat_length]
      by_cases hid : x.id = 221
      · simp only [if_pos hid, hlt, if_true, true_imp_iff]
        have hzero : x.data.length = 0 ↔ x.data = [] := List.length_eq_zero_iff
        rw [hid] at hx
        rw [bind_ok]
        refine (endsWhen_found (C := SeekFits oui f.length (f.length + pre.length)
          (pre.length + (x.data.length + 2)) es t) hx x.toNat_length (fun h => if_pos h)
          (fun hne h0 => by rw [if_neg hne, if_pos (hzero.mp h0)]) fun hne h0 => ?_).iff
          (and_congr_right fun _ => forall_congr' fun _ => imp_congr_left (not_congr hzero))
        -- The next search begins behind the element; it stops as far behind the end as this one
        -- is behind the beginning.
        rw [if_neg hne, if_neg (mt hzero.mpr h0), vendorLoop_succ, getIe_eq_searchOn, ← hnext]
        exact ih hrest (by omega) (by omega) (by omega)
      · simp only [if_neg hid, hlt, if_true, true_imp_iff]
        rw [← hnext]
        exact ih hrest (by omega) (by omega) (by omega)
    · rw [searchOn_stop (by omega), if_neg hlt]
      exact .ok_of (fun h => absurd h hlt) rfl

end vendor

/-! ## Looking up elements -/

/-- The elements of the body are these, with a stump behind them. -/
structure Holds (b : WlanBssidEx) (es : List Elem) (t : List UInt8) : Prop where
  elements : b.elements = encodeAll es ++ t
  limit : b.limit = b.elements.length
  stump : Stump t

/-- A search for the id comes to its end, and what is found is as it should be. -/
def HitFits (index : UInt8) (P : ℕ → List UInt8 → Prop) (es : List Elem) (t : List UInt8) : Prop :=
  LookFits index es t ∧ ∀ n d, hit index es t = some (n, d) → P n d

/-- A search for a vendor specific element in the whole body. Its first limit is two bytes short. -/
def VendorFits (oui : List UInt8) (es : List Elem) (t : List UInt8) : Prop :=
  SeekFits oui (encodeAll es ++ t).length ((encodeAll es ++ t).length - 2) 0 es t

def vendorOf (oui : List UInt8) (es : List Elem) (t : List UInt8) : Option (ℕ × List UInt8) :=
  sought oui (encodeAll es ++ t).length ((encodeAll es ++ t).length - 2) 0 es t

/-- It comes to its end, and what is found is as it should be. -/
def VendorHitFits (oui : List UInt8) (P : ℕ → List UInt8 → Prop) (es : List Elem)
    (t : List UInt8) : Prop :=
  VendorFits oui es t ∧ ∀ n d, vendorOf oui es t = some (n, d) → P n d

section lookup

variable {β : Type} {b : WlanBssidEx} {es : List Elem} {t : List UInt8} {index : UInt8}
  {P : ℕ → List UInt8 → Prop} {Q : β → Prop} {g : Option (ℕ × ℕ) → Except Fault β}
  {n : ℕ} {d : List UInt8}

/-- A search and what is done with its result. -/
theorem Holds.lookup (h : Holds b es t)
    (hnone : hit index es t = none → EndsWhen True Q (g none))
    (hsome : ∀ pre len d, b.elements = pre ++ index :: len :: d →
      hit index es t = some (len.toNat, d) →
        EndsWhen (P len.toNat d) Q (g (some (pre.length, len.toNat)))) :
    EndsWhen (HitFits index P es t) Q (b.getIe index >>= g) := by
  rw [WlanBssidEx.getIe, h.limit]
  exact getIe_lookup h.elements h.stump hnone hsome

/-- The search for a vendor specific element. -/
theorem vendorLoop_seeks (h : Holds b es t) (oui : List UInt8) :
    EndsWhen (VendorFits oui es t) (Located b.elements · (vendorOf oui es t)) (b.vendor oui) := by
  have hf : b.elements = [] ++ (encodeAll es ++ t) := h.elements
  have hlen : b.elements.length = (encodeAll es ++ t).length := by rw [h.elements]
  rw [WlanBssidEx.vendor, h.limit, vendorLoop_succ, getIe_eq_searchOn]
  have hbound : b.elements.length - 2 + 0 = ([] : List UInt8).length +
      (b.elements.length - (0 + 2)) := by rw [List.length_nil]; omega
  rw [VendorFits, vendorOf, ← hlen]
  exact searchOn_seeks hf h.stump hbound (by omega) (by omega)

/-- Such a search and what is done with its result. -/
theorem Holds.vendor (h : Holds b es t) {oui : List UInt8}
    (hnone : vendorOf oui es t = none → EndsWhen True Q (g none))
    (hsome : ∀ pre len d, b.elements = pre ++ 221 :: len :: d →
      vendorOf oui es t = some (len.toNat, d) →
        EndsWhen (P len.toNat d) Q (g (some (pre.length, len.toNat)))) :
    EndsWhen (VendorHitFits oui P es t) Q (b.vendor oui >>= g) := by
  apply (vendorLoop_seeks h oui).bind
  intro r hr
  cases hfound : vendorOf oui es t with
  | none =>
    rw [hfound] at hr
    obtain rfl : r = none := hr
    exact (hnone hfound).iff (iff_of_true trivial fun _ _ hno => by cases hno)
  | some v =>
    obtain ⟨n, d⟩ := v
    rw [hfound] at hr
    obtain ⟨pre, len, hf, rfl, rfl⟩ := hr
    refine (hsome pre len d hf hfound).iff ⟨fun hp n' d' heq => ?_, fun hp => hp _ _ rfl⟩
    obtain ⟨rfl, rfl⟩ := Prod.mk.inj (Option.some.inj heq)
    exact hp

end lookup

end Rtl8821au.Ap.BeaconData
