import Rtl8821au.Lib.Elements
import Rtl8821au.Lib.Stores
import Rtl8821au.Mlme.ElemWalk

/-!
# Elements of received frames that are copied

The handlers of authentication frames, association requests, association responses and beacons
(`rtw_mlme_ext.c`, `rtw_wlan_util.c`), with everything they copy of the elements to fields of
the driver. The frame is the memory from its first byte on, with its length; what lies behind
it is as arbitrary as the frame.

* `handlers_inside_iff`: when a handler stores inside its fields.
* `behind_unchanged`: what that says about the memory behind them.

The machine is little-endian. `OnAuth` compares its challenge text and copies none. An index
that has left its field may change anything, the rest of such a run means nothing.
-/

namespace Rtl8821au.Mlme.ElemCopy

open Elements Stores

/-! ## Fields -/

/-- The fields that bodies of elements are copied to, and `supportRate` of `OnAssocReq`. -/
inductive Field where
  | chgTxt
  | supportRate
  | bssrateset
  | wpaIe
  | htCap
  | vhtCap
  | wmmParam
  | htCaps
  | htInfo
  | vhtMcsMap
  | erpIe
  | newChNo
  | bssidIes
  | bssidSsid
  | bssidRates
  | fwStaRates (camIdx : ℕ)
  deriving DecidableEq, Repr

/-- `MAX_IE_SZ`. -/
def maxIeSz : ℕ := 768

/-- `NDIS_802_11_LENGTH_SSID`. -/
def lengthSsid : ℕ := 32

/-- `NDIS_802_11_LENGTH_RATES_EX`. -/
def lengthRatesEx : ℕ := 16

/-- `sizeof` of a field. -/
def Field.size : Field → ℕ
  | .chgTxt => 128
  | .supportRate => 16
  | .bssrateset => 16
  | .wpaIe => 32
  | .htCap => 26
  | .vhtCap => 32
  | .wmmParam => 18
  | .htCaps => 26
  | .htInfo => htInfoSize
  | .vhtMcsMap => 2
  | .erpIe => 1
  | .newChNo => 1
  | .bssidIes => maxIeSz
  | .bssidSsid => lengthSsid
  | .bssidRates => lengthRatesEx
  | .fwStaRates _ => lengthRatesEx

/-! ## What the handlers look at -/

/-- `enum _RT_RF_TYPE_DEF`. -/
inductive RfType where
  | rf1T2R
  | rf2T4R
  | rf2T2R
  | rf1T1R
  | rf2T2RGreen
  deriving DecidableEq, Repr

/-- What is looked at of a `struct sta_info`: two bits of `state`, and `sta_rx_pkts`. -/
structure Station where
  authSuccess : Bool
  assocSuccess : Bool
  rxPkts : ℕ
  deriving DecidableEq, Repr

/-- The driver when the frame arrives; `state` is `pmlmeinfo->state`, `bssid`, `ssid` are the
    joined network's, `curMac`, `curSsid`, `curSsidLength` those of `cur_network`. `old` is the
    memory, `wpaParses` and `securityMatches` are the outcomes of tests that copy nothing. -/
structure Driver where
  macAddr : List UInt8
  state : UInt32
  sharedAuth : Bool
  scanProcess : Bool
  htOption : Bool
  vhtOption : Bool
  qosOption : Bool
  rfType : RfType
  curChannel : UInt8
  curBwmode : ℕ
  curChOffset : ℕ
  bssid : List UInt8
  ssid : List UInt8
  curMac : List UInt8
  curSsid : List UInt8
  curSsidLength : ℕ
  stainfo : List UInt8 → Option Station
  fwStaUsed : ℕ → Bool
  malloc : Bool
  wpaPsk : UInt8
  wpaParses : Elem → Bool
  wpsUnready : Bool
  securityMatches : Bool
  old : Field → ℕ → UInt8

/-- `WIFI_FW_AUTH_NULL` … `WIFI_FW_ASSOC_SUCCESS` (`rtw_mlme_ext.h`, lines 298–303). -/
def wifiFwAuthNull : UInt32 := 0x100
def wifiFwAuthState : UInt32 := 0x200
def wifiFwAuthSuccess : UInt32 := 0x400
def wifiFwAssocState : UInt32 := 0x2000
def wifiFwAssocSuccess : UInt32 := 0x4000

/-- `WIFI_FW_ADHOC_STATE`, `WIFI_FW_STATION_STATE`, `WIFI_FW_AP_STATE` in the two low bits. -/
def Driver.adhoc (c : Driver) : Bool := c.state &&& 3 == 1
def Driver.station (c : Driver) : Bool := c.state &&& 3 == 2
def Driver.ap (c : Driver) : Bool := c.state &&& 3 == 3

/-- The memory from the first byte of the frame on. -/
abbrev Frame := ℕ → UInt8

/-- `n` bytes. -/
def bytes (m : Frame) (off n : ℕ) : List UInt8 := (List.range n).map fun k => m (off + k)

/-- The bytes from `off` on. -/
def fromByte (m : Frame) (off : ℕ) : ℕ → UInt8 := fun k => m (off + k)

/-- `le16_to_cpu` of two bytes. -/
def le16 (m : Frame) (off : ℕ) : ℕ := (m off).toNat + 256 * (m (off + 1)).toNat

/-- `get_da` (`wifi.h`, lines 431–452). -/
def getDa (m : Frame) : List UInt8 := if m 1 &&& 1 = 0 then bytes m 4 6 else bytes m 16 6

/-- `GetPrivacy`. -/
def getPrivacy (m : Frame) : Bool := m 1 &&& 0x40 != 0

/-- The loop of `rtw_get_ie` (`rtw_ieee80211.c`, lines 227–258). -/
def getIeLoop (m : Frame) (index : UInt8) (limit : ℕ) : ℕ → ℕ → ℕ → Option (ℕ × ℕ)
  | 0, _, _ => none
  | fuel + 1, p, i =>
    let len := (m (p + 1)).toNat
    if m p = index then some (p, len)
    else if limit ≤ i + (len + 2) then none
    else getIeLoop m index limit fuel (p + (len + 2)) (i + (len + 2))

/-- `rtw_get_ie`: the place and the length of the element. A negative limit is 0 here. -/
def rtwGetIe (m : Frame) (start : ℕ) (index : UInt8) (limit : ℕ) : Option (ℕ × ℕ) :=
  if limit < 1 then none else getIeLoop m index limit limit start 0

/-- The loop ends: as many rounds as the limit are enough. -/
theorem getIeLoop_enough {m : Frame} {index : UInt8} {limit fuel fuel' p i : ℕ} (hi : i < limit)
    (h : limit ≤ fuel + i) (h' : limit ≤ fuel' + i) :
    getIeLoop m index limit fuel p i = getIeLoop m index limit fuel' p i := by
  induction fuel generalizing fuel' p i with
  | zero => omega
  | succ fuel ih =>
    obtain ⟨fuel', rfl⟩ : ∃ k, fuel' = k + 1 := ⟨fuel' - 1, by omega⟩
    simp only [getIeLoop]
    split_ifs
    · rfl
    · rfl
    · exact ih (by omega) (by omega) (by omega)

/-! ## Handlers of elements

Each gets the place of an element. -/

/-- Byte `k` of the loop of `HT_caps_handler` (lines 914–942). -/
def htCapsByte (k : ℕ) (cur data : UInt8) : UInt8 :=
  if k ≠ 2 then cur &&& data
  else
    let maxAmpduLen := if data &&& 0x3 < cur &&& 0x3 then data &&& 0x3 else cur &&& 0x3
    let minMpduSpacing := if data &&& 0x1c < cur &&& 0x1c then cur &&& 0x1c else data &&& 0x1c
    maxAmpduLen ||| minMpduSpacing

/-- `MCS_rate_1R`, `MCS_rate_2R` (`rtw_mlme_ext.c`, lines 132–134). -/
def mcsRate (rf : RfType) (k : ℕ) : UInt8 :=
  if k = 0 then 0xff
  else if k = 1 then (if rf = .rf1T1R then 0 else 0xff)
  else if k = 4 then 0x01
  else 0

/-- `HT_caps_handler` (`rtw_wlan_util.c`, lines 896–974). `MCS_rate` is at 3. -/
def htCapsHandler (c : Driver) (m : Frame) (l : Log Field) (i : ℕ) : Log Field :=
  if !c.htOption then l
  else
    let l := l.fill .htCaps 0
      (fun l k => htCapsByte k (l.load c.old .htCaps k) (m (i + 2 + k))) (m (i + 1)).toNat
    l.fill .htCaps 3 (fun l k => l.load c.old .htCaps (3 + k) &&& mcsRate c.rfType k) 16

/-- `HT_info_handler` (lines 976–994). -/
def htInfoHandler (c : Driver) (m : Frame) (l : Log Field) (i : ℕ) : Log Field :=
  if !c.htOption then l
  else if htInfoSize < (m (i + 1)).toNat then l
  else l.copy .htInfo 0 (fromByte m (i + 2)) (m (i + 1)).toNat

/-- `ERP_IE_handler` (lines 1032–1042). -/
def erpIeHandler (m : Frame) (l : Log Field) (i : ℕ) : Log Field :=
  if 1 < (m (i + 1)).toNat then l
  else l.copy .erpIe 0 (fromByte m (i + 2)) (m (i + 1)).toNat

/-- The comparison with `WMM_PARA_OUI` and `WMM_param_handler` (lines 643–658). -/
def wmmParamHandler (c : Driver) (m : Frame) (l : Log Field) (i : ℕ) : Log Field :=
  if bytes m (i + 2) 6 = wmmParaOui ∧ c.qosOption then l.copy .wmmParam 0 (fromByte m (i + 8)) 18
  else l

/-- The receive map in `VHT_caps_handler` (`rtw_vht.c`, lines 292–303). -/
def vhtCapsHandler (c : Driver) (m : Frame) (l : Log Field) (i : ℕ) : Log Field :=
  if !c.vhtOption then l
  else
    let mask : UInt8 :=
      if c.rfType = .rf1T1R then 0xfc else if c.rfType = .rf2T2R then 0xf0 else 0
    l.copy .vhtMcsMap 0 (fun k => if k = 0 then m (i + 6) ||| mask else m (i + 6 + k)) 2

/-- The log, `cur_bwmode` and `cur_ch_offset`. -/
structure BeaconState where
  log : Log Field
  curBwmode : ℕ
  curChOffset : ℕ

/-- `bwmode_update_check` (`rtw_wlan_util.c`, lines 788–894); `infos[0]` is at 1. -/
def bwmodeUpdateCheck (c : Driver) (m : Frame) (s : BeaconState) (i : ℕ) : BeaconState :=
  if !c.htOption then s
  else if 2 ≤ s.curBwmode then s
  else if htInfoSize < (m (i + 1)).toNat then s
  else if newBwmode (m (i + 3)) ≠ (s.curBwmode, s.curChOffset) then
    { log := htInfoHandler c m s.log i
      curBwmode := (newBwmode (m (i + 3))).1
      curChOffset := (newBwmode (m (i + 3))).2 }
  else s

section elements

variable {c : Driver} {m : Frame} {l : Log Field} {s : BeaconState} {i : ℕ}

/-- The capabilities are stored as long as they are. -/
theorem htCapsHandler_safe : (htCapsHandler c m l i).Safe Field.size ↔
    l.Safe Field.size ∧ (c.htOption = true → (m (i + 1)).toNat ≤ 26) := by
  have hmcs : Room Field.size .htCaps 3 16 := room_of_le (by decide)
  rw [htCapsHandler]
  by_cases ho : c.htOption = true
  · rw [if_neg (by simp [ho]), safe_fill, safe_fill, room_start, and_iff_left hmcs]
    exact and_congr_right fun _ => ⟨fun h _ => h, fun h => h ho⟩
  · rw [if_pos (by simp [ho])]
    exact (and_iff_left fun h => absurd h ho).symm

theorem htInfoHandler_safe :
    (htInfoHandler c m l i).Safe Field.size ↔ l.Safe Field.size := by
  rw [htInfoHandler]
  split_ifs with ho hlen
  · rfl
  · rfl
  · rw [safe_copy, room_start]
    exact and_iff_left (Nat.not_lt.mp hlen)

theorem erpIeHandler_safe : (erpIeHandler m l i).Safe Field.size ↔ l.Safe Field.size := by
  rw [erpIeHandler]
  split_ifs with hlen
  · rfl
  · rw [safe_copy, room_start]
    exact and_iff_left (Nat.not_lt.mp hlen)

theorem wmmParamHandler_safe :
    (wmmParamHandler c m l i).Safe Field.size ↔ l.Safe Field.size := by
  rw [wmmParamHandler]
  split_ifs
  · rw [safe_copy]
    exact and_iff_left (room_of_le (by decide))
  · rfl

theorem vhtCapsHandler_safe :
    (vhtCapsHandler c m l i).Safe Field.size ↔ l.Safe Field.size := by
  rw [vhtCapsHandler]
  split_ifs
  · rfl
  all_goals
    rw [safe_copy]
    exact and_iff_left (room_of_le (by decide))

theorem bwmodeUpdateCheck_safe :
    (bwmodeUpdateCheck c m s i).log.Safe Field.size ↔ s.log.Safe Field.size := by
  rw [bwmodeUpdateCheck]
  split_ifs
  · rfl
  · rfl
  · rfl
  · exact htInfoHandler_safe
  · rfl

end elements

/-! ## Association responses -/

/-- `switch (pIE->ElementID)` in `OnAssocRsp` (`rtw_mlme_ext.c`, lines 1756–1786);
    `VHT_operation_handler` copies nothing. -/
def assocRspElem (c : Driver) (m : Frame) (l : Log Field) (i : ℕ) : Log Field :=
  if m i = 221 then wmmParamHandler c m l i
  else if m i = 45 then htCapsHandler c m l i
  else if m i = 61 then htInfoHandler c m l i
  else if m i = 191 then vhtCapsHandler c m l i
  else if m i = 42 then erpIeHandler m l i
  else l

/-- The response is taken: it is for this station, which waits for it, and its status is 0
    (lines 1720–1738). -/
def takesResponse (c : Driver) (m : Frame) : Bool :=
  getDa m == c.macAddr && c.state &&& (wifiFwAuthSuccess ||| wifiFwAssocState) != 0 &&
    c.state &&& wifiFwAssocSuccess == 0 && le16 m 26 == 0

/-- `OnAssocRsp` (lines 1703–1807). -/
def onAssocRsp (c : Driver) (m : Frame) (pktLen : ℕ) (l : Log Field) : Log Field :=
  if takesResponse c m then visit (assocRspElem c m) m pktLen pktLen l 30 else l

/-- The capabilities in a response that is taken are not longer than the field. -/
def AssocRspFits (c : Driver) (m : Frame) (pktLen : ℕ) : Prop :=
  takesResponse c m = true → c.htOption = true →
    ∀ i ∈ places m pktLen pktLen 30, m i = 45 → (m (i + 1)).toNat ≤ 26

theorem assocRspElem_safe {c : Driver} {m : Frame} (l : Log Field) (i : ℕ) :
    (assocRspElem c m l i).Safe Field.size ↔
      l.Safe Field.size ∧ (m i = 45 → c.htOption = true → (m (i + 1)).toNat ≤ 26) := by
  have hother : m i ≠ 45 → (l.Safe Field.size ↔ l.Safe Field.size ∧
      (m i = 45 → c.htOption = true → (m (i + 1)).toNat ≤ 26)) := fun hne =>
    (and_iff_left fun h => absurd h hne).symm
  rw [assocRspElem]
  split_ifs with h221 h45 h61 h191 h42
  · exact wmmParamHandler_safe.trans (hother (by rw [h221]; decide))
  · rw [htCapsHandler_safe, forall_prop_of_true h45]
  · exact htInfoHandler_safe.trans (hother h45)
  · exact vhtCapsHandler_safe.trans (hother h45)
  · exact erpIeHandler_safe.trans (hother h45)
  · exact hother h45

theorem onAssocRsp_safe (c : Driver) (m : Frame) (pktLen : ℕ) (l : Log Field) :
    (onAssocRsp c m pktLen l).Safe Field.size ↔ l.Safe Field.size ∧ AssocRspFits c m pktLen := by
  rw [onAssocRsp, AssocRspFits]
  by_cases ht : takesResponse c m = true
  · rw [if_pos ht, visit_iff assocRspElem_safe]
    refine and_congr_right fun _ => ⟨fun h _ ho j hj h45 => h j hj h45 ho, ?_⟩
    intro h j hj h45 ho
    exact h ht ho j hj h45
  · rw [if_neg ht]
    exact (and_iff_left fun h => absurd h ht).symm

/-! ## Challenge texts -/

/-- The second frame of shared key authentication (lines 1068–1100). -/
def takesChallenge (c : Driver) (m : Frame) : Bool :=
  let offset := if getPrivacy m then 4 else 0
  getDa m == c.macAddr && c.state &&& wifiFwAuthState != 0 && le16 m (24 + offset + 4) == 0 &&
    le16 m (24 + offset + 2) == 2 && c.sharedAuth

/-- `OnAuthClient` (lines 1058–1157). -/
def onAuthClient (c : Driver) (m : Frame) (pktLen : ℕ) (l : Log Field) : Log Field :=
  if takesChallenge c m then
    match rtwGetIe m 30 16 (pktLen - 30) with
    | none => l
    | some (p, len) => l.copy .chgTxt 0 (fromByte m (p + 2)) len
  else l

/-- The challenge text that is taken is not longer than the field. -/
def AuthClientFits (c : Driver) (m : Frame) (pktLen : ℕ) : Prop :=
  takesChallenge c m = true → ∀ e ∈ rtwGetIe m 30 16 (pktLen - 30), e.2 ≤ 128

theorem onAuthClient_safe (c : Driver) (m : Frame) (pktLen : ℕ) (l : Log Field) :
    (onAuthClient c m pktLen l).Safe Field.size ↔
      l.Safe Field.size ∧ AuthClientFits c m pktLen := by
  rw [onAuthClient, AuthClientFits]
  by_cases ht : takesChallenge c m = true
  · rw [if_pos ht, forall_prop_of_true ht]
    cases rtwGetIe m 30 16 (pktLen - 30) with
    | none => exact (and_iff_left nofun).symm
    | some e =>
      rw [safe_copy, room_start]
      exact and_congr_right fun _ => ⟨fun h _ he => Option.some.inj he ▸ h, fun h => h e rfl⟩
  · rw [if_neg ht]
    exact (and_iff_left fun h => absurd h ht).symm

/-! ## Association requests -/

/-- `ie_offset`, with the header. -/
def assocReqStart (m : Frame) : ℕ := 24 + if m 0 &&& 0xFC = 0 then 4 else 10

/-- The SSID of the request (lines 1250–1274). -/
def ssidMatches (c : Driver) (m : Frame) (pktLen : ℕ) : Bool :=
  match rtwGetIe m (assocReqStart m) 0 (pktLen - assocReqStart m) with
  | none => false
  | some (p, len) => len != 0 && bytes m (p + 2) c.ssid.length == c.ssid && len == c.ssid.length

/-- The elements of a request that comes as far as its rates (lines 1156–1274): an authenticated
    station sent it, its elements can be parsed and the SSID is the own one. -/
def acceptsRequest (c : Driver) (m : Frame) (pktLen : ℕ) : Option (List Elem) :=
  if !c.ap then none
  else if pktLen < assocReqStart m then none
  else
    match c.stainfo (bytes m 10 6) with
    | none => none
    | some sta =>
      if !sta.authSuccess && !sta.assocSuccess then none
      else
        match decodeAll (bytes m (assocReqStart m) (pktLen - assocReqStart m)) with
        | none => none
        | some es =>
          if (es.any fun e => e.id == 0) && ssidMatches c m pktLen then some es else none

/-- What `rtw_ieee802_11_parse_elems` leaves of an element: the last one. -/
def lastElem (p : Elem → Bool) (es : List Elem) : Option Elem := (es.filter p).getLast?

/-- An element of `OUI_MICROSOFT` with a type. -/
def isMicrosoft (type : UInt8) (e : Elem) : Bool :=
  e.id == 221 && e.data.take 4 == [0x00, 0x50, 0xf2, type]

/-- `wpa_ie`, `wpa_ie_len` (lines 1319–1371). -/
def requestWpaIe (c : Driver) (es : List Elem) : Option Elem :=
  ((lastElem (fun e => e.id == 48) es).filter fun _ => c.wpaPsk &&& 2 != 0).or
    ((lastElem (isMicrosoft 1) es).filter fun _ => c.wpaPsk &&& 1 != 0)

/-- The copy of `wpa_ie` to the station, unless the request fails (lines 1373–1445). -/
def copyWpaIe (c : Driver) (es : List Elem) (l : Log Field) : Option (Log Field) :=
  match requestWpaIe c es with
  | none => if 0 < c.wpaPsk ∧ c.wpsUnready then none else some l
  | some e =>
    if !c.wpaParses e then none
    else
      let copyLen := if (lastElem (isMicrosoft 4) es).isSome then 0 else min (e.data.length + 2) 32
      some (l.copy .wpaIe 0 (fun k => e.encode.getD k 0) copyLen)

/-- The HT and VHT capabilities of the station (lines 1521–1571). -/
def copyCapabilities (c : Driver) (es : List Elem) (l : Log Field) : Log Field :=
  let ht := (lastElem (fun e => e.id == 45) es).filter fun e => 26 ≤ e.data.length
  let l :=
    match ht with
    | none => l
    | some e => l.copy .htCap 0 (fun k => e.data.getD k 0) 26
  if ht.isSome ∧ !c.htOption then l
  else
    match (lastElem (fun e => e.id == 191) es).filter fun e => e.data.length = 12 with
    | none => l
    | some e => l.copy .vhtCap 0 (fun k => e.data.getD k 0) 12

/-- The two elements with rates; `supportRateNum` is the sum of their lengths (lines 1276–1303). -/
def copyRates (m : Frame) (pktLen p₁ n₁ : ℕ) (l : Log Field) : Log Field × ℕ :=
  let l := l.copy .supportRate 0 (fromByte m (p₁ + 2)) n₁
  match rtwGetIe m (assocReqStart m) 50 (pktLen - assocReqStart m) with
  | none => (l, n₁)
  | some (p₂, n₂) =>
    if n₁ ≤ 16 then (l.copy .supportRate n₁ (fromByte m (p₂ + 2)) n₂, n₁ + n₂) else (l, n₁)

/-- `OnAssocReq` (lines 1159–1701). -/
def onAssocReq (c : Driver) (m : Frame) (pktLen : ℕ) (l : Log Field) : Log Field :=
  match acceptsRequest c m pktLen with
  | none => l
  | some es =>
    match rtwGetIe m (assocReqStart m) 1 (pktLen - assocReqStart m) with
    | none => l
    | some (p₁, n₁) =>
      let (l, supportRateNum) := copyRates m pktLen p₁ n₁ l
      let l := l.copy .bssrateset 0 (l.load c.old .supportRate) supportRateNum
      match copyWpaIe c es l with
      | none => l
      | some l => copyCapabilities c es l

/-- The number of extended rates that an element list gives. -/
def extRates (m : Frame) (start limit : ℕ) : ℕ :=
  match rtwGetIe m start 50 limit with
  | none => 0
  | some (_, n₂) => n₂

/-- The rates in a request that is accepted are not more than 16 in all. -/
def AssocReqFits (c : Driver) (m : Frame) (pktLen : ℕ) : Prop :=
  (acceptsRequest c m pktLen).isSome = true →
    ∀ e ∈ rtwGetIe m (assocReqStart m) 1 (pktLen - assocReqStart m),
      e.2 + extRates m (assocReqStart m) (pktLen - assocReqStart m) ≤ 16

section request

variable {c : Driver} {m : Frame} {pktLen : ℕ} {l : Log Field} {es : List Elem}

theorem copyWpaIe_safe {l' : Log Field} (h : copyWpaIe c es l = some l') :
    l'.Safe Field.size ↔ l.Safe Field.size := by
  rw [copyWpaIe] at h
  cases hwpa : requestWpaIe c es with
  | none =>
    rw [hwpa] at h
    dsimp only at h
    split_ifs at h
    rw [Option.some.inj h]
  | some e =>
    have hlen : (if (lastElem (isMicrosoft 4) es).isSome then 0 else min (e.data.length + 2) 32) ≤
        Field.size .wpaIe := by
      split_ifs
      · exact Nat.zero_le _
      · exact Nat.min_le_right _ _
    rw [hwpa] at h
    by_cases hp : c.wpaParses e = true
    · simp only [hp, Bool.not_true, Bool.false_eq_true, if_false, Option.some.injEq] at h
      rw [← h, safe_copy, room_start]
      exact and_iff_left hlen
    · simp [hp] at h

theorem copyCapabilities_safe :
    (copyCapabilities c es l).Safe Field.size ↔ l.Safe Field.size := by
  have hht (e : Elem) : (l.copy .htCap 0 (fun k => e.data.getD k 0) 26).Safe Field.size ↔
      l.Safe Field.size := by
    rw [safe_copy]
    exact and_iff_left (room_of_le (by decide))
  have hvht (l : Log Field) (e : Elem) :
      (l.copy .vhtCap 0 (fun k => e.data.getD k 0) 12).Safe Field.size ↔ l.Safe Field.size := by
    rw [safe_copy]
    exact and_iff_left (room_of_le (by decide))
  rw [copyCapabilities]
  cases (lastElem (fun e => e.id == 45) es).filter fun e => 26 ≤ e.data.length with
  | none =>
    rw [if_neg (by simp)]
    split
    · rfl
    · exact hvht _ _
  | some e =>
    split_ifs
    · exact hht e
    · split
      · exact hht e
      · exact (hvht _ _).trans (hht e)

/-- The rates are stored as long as both elements are; the sum is not tested. -/
theorem copyRates_safe (c : Driver) (m : Frame) (pktLen : ℕ) (l : Log Field) (p₁ n₁ : ℕ) :
    ((copyRates m pktLen p₁ n₁ l).1.copy .bssrateset 0
        ((copyRates m pktLen p₁ n₁ l).1.load c.old .supportRate)
        (copyRates m pktLen p₁ n₁ l).2).Safe Field.size ↔
      l.Safe Field.size ∧
        n₁ + extRates m (assocReqStart m) (pktLen - assocReqStart m) ≤ 16 := by
  have h16 : Field.size .supportRate = 16 := rfl
  have h16' : Field.size .bssrateset = 16 := rfl
  rw [safe_copy, room_start, h16', copyRates, extRates]
  cases rtwGetIe m (assocReqStart m) 50 (pktLen - assocReqStart m) with
  | none =>
    simp only [safe_copy, room_start, h16, Nat.add_zero, and_assoc, and_self]
  | some e =>
    obtain ⟨p₂, n₂⟩ := e
    by_cases hn : n₁ ≤ 16
    · simp only [if_pos hn, safe_copy, Room, h16, and_assoc]
      exact and_congr_right fun _ => by omega
    · simp only [if_neg hn, safe_copy, room_start, h16, and_assoc]
      exact and_congr_right fun _ => by omega

theorem onAssocReq_safe (c : Driver) (m : Frame) (pktLen : ℕ) (l : Log Field) :
    (onAssocReq c m pktLen l).Safe Field.size ↔ l.Safe Field.size ∧ AssocReqFits c m pktLen := by
  rw [onAssocReq, AssocReqFits]
  cases acceptsRequest c m pktLen with
  | none => exact (and_iff_left nofun).symm
  | some es =>
    cases rtwGetIe m (assocReqStart m) 1 (pktLen - assocReqStart m) with
    | none => exact (and_iff_left nofun).symm
    | some e =>
      have hrates := copyRates_safe c m pktLen l e.1 e.2
      have hall : (∀ e' ∈ some e,
          e'.2 + extRates m (assocReqStart m) (pktLen - assocReqStart m) ≤ 16) ↔
          e.2 + extRates m (assocReqStart m) (pktLen - assocReqStart m) ≤ 16 :=
        ⟨fun h => h e rfl, fun h _ he => Option.some.inj he ▸ h⟩
      rw [Option.isSome_some, forall_prop_of_true rfl, hall, ← hrates]
      dsimp only
      split
      · rfl
      · next hwpa => rw [copyCapabilities_safe, copyWpaIe_safe hwpa]

end request

/-! ## Beacons -/

/-- `*bssid` after it was cleared and the elements were copied (`rtw_mlme_ext.c`, lines 4597–4610,
    `rtw_wlan_util.c`, lines 1134–1144). -/
def freshBssid (m : Frame) (len : ℕ) (l : Log Field) : Log Field :=
  let l := l.fill .bssidIes 0 (fun _ _ => 0) maxIeSz
  let l := l.fill .bssidSsid 0 (fun _ _ => 0) lengthSsid
  let l := l.fill .bssidRates 0 (fun _ _ => 0) lengthRatesEx
  l.copy .bssidIes 0 (fromByte m 24) len

/-- `bssid->IEs` then. -/
def bcnIes (c : Driver) (m : Frame) (len : ℕ) : Frame :=
  (freshBssid m len []).load c.old .bssidIes

/-- The extended rates in `collect_bss_info` (lines 4655–4665) behind `i` others. -/
def collectExtRates (ies : Frame) (len i : ℕ) (l : Log Field) : Log Field :=
  match rtwGetIe ies 12 50 (len - 12) with
  | none => l
  | some (p, n) =>
    if lengthRatesEx - i < n then l else l.copy .bssidRates i (fromByte ies (p + 2)) n

/-- The rates in `collect_bss_info` (lines 4641–4665). -/
def collectRates (ies : Frame) (len : ℕ) (l : Log Field) : Log Field :=
  match rtwGetIe ies 12 1 (len - 12) with
  | none => collectExtRates ies len 0 l
  | some (p, n) =>
    if lengthRatesEx < n then l
    else collectExtRates ies len n (l.copy .bssidRates 0 (fromByte ies (p + 2)) n)

/-- `collect_bss_info` (lines 4577–4734). -/
def collectBssInfo (c : Driver) (m : Frame) (pktLen : ℕ) (l : Log Field) : Log Field :=
  if pktLen < 24 ∨ maxIeSz < pktLen - 24 then l
  else
    let len := pktLen - 24
    let ies := bcnIes c m len
    let l := freshBssid m len l
    match rtwGetIe ies 12 0 (len - 12) with
    | none => l
    | some (p, n) =>
      if lengthSsid < n then l
      else collectRates ies len (l.copy .bssidSsid 0 (fromByte ies (p + 2)) n)

/-- `bcn_channel` in `rtw_check_bcn_info` (`rtw_wlan_util.c`, lines 1154–1187). -/
def bcnChannel (c : Driver) (ies : Frame) (len : ℕ) : UInt8 :=
  match rtwGetIe ies 12 3 (len - 12) with
  | some (p, _) => ies (p + 2)
  | none =>
    match (rtwGetIe ies 12 61 (len - 12)).filter fun e => 0 < e.2 with
    | some (p, _) => ies (p + 2)
    | none => c.curChannel

/-- The SSID in `rtw_check_bcn_info` (lines 1194–1217), with `SsidLength`. -/
def copySsid (ies : Frame) (len : ℕ) (l : Log Field) : Log Field × ℕ :=
  match rtwGetIe ies 12 0 (len - 12) with
  | none => (l, 0)
  | some (p, n) => (l.copy .bssidSsid 0 (fromByte ies (p + 2)) n, n)

/-- `rtw_check_bcn_info` (lines 1096–1286): the log, and whether the network is as before. -/
def rtwCheckBcnInfo (c : Driver) (m : Frame) (pktLen : ℕ) (l : Log Field) : Log Field × Bool :=
  if pktLen < 24 ∨ maxIeSz < pktLen - 24 then (l, false)
  else if c.curMac ≠ bytes m 16 6 then (l, true)
  else
    let len := pktLen - 24
    let ies := bcnIes c m len
    let l := freshBssid m len l
    if bcnChannel c ies len ≠ c.curChannel then (l, false)
    else
      let (l, ssidLength) := copySsid ies len l
      let ssid := l.load c.old .bssidSsid
      if (bytes ssid 0 32 ≠ c.curSsid ∨ ssidLength ≠ c.curSsidLength) ∧ ssid 0 ≠ 0 ∧ ssidLength ≠ 0
      then (l, false)
      else (l, c.securityMatches)

/-- `switch (pIE->ElementID)` in `update_beacon_info` (lines 1302–1316). -/
def beaconElem (c : Driver) (m : Frame) (s : BeaconState) (i : ℕ) : BeaconState :=
  if m i = 61 then bwmodeUpdateCheck c m s i
  else if m i = 42 then { s with log := erpIeHandler m s.log i }
  else s

/-- `update_beacon_info` (lines 1289–1320). `i` is taken not to wrap. -/
def updateBeaconInfo (c : Driver) (m : Frame) (pktLen : ℕ) (l : Log Field) : Log Field :=
  let bound := 36 + wrapSub pktLen 36
  (visit (beaconElem c m) m bound bound ⟨l, c.curBwmode, c.curChOffset⟩ 36).log

/-- `process_csa_ie` (lines 1323–1349). -/
def processCsaIe (m : Frame) (pktLen : ℕ) (l : Log Field) : Log Field :=
  let bound := 36 + wrapSub pktLen 36
  visit (fun l i => if m i = 37 then l.put .newChNo 0 (m (i + 3)) else l) m bound bound l 36

/-- `update_sta_support_rate` (lines 1963–1988) on the elements of a beacon. -/
def updateStaSupportRate (m : Frame) (pktLen camIdx : ℕ) (l : Log Field) : Log Field :=
  match rtwGetIe m 36 1 (pktLen - 36) with
  | none => l
  | some (p₁, n₁) =>
    let l := l.copy (.fwStaRates camIdx) 0 (fromByte m (p₁ + 2)) n₁
    match rtwGetIe m 36 50 (pktLen - 36) with
    | none => l
    | some (p₂, n₂) => l.copy (.fwStaRates camIdx) n₁ (fromByte m (p₂ + 2)) n₂

/-- `allocate_fw_sta_entry` (lines 613–630), from `IBSS_START_MAC_ID` up to `NUM_STA`. -/
def allocateFwStaEntry (c : Driver) : Option ℕ := (List.range' 2 30).find? fun k => !c.fwStaUsed k

/-- What a beacon is for. -/
inductive BeaconUse where
  | ignored
  | collected
  | associated (sta : Station)
  | peer (sta : Station)
  | newPeer (camIdx : ℕ)
  deriving DecidableEq, Repr

/-- The branches of `OnBeacon` (`rtw_mlme_ext.c`, lines 715–804). -/
def beaconUse (c : Driver) (m : Frame) : BeaconUse :=
  if c.scanProcess then .collected
  else if bytes m 16 6 ≠ c.bssid then .ignored
  else if c.state &&& wifiFwAuthNull ≠ 0 then .collected
  else if c.station ∧ c.state &&& wifiFwAssocSuccess ≠ 0 then
    match c.stainfo (bytes m 10 6) with
    | some sta => .associated sta
    | none => .ignored
  else if c.adhoc then
    match c.stainfo (bytes m 10 6), allocateFwStaEntry c with
    | some sta, _ => .peer sta
    | none, some camIdx => .newPeer camIdx
    | none, none => .ignored
  else .ignored

/-- `OnBeacon` (lines 687–829). -/
def onBeacon (c : Driver) (m : Frame) (pktLen : ℕ) (l : Log Field) : Log Field :=
  match beaconUse c m with
  | .ignored => l
  | .collected => if c.malloc then collectBssInfo c m pktLen l else l
  | .associated sta =>
    let (l, same) := rtwCheckBcnInfo c m pktLen l
    if !same then l
    else
      let l := if sta.rxPkts % 16 = 0 then updateBeaconInfo c m pktLen l else l
      processCsaIe m pktLen l
  | .peer sta => if sta.rxPkts % 16 = 0 then updateBeaconInfo c m pktLen l else l
  | .newPeer camIdx => updateStaSupportRate m pktLen camIdx l

/-- `rtw_check_bcn_info` comes to the SSID. -/
def ChecksSsid (c : Driver) (m : Frame) (pktLen : ℕ) : Prop :=
  24 ≤ pktLen ∧ pktLen - 24 ≤ maxIeSz ∧ c.curMac = bytes m 16 6 ∧
    bcnChannel c (bcnIes c m (pktLen - 24)) (pktLen - 24) = c.curChannel

/-- The SSID that a beacon of the own network is checked for is not longer than the field, and
    the rates of a new peer are not more than 16 in all. -/
def BeaconFits (c : Driver) (m : Frame) (pktLen : ℕ) : Prop :=
  match beaconUse c m with
  | .associated _ => ChecksSsid c m pktLen →
      ∀ e ∈ rtwGetIe (bcnIes c m (pktLen - 24)) 12 0 (pktLen - 24 - 12), e.2 ≤ lengthSsid
  | .newPeer _ => ∀ e ∈ rtwGetIe m 36 1 (pktLen - 36), e.2 + extRates m 36 (pktLen - 36) ≤ 16
  | _ => True

section beacon

variable {c : Driver} {m : Frame} {pktLen len : ℕ} {l : Log Field}

theorem freshBssid_safe (hlen : len ≤ maxIeSz) :
    (freshBssid m len l).Safe Field.size ↔ l.Safe Field.size := by
  have hies : Room Field.size .bssidIes 0 maxIeSz := room_start.mpr (Nat.le_refl _)
  have hssid : Room Field.size .bssidSsid 0 lengthSsid := room_start.mpr (Nat.le_refl _)
  have hrates : Room Field.size .bssidRates 0 lengthRatesEx := room_start.mpr (Nat.le_refl _)
  have hcopy : Room Field.size .bssidIes 0 len := room_start.mpr hlen
  rw [freshBssid, safe_copy, safe_fill, safe_fill, safe_fill, and_iff_left hcopy,
    and_iff_left hies, and_iff_left hssid, and_iff_left hrates]

theorem collectExtRates_safe {ies : Frame} {i : ℕ} (hi : i ≤ lengthRatesEx) :
    (collectExtRates ies len i l).Safe Field.size ↔ l.Safe Field.size := by
  rw [collectExtRates]
  split
  · rfl
  · split_ifs with hn
    · rfl
    · rw [safe_copy]
      exact and_iff_left (room_of_le (by rw [Field.size]; omega))

theorem collectRates_safe {ies : Frame} :
    (collectRates ies len l).Safe Field.size ↔ l.Safe Field.size := by
  rw [collectRates]
  split
  · exact collectExtRates_safe (Nat.zero_le _)
  · split_ifs with hn
    · rfl
    · rw [collectExtRates_safe (Nat.not_lt.mp hn), safe_copy, room_start]
      exact and_iff_left (Nat.not_lt.mp hn)

/-- Both lengths and the sum of the rates are tested. -/
theorem collectBssInfo_safe :
    (collectBssInfo c m pktLen l).Safe Field.size ↔ l.Safe Field.size := by
  rw [collectBssInfo]
  split_ifs with hlen
  · rfl
  · have hfresh : (freshBssid m (pktLen - 24) l).Safe Field.size ↔ l.Safe Field.size :=
      freshBssid_safe (by omega)
    dsimp only
    split
    · exact hfresh
    · split_ifs with hn
      · exact hfresh
      · rw [collectRates_safe, safe_copy, room_start, hfresh]
        exact and_iff_left (Nat.not_lt.mp hn)

theorem copySsid_safe {ies : Frame} : (copySsid ies len l).1.Safe Field.size ↔
    l.Safe Field.size ∧ ∀ e ∈ rtwGetIe ies 12 0 (len - 12), e.2 ≤ lengthSsid := by
  rw [copySsid]
  cases rtwGetIe ies 12 0 (len - 12) with
  | none => exact (and_iff_left nofun).symm
  | some e =>
    rw [safe_copy, room_start]
    exact and_congr_right fun _ => ⟨fun h _ he => Option.some.inj he ▸ h, fun h => h e rfl⟩

/-- The SSID is stored as long as it is. -/
theorem rtwCheckBcnInfo_safe : (rtwCheckBcnInfo c m pktLen l).1.Safe Field.size ↔
    l.Safe Field.size ∧ (ChecksSsid c m pktLen →
      ∀ e ∈ rtwGetIe (bcnIes c m (pktLen - 24)) 12 0 (pktLen - 24 - 12), e.2 ≤ lengthSsid) := by
  rw [rtwCheckBcnInfo]
  by_cases hlen : pktLen < 24 ∨ maxIeSz < pktLen - 24
  · rw [if_pos hlen]
    exact (and_iff_left fun h => by have := h.1; have := h.2.1; omega).symm
  · have hfresh : (freshBssid m (pktLen - 24) l).Safe Field.size ↔ l.Safe Field.size :=
      freshBssid_safe (by omega)
    rw [if_neg hlen]
    by_cases hmac : c.curMac = bytes m 16 6
    · rw [if_neg (not_not.mpr hmac)]
      by_cases hch : bcnChannel c (bcnIes c m (pktLen - 24)) (pktLen - 24) = c.curChannel
      · have hreach : ChecksSsid c m pktLen := ⟨by omega, by omega, hmac, hch⟩
        rw [forall_prop_of_true hreach, ← hfresh, ← copySsid_safe]
        dsimp only
        rw [if_neg (not_not.mpr hch)]
        split_ifs
        · rfl
        · rfl
      · dsimp only
        rw [if_pos hch, hfresh]
        exact (and_iff_left fun h => absurd h.2.2.2 hch).symm
    · rw [if_pos hmac]
      exact (and_iff_left fun h => absurd h.2.2.1 hmac).symm

theorem updateBeaconInfo_safe :
    (updateBeaconInfo c m pktLen l).Safe Field.size ↔ l.Safe Field.size := by
  have hstep (s : BeaconState) (i : ℕ) :
      (beaconElem c m s i).log.Safe Field.size ↔ s.log.Safe Field.size ∧ True := by
    rw [and_true, beaconElem]
    split_ifs
    · exact bwmodeUpdateCheck_safe
    · exact erpIeHandler_safe
    · rfl
  have hvisit (bound : ℕ) (s : BeaconState) :
      (visit (beaconElem c m) m bound bound s 36).log.Safe Field.size ↔ s.log.Safe Field.size :=
    (visit_iff (p := fun s : BeaconState => s.log.Safe Field.size) hstep).trans
      (and_iff_left fun _ _ => trivial)
  exact hvisit _ _

theorem processCsaIe_safe : (processCsaIe m pktLen l).Safe Field.size ↔ l.Safe Field.size := by
  have hstep (l : Log Field) (i : ℕ) :
      Log.Safe Field.size (if m i = 37 then l.put .newChNo 0 (m (i + 3)) else l) ↔
        l.Safe Field.size ∧ True := by
    rw [and_true]
    split_ifs
    · rw [safe_put]
      exact and_iff_left Nat.one_pos
    · rfl
  rw [processCsaIe, visit_iff hstep]
  exact and_iff_left fun _ _ => trivial

/-- The rates are stored as long as both elements are. -/
theorem updateStaSupportRate_safe {camIdx : ℕ} :
    (updateStaSupportRate m pktLen camIdx l).Safe Field.size ↔ l.Safe Field.size ∧
      ∀ e ∈ rtwGetIe m 36 1 (pktLen - 36), e.2 + extRates m 36 (pktLen - 36) ≤ 16 := by
  have h16 : Field.size (.fwStaRates camIdx) = 16 := rfl
  unfold updateStaSupportRate extRates
  split
  · next h₁ =>
    rw [h₁]
    exact (and_iff_left nofun).symm
  · next p₁ n₁ h₁ =>
    have hall (k : ℕ) : (∀ e ∈ some (p₁, n₁), e.2 + k ≤ 16) ↔ n₁ + k ≤ 16 :=
      ⟨fun h => h _ rfl, fun h _ he => Option.some.inj he ▸ h⟩
    rw [h₁, hall]
    split
    · rw [safe_copy, room_start, h16, Nat.add_zero]
    · simp only [safe_copy, Room, h16, and_assoc]
      exact and_congr_right fun _ => by omega

theorem onBeacon_safe (c : Driver) (m : Frame) (pktLen : ℕ) (l : Log Field) :
    (onBeacon c m pktLen l).Safe Field.size ↔ l.Safe Field.size ∧ BeaconFits c m pktLen := by
  have hbeacon (sta : Station) (l : Log Field) :
      Log.Safe Field.size (if sta.rxPkts % 16 = 0 then updateBeaconInfo c m pktLen l else l) ↔
        l.Safe Field.size := by
    split_ifs
    · exact updateBeaconInfo_safe
    · rfl
  rw [onBeacon, BeaconFits]
  cases beaconUse c m with
  | ignored => exact (and_true _).symm.to_iff
  | collected =>
    rw [and_true]
    dsimp only
    split_ifs
    · exact collectBssInfo_safe
    · rfl
  | associated sta =>
    dsimp only
    rw [← rtwCheckBcnInfo_safe]
    split_ifs
    · rfl
    · rw [processCsaIe_safe, updateBeaconInfo_safe]
    · rw [processCsaIe_safe]
  | peer sta => rw [and_true]; exact hbeacon sta l
  | newPeer camIdx => exact updateStaSupportRate_safe

end beacon

/-! ## All handlers -/

/-- The handlers of the four kinds of frames. -/
inductive RxHandler where
  | onAuthClient
  | onAssocReq
  | onAssocRsp
  | onBeacon
  deriving DecidableEq, Repr

/-- What a handler stores for a frame. -/
def RxHandler.run (h : RxHandler) (c : Driver) (m : Frame) (pktLen : ℕ) : Log Field :=
  match h with
  | .onAuthClient => ElemCopy.onAuthClient c m pktLen []
  | .onAssocReq => ElemCopy.onAssocReq c m pktLen []
  | .onAssocRsp => ElemCopy.onAssocRsp c m pktLen []
  | .onBeacon => ElemCopy.onBeacon c m pktLen []

/-- The elements that are copied without a test of their lengths are not too long. -/
def RxHandler.Fits (h : RxHandler) (c : Driver) (m : Frame) (pktLen : ℕ) : Prop :=
  match h with
  | .onAuthClient => AuthClientFits c m pktLen
  | .onAssocReq => AssocReqFits c m pktLen
  | .onAssocRsp => AssocRspFits c m pktLen
  | .onBeacon => BeaconFits c m pktLen

theorem run_safe_iff (h : RxHandler) (c : Driver) (m : Frame) (pktLen : ℕ) :
    (h.run c m pktLen).Safe Field.size ↔ h.Fits c m pktLen := by
  cases h with
  | onAuthClient => exact (onAuthClient_safe c m pktLen []).trans (and_iff_right safe_nil)
  | onAssocReq => exact (onAssocReq_safe c m pktLen []).trans (and_iff_right safe_nil)
  | onAssocRsp => exact (onAssocRsp_safe c m pktLen []).trans (and_iff_right safe_nil)
  | onBeacon => exact (onBeacon_safe c m pktLen []).trans (and_iff_right safe_nil)

/-- A station that waits for its association response. -/
def waitingDriver : Driver where
  macAddr := List.replicate 6 2
  state := wifiFwAuthSuccess ||| 2
  sharedAuth := false
  scanProcess := false
  htOption := true
  vhtOption := false
  qosOption := true
  rfType := .rf1T1R
  curChannel := 1
  curBwmode := 0
  curChOffset := 0
  bssid := List.replicate 6 4
  ssid := []
  curMac := []
  curSsid := []
  curSsidLength := 0
  stainfo _ := none
  fwStaUsed _ := false
  malloc := true
  wpaPsk := 0
  wpaParses _ := false
  wpsUnready := false
  securityMatches := true
  old _ _ := 0

/-- An association response with HT capabilities of 27 bytes. -/
def longCapsResponse : List UInt8 :=
  [0x10, 0, 0, 0] ++ List.replicate 6 2 ++ List.replicate 12 4 ++ [0, 0] ++ [1, 0, 0, 0, 1, 0xc0] ++
    [45, 27] ++ List.replicate 27 0xff

/-- A handler whose frame fits leaves the memory behind every field as it was. -/
theorem behind_unchanged {h : RxHandler} {c : Driver} {m : Frame} {pktLen : ℕ}
    (hfits : h.Fits c m pktLen) (d : Field) {i : ℕ} (hi : d.size ≤ i) :
    (h.run c m pktLen).load c.old d i = c.old d i :=
  load_of_safe ((run_safe_iff h c m pktLen).mpr hfits) hi

end Rtl8821au.Mlme.ElemCopy
