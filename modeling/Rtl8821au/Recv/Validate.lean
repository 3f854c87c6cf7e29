import Rtl8821au.Priv

/-!
# Validation of received frames

`validate_recv_frame` and `validate_recv_data_frame` (`rtw_recv.c`): the 802.11
header is parsed into `struct rx_pkt_attrib`, the addresses are checked against the
mode of the interface, duplicates are dropped, and the cipher is chosen.

Results:
* `validateRecvDataFrame_success`: what an accepted frame carries.
* `parseQosControl_hdrlen`: the length of its header.
-/

namespace Rtl8821au.Recv

/-! ## Header -/

/-- A little-endian 16-bit word of the frame. -/
def RecvFrame.le16At (f : RecvFrame) (k : ℕ) : ℕ :=
  (f.byteAt k).toNat + 256 * (f.byteAt (k + 1)).toNat

/-- Six bytes of the frame as an address. -/
def RecvFrame.macAt (f : RecvFrame) (k : ℕ) : MacAddr := Vector.ofFn fun i => f.byteAt (k + i)

/-- `enum WIFI_FRAME_TYPE` (`wifi.h`, lines 62–67). -/
inductive WifiFrameType where
  | mgt
  | ctrl
  | data
  | reserved
  deriving DecidableEq, Repr

section header

variable (ptr : RecvFrame)

/-- `GetFrameType` (`wifi.h`, line 344). -/
def getFrameType : WifiFrameType :=
  match ptr.le16At 0 &&& 0x0C with
  | 0 => .mgt
  | 4 => .ctrl
  | 8 => .data
  | _ => .reserved

/-- `GetFrameSubType` (line 352). -/
def getFrameSubType : ℕ := ptr.le16At 0 &&& 0xFC

/-- `GetToDs` (line 259). -/
def getToDs : Bool := (ptr.le16At 0).testBit 8

/-- `GetFrDs` (line 271). -/
def getFrDs : Bool := (ptr.le16At 0).testBit 9

/-- `get_tofr_ds` (line 278). -/
def getTofrDs : ℕ := 2 * (getToDs ptr).toNat + (getFrDs ptr).toNat

/-- `GetMFrag` (line 286). -/
def getMFrag : ℕ := ((ptr.le16At 0).testBit 10).toNat

/-- `GetPwrMgt` (line 310). -/
def getPwrMgt : Bool := (ptr.le16At 0).testBit 12

/-- `GetPrivacy` (line 334). -/
def getPrivacy : Bool := (ptr.le16At 0).testBit 14

/-- `GetOrder` (line 342). -/
def getOrder : ℕ := ((ptr.le16At 0).testBit 15).toNat

/-- `GetSequence` (line 360). -/
def getSequence : ℕ := ptr.le16At 22 >>> 4

/-- `GetFragNum` (line 362). -/
def getFragNum : ℕ := ptr.le16At 22 &&& 0x0F

/-- `GetPriority(ptr + 24)` (line 391). -/
def getPriority : ℕ := ptr.le16At 24 &&& 0x0F

/-- `GetAckpolicy(ptr + 24)` (line 403). -/
def getAckpolicy : ℕ := (ptr.le16At 24 >>> 5) &&& 3

/-- `GetAMsdu(ptr + 24)` (line 405). -/
def getAMsdu : ℕ := ((ptr.le16At 24).testBit 7).toNat

/-- `GetAddr1Ptr` … `GetAddr4Ptr` (lines 416–422). -/
def getAddr1 : MacAddr := ptr.macAt 4

def getAddr2 : MacAddr := ptr.macAt 10

def getAddr3 : MacAddr := ptr.macAt 16

def getAddr4 : MacAddr := ptr.macAt 24

/-- `get_da` (lines 431–452). -/
def getDa : MacAddr :=
  match getTofrDs ptr with
  | 0 => getAddr1 ptr
  | 1 => getAddr1 ptr
  | 2 => getAddr3 ptr
  | _ => getAddr3 ptr

/-- `get_sa` (lines 455–476). -/
def getSa : MacAddr :=
  match getTofrDs ptr with
  | 0 => getAddr2 ptr
  | 1 => getAddr3 ptr
  | 2 => getAddr2 ptr
  | _ => getAddr4 ptr

/-- `get_hdr_bssid` (lines 478–502); two bits leave no case for `NULL`. -/
def getHdrBssid : MacAddr :=
  match getTofrDs ptr with
  | 0 => getAddr3 ptr
  | 1 => getAddr2 ptr
  | _ => getAddr1 ptr

end header

/-! ## Model of the C code -/

/-- The address of six zero bytes. -/
def zeroAddr : MacAddr := Vector.replicate 6 0

/-- What the address checks do besides their verdict. -/
inductive RxEffect where
  /-- `issue_deauth`, reason 7. -/
  | issueDeauth (da : MacAddr)
  /-- `process_pwrbit_data`: `stop_sta_xmit` or `wakeup_sta_to_xmit`. -/
  | processPwrbitData (psta : ℕ) (pwrbit : Bool)
  /-- `process_wmmps_data`: `xmit_delivery_enabled_frames` or a QoS null frame. -/
  | processWmmpsData (psta : ℕ) (priority : ℕ)
  deriving DecidableEq, Repr

/-- The return value of an address check, the station it found, and its
    effects. -/
structure DataFrameResult where
  status : Status
  psta : Option ℕ := none
  effects : List RxEffect := []
  deriving DecidableEq, Repr

/-- A station or `_FAIL` (lines 898–906). -/
def foundSta (psta : Option ℕ) : DataFrameResult :=
  { status := if psta.isSome then .success else .fail, psta := psta }

/-- `sta2sta_data_frame` (lines 814–916). -/
def sta2staDataFrame (priv : RtlPriv) (f : RecvFrame) : DataFrameResult :=
  let pattrib := f.attrib
  let bmcast := isMulticast pattrib.dst
  let found (staAddr : MacAddr) :=
    foundSta (if bmcast then some priv.bcmc else priv.rtwGetStainfo staAddr)
  if priv.fwState.adhoc || priv.fwState.adhocMaster then
    if priv.myhwaddr = pattrib.src then { status := .fail }
    else if priv.myhwaddr ≠ pattrib.dst ∧ bmcast = false then { status := .fail }
    else if pattrib.bssid = zeroAddr ∨ priv.mybssid = zeroAddr ∨ pattrib.bssid ≠ priv.mybssid then
      { status := .fail }
    else found pattrib.src
  else if priv.fwState.station then
    if pattrib.bssid ≠ pattrib.src then { status := .fail }
    else found pattrib.bssid
  else if priv.fwState.ap then
    if bmcast then
      if isMulticast pattrib.bssid then found zeroAddr else { status := .fail }
    else if pattrib.bssid ≠ pattrib.dst then { status := .fail }
    else found pattrib.src
  else { status := .fail }

/-- `GetFrameSubType(ptr) & BIT(6)`: a frame without data. -/
def isNullData (f : RecvFrame) : Bool := (getFrameSubType f).testBit 6

/-- `(GetFrameSubType(ptr) & WIFI_QOS_DATA_TYPE) == WIFI_QOS_DATA_TYPE`. -/
def isQosData (f : RecvFrame) : Bool := getFrameSubType f &&& 0x88 == 0x88

/-- `ap2sta_data_frame` (lines 918–1034). -/
def ap2staDataFrame (priv : RtlPriv) (f : RecvFrame) : DataFrameResult :=
  let pattrib := f.attrib
  let bmcast := isMulticast pattrib.dst
  if priv.fwState.station && (priv.fwState.linked || priv.fwState.underLinking) then
    if priv.myhwaddr = pattrib.src then { status := .fail }
    else if priv.myhwaddr ≠ pattrib.dst ∧ bmcast = false then { status := .fail }
    else if pattrib.bssid = zeroAddr ∨ priv.mybssid = zeroAddr ∨ pattrib.bssid ≠ priv.mybssid then
      { status := .fail, effects := if bmcast then [] else [.issueDeauth pattrib.bssid] }
    else
      match if bmcast then some priv.bcmc else priv.rtwGetStainfo pattrib.bssid with
      | none => { status := .fail }
      | some psta =>
        { status := if isNullData f then .rxHandled else .success, psta := some psta }
  else if priv.fwState.ap then { status := .rxHandled }
  else
    { status := .fail
      effects :=
        if priv.myhwaddr = pattrib.dst ∧ bmcast = false ∧ priv.rtwGetStainfo pattrib.bssid = none then
          [.issueDeauth pattrib.bssid]
        else [] }

/-- `sta2ap_data_frame` (lines 1037–1106). -/
def sta2apDataFrame (priv : RtlPriv) (f : RecvFrame) : DataFrameResult :=
  let pattrib := f.attrib
  if priv.fwState.ap then
    if pattrib.bssid ≠ priv.mybssid then { status := .fail }
    else
      match priv.rtwGetStainfo pattrib.src with
      | none => { status := .rxHandled, effects := [.issueDeauth pattrib.src] }
      | some psta =>
        { status := if isNullData f then .rxHandled else .success, psta := some psta
          effects := .processPwrbitData psta (getPwrMgt f) ::
            if isQosData f then [.processWmmpsData psta pattrib.priority] else [] }
  else if pattrib.ra ≠ priv.myhwaddr then { status := .rxHandled }
  else { status := .rxHandled, effects := [.issueDeauth pattrib.src] }

/-- `recv_decache` (lines 643–665) on `tid_rxseq` of one station. -/
def recvDecache (attrib : RxPktAttrib) (tidRxseq : ℕ → ℕ) : Option (ℕ → ℕ) :=
  let tid := attrib.priority
  let seqCtrl := (attrib.seqNum * 16 + attrib.fragNum % 16) % 65536
  if tid > 15 then none
  else if seqCtrl = tidRxseq tid then none
  else some (Function.update tidRxseq tid seqCtrl)

/-- `SET_ICE_IV_LEN` (lines 203–225): `iv_len` and `icv_len`. -/
def setIceIvLen : Encryption → ℕ × ℕ
  | .wep40 | .wep104 => (4, 4)
  | .tkip => (8, 4)
  | .aes => (8, 8)
  | .noPrivacy | .reserved | .cmac => (0, 0)

/-- The `switch` over `to_fr_ds` (lines 1325–1355): the addresses. -/
def setAddresses (f : RecvFrame) : RxPktAttrib :=
  let pda := getDa f
  let psa := getSa f
  let pbssid := getHdrBssid f
  let (ra, ta) :=
    match f.attrib.toFrDs with
    | 0 => (pda, psa)
    | 1 => (pda, pbssid)
    | 2 => (pbssid, psa)
    | _ => (getAddr1 f, getAddr2 f)
  { f.attrib with dst := pda, src := psa, bssid := pbssid, ra := ra, ta := ta }

/-- The QoS control field and the header length (lines 1379–1401). -/
def parseQosControl (f : RecvFrame) : RxPktAttrib :=
  let pattrib :=
    if f.attrib.qos = 1 then
      { f.attrib with
        priority := getPriority f, ackPolicy := getAckpolicy f, amsdu := getAMsdu f
        hdrlen := if f.attrib.toFrDs = 3 then 32 else 26 }
    else
      { f.attrib with
        priority := 0, ackPolicy := 0, amsdu := 0
        hdrlen := if f.attrib.toFrDs = 3 then 30 else 24 }
  if pattrib.order ≠ 0 then { pattrib with hdrlen := pattrib.hdrlen + 4 } else pattrib

/-- The cipher (lines 1411–1420). -/
def setSecurity (priv : RtlPriv) (psta : ℕ) (pattrib : RxPktAttrib) : RxPktAttrib :=
  if pattrib.privacy then
    let encrypt := priv.getEncryAlgo psta (isMulticast pattrib.ra)
    { pattrib with
      encrypt := encrypt, ivLen := (setIceIvLen encrypt).1, icvLen := (setIceIvLen encrypt).2 }
  else { pattrib with encrypt := .noPrivacy, ivLen := 0, icvLen := 0 }

/-- A frame with other attributes. -/
def RecvFrame.setAttrib (f : RecvFrame) (attrib : RxPktAttrib) : RecvFrame :=
  { f with attrib := attrib }

/-- What validation returns and leaves behind. -/
structure ValidateResult where
  status : Status
  frame : RecvFrame
  tidRxseq : ℕ → ℕ → ℕ
  effects : List RxEffect := []

/-- The address check of `validate_recv_data_frame` (lines 1325–1355). -/
def dataFrameCheck (priv : RtlPriv) (f : RecvFrame) : DataFrameResult :=
  match f.attrib.toFrDs with
  | 0 => sta2staDataFrame priv f
  | 1 => ap2staDataFrame priv f
  | 2 => sta2apDataFrame priv f
  | _ => { status := .fail }

/-- `validate_recv_data_frame` (lines 1298–1425). -/
def validateRecvDataFrame (priv : RtlPriv) (tidRxseq : ℕ → ℕ → ℕ) (f : RecvFrame) : ValidateResult :=
  let f := f.setAttrib (setAddresses f)
  let r := dataFrameCheck priv f
  match r.status, r.psta with
  | .success, some psta =>
    let f := { f.setAttrib (parseQosControl f) with psta := psta }
    match recvDecache f.attrib (tidRxseq psta) with
    | none => { status := .fail, frame := f, tidRxseq := tidRxseq, effects := r.effects }
    | some rxcache =>
      { status := .success, frame := f.setAttrib (setSecurity priv psta f.attrib)
        tidRxseq := Function.update tidRxseq psta rxcache, effects := r.effects }
  | .success, none => { status := .fail, frame := f, tidRxseq := tidRxseq, effects := r.effects }
  | status, _ => { status := status, frame := f, tidRxseq := tidRxseq, effects := r.effects }

/-- Lines 1438–1455: `ver` is the low two bits. -/
def frameVersion (f : RecvFrame) : ℕ := f.le16At 0 &&& 3

/-- The header fields that `validate_recv_frame` parses (lines 1457–1470). -/
def parseHeader (f : RecvFrame) : RxPktAttrib :=
  { f.attrib with
    toFrDs := getTofrDs f, fragNum := getFragNum f, seqNum := getSequence f
    mfrag := getMFrag f, privacy := getPrivacy f, order := getOrder f }

/-- `pattrib->qos = (subtype & BIT(7)) ? 1 : 0` (line 1488). -/
def parseQos (f : RecvFrame) : RxPktAttrib :=
  { f.attrib with qos := ((getFrameSubType f).testBit 7).toNat }

/-- What `validate_recv_frame` does with a data frame (lines 1457–1489). -/
def validateData (priv : RtlPriv) (tidRxseq : ℕ → ℕ → ℕ) (f : RecvFrame) : ValidateResult :=
  let f := f.setAttrib (parseHeader f)
  validateRecvDataFrame priv tidRxseq (f.setAttrib (parseQos f))

/-! ## Accepted frames -/

section setAttrib

variable (f : RecvFrame) (attrib : RxPktAttrib)

@[simp] theorem setAttrib_attrib : (f.setAttrib attrib).attrib = attrib := rfl

@[simp] theorem setAttrib_addr : (f.setAttrib attrib).addr = f.addr := rfl

@[simp] theorem setAttrib_skb : (f.setAttrib attrib).skb = f.skb := rfl

@[simp] theorem getFrameSubType_setAttrib :
    getFrameSubType (f.setAttrib attrib) = getFrameSubType f := rfl

end setAttrib

theorem dataFrameCheck_toFrDs {priv : RtlPriv} {f : RecvFrame}
    (h : (dataFrameCheck priv f).status = .success) : f.attrib.toFrDs ≠ 3 := by
  intro h3
  rw [dataFrameCheck, h3] at h
  cases h

/-- An accepted frame carries the attributes that the last three steps parse. -/
theorem validateRecvDataFrame_success {priv : RtlPriv} {tidRxseq : ℕ → ℕ → ℕ} {f : RecvFrame}
    (h : (validateRecvDataFrame priv tidRxseq f).status = .success) :
    ∃ psta, (dataFrameCheck priv (f.setAttrib (setAddresses f))).status = .success ∧
      (dataFrameCheck priv (f.setAttrib (setAddresses f))).psta = some psta ∧
      (validateRecvDataFrame priv tidRxseq f).frame =
        { f.setAttrib (setSecurity priv psta (parseQosControl (f.setAttrib (setAddresses f))))
          with psta := psta } := by
  rw [validateRecvDataFrame] at h ⊢
  dsimp only at h ⊢
  generalize dataFrameCheck priv (f.setAttrib (setAddresses f)) = r at h ⊢
  obtain ⟨status, psta, effects⟩ := r
  cases status with
  | success =>
    cases psta with
    | none => exact absurd h (by simp)
    | some psta =>
      dsimp only at h ⊢
      refine ⟨psta, rfl, rfl, ?_⟩
      split at h
      · exact absurd h (by simp)
      · rfl
  | fail => exact absurd h (by simp)
  | rxHandled => exact absurd h (by simp)

/-- Accepted or not, the address check has done its work. -/
theorem validateRecvDataFrame_effects (priv : RtlPriv) (tidRxseq : ℕ → ℕ → ℕ) (f : RecvFrame) :
    (validateRecvDataFrame priv tidRxseq f).effects =
      (dataFrameCheck priv (f.setAttrib (setAddresses f))).effects := by
  unfold validateRecvDataFrame
  dsimp only
  split
  · split <;> rfl
  · rfl
  · rfl

/-- Only the cipher is set. -/
theorem setSecurity_eq (priv : RtlPriv) (psta : ℕ) (a : RxPktAttrib) :
    ∃ encrypt, setSecurity priv psta a =
      { a with encrypt := encrypt, ivLen := (setIceIvLen encrypt).1
               icvLen := (setIceIvLen encrypt).2 } := by
  unfold setSecurity
  split
  · exact ⟨_, rfl⟩
  · exact ⟨.noPrivacy, rfl⟩

@[simp] theorem setSecurity_ta (priv : RtlPriv) (psta : ℕ) (a : RxPktAttrib) :
    (setSecurity priv psta a).ta = a.ta := by
  obtain ⟨encrypt, h⟩ := setSecurity_eq priv psta a
  rw [h]

@[simp] theorem setSecurity_priority (priv : RtlPriv) (psta : ℕ) (a : RxPktAttrib) :
    (setSecurity priv psta a).priority = a.priority := by
  obtain ⟨encrypt, h⟩ := setSecurity_eq priv psta a
  rw [h]

@[simp] theorem setSecurity_hdrlen (priv : RtlPriv) (psta : ℕ) (a : RxPktAttrib) :
    (setSecurity priv psta a).hdrlen = a.hdrlen := by unfold setSecurity; split <;> rfl

@[simp] theorem setSecurity_qos (priv : RtlPriv) (psta : ℕ) (a : RxPktAttrib) :
    (setSecurity priv psta a).qos = a.qos := by unfold setSecurity; split <;> rfl

@[simp] theorem setSecurity_order (priv : RtlPriv) (psta : ℕ) (a : RxPktAttrib) :
    (setSecurity priv psta a).order = a.order := by unfold setSecurity; split <;> rfl

theorem setSecurity_ivLen (priv : RtlPriv) (psta : ℕ) (a : RxPktAttrib) :
    (setSecurity priv psta a).ivLen = (setIceIvLen (setSecurity priv psta a).encrypt).1 := by
  unfold setSecurity
  split <;> rfl

@[simp] theorem parseQosControl_qos (f : RecvFrame) : (parseQosControl f).qos = f.attrib.qos := by
  unfold parseQosControl
  dsimp only
  split_ifs <;> rfl

@[simp] theorem parseQosControl_order (f : RecvFrame) :
    (parseQosControl f).order = f.attrib.order := by
  unfold parseQosControl
  dsimp only
  split_ifs <;> rfl

@[simp] theorem parseQosControl_ta (f : RecvFrame) : (parseQosControl f).ta = f.attrib.ta := by
  unfold parseQosControl
  dsimp only
  split_ifs <;> rfl

/-- A frame without a QoS field has priority zero. -/
theorem parseQosControl_priority (f : RecvFrame) :
    (parseQosControl f).priority = if f.attrib.qos = 1 then getPriority f else 0 := by
  unfold parseQosControl
  dsimp only
  split_ifs <;> rfl

theorem parseQosControl_priority_lt (f : RecvFrame) : (parseQosControl f).priority < 16 := by
  rw [parseQosControl_priority]
  split_ifs
  · exact Nat.lt_succ_of_le Nat.and_le_right
  · exact Nat.zero_lt_succ 15

theorem parseQosControl_hdrlen {f : RecvFrame} (h : f.attrib.toFrDs ≠ 3) :
    (parseQosControl f).hdrlen =
      (if f.attrib.qos = 1 then 26 else 24) + (if f.attrib.order ≠ 0 then 4 else 0) := by
  unfold parseQosControl
  rw [if_neg h, if_neg h]
  dsimp only
  split_ifs <;> rfl

end Rtl8821au.Recv
