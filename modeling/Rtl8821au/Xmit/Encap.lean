import Rtl8821au.Recv.Reorder
import Rtl8821au.Recv.Validate
import Rtl8821au.Xmit.Attrib

/-!
# The 802.11 header of a packet

`update_attrib` and `rtw_make_wlanhdr` (`rtw_xmit.c`) put an Ethernet frame under an 802.11
header; `validate_recv_data_frame` and `wlanhdr_to_ethhdr` (`rtw_recv.c`) take it off again.

`update_attrib` also notices DHCP packets and wakes the interface for them; it chooses rates and
bandwidth. Both are left out.

* `makeWlanhdr_success`: the fields of the header.
* `decap_encap`: the receiver gets the Ethernet frame of the sender.
-/

namespace Rtl8821au.Xmit

open Buffer
open Recv (Bytes MacAddr Encryption Status isMulticast RecvFrame ethHlen snapSize)

/-! ## `update_attrib` -/

/-- `struct tx_pkt_attrib` with what the header needs besides. -/
structure TxHdrAttrib extends TxPktAttrib where
  ackPolicy : ℕ := 0
  htEn : Bool := false
  ampduEn : Bool := false

/-- `WIFI_DATA_TYPE` and `WIFI_QOS_DATA_TYPE` (`wifi.h`). -/
def wifiDataType : ℕ := 0x08

def wifiQosDataType : ℕ := 0x88

/-- An address in the Ethernet header. -/
def ethAddr (skb : Skb) (off : ℕ) : MacAddr := Vector.ofFn fun i => skb.data.getD (off + i) 0

/-- `ntohs(etherhdr->h_proto)`. -/
def hProto (skb : Skb) : ℕ := Recv.be16 (skb.data.getD 12 0) (skb.data.getD 13 0)

/-- `set_qos` (lines 94–115); `tos` is the second byte of the IP header. -/
def setQos (skb : Skb) (a : TxHdrAttrib) : TxHdrAttrib :=
  { a with
    txPriority :=
      if a.etherType = 0x0800 then (skb.data.getD (ethHlen + 1) 0).toNat / 32
      else if a.etherType = eapolType then 7
      else 0
    hdrlen := 26
    subtype := wifiQosDataType }

/-- `qos_acm` (lines 696–727). -/
def qosAcm (acmMask priority : ℕ) : ℕ :=
  match priority with
  | 0 | 3 => if acmMask.testBit 1 then 1 else priority
  | 4 | 5 => if acmMask.testBit 2 then 0 else priority
  | 6 | 7 => if acmMask.testBit 3 then 5 else priority
  | _ => priority

/-- The addresses and the length (lines 738–763). -/
def setAddrs (priv : RtlPriv) (skb : Skb) (a : TxHdrAttrib) : TxHdrAttrib :=
  let dst := ethAddr skb 0
  let src := ethAddr skb 6
  let (ra, ta) :=
    if priv.fwState.adhoc || priv.fwState.adhocMaster then (dst, src)
    else if priv.fwState.station then (priv.mybssid, src)
    else if priv.fwState.ap then (dst, priv.mybssid)
    else (a.ra, a.ta)
  { a with
    etherType := hProto skb, dst := dst, src := src, ra := ra, ta := ta
    pktlen := skb.data.length - ethHlen }

/-- The header length and the priority (lines 842–866). -/
def setHdrlen (priv : RtlPriv) (acmMask : ℕ) (skb : Skb) (a : TxHdrAttrib) : TxHdrAttrib :=
  let a := { a with
    ackPolicy := 0, pktHdrlen := ethHlen, hdrlen := 24, subtype := wifiDataType, txPriority := 0 }
  if priv.fwState.ap || priv.fwState.adhoc || priv.fwState.adhocMaster then
    if a.qosEn then setQos skb a else a
  else if priv.qosOption then
    let a := setQos skb a
    if acmMask ≠ 0 then { a with txPriority := qosAcm acmMask a.txPriority } else a
  else a

/-- `update_attrib` (lines 723–882): the attributes and the packet number of the station; `htEn`
    is `htpriv.ht_option` and `txpn` the packet number of a station. -/
def updateAttribPacket (priv : RtlPriv) (acmMask : ℕ) (htEn : ℕ → Bool) (txpn : ℕ → ℕ) (skb : Skb)
    (a : TxHdrAttrib) : Option (TxHdrAttrib × ℕ) :=
  let a := setAddrs priv skb a
  let psta := if isMulticast a.ra then some priv.bcmc else priv.rtwGetStainfo a.ra
  match psta with
  | none => none
  | some psta =>
    if (priv.sta psta).linked = false then none
    else
      let r := updateAttribSecInfo priv psta (txpn psta) a.toTxPktAttrib
      if r.status = .fail then none
      else
        -- `update_attrib_phy_info`
        let a : TxHdrAttrib := { a with
          toTxPktAttrib := { r.attrib with
            mdata := false, eosp := false, qosEn := (priv.sta psta).qosOption, psta := psta }
          htEn := htEn psta
          ampduEn := false }
        let a := setHdrlen priv acmMask skb a
        let bswenc := a.encrypt != .noPrivacy && (priv.swEncrypt || !priv.hwDecrypted)
        some ({ a with bswenc := bswenc }, r.txpn)

/-! ## `rtw_make_wlanhdr` -/

/-- A little-endian 16-bit word of a buffer. -/
def getLe16 (buf : Bytes) (off : ℕ) : ℕ :=
  (buf.getD off 0).toNat + 256 * (buf.getD (off + 1) 0).toNat

def setLe16 (buf : Bytes) (off v : ℕ) : Bytes :=
  overwrite buf off [UInt8.ofNat v, UInt8.ofNat (v / 256)]

/-- `*(unsigned short *)(buf + off) |= v`. -/
def orLe16 (buf : Bytes) (off v : ℕ) : Bytes := setLe16 buf off (getLe16 buf off ||| v)

/-- `SetFrameSubType` (`wifi.h`, lines 354–358). -/
def setFrameSubType (pbuf : Bytes) (type : ℕ) : Bytes :=
  orLe16 (setLe16 pbuf 0 (getLe16 pbuf 0 &&& 0xff03)) 0 type

/-- `SetToDs` (line 254), `SetFrDs` (line 266), `SetMData` (line 317) and `SetPrivacy`
    (line 329). -/
def setToDs (pbuf : Bytes) : Bytes := orLe16 pbuf 0 0x0100

def setFrDs (pbuf : Bytes) : Bytes := orLe16 pbuf 0 0x0200

def setMData (pbuf : Bytes) : Bytes := orLe16 pbuf 0 0x2000

def setPrivacy (pbuf : Bytes) : Bytes := orLe16 pbuf 0 0x4000

/-- `SetMFrag` (line 281) and `ClearMFrag` (line 288). -/
def setMFrag (pbuf : Bytes) : Bytes := orLe16 pbuf 0 0x0400

def clearMFrag (pbuf : Bytes) : Bytes := setLe16 pbuf 0 (getLe16 pbuf 0 &&& 0xfbff)

/-- `SetSeqNum` (lines 373–378). -/
def setSeqNum (pbuf : Bytes) (num : ℕ) : Bytes :=
  setLe16 pbuf 22 ((getLe16 pbuf 22 &&& 0x000f) ||| (0xfff0 &&& num <<< 4))

/-- `SetPriority` (line 386), `SetEOSP` (line 393) and `SetAckpolicy` (line 398). -/
def setPriority (qc : ℕ) (pbuf : Bytes) (tid : ℕ) : Bytes := orLe16 pbuf qc (tid &&& 0xf)

def setEOSP (qc : ℕ) (pbuf : Bytes) (eosp : Bool) : Bytes := orLe16 pbuf qc (eosp.toNat <<< 4)

def setAckpolicy (qc : ℕ) (pbuf : Bytes) (ack : ℕ) : Bytes := orLe16 pbuf qc ((ack &&& 3) <<< 5)

/-- `WLANHDR_OFFSET` (`rtw_xmit.h`, line 207). -/
def wlanhdrOffset : ℕ := 64

/-- What a station keeps to number its packets. -/
structure StaTxSeq where
  txseqTid : ℕ → ℕ := fun _ => 0
  baStartingSeqctrl : ℕ → ℕ := fun _ => 0
  ampduEnable : Bool := false
  aggEnableBitmap : ℕ := 0

/-- The return value, the header, the attributes and the counters of the station. -/
structure WlanhdrResult where
  status : Status
  hdr : Bytes
  attrib : TxHdrAttrib
  seq : StaTxSeq

/-- The DS bits and the three addresses (lines 1087–1124), and `qos_option`. -/
def setDs (priv : RtlPriv) (a : TxHdrAttrib) (hdr : Bytes) : Option (Bytes × Bool) :=
  let addrs (hdr : Bytes) (addr1 addr2 addr3 : MacAddr) : Bytes :=
    overwrite (overwrite (overwrite hdr 4 addr1.toList) 10 addr2.toList) 16 addr3.toList
  if priv.fwState.station then
    some (addrs (setToDs hdr) priv.mybssid a.src a.dst, priv.qosOption)
  else if priv.fwState.ap then some (addrs (setFrDs hdr) a.dst priv.mybssid a.src, a.qosEn)
  else if priv.fwState.adhoc || priv.fwState.adhocMaster then
    some (addrs hdr a.dst a.src priv.mybssid, a.qosEn)
  else none

/-- The QoS control field (lines 1132–1141). -/
def setQosControl (a : TxHdrAttrib) (hdr : Bytes) : Bytes :=
  let qc := a.hdrlen.toNat - 2
  let hdr := if a.txPriority ≠ 0 then setPriority qc hdr a.txPriority else hdr
  setAckpolicy qc (setEOSP qc hdr a.eosp) a.ackPolicy

/-- The flags and the QoS control field (lines 1126–1141). -/
def setFlags (a : TxHdrAttrib) (qosOption : Bool) (hdr : Bytes) : Bytes :=
  let hdr := if a.mdata then setMData hdr else hdr
  let hdr := if a.encrypt ≠ .noPrivacy then setPrivacy hdr else hdr
  if qosOption then setQosControl a hdr else hdr

/-- The sequence number and the aggregation of a packet (lines 1164–1198). -/
def numberPacket (a : TxHdrAttrib) (seq : StaTxSeq) : TxHdrAttrib × StaTxSeq :=
  let tid := a.txPriority
  let seqnum := (seq.txseqTid tid + 1) % 2 ^ 16 &&& 0xfff
  let seq := { seq with txseqTid := Function.update seq.txseqTid tid seqnum }
  let ampduEn :=
    if a.htEn && seq.ampduEnable && seq.aggEnableBitmap.testBit tid then true else a.ampduEn
  if ampduEn then
    let txSeq := seq.baStartingSeqctrl (tid &&& 0xf)
    if Recv.snLess seqnum txSeq then ({ a with seqnum := seqnum, ampduEn := false }, seq)
    else
      ({ a with seqnum := seqnum, ampduEn := true },
        { seq with baStartingSeqctrl :=
            Function.update seq.baStartingSeqctrl (tid &&& 0xf) ((seqnum + 1) &&& 0xfff) })
  else ({ a with seqnum := seqnum, ampduEn := false }, seq)

/-- `rtw_make_wlanhdr` (lines 1047–1211). -/
def rtwMakeWlanhdr (priv : RtlPriv) (seq : StaTxSeq) (a : TxHdrAttrib) : WlanhdrResult :=
  let hdr := setFrameSubType (List.replicate wlanhdrOffset 0) a.subtype
  if a.subtype &&& wifiDataType ≠ 0 then
    match setDs priv a hdr with
    | none => { status := .fail, hdr := hdr, attrib := a, seq := seq }
    | some (hdr, qosOption) =>
      let hdr := setFlags a qosOption hdr
      match priv.rtwGetStainfo a.ra with
      | none => { status := .fail, hdr := hdr, attrib := a, seq := seq }
      | some psta =>
        if a.psta ≠ psta then { status := .fail, hdr := hdr, attrib := a, seq := seq }
        else if (priv.sta psta).linked = false then
          { status := .fail, hdr := hdr, attrib := a, seq := seq }
        else
          let (a, seq) := numberPacket a seq
          { status := .success, hdr := setSeqNum hdr a.seqnum, attrib := a, seq := seq }
  else { status := .success, hdr := hdr, attrib := a, seq := seq }

/-- The header of a fragment: `SetMFrag`, and `ClearMFrag` in the last one (lines 1350 and
    1398). -/
def fragHdr (hdr : Bytes) (mfrag : Bool) : Bytes :=
  if mfrag then setMFrag hdr else clearMFrag (setMFrag hdr)

/-- `rtw_xmitframe_coalesce` (lines 1311–1428): the header and the fragments. -/
def xmitframeCoalesce (priv : RtlPriv) (seq : StaTxSeq) (a : TxHdrAttrib) (fragLen : UInt32)
    (bufAddr : ℤ) (pktOffset : ℕ) (skb : Skb) : Option (Bytes × Coalesced) :=
  let w := rtwMakeWlanhdr priv seq a
  if w.status = .fail then none
  else
    (rtwXmitframeCoalesce w.attrib.toTxAttrib fragLen bufAddr pktOffset skb).map fun r => (w.hdr, r)

/-! ## Words and addresses of a header -/

/-- An address in a header. -/
def macOf (buf : Bytes) (off : ℕ) : MacAddr := Vector.ofFn fun i => buf.getD (off + i) 0

section words

variable {buf : Bytes} {off k v : ℕ}

@[simp] theorem setLe16_length (buf : Bytes) (off v : ℕ) :
    (setLe16 buf off v).length = buf.length := overwrite_length ..

@[simp] theorem orLe16_length (buf : Bytes) (off v : ℕ) :
    (orLe16 buf off v).length = buf.length := overwrite_length ..

theorem getLe16_setLe16 (h : off + 1 < buf.length) (hv : v < 2 ^ 16) :
    getLe16 (setLe16 buf off v) off = v := by
  simp only [getLe16, setLe16, overwrite_getD, List.length_cons, List.length_nil]
  rw [if_pos (by omega), if_pos (by omega), Nat.sub_self, Nat.add_sub_cancel_left]
  simp only [List.getD_cons_zero, List.getD_cons_succ, UInt8.toNat_ofNat']
  omega

theorem getLe16_lt (buf : Bytes) (off : ℕ) : getLe16 buf off < 2 ^ 16 := by
  have hlo := (buf.getD off 0).toNat_lt
  have hhi := (buf.getD (off + 1) 0).toNat_lt
  rw [getLe16]
  omega

/-- A write from `off` on leaves what is before it. -/
theorem getD_overwrite_lt (bs : Bytes) (h : k < off) :
    (overwrite buf off bs).getD k 0 = buf.getD k 0 := by
  rw [overwrite_getD, if_neg (by omega)]

theorem getLe16_overwrite (bs : Bytes) (h : k + 2 ≤ off) :
    getLe16 (overwrite buf off bs) k = getLe16 buf k := by
  rw [getLe16, getLe16, getD_overwrite_lt bs (by omega), getD_overwrite_lt bs (by omega)]

theorem macOf_overwrite_lt (bs : Bytes) (h : k + 6 ≤ off) :
    macOf (overwrite buf off bs) k = macOf buf k := by
  refine Vector.ext fun i hi => ?_
  simp only [macOf, Vector.getElem_ofFn]
  exact getD_overwrite_lt bs (by omega)

theorem macOf_overwrite_ge (bs : Bytes) (h : off + bs.length ≤ k) :
    macOf (overwrite buf off bs) k = macOf buf k := by
  refine Vector.ext fun i hi => ?_
  simp only [macOf, Vector.getElem_ofFn]
  rw [overwrite_getD, if_neg (by omega)]

theorem macOf_overwrite (addr : MacAddr) (h : off + 6 ≤ buf.length) :
    macOf (overwrite buf off addr.toList) off = addr := by
  refine Vector.ext fun i hi => ?_
  simp only [macOf, Vector.getElem_ofFn]
  rw [overwrite_getD, if_pos ⟨by omega, by rw [Vector.length_toList]; omega, by omega⟩,
    Nat.add_sub_cancel_left, List.getD_eq_getElem _ _ (by rw [Vector.length_toList]; exact hi),
    Vector.getElem_toList]

end words

/-! ## What is in the header -/

/-- Frame control and addresses. -/
structure HdrFields where
  fctrl : ℕ
  addr1 : MacAddr
  addr2 : MacAddr
  addr3 : MacAddr
  deriving DecidableEq, Repr

def hdrFields (hdr : Bytes) : HdrFields where
  fctrl := getLe16 hdr 0
  addr1 := macOf hdr 4
  addr2 := macOf hdr 10
  addr3 := macOf hdr 16

section fields

variable {hdr : Bytes} {off v : ℕ}

/-- The sequence control and what follows it. -/
theorem hdrFields_behind (bs : Bytes) (h : 22 ≤ off) :
    hdrFields (overwrite hdr off bs) = hdrFields hdr := by
  rw [hdrFields, hdrFields, getLe16_overwrite bs (by omega), macOf_overwrite_lt bs (by omega),
    macOf_overwrite_lt bs (by omega), macOf_overwrite_lt bs (by omega)]

theorem hdrFields_setLe16 (h : 2 ≤ hdr.length) (hv : v < 2 ^ 16) :
    hdrFields (setLe16 hdr 0 v) = { hdrFields hdr with fctrl := v } := by
  have hfc : getLe16 (setLe16 hdr 0 v) 0 = v := getLe16_setLe16 (by omega) hv
  have hmac : ∀ k, 2 ≤ k → macOf (setLe16 hdr 0 v) k = macOf hdr k := fun k hk =>
    macOf_overwrite_ge _ hk
  rw [hdrFields, hfc, hmac 4 (by omega), hmac 10 (by omega), hmac 16 (by omega)]
  rfl

theorem hdrFields_orLe16 (h : 2 ≤ hdr.length) (hv : v < 2 ^ 16) :
    hdrFields (orLe16 hdr 0 v) =
      { hdrFields hdr with fctrl := (hdrFields hdr).fctrl ||| v } :=
  hdrFields_setLe16 h (Nat.or_lt_two_pow (getLe16_lt hdr 0) hv)

/-- The three addresses. -/
theorem hdrFields_addrs (addr1 addr2 addr3 : MacAddr) (h : 22 ≤ hdr.length) :
    hdrFields (overwrite (overwrite (overwrite hdr 4 addr1.toList) 10 addr2.toList) 16
      addr3.toList) = ⟨(hdrFields hdr).fctrl, addr1, addr2, addr3⟩ := by
  have hlen : ∀ addr : MacAddr, addr.toList.length = 6 := fun addr => Vector.length_toList
  rw [hdrFields, getLe16_overwrite _ (by omega), getLe16_overwrite _ (by omega),
    getLe16_overwrite _ (by omega), macOf_overwrite_lt _ (by omega),
    macOf_overwrite_lt _ (by omega), macOf_overwrite addr1 (by omega),
    macOf_overwrite_lt _ (by omega), macOf_overwrite addr2 (by simp; omega),
    macOf_overwrite addr3 (by simp; omega)]
  rfl

end fields

/-- The DS bits and the addresses that the modes write. -/
def DsFields (v : HdrFields) (dst src : MacAddr) : Prop :=
  (v.fctrl.testBit 8 = true ∧ v.fctrl.testBit 9 = false ∧ v.addr2 = src ∧ v.addr3 = dst) ∨
    (v.fctrl.testBit 8 = false ∧ v.fctrl.testBit 9 = true ∧ v.addr1 = dst ∧ v.addr3 = src) ∨
    (v.fctrl.testBit 8 = false ∧ v.fctrl.testBit 9 = false ∧ v.addr1 = dst ∧ v.addr2 = src)

/-- What the receiver reads of a header for `a`. -/
structure HeaderOf (a : TxHdrAttrib) (v : HdrFields) : Prop where
  addrs : DsFields v a.dst a.src
  qos : v.fctrl.testBit 7 = (a.subtype == wifiQosDataType)
  privacy : v.fctrl.testBit 14 = (a.encrypt != .noPrivacy)
  order : v.fctrl.testBit 15 = false

/-- The frame control of a data frame. -/
def dataFctrl (subtype ds : ℕ) (mdata privacy : Bool) : ℕ :=
  subtype ||| ds ||| (if mdata then 0x2000 else 0) ||| (if privacy then 0x4000 else 0)

theorem dataFctrl_bits {subtype ds : ℕ} (hsub : subtype ∈ [wifiDataType, wifiQosDataType])
    (hds : ds ∈ [0x0100, 0x0200, 0]) (mdata privacy : Bool) :
    (dataFctrl subtype ds mdata privacy).testBit 7 = (subtype == wifiQosDataType) ∧
      (dataFctrl subtype ds mdata privacy).testBit 8 = (ds == 0x0100) ∧
      (dataFctrl subtype ds mdata privacy).testBit 9 = (ds == 0x0200) ∧
      (dataFctrl subtype ds mdata privacy).testBit 14 = privacy ∧
      (dataFctrl subtype ds mdata privacy).testBit 15 = false := by
  have hall : ∀ subtype ∈ [wifiDataType, wifiQosDataType], ∀ ds ∈ [0x0100, 0x0200, 0],
      ∀ mdata privacy : Bool,
      (dataFctrl subtype ds mdata privacy).testBit 7 = (subtype == wifiQosDataType) ∧
        (dataFctrl subtype ds mdata privacy).testBit 8 = (ds == 0x0100) ∧
        (dataFctrl subtype ds mdata privacy).testBit 9 = (ds == 0x0200) ∧
        (dataFctrl subtype ds mdata privacy).testBit 14 = privacy ∧
        (dataFctrl subtype ds mdata privacy).testBit 15 = false := by decide
  exact hall subtype hsub ds hds mdata privacy

/-- Each mode writes its DS bit and the addresses that belong to it. -/
theorem setDs_fields {priv : RtlPriv} {a : TxHdrAttrib} {hdr hdr' : Bytes} {q : Bool}
    (hlen : 22 ≤ hdr.length) (h : setDs priv a hdr = some (hdr', q)) :
    hdr'.length = hdr.length ∧ ∃ ds ∈ [0x0100, 0x0200, 0],
      (hdrFields hdr').fctrl = (hdrFields hdr).fctrl ||| ds ∧
      ((ds = 0x0100 ∧ (hdrFields hdr').addr2 = a.src ∧ (hdrFields hdr').addr3 = a.dst) ∨
        (ds = 0x0200 ∧ (hdrFields hdr').addr1 = a.dst ∧ (hdrFields hdr').addr3 = a.src) ∨
        (ds = 0 ∧ (hdrFields hdr').addr1 = a.dst ∧ (hdrFields hdr').addr2 = a.src)) := by
  rw [setDs] at h
  split_ifs at h
  · obtain ⟨rfl, -⟩ := Prod.mk.inj (Option.some.inj h)
    rw [hdrFields_addrs _ _ _ (by simpa [setToDs] using hlen), setToDs,
      hdrFields_orLe16 (by omega) (by decide)]
    exact ⟨by simp, 0x0100, by decide, rfl, .inl ⟨rfl, rfl, rfl⟩⟩
  · obtain ⟨rfl, -⟩ := Prod.mk.inj (Option.some.inj h)
    rw [hdrFields_addrs _ _ _ (by simpa [setFrDs] using hlen), setFrDs,
      hdrFields_orLe16 (by omega) (by decide)]
    exact ⟨by simp, 0x0200, by decide, rfl, .inr (.inl ⟨rfl, rfl, rfl⟩)⟩
  · obtain ⟨rfl, -⟩ := Prod.mk.inj (Option.some.inj h)
    rw [hdrFields_addrs _ _ _ hlen]
    exact ⟨by simp, 0, by decide, (Nat.or_zero _).symm, .inr (.inr ⟨rfl, rfl, rfl⟩)⟩

theorem setFrameSubType_fields {type : ℕ} (h : type < 2 ^ 16) :
    (setFrameSubType (List.replicate wlanhdrOffset 0) type).length = wlanhdrOffset ∧
      (hdrFields (setFrameSubType (List.replicate wlanhdrOffset 0) type)).fctrl = type := by
  have hzero : getLe16 (List.replicate wlanhdrOffset 0) 0 = 0 := by decide
  refine ⟨by simp [setFrameSubType], ?_⟩
  rw [setFrameSubType, hzero, Nat.zero_and, hdrFields_orLe16 (by simp [wlanhdrOffset]) h,
    hdrFields_setLe16 (by simp [wlanhdrOffset]) (by decide)]
  exact Nat.zero_or type

/-- The QoS control field lies behind the addresses. -/
theorem setQosControl_fields {a : TxHdrAttrib} {hdr : Bytes} (h : 24 ≤ a.hdrlen.toNat) :
    (setQosControl a hdr).length = hdr.length ∧
      hdrFields (setQosControl a hdr) = hdrFields hdr := by
  have hqc : 22 ≤ a.hdrlen.toNat - 2 := by omega
  have hor : ∀ buf v, hdrFields (orLe16 buf (a.hdrlen.toNat - 2) v) = hdrFields buf :=
    fun buf v => hdrFields_behind _ hqc
  constructor
  · simp only [setQosControl, setAckpolicy, setEOSP, setPriority, orLe16_length]
    split_ifs
    · exact orLe16_length ..
    · rfl
  · simp only [setQosControl, setAckpolicy, setEOSP, setPriority, hor]
    split_ifs
    · exact hor ..
    · rfl

theorem setSeqNum_fields (hdr : Bytes) (num : ℕ) :
    (setSeqNum hdr num).length = hdr.length ∧ hdrFields (setSeqNum hdr num) = hdrFields hdr :=
  ⟨setLe16_length .., hdrFields_behind _ (Nat.le_refl _)⟩

theorem numberPacket_attrib (a : TxHdrAttrib) (seq : StaTxSeq) :
    (numberPacket a seq).1.toTxAttrib = a.toTxAttrib := by
  unfold numberPacket
  dsimp only
  split_ifs <;> rfl

/-- A flag that is set if `c` holds. -/
theorem hdrFields_flag {hdr : Bytes} {v : ℕ} (c : Prop) [Decidable c] (h : 2 ≤ hdr.length)
    (hv : v < 2 ^ 16) :
    (if c then orLe16 hdr 0 v else hdr).length = hdr.length ∧
      hdrFields (if c then orLe16 hdr 0 v else hdr) =
        { hdrFields hdr with fctrl := (hdrFields hdr).fctrl ||| if c then v else 0 } := by
  split_ifs
  · exact ⟨orLe16_length .., hdrFields_orLe16 h hv⟩
  · rw [Nat.or_zero]
    exact ⟨rfl, rfl⟩

theorem setFlags_fields {a : TxHdrAttrib} {hdr : Bytes} (q : Bool) (hhdr : 24 ≤ a.hdrlen.toNat)
    (hlen : 2 ≤ hdr.length) :
    (setFlags a q hdr).length = hdr.length ∧
      hdrFields (setFlags a q hdr) =
        { hdrFields hdr with
          fctrl := (hdrFields hdr).fctrl ||| (if a.mdata then 0x2000 else 0) |||
            if a.encrypt ≠ .noPrivacy then 0x4000 else 0 } := by
  obtain ⟨hlen₁, hf₁⟩ := hdrFields_flag (a.mdata = true) hlen (by decide : 0x2000 < 2 ^ 16)
  obtain ⟨hlen₂, hf₂⟩ := hdrFields_flag (a.encrypt ≠ .noPrivacy) (hlen₁ ▸ hlen)
    (by decide : 0x4000 < 2 ^ 16)
  rw [hf₁] at hf₂
  cases q with
  | false => exact ⟨hlen₂.trans hlen₁, hf₂⟩
  | true =>
    obtain ⟨hlen₃, hf₃⟩ := setQosControl_fields hhdr
    exact ⟨hlen₃.trans (hlen₂.trans hlen₁), hf₃.trans hf₂⟩

/-- A header is written only by the mode of the interface, for a station that is linked. -/
theorem makeWlanhdr_success {priv : RtlPriv} {seq : StaTxSeq} {a : TxHdrAttrib}
    (hsub : a.subtype ∈ [wifiDataType, wifiQosDataType]) (hhdr : 24 ≤ a.hdrlen.toNat)
    (h : (rtwMakeWlanhdr priv seq a).status ≠ .fail) :
    (rtwMakeWlanhdr priv seq a).hdr.length = wlanhdrOffset ∧
      HeaderOf a (hdrFields (rtwMakeWlanhdr priv seq a).hdr) ∧
      (rtwMakeWlanhdr priv seq a).attrib.toTxAttrib = a.toTxAttrib := by
  have hdata : a.subtype &&& wifiDataType ≠ 0 := by
    have hall : ∀ s ∈ [wifiDataType, wifiQosDataType], s &&& wifiDataType ≠ 0 := by decide
    exact hall a.subtype hsub
  have hsmall : a.subtype < 2 ^ 16 := by
    have hall : ∀ s ∈ [wifiDataType, wifiQosDataType], s < 2 ^ 16 := by decide
    exact hall a.subtype hsub
  obtain ⟨hlen₀, hfc₀⟩ := setFrameSubType_fields hsmall
  unfold rtwMakeWlanhdr at h ⊢
  rw [if_pos hdata] at h ⊢
  cases hsetds : setDs priv a (setFrameSubType (List.replicate wlanhdrOffset 0) a.subtype) with
  | none =>
    rw [hsetds] at h
    exact absurd rfl h
  | some r =>
    obtain ⟨hdr, q⟩ := r
    rw [hsetds] at h
    dsimp only at h ⊢
    split at h
    · exact absurd rfl h
    · next psta _ =>
      by_cases hpsta : a.psta ≠ psta
      · rw [if_pos hpsta] at h
        exact absurd rfl h
      rw [if_neg hpsta] at h ⊢
      by_cases hlinked : (priv.sta psta).linked = false
      · rw [if_pos hlinked] at h
        exact absurd rfl h
      rw [if_neg hlinked]
      obtain ⟨hlen₁, ds, hds, hfc₁, haddrs⟩ := setDs_fields (by rw [hlen₀]; decide) hsetds
      have h2 : 2 ≤ hdr.length := by
        rw [hlen₁, hlen₀]
        decide
      obtain ⟨hlen₂, hf₂⟩ := setFlags_fields q hhdr h2
      obtain ⟨hlen₃, hf₃⟩ := setSeqNum_fields (setFlags a q hdr) (numberPacket a seq).1.seqnum
      refine ⟨hlen₃.trans (hlen₂.trans (hlen₁.trans hlen₀)), ?_, numberPacket_attrib a seq⟩
      have hfc : (hdrFields hdr).fctrl ||| (if a.mdata then 0x2000 else 0) |||
          (if a.encrypt ≠ .noPrivacy then 0x4000 else 0) =
            dataFctrl a.subtype ds a.mdata (a.encrypt != .noPrivacy) := by
        rw [hfc₁, hfc₀, dataFctrl]
        simp only [bne_iff_ne]
      obtain ⟨h7, h8, h9, h14, h15⟩ :=
        dataFctrl_bits hsub hds a.mdata (a.encrypt != .noPrivacy)
      rw [hf₃, hf₂, hfc]
      refine ⟨?_, h7, h14, h15⟩
      rcases haddrs with ⟨rfl, h2, h3⟩ | ⟨rfl, h1, h3⟩ | ⟨rfl, h1, h2⟩
      · exact .inl ⟨h8, h9, h2, h3⟩
      · exact .inr (.inl ⟨h8, h9, h1, h3⟩)
      · exact .inr (.inr ⟨h8, h9, h1, h2⟩)

/-- Only the bits for the DS, QoS, privacy and order are looked at. -/
theorem HeaderOf.of_fctrl {a : TxHdrAttrib} {v : HdrFields} {c : ℕ} (h : HeaderOf a v)
    (hbits : ∀ k ∈ [7, 8, 9, 14, 15], c.testBit k = v.fctrl.testBit k) :
    HeaderOf a { v with fctrl := c } := by
  obtain ⟨haddrs, hqos, hprivacy, horder⟩ := h
  refine ⟨?_, ?_, ?_, ?_⟩
  · simpa only [DsFields, hbits 8 (by decide), hbits 9 (by decide)] using haddrs
  · exact (hbits 7 (by decide)).trans hqos
  · exact (hbits 14 (by decide)).trans hprivacy
  · exact (hbits 15 (by decide)).trans horder

/-- The fragments of a packet differ in the More Fragments bit. -/
theorem fragHdr_fields {a : TxHdrAttrib} {hdr : Bytes} (hlen : hdr.length = wlanhdrOffset)
    (h : HeaderOf a (hdrFields hdr)) (mfrag : Bool) :
    (fragHdr hdr mfrag).length = wlanhdrOffset ∧ HeaderOf a (hdrFields (fragHdr hdr mfrag)) := by
  have h2 : 2 ≤ hdr.length := by
    rw [hlen]
    decide
  have hset : hdrFields (setMFrag hdr) =
      { hdrFields hdr with fctrl := (hdrFields hdr).fctrl ||| 0x0400 } :=
    hdrFields_orLe16 h2 (by decide)
  have hsetlen : (setMFrag hdr).length = wlanhdrOffset := (orLe16_length ..).trans hlen
  have hmask : ∀ k ∈ [7, 8, 9, 14, 15],
      (0x0400).testBit k = false ∧ (0xfbff).testBit k = true := by decide
  have hor : ∀ k ∈ [7, 8, 9, 14, 15],
      ((hdrFields hdr).fctrl ||| 0x0400).testBit k = (hdrFields hdr).fctrl.testBit k := by
    intro k hk
    rw [Nat.testBit_or, (hmask k hk).1, Bool.or_false]
  cases mfrag with
  | true =>
    refine ⟨hsetlen, ?_⟩
    show HeaderOf a (hdrFields (setMFrag hdr))
    rw [hset]
    exact h.of_fctrl hor
  | false =>
    have hclear : hdrFields (clearMFrag (setMFrag hdr)) =
        { hdrFields hdr with fctrl := ((hdrFields hdr).fctrl ||| 0x0400) &&& 0xfbff } := by
      have hfc : getLe16 (setMFrag hdr) 0 = (hdrFields hdr).fctrl ||| 0x0400 :=
        congrArg HdrFields.fctrl hset
      rw [clearMFrag, hdrFields_setLe16 (by rw [hsetlen]; decide)
        (Nat.lt_of_le_of_lt Nat.and_le_right (by decide)), hset, hfc]
    refine ⟨(setLe16_length ..).trans hsetlen, ?_⟩
    show HeaderOf a (hdrFields (clearMFrag (setMFrag hdr)))
    rw [hclear]
    refine h.of_fctrl fun k hk => ?_
    rw [Nat.testBit_and, (hmask k hk).2, Bool.and_true]
    exact hor k hk

/-! ## The receiver -/

section receiver

open Recv (getTofrDs getToDs getFrDs getDa getSa getAddr1 getAddr2 getAddr3 getFrameSubType
  getPrivacy getOrder validateData setIceIvLen)

variable {f : RecvFrame} {hdr rest : Bytes} {n : ℕ}

theorem byteAt_hdr (hd : f.data = hdr.take n ++ rest) (hn : 24 ≤ n) (hlen : n ≤ hdr.length)
    {k : ℕ} (hk : k < 24) : f.byteAt k = hdr.getD k 0 := by
  have htake : (hdr.take n).length = n := by rw [List.length_take, Nat.min_eq_left hlen]
  have hin : k < f.data.length := by
    rw [hd, List.length_append, htake]
    omega
  rw [RecvFrame.byteAt_eq hin, hd, getD_append_left (by omega), List.getD_eq_getElem?_getD,
    List.getD_eq_getElem?_getD, List.getElem?_take_of_lt (by omega)]

/-- The fields as the receiver reads them. -/
theorem hdrFields_received (hd : f.data = hdr.take n ++ rest) (hn : 24 ≤ n)
    (hlen : n ≤ hdr.length) :
    f.le16At 0 = (hdrFields hdr).fctrl ∧ getAddr1 f = (hdrFields hdr).addr1 ∧
      getAddr2 f = (hdrFields hdr).addr2 ∧ getAddr3 f = (hdrFields hdr).addr3 := by
  have hbyte : ∀ k < 24, f.byteAt k = hdr.getD k 0 := fun k hk => byteAt_hdr hd hn hlen hk
  have hmac : ∀ off, off + 6 ≤ 24 → f.macAt off = macOf hdr off := by
    intro off hoff
    refine Vector.ext fun i hi => ?_
    simp only [RecvFrame.macAt, macOf, Vector.getElem_ofFn]
    exact hbyte (off + i) (by omega)
  refine ⟨?_, hmac 4 (by omega), hmac 10 (by omega), hmac 16 (by omega)⟩
  rw [RecvFrame.le16At, hbyte 0 (by omega), hbyte 1 (by omega)]
  rfl

/-- Destination and source are found again. -/
theorem getDa_getSa {dst src : MacAddr} (hd : f.data = hdr.take n ++ rest) (hn : 24 ≤ n)
    (hlen : n ≤ hdr.length) (h : DsFields (hdrFields hdr) dst src) :
    getDa f = dst ∧ getSa f = src := by
  obtain ⟨hfc, h1, h2, h3⟩ := hdrFields_received hd hn hlen
  have hds : getTofrDs f = 2 * ((hdrFields hdr).fctrl.testBit 8).toNat +
      ((hdrFields hdr).fctrl.testBit 9).toNat := by
    rw [getTofrDs, getToDs, getFrDs, hfc]
  rcases h with ⟨h8, h9, hsrc, hdst⟩ | ⟨h8, h9, hdst, hsrc⟩ | ⟨h8, h9, hdst, hsrc⟩
  · rw [h8, h9] at hds
    rw [getDa, getSa, hds]
    exact ⟨h3.trans hdst, h2.trans hsrc⟩
  · rw [h8, h9] at hds
    rw [getDa, getSa, hds]
    exact ⟨h1.trans hdst, h3.trans hsrc⟩
  · rw [h8, h9] at hds
    rw [getDa, getSa, hds]
    exact ⟨h1.trans hdst, h2.trans hsrc⟩

theorem parseQosControl_addrs (f : RecvFrame) :
    (Recv.parseQosControl f).dst = f.attrib.dst ∧ (Recv.parseQosControl f).src = f.attrib.src ∧
      (Recv.parseQosControl f).privacy = f.attrib.privacy := by
  unfold Recv.parseQosControl
  dsimp only
  split_ifs <;> exact ⟨rfl, rfl, rfl⟩

/-- What `validate_recv_data_frame` fills in for an accepted frame. -/
theorem validateData_attrib {rx : RtlPriv} {tidRxseq : ℕ → ℕ → ℕ}
    (h : (validateData rx tidRxseq f).status = .success) :
    let b := (validateData rx tidRxseq f).frame.attrib
    b.dst = getDa f ∧ b.src = getSa f ∧
      b.hdrlen = (if (getFrameSubType f).testBit 7 then 26 else 24) + 4 * getOrder f ∧
      b.ivLen = (setIceIvLen b.encrypt).1 ∧ b.icvLen = (setIceIvLen b.encrypt).2 ∧
      (getPrivacy f = false → b.encrypt = .noPrivacy) := by
  obtain ⟨psta, hcheck, -, hframe⟩ := Recv.validateRecvDataFrame_success h
  have hds := Recv.dataFrameCheck_toFrDs hcheck
  rw [validateData, hframe]
  dsimp only
  set f₀ := (f.setAttrib (Recv.parseHeader f)).setAttrib
    (Recv.parseQos (f.setAttrib (Recv.parseHeader f)))
  set f₁ := f₀.setAttrib (Recv.setAddresses f₀)
  obtain ⟨hdst, hsrc, hprivacy⟩ := parseQosControl_addrs f₁
  have hhdr := Recv.parseQosControl_hdrlen hds
  have hqos : f₁.attrib.qos = ((getFrameSubType f).testBit 7).toNat := rfl
  have horder : f₁.attrib.order = getOrder f := rfl
  have hbit : getOrder f < 2 := Bool.toNat_lt _
  rw [hqos, horder] at hhdr
  obtain ⟨encrypt, hsec⟩ := Recv.setSecurity_eq rx psta (Recv.parseQosControl f₁)
  have hplain : getPrivacy f = false →
      (Recv.setSecurity rx psta (Recv.parseQosControl f₁)).encrypt = .noPrivacy := by
    intro hno
    have hno : (Recv.parseQosControl f₁).privacy = false := hprivacy.trans hno
    rw [Recv.setSecurity, if_neg (by rw [hno]; exact Bool.false_ne_true)]
  rw [Recv.setAttrib_attrib]
  refine ⟨?_, ?_, ?_, ?_, ?_, hplain⟩
  · rw [hsec]
    exact hdst
  · rw [hsec]
    exact hsrc
  · rw [hsec]
    show (Recv.parseQosControl f₁).hdrlen = _
    have hq : (if ((getFrameSubType f).testBit 7).toNat = 1 then 26 else 24) =
        if (getFrameSubType f).testBit 7 then 26 else 24 := by
      cases (getFrameSubType f).testBit 7 <;> rfl
    have ho : (if getOrder f ≠ 0 then 4 else 0) = 4 * getOrder f := by
      split_ifs <;> omega
    rw [hhdr, hq, ho]
  · rw [hsec]
  · rw [hsec]

end receiver

/-! ## The packet -/

/-- What `update_attrib` takes from the packet, and the two headers. -/
structure PacketAttrib (skb : Skb) (a : TxHdrAttrib) : Prop where
  dst : a.dst = ethAddr skb 0
  src : a.src = ethAddr skb 6
  etherType : a.etherType = hProto skb
  pktlen : a.pktlen = skb.data.length - ethHlen
  pktHdrlen : a.pktHdrlen = ethHlen
  ice : (a.ivLen, a.icvLen) = iceIvLen a.encrypt
  hdr : (a.hdrlen = 24 ∧ a.subtype = wifiDataType) ∨ (a.hdrlen = 26 ∧ a.subtype = wifiQosDataType)

theorem PacketAttrib.hdrlen_bounds {skb : Skb} {a : TxHdrAttrib} (h : PacketAttrib skb a) :
    24 ≤ a.hdrlen.toNat ∧ a.hdrlen.toNat ≤ 26 := by
  rcases h.hdr with ⟨h, -⟩ | ⟨h, -⟩ <;> rw [h] <;> decide

theorem PacketAttrib.subtype_mem {skb : Skb} {a : TxHdrAttrib} (h : PacketAttrib skb a) :
    a.subtype ∈ [wifiDataType, wifiQosDataType] := by
  rcases h.hdr with ⟨-, h⟩ | ⟨-, h⟩ <;> rw [h] <;> decide

theorem updateAttribSecInfo_attrib {priv : RtlPriv} {psta txpn : ℕ} {a : TxPktAttrib}
    (h : (updateAttribSecInfo priv psta txpn a).status ≠ .fail) :
    let b := (updateAttribSecInfo priv psta txpn a).attrib
    b.dst = a.dst ∧ b.src = a.src ∧ b.etherType = a.etherType ∧ b.pktlen = a.pktlen ∧
      (b.ivLen, b.icvLen) = iceIvLen b.encrypt := by
  unfold updateAttribSecInfo at h ⊢
  dsimp only at h ⊢
  split at h
  · exact absurd rfl h
  · next encrypt keyIdx _ =>
    cases encrypt with
    | tkip =>
      dsimp only at h ⊢
      by_cases hkey : priv.busetkipkey = false
      · rw [if_pos hkey] at h
        exact absurd rfl h
      · rw [if_neg hkey]
        exact ⟨rfl, rfl, rfl, rfl, rfl⟩
    | _ => exact ⟨rfl, rfl, rfl, rfl, rfl⟩

/-- `set_qos` or not, header length and subtype fit together. -/
theorem setHdrlen_attrib (priv : RtlPriv) (acmMask : ℕ) (skb : Skb) (a : TxHdrAttrib) :
    let b := setHdrlen priv acmMask skb a
    b.dst = a.dst ∧ b.src = a.src ∧ b.etherType = a.etherType ∧ b.pktlen = a.pktlen ∧
      b.pktHdrlen = ethHlen ∧ b.encrypt = a.encrypt ∧ b.ivLen = a.ivLen ∧ b.icvLen = a.icvLen ∧
      ((b.hdrlen = 24 ∧ b.subtype = wifiDataType) ∨
        (b.hdrlen = 26 ∧ b.subtype = wifiQosDataType)) := by
  unfold setHdrlen
  dsimp only
  split_ifs
  · exact ⟨rfl, rfl, rfl, rfl, rfl, rfl, rfl, rfl, .inr ⟨rfl, rfl⟩⟩
  · exact ⟨rfl, rfl, rfl, rfl, rfl, rfl, rfl, rfl, .inl ⟨rfl, rfl⟩⟩
  · exact ⟨rfl, rfl, rfl, rfl, rfl, rfl, rfl, rfl, .inr ⟨rfl, rfl⟩⟩
  · exact ⟨rfl, rfl, rfl, rfl, rfl, rfl, rfl, rfl, .inr ⟨rfl, rfl⟩⟩
  · exact ⟨rfl, rfl, rfl, rfl, rfl, rfl, rfl, rfl, .inl ⟨rfl, rfl⟩⟩

theorem updateAttribPacket_attrib {priv : RtlPriv} {acmMask n : ℕ} {htEn : ℕ → Bool} {txpn : ℕ → ℕ}
    {skb : Skb} {a₀ a : TxHdrAttrib}
    (h : updateAttribPacket priv acmMask htEn txpn skb a₀ = some (a, n)) : PacketAttrib skb a := by
  have haddrs : (setAddrs priv skb a₀).dst = ethAddr skb 0 ∧
      (setAddrs priv skb a₀).src = ethAddr skb 6 ∧ (setAddrs priv skb a₀).etherType = hProto skb ∧
      (setAddrs priv skb a₀).pktlen = skb.data.length - ethHlen := ⟨rfl, rfl, rfl, rfl⟩
  unfold updateAttribPacket at h
  dsimp only at h
  generalize setAddrs priv skb a₀ = a₁ at h haddrs
  obtain ⟨hdst, hsrc, htype, hlen⟩ := haddrs
  split at h
  · cases h
  · next psta _ =>
    split_ifs at h with hlinked hsec
    obtain ⟨hd, hs, ht, hl, hi⟩ := updateAttribSecInfo_attrib hsec
    generalize updateAttribSecInfo priv psta (txpn psta) a₁.toTxPktAttrib = r at h hd hs ht hl hi
    obtain ⟨rfl, -⟩ := Prod.mk.inj (Option.some.inj h)
    obtain ⟨h1, h2, h3, h4, h5, h6, h7, h8, h9⟩ := setHdrlen_attrib priv acmMask skb
      { a₁ with
        toTxPktAttrib := { r.attrib with
          mdata := false, eosp := false, qosEn := (priv.sta psta).qosOption, psta := psta }
        htEn := htEn psta
        ampduEn := false }
    refine ⟨h1.trans (hd.trans hdst), h2.trans (hs.trans hsrc), h3.trans (ht.trans htype),
      h4.trans (hl.trans hlen), h5, ?_, h9⟩
    show ((setHdrlen priv acmMask skb _).ivLen, (setHdrlen priv acmMask skb _).icvLen) =
      iceIvLen (setHdrlen priv acmMask skb _).encrypt
    rw [h6, h7, h8]
    exact hi

theorem ethAddr_toList {skb : Skb} {off : ℕ} (h : off + 6 ≤ skb.data.length) :
    (ethAddr skb off).toList = (skb.data.drop off).take 6 := by
  refine List.ext_getElem (by simp; omega) fun i hi hi' => ?_
  rw [Vector.length_toList] at hi
  simp only [ethAddr, Vector.getElem_toList, Vector.getElem_ofFn, List.getElem_take,
    List.getElem_drop]
  exact List.getD_eq_getElem _ _ (by omega)

/-- An Ethernet frame. -/
theorem skb_split (skb : Skb) :
    skb.data = (ethAddr skb 0).toList ++ (ethAddr skb 6).toList ++
      ([skb.data.getD 12 0, skb.data.getD 13 0] ++ skb.data.drop ethHlen) := by
  have h14 : 14 ≤ skb.data.length := skb.ethHlen_le
  have htype : [skb.data.getD 12 0, skb.data.getD 13 0] ++ skb.data.drop ethHlen =
      skb.data.drop 12 := by
    rw [List.drop_eq_getElem_cons (i := 12) (by omega), List.drop_eq_getElem_cons (i := 13) (by omega),
      List.getD_eq_getElem _ _ (by omega), List.getD_eq_getElem _ _ (by omega)]
    rfl
  rw [htype, ethAddr_toList (by omega), ethAddr_toList (by omega), List.drop_zero]
  have h6 : (skb.data.drop 6).take 6 ++ skb.data.drop 12 = skb.data.drop 6 := by
    have h := List.take_append_drop 6 (skb.data.drop 6)
    rwa [List.drop_drop] at h
  rw [List.append_assoc, h6, List.take_append_drop]

/-- The type behind the LLC header is the one of the packet. -/
theorem rtwPutSnap_drop (hi lo : UInt8) : (rtwPutSnap (Recv.be16 hi lo)).drop 6 = [hi, lo] := by
  have hhi : UInt8.ofNat (Recv.be16 hi lo / 256) = hi := by
    have h := lo.toNat_lt
    rw [Recv.be16, show (hi.toNat * 256 + lo.toNat) / 256 = hi.toNat by omega, UInt8.ofNat_toNat]
  have hlo : UInt8.ofNat (Recv.be16 hi lo) = lo := by
    apply UInt8.toNat_inj.mp
    have h := lo.toNat_lt
    rw [UInt8.toNat_ofNat', Recv.be16]
    omega
  rw [rtwPutSnap, hhi, hlo]
  split_ifs
  · rfl
  · rfl

/-- The exceptions of the sender are those of the receiver: what `rtw_put_snap` writes is a SNAP
    header that `wlanhdr_to_ethhdr` removes. -/
theorem bsnaphdr_rtwPutSnap {g : RecvFrame} {w rest : Bytes} {hi lo : UInt8}
    (hd : g.data = w ++ (rtwPutSnap (Recv.be16 hi lo) ++ rest))
    (hw : w.length = g.attrib.hdrlen + g.attrib.ivLen) : Recv.bsnaphdr g = true := by
  have hlen : w.length + 8 ≤ g.data.length := by
    rw [hd, List.length_append, List.length_append, rtwPutSnap_length, snapSize]
    omega
  have hsnap : g.bytesAt (g.attrib.hdrlen + g.attrib.ivLen) snapSize =
      (rtwPutSnap (Recv.be16 hi lo)).take 6 := by
    rw [RecvFrame.bytesAt_eq (by rw [← hw, snapSize]; omega), hd, ← hw, List.drop_left]
    exact List.take_append_of_le_length (by rw [rtwPutSnap_length, snapSize]; omega)
  have htype : g.bytesAt (g.attrib.hdrlen + g.attrib.ivLen + snapSize) 2 = [hi, lo] := by
    rw [RecvFrame.bytesAt_eq (by rw [← hw, snapSize]; omega), hd, ← hw, ← List.drop_drop,
      List.drop_left, List.drop_append_of_le_length (by rw [rtwPutSnap_length, snapSize]; omega),
      snapSize, rtwPutSnap_drop]
    rfl
  rw [Recv.bsnaphdr, hsnap, htype]
  by_cases hother : Recv.be16 hi lo = 0x8137 ∨ Recv.be16 hi lo = 0x80f3
  · -- 802.1H
    have htake : (rtwPutSnap (Recv.be16 hi lo)).take 6 = Recv.rtwBridgeTunnelHeader := by
      rw [rtwPutSnap, if_pos hother]
      rfl
    rw [htake, beq_self_eq_true, Bool.or_true]
  · have htake : (rtwPutSnap (Recv.be16 hi lo)).take 6 = Recv.rtwRfc1042Header := by
      rw [rtwPutSnap, if_neg hother]
      rfl
    have hipx : [hi, lo] ≠ Recv.snapEthTypeIpx := by
      intro heq
      apply hother
      obtain ⟨hhi, heq⟩ := List.cons.inj heq
      rw [hhi, (List.cons.inj heq).1]
      exact .inl rfl
    have haarp : [hi, lo] ≠ Recv.snapEthTypeAppletalkAarp := by
      intro heq
      apply hother
      obtain ⟨hhi, heq⟩ := List.cons.inj heq
      rw [hhi, (List.cons.inj heq).1]
      exact .inr rfl
    rw [htake, beq_self_eq_true, bne_iff_ne.mpr hipx, bne_iff_ne.mpr haarp]
    rfl

/-! ## Round trip -/

/-- The MPDUs of a packet at the receiver, decrypted and put together: `b` are the attributes of
    the first one. Header and IV are still there; of the trailer, what `wlanhdr_to_ethhdr` is to
    remove. -/
structure Reassembled (a : TxHdrAttrib) (hdr msdu : Bytes) (b : Recv.RxPktAttrib) (g : RecvFrame) :
    Prop where
  lenOk : g.LenOk
  data : ∃ iv icv, g.data = hdr.take a.hdrlen.toNat ++ iv ++ msdu ++ icv ∧ iv.length = a.ivLen ∧
    icv.length = a.icvLen
  dst : g.attrib.dst = b.dst
  src : g.attrib.src = b.src
  hdrlen : g.attrib.hdrlen = b.hdrlen
  encrypt : g.attrib.encrypt = b.encrypt
  ivLen : g.attrib.ivLen = b.ivLen
  icvLen : g.attrib.icvLen = b.icvLen

/-- The cipher that both sides know by one name has one set of lengths. -/
theorem setIceIvLen_eq (e : Encryption) : Recv.setIceIvLen e = iceIvLen e := by
  cases e <;> rfl

/-- The receiver finds the header of the sender: addresses, lengths and cipher. -/
theorem accepted_attrib {skb : Skb} {a : TxHdrAttrib} (hpkt : PacketAttrib skb a) {hdr : Bytes}
    (hlen : hdr.length = wlanhdrOffset) (hfields : HeaderOf a (hdrFields hdr)) {f : RecvFrame}
    {rest : Bytes} (hf : f.data = hdr.take a.hdrlen.toNat ++ rest) {rx : RtlPriv}
    {tidRxseq : ℕ → ℕ → ℕ} (hok : (Recv.validateData rx tidRxseq f).status = .success)
    (hcipher : a.encrypt ≠ .noPrivacy →
      (Recv.validateData rx tidRxseq f).frame.attrib.encrypt = a.encrypt) :
    let b := (Recv.validateData rx tidRxseq f).frame.attrib
    b.dst = a.dst ∧ b.src = a.src ∧ b.hdrlen = a.hdrlen.toNat ∧ b.encrypt = a.encrypt ∧
      b.ivLen = a.ivLen ∧ b.icvLen = a.icvLen := by
  have hivlen : a.ivLen = (iceIvLen a.encrypt).1 := congrArg Prod.fst hpkt.ice
  have hicvlen : a.icvLen = (iceIvLen a.encrypt).2 := congrArg Prod.snd hpkt.ice
  obtain ⟨hn, hn'⟩ := hpkt.hdrlen_bounds
  have hnlen : a.hdrlen.toNat ≤ hdr.length := by
    rw [hlen, wlanhdrOffset]
    omega
  obtain ⟨hfc, -, -, -⟩ := hdrFields_received hf hn hnlen
  obtain ⟨hda, hsa⟩ := getDa_getSa hf hn hnlen hfields.addrs
  obtain ⟨hdst, hsrc, hhdr, hiv, hicv, hplain⟩ := validateData_attrib hok
  have henc : (Recv.validateData rx tidRxseq f).frame.attrib.encrypt = a.encrypt := by
    by_cases hno : a.encrypt = .noPrivacy
    · rw [hno]
      apply hplain
      rw [Recv.getPrivacy, hfc, hfields.privacy, hno]
      rfl
    · exact hcipher hno
  have hqos : (Recv.getFrameSubType f).testBit 7 = (a.subtype == wifiQosDataType) := by
    rw [Recv.getFrameSubType, hfc, Nat.testBit_and, hfields.qos]
    exact Bool.and_true _
  have horder : Recv.getOrder f = 0 := by
    rw [Recv.getOrder, hfc, hfields.order]
    rfl
  rw [hqos, horder] at hhdr
  refine ⟨hdst.trans hda, hsrc.trans hsa, ?_, henc, ?_, ?_⟩
  · rw [hhdr]
    rcases hpkt.hdr with ⟨h1, h2⟩ | ⟨h1, h2⟩
    · rw [h1, h2]
      decide
    · rw [h1, h2]
      decide
  · rw [hiv, henc, setIceIvLen_eq, hivlen]
  · rw [hicv, henc, setIceIvLen_eq, hicvlen]

/-- Addresses, type and payload behind the header. -/
theorem wlanhdrToEthhdr_packet {skb : Skb} {a : TxHdrAttrib} (hpkt : PacketAttrib skb a)
    {hdr : Bytes} (hlen : hdr.length = wlanhdrOffset) {b : Recv.RxPktAttrib} {g : RecvFrame}
    (hb : b.dst = a.dst ∧ b.src = a.src ∧ b.hdrlen = a.hdrlen.toNat ∧ b.encrypt = a.encrypt ∧
      b.ivLen = a.ivLen ∧ b.icvLen = a.icvLen)
    (hg : Reassembled a hdr (rtwPutSnap a.etherType ++ skb.data.drop ethHlen) b g) :
    (Recv.wlanhdrToEthhdr g).data = skb.data := by
  have hicvlen : a.icvLen = (iceIvLen a.encrypt).2 := congrArg Prod.snd hpkt.ice
  obtain ⟨hdst, hsrc, hhdr, henc, hiv, hicv⟩ := hb
  obtain ⟨hn, hn'⟩ := hpkt.hdrlen_bounds
  obtain ⟨iv, icv, hd, hivl, hicvl⟩ := hg.data
  rw [hpkt.etherType, hProto] at hd
  have htake : (hdr.take a.hdrlen.toNat ++ iv).length = g.attrib.hdrlen + g.attrib.ivLen := by
    have hle : a.hdrlen.toNat ≤ hdr.length := by
      rw [hlen, wlanhdrOffset]
      omega
    rw [List.length_append, List.length_take, Nat.min_eq_left hle, hivl, hg.hdrlen, hhdr, hg.ivLen,
      hiv]
  have htail : icv.length = Recv.icvTail g := by
    rw [Recv.icvTail, hg.encrypt, henc, hg.icvLen, hicv, hicvl]
    split_ifs with hno
    · rfl
    · rw [hicvlen, not_not.mp hno]
      rfl
  have hsnap : Recv.bsnaphdr g = true := by
    rw [List.append_assoc _ _ icv, List.append_assoc (rtwPutSnap _)] at hd
    exact bsnaphdr_rtwPutSnap hd htake
  have hlong : (rtwPutSnap (Recv.be16 (skb.data.getD 12 0) (skb.data.getD 13 0)) ++
      skb.data.drop ethHlen).length = 8 + (skb.data.drop ethHlen).length := by
    rw [List.length_append, rtwPutSnap_length, snapSize]
  rw [Recv.wlanhdrToEthhdr_data hg.lenOk hd htake htail (by rw [htake, hg.hdrlen]; omega)
    fun _ => by rw [hlong]; omega]
  rw [hsnap, if_pos rfl, hg.dst, hg.src, hdst, hsrc, hpkt.dst, hpkt.src,
    List.drop_append_of_le_length (by rw [rtwPutSnap_length, snapSize]; omega), rtwPutSnap_drop]
  exact (skb_split skb).symm

/-- A frame that arrives in one piece, without protection, is complete. -/
theorem reassembled_whole {a : TxHdrAttrib} (hplain : a.ivLen = 0 ∧ a.icvLen = 0) {hdr msdu : Bytes}
    {f : RecvFrame} (hlen : f.LenOk) (hf : f.data = hdr.take a.hdrlen.toNat ++ msdu) {rx : RtlPriv}
    {tidRxseq : ℕ → ℕ → ℕ} (hok : (Recv.validateData rx tidRxseq f).status = .success) :
    Reassembled a hdr msdu (Recv.validateData rx tidRxseq f).frame.attrib
      (Recv.validateData rx tidRxseq f).frame := by
  have hsame : (Recv.validateData rx tidRxseq f).frame.LenOk ∧
      (Recv.validateData rx tidRxseq f).frame.data = f.data := by
    obtain ⟨psta, -, -, hframe⟩ := Recv.validateRecvDataFrame_success hok
    rw [Recv.validateData, hframe]
    exact ⟨hlen, rfl⟩
  refine ⟨hsame.1, ⟨[], [], ?_, hplain.1.symm, hplain.2.symm⟩, rfl, rfl, rfl, rfl, rfl, rfl⟩
  rw [hsame.2, hf, List.append_nil, List.append_nil]

/-- The Ethernet frame that `rtw_xmitframe_coalesce` has put under an 802.11 header, in any mode, is
    the one that `wlanhdr_to_ethhdr` makes of it at a receiver that accepts it and uses the same
    cipher. Before the header is made, the power-save bits may change. -/
theorem decap_encap {tx rx : RtlPriv} {acmMask n : ℕ} {htEn : ℕ → Bool} {txpn : ℕ → ℕ} {skb : Skb}
    {a₀ a : TxHdrAttrib} (hattr : updateAttribPacket tx acmMask htEn txpn skb a₀ = some (a, n))
    {mdata eosp : Bool} {seq : StaTxSeq} {fragLen : UInt32} {bufAddr : ℤ} {pktOffset : ℕ}
    {hdr : Bytes} {r : Coalesced}
    (hsent : xmitframeCoalesce tx seq { a with mdata := mdata, eosp := eosp } fragLen bufAddr
      pktOffset skb = some (hdr, r))
    {tidRxseq : ℕ → ℕ → ℕ} {mfrag : Bool} {f : RecvFrame} {rest : Bytes}
    (hf : f.data = (fragHdr hdr mfrag).take a.hdrlen.toNat ++ rest)
    (hok : (Recv.validateData rx tidRxseq f).status = .success)
    (hcipher : a.encrypt ≠ .noPrivacy →
      (Recv.validateData rx tidRxseq f).frame.attrib.encrypt = a.encrypt)
    {g : RecvFrame}
    (hg : Reassembled a (fragHdr hdr mfrag) (bodyBytes r.frags)
      (Recv.validateData rx tidRxseq f).frame.attrib g) :
    (Recv.wlanhdrToEthhdr g).data = skb.data := by
  have hpkt := updateAttribPacket_attrib hattr
  have hpkt' : PacketAttrib skb { a with mdata := mdata, eosp := eosp } :=
    ⟨hpkt.dst, hpkt.src, hpkt.etherType, hpkt.pktlen, hpkt.pktHdrlen, hpkt.ice, hpkt.hdr⟩
  rw [xmitframeCoalesce] at hsent
  split_ifs at hsent with hfail
  obtain ⟨hlen, hfields, hsame⟩ := makeWlanhdr_success hpkt'.subtype_mem hpkt'.hdrlen_bounds.1 hfail
  obtain ⟨r', hr', heq⟩ := Option.map_eq_some_iff.mp hsent
  obtain ⟨rfl, rfl⟩ := Prod.mk.inj heq
  rw [hsame] at hr'
  rw [coalesce_bytes hpkt.pktlen hpkt.pktHdrlen hr'] at hg
  obtain ⟨hlen, hfields⟩ := fragHdr_fields hlen hfields mfrag
  have hfields : HeaderOf a _ := ⟨hfields.addrs, hfields.qos, hfields.privacy, hfields.order⟩
  exact wlanhdrToEthhdr_packet hpkt hlen (accepted_attrib hpkt hlen hfields hf hok hcipher) hg

/-! ## An IPX packet -/

/-- A station with QoS, and its access point. -/
def ipxSta : RtlPriv where
  fwState := { station := true, linked := true }
  mybssid := #v[2, 0, 0, 0, 0, 0x31]
  lookup := fun _ => some 0
  qosOption := true

def ipxAp : RtlPriv where
  fwState := { ap := true }
  mybssid := #v[2, 0, 0, 0, 0, 0x31]
  lookup := fun _ => some 0

/-- Three bytes of IPX for a third station. -/
def ipxSkb : Skb where
  data := [2, 0, 0, 0, 0, 0x32] ++ [2, 0, 0, 0, 0, 0x33] ++ [0x81, 0x37] ++ [1, 2, 3]
  ethHlen_le := by decide
  length_lt := by decide

/-- The attributes before `update_attrib`. -/
def noAttrib : TxHdrAttrib where
  etherType := 0
  pktHdrlen := 0
  hdrlen := 0
  pktlen := 0
  encrypt := .noPrivacy
  ivLen := 0
  icvLen := 0
  bswenc := false
  ra := Vector.replicate 6 0
  dst := Vector.replicate 6 0
  src := Vector.replicate 6 0
  ta := Vector.replicate 6 0

def ipxAttrib : TxHdrAttrib × ℕ :=
  (updateAttribPacket ipxSta 0 (fun _ => false) (fun _ => 0) ipxSkb noAttrib).getD (noAttrib, 0)

def ipxSent : Bytes × Coalesced :=
  (xmitframeCoalesce ipxSta {} ipxAttrib.1 2346 0 0 ipxSkb).getD ([], ⟨[], 0, 0⟩)

/-- What the access point receives. -/
def ipxReceived : RecvFrame where
  addr := 0
  skb := some 0
  attrib := {}
  len := 37
  mem := (fragHdr ipxSent.1 false).take 26 ++ bodyBytes ipxSent.2.frags
  rxData := 0
  rxTail := 37
  data_le_tail := by decide
  tail_le_end := by decide

theorem ipx_arrives :
    (Recv.wlanhdrToEthhdr
      (Recv.validateData ipxAp (fun _ _ => 0xffff) ipxReceived).frame).data = ipxSkb.data := by
  have hattr : updateAttribPacket ipxSta 0 (fun _ => false) (fun _ => 0) ipxSkb noAttrib =
      some ipxAttrib := rfl
  have hsent : xmitframeCoalesce ipxSta {} ipxAttrib.1 2346 0 0 ipxSkb = some ipxSent := rfl
  have hf : ipxReceived.data = (fragHdr ipxSent.1 false).take ipxAttrib.1.hdrlen.toNat ++
      bodyBytes ipxSent.2.frags := by decide
  have hok : (Recv.validateData ipxAp (fun _ _ => 0xffff) ipxReceived).status = .success := by
    decide
  have hplain : ipxAttrib.1.ivLen = 0 ∧ ipxAttrib.1.icvLen = 0 := by decide
  have hlen : ipxReceived.LenOk := rfl
  exact decap_encap hattr hsent hf hok (fun h => absurd rfl h)
    (reassembled_whole hplain hlen hf hok)

end Rtl8821au.Xmit
