import Rtl8821au.Lib.Area
import Rtl8821au.Lib.ReplaceFirst
import Rtl8821au.Mlme.IeLookup
import Rtl8821au.Mlme.WpsAttr
import Rtl8821au.Recv.Frame

/-!
# Bodies of beacons and probe responses

`issue_beacon` and `issue_probersp` of an access point (`rtw_mlme_ext.c`, lines 2521–2675 and
2687–2884) with `update_hidden_ssid` (lines 2483–2519). Both copy the elements of the network
behind the header and then change one or two of them in the frame. Writes are checked against the
buffer of the frame, reads of the frame against its end; behind the elements of the network lies
what its array held before. `memcpy` on ranges that overlap is taken for `memmove`.

* `replaceSsid_cases`: the SSID of the network in the place of the one in the frame.
* `copyIes_cases`: the WPS element of user space in the place of the one of the network.
* `bodies_right_iff`: when both bodies are as they should be.

**What goes wrong.** When the SSID gets shorter, `issue_probersp` moves its old bytes to the front,
over what stands there. A WPS element for which there is no room is left out, with everything
behind it. The search for a WPS element compares four bytes of a vendor element, however short
it is; the attribute that is then looked for may have more bytes than the variable it goes to.

The branches for other states of the interface and the transmission are left out.
-/

namespace Rtl8821au.Ap.BcnBody

open Buffer Checked Elements
open Mlme (getIe wrapSub)
open Mlme.IeLookup (rtwGetWpsIe wpsOui Passes OuiSame OuiInside Matches)
open Mlme.WpsAttr (rtwGetWpsAttrContent)
open Recv (MacAddr)

/-! ## Model -/

/-- `MAX_XMIT_EXTBUF_SZ`, `TXDESC_SIZE`, `TXDESC_OFFSET`, `WLANHDR_OFFSET`, `MAX_IE_SZ` and
    `NDIS_802_11_LENGTH_SSID`. -/
def extbufSize : ℕ := 1536
def txdescSize : ℕ := 40
def txdescOffset : ℕ := 48
def wlanhdrOffset : ℕ := 64
def maxIeSz : ℕ := 768
def lengthSsid : ℕ := 32

/-- `sizeof(struct rtw_ieee80211_hdr_3addr)`, `_BEACON_IE_OFFSET_` and `_FIXED_IE_LENGTH_`. -/
def hdrLen : ℕ := 24
def beaconIeOffset : ℕ := 12
def fixedIeLength : ℕ := 12

/-- What is used of the `WLAN_BSSID_EX` of the network. -/
structure Network where
  macAddress : MacAddr
  ssidLength : ℕ
  ssid : Area lengthSsid
  ieLength : ℕ
  ies : Area maxIeSz

/-- What else the functions look at: the address, the sequence number, `hidden_ssid_mode`,
    `wps_probe_resp_ie`, and the buffer that they get. -/
structure Env where
  macAddr : MacAddr
  mgntSeq : ℕ
  hiddenSsidMode : UInt8
  wpsProbeRespIe : Option (List UInt8)
  extbuf : Area extbufSize

/-- `pmgntframe`: its buffer, `pframe` as an offset in it, and `pattrib->pktlen`. -/
structure MgntFrame where
  buf : Area extbufSize
  pframe : ℕ
  pktlen : ℕ

/-- The header, with the sequence number in the upper twelve bits of the last field. -/
def mgntHdr (subtype : UInt8) (addr1 addr2 addr3 : MacAddr) (seq : ℕ) : List UInt8 :=
  [subtype, 0, 0, 0] ++ addr1.toList ++ addr2.toList ++ addr3.toList ++
    [UInt8.ofNat (seq <<< 4 &&& 0xf0), UInt8.ofNat (seq <<< 4 >>> 8)]

/-- The frame with its header. -/
def newFrame (extbuf : Area extbufSize) (hdr : List UInt8) : Except Fault MgntFrame := do
  let buf ← extbuf.copyIn 0 (List.replicate (wlanhdrOffset + txdescOffset) 0)
  let buf ← buf.copyIn txdescOffset hdr
  .ok ⟨buf, txdescOffset + hdrLen, hdrLen⟩

/-- `memcpy(pframe, src + off, n)`, and both counters go on by `n`. -/
def MgntFrame.append (m : MgntFrame) (src : List UInt8) (off n : ℕ) : Except Fault MgntFrame := do
  let bytes ← readBytes src off n
  let buf ← m.buf.copyIn m.pframe bytes
  .ok ⟨buf, m.pframe + n, m.pktlen + n⟩

/-- The elements in the frame. -/
def MgntFrame.elements (m : MgntFrame) : List UInt8 :=
  (m.buf.bytes.take (txdescOffset + m.pktlen)).drop (txdescOffset + hdrLen + fixedIeLength)

/-- `update_hidden_ssid` for the `iesLen` bytes at `ies`: the buffer, and by how much they are
    shorter. -/
def updateHiddenSsid (buf : Area extbufSize) (ies iesLen : ℕ) (mode : UInt8) :
    Except Fault (Area extbufSize × ℕ) := do
  let f := bytesAt buf.bytes ies iesLen
  let found ← getIe f 0 iesLen 0
  match found with
  | none => .ok (buf, 0)
  | some (ssidIe, ssidLenOri) =>
    if ssidLenOri = 0 then .ok (buf, 0)
    else if mode = 1 then do
      let nextIe := ssidIe + 2 + ssidLenOri
      let rest ← readBytes f nextIe (wrapSub iesLen nextIe)
      let buf ← buf.copyIn (ies + (ssidIe + 1)) [0]
      let buf ← buf.copyIn (ies + (ssidIe + 2)) rest
      .ok (buf, ssidLenOri)
    else if mode = 2 then do
      let buf ← buf.copyIn (ies + (ssidIe + 2)) (List.replicate ssidLenOri 0)
      .ok (buf, 0)
    else .ok (buf, 0)

/-- `WPS_ATTR_SELECTED_REGISTRAR`. -/
def wpsAttrSelectedRegistrar : ℕ := 0x1041

/-- `sr`, a variable of one byte, for the WPS element at the beginning of `f`. -/
def selectedRegistrar (f : List UInt8) (wpsIelen : ℕ) : Except Fault UInt8 := do
  let found ← rtwGetWpsAttrContent f wpsIelen wpsAttrSelectedRegistrar ⟨true, false⟩
  match found with
  | none => .ok 0
  | some content => do
    let sr ← (Area.zero 1).copyIn 0 content.buf
    .ok (sr.bytes.getD 0 0)

/-- `sr` for the elements of a frame (lines 2591–2602). -/
def registrarOf (f : List UInt8) (inLen : ℕ) : Except Fault UInt8 := do
  let wps ← rtwGetWpsIe f 0 inLen ⟨false, true⟩
  match wps with
  | none => .ok 0
  | some r => if 0 < r.ielen then selectedRegistrar (f.drop r.place) r.ielen else .ok 0

/-- The beacon, whether `WIFI_UNDER_WPS` is set, and whether the beacon is sent. -/
structure Beacon where
  frame : MgntFrame
  underWps : Bool
  sent : Bool

def bcAddr : MacAddr := Vector.replicate 6 0xff

/-- `issue_beacon`. -/
def issueBeacon (e : Env) (n : Network) : Except Fault Beacon := do
  let m ← newFrame e.extbuf (mgntHdr 0x80 bcAddr e.macAddr n.macAddress 0)
  let bytes ← readBytes n.ies.bytes 0 n.ieLength
  let buf ← m.buf.copyIn m.pframe bytes
  let r ← updateHiddenSsid buf (m.pframe + beaconIeOffset) (n.ieLength - beaconIeOffset)
    e.hiddenSsidMode
  let m := ⟨r.1, m.pframe + (n.ieLength - r.2), m.pktlen + (n.ieLength - r.2)⟩
  let sr ← registrarOf (MgntFrame.elements m) (wrapSub (wrapSub m.pktlen hdrLen) beaconIeOffset)
  .ok ⟨m, sr != 0, m.pktlen + txdescSize ≤ 512⟩

/-- A part of the body that is left out when it would be too long. -/
def MgntFrame.appendIf (fits : Bool) (m : MgntFrame) (src : List UInt8) (off n : ℕ) :
    Except Fault MgntFrame := if fits then m.append src off n else .ok m

/-- The elements with the WPS element `wps` in the place of the one at `wpsOffset`
    (lines 2752–2785). -/
def spliceWps (n : Network) (wps : List UInt8) (wpsOffset wpsIelen : ℕ) (m : MgntFrame) :
    Except Fault MgntFrame := do
  let m ← m.append n.ies.bytes 0 wpsOffset
  let len ← readByte wps 1
  let remainder := wrapSub (wrapSub n.ieLength wpsOffset) wpsIelen
  let m ← m.appendIf (wpsOffset + len.toNat + 2 ≤ maxIeSz) wps 0 (len.toNat + 2)
  m.appendIf (wpsOffset + len.toNat + 2 + remainder ≤ maxIeSz) n.ies.bytes (wpsOffset + wpsIelen)
    remainder

/-- The body (lines 2747–2792). -/
def copyIes (e : Env) (n : Network) (m : MgntFrame) : Except Fault MgntFrame := do
  let found ← rtwGetWpsIe (n.ies.bytes.drop fixedIeLength) 0 (wrapSub n.ieLength fixedIeLength)
    ⟨false, true⟩
  match e.wpsProbeRespIe, found with
  | some wps, some r =>
    if 0 < r.ielen then spliceWps n wps (fixedIeLength + r.place) r.ielen m
    else m.append n.ies.bytes 0 n.ieLength
  | _, _ => m.append n.ies.bytes 0 n.ieLength

/-- `memcpy(remainder_ie + ssid_ielen_diff, bytes, ...)`, where `dst` is `remainder_ie` with the
    new length. -/
def moveRemainder (buf : Area extbufSize) (dst ssidIelen : ℕ) (bytes : List UInt8) :
    Except Fault (Area extbufSize) :=
  if dst < ssidIelen then .error .beyond else buf.copyIn (dst - ssidIelen) bytes

/-- The SSID of the network in the frame (lines 2794–2826). -/
def replaceSsid (n : Network) (m : MgntFrame) : Except Fault MgntFrame := do
  let ies := txdescOffset + hdrLen
  let found ← getIe m.elements 0 (m.pframe - ies - fixedIeLength) 0
  match found with
  | none => .ok m
  | some (p, ssidIelen) =>
    if n.ssidLength = 0 then .ok m
    else do
      let ssidIe := ies + fixedIeLength + p
      let remainderIe := ssidIe + 2
      let remainder := m.pframe - remainderIe
      let remainder := if maxIeSz < remainder then maxIeSz else remainder
      let bytes ← readBytes m.buf.bytes remainderIe remainder
      let tmp ← (Area.zero maxIeSz).copyIn 0 bytes
      let bytes ← readBytes tmp.bytes 0 remainder
      let buf ← moveRemainder m.buf (remainderIe + n.ssidLength) ssidIelen bytes
      let buf ← buf.copyIn (ssidIe + 1) [UInt8.ofNat n.ssidLength]
      let name ← readBytes n.ssid.bytes 0 n.ssidLength
      let buf ← buf.copyIn (ssidIe + 2) name
      .ok ⟨buf, m.pframe + n.ssidLength - ssidIelen, m.pktlen + n.ssidLength - ssidIelen⟩

/-- `issue_probersp` to `da`; nothing is sent for elements that are too long. -/
def issueProbersp (e : Env) (n : Network) (da : MacAddr) : Except Fault (Option MgntFrame) := do
  let m ← newFrame e.extbuf (mgntHdr 0x50 da e.macAddr n.macAddress e.mgntSeq)
  if maxIeSz < n.ieLength then .ok none
  else do
    let m ← copyIes e n m
    let m ← replaceSsid n m
    .ok (some m)

/-! ## What the bodies should be -/

/-- An SSID element, and a WPS element. -/
def IsSsid (x : Elem) : Prop := x.id = 0

def IsWps (x : Elem) : Prop := Matches 221 (some wpsOui) x

instance : DecidablePred IsSsid := fun x => inferInstanceAs (Decidable (x.id = 0))

instance : DecidablePred IsWps := fun x =>
  inferInstanceAs (Decidable (Matches 221 (some wpsOui) x))

theorem zeros_length_lt (x : Elem) : (List.replicate x.data.length (0 : UInt8)).length < 256 := by
  rw [List.length_replicate]
  exact x.length_lt

/-- An element without data, and one with zeros. -/
def emptied (x : Elem) : Elem := ⟨x.id, [], Nat.succ_pos 255⟩

def zeroed (x : Elem) : Elem := ⟨x.id, List.replicate x.data.length 0, zeros_length_lt x⟩

/-- The elements with the SSID hidden. -/
def hide (mode : UInt8) (es : List Elem) : List Elem :=
  if mode = 1 then es.replaceFirst IsSsid emptied
  else if mode = 2 then es.replaceFirst IsSsid zeroed
  else es

/-- A network: its fixed fields, its elements, what is behind them in the array, and an SSID. -/
structure Bss where
  macAddress : MacAddr
  fixed : List UInt8
  elements : List Elem
  behind : List UInt8
  ssidLength : ℕ
  ssidField : Area lengthSsid
  fixed_length : fixed.length = fixedIeLength
  ies_length : (fixed ++ (encodeAll elements ++ behind)).length = maxIeSz
  ssidLength_le : ssidLength ≤ lengthSsid

/-- The record of it. -/
def Bss.network (b : Bss) : Network where
  macAddress := b.macAddress
  ssidLength := b.ssidLength
  ssid := b.ssidField
  ieLength := fixedIeLength + (encodeAll b.elements).length
  ies := ⟨b.fixed ++ (encodeAll b.elements ++ b.behind), b.ies_length⟩

def Bss.ssid (b : Bss) : List UInt8 := b.ssidField.bytes.take b.ssidLength

theorem Bss.length_ssid (b : Bss) : b.ssid.length = b.ssidLength := by
  rw [Bss.ssid, List.length_take, b.ssidField.length_eq, Nat.min_eq_left b.ssidLength_le]

theorem Bss.ssid_lt (b : Bss) : b.ssid.length < 256 := by
  have hle := b.ssidLength_le
  rw [lengthSsid] at hle
  rw [b.length_ssid]
  omega

/-- The SSID element of the network. -/
def Bss.ssidElem (b : Bss) : Elem := ⟨0, b.ssid, b.ssid_lt⟩

/-- The elements with the SSID of the network, if it has one. -/
def withSsid (b : Bss) (es : List Elem) : List Elem :=
  if b.ssidLength = 0 then es else es.replaceFirst IsSsid fun _ => b.ssidElem

/-- The elements with the WPS element of user space, if there is one. -/
def withWps (wps : Option {x : Elem // IsWps x}) (es : List Elem) : List Elem :=
  match wps with
  | none => es
  | some w => es.replaceFirst IsWps fun _ => w.val

/-- An access point. -/
structure AccessPoint where
  bss : Bss
  macAddr : MacAddr
  mgntSeq : ℕ
  hiddenSsidMode : UInt8
  wpsProbeResp : Option {x : Elem // IsWps x}
  extbuf : Area extbufSize

def AccessPoint.env (a : AccessPoint) : Env where
  macAddr := a.macAddr
  mgntSeq := a.mgntSeq
  hiddenSsidMode := a.hiddenSsidMode
  wpsProbeRespIe := a.wpsProbeResp.map fun w => w.val.encode
  extbuf := a.extbuf

/-- The bytes in front of the elements, from the beginning of the buffer on. -/
def AccessPoint.head (a : AccessPoint) (hdr : List UInt8) : List UInt8 :=
  List.replicate txdescOffset 0 ++ (hdr ++ a.bss.fixed)

def AccessPoint.beaconHdr (a : AccessPoint) : List UInt8 :=
  mgntHdr 0x80 bcAddr a.macAddr a.bss.macAddress 0

def AccessPoint.proberspHdr (a : AccessPoint) (da : MacAddr) : List UInt8 :=
  mgntHdr 0x50 da a.macAddr a.bss.macAddress a.mgntSeq

/-- The buffer begins with these bytes, they end with the frame, and `pktlen` counts those behind
    the descriptor. -/
def MgntFrame.Is (m : MgntFrame) (bytes : List UInt8) : Prop :=
  (∃ rest, m.buf.bytes = bytes ++ rest) ∧ m.pframe = bytes.length ∧
    txdescOffset + m.pktlen = bytes.length

/-- The beacon has the elements of the network with the SSID hidden. -/
def BeaconRight (a : AccessPoint) : Prop :=
  ∃ r, issueBeacon a.env a.bss.network = .ok r ∧
    r.frame.Is (a.head a.beaconHdr ++ encodeAll (hide a.hiddenSsidMode a.bss.elements))

/-- The elements that a probe response should have. -/
def AccessPoint.wanted (a : AccessPoint) : List Elem :=
  withSsid a.bss (withWps a.wpsProbeResp a.bss.elements)

def ProberspRight (a : AccessPoint) (da : MacAddr) : Prop :=
  ∃ m, issueProbersp a.env a.bss.network da = .ok (some m) ∧
    m.Is (a.head (a.proberspHdr da) ++ encodeAll a.wanted)

/-! ## When they are -/

/-- The search for a WPS element ends at this one, which is followed by `rest`. -/
def Seen (x : Elem) (rest : List UInt8) : Prop :=
  x.id = 221 ∧ OuiSame (some wpsOui) (x.data ++ rest)

/-- Up to an element that is right, with what follows it, the search passes every one. -/
def Reaches (right : Elem → List UInt8 → Prop) (behind : List UInt8) : List Elem → Prop
  | [] => True
  | x :: es => right x (encodeAll es ++ behind) ∨
      Passes 221 (some wpsOui) x.id (x.data ++ (encodeAll es ++ behind)) ∧ Reaches right behind es

/-- The search for the attribute stays in the frame, and it has room in the variable. -/
def RegistrarFits (x : Elem) (rest : List UInt8) : Prop :=
  Seen x rest ∧ Fine (selectedRegistrar (x.encode ++ rest) x.encode.length)

def BeaconFits (a : AccessPoint) : Prop :=
  Reaches RegistrarFits [] (hide a.hiddenSsidMode a.bss.elements)

/-- The bytes of this SSID that are moved in front of its length are there already. -/
def KeepsFront (b : Bss) (x : Elem) (front : List UInt8) : Prop :=
  x.data.take (x.data.length - (b.ssidLength + 1)) <:+ front

/-- The same for the first SSID of the elements, if it is replaced. -/
def SsidFits (b : Bss) (head : List UInt8) (es : List Elem) : Prop :=
  b.ssidLength = 0 ∨ ∀ es₁ x es₂, es = es₁ ++ x :: es₂ → IsSsid x → (∀ y ∈ es₁, ¬ IsSsid y) →
    KeepsFront b x (head ++ (encodeAll es₁ ++ [0]))

/-- The search for a WPS element is right, if there is one to be put in its place, and there is
    room for it. -/
def WpsFits (a : AccessPoint) : Prop :=
  Reaches (fun x rest => if a.wpsProbeResp = none then Seen x rest else IsWps x)
      a.bss.behind a.bss.elements ∧
    fixedIeLength + (encodeAll (withWps a.wpsProbeResp a.bss.elements)).length ≤ maxIeSz

def ProberspFits (a : AccessPoint) (da : MacAddr) : Prop :=
  WpsFits a ∧
    SsidFits a.bss (a.head (a.proberspHdr da)) (withWps a.wpsProbeResp a.bss.elements)

/-- Both bodies have the elements that they should have. -/
def Right (a : AccessPoint) (da : MacAddr) : Prop := BeaconRight a ∧ ProberspRight a da

def Fits (a : AccessPoint) (da : MacAddr) : Prop := BeaconFits a ∧ ProberspFits a da

/-! ## The frame that is built -/

section building

variable {m : MgntFrame} {front src : List UInt8} {off n : ℕ}

theorem mgntHdr_length (subtype : UInt8) (addr1 addr2 addr3 : MacAddr) (seq : ℕ) :
    (mgntHdr subtype addr1 addr2 addr3 seq).length = hdrLen := by
  simp only [mgntHdr, List.length_append, Vector.length_toList, List.length_cons, List.length_nil]
  rfl

theorem newFrame_is (extbuf : Area extbufSize) {hdr : List UInt8} (hhdr : hdr.length = hdrLen) :
    ∃ m, newFrame extbuf hdr = .ok m ∧ m.Is (List.replicate txdescOffset 0 ++ hdr) := by
  have hlen := extbuf.length_eq
  obtain ⟨buf, hcopy, hbuf⟩ := @Area.copyIn_middle _ 0
    (List.replicate (wlanhdrOffset + txdescOffset) 0) extbuf []
    (extbuf.bytes.take (wlanhdrOffset + txdescOffset))
    (extbuf.bytes.drop (wlanhdrOffset + txdescOffset)) (List.take_append_drop _ _).symm rfl
    (by rw [List.length_take, hlen, List.length_replicate]; rfl)
  have hsplit : buf.bytes = List.replicate txdescOffset 0 ++ (List.replicate hdrLen 0 ++
      (List.replicate (wlanhdrOffset - hdrLen) 0 ++
        extbuf.bytes.drop (wlanhdrOffset + txdescOffset))) := by
    have hzeros : List.replicate (wlanhdrOffset + txdescOffset) (0 : UInt8) =
        List.replicate txdescOffset 0 ++ (List.replicate hdrLen 0 ++
          List.replicate (wlanhdrOffset - hdrLen) 0) := rfl
    rw [hbuf, List.nil_append, hzeros, List.append_assoc, List.append_assoc]
  obtain ⟨buf', hcopy', hbuf'⟩ := @Area.copyIn_middle _ txdescOffset hdr buf _ _ _ hsplit
    List.length_replicate (List.length_replicate.trans hhdr.symm)
  refine ⟨⟨buf', txdescOffset + hdrLen, hdrLen⟩, ?_,
    ⟨_, hbuf'.trans (List.append_assoc _ _ _).symm⟩, ?_, ?_⟩
  · rw [newFrame, hcopy, bind_ok, hcopy', bind_ok]
  · rw [List.length_append, List.length_replicate, hhdr]
  · rw [List.length_append, List.length_replicate, hhdr]

theorem append_is (hm : m.Is front) (hin : off + n ≤ src.length)
    (hroom : front.length + n ≤ extbufSize) :
    ∃ m', m.append src off n = .ok m' ∧ m'.Is (front ++ bytesAt src off n) := by
  obtain ⟨⟨rest, hbuf⟩, hframe, hlen⟩ := hm
  have hbytes : (bytesAt src off n).length = n := by
    rw [bytesAt, List.length_take, List.length_drop]
    omega
  have hsize := m.buf.length_eq
  rw [hbuf, List.length_append] at hsize
  have hsplit : m.buf.bytes = front ++ (rest.take n ++ rest.drop n) := by
    rw [List.take_append_drop, hbuf]
  obtain ⟨buf, hcopy, hbuf'⟩ := @Area.copyIn_middle _ m.pframe (bytesAt src off n) m.buf _ _ _
    hsplit hframe.symm (by rw [List.length_take, hbytes]; omega)
  refine ⟨⟨buf, m.pframe + n, m.pktlen + n⟩, ?_, ⟨rest.drop n, ?_⟩, ?_, ?_⟩
  · rw [MgntFrame.append, readBytes_of_inside (.inr hin), bind_ok, hcopy, bind_ok]
  · rw [hbuf', List.append_assoc]
  · rw [List.length_append, hbytes, hframe]
  · rw [List.length_append, hbytes, ← hlen, Nat.add_assoc]

/-- The elements in a frame that is a head and elements. -/
theorem elements_is {es : List Elem} (hm : m.Is (front ++ encodeAll es))
    (hfront : front.length = txdescOffset + hdrLen + fixedIeLength) :
    m.elements = encodeAll es := by
  obtain ⟨⟨rest, hbuf⟩, -, hlen⟩ := hm
  rw [MgntFrame.elements, hlen, hbuf, List.take_left, ← hfront, List.drop_left]

end building

/-! ## Searches -/

/-- How a search for a WPS element ends that is at `i` in front of the elements. -/
inductive Ends (behind : List UInt8) : ℕ → List Elem → Except Fault (Option Mlme.IeLookup.Found) →
    Prop where
  | nil (i : ℕ) : Ends behind i [] (.ok none)
  | hit (i : ℕ) (x : Elem) (es : List Elem) : Seen x (encodeAll es ++ behind) →
      Ends behind i (x :: es) (.ok (some ⟨i, [], x.encode.length⟩))
  | beyond (i : ℕ) (x : Elem) (es : List Elem) : x.id = 221 →
      ¬ OuiInside (some wpsOui) (x.data ++ (encodeAll es ++ behind)) →
      Ends behind i (x :: es) (.error .beyond)
  | pass (i : ℕ) (x : Elem) (es : List Elem) (r : Except Fault (Option Mlme.IeLookup.Found)) :
      Passes 221 (some wpsOui) x.id (x.data ++ (encodeAll es ++ behind)) →
      Ends behind (i + x.encode.length) es r → Ends behind i (x :: es) r

section searches

variable {f pre behind : List UInt8} {es : List Elem} {x : Elem} {i inLen : ℕ}
  {r : Except Fault (Option Mlme.IeLookup.Found)} {right : Elem → List UInt8 → Prop}

open Mlme.IeLookup in
theorem searchLoop_ends (hf : f = pre ++ (encodeAll es ++ behind))
    (hlen : inLen = pre.length + (encodeAll es).length) {fuel : ℕ}
    (hfuel : (encodeAll es).length < fuel) :
    Ends behind pre.length es (searchLoop f (takeWpsIe f ⟨false, true⟩) 0 inLen 221
      (some wpsOui) fuel pre.length) := by
  obtain ⟨fuel, rfl⟩ : ∃ n, fuel = n + 1 := ⟨fuel - 1, by omega⟩
  induction es generalizing pre fuel with
  | nil =>
    rw [encodeAll_nil, List.length_nil, Nat.add_zero] at hlen
    rw [searchLoop_end (Nat.le_of_eq hlen)]
    exact .nil _
  | cons x es ih =>
    have hx : f = pre ++ (x.encode ++ (encodeAll es ++ behind)) := by
      rw [hf, encodeAll_cons, List.append_assoc]
    have hrest : f = (pre ++ x.encode) ++ (encodeAll es ++ behind) := by
      rw [hx, List.append_assoc]
    have hnext : (pre ++ x.encode).length = pre.length + x.encode.length := List.length_append
    rw [encodeAll_cons, List.length_append] at hlen hfuel
    have hpos : x.encode.length = x.data.length + 2 := x.encode_length
    have hlt : pre.length < inLen := by omega
    by_cases hpass : Passes 221 (some wpsOui) x.id (x.data ++ (encodeAll es ++ behind))
    · obtain ⟨fuel, rfl⟩ : ∃ n, fuel = n + 1 := ⟨fuel - 1, by omega⟩
      have hend := ih hrest (by omega) fuel (by omega)
      rw [searchLoop_pass hx (Nat.zero_add _) hlt hpass, x.toNat_length, ← hpos, ← hnext]
      refine .pass _ _ _ _ hpass ?_
      rw [← hnext]
      exact hend
    · obtain ⟨hid, hout | hsame⟩ := not_passes hpass
      · rw [searchLoop_beyond hx (Nat.zero_add _) hlt hid hout]
        exact .beyond _ _ _ hid hout
      · rw [searchLoop_hit hx (Nat.zero_add _) hlt hid hsame, takeWpsIe_eq hx, bind_ok]
        exact .hit _ _ _ ⟨hid, hsame⟩

theorem rtwGetWpsIe_ends (hf : f = encodeAll es ++ behind) (hlen : inLen = (encodeAll es).length) :
    Ends behind 0 es (rtwGetWpsIe f 0 inLen ⟨false, true⟩) := by
  rw [rtwGetWpsIe]
  by_cases hzero : inLen = 0
  · obtain rfl : es = [] := encodeAll_injective (List.length_eq_zero_iff.mp (hlen ▸ hzero))
    rw [if_pos hzero]
    exact .nil _
  · rw [if_neg hzero]
    exact @searchLoop_ends f [] behind es inLen hf (by rw [hlen]; exact (Nat.zero_add _).symm) _
      (by omega)

theorem IsWps.seen (h : IsWps x) (rest : List UInt8) : Seen x rest :=
  ⟨h.1, Mlme.IeLookup.Matches.same h⟩

theorem Seen.not_passes {rest : List UInt8} (h : Seen x rest) :
    ¬ Passes 221 (some wpsOui) x.id (x.data ++ rest) := fun hpass => (hpass h.1).2 h.2

theorem Ends.found (h : Ends behind i es r) {w : Mlme.IeLookup.Found} (hr : r = .ok (some w)) :
    ∃ es₁ x es₂, es = es₁ ++ x :: es₂ ∧ w = ⟨i + (encodeAll es₁).length, [], x.encode.length⟩ ∧
      Seen x (encodeAll es₂ ++ behind) ∧ (∀ y ∈ es₁, ¬ IsWps y) ∧
      ∀ right : Elem → List UInt8 → Prop, (∀ y rest, right y rest → Seen y rest) →
        (Reaches right behind es ↔ right x (encodeAll es₂ ++ behind)) := by
  induction h with
  | nil i => cases hr
  | beyond i x es hid hout => cases hr
  | hit i x es hseen =>
    refine ⟨[], x, es, rfl, (Option.some.inj (Except.ok.inj hr)).symm, hseen,
      fun y hy => absurd hy List.not_mem_nil, fun right _ => ?_⟩
    exact or_iff_left fun h => hseen.not_passes h.1
  | pass i x es r hpass hend ih =>
    obtain ⟨es₁, y, es₂, rfl, hw, hseen, hes, hreach⟩ := ih hr
    refine ⟨x :: es₁, y, es₂, rfl, ?_, hseen, List.forall_mem_cons.mpr ⟨?_, hes⟩, ?_⟩
    · rw [hw, encodeAll_cons, List.length_append, Nat.add_assoc]
    · exact fun hwps => (hwps.seen _).not_passes hpass
    · intro right hright
      rw [Reaches, or_iff_right fun hx => (hright _ _ hx).not_passes hpass, and_iff_right hpass]
      exact hreach right hright

theorem Ends.none (h : Ends behind i es r) (hr : r = .ok none) :
    (∀ y ∈ es, ¬ IsWps y) ∧ ∀ right : Elem → List UInt8 → Prop, Reaches right behind es := by
  induction h with
  | nil i => exact ⟨fun y hy => absurd hy List.not_mem_nil, fun _ => trivial⟩
  | beyond i x es hid hout => cases hr
  | hit i x es hseen => cases hr
  | pass i x es r hpass hend ih =>
    obtain ⟨hes, hreach⟩ := ih hr
    exact ⟨List.forall_mem_cons.mpr ⟨fun hwps => (hwps.seen _).not_passes hpass, hes⟩,
      fun right => .inr ⟨hpass, hreach right⟩⟩

theorem Ends.error (h : Ends behind i es r) {e : Fault} (hr : r = .error e)
    (hright : ∀ y rest, right y rest → Seen y rest) : ¬ Reaches right behind es := by
  induction h with
  | nil i => cases hr
  | hit i x es hseen => cases hr
  | beyond i x es hid hout =>
    rintro (hx | ⟨hpass, -⟩)
    · exact hout (Mlme.IeLookup.OuiSame.inside (hright _ _ hx).2)
    · exact hout (hpass hid).1
  | pass i x es r hpass hend ih =>
    rintro (hx | ⟨-, hes⟩)
    · exact (hright _ _ hx).not_passes hpass
    · exact ih hr hes

/-- A search for the SSID among whole elements. -/
theorem getSsid_cases (es : List Elem) :
    (getIe (encodeAll es) 0 (encodeAll es).length 0 = .ok none ∧ ∀ y ∈ es, ¬ IsSsid y) ∨
    ∃ es₁ x es₂, es = es₁ ++ x :: es₂ ∧ IsSsid x ∧ (∀ y ∈ es₁, ¬ IsSsid y) ∧
      getIe (encodeAll es) 0 (encodeAll es).length 0 =
        .ok (some ((encodeAll es₁).length, x.data.length)) := by
  rcases List.exists_first_of IsSsid es with hnone | ⟨es₁, x, es₂, hes, hx, hes₁⟩
  · refine .inl ⟨?_, hnone⟩
    by_cases hpos : 0 < (encodeAll es).length
    · have hget := @Mlme.getIe_none (encodeAll es) [] (encodeAll es).length es 0 rfl hnone hpos
        (Nat.le_refl _)
      rw [if_pos rfl] at hget
      exact hget
    · rw [getIe, if_pos (by omega)]
  · refine .inr ⟨es₁, x, es₂, hes, hx, hes₁, ?_⟩
    subst hes
    have hget := @Mlme.getIe_first (encodeAll (es₁ ++ x :: es₂)) [] _ es₁ es₂ x 0 rfl hx hes₁
      (Nat.le_refl _)
    rw [List.length_nil, Nat.zero_add] at hget
    exact hget

end searches

/-! ## The beacon -/

section beacon

variable {front rest : List UInt8} {es : List Elem}

theorem wrapSub_add (a b : ℕ) : wrapSub (a + b) a = b := by
  rw [wrapSub, if_neg (by omega), Nat.add_sub_cancel_left]

theorem hide_of_not (mode : UInt8) (h : ∀ y ∈ es, ¬ IsSsid y) : hide mode es = es := by
  rw [hide, List.replaceFirst_of_not h, List.replaceFirst_of_not h, ite_self, ite_self]

theorem emptied_of_nil {x : Elem} (h : x.data = []) : emptied x = x := by
  obtain ⟨id, data, hlt⟩ := x
  obtain rfl : data = [] := h
  rfl

theorem zeroed_of_nil {x : Elem} (h : x.data = []) : zeroed x = x := by
  obtain ⟨id, data, hlt⟩ := x
  obtain rfl : data = [] := h
  rfl

theorem bytesAt_middle (a b c : List UInt8) : bytesAt (a ++ (b ++ c)) a.length b.length = b := by
  rw [bytesAt, List.drop_left, List.take_left]

/-- The length of an SSID is cleared, and what follows it goes to the front. -/
theorem emptied_written {buf : Area extbufSize} {es₁ es₂ : List Elem} {x : Elem}
    (hbuf : buf.bytes = front ++ (encodeAll (es₁ ++ x :: es₂) ++ rest)) :
    ∃ buf₁ buf₂ rest',
      buf.copyIn (front.length + ((encodeAll es₁).length + 1)) [0] = .ok buf₁ ∧
      buf₁.copyIn (front.length + ((encodeAll es₁).length + 2)) (encodeAll es₂) = .ok buf₂ ∧
      buf₂.bytes = front ++ (encodeAll (es₁ ++ emptied x :: es₂) ++ rest') := by
  obtain ⟨buf₁, hcopy₁, hbuf₁⟩ := @Area.copyIn_middle _
    (front.length + ((encodeAll es₁).length + 1)) [0] buf
    (front ++ (encodeAll es₁ ++ [x.id])) [UInt8.ofNat x.data.length]
    (x.data ++ (encodeAll es₂ ++ rest))
    (by
      rw [hbuf, encodeAll_append, encodeAll_cons, Elem.encode]
      simp only [List.append_assoc, List.cons_append, List.nil_append])
    (by rw [List.length_append, List.length_append, List.length_singleton]) rfl
  obtain ⟨buf₂, hcopy₂, hbuf₂⟩ := @Area.copyIn_middle _
    (front.length + ((encodeAll es₁).length + 2)) (encodeAll es₂) buf₁
    (front ++ (encodeAll es₁ ++ [x.id, 0]))
    ((x.data ++ encodeAll es₂).take (encodeAll es₂).length)
    ((x.data ++ encodeAll es₂).drop (encodeAll es₂).length ++ rest)
    (by
      rw [hbuf₁, ← List.append_assoc (List.take _ _), List.take_append_drop]
      simp only [List.append_assoc, List.cons_append, List.nil_append])
    (by rw [List.length_append, List.length_append]; rfl)
    (by rw [List.length_take, List.length_append]; omega)
  have hnil : UInt8.ofNat ([] : List UInt8).length = 0 := rfl
  refine ⟨buf₁, buf₂, (x.data ++ encodeAll es₂).drop (encodeAll es₂).length ++ rest, hcopy₁,
    hcopy₂, ?_⟩
  rw [hbuf₂, encodeAll_append, encodeAll_cons, Elem.encode, emptied, hnil]
  simp only [List.append_assoc, List.cons_append, List.nil_append]

/-- The bytes of an SSID are cleared. -/
theorem zeroed_written {buf : Area extbufSize} {es₁ es₂ : List Elem} {x : Elem}
    (hbuf : buf.bytes = front ++ (encodeAll (es₁ ++ x :: es₂) ++ rest)) :
    ∃ buf₁, buf.copyIn (front.length + ((encodeAll es₁).length + 2))
        (List.replicate x.data.length 0) = .ok buf₁ ∧
      buf₁.bytes = front ++ (encodeAll (es₁ ++ zeroed x :: es₂) ++ rest) := by
  obtain ⟨buf₁, hcopy₁, hbuf₁⟩ := @Area.copyIn_middle _
    (front.length + ((encodeAll es₁).length + 2)) (List.replicate x.data.length 0) buf
    (front ++ (encodeAll es₁ ++ [x.id, UInt8.ofNat x.data.length])) x.data
    (encodeAll es₂ ++ rest)
    (by
      rw [hbuf, encodeAll_append, encodeAll_cons, Elem.encode]
      simp only [List.append_assoc, List.cons_append, List.nil_append])
    (by rw [List.length_append, List.length_append]; rfl) List.length_replicate.symm
  refine ⟨buf₁, hcopy₁, ?_⟩
  rw [hbuf₁, encodeAll_append, encodeAll_cons, Elem.encode, zeroed, List.length_replicate]
  simp only [List.append_assoc, List.cons_append, List.nil_append]

theorem length_split (es₁ es₂ : List Elem) (x : Elem) :
    (encodeAll (es₁ ++ x :: es₂)).length =
      (encodeAll es₁).length + 2 + x.data.length + (encodeAll es₂).length := by
  rw [encodeAll_append, encodeAll_cons, List.length_append, List.length_append,
    Elem.encode_length]
  omega

theorem readBytes_behind (es₁ es₂ : List Elem) (x : Elem) :
    readBytes (encodeAll (es₁ ++ x :: es₂)) ((encodeAll es₁).length + 2 + x.data.length)
      (encodeAll es₂).length = .ok (encodeAll es₂) := by
  have hmid := readBytes_middle (encodeAll es₁ ++ x.encode) (encodeAll es₂) []
  rw [List.length_append, Elem.encode_length, List.append_nil, List.append_assoc] at hmid
  rw [encodeAll_append, encodeAll_cons, Nat.add_assoc, Nat.add_comm 2]
  exact hmid

/-- Only the SSID is changed, and what follows it goes to the front. -/
theorem updateHiddenSsid_eq {buf : Area extbufSize} (mode : UInt8)
    (hbuf : buf.bytes = front ++ (encodeAll es ++ rest)) :
    ∃ buf' less rest', updateHiddenSsid buf front.length (encodeAll es).length mode =
        .ok (buf', less) ∧
      buf'.bytes = front ++ (encodeAll (hide mode es) ++ rest') ∧
      (encodeAll (hide mode es)).length + less = (encodeAll es).length := by
  have hf : bytesAt buf.bytes front.length (encodeAll es).length = encodeAll es := by
    rw [hbuf, bytesAt_middle]
  rw [updateHiddenSsid]
  simp only [hf]
  rcases getSsid_cases es with ⟨hget, hnone⟩ | ⟨es₁, x, es₂, rfl, hx, hes₁, hget⟩
  · rw [hget, bind_ok, hide_of_not mode hnone]
    exact ⟨buf, 0, rest, rfl, hbuf, rfl⟩
  · rw [hget, bind_ok]
    have hfirst : ∀ g, List.replaceFirst IsSsid g (es₁ ++ x :: es₂) = es₁ ++ g x :: es₂ :=
      fun g => List.replaceFirst_first hes₁ hx
    rw [hide, hfirst, hfirst]
    by_cases hnil : x.data = []
    · rw [emptied_of_nil hnil, zeroed_of_nil hnil, ite_self, ite_self]
      exact ⟨buf, 0, rest, if_pos (List.length_eq_zero_iff.mpr hnil), hbuf, rfl⟩
    · have hne : ¬ x.data.length = 0 := fun h => hnil (List.length_eq_zero_iff.mp h)
      simp only [if_neg hne]
      by_cases hone : mode = 1
      · obtain ⟨buf₁, buf₂, rest', hcopy₁, hcopy₂, hbytes⟩ := emptied_written hbuf
        have hless : (encodeAll (es₁ ++ emptied x :: es₂)).length + x.data.length =
            (encodeAll (es₁ ++ x :: es₂)).length := by
          rw [length_split, length_split, emptied, List.length_nil]
          omega
        rw [if_pos hone, if_pos hone]
        refine ⟨buf₂, x.data.length, rest', ?_, hbytes, hless⟩
        rw [length_split es₁ es₂ x, wrapSub_add, readBytes_behind, bind_ok, hcopy₁, bind_ok, hcopy₂,
          bind_ok]
      · rw [if_neg hone, if_neg hone]
        by_cases htwo : mode = 2
        · obtain ⟨buf₁, hcopy₁, hbytes⟩ := zeroed_written hbuf
          rw [if_pos htwo, if_pos htwo, hcopy₁, bind_ok]
          refine ⟨buf₁, 0, rest, rfl, hbytes, ?_⟩
          rw [length_split, length_split, zeroed, List.length_replicate, Nat.add_zero]
        · rw [if_neg htwo, if_neg htwo]
          exact ⟨buf, 0, rest, rfl, hbuf, rfl⟩

theorem registrarOf_iff (es : List Elem) :
    Fine (registrarOf (encodeAll es) (encodeAll es).length) ↔ Reaches RegistrarFits [] es := by
  have hright : ∀ y rest, RegistrarFits y rest → Seen y rest := fun y rest h => h.1
  have hends := rtwGetWpsIe_ends (List.append_nil (encodeAll es)).symm rfl
  rw [registrarOf]
  cases hr : rtwGetWpsIe (encodeAll es) 0 (encodeAll es).length ⟨false, true⟩ with
  | error e =>
    rw [bind_error]
    exact iff_of_false (not_fine_error _) (hends.error hr hright)
  | ok r =>
    rw [bind_ok]
    cases r with
    | none => exact iff_of_true (fine_ok _) ((hends.none hr).2 _)
    | some w =>
      obtain ⟨es₁, x, es₂, rfl, rfl, hseen, -, hreach⟩ := hends.found hr
      have hdrop : (encodeAll (es₁ ++ x :: es₂)).drop (0 + (encodeAll es₁).length) =
          x.encode ++ (encodeAll es₂ ++ []) := by
        rw [Nat.zero_add, encodeAll_append, List.drop_left, encodeAll_cons, List.append_nil]
      rw [hreach _ hright, RegistrarFits, and_iff_right hseen]
      simp only [hdrop]
      exact iff_of_eq (congrArg Fine (if_pos (Nat.succ_pos _)))

theorem AccessPoint.length_head (a : AccessPoint) {hdr : List UInt8} (hhdr : hdr.length = hdrLen) :
    (a.head hdr).length = txdescOffset + hdrLen + fixedIeLength := by
  rw [AccessPoint.head, List.length_append, List.length_append, List.length_replicate, hhdr,
    a.bss.fixed_length, Nat.add_assoc]

/-- The elements of a network and what is behind them fill the array. -/
theorem Bss.length_elements (b : Bss) :
    fixedIeLength + ((encodeAll b.elements).length + b.behind.length) = maxIeSz := by
  rw [← b.fixed_length, ← List.length_append, ← List.length_append]
  exact b.ies_length

theorem Bss.ies_read (b : Bss) :
    readBytes b.network.ies.bytes 0 b.network.ieLength = .ok (b.fixed ++ encodeAll b.elements) := by
  have hmid := readBytes_middle [] (b.fixed ++ encodeAll b.elements) b.behind
  rw [List.length_append, b.fixed_length, List.nil_append, List.append_assoc] at hmid
  exact hmid

/-- The beacon with the hidden SSID, in front of the last search. -/
theorem issueBeacon_eq (a : AccessPoint) :
    ∃ m : MgntFrame,
      m.Is (a.head a.beaconHdr ++ encodeAll (hide a.hiddenSsidMode a.bss.elements)) ∧
      issueBeacon a.env a.bss.network = (do
        let sr ← registrarOf (encodeAll (hide a.hiddenSsidMode a.bss.elements))
          (encodeAll (hide a.hiddenSsidMode a.bss.elements)).length
        .ok ⟨m, sr != 0, m.pktlen + txdescSize ≤ 512⟩) := by
  have hhdr : a.beaconHdr.length = hdrLen := mgntHdr_length _ _ _ _ _
  obtain ⟨m, hnew, ⟨rest, hbuf⟩, hframe, hpktlen⟩ := newFrame_is a.extbuf hhdr
  have hhead := a.length_head hhdr
  have hfront : (List.replicate txdescOffset (0 : UInt8) ++ a.beaconHdr).length =
      txdescOffset + hdrLen := by rw [List.length_append, List.length_replicate, hhdr]
  rw [hfront] at hframe hpktlen
  have hsize := m.buf.length_eq
  rw [hbuf, List.length_append, hfront] at hsize
  have hroom := a.bss.length_elements
  have hlen : (a.bss.fixed ++ encodeAll a.bss.elements).length =
      fixedIeLength + (encodeAll a.bss.elements).length := by
    rw [List.length_append, a.bss.fixed_length]
  have hnum : txdescOffset + hdrLen + maxIeSz ≤ extbufSize := by decide
  obtain ⟨buf, hcopy, hbytes⟩ := @Area.copyIn_middle _ m.pframe
    (a.bss.fixed ++ encodeAll a.bss.elements) m.buf
    (List.replicate txdescOffset 0 ++ a.beaconHdr)
    (rest.take (fixedIeLength + (encodeAll a.bss.elements).length))
    (rest.drop (fixedIeLength + (encodeAll a.bss.elements).length))
    (by rw [List.take_append_drop, hbuf]) (by rw [hfront, hframe])
    (by rw [List.length_take, hlen]; omega)
  have hbytes' : buf.bytes = a.head a.beaconHdr ++ (encodeAll a.bss.elements ++
      rest.drop (fixedIeLength + (encodeAll a.bss.elements).length)) := by
    rw [hbytes, AccessPoint.head]
    simp only [List.append_assoc]
  obtain ⟨buf', less, rest', hhidden, hbuf', hless⟩ := updateHiddenSsid_eq a.hiddenSsidMode hbytes'
  have hie : a.bss.network.ieLength = fixedIeLength + (encodeAll a.bss.elements).length := rfl
  have hsub : a.bss.network.ieLength - beaconIeOffset = (encodeAll a.bss.elements).length :=
    Nat.add_sub_cancel_left _ _
  have hplace : m.pframe + beaconIeOffset = (a.head a.beaconHdr).length := by
    rw [hhead, hframe]
    rfl
  have hrest : a.bss.network.ieLength - less =
      fixedIeLength + (encodeAll (hide a.hiddenSsidMode a.bss.elements)).length := by
    rw [hie]
    omega
  have hlen' : m.pktlen = hdrLen := Nat.add_left_cancel hpktlen
  have his : MgntFrame.Is ⟨buf', m.pframe + (a.bss.network.ieLength - less),
      m.pktlen + (a.bss.network.ieLength - less)⟩
      (a.head a.beaconHdr ++ encodeAll (hide a.hiddenSsidMode a.bss.elements)) := by
    refine ⟨⟨rest', hbuf'.trans (List.append_assoc _ _ _).symm⟩, ?_, ?_⟩
    · rw [List.length_append, hhead, hframe, hrest, Nat.add_assoc _ fixedIeLength]
    · show txdescOffset + (m.pktlen + (a.bss.network.ieLength - less)) = _
      rw [List.length_append, hhead, hlen', hrest]
      omega
  have hwrap : wrapSub (wrapSub (m.pktlen + (a.bss.network.ieLength - less)) hdrLen)
      beaconIeOffset = (encodeAll (hide a.hiddenSsidMode a.bss.elements)).length := by
    rw [hlen', wrapSub_add, hrest, beaconIeOffset, fixedIeLength, wrapSub_add]
  refine ⟨_, his, ?_⟩
  have hnew' : newFrame a.env.extbuf (mgntHdr 0x80 bcAddr a.env.macAddr
      a.bss.network.macAddress 0) = .ok m := hnew
  rw [issueBeacon, hnew', bind_ok, a.bss.ies_read, bind_ok, hcopy, bind_ok, hsub, hplace]
  have hmode : a.env.hiddenSsidMode = a.hiddenSsidMode := rfl
  rw [hmode, hhidden, bind_ok]
  dsimp only
  rw [elements_is his hhead, hwrap]

theorem beacon_right_iff (a : AccessPoint) : BeaconRight a ↔ BeaconFits a := by
  obtain ⟨m, hm, heq⟩ := issueBeacon_eq a
  rw [BeaconRight, BeaconFits, ← registrarOf_iff, heq]
  constructor
  · rintro ⟨r, hr, -⟩
    exact ((fine_bind).mp ⟨r, hr⟩).imp fun sr h => h.1
  · rintro ⟨sr, hsr⟩
    rw [hsr, bind_ok]
    exact ⟨_, rfl, hm⟩

end beacon

/-! ## The SSID in a probe response -/

section ssid

variable {buf : Area extbufSize} {q data rest name : List UInt8} {k : ℕ}

/-- Bytes that are moved back to end behind the `k + 1` first ones keep these but the last, if and
    only if those that come there are the same. -/
theorem moved_iff (hq : q.length = k) (hroom : data.length ≤ k + 1 + name.length) :
    (((q ++ rest).take (k + 1 + name.length - data.length)) ++ data).take k = q ↔
      data.take (data.length - (name.length + 1)) <:+ q := by
  by_cases hshort : data.length ≤ name.length + 1
  · have hkeep : (((q ++ rest).take (k + 1 + name.length - data.length)) ++ data).take k = q := by
      have hlen : (q ++ rest).length = k + rest.length := by rw [List.length_append, hq]
      rw [List.take_append_of_le_length (by rw [List.length_take, hlen]; omega), List.take_take,
        Nat.min_eq_left (by omega), List.take_left' hq]
    rw [Nat.sub_eq_zero_of_le hshort, List.take_zero]
    exact iff_of_true hkeep List.nil_suffix
  · obtain ⟨c, hc⟩ : ∃ c, data.length = name.length + 1 + c :=
      ⟨data.length - (name.length + 1), by omega⟩
    have hplace : k + 1 + name.length - data.length = k - c := by omega
    have hover : data.length - (name.length + 1) = c := by omega
    have hkept : (q.take (k - c)).length = k - c := by rw [List.length_take, hq]; omega
    have hcame : (data.take c).length = c := by rw [List.length_take]; omega
    have hfirst : (q ++ rest).take (k - c) = q.take (k - c) :=
      List.take_append_of_le_length (by omega)
    have htake : (q.take (k - c) ++ data).take k = q.take (k - c) ++ data.take c := by
      rw [List.take_append, hkept, List.take_of_length_le (by omega), Nat.sub_sub_self (by omega)]
    rw [hplace, hover, hfirst, htake, List.suffix_iff_eq_drop, hcame, hq]
    constructor
    · intro h
      have hdrop := congrArg (List.drop (k - c)) h
      rw [List.drop_left' hkept] at hdrop
      exact hdrop
    · intro h
      rw [h, List.take_append_drop]

/-- The rest of the elements is moved, then the length and the SSID are written. -/
theorem moved_written (v : UInt8) (hdata : data.length ≤ k + 1 + name.length)
    (hroom : k + 1 + name.length + rest.length ≤ extbufSize) :
    ∃ buf₁ buf₂ buf₃ tail',
      buf.copyIn (k + 1 + name.length - data.length) (data ++ rest) = .ok buf₁ ∧
      buf₁.copyIn k [v] = .ok buf₂ ∧ buf₂.copyIn (k + 1) name = .ok buf₃ ∧
      buf₃.bytes = ((buf.bytes.take (k + 1 + name.length - data.length)) ++ data).take k ++
        (v :: (name ++ (rest ++ tail'))) := by
  have hsize := buf.length_eq
  set o := k + 1 + name.length - data.length with ho
  set moved := buf.bytes.take o ++ data with hmoved
  have hlen : moved.length = k + 1 + name.length := by
    rw [hmoved, List.length_append, List.length_take, hsize]
    omega
  obtain ⟨buf₁, hcopy₁, hbuf₁⟩ := @Area.copyIn_middle _ o (data ++ rest) buf (buf.bytes.take o)
    ((buf.bytes.drop o).take (data ++ rest).length)
    ((buf.bytes.drop o).drop (data ++ rest).length)
    (by rw [List.take_append_drop, List.take_append_drop])
    (by rw [List.length_take, hsize]; omega)
    (by rw [List.length_take, List.length_drop, hsize, List.length_append]; omega)
  obtain ⟨buf₂, hcopy₂, hbuf₂⟩ := @Area.copyIn_middle _ k [v] buf₁ (moved.take k)
    ((moved.drop k).take 1)
    ((moved.drop k).drop 1 ++ (rest ++ (buf.bytes.drop o).drop (data ++ rest).length))
    (by
      rw [hbuf₁, ← List.append_assoc (List.take 1 _), List.take_append_drop,
        ← List.append_assoc (List.take k _), List.take_append_drop, hmoved]
      simp only [List.append_assoc])
    (by rw [List.length_take, hlen]; omega)
    (by rw [List.length_take, List.length_drop, hlen, List.length_singleton]; omega)
  obtain ⟨buf₃, hcopy₃, hbuf₃⟩ := @Area.copyIn_middle _ (k + 1) name buf₂ (moved.take k ++ [v])
    ((moved.drop k).drop 1)
    (rest ++ (buf.bytes.drop o).drop (data ++ rest).length)
    (by rw [hbuf₂]; simp only [List.append_assoc])
    (by rw [List.length_append, List.length_take, hlen, List.length_singleton]; omega)
    (by rw [List.length_drop, List.length_drop, hlen]; omega)
  refine ⟨buf₁, buf₂, buf₃, (buf.bytes.drop o).drop (data ++ rest).length, hcopy₁, hcopy₂, hcopy₃,
    hbuf₃.trans ?_⟩
  simp only [List.append_assoc, List.cons_append, List.nil_append]

/-- Bytes that go through `buf[MAX_IE_SZ]`. -/
theorem through_tmp {α : Type} {bytes : List UInt8} {n : ℕ} (hn : bytes.length = n)
    (hle : n ≤ maxIeSz) (g : List UInt8 → Except Fault α) :
    (do
      let tmp ← (Area.zero maxIeSz).copyIn 0 bytes
      let bytes ← readBytes tmp.bytes 0 n
      g bytes) = g bytes := by
  subst hn
  have htake := (Area.zero maxIeSz).take_put_zero hle
  have hin : Inside ((Area.zero maxIeSz).put 0 bytes).bytes 0 bytes.length :=
    .inr (by rw [Area.length_eq]; omega)
  rw [Area.copyIn_of_le _ (by omega), bind_ok, readBytes_of_inside hin, bind_ok, bytesAt,
    List.drop_zero, htake]

variable {b : Bss} {m : MgntFrame} {head : List UInt8} {es : List Elem}

theorem Bss.ssid_read (b : Bss) :
    readBytes b.network.ssid.bytes 0 b.network.ssidLength = .ok b.ssid := by
  have hlen := b.network.ssid.length_eq
  exact readBytes_of_inside (.inr (by rw [hlen, Nat.zero_add]; exact b.ssidLength_le))

/-- What is known of a frame with an SSID in front of its length, at `q.length`. -/
structure HasSsid (m : MgntFrame) (q : List UInt8) (x : Elem) (es₂ : List Elem) : Prop where
  bytes : ∃ tail, m.buf.bytes = q ++ ([UInt8.ofNat x.data.length] ++
    ((x.data ++ encodeAll es₂) ++ tail))
  pframe : m.pframe = q.length + 1 + (x.data ++ encodeAll es₂).length
  pktlen : txdescOffset + m.pktlen = m.pframe
  room : q.length + (x.data ++ encodeAll es₂).length < txdescOffset + hdrLen + maxIeSz

theorem hasSsid {es₁ es₂ : List Elem} {x : Elem} (hx : IsSsid x)
    (hm : m.Is (head ++ encodeAll (es₁ ++ x :: es₂)))
    (hhead : head.length = txdescOffset + hdrLen + fixedIeLength)
    (hroom : fixedIeLength + (encodeAll (es₁ ++ x :: es₂)).length ≤ maxIeSz) :
    HasSsid m (head ++ (encodeAll es₁ ++ [0])) x es₂ := by
  obtain ⟨⟨tail, hbuf⟩, hframe, hpktlen⟩ := hm
  have hlen : (head ++ (encodeAll es₁ ++ [0])).length =
      head.length + (encodeAll es₁).length + 1 := by
    rw [List.length_append, List.length_append, List.length_singleton, Nat.add_assoc]
  rw [length_split] at hroom
  refine ⟨⟨tail, ?_⟩, ?_, hpktlen.trans hframe.symm, ?_⟩
  · have hid : x.id = 0 := hx
    rw [hbuf, encodeAll_append, encodeAll_cons, Elem.encode, hid]
    simp only [List.append_assoc, List.cons_append, List.nil_append]
  · rw [hframe, hlen, List.length_append, length_split, List.length_append]
    omega
  · rw [hlen, hhead, List.length_append]
    omega

/-- The lines 2813–2824 for such a frame. -/
theorem replace_hasSsid {q : List UInt8} {x : Elem} {es₂ : List Elem} (h : HasSsid m q x es₂) :
    (moveRemainder m.buf (q.length + 1 + b.ssidLength) x.data.length (x.data ++ encodeAll es₂) =
        .error .beyond ∧ ¬ KeepsFront b x q) ∨
    ∃ buf₁ buf₂ buf₃ p tail,
      moveRemainder m.buf (q.length + 1 + b.ssidLength) x.data.length (x.data ++ encodeAll es₂) =
        .ok buf₁ ∧
      buf₁.copyIn q.length [UInt8.ofNat b.ssidLength] = .ok buf₂ ∧
      buf₂.copyIn (q.length + 1) b.ssid = .ok buf₃ ∧
      buf₃.bytes = p ++ (UInt8.ofNat b.ssidLength :: (b.ssid ++ (encodeAll es₂ ++ tail))) ∧
      x.data.length ≤ q.length + 1 + b.ssidLength ∧
      p.length = q.length ∧ (p = q ↔ KeepsFront b x q) := by
  have hname := b.length_ssid
  rw [moveRemainder, KeepsFront]
  by_cases hlt : q.length + 1 + b.ssidLength < x.data.length
  · refine .inl ⟨if_pos hlt, fun hsuffix => ?_⟩
    have hle := hsuffix.length_le
    rw [List.length_take] at hle
    omega
  · obtain ⟨⟨tail, hbytes⟩, hpframe, -, hroom⟩ := h
    have hle := b.ssidLength_le
    have hnum : txdescOffset + hdrLen + maxIeSz + lengthSsid < extbufSize := by decide
    rw [List.length_append] at hroom
    obtain ⟨buf₁, buf₂, buf₃, tail', h₁, h₂, h₃, h₄⟩ := @moved_written m.buf x.data
      (encodeAll es₂) b.ssid q.length (UInt8.ofNat b.ssidLength) (by omega) (by omega)
    have hmoved := @moved_iff q x.data ([UInt8.ofNat x.data.length] ++
      ((x.data ++ encodeAll es₂) ++ tail)) b.ssid q.length rfl (by omega)
    rw [← hbytes, hname] at hmoved
    rw [hname] at h₁ h₄
    refine .inr ⟨buf₁, buf₂, buf₃, _, tail', (if_neg hlt).trans h₁, h₂, h₃, h₄, by omega, ?_,
      hmoved⟩
    rw [List.length_take, List.length_append, List.length_take, m.buf.length_eq]
    omega

/-- The SSID stays, or it is replaced, and what stands in front of its length stays as long as
    `KeepsFront` says. -/
theorem replaceSsid_cases (hm : m.Is (head ++ encodeAll es))
    (hhead : head.length = txdescOffset + hdrLen + fixedIeLength)
    (hroom : fixedIeLength + (encodeAll es).length ≤ maxIeSz) :
    ((b.ssidLength = 0 ∨ ∀ y ∈ es, ¬ IsSsid y) ∧ replaceSsid b.network m = .ok m) ∨
    ∃ es₁ x es₂, es = es₁ ++ x :: es₂ ∧ b.ssidLength ≠ 0 ∧ IsSsid x ∧ (∀ y ∈ es₁, ¬ IsSsid y) ∧
      ((replaceSsid b.network m = .error .beyond ∧
        ¬ KeepsFront b x (head ++ (encodeAll es₁ ++ [0]))) ∨
      ∃ m' q, replaceSsid b.network m = .ok m' ∧
        m'.Is (q ++ UInt8.ofNat b.ssidLength :: (b.ssid ++ encodeAll es₂)) ∧
        q.length = (head ++ (encodeAll es₁ ++ [0])).length ∧
        (q = head ++ (encodeAll es₁ ++ [0]) ↔
          KeepsFront b x (head ++ (encodeAll es₁ ++ [0])))) := by
  have helems := elements_is hm hhead
  have hlimit : m.pframe - (txdescOffset + hdrLen) - fixedIeLength = (encodeAll es).length := by
    rw [hm.2.1, List.length_append, hhead]
    omega
  rw [replaceSsid]
  simp only [helems, hlimit]
  rcases getSsid_cases es with ⟨hget, hnone⟩ | ⟨es₁, x, es₂, rfl, hx, hes₁, hget⟩
  · rw [hget, bind_ok]
    exact .inl ⟨.inr hnone, rfl⟩
  · rw [hget, bind_ok]
    by_cases hzero : b.ssidLength = 0
    · exact .inl ⟨.inl hzero, if_pos hzero⟩
    · have hzero' : ¬ b.network.ssidLength = 0 := hzero
      simp only [if_neg hzero']
      refine .inr ⟨es₁, x, es₂, rfl, hzero, hx, hes₁, ?_⟩
      have hssid := hasSsid hx hm hhead hroom
      obtain ⟨q, hq⟩ : ∃ q, q = head ++ (encodeAll es₁ ++ [0]) := ⟨_, rfl⟩
      rw [← hq] at hssid ⊢
      have hplace : txdescOffset + hdrLen + fixedIeLength + (encodeAll es₁).length + 1 =
          q.length := by
        rw [hq, List.length_append, hhead, List.length_append, List.length_singleton, Nat.add_assoc]
      have hplace' : txdescOffset + hdrLen + fixedIeLength + (encodeAll es₁).length + 2 =
          q.length + 1 := by rw [← hplace]
      have hcount : m.pframe - (q.length + 1) = (x.data ++ encodeAll es₂).length := by
        rw [hssid.pframe, Nat.add_sub_cancel_left]
      have hle : (x.data ++ encodeAll es₂).length ≤ maxIeSz := by
        rw [length_split] at hroom
        rw [List.length_append]
        omega
      have hread : readBytes m.buf.bytes (q.length + 1) (x.data ++ encodeAll es₂).length =
          .ok (x.data ++ encodeAll es₂) := by
        obtain ⟨tail, hbytes⟩ := hssid.bytes
        have hmid := readBytes_middle (q ++ [UInt8.ofNat x.data.length]) (x.data ++ encodeAll es₂)
          tail
        rw [List.length_append, List.length_singleton, List.append_assoc, ← hbytes] at hmid
        exact hmid
      simp only [hplace, hplace', hcount, if_neg (Nat.not_lt.mpr hle), hread, bind_ok]
      rw [through_tmp rfl hle]
      have hnum : b.network.ssidLength = b.ssidLength := rfl
      rw [hnum]
      rcases @replace_hasSsid b m q x es₂ hssid with ⟨hmove, hno⟩ |
        ⟨buf₁, buf₂, buf₃, p, tail, hmove, hcopy₂, hcopy₃, hbytes, hdata, hp, hiff⟩
      · rw [hmove, bind_error]
        exact .inl ⟨rfl, hno⟩
      · rw [hmove, bind_ok, hcopy₂, bind_ok]
        have hname := b.ssid_read
        rw [hnum] at hname
        rw [hname, bind_ok, hcopy₃, bind_ok]
        have hlen := hssid.pframe
        have hpkt := hssid.pktlen
        have hdesc : txdescOffset ≤ q.length := by
          rw [← hplace]
          omega
        rw [List.length_append] at hlen
        refine .inr ⟨_, p, rfl, ⟨⟨tail, ?_⟩, ?_, ?_⟩, hp, hiff⟩
        · rw [hbytes]
          simp only [List.append_assoc, List.cons_append]
        · rw [List.length_append, List.length_cons, List.length_append, hp, b.length_ssid]
          show m.pframe + b.ssidLength - x.data.length = _
          omega
        · rw [List.length_append, List.length_cons, List.length_append, hp, b.length_ssid]
          show txdescOffset + (m.pktlen + b.ssidLength - x.data.length) = _
          omega

theorem MgntFrame.Is.unique {front front' : List UInt8} (h : m.Is front) (h' : m.Is front') :
    front = front' := by
  obtain ⟨⟨rest, hbuf⟩, hlen, -⟩ := h
  obtain ⟨⟨rest', hbuf'⟩, hlen', -⟩ := h'
  exact (List.append_inj (hbuf.symm.trans hbuf') (hlen.symm.trans hlen')).1

theorem withSsid_of_not (h : b.ssidLength = 0 ∨ ∀ y ∈ es, ¬ IsSsid y) : withSsid b es = es := by
  rw [withSsid]
  by_cases hzero : b.ssidLength = 0
  · exact if_pos hzero
  · rw [if_neg hzero, List.replaceFirst_of_not (h.resolve_left hzero)]

theorem withSsid_first {es₁ es₂ : List Elem} {x : Elem} (hzero : b.ssidLength ≠ 0) (hx : IsSsid x)
    (hes₁ : ∀ y ∈ es₁, ¬ IsSsid y) :
    withSsid b (es₁ ++ x :: es₂) = es₁ ++ b.ssidElem :: es₂ := by
  rw [withSsid, if_neg hzero, List.replaceFirst_first hes₁ hx]

theorem ssidElem_encode (b : Bss) :
    b.ssidElem.encode = 0 :: UInt8.ofNat b.ssidLength :: b.ssid := by
  rw [Elem.encode, Bss.ssidElem, b.length_ssid]

theorem withSsid_bytes {es₁ es₂ : List Elem} :
    head ++ encodeAll (es₁ ++ b.ssidElem :: es₂) = (head ++ (encodeAll es₁ ++ [0])) ++
      UInt8.ofNat b.ssidLength :: (b.ssid ++ encodeAll es₂) := by
  rw [encodeAll_append, encodeAll_cons, ssidElem_encode]
  simp only [List.append_assoc, List.cons_append, List.nil_append]

theorem ssidFits_first {es₁ es₂ : List Elem} {x : Elem} (hzero : b.ssidLength ≠ 0) (hx : IsSsid x)
    (hes₁ : ∀ y ∈ es₁, ¬ IsSsid y) :
    SsidFits b head (es₁ ++ x :: es₂) ↔ KeepsFront b x (head ++ (encodeAll es₁ ++ [0])) := by
  constructor
  · intro h
    exact (h.resolve_left hzero) es₁ x es₂ rfl hx hes₁
  · intro h
    refine .inr fun e₁ y e₂ heq hy he₁ => ?_
    obtain ⟨rfl, rfl, -⟩ := List.first_unique heq hx hes₁ hy he₁
    exact h

theorem replaceSsid_right_iff (hm : m.Is (head ++ encodeAll es))
    (hhead : head.length = txdescOffset + hdrLen + fixedIeLength)
    (hroom : fixedIeLength + (encodeAll es).length ≤ maxIeSz) :
    (∃ m', replaceSsid b.network m = .ok m' ∧ m'.Is (head ++ encodeAll (withSsid b es))) ↔
      SsidFits b head es := by
  rcases @replaceSsid_cases b m head es hm hhead hroom with ⟨hsame, heq⟩ |
    ⟨es₁, x, es₂, rfl, hzero, hx, hes₁, ⟨heq, hno⟩ | ⟨m', q, heq, his, hlen, hiff⟩⟩
  · rw [withSsid_of_not hsame, heq]
    refine iff_of_true ⟨m, rfl, hm⟩ (hsame.imp id fun hnone es₁ x es₂ hes hx _ => ?_)
    exact absurd hx (hnone x (hes ▸ List.mem_append_right _ List.mem_cons_self))
  · rw [ssidFits_first hzero hx hes₁, heq]
    refine iff_of_false ?_ hno
    rintro ⟨m', hm', -⟩
    cases hm'
  · rw [ssidFits_first hzero hx hes₁, withSsid_first hzero hx hes₁, ← hiff, heq, withSsid_bytes]
    constructor
    · rintro ⟨m'', hm'', his'⟩
      obtain rfl := Except.ok.inj hm''
      exact (List.append_inj (his.unique his') hlen).1
    · intro hq
      exact ⟨m', rfl, hq ▸ his⟩

/-- What is behind the SSID stays in any case, and the length is as it should be. -/
theorem replaceSsid_behind {es' : List Elem} {m' : MgntFrame} {front : List UInt8}
    (hm : m.Is (head ++ encodeAll (es ++ es')))
    (hhead : head.length = txdescOffset + hdrLen + fixedIeLength)
    (hroom : fixedIeLength + (encodeAll (es ++ es')).length ≤ maxIeSz)
    (hes' : ∀ y ∈ es', ¬ IsSsid y) (heq : replaceSsid b.network m = .ok m') (his : m'.Is front) :
    ∃ p, front = p ++ encodeAll es' ∧
      p.length = head.length + (encodeAll (withSsid b es)).length := by
  rcases @replaceSsid_cases b m head (es ++ es') hm hhead hroom with ⟨hsame, hm'⟩ |
    ⟨es₁, x, es₂, hsplit, hzero, hx, hes₁, ⟨herr, -⟩ | ⟨m'', q, hm', his', hlen, -⟩⟩
  · obtain rfl := Except.ok.inj (hm'.symm.trans heq)
    have hsame' : b.ssidLength = 0 ∨ ∀ y ∈ es, ¬ IsSsid y :=
      hsame.imp id fun h y hy => h y (List.mem_append_left _ hy)
    refine ⟨head ++ encodeAll es, ?_, ?_⟩
    · rw [his.unique hm, encodeAll_append, List.append_assoc]
    · rw [withSsid_of_not hsame', List.length_append]
  · cases herr.symm.trans heq
  · obtain rfl := Except.ok.inj (hm'.symm.trans heq)
    rcases List.exists_first_of IsSsid es with hnone | ⟨e₁, y, e₂, rfl, hy, he₁⟩
    · have hmem : x ∈ es ++ es' := hsplit ▸ List.mem_append_right _ List.mem_cons_self
      exact absurd hx ((List.mem_append.mp hmem).elim (hnone x) (hes' x))
    · rw [List.append_assoc, List.cons_append] at hsplit
      obtain ⟨rfl, rfl, rfl⟩ := List.first_unique hsplit hy he₁ hx hes₁
      refine ⟨q ++ UInt8.ofNat b.ssidLength :: (b.ssid ++ encodeAll e₂), ?_, ?_⟩
      · rw [his.unique his', encodeAll_append]
        simp only [List.append_assoc, List.cons_append]
      · rw [withSsid_first hzero hy he₁, length_split, List.length_append, hlen]
        simp only [List.length_append, List.length_cons, List.length_nil, Bss.ssidElem]
        omega

end ssid

/-! ## The WPS element in a probe response -/

/-- What is left of the elements when `w` is put between `es₁` and `es₂`. -/
def spliced (w : Elem) (es₁ es₂ : List Elem) : List Elem :=
  if fixedIeLength + (encodeAll (es₁ ++ w :: es₂)).length ≤ maxIeSz then es₁ ++ w :: es₂
  else if fixedIeLength + (encodeAll (es₁ ++ [w])).length ≤ maxIeSz then es₁ ++ [w]
  else es₁

section wps

variable {b : Bss} {m : MgntFrame} {front src : List UInt8} {es es₁ es₂ : List Elem} {w x : Elem}
  {off n : ℕ}

theorem appendIf_pos {p : Prop} [Decidable p] (h : p) :
    m.appendIf p src off n = m.append src off n := if_pos (decide_eq_true h)

theorem appendIf_neg {p : Prop} [Decidable p] (h : ¬ p) : m.appendIf p src off n = .ok m :=
  if_neg (by rw [decide_eq_false h]; exact Bool.false_ne_true)

/-- A part of the array goes behind the frame. -/
theorem append_part {pre part post : List UInt8} (hm : m.Is front)
    (hroom : front.length + part.length ≤ extbufSize) :
    ∃ m', m.append (pre ++ (part ++ post)) pre.length part.length = .ok m' ∧
      m'.Is (front ++ part) := by
  obtain ⟨m', hm', his⟩ := @append_is m front (pre ++ (part ++ post)) pre.length part.length hm
    (by rw [List.length_append, List.length_append]; omega) hroom
  rw [bytesAt_middle] at his
  exact ⟨m', hm', his⟩

theorem spliceWps_is (hes : b.elements = es₁ ++ x :: es₂) (hm : m.Is front)
    (hfront : front.length = txdescOffset + hdrLen) :
    ∃ m', spliceWps b.network w.encode (fixedIeLength + (encodeAll es₁).length) x.encode.length m =
        .ok m' ∧ m'.Is (front ++ (b.fixed ++ encodeAll (spliced w es₁ es₂))) := by
  have hroom := b.length_elements
  rw [hes, length_split] at hroom
  have hnum : txdescOffset + hdrLen + maxIeSz ≤ extbufSize := by decide
  have hbytes : b.network.ies.bytes = (b.fixed ++ encodeAll es₁) ++ (x.encode ++
      (encodeAll es₂ ++ b.behind)) := by
    show b.fixed ++ (encodeAll b.elements ++ b.behind) = _
    rw [hes, encodeAll_append, encodeAll_cons]
    simp only [List.append_assoc]
  have hpre : (b.fixed ++ encodeAll es₁).length = fixedIeLength + (encodeAll es₁).length := by
    rw [List.length_append, b.fixed_length]
  have hpre' : (b.fixed ++ encodeAll es₁ ++ x.encode).length =
      fixedIeLength + (encodeAll es₁).length + x.encode.length := by
    rw [List.length_append, hpre]
  have hlen : w.data.length + 2 = w.encode.length := rfl
  have hlast : (encodeAll (es₁ ++ [w])).length = (encodeAll es₁).length + w.encode.length := by
    rw [length_split, encodeAll_nil, List.length_nil]
    omega
  have hall : (encodeAll (es₁ ++ w :: es₂)).length =
      (encodeAll es₁).length + (w.encode.length + (encodeAll es₂).length) := by
    rw [length_split]
    omega
  have hremainder : wrapSub (wrapSub b.network.ieLength
      (fixedIeLength + (encodeAll es₁).length)) x.encode.length = (encodeAll es₂).length := by
    have hie : b.network.ieLength =
        fixedIeLength + (encodeAll es₁).length + (x.encode.length + (encodeAll es₂).length) := by
      show fixedIeLength + (encodeAll b.elements).length = _
      rw [hes, length_split, Elem.encode_length]
      omega
    rw [hie, wrapSub_add, wrapSub_add]
  obtain ⟨m₁, h₁, his₁⟩ := @append_part m front [] (b.fixed ++ encodeAll es₁)
    (x.encode ++ (encodeAll es₂ ++ b.behind)) hm (by rw [hpre, hfront]; omega)
  have hread : readByte w.encode 1 = .ok (UInt8.ofNat w.data.length) :=
    readByte_of_lt (Nat.succ_lt_succ (Nat.succ_pos _))
  rw [hpre] at h₁
  rw [spliceWps, hbytes]
  have h₁' : m.append (b.fixed ++ encodeAll es₁ ++ (x.encode ++ (encodeAll es₂ ++ b.behind))) 0
      (fixedIeLength + (encodeAll es₁).length) = .ok m₁ := h₁
  rw [h₁', bind_ok, hread, bind_ok]
  simp only [w.toNat_length, hremainder, Nat.add_assoc, hlen]
  rw [spliced, hlast, hall]
  by_cases hfit : fixedIeLength + ((encodeAll es₁).length + w.encode.length) ≤ maxIeSz
  · obtain ⟨m₂, h₂, his₂⟩ := @append_part m₁ (front ++ (b.fixed ++ encodeAll es₁)) [] w.encode []
      his₁ (by rw [List.length_append, hpre, hfront]; omega)
    rw [List.append_nil, List.nil_append, List.length_nil] at h₂
    rw [appendIf_pos hfit, h₂, bind_ok]
    by_cases hwhole : fixedIeLength + ((encodeAll es₁).length +
        (w.encode.length + (encodeAll es₂).length)) ≤ maxIeSz
    · obtain ⟨m₃, h₃, his₃⟩ := @append_part m₂
        (front ++ (b.fixed ++ encodeAll es₁) ++ w.encode)
        (b.fixed ++ encodeAll es₁ ++ x.encode) (encodeAll es₂) b.behind his₂
        (by rw [List.length_append, List.length_append, hpre, hfront]; omega)
      rw [hpre', List.append_assoc _ x.encode, Nat.add_assoc] at h₃
      rw [appendIf_pos hwhole, if_pos hwhole]
      refine ⟨m₃, h₃, ?_⟩
      rw [encodeAll_append, encodeAll_cons]
      simp only [List.append_assoc] at his₃ ⊢
      exact his₃
    · rw [appendIf_neg hwhole, if_neg hwhole, if_pos hfit]
      refine ⟨m₂, rfl, ?_⟩
      rw [encodeAll_append, encodeAll_cons, encodeAll_nil, List.append_nil]
      simp only [List.append_assoc] at his₂ ⊢
      exact his₂
  · have hwhole : ¬ fixedIeLength + ((encodeAll es₁).length +
        (w.encode.length + (encodeAll es₂).length)) ≤ maxIeSz := by omega
    rw [appendIf_neg hfit, bind_ok, appendIf_neg hwhole, if_neg hwhole, if_neg hfit]
    exact ⟨m₁, rfl, his₁⟩

/-- Elements that are not the wanted ones, which are on the right: some are missing in the end, or
    `w` stands where a short vendor element was taken for one of WPS. -/
inductive Strays (w : Elem) : List Elem → List Elem → Prop where
  | cut (es : List Elem) (c : List Elem) : c ≠ [] → Strays w es (es ++ c)
  | mistaken (es₁ : List Elem) (x : Elem) (es₂ : List Elem) : x.id = 221 → x.data.length < 4 →
      Strays w (es₁ ++ w :: es₂) (es₁ ++ x :: es₂.replaceFirst IsWps fun _ => w)
  | mistakenLast (es₁ : List Elem) (x : Elem) (c : List Elem) : x.id = 221 → x.data.length < 4 →
      Strays w (es₁ ++ [w]) (es₁ ++ x :: c)

/-- A vendor element that is taken for one of WPS, because of the bytes behind it, is short. -/
theorem Seen.short {rest : List UInt8} (h : Seen x rest) (hno : ¬ IsWps x) : x.data.length < 4 := by
  by_contra hlen
  refine hno ⟨h.1, fun o ho => ?_⟩
  have hsame := h.2 o ho
  obtain rfl := Option.some.inj ho
  have hle : wpsOui.length ≤ x.data.length := Nat.le_of_not_lt hlen
  rw [List.take_append_of_le_length hle] at hsame
  exact hsame

theorem spliced_cases (w : Elem) (es₁ es₂ : List Elem) :
    fixedIeLength + (encodeAll (es₁ ++ w :: es₂)).length ≤ maxIeSz ∧
      spliced w es₁ es₂ = es₁ ++ w :: es₂ ∨
    ¬ fixedIeLength + (encodeAll (es₁ ++ w :: es₂)).length ≤ maxIeSz ∧
      (spliced w es₁ es₂ = es₁ ++ [w] ∧ es₂ ≠ [] ∨ spliced w es₁ es₂ = es₁) := by
  rw [spliced]
  by_cases hwhole : fixedIeLength + (encodeAll (es₁ ++ w :: es₂)).length ≤ maxIeSz
  · exact .inl ⟨hwhole, if_pos hwhole⟩
  · refine .inr ⟨hwhole, ?_⟩
    rw [if_neg hwhole]
    by_cases hfit : fixedIeLength + (encodeAll (es₁ ++ [w])).length ≤ maxIeSz
    · exact .inl ⟨if_pos hfit, fun hnil => hwhole (hnil ▸ hfit)⟩
    · exact .inr (if_neg hfit)

theorem spliced_le (w : Elem) (es₂ : List Elem)
    (h : fixedIeLength + (encodeAll es₁).length ≤ maxIeSz) :
    fixedIeLength + (encodeAll (spliced w es₁ es₂)).length ≤ maxIeSz := by
  rw [spliced]
  split_ifs with hwhole hfit
  · exact hwhole
  · exact hfit
  · exact h

/-- The elements behind the right place, or behind one that was mistaken for it. -/
theorem spliced_strays (hes₁ : ∀ y ∈ es₁, ¬ IsWps y) {rest : List UInt8} (hseen : Seen x rest) :
    (IsWps x ∧ fixedIeLength +
        (encodeAll ((es₁ ++ x :: es₂).replaceFirst IsWps fun _ => w)).length ≤ maxIeSz ∧
      spliced w es₁ es₂ = (es₁ ++ x :: es₂).replaceFirst IsWps fun _ => w) ∨
    ¬ (IsWps x ∧ fixedIeLength +
        (encodeAll ((es₁ ++ x :: es₂).replaceFirst IsWps fun _ => w)).length ≤ maxIeSz) ∧
      Strays w (spliced w es₁ es₂) ((es₁ ++ x :: es₂).replaceFirst IsWps fun _ => w) := by
  by_cases hx : IsWps x
  · rw [List.replaceFirst_first hes₁ hx]
    rcases spliced_cases w es₁ es₂ with ⟨hroom, heq⟩ | ⟨hno, ⟨heq, hne⟩ | heq⟩
    · exact .inl ⟨hx, hroom, heq⟩
    · refine .inr ⟨fun h => hno h.2, ?_⟩
      have hcut := Strays.cut (w := w) (es₁ ++ [w]) es₂ hne
      rw [List.append_assoc] at hcut
      rw [heq]
      exact hcut
    · refine .inr ⟨fun h => hno h.2, ?_⟩
      rw [heq]
      exact .cut es₁ (w :: es₂) (List.cons_ne_nil _ _)
  · rw [List.replaceFirst_append hes₁, List.replaceFirst_pass hx]
    refine .inr ⟨fun h => hx h.1, ?_⟩
    have hshort := hseen.short hx
    rcases spliced_cases w es₁ es₂ with ⟨-, heq⟩ | ⟨-, ⟨heq, -⟩ | heq⟩
    · rw [heq]
      exact .mistaken es₁ x es₂ hseen.1 hshort
    · rw [heq]
      exact .mistakenLast es₁ x _ hseen.1 hshort
    · rw [heq]
      exact .cut es₁ _ (List.cons_ne_nil _ _)

variable {a : AccessPoint}

theorem copyWhole_is (b : Bss) (hm : m.Is front) (hfront : front.length = txdescOffset + hdrLen) :
    ∃ m', m.append b.network.ies.bytes 0 b.network.ieLength = .ok m' ∧
      m'.Is (front ++ (b.fixed ++ encodeAll b.elements)) := by
  have hnum : txdescOffset + hdrLen + maxIeSz ≤ extbufSize := by decide
  have hroom := b.length_elements
  have hlen : (b.fixed ++ encodeAll b.elements).length = b.network.ieLength := by
    rw [List.length_append, b.fixed_length]
    rfl
  obtain ⟨m', hm', his⟩ := @append_part m front [] (b.fixed ++ encodeAll b.elements) b.behind hm
    (by rw [List.length_append, b.fixed_length, hfront]; omega)
  rw [hlen, List.append_assoc] at hm'
  exact ⟨m', hm', his⟩

/-- The elements in a probe response are the wanted ones, or they stray from them. -/
theorem copyIes_cases (a : AccessPoint) (hm : m.Is front)
    (hfront : front.length = txdescOffset + hdrLen) :
    (∃ e, copyIes a.env a.bss.network m = .error e ∧ ¬ WpsFits a) ∨
    ∃ m' es, copyIes a.env a.bss.network m = .ok m' ∧
      m'.Is (front ++ (a.bss.fixed ++ encodeAll es)) ∧
      fixedIeLength + (encodeAll es).length ≤ maxIeSz ∧
      (WpsFits a ∧ es = withWps a.wpsProbeResp a.bss.elements ∨
        ¬ WpsFits a ∧ ∃ w, IsWps w ∧ Strays w es (withWps a.wpsProbeResp a.bss.elements)) := by
  have hright : ∀ y rest, (if a.wpsProbeResp = none then Seen y rest else IsWps y) →
      Seen y rest := by
    intro y rest h
    split_ifs at h
    · exact h
    · exact h.seen rest
  have hroom := a.bss.length_elements
  have hdrop : a.bss.network.ies.bytes.drop fixedIeLength =
      encodeAll a.bss.elements ++ a.bss.behind := by
    rw [← a.bss.fixed_length]
    exact List.drop_left
  have hlimit : wrapSub a.bss.network.ieLength fixedIeLength = (encodeAll a.bss.elements).length :=
    wrapSub_add _ _
  have hends := rtwGetWpsIe_ends hdrop hlimit
  obtain ⟨m', hwhole, his⟩ := copyWhole_is a.bss hm hfront
  rw [copyIes]
  cases hr : rtwGetWpsIe (a.bss.network.ies.bytes.drop fixedIeLength) 0
      (wrapSub a.bss.network.ieLength fixedIeLength) ⟨false, true⟩ with
  | error e =>
    rw [bind_error]
    exact .inl ⟨e, rfl, fun h => hends.error hr hright h.1⟩
  | ok r =>
    rw [bind_ok]
    cases hwps : a.wpsProbeResp with
    | none =>
      have henv : a.env.wpsProbeRespIe = none := congrArg (Option.map _) hwps
      have hfits : WpsFits a := by
        refine ⟨?_, by rw [hwps, withWps]; omega⟩
        cases r with
        | none => exact (hends.none hr).2 _
        | some w =>
          obtain ⟨es₁, x, es₂, -, -, hseen, -, hreach⟩ := hends.found hr
          exact (hreach _ hright).mpr (by rw [if_pos hwps]; exact hseen)
      rw [henv]
      exact .inr ⟨m', a.bss.elements, hwhole, his, by omega, .inl ⟨hfits, rfl⟩⟩
    | some w =>
      have henv : a.env.wpsProbeRespIe = some w.val.encode := congrArg (Option.map _) hwps
      rw [henv]
      cases r with
      | none =>
        obtain ⟨hnone, hreach⟩ := hends.none hr
        have hsame : withWps (some w) a.bss.elements = a.bss.elements :=
          List.replaceFirst_of_not hnone
        refine .inr ⟨m', a.bss.elements, hwhole, his, by omega, .inl ⟨⟨hreach _, ?_⟩, hsame.symm⟩⟩
        rw [hwps, hsame]
        omega
      | some r =>
        obtain ⟨es₁, x, es₂, hes, rfl, hseen, hes₁, hreach⟩ := hends.found hr
        obtain ⟨m'', hsplice, his'⟩ := @spliceWps_is a.bss m front es₁ es₂ w.val x hes hm hfront
        have hsplice' : spliceWps a.bss.network w.val.encode
            (fixedIeLength + (0 + (encodeAll es₁).length)) x.encode.length m = .ok m'' := by
          rw [Nat.zero_add]
          exact hsplice
        have hpos : 0 < x.encode.length := Nat.succ_pos _
        have hfits : WpsFits a ↔ IsWps x ∧ fixedIeLength +
            (encodeAll ((es₁ ++ x :: es₂).replaceFirst IsWps fun _ => w.val)).length ≤ maxIeSz := by
          rw [WpsFits, hreach _ hright, hwps, if_neg (Option.some_ne_none w), hes]
          rfl
        have hsize : fixedIeLength + (encodeAll (spliced w.val es₁ es₂)).length ≤ maxIeSz := by
          have hfront' : fixedIeLength + (encodeAll es₁).length ≤ maxIeSz := by
            rw [hes, length_split] at hroom
            omega
          exact spliced_le w.val es₂ hfront'
        refine .inr ⟨m'', spliced w.val es₁ es₂, (if_pos hpos).trans hsplice', his', hsize, ?_⟩
        rw [hfits, hes]
        exact (spliced_strays hes₁ hseen).imp (fun h => ⟨⟨h.1, h.2.1⟩, h.2.2⟩)
          fun h => ⟨h.1, w.val, w.property, h.2⟩

/-! ## The probe response -/

theorem withSsid_append_of_mem {c : List Elem} (h : ∃ y ∈ es, IsSsid y) :
    withSsid b (es ++ c) = withSsid b es ++ c := by
  rw [withSsid, withSsid]
  split_ifs
  · rfl
  · exact List.replaceFirst_append_of_mem h

theorem withSsid_append_of_not {c : List Elem} (h : ∀ y ∈ es, ¬ IsSsid y) :
    withSsid b (es ++ c) = withSsid b es ++ withSsid b c := by
  rw [withSsid_of_not (.inr h), withSsid, withSsid]
  split_ifs
  · rfl
  · exact List.replaceFirst_append h

theorem withSsid_cons {c : List Elem} (h : ¬ IsSsid x) :
    withSsid b (x :: c) = x :: withSsid b c := by
  rw [withSsid, withSsid, List.replaceFirst_pass h]
  split_ifs
  · rfl
  · rfl

theorem withSsid_ne_nil (h : es ≠ []) : withSsid b es ≠ [] := by
  cases es with
  | nil => exact absurd rfl h
  | cons x es =>
    rw [withSsid]
    split_ifs
    · exact h
    · by_cases hx : IsSsid x
      · rw [List.replaceFirst_hit hx]
        exact List.cons_ne_nil _ _
      · rw [List.replaceFirst_pass hx]
        exact List.cons_ne_nil _ _

theorem not_ssid_of_vendor (h : x.id = 221) : ¬ IsSsid x := by
  rw [IsSsid, h]
  decide

theorem IsWps.length_le (h : IsWps w) : 6 ≤ w.encode.length := by
  have hlen := congrArg List.length (h.2 wpsOui rfl)
  rw [List.length_take] at hlen
  have hfour : wpsOui.length = 4 := rfl
  rw [Elem.encode_length]
  omega

/-- A WPS element adds less than its length, for it takes the place of another. -/
theorem replaceWps_length (hw : IsWps w) (es : List Elem) :
    (encodeAll (es.replaceFirst IsWps fun _ => w)).length + 6 ≤
        (encodeAll es).length + w.encode.length ∧
    (encodeAll (withSsid b (es.replaceFirst IsWps fun _ => w))).length + 6 ≤
        (encodeAll (withSsid b es)).length + w.encode.length := by
  have hlen := hw.length_le
  induction es with
  | nil =>
    have hnil : withSsid b [] = [] := withSsid_of_not (.inr fun y hy => absurd hy List.not_mem_nil)
    rw [List.replaceFirst_nil, hnil, encodeAll_nil, List.length_nil]
    omega
  | cons y es ih =>
    by_cases hy : IsWps y
    · have hlen' := hy.length_le
      rw [List.replaceFirst_hit hy, withSsid_cons (not_ssid_of_vendor hw.1),
        withSsid_cons (not_ssid_of_vendor hy.1)]
      simp only [encodeAll_cons, List.length_append]
      omega
    · rw [List.replaceFirst_pass hy]
      by_cases hssid : IsSsid y
      · have hone : ∃ z ∈ [y], IsSsid z := ⟨y, List.mem_singleton_self y, hssid⟩
        have hpass : ∀ c, withSsid b (y :: c) = withSsid b [y] ++ c :=
          fun c => withSsid_append_of_mem hone
        rw [hpass es, hpass (es.replaceFirst IsWps fun _ => w)]
        simp only [encodeAll_cons, encodeAll_append, List.length_append]
        omega
      · rw [withSsid_cons hssid, withSsid_cons hssid]
        simp only [encodeAll_cons, List.length_append]
        omega

variable {head : List UInt8} {es' : List Elem} {m' : MgntFrame}

theorem withSsid_append (b : Bss) (es : List Elem) (hx : ¬ IsSsid x) (c : List Elem) :
    ∃ c', withSsid b (es ++ x :: c) = withSsid b es ++ x :: c' := by
  by_cases hmem : ∃ y ∈ es, IsSsid y
  · exact ⟨c, withSsid_append_of_mem hmem⟩
  · refine ⟨withSsid b c, ?_⟩
    rw [withSsid_append_of_not fun y hy hid => hmem ⟨y, hy, hid⟩, withSsid_cons hx]

theorem withSsid_append_longer (b : Bss) (es : List Elem) {c : List Elem} (hc : c ≠ []) :
    (encodeAll (withSsid b es)).length < (encodeAll (withSsid b (es ++ c))).length := by
  have hpos : ∀ {c' : List Elem}, c' ≠ [] → 0 < (encodeAll c').length := by
    intro c' hc'
    have hle := encodeAll_length_le c'
    have hlen := List.length_pos_iff.mpr hc'
    omega
  by_cases hmem : ∃ y ∈ es, IsSsid y
  · rw [withSsid_append_of_mem hmem, encodeAll_append, List.length_append]
    exact Nat.lt_add_of_pos_right (hpos hc)
  · rw [withSsid_append_of_not fun y hy hid => hmem ⟨y, hy, hid⟩, encodeAll_append,
      List.length_append]
    exact Nat.lt_add_of_pos_right (hpos (withSsid_ne_nil hc))

theorem mistaken_longer (b : Bss) (hw : IsWps w) (hid : x.id = 221) (hshort : x.data.length < 4) :
    (encodeAll (withSsid b (es₁ ++ x :: es₂.replaceFirst IsWps fun _ => w))).length <
      (encodeAll (withSsid b (es₁ ++ w :: es₂))).length := by
  obtain ⟨hplain, hssid⟩ := @replaceWps_length b w hw es₂
  have hlen : x.encode.length < 6 := by
    rw [Elem.encode_length]
    omega
  by_cases hmem : ∃ y ∈ es₁, IsSsid y
  · rw [withSsid_append_of_mem hmem, withSsid_append_of_mem hmem]
    simp only [encodeAll_append, encodeAll_cons, List.length_append]
    omega
  · have hnone : ∀ y ∈ es₁, ¬ IsSsid y := fun y hy hy' => hmem ⟨y, hy, hy'⟩
    rw [withSsid_append_of_not hnone, withSsid_append_of_not hnone,
      withSsid_cons (not_ssid_of_vendor hid), withSsid_cons (not_ssid_of_vendor hw.1)]
    simp only [encodeAll_append, encodeAll_cons, List.length_append]
    omega

/-- The SSID does not bring such elements back. -/
theorem strays_wrong (hw : IsWps w) (hstrays : Strays w es es') (hm : m.Is (head ++ encodeAll es))
    (hhead : head.length = txdescOffset + hdrLen + fixedIeLength)
    (hroom : fixedIeLength + (encodeAll es).length ≤ maxIeSz)
    (heq : replaceSsid b.network m = .ok m') : ¬ m'.Is (head ++ encodeAll (withSsid b es')) := by
  intro his
  -- but in the last case the lengths are different
  have hlength : (encodeAll (withSsid b es')).length = (encodeAll (withSsid b es)).length := by
    obtain ⟨p, hp, hlen⟩ := @replaceSsid_behind b m head es [] m' _
      (by rw [List.append_nil]; exact hm) hhead (by rw [List.append_nil]; exact hroom)
      (fun y hy => absurd hy List.not_mem_nil) heq his
    have htotal := congrArg List.length hp
    rw [encodeAll_nil, List.append_nil, List.length_append, hlen] at htotal
    omega
  cases hstrays with
  | cut _ c hc =>
    have hlonger := withSsid_append_longer b es hc
    omega
  | mistaken es₁ x es₂ hid hshort =>
    have hlonger := @mistaken_longer es₁ es₂ w x b hw hid hshort
    omega
  | mistakenLast es₁ x c hid hshort =>
    obtain ⟨c', hc'⟩ := withSsid_append b es₁ (not_ssid_of_vendor hid) c
    obtain ⟨p, hp, hlen⟩ := replaceSsid_behind hm hhead hroom
      (fun y hy => List.mem_singleton.mp hy ▸ not_ssid_of_vendor hw.1) heq his
    rw [hc', encodeAll_append, encodeAll_cons, ← List.append_assoc, encodeAll_cons] at hp
    obtain ⟨-, hrest⟩ := List.append_inj hp (by rw [List.length_append, hlen])
    obtain ⟨rfl, -⟩ := Elem.encode_append_inj hrest
    have hle := hw.length_le
    rw [Elem.encode_length] at hle
    omega

theorem probersp_right_iff (a : AccessPoint) (da : MacAddr) :
    ProberspRight a da ↔ ProberspFits a da := by
  have hhdr : (a.proberspHdr da).length = hdrLen := mgntHdr_length _ _ _ _ _
  have hhead := a.length_head hhdr
  obtain ⟨m, hnew, hm⟩ := newFrame_is a.extbuf hhdr
  have hfront : (List.replicate txdescOffset (0 : UInt8) ++ a.proberspHdr da).length =
      txdescOffset + hdrLen := by rw [List.length_append, List.length_replicate, hhdr]
  have hroom := a.bss.length_elements
  have hle : ¬ maxIeSz < a.bss.network.ieLength := by
    show ¬ maxIeSz < fixedIeLength + (encodeAll a.bss.elements).length
    omega
  have hnew' : newFrame a.env.extbuf (mgntHdr 0x50 da a.env.macAddr a.bss.network.macAddress
      a.env.mgntSeq) = .ok m := hnew
  rw [ProberspRight, ProberspFits, issueProbersp, hnew', bind_ok, if_neg hle]
  rcases copyIes_cases a hm hfront with ⟨e, hcopy, hno⟩ |
    ⟨m', es, hcopy, his, hsize, hcase⟩
  · rw [hcopy, bind_error]
    refine iff_of_false ?_ fun h => hno h.1
    rintro ⟨r, hr, -⟩
    cases hr
  · have his' : m'.Is (a.head (a.proberspHdr da) ++ encodeAll es) := by
      rw [AccessPoint.head]
      simp only [List.append_assoc] at his ⊢
      exact his
    have hstep : (∃ r, (do
        let m ← copyIes a.env a.bss.network m
        let m ← replaceSsid a.bss.network m
        .ok (some m)) = .ok (some r) ∧
          r.Is (a.head (a.proberspHdr da) ++ encodeAll a.wanted)) ↔
        ∃ r, replaceSsid a.bss.network m' = .ok r ∧
          r.Is (a.head (a.proberspHdr da) ++ encodeAll a.wanted) := by
      rw [hcopy, bind_ok]
      refine exists_congr fun r => and_congr_left fun _ => ?_
      cases replaceSsid a.bss.network m' with
      | error e => exact iff_of_false (fun h => by cases h) fun h => by cases h
      | ok r' =>
        rw [bind_ok]
        exact ⟨fun h => congrArg _ (Option.some.inj (Except.ok.inj h)),
          fun h => congrArg _ (congrArg some (Except.ok.inj h))⟩
    refine hstep.trans ?_
    rcases hcase with ⟨hfits, rfl⟩ | ⟨hno, w, hw, hstrays⟩
    · rw [and_iff_right hfits, AccessPoint.wanted]
      exact replaceSsid_right_iff his' hhead hsize
    · refine iff_of_false ?_ fun h => hno h.1
      rintro ⟨r, hr, hwanted⟩
      exact strays_wrong hw hstrays his' hhead hsize hr hwanted

/-- The two functions change what they should change, and nothing else, exactly then. -/
theorem bodies_right_iff (a : AccessPoint) (da : MacAddr) : Right a da ↔ Fits a da :=
  and_congr (beacon_right_iff a) (probersp_right_iff a da)

end wps

/-! ## A shorter SSID -/

/-- A network `AP` whose elements still have an SSID of six bytes. -/
def renamedElements : List Elem := [⟨0, [0x41, 0x42, 0x43, 0x44, 0x45, 0x46], by decide⟩]

def renamedFixed : List UInt8 := List.replicate fixedIeLength 0

def renamedBehind : List UInt8 := List.replicate 748 0

theorem renamed_length :
    (renamedFixed ++ (encodeAll renamedElements ++ renamedBehind)).length = maxIeSz := by
  rw [List.length_append, List.length_append, renamedFixed, renamedBehind, List.length_replicate,
    List.length_replicate]
  rfl

def renamedBss : Bss where
  macAddress := Vector.replicate 6 2
  fixed := renamedFixed
  elements := renamedElements
  behind := renamedBehind
  ssidLength := 2
  ssidField := (Area.zero lengthSsid).put 0 [0x41, 0x50]
  fixed_length := List.length_replicate
  ies_length := renamed_length
  ssidLength_le := Nat.le_of_ble_eq_true rfl

def renamed : AccessPoint where
  bss := renamedBss
  macAddr := Vector.replicate 6 2
  mgntSeq := 0
  hiddenSsidMode := 0
  wpsProbeResp := none
  extbuf := .zero extbufSize

/-- Three of the six bytes come to stand in front of the length, where the id was. -/
theorem renamed_overwritten : ¬ Right renamed (Vector.replicate 6 1) := by
  intro h
  have hfits := ((probersp_right_iff _ _).mp h.2).2
  have hssid := hfits.resolve_left (by decide)
  have hkeeps := hssid [] _ [] rfl rfl fun y hy => absurd hy List.not_mem_nil
  exact absurd hkeeps (by unfold KeepsFront; decide +kernel)

end Rtl8821au.Ap.BcnBody
