import Rtl8821au.Recv.Func

/-!
# Indication

The end of the receive path. `rtw_recv_indicatepkt` (`recv_linux.c`) hands a frame to the
network stack, `amsdu_to_msdu` (`rtw_recv.c`) every subframe of an A-MSDU. An access point
passes what is for another station to `rtw_xmit_entry`. Allocations succeed.

* `RecvEvent.osCalls`: what the driver passes on when a frame leaves the receive path.
* `ifaceStep`: the receive path of an interface whose stations, keys and ports change
  between the frames.
* `Iface.delivered`: what the last step passed on.
-/

namespace Rtl8821au.Recv

open Run

/-! ## Model of the C code -/

/-- What the driver does with an Ethernet frame. -/
inductive OsCall where
  | netifRx (skb : Bytes)
  | rtwXmitEntry (skb : Bytes)
  deriving DecidableEq, Repr

def OsCall.skb : OsCall → Bytes
  | .netifRx skb => skb
  | .rtwXmitEntry skb => skb

/-- `rtw_os_recv_indicate_pkt` (lines 221–274). -/
def rtwOsRecvIndicatePkt (priv : RtlPriv) (pattrib : RxPktAttrib) (skb : Bytes) : List OsCall :=
  if priv.fwState.ap then
    if pattrib.dst ≠ priv.myhwaddr then
      match priv.rtwGetStainfo pattrib.dst with
      | some _ => .rtwXmitEntry skb :: if isMulticast pattrib.dst then [.netifRx skb] else []
      | none => [.netifRx skb]
    else [.netifRx skb]
  else [.netifRx skb]

/-- `rtw_recv_indicatepkt` (lines 315–360). -/
def rtwRecvIndicatepkt (priv : RtlPriv) (f : RecvFrame) : List OsCall :=
  rtwOsRecvIndicatePkt priv f.attrib (f.bytesAt 0 f.len)

/-- `rtw_os_alloc_msdu_pkt` (lines 167–219); `pdata` is an offset from `rx_data`. -/
def rtwOsAllocMsduPkt (prframe : RecvFrame) (nSubframeLength pdata : ℕ) : Bytes :=
  let pattrib := prframe.attrib
  let subSkb := prframe.bytesAt (pdata + ethHlen) nSubframeLength
  let ethType := be16 (subSkb.getD 6 0) (subSkb.getD 7 0)
  if 8 ≤ subSkb.length ∧
      ((subSkb.take snapSize = rtwRfc1042Header ∧ ethType ≠ 0x80f3 ∧ ethType ≠ 0x8137) ∨
        subSkb.take snapSize = rtwBridgeTunnelHeader) then
    pattrib.dst.toList ++ pattrib.src.toList ++ subSkb.drop snapSize
  else
    pattrib.dst.toList ++ pattrib.src.toList ++
      UInt8.ofNat (subSkb.length / 256) :: UInt8.ofNat (subSkb.length % 256) :: subSkb

/-- The loop of `amsdu_to_msdu` (lines 1899–1938) with room for `n` more subframes. -/
def amsduLoop (prframe : RecvFrame) : ℕ → ℕ → ℕ → List Bytes
  | 0, _, _ => []
  | n + 1, aLen, pdata =>
    if aLen ≤ ethHlen then []
    else
      let nSubframeLength := be16 (prframe.byteAt (pdata + 12)) (prframe.byteAt (pdata + 13))
      if aLen < ethHlen + nSubframeLength then []
      else
        let subPkt := rtwOsAllocMsduPkt prframe nSubframeLength pdata
        let aLen := aLen - ethHlen - nSubframeLength
        let pdata := pdata + ethHlen + nSubframeLength
        let paddingLen := if aLen ≠ 0 then (4 - (nSubframeLength + ethHlen) % 4) % 4 else 0
        if aLen < paddingLen then [subPkt]
        else subPkt :: amsduLoop prframe n (aLen - paddingLen) (pdata + paddingLen)

/-- `amsdu_to_msdu` (lines 1876–1955): the subframes, at most `MAX_SUBFRAME_COUNT`. -/
def amsduToMsdu (prframe : RecvFrame) : List Bytes :=
  let prframe := recvframePull prframe prframe.attrib.hdrlen
  let prframe :=
    if 0 < prframe.attrib.ivLen then recvframePull prframe prframe.attrib.ivLen else prframe
  amsduLoop prframe 64 prframe.len 0

/-- What is passed on when a frame leaves the receive path. -/
def RecvEvent.osCalls (priv : RtlPriv) : RecvEvent → List OsCall
  | .indicate f => rtwRecvIndicatepkt priv f
  | .deaggregate f => (amsduToMsdu f).flatMap (rtwOsRecvIndicatePkt priv f.attrib)
  | .forget _ => []

theorem rtwOsRecvIndicatePkt_skb {priv : RtlPriv} {pattrib : RxPktAttrib} {skb : Bytes}
    {c : OsCall} (h : c ∈ rtwOsRecvIndicatePkt priv pattrib skb) : c.skb = skb := by
  have hup : ∀ c ∈ [OsCall.netifRx skb], c.skb = skb := by
    intro c hc
    rw [List.mem_singleton.mp hc]
    rfl
  have hforward : ∀ b : Bool, ∀ c ∈ OsCall.rtwXmitEntry skb ::
      (if b then [OsCall.netifRx skb] else []), c.skb = skb := by
    intro b c hc
    rcases List.mem_cons.mp hc with rfl | hc
    · rfl
    · cases b with
      | true => exact hup c hc
      | false => exact absurd hc List.not_mem_nil
  unfold rtwOsRecvIndicatePkt at h
  by_cases hap : priv.fwState.ap = true
  · rw [if_pos hap] at h
    by_cases hdst : pattrib.dst ≠ priv.myhwaddr
    · rw [if_pos hdst] at h
      cases hsta : priv.rtwGetStainfo pattrib.dst with
      | none =>
        rw [hsta] at h
        exact hup c h
      | some psta =>
        rw [hsta] at h
        exact hforward _ c h
    · rw [if_neg hdst] at h
      exact hup c h
  · rw [if_neg hap] at h
    exact hup c h

/-! ## The interface -/

/-- The interface: what the receive path reads, and its queues. -/
structure Iface where
  priv : RtlPriv
  rx : RecvPriv := {}

/-- What happens next. `config` is any change of the stations, their ports and the keys. -/
inductive IfaceOp where
  | config (priv : RtlPriv)
  | recv (drv : DriverState) (pstaAddr : Option MacAddr) (mickey : Bytes)
      (mgt : List StaQueueOp) (f : RecvFrame)
  | timeout (drv : DriverState) (psta tid : ℕ)
  | sta (op : StaQueueOp)

namespace Iface

variable (s : Iface)

/-- What a call of the receive path reads. -/
def env (drv : DriverState) (pstaAddr : Option MacAddr) (mickey : Bytes) : RecvEnv :=
  { priv := s.priv, drv := drv, pstaAddr := pstaAddr, mickey := mickey }

/-- The queues, with an empty log. -/
def clear : RecvPriv := { s.rx with log := [] }

end Iface

/-- One step; the log holds what this step gave away. -/
def ifaceStep (s : Iface) : IfaceOp → Iface
  | .config priv => { priv := priv, rx := s.clear }
  | .recv drv pstaAddr mickey mgt f =>
    { s with rx := rxStep s.clear (.recv (s.env drv pstaAddr mickey) mgt f) }
  | .timeout drv psta tid => { s with rx := rxStep s.clear (.timeout drv psta tid) }
  | .sta op => { s with rx := rxStep s.clear (.sta op) }

/-- What the last step passed on, with the frame it came from. -/
def Iface.delivered (s : Iface) : List (RecvFrame × OsCall) :=
  s.rx.log.flatMap fun
    | .event e => (e.osCalls s.priv).map fun c => (e.frame, c)
    | .freed _ | .effect _ => []

theorem Iface.mem_delivered {s : Iface} {f : RecvFrame} {c : OsCall} :
    (f, c) ∈ s.delivered ↔
      ∃ e, RxOut.event e ∈ s.rx.log ∧ e.frame = f ∧ c ∈ e.osCalls s.priv := by
  unfold Iface.delivered
  rw [List.mem_flatMap]
  constructor
  · rintro ⟨o, ho, hc⟩
    cases o with
    | event e =>
      obtain ⟨c', hc', heq⟩ := List.mem_map.mp hc
      obtain ⟨rfl, rfl⟩ := Prod.mk.inj heq
      exact ⟨e, ho, rfl, hc'⟩
    | freed g => exact absurd hc List.not_mem_nil
    | effect x => exact absurd hc List.not_mem_nil
  · rintro ⟨e, he, rfl, hc⟩
    exact ⟨.event e, he, List.mem_map_of_mem hc⟩

section sound

variable {P : Loc → RecvFrame → Prop} {E : RecvEvent → Prop} {X : RxEffect → Prop}
  {s : Iface}

/-- An empty log asks for nothing. -/
theorem Iface.sound_clear (h : Queued P s.rx) : Sound P E X s.clear :=
  ⟨h.congr fun l => by cases l <;> rfl, fun e he => absurd he List.not_mem_nil,
    fun x hx => absurd hx List.not_mem_nil⟩

end sound

end Rtl8821au.Recv
