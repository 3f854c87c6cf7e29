import Rtl8821au.Recv.Indicate
import Rtl8821au.Xmit.Attrib

/-!
# Port control

With 802.1X authentication, `portctrl` (`rtw_recv.c`, lines 571–641) is to let only EAPOL
frames of a station through whose port is blocked, and `update_attrib_sec_info` only EAPOL
frames to it. The first looks at one place of the frame that it gets, and looks up an
address that nobody has set.

* `portctrl_eq`: what the check asks.
* `ifaceStep_portInv`: the reorder queues hold EAPOL frames of blocked stations only, in a
  run that meets `PortOk`.
* `portControl_of_run`: what such a run delivers and drops.
-/

namespace Rtl8821au.Recv

open Run Buffer

/-! ## The check -/

/-- The station of the transmitter is not authenticated. -/
def portBlocked (priv : RtlPriv) (ta : MacAddr) : Bool :=
  match priv.rtwGetStainfo ta with
  | some psta => (priv.sta psta).ieee8021xBlocked
  | none => false

/-- The two bytes that `portctrl` takes for the Ethernet type. -/
def checkedType (f : RecvFrame) : ℕ :=
  let ptr := f.attrib.hdrlen + f.attrib.ivLen + 6
  be16 (f.byteAt ptr) (f.byteAt (ptr + 1))

/-- The port that `portctrl` looks at. -/
def checkedPort (env : RecvEnv) : Bool :=
  match env.pstaAddr with
  | some pstaAddr => portBlocked env.priv pstaAddr
  | none => false

theorem portctrl_eq {env : RecvEnv} (h : env.priv.dot11AuthAlgrthm = .ieee8021X) (f : RecvFrame) :
    portctrl env f = (!checkedPort env || checkedType f == 0x888e) := by
  unfold portctrl checkedPort portBlocked
  rw [if_pos h]
  cases env.pstaAddr with
  | none => simp
  | some pstaAddr =>
    cases hsta : env.priv.rtwGetStainfo pstaAddr with
    | none => simp [hsta]
    | some psta =>
      cases hblocked : (env.priv.sta psta).ieee8021xBlocked <;> simp [hsta, hblocked, checkedType]

/-! ## The property -/

/-- The interface uses 802.1X, and a received frame has the length of its buffer. -/
def Uses8021X : IfaceOp → Prop
  | .config priv => priv.dot11AuthAlgrthm = .ieee8021X
  | .recv _ _ _ _ f => f.LenOk
  | .timeout _ _ _ | .sta _ => True

/-- What the step passes on of a blocked transmitter is EAPOL, and `portctrl` drops no
    frame of another. -/
def PortControl (s : Iface) (op : IfaceOp) : Prop :=
  (∀ d ∈ (ifaceStep s op).delivered,
    portBlocked (ifaceStep s op).priv d.1.attrib.ta = true → ethProto d.2.skb = 0x888e) ∧
  match op with
  | .recv drv pstaAddr mickey _ f =>
    ∀ k ∈ rxPortctrlFrames (s.env drv pstaAddr mickey) s.clear f,
      portBlocked s.priv k.attrib.ta = false → portctrl (s.env drv pstaAddr mickey) k = true
  | .config _ | .timeout _ _ _ | .sta _ => True

/-- A packet for a station whose port is blocked passes `update_attrib_sec_info` only if
    it is EAPOL. -/
def XmitPortControl : Prop :=
  ∀ (priv : RtlPriv) (psta txpn : ℕ) (a : Xmit.TxPktAttrib),
    (priv.sta psta).ieee8021xBlocked = true →
    (Xmit.updateAttribSecInfo priv psta txpn a).status = .success → a.etherType = 0x888e

/-! ## The condition -/

/-- The frame, as it waits in a reorder queue, is EAPOL. -/
def EapolOnly (f : RecvFrame) : Prop :=
  if f.attrib.amsdu = 0 then ethProto (f.bytesAt 0 f.len) = 0x888e
  else ∀ skb ∈ amsduToMsdu f, ethProto skb = 0x888e

/-- The frame becomes one EAPOL frame. -/
def IsEapol (k : RecvFrame) : Prop :=
  k.attrib.amsdu = 0 ∧
    ethProto ((wlanhdrToEthhdr k).bytesAt 0 (wlanhdrToEthhdr k).len) = 0x888e

/-- `psta_addr` finds a port in the state of the transmitter's. A frame of a blocked
    transmitter that passes for EAPOL is no A-MSDU, and has an LLC/SNAP header. -/
structure PortFrameOk (env : RecvEnv) (k : RecvFrame) : Prop where
  addr : checkedPort env = portBlocked env.priv k.attrib.ta
  shape : portBlocked env.priv k.attrib.ta = true → checkedType k = 0x888e →
    k.attrib.amsdu = 0 ∧ bsnaphdr k = true ∧
      k.attrib.hdrlen + k.attrib.ivLen + 8 + icvTail k ≤ k.data.length

instance (env : RecvEnv) (k : RecvFrame) : Decidable (PortFrameOk env k) :=
  decidable_of_iff
    (checkedPort env = portBlocked env.priv k.attrib.ta ∧
      (portBlocked env.priv k.attrib.ta = true → checkedType k = 0x888e →
        k.attrib.amsdu = 0 ∧ bsnaphdr k = true ∧
          k.attrib.hdrlen + k.attrib.ivLen + 8 + icvTail k ≤ k.data.length))
    ⟨fun h => ⟨h.1, h.2⟩, fun h => ⟨h.addr, h.shape⟩⟩

/-- The condition on a step. A port is blocked when no other frame than EAPOL of its
    station waits in a reorder queue. -/
def PortOk (s : Iface) : IfaceOp → Prop
  | .config priv => ∀ psta tid, ∀ f ∈ (s.rx.recvreorderCtrl psta tid).pending,
      portBlocked priv f.attrib.ta = true → portBlocked s.priv f.attrib.ta = false → EapolOnly f
  | .recv drv pstaAddr mickey _ f =>
    ∀ k ∈ rxPortctrlFrames (s.env drv pstaAddr mickey) s.clear f,
      PortFrameOk (s.env drv pstaAddr mickey) k
  | .timeout _ _ _ | .sta _ => True

/-! ## Through the receive path -/

/-- What the frames outside the reorder queues have. -/
def Framed (f : RecvFrame) : Prop := f.LenOk ∧ 14 ≤ f.attrib.hdrlen

/-- What holds of the frames in the queues. -/
def PortPlace (priv : RtlPriv) : Loc → RecvFrame → Prop
  | .pool, _ | .hand, _ => True
  | .ucSwdec, f | .defragQ _, f => Framed f
  | .reorder _ _, f => portBlocked priv f.attrib.ta = true → EapolOnly f

/-- What holds of what is handed on. -/
def PortEvent (priv : RtlPriv) (e : RecvEvent) : Prop :=
  portBlocked priv e.frame.attrib.ta = true → ∀ c ∈ e.osCalls priv, ethProto c.skb = 0x888e

theorem setKeyIndex_framed {f : RecvFrame} (h : Framed f) : Framed (setKeyIndex f) := by
  refine ⟨setKeyIndex_lenOk h.1, ?_⟩
  unfold setKeyIndex
  split <;> exact h.2

theorem Rewritten.framed {f g : RecvFrame} (h : Rewritten f g) (hf : Framed f) : Framed g :=
  ⟨h.lenOk hf.1, by rw [h.attrib]; exact hf.2⟩

theorem recvframeChkDefrag_framed {sec : MicContext} {pdefragQ : Option (List RecvFrame)}
    {f g : RecvFrame} (h : (recvframeChkDefrag sec pdefragQ f).ret = some g) (hf : Framed f)
    (hq : ∀ p ∈ pdefragQ.getD [], Framed p) : Framed g := by
  refine ⟨recvframeChkDefrag_lenOk h hf.1 fun p hp => (hq p hp).1, ?_⟩
  have hhdr : ∀ f₀, Framed f₀ → MadeOf f₀ g → 14 ≤ g.attrib.hdrlen := by
    rintro f₀ hf₀ ⟨-, -, icvLen, hattrib⟩
    rw [hattrib]
    exact hf₀.2
  rcases recvframeChkDefrag_madeOf h with ⟨-, hmade⟩ | ⟨-, pr, hpr, hmade⟩
  · exact hhdr f hf hmade
  · exact hhdr pr (hq pr hpr) hmade

theorem IsEapol.msduOf {k : RecvFrame} (h : IsEapol k) : EapolOnly (msduOf k) := by
  have hzero : (wlanhdrToEthhdr k).attrib.amsdu = 0 := by rw [wlanhdrToEthhdr_attrib]; exact h.1
  unfold EapolOnly Recv.msduOf
  rw [if_pos h.1, if_pos hzero]
  exact h.2

theorem IsEapol.osCalls {k : RecvFrame} (h : IsEapol k) (priv : RtlPriv) :
    ∀ c ∈ (RecvEvent.indicate (wlanhdrToEthhdr k)).osCalls priv, ethProto c.skb = 0x888e := by
  intro c hc
  rw [rtwOsRecvIndicatePkt_skb hc]
  exact h.2

/-- What an EAPOL frame that leaves a reorder queue passes on. -/
theorem EapolOnly.osCalls {f : RecvFrame} (h : EapolOnly f) (priv : RtlPriv) (drv : DriverState) :
    ∀ c ∈ (indicateOne drv f).osCalls priv, ethProto c.skb = 0x888e := by
  intro c hc
  unfold EapolOnly at h
  unfold indicateOne at hc
  split_ifs at hc h with h0 hrun h1
  · rw [rtwOsRecvIndicatePkt_skb hc]
    exact h
  · exact absurd hc List.not_mem_nil
  · obtain ⟨skb, hskb, hc⟩ := List.mem_flatMap.mp hc
    rw [rtwOsRecvIndicatePkt_skb hc]
    exact h skb hskb
  · exact absurd hc List.not_mem_nil

/-- The check sees the type that is delivered. -/
theorem PortFrameOk.isEapol {env : RecvEnv} {k : RecvFrame} (h : PortFrameOk env k)
    (hk : Framed k) (h8021X : env.priv.dot11AuthAlgrthm = .ieee8021X)
    (hport : portctrl env k = true) (hblocked : portBlocked env.priv k.attrib.ta = true) :
    IsEapol k := by
  rw [portctrl_eq h8021X, h.addr, hblocked, Bool.not_true, Bool.false_or, beq_iff_eq] at hport
  obtain ⟨hamsdu, hsnap, hlong⟩ := h.shape hblocked hport
  refine ⟨hamsdu, ?_⟩
  rw [RecvFrame.bytesAt_data (wlanhdrToEthhdr_lenOk hk.1),
    wlanhdrToEthhdr_ethProto hk.1 hsnap (Nat.le_add_right_of_le hk.2) hlong, ← hport,
    parsedEthType, rmvLen, hsnap, if_pos rfl]
  rfl

theorem port_stages {env : RecvEnv} (h8021X : env.priv.dot11AuthAlgrthm = .ieee8021X) :
    Stages env Framed (PortPlace env.priv)
      (fun s f => ∀ k, portctrlFrame env s f = some k → PortFrameOk env k)
      (PortEvent env.priv) where
  unpark _ hf := hf
  defragQ _ f g _ _ hf hret _ _ := (decryptor_ret hret).framed (setKeyIndex_framed hf)
  pass s f g k hQ hC hf hret hk hport := by
    have hok : PortFrameOk env k := hC k (by rw [portctrlFrame, hret]; exact hk)
    have hg := (decryptor_ret hret).framed (setKeyIndex_framed hf)
    have hframed : Framed k := by
      refine recvframeChkDefrag_framed hk hg fun p hp => ?_
      cases hsta : defragSta env.priv g with
      | none =>
        rw [hsta] at hp
        exact absurd hp List.not_mem_nil
      | some psta =>
        rw [hsta] at hp
        exact hQ (.defragQ psta) p hp
    have heapol := hok.isEapol hframed h8021X hport
    refine ⟨fun hblocked => ?_, fun _ hblocked => ?_⟩
    · rw [msduOf_ta] at hblocked
      exact (heapol hblocked).msduOf
    · have hta : (wlanhdrToEthhdr k).attrib.ta = k.attrib.ta := by simp
      rw [RecvEvent.frame, hta] at hblocked
      exact (heapol hblocked).osCalls env.priv
  event psta tid f hf hblocked := by
    rw [indicateOne_frame] at hblocked
    exact (hf hblocked).osCalls env.priv env.drv

/-- Validation keeps the length of the frame and parses the length of its header. -/
theorem acceptedAs_framed (env : RecvEnv) {f : RecvFrame} (hf : f.LenOk) :
    AcceptedAs env Framed (PortPlace env.priv) (fun _ => True) f := by
  intro hver htype tidRxseq
  dsimp only
  refine ⟨fun _ _ => trivial, fun hstatus => ?_⟩
  obtain ⟨psta, hcheck, -, hframe⟩ := validateRecvDataFrame_success hstatus
  have hframed : Framed (validateRecvDataFrame env.priv tidRxseq
      ((f.setAttrib (parseHeader f)).setAttrib (parseQos (f.setAttrib (parseHeader f))))).frame := by
    rw [hframe]
    refine ⟨hf, ?_⟩
    have hhdr := parseQosControl_hdrlen (dataFrameCheck_toFrDs hcheck)
    show 14 ≤ (setSecurity env.priv psta _).hdrlen
    rw [setSecurity_hdrlen, hhdr]
    split_ifs <;> omega
  split
  · exact hframed
  · exact hframed

/-! ## Runs -/

/-- What holds between the steps. -/
def PortInv (s : Iface) : Prop :=
  s.priv.dot11AuthAlgrthm = .ieee8021X ∧ Queued (PortPlace s.priv) s.rx

theorem ifaceStep_port_sound {s : Iface} {op : IfaceOp} (huses : Uses8021X op)
    (hok : PortOk s op) (hi : PortInv s) :
    (ifaceStep s op).priv.dot11AuthAlgrthm = .ieee8021X ∧
      Sound (PortPlace (ifaceStep s op).priv) (PortEvent (ifaceStep s op).priv) (fun _ => True)
        (ifaceStep s op).rx := by
  obtain ⟨h8021X, hQ⟩ := hi
  have hclear : Sound (PortPlace s.priv) (PortEvent s.priv) (fun _ => True) s.clear :=
    Iface.sound_clear hQ
  cases op with
  | config priv =>
    refine ⟨huses, Iface.sound_clear (s := { s with priv := priv }) fun l f hf => ?_⟩
    cases l with
    | pool => trivial
    | hand => trivial
    | ucSwdec => exact hQ .ucSwdec f hf
    | defragQ psta => exact hQ (.defragQ psta) f hf
    | reorder psta tid =>
      intro hblocked
      cases hold : portBlocked s.priv f.attrib.ta with
      | true => exact hQ (.reorder psta tid) f hf hold
      | false => exact hok psta tid f hf hblocked hold
  | recv drv pstaAddr mickey mgt f =>
    have h8021X' : (s.env drv pstaAddr mickey).priv.dot11AuthAlgrthm = .ieee8021X := h8021X
    exact ⟨h8021X, (port_stages h8021X').recvbuf2recvframe hclear
      (fun addr skb => acceptedAs_framed _ huses)
      fun c hc k hk => hok k (List.mem_filterMap.mpr ⟨c, hc, hk⟩)⟩
  | timeout drv psta tid =>
    have h8021X' : (s.env drv none []).priv.dot11AuthAlgrthm = .ieee8021X := h8021X
    exact ⟨h8021X, hclear.timeout psta tid fun _ => (port_stages h8021X').event psta tid⟩
  | sta op => exact ⟨h8021X, hclear.staQueueStep op⟩

theorem ifaceStep_portInv {s : Iface} {op : IfaceOp} (huses : Uses8021X op) (hok : PortOk s op)
    (hi : PortInv s) : PortInv (ifaceStep s op) :=
  ⟨(ifaceStep_port_sound huses hok hi).1, (ifaceStep_port_sound huses hok hi).2.1⟩

theorem PortInv.portControl {s : Iface} {op : IfaceOp} (huses : Uses8021X op)
    (hok : PortOk s op) (hi : PortInv s) : PortControl s op := by
  refine ⟨?_, ?_⟩
  · rintro ⟨f, c⟩ hd hblocked
    obtain ⟨e, he, rfl, hc⟩ := Iface.mem_delivered.mp hd
    exact (ifaceStep_port_sound huses hok hi).2.2.1 e he hblocked c hc
  · cases op with
    | config priv => trivial
    | recv drv pstaAddr mickey mgt f =>
      intro k hk hopen
      have hport : checkedPort (s.env drv pstaAddr mickey) = false :=
        (hok k hk).addr.trans hopen
      rw [portctrl_eq hi.1, hport]
      rfl
    | timeout drv psta tid => trivial
    | sta op => trivial

theorem portInv_init {priv : RtlPriv} (h : priv.dot11AuthAlgrthm = .ieee8021X) :
    PortInv { priv := priv } := by
  refine ⟨h, fun l f hf => ?_⟩
  cases l <;> exact absurd hf List.not_mem_nil

/-- While a port is blocked only EAPOL passes it, in both directions, in every run whose
    steps meet the condition; and an open port lets everything through. -/
theorem portControl_of_run (priv : RtlPriv) (h : priv.dot11AuthAlgrthm = .ieee8021X)
    (ops : List IfaceOp) (huses : ∀ op ∈ ops, Uses8021X op)
    (hok : Guarded ifaceStep PortOk { priv := priv } ops) :
    Guarded ifaceStep PortControl { priv := priv } ops ∧ XmitPortControl := by
  refine ⟨?_, fun priv psta txpn a hb hs => (Xmit.updateAttribSecInfo_blocked hb hs).1⟩
  have huses' : Guarded ifaceStep (fun _ op => Uses8021X op) { priv := priv } ops :=
    guarded_of_forall _ huses
  have hboth := huses'.and hok
  exact hboth.of_invariant (fun s op hc => ifaceStep_portInv hc.1 hc.2)
    (fun s op hc hi => hi.portControl hc.1 hc.2) (portInv_init h)

/-! ### One frame -/

/-- An access point with one station, at the address 2:2:2:2:2:2, whose port is blocked. -/
def blockedAp : RtlPriv :=
  { fwState := { ap := true }
    lookup := fun a => if a = Vector.replicate 6 2 then some 1 else none
    sta := fun i => { ieee8021xBlocked := i == 1 }
    dot11AuthAlgrthm := .ieee8021X, htOption := true }

/-- A QoS data frame of that station to the access point. -/
def staFrame (qosCtl : UInt8) (body : Bytes) : RecvFrame :=
  let mem := [0x88, 0x01, 0, 0] ++ List.replicate 6 0 ++ List.replicate 6 2 ++
    List.replicate 8 0 ++ [qosCtl, 0] ++ body
  { addr := 0, skb := none, attrib := {}, len := mem.length, mem := mem, rxData := 0
    rxTail := mem.length, data_le_tail := Nat.zero_le _, tail_le_end := Nat.le_refl _ }

/-- An EAPOL frame. -/
def eapolFrame : RecvFrame := staFrame 0 [0xaa, 0xaa, 3, 0, 0, 0, 0x88, 0x8e]

/-- An A-MSDU with one subframe of type 0x0800 from the address 88:8e:2:2:2:2. -/
def amsduFrame : RecvFrame :=
  staFrame 0x80 (List.replicate 6 0 ++ [0x88, 0x8e, 2, 2, 2, 2, 0, 8, 0xaa, 0xaa, 3, 0, 0, 0, 8, 0])

/-- The station sends `f`; `psta_addr` happens to point to its address. -/
def fromSta (f : RecvFrame) : IfaceOp :=
  .recv {} (some (Vector.replicate 6 2)) (List.replicate 16 0) [] f

theorem portControl_eapol :
    Guarded ifaceStep PortControl { priv := blockedAp } [fromSta eapolFrame] ∧ XmitPortControl :=
  portControl_of_run blockedAp rfl [fromSta eapolFrame]
    (fun _ hop => by rw [List.mem_singleton.mp hop]; rfl)
    ⟨by show ∀ k ∈ rxPortctrlFrames _ _ _, PortFrameOk _ k; decide +kernel, trivial⟩

/-- The address of the first subframe is where `portctrl` looks for the type. -/
theorem amsdu_passes_blocked_port :
    ¬ ∀ priv : RtlPriv, priv.dot11AuthAlgrthm = .ieee8021X → ∀ ops : List IfaceOp,
      (∀ op ∈ ops, Uses8021X op) →
        Guarded ifaceStep PortControl { priv := priv } ops ∧ XmitPortControl := by
  intro h
  have huses : ∀ op ∈ [fromSta amsduFrame], Uses8021X op := by
    intro op hop
    rw [List.mem_singleton.mp hop]
    rfl
  have hstep := (h blockedAp rfl [fromSta amsduFrame] huses).1.1.1
  revert hstep
  decide +kernel

end Rtl8821au.Recv
