import Mathlib.Tactic.SplitIfs
import Rtl8821au.Lib.Buffer
import Rtl8821au.Lib.Run
import Rtl8821au.Recv.Func

/-!
# Receive aggregates

A bulk transfer carries several packets: a descriptor of 24 bytes, driver info, shift
bytes and the frame, each packet padded to a multiple of 8. `recvbuf2recvframe`
(`usb_ops_linux.c`) walks over them, copies every frame into an `sk_buff` of its own and
gives it to `rtw_recv_entry`, or releases the receive frame if the packet is a report.

`pkt_cnt` is counted down and never read; `rtl8812_query_rx_phy_status` only keeps
statistics. Both are left out.

Results:
* `recvLoop_isSome`: the loop ends on every buffer.
* `recvbuf2recvframe_packet`: one iteration on one packet.
* `recvbuf2recvframe_aggregate`: a buffer of packets is handed up packet by packet.
-/

namespace Rtl8821au.Usb

open Buffer Run
open Recv

/-! ## Receive descriptor -/

/-- `RXDESC_SIZE` (`rtw_recv.h`, line 207). -/
def rxdescSize : ℕ := 24

/-- `LE_BITS_TO_4BYTE(pdesc + off, bitOffset, bitLen)` (`wifi.h`, lines 2181–2185). -/
def leBitsTo4Byte (pdesc : Bytes) (off bitOffset bitLen : ℕ) : ℕ :=
  let b (k : ℕ) : ℕ := (pdesc.getD (off + k) 0).toNat
  (b 0 + 2 ^ 8 * b 1 + 2 ^ 16 * b 2 + 2 ^ 24 * b 3) / 2 ^ bitOffset % 2 ^ bitLen

/-- `RX_PACKET_TYPE` (`rtw_recv.h`, lines 393–399). -/
inductive RxPacketType where
  | normalRx
  | txReport1
  | txReport2
  | hisReport
  | c2hPacket
  deriving DecidableEq, Repr

/-- The three bits of `GET_RX_STATUS_DESC_SECURITY`. -/
def descSecurity : ℕ → Encryption
  | 0 => .noPrivacy
  | 1 => .wep40
  | 2 => .tkip
  | 4 => .aes
  | 5 => .wep104
  | _ => .reserved

/-- What the descriptor says of a packet; `attrib` are the members of
    `struct rx_pkt_attrib` that the receive path goes on to read. -/
structure RxStatus where
  pktLen : ℕ
  crcErr : Bool
  icvErr : Bool
  drvinfoSz : ℕ
  shiftSz : ℕ
  physt : Bool
  mdata : ℕ
  pktRptType : RxPacketType
  attrib : RxPktAttrib
  deriving DecidableEq, Repr

/-- `rtl8812_query_rx_desc_status` (`trx.c`, lines 1766–1803). -/
def rtl8812QueryRxDescStatus (pdesc : Bytes) : RxStatus where
  pktLen := leBitsTo4Byte pdesc 0 0 14
  crcErr := leBitsTo4Byte pdesc 0 14 1 == 1
  icvErr := leBitsTo4Byte pdesc 0 15 1 == 1
  drvinfoSz := leBitsTo4Byte pdesc 0 16 4 * 8
  shiftSz := leBitsTo4Byte pdesc 0 24 2
  physt := leBitsTo4Byte pdesc 0 26 1 == 1
  mdata := leBitsTo4Byte pdesc 4 26 1
  pktRptType := if leBitsTo4Byte pdesc 8 28 1 = 1 then .c2hPacket else .normalRx
  attrib :=
    { hdrlen := 0
      encrypt := descSecurity (leBitsTo4Byte pdesc 0 20 3)
      qos := leBitsTo4Byte pdesc 0 23 1
      bdecrypted := leBitsTo4Byte pdesc 0 27 1 == 0
      priority := leBitsTo4Byte pdesc 4 8 4
      mfrag := leBitsTo4Byte pdesc 4 27 1
      seqNum := leBitsTo4Byte pdesc 8 0 12
      fragNum := leBitsTo4Byte pdesc 8 12 4 }

/-! ## Memory -/

/-- What `netdev_alloc_skb` returns: the address of `skb->data` and what the memory holds. -/
structure SkbMem where
  data : ℕ
  content : ℕ → UInt8

/-- What the code reads of its surroundings. `recv` and `mgt` are what `recv_func` reads and
    what the handlers of a management frame do; `netdevAllocSkb` and `skbClone` answer the
    request after so many `sk_buff`s; `beyond` is the memory after the transfer. -/
structure UsbEnv where
  recv : RecvPriv → RecvFrame → RecvEnv
  mgt : RecvPriv → RecvFrame → List StaQueueOp
  netdevAllocSkb : ℕ → ℕ → Option SkbMem
  skbClone : ℕ → Bool
  beyond : ℕ → UInt8

/-- A first fragment gets room for the others. -/
def firstFragment (a : RxPktAttrib) : Prop := a.mfrag = 1 ∧ a.fragNum = 0

instance (a : RxPktAttrib) : Decidable (firstFragment a) := inferInstanceAs (Decidable (_ ∧ _))

/-- `alloc_sz` (`recv_linux.c`, lines 57–72). -/
def allocSz (st : RxStatus) : ℕ :=
  if firstFragment st.attrib then (if st.pktLen ≤ 1650 then 1664 else st.pktLen + 14)
  else st.pktLen + 14

/-- The two `skb_reserve` (lines 83–84). -/
def skbReserve (m : SkbMem) (a : RxPktAttrib) : ℕ :=
  (8 - m.data % 8) + (if a.qos = 1 then 6 else 0)

theorem skbReserve_le (m : SkbMem) (st : RxStatus) :
    skbReserve m st.attrib + st.pktLen ≤ allocSz st := by
  unfold skbReserve allocSz
  split_ifs <;> omega

/-- The receive frame on a new `sk_buff`. -/
def skbFrame (n addr : ℕ) (m : SkbMem) (st : RxStatus) : RecvFrame where
  addr := addr
  skb := some n
  attrib := st.attrib
  len := 0
  mem := (List.range (allocSz st)).map m.content
  rxData := skbReserve m st.attrib
  rxTail := skbReserve m st.attrib
  data_le_tail := le_rfl
  tail_le_end := by
    have h := skbReserve_le m st
    rw [List.length_map, List.length_range]
    omega

/-- `rtw_os_alloc_recvframe` (lines 33–116) with the frame at `pdata`. -/
def rtwOsAllocRecvframe (env : UsbEnv) (n addr : ℕ) (st : RxStatus) (pdata : Bytes) :
    Option RecvFrame :=
  match env.netdevAllocSkb n (allocSz st) with
  | some m =>
    let f := skbFrame n addr m st
    some (f.memcpy f.rxTail (pdata.take st.pktLen))
  | none =>
    if firstFragment st.attrib then none
    else if env.skbClone n then
      some
        { addr, skb := some n, attrib := st.attrib, len := 0
          mem := (pdata ++ (List.range (allocSz st)).map env.beyond).take (allocSz st)
          rxData := 0, rxTail := 0, data_le_tail := le_rfl, tail_le_end := Nat.zero_le _ }
    else none

/-! ## The loop -/

/-- What becomes of a receive frame: `rtw_recv_entry` or `rtw_free_recvframe`. -/
inductive RxOutcome where
  | entry (f : RecvFrame)
  | free (f : RecvFrame)
  deriving DecidableEq, Repr

/-- The receive path and, in their order, the calls made by `recvbuf2recvframe`. -/
structure UsbRx where
  recv : RecvPriv
  log : List RxOutcome

/-- `rtw_recv_entry` (`rtw_recv.c`, lines 2524–2558). -/
def UsbRx.rtwRecvEntry (env : UsbEnv) (s : UsbRx) (f : RecvFrame) : UsbRx where
  recv := recvFunc (env.recv s.recv f) s.recv (env.mgt s.recv f) f
  log := s.log ++ [.entry f]

/-- `rtw_free_recvframe`. -/
def UsbRx.rtwFreeRecvframe (s : UsbRx) (f : RecvFrame) : UsbRx where
  recv := s.recv.rtwFreeRecvframe f
  log := s.log ++ [.free f]

/-- Normal packets go up, the reports only tell that they have come (lines 93–126). -/
def UsbRx.dispatch (env : UsbEnv) (s : UsbRx) (st : RxStatus) (f : RecvFrame) : UsbRx :=
  if st.pktRptType = .normalRx then s.rtwRecvEntry env f else s.rtwFreeRecvframe f

/-- `rtw_alloc_recvframe` from `free_recv_queue` (lines 152–192). -/
def rtwAllocRecvframe (s : RecvPriv) : Option (ℕ × RecvPriv) :=
  match s.freeRecvQueue with
  | [] => none
  | a :: q =>
    some (a, { s with freeRecvQueue := q, freeRecvframeCnt := s.freeRecvframeCnt - 1 })

/-- The receive frame before it has an `sk_buff`. -/
def bareFrame (addr : ℕ) (st : RxStatus) : RecvFrame where
  addr := addr
  skb := none
  attrib := st.attrib
  len := 0
  mem := []
  rxData := 0
  rxTail := 0
  data_le_tail := le_rfl
  tail_le_end := le_rfl

/-- `_RND8` (`osdep_service.h`, lines 138–146). -/
def rnd8 (sz : ℕ) : ℕ := (sz / 8 + if sz % 8 = 0 then 0 else 1) * 8

/-- An `int32_t` as `uint32_t`, as in the comparison with `pkt_offset`. -/
def asU32 (x : ℤ) : ℕ := (x % 2 ^ 32).toNat

/-- What is stored in an `int32_t`. -/
def asI32 (x : ℤ) : ℤ := if x % 2 ^ 32 < 2 ^ 31 then x % 2 ^ 32 else x % 2 ^ 32 - 2 ^ 32

/-- The length of the descriptor, driver info, shift bytes and frame (line 76). -/
def pktOffset (st : RxStatus) : ℕ := rxdescSize + st.drvinfoSz + st.shiftSz + st.pktLen

/-- One iteration (`usb_ops_linux.c`, lines 54–134); `none` is the way to the exit label, else
    the number of bytes to go on. -/
def recvOne (env : UsbEnv) (s : UsbRx) (pbuf : Bytes) (transferLen : ℤ) : UsbRx × Option ℕ :=
  match rtwAllocRecvframe s.recv with
  | none => (s, none)
  | some (addr, recv) =>
    let s := { s with recv }
    let st := rtl8812QueryRxDescStatus pbuf
    if st.crcErr ∨ st.icvErr then (s.rtwFreeRecvframe (bareFrame addr st), none)
    else if st.pktLen ≤ 0 ∨ asU32 transferLen < pktOffset st then
      (s.rtwFreeRecvframe (bareFrame addr st), none)
    else
      let pdata := pbuf.drop (st.shiftSz + st.drvinfoSz + rxdescSize)
      match rtwOsAllocRecvframe env s.recv.arrived addr st pdata with
      | none => (s.rtwFreeRecvframe (bareFrame addr st), none)
      | some f =>
        let s := { s with recv := { s.recv with arrived := s.recv.arrived + 1 } }
        let f := recvframePut f st.pktLen
        (s.dispatch env st f, some (rnd8 (pktOffset st) % 2 ^ 16))

/-- The `do … while` for at most `fuel` iterations: `none` if it has not ended by then. -/
def recvLoop (env : UsbEnv) : ℕ → UsbRx → Bytes → ℤ → Option UsbRx
  | 0, _, _, _ => none
  | fuel + 1, s, pbuf, transferLen =>
    match recvOne env s pbuf transferLen with
    | (s, none) => some s
    | (s, some n) =>
      let transferLen := asI32 (transferLen - n)
      if transferLen > 0 then recvLoop env fuel s (pbuf.drop n) transferLen else some s

/-- `recvbuf2recvframe` (lines 36–140) on a buffer with `skb->len = len`. -/
def recvbuf2recvframe (env : UsbEnv) (s : UsbRx) (buf : Bytes) (len : ℕ) : Option UsbRx :=
  recvLoop env (len % 2 ^ 32 + 1) s buf (asI32 len)

/-! ## The loop ends -/

theorem leBitsTo4Byte_lt (pdesc : Bytes) (off bitOffset bitLen : ℕ) :
    leBitsTo4Byte pdesc off bitOffset bitLen < 2 ^ bitLen := Nat.mod_lt _ (Nat.two_pow_pos bitLen)

/-- The fields are small: what is added to `pbuf` is not truncated. -/
theorem pktOffset_query (pdesc : Bytes) :
    rxdescSize ≤ pktOffset (rtl8812QueryRxDescStatus pdesc) ∧
      pktOffset (rtl8812QueryRxDescStatus pdesc) ≤ 16530 := by
  have h1 := leBitsTo4Byte_lt pdesc 0 0 14
  have h2 := leBitsTo4Byte_lt pdesc 0 16 4
  have h3 := leBitsTo4Byte_lt pdesc 0 24 2
  simp only [pktOffset, rtl8812QueryRxDescStatus, rxdescSize]
  omega

theorem rnd8_mod {n : ℕ} (h : n ≤ 16530) : rnd8 n % 2 ^ 16 = rnd8 n := by
  unfold rnd8
  split_ifs <;> omega

theorem le_rnd8 (n : ℕ) : n ≤ rnd8 n ∧ rnd8 n < n + 8 := by
  unfold rnd8
  split_ifs <;> omega

/-- What an iteration that goes on has checked. -/
theorem recvOne_some {env : UsbEnv} {s s' : UsbRx} {pbuf : Bytes} {t : ℤ} {n : ℕ}
    (h : recvOne env s pbuf t = (s', some n)) :
    rxdescSize ≤ n ∧ n < asU32 t + 8 := by
  obtain ⟨hlo, hhi⟩ := pktOffset_query pbuf
  have hr := le_rnd8 (pktOffset (rtl8812QueryRxDescStatus pbuf))
  have hm := rnd8_mod hhi
  unfold recvOne at h
  split at h
  · cases h
  · dsimp only at h
    split_ifs at h with h1 h2
    · cases h
    · cases h
    · split at h
      · cases h
      · obtain rfl := Option.some.inj (Prod.mk.inj h).2
        omega

theorem asU32_asI32 {t : ℤ} {n : ℕ} (hn : n ≤ asU32 t) (h : 0 < asI32 (t - n)) :
    asU32 (asI32 (t - n)) + n = asU32 t := by
  unfold asU32 asI32 at *
  split_ifs at * <;> omega

/-- Rounding may go beyond the end, but not over the top of an `int32_t`. -/
theorem asI32_le_zero {t : ℤ} {n : ℕ} (hn : asU32 t < n) (hn' : n < asU32 t + 8) :
    asI32 (t - n) ≤ 0 := by
  unfold asU32 asI32 at *
  split_ifs at * <;> omega

theorem recvLoop_isSome (env : UsbEnv) {fuel : ℕ} (s : UsbRx) (pbuf : Bytes) {t : ℤ}
    (h : asU32 t < fuel) : (recvLoop env fuel s pbuf t).isSome := by
  induction fuel generalizing s pbuf t with
  | zero => omega
  | succ fuel ih =>
    rw [recvLoop]
    split
    · rfl
    · rename_i s' n heq
      obtain ⟨hlo, hhi⟩ := recvOne_some heq
      dsimp only
      split_ifs with hpos
      · have hn : n ≤ asU32 t := by
          by_contra hc
          have := asI32_le_zero (Nat.lt_of_not_le hc) hhi
          omega
        have hdec := asU32_asI32 hn hpos
        apply ih
        rw [rxdescSize] at hlo
        omega
      · rfl

/-- `recvbuf2recvframe` returns on every buffer. -/
theorem recvbuf2recvframe_isSome (env : UsbEnv) (s : UsbRx) (buf : Bytes) (len : ℕ) :
    (recvbuf2recvframe env s buf len).isSome := by
  apply recvLoop_isSome
  unfold asU32 asI32
  split_ifs <;> omega

/-! ## Aggregates -/

/-- A packet as it comes in a transfer, without errors. -/
structure RxPacket where
  desc : Bytes
  drvinfo : Bytes
  shift : Bytes
  frame : Bytes
  pad : Bytes
  desc_length : desc.length = rxdescSize
  drvinfo_length : drvinfo.length = (rtl8812QueryRxDescStatus desc).drvinfoSz
  shift_length : shift.length = (rtl8812QueryRxDescStatus desc).shiftSz
  frame_length : frame.length = (rtl8812QueryRxDescStatus desc).pktLen
  frame_pos : 0 < frame.length
  crc_ok : (rtl8812QueryRxDescStatus desc).crcErr = false
  icv_ok : (rtl8812QueryRxDescStatus desc).icvErr = false
  pad_length : pad.length < 8
  aligned : 8 ∣ desc.length + drvinfo.length + shift.length + frame.length + pad.length

namespace RxPacket

variable (p : RxPacket)

def status : RxStatus := rtl8812QueryRxDescStatus p.desc

def encode : Bytes := p.desc ++ (p.drvinfo ++ (p.shift ++ (p.frame ++ p.pad)))

def isNormal : Bool := p.status.pktRptType == .normalRx

end RxPacket

/-- The packets of a transfer, one after the other. -/
def aggregate (ps : List RxPacket) : Bytes := ps.flatMap RxPacket.encode

/-- What `rtw_recv_entry` was called with. -/
def handedUp (log : List RxOutcome) : List Bytes :=
  log.filterMap fun
    | .entry f => some f.data
    | .free _ => none

theorem leBitsTo4Byte_append {desc : Bytes} (x : Bytes) {off : ℕ} (h : off + 3 < desc.length)
    (bitOffset bitLen : ℕ) :
    leBitsTo4Byte (desc ++ x) off bitOffset bitLen = leBitsTo4Byte desc off bitOffset bitLen := by
  have hb : ∀ k < 4, (desc ++ x).getD (off + k) 0 = desc.getD (off + k) 0 := fun k hk =>
    getD_append_left (by omega)
  simp only [leBitsTo4Byte]
  rw [hb 0 (by omega), hb 1 (by omega), hb 2 (by omega), hb 3 (by omega)]

/-- Only the descriptor is looked at. -/
theorem query_append {desc : Bytes} (h : desc.length = rxdescSize) (x : Bytes) :
    rtl8812QueryRxDescStatus (desc ++ x) = rtl8812QueryRxDescStatus desc := by
  have h0 : 0 + 3 < desc.length := by rw [h, rxdescSize]; omega
  have h4 : 4 + 3 < desc.length := by rw [h, rxdescSize]; omega
  have h8 : 8 + 3 < desc.length := by rw [h, rxdescSize]; omega
  simp only [rtl8812QueryRxDescStatus, leBitsTo4Byte_append x h0, leBitsTo4Byte_append x h4,
    leBitsTo4Byte_append x h8]

namespace RxPacket

variable (p : RxPacket) (x : Bytes)

theorem query_encode : rtl8812QueryRxDescStatus (p.encode ++ x) = p.status := by
  rw [encode, List.append_assoc, query_append p.desc_length]
  rfl

theorem pktOffset_eq :
    pktOffset p.status = p.desc.length + p.drvinfo.length + p.shift.length + p.frame.length := by
  rw [p.desc_length, p.drvinfo_length, p.shift_length, p.frame_length]
  rfl

theorem encode_length : p.encode.length = rnd8 (pktOffset p.status) := by
  have hpad := p.pad_length
  have hdvd := p.aligned
  have hlen : p.encode.length = pktOffset p.status + p.pad.length := by
    rw [p.pktOffset_eq]
    simp only [encode, List.length_append]
    omega
  rw [← p.pktOffset_eq] at hdvd
  rw [hlen, rnd8]
  split_ifs <;> omega

/-- Where the frame is. -/
theorem drop_encode :
    (p.encode ++ x).drop (p.status.shiftSz + p.status.drvinfoSz + rxdescSize) =
      p.frame ++ (p.pad ++ x) := by
  have hsplit : p.encode ++ x =
      (p.desc ++ (p.drvinfo ++ p.shift)) ++ (p.frame ++ (p.pad ++ x)) := by
    simp only [encode, List.append_assoc]
  have hlen : (p.desc ++ (p.drvinfo ++ p.shift)).length =
      p.status.shiftSz + p.status.drvinfoSz + rxdescSize := by
    simp only [List.length_append, p.desc_length, p.drvinfo_length, p.shift_length, status]
    omega
  rw [hsplit, List.drop_left' hlen]

end RxPacket

/-! ## One packet -/

/-- The iteration on one packet, taken alone. -/
def rxPacket (env : UsbEnv) (s : UsbRx) (p : RxPacket) : UsbRx :=
  (recvOne env s p.encode p.encode.length).1

/-- The packet got the first free receive frame, with exactly its bytes; it was handed up, or
    the receive frame is free again. -/
def Handled (env : UsbEnv) (s : UsbRx) (p : RxPacket) : Prop :=
  ∃ f q, s.recv.freeRecvQueue = f.addr :: q ∧ f.attrib = p.status.attrib ∧ f.data = p.frame ∧
    f.LenOk ∧
    if p.isNormal then (rxPacket env s p).log = s.log ++ [.entry f]
    else (rxPacket env s p).log = s.log ++ [.free f] ∧
      (rxPacket env s p).recv.freeRecvQueue = q.erase f.addr ++ [f.addr]

theorem skbFrame_data (n addr : ℕ) (m : SkbMem) (st : RxStatus) :
    (skbFrame n addr m st).data = [] := by
  apply List.eq_nil_of_length_eq_zero
  rw [RecvFrame.data_length]
  exact Nat.sub_self _

/-- The copy of a packet. -/
def packetFrame (n addr : ℕ) (m : SkbMem) (p : RxPacket) : RecvFrame :=
  recvframePut ((skbFrame n addr m p.status).memcpy (skbFrame n addr m p.status).rxTail p.frame)
    p.frame.length

theorem packetFrame_data (n addr : ℕ) (m : SkbMem) (p : RxPacket) :
    (packetFrame n addr m p).data = p.frame := by
  have hroom : (skbFrame n addr m p.status).rxTail + p.frame.length ≤
      (skbFrame n addr m p.status).mem.length := by
    have h := skbReserve_le m p.status
    have hframe : p.frame.length = p.status.pktLen := p.frame_length
    simpa [skbFrame, hframe] using h
  rw [packetFrame, recvframePut_memcpy_data hroom, skbFrame_data, List.nil_append]

theorem packetFrame_lenOk (n addr : ℕ) (m : SkbMem) (p : RxPacket) :
    (packetFrame n addr m p).LenOk := by
  apply recvframePut_memcpy_lenOk
  simp [RecvFrame.LenOk, skbFrame]

theorem recvOne_encode {env : UsbEnv} {s : UsbRx} {p : RxPacket} {a : ℕ} {q : List ℕ} {m : SkbMem}
    (hq : s.recv.freeRecvQueue = a :: q)
    (hm : env.netdevAllocSkb s.recv.arrived (allocSz p.status) = some m) (x : Bytes) {t : ℤ}
    (ht : pktOffset p.status ≤ asU32 t) :
    recvOne env s (p.encode ++ x) t =
      (UsbRx.dispatch env
        { s with
          recv :=
            { s.recv with
              freeRecvQueue := q
              freeRecvframeCnt := s.recv.freeRecvframeCnt - 1
              arrived := s.recv.arrived + 1 } }
        p.status (packetFrame s.recv.arrived a m p), some p.encode.length) := by
  have hpos := p.frame_pos
  have hframe : p.frame.length = p.status.pktLen := p.frame_length
  have hcrc : ¬(p.status.crcErr = true ∨ p.status.icvErr = true) := by
    have h1 : p.status.crcErr = false := p.crc_ok
    have h2 : p.status.icvErr = false := p.icv_ok
    simp [h1, h2]
  have hlen : ¬(p.status.pktLen ≤ 0 ∨ asU32 t < pktOffset p.status) := by omega
  have hstep := rnd8_mod (pktOffset_query p.desc).2
  have htake : (p.frame ++ (p.pad ++ x)).take p.status.pktLen = p.frame := by
    rw [← hframe, List.take_left]
  unfold recvOne rtwAllocRecvframe
  rw [hq]
  dsimp only
  rw [p.query_encode, if_neg hcrc, if_neg hlen, p.drop_encode, rtwOsAllocRecvframe, hm]
  dsimp only
  rw [htake, p.encode_length, packetFrame, hframe]
  exact congrArg _ (congrArg some hstep)

/-- One iteration takes one packet. -/
theorem recvbuf2recvframe_packet {env : UsbEnv} (hmem : ∀ n sz, (env.netdevAllocSkb n sz).isSome)
    {s : UsbRx} (hfree : s.recv.freeRecvQueue ≠ []) (p : RxPacket) :
    Handled env s p ∧ ∀ x t, p.encode.length ≤ asU32 t →
      recvOne env s (p.encode ++ x) t = (rxPacket env s p, some p.encode.length) := by
  obtain ⟨m, hm⟩ := Option.isSome_iff_exists.mp (hmem s.recv.arrived (allocSz p.status))
  obtain ⟨a, q, hq⟩ := List.exists_cons_of_ne_nil hfree
  have hoff : pktOffset p.status ≤ p.encode.length := by
    rw [p.encode_length]
    exact (le_rnd8 _).1
  have hone := fun x t ht => recvOne_encode (t := t) hq hm x (hoff.trans ht)
  have hself : p.encode.length ≤ asU32 p.encode.length := by
    have h1 := (pktOffset_query p.desc).2
    have h2 := (le_rnd8 (pktOffset p.status)).2
    rw [← p.encode_length] at h2
    have h3 : pktOffset p.status ≤ 16530 := h1
    unfold asU32
    omega
  have hpacket := congrArg Prod.fst (hone [] p.encode.length hself)
  rw [List.append_nil] at hpacket
  refine ⟨⟨packetFrame s.recv.arrived a m p, q, ?_, ?_, ?_, ?_, ?_⟩, fun x t ht => ?_⟩
  · simpa [packetFrame, skbFrame] using hq
  · simp [packetFrame, skbFrame]
  · exact packetFrame_data _ _ _ _
  · exact packetFrame_lenOk _ _ _ _
  · have haddr : (packetFrame s.recv.arrived a m p).addr = a := by simp [packetFrame, skbFrame]
    rw [rxPacket, hpacket, UsbRx.dispatch]
    by_cases hn : p.status.pktRptType = .normalRx
    · rw [if_pos hn, if_pos (by simp [RxPacket.isNormal, hn])]
      rfl
    · rw [if_neg hn, if_neg (by simp [RxPacket.isNormal, hn])]
      exact ⟨rfl, rfl⟩
  · rw [hone x t ht, rxPacket, hpacket]

theorem handed_handedUp {env : UsbEnv} {s : UsbRx} {p : RxPacket} (h : Handled env s p) :
    handedUp (rxPacket env s p).log =
      handedUp s.log ++ ([p].filter RxPacket.isNormal).map RxPacket.frame := by
  obtain ⟨f, q, -, -, hdata, -, hlog⟩ := h
  cases hn : p.isNormal with
  | true =>
    rw [if_pos hn] at hlog
    simp [hlog, handedUp, hn, hdata]
  | false =>
    rw [if_neg (by simp [hn])] at hlog
    simp [hlog.1, handedUp, hn]

theorem aggregate_cons (p : RxPacket) (ps : List RxPacket) :
    aggregate (p :: ps) = p.encode ++ aggregate ps := List.flatMap_cons

theorem aggregate_pos (p : RxPacket) (ps : List RxPacket) : 0 < (aggregate (p :: ps)).length := by
  have hpos := p.frame_pos
  simp only [aggregate_cons, RxPacket.encode, List.length_append]
  omega

/-- The loop on packets, whatever follows them. -/
theorem recvLoop_aggregate {env : UsbEnv} (hmem : ∀ n sz, (env.netdevAllocSkb n sz).isSome)
    {fuel : ℕ} {s : UsbRx} {p : RxPacket} {ps : List RxPacket} (rest : Bytes)
    (hlen : (aggregate (p :: ps)).length < 2 ^ 31) (hfuel : ps.length < fuel)
    (hfree : Guarded (rxPacket env) (fun s _ => s.recv.freeRecvQueue ≠ []) s (p :: ps)) :
    recvLoop env fuel s (aggregate (p :: ps) ++ rest) (aggregate (p :: ps)).length =
      some (run (rxPacket env) s (p :: ps)) := by
  induction ps generalizing fuel s p with
  | nil =>
    obtain ⟨fuel, rfl⟩ := Nat.exists_eq_succ_of_ne_zero (Nat.ne_of_gt hfuel)
    obtain ⟨-, hone⟩ := recvbuf2recvframe_packet hmem hfree.1 p
    have hagg : aggregate [p] = p.encode := by simp [aggregate]
    rw [hagg] at hlen ⊢
    have hle : p.encode.length ≤ asU32 p.encode.length := by
      unfold asU32
      omega
    have hend : ¬asI32 ((p.encode.length : ℤ) - p.encode.length) > 0 := by
      unfold asI32
      split_ifs <;> omega
    rw [recvLoop, hone rest _ hle]
    dsimp only
    rw [if_neg hend]
    rfl
  | cons p' ps ih =>
    obtain ⟨fuel, rfl⟩ := Nat.exists_eq_succ_of_ne_zero (Nat.ne_of_gt (Nat.zero_lt_of_lt hfuel))
    obtain ⟨-, hone⟩ := recvbuf2recvframe_packet hmem hfree.1 p
    have hpos := aggregate_pos p' ps
    rw [aggregate_cons, List.length_append] at hlen ⊢
    have hle : p.encode.length ≤
        asU32 ((p.encode.length + (aggregate (p' :: ps)).length : ℕ) : ℤ) := by
      unfold asU32
      omega
    have hnext : asI32 (((p.encode.length + (aggregate (p' :: ps)).length : ℕ) : ℤ) -
        p.encode.length) = (aggregate (p' :: ps)).length := by
      unfold asI32
      split_ifs <;> omega
    rw [List.append_assoc, recvLoop, hone _ _ hle]
    dsimp only
    rw [hnext, if_pos (by omega), List.drop_left]
    exact ih (by omega) (by simpa using hfuel) hfree.2

theorem run_handedUp {env : UsbEnv} {s : UsbRx} {ps : List RxPacket}
    (h : Guarded (rxPacket env) (Handled env) s ps) :
    handedUp (run (rxPacket env) s ps).log =
      handedUp s.log ++ (ps.filter RxPacket.isNormal).map RxPacket.frame := by
  induction ps generalizing s with
  | nil => simp
  | cons p ps ih =>
    rw [run_cons, ih h.2, handed_handedUp h.1, List.append_assoc, ← List.map_append,
      ← List.filter_append, List.singleton_append]

/-- A transfer without a byte: what is left in the buffer is not taken for a packet. -/
theorem recvbuf2recvframe_empty (env : UsbEnv) (s : UsbRx) (rest : Bytes) :
    ∃ s', recvbuf2recvframe env s rest 0 = some s' ∧ handedUp s'.log = handedUp s.log := by
  obtain ⟨hlo, -⟩ := pktOffset_query rest
  have hzero : asU32 (asI32 (0 : ℕ)) = 0 := rfl
  have hlen : asU32 (asI32 (0 : ℕ)) < pktOffset (rtl8812QueryRxDescStatus rest) := by
    rw [hzero]
    rw [rxdescSize] at hlo
    omega
  unfold recvbuf2recvframe recvLoop recvOne
  cases rtwAllocRecvframe s.recv with
  | none => exact ⟨s, rfl, rfl⟩
  | some r =>
    dsimp only
    rw [if_pos (Or.inr hlen)]
    split_ifs
    · exact ⟨_, rfl, by simp [UsbRx.rtwFreeRecvframe, handedUp]⟩
    · exact ⟨_, rfl, by simp [UsbRx.rtwFreeRecvframe, handedUp]⟩

/-- A transfer is split into exactly its packets: their frames go up in order, each packet is
    handled once, and the call ends in the state after the last one. -/
theorem recvbuf2recvframe_aggregate {env : UsbEnv}
    (hmem : ∀ n sz, (env.netdevAllocSkb n sz).isSome) {s : UsbRx} {ps : List RxPacket}
    (rest : Bytes) (hlen : (aggregate ps).length < 2 ^ 31)
    (hfree : Guarded (rxPacket env) (fun s _ => s.recv.freeRecvQueue ≠ []) s ps) :
    ∃ s', recvbuf2recvframe env s (aggregate ps ++ rest) (aggregate ps).length = some s' ∧
      handedUp s'.log = handedUp s.log ++ (ps.filter RxPacket.isNormal).map RxPacket.frame ∧
      Guarded (rxPacket env) (Handled env) s ps ∧
      (ps ≠ [] → s' = run (rxPacket env) s ps) := by
  have hhandled : Guarded (rxPacket env) (Handled env) s ps :=
    hfree.mono fun s p h => (recvbuf2recvframe_packet hmem h p).1
  cases ps with
  | nil =>
    obtain ⟨s', hs', hlog⟩ := recvbuf2recvframe_empty env s rest
    exact ⟨s', hs', by simp [hlog], trivial, fun h => absurd rfl h⟩
  | cons p ps =>
    refine ⟨run (rxPacket env) s (p :: ps), ?_, run_handedUp hhandled, hhandled, fun _ => rfl⟩
    have hcount : ∀ qs : List RxPacket, qs.length ≤ (aggregate qs).length := by
      intro qs
      induction qs with
      | nil => exact Nat.zero_le _
      | cons q qs ih =>
        have hpos := q.frame_pos
        simp only [aggregate_cons, RxPacket.encode, List.length_append, List.length_cons]
        omega
    have hi32 : asI32 (aggregate (p :: ps)).length = (aggregate (p :: ps)).length := by
      unfold asI32
      split_ifs <;> omega
    have hfuel := hcount (p :: ps)
    rw [List.length_cons] at hfuel
    rw [recvbuf2recvframe, hi32]
    exact recvLoop_aggregate hmem rest hlen (by omega) hfree

/-! ## A transfer of two packets -/

/-- The next `sk_buff` is always found, seven bytes before the next alignment. -/
def quietUsb : UsbEnv where
  recv _ _ := { priv := {} }
  mgt _ _ := []
  netdevAllocSkb _ _ := some { data := 1, content := fun _ => 0 }
  skbClone _ := true
  beyond _ := 0

def twoFree : UsbRx where
  recv := { freeRecvQueue := [0, 1], freeRecvframeCnt := 2 }
  log := []

/-- A report of eight bytes. -/
def c2hReport : RxPacket where
  desc := [8, 0, 0, 0] ++ [0, 0, 0, 0] ++ [0, 0, 0, 0x10] ++ List.replicate 12 0
  drvinfo := []
  shift := []
  frame := [1, 2, 3, 4, 5, 6, 7, 8]
  pad := []
  desc_length := by decide
  drvinfo_length := by decide
  shift_length := by decide
  frame_length := by decide
  frame_pos := by decide
  crc_ok := by decide
  icv_ok := by decide
  pad_length := by decide
  aligned := by decide

/-- A frame of ten bytes after driver info and one shift byte. -/
def shiftedFrame : RxPacket where
  desc := [10, 0, 0x81, 1] ++ List.replicate 20 0
  drvinfo := [9, 9, 9, 9, 9, 9, 9, 9]
  shift := [7]
  frame := [0x44, 0, 0, 0, 1, 2, 3, 4, 5, 6]
  pad := [0xff, 0xff, 0xff, 0xff, 0xff]
  desc_length := by decide
  drvinfo_length := by decide
  shift_length := by decide
  frame_length := by decide
  frame_pos := by decide
  crc_ok := by decide
  icv_ok := by decide
  pad_length := by decide
  aligned := by decide

theorem recvbuf2recvframe_twoPackets :
    ∃ s', recvbuf2recvframe quietUsb twoFree (aggregate [c2hReport, shiftedFrame] ++ [0x20, 0, 0, 0])
        (aggregate [c2hReport, shiftedFrame]).length = some s' ∧
      handedUp s'.log = [[0x44, 0, 0, 0, 1, 2, 3, 4, 5, 6]] := by
  have hfree : Guarded (rxPacket quietUsb) (fun s _ => s.recv.freeRecvQueue ≠ []) twoFree
      [c2hReport, shiftedFrame] := by
    have hnonempty : twoFree.recv.freeRecvQueue ≠ [] := by decide
    have hreport : Handled quietUsb twoFree c2hReport :=
      (recvbuf2recvframe_packet (fun _ _ => rfl) hnonempty c2hReport).1
    obtain ⟨f, q, -, -, -, -, hdone⟩ := hreport
    rw [if_neg (by decide)] at hdone
    refine ⟨by decide, ?_, trivial⟩
    show (rxPacket quietUsb twoFree c2hReport).recv.freeRecvQueue ≠ []
    rw [hdone.2]
    exact List.append_ne_nil_of_right_ne_nil _ (List.cons_ne_nil _ _)
  have hmem : ∀ n sz, (quietUsb.netdevAllocSkb n sz).isSome := fun _ _ => rfl
  obtain ⟨s', hs', hup, -⟩ :=
    recvbuf2recvframe_aggregate hmem [0x20, 0, 0, 0] (by decide) hfree
  exact ⟨s', hs', hup⟩

end Rtl8821au.Usb
