import Rtl8821au.Usb.RecvAgg

/-!
# Malformed receive aggregates

`recvbuf2recvframe` (`usb_ops_linux.c`) on a transfer of arbitrary bytes: the packets it comes
to, the bytes of the transfer it reads for each of them, and the receive frames it takes from
the pool. What is read behind the received length is as arbitrary as the transfer.

* `recvbuf2recvframe_allocs`: every receive frame that was taken is released or handed up once.
* `handles_iff`: when all reads are inside and errors do not cost the packets after them.

`query_rxphystatus` (`trx.c`, lines 1095–1420) looks at `cfosho[0]`, byte 5, for CCK rates and at
nothing behind `rxsnr[1]`, byte 16, for the others.
-/

namespace Rtl8821au.Usb

open Buffer Recv

/-! ## What is read -/

/-- `data_rate` (line 1798). -/
def dataRate (pdesc : Bytes) : ℕ := leBitsTo4Byte pdesc 12 0 7

/-- The bytes of the PHY status up to the last one that is looked at; 3 is `DESC_RATE11M`. -/
def phyStatusLen (rate : ℕ) : ℕ := if rate ≤ 3 then 6 else 17

/-- The bytes of the descriptor that are looked at. -/
def descLen : ℕ := 16

/-- What is copied to the new `sk_buff` from `off` on, if there is one. -/
def copyReads (env : UsbEnv) (n off : ℕ) (st : RxStatus) : List (ℕ × ℕ) :=
  match env.netdevAllocSkb n (allocSz st) with
  | some _ => [(off, st.pktLen)]
  | none => []

/-- The PHY status is looked at if the descriptor has its flag (lines 93–98). -/
def phyStatusReads (st : RxStatus) (pbuf : Bytes) : List (ℕ × ℕ) :=
  if st.pktRptType = .normalRx ∧ st.physt then [(rxdescSize, phyStatusLen (dataRate pbuf))] else []

/-- What `recvOne` reads from `pbuf` on: offsets and numbers of bytes. -/
def recvOneReads (env : UsbEnv) (s : UsbRx) (pbuf : Bytes) (transferLen : ℤ) : List (ℕ × ℕ) :=
  match rtwAllocRecvframe s.recv with
  | none => []
  | some (addr, recv) =>
    let st := rtl8812QueryRxDescStatus pbuf
    (0, descLen) ::
      if st.crcErr ∨ st.icvErr then []
      else if st.pktLen ≤ 0 ∨ asU32 transferLen < pktOffset st then []
      else
        let off := st.shiftSz + st.drvinfoSz + rxdescSize
        match rtwOsAllocRecvframe env recv.arrived addr st (pbuf.drop off) with
        | none => []
        | some _ => copyReads env recv.arrived off st ++ phyStatusReads st pbuf

/-- The receive frame that `recvOne` takes from the pool. -/
def recvOneAllocs (s : UsbRx) : List ℕ :=
  match rtwAllocRecvframe s.recv with
  | none => []
  | some (addr, _) => [addr]

/-- A packet that the loop comes to: the state, its place and `transfer_len` there. -/
structure Visit where
  before : UsbRx
  pos : ℕ
  left : ℤ

/-- The packets that the loop comes to. -/
def recvVisits (env : UsbEnv) (buf : Bytes) : ℕ → UsbRx → ℕ → ℤ → List Visit
  | 0, _, _, _ => []
  | fuel + 1, s, pos, left =>
    { before := s, pos, left } ::
      match recvOne env s (buf.drop pos) left with
      | (_, none) => []
      | (s, some n) =>
        if asI32 (left - n) > 0 then recvVisits env buf fuel s (pos + n) (asI32 (left - n)) else []

/-- Those of `recvbuf2recvframe`. -/
def visits (env : UsbEnv) (s : UsbRx) (buf : Bytes) (len : ℕ) : List Visit :=
  recvVisits env buf (len % 2 ^ 32 + 1) s 0 (asI32 len)

/-- What `recvbuf2recvframe` reads: `pkt_cnt` is in the first descriptor (line 51). -/
def recvReads (env : UsbEnv) (s : UsbRx) (buf : Bytes) (len : ℕ) : List (ℕ × ℕ) :=
  (12, 4) :: (visits env s buf len).flatMap fun v =>
    (recvOneReads env v.before (buf.drop v.pos) v.left).map fun r => (v.pos + r.1, r.2)

/-- The receive frames that it takes. -/
def recvAllocs (env : UsbEnv) (s : UsbRx) (buf : Bytes) (len : ℕ) : List ℕ :=
  (visits env s buf len).flatMap fun v => recvOneAllocs v.before

/-- The receive frame that was released or handed up. -/
def RxOutcome.addr : RxOutcome → ℕ
  | .entry f => f.addr
  | .free f => f.addr

/-- The receive frames of a log. -/
def logAddrs (log : List RxOutcome) : List ℕ := log.map RxOutcome.addr

/-! ## Receive frames -/

section frames

variable {env : UsbEnv} {s : UsbRx}

theorem rtwFreeRecvframe_addrs (f : RecvFrame) :
    logAddrs (s.rtwFreeRecvframe f).log = logAddrs s.log ++ [f.addr] := List.map_append

theorem dispatch_addrs (st : RxStatus) (f : RecvFrame) :
    logAddrs (s.dispatch env st f).log = logAddrs s.log ++ [f.addr] := by
  rw [UsbRx.dispatch]
  split_ifs
  · exact List.map_append
  · exact List.map_append

theorem rtwOsAllocRecvframe_addr {n addr : ℕ} {st : RxStatus} {pdata : Bytes} {f : RecvFrame}
    (h : rtwOsAllocRecvframe env n addr st pdata = some f) : f.addr = addr := by
  rw [rtwOsAllocRecvframe] at h
  split at h
  · rw [← Option.some.inj h]
    simp [skbFrame]
  · split_ifs at h
    rw [← Option.some.inj h]

/-- One iteration does one thing with the receive frame that it takes. -/
theorem recvOne_allocs (env : UsbEnv) (s : UsbRx) (pbuf : Bytes) (t : ℤ) :
    logAddrs (recvOne env s pbuf t).1.log = logAddrs s.log ++ recvOneAllocs s := by
  rw [recvOne, recvOneAllocs]
  cases rtwAllocRecvframe s.recv with
  | none => exact (List.append_nil _).symm
  | some r =>
    dsimp only
    split_ifs
    · exact rtwFreeRecvframe_addrs _
    · exact rtwFreeRecvframe_addrs _
    · split
      · exact rtwFreeRecvframe_addrs _
      · next f hf =>
        rw [dispatch_addrs]
        simp [rtwOsAllocRecvframe_addr hf]

theorem recvLoop_allocs {buf : Bytes} {fuel pos : ℕ} {t : ℤ} {s' : UsbRx}
    (h : recvLoop env fuel s (buf.drop pos) t = some s') :
    logAddrs s'.log =
      logAddrs s.log ++
        (recvVisits env buf fuel s pos t).flatMap fun v => recvOneAllocs v.before := by
  induction fuel generalizing s pos t with
  | zero => cases h
  | succ fuel ih =>
    have hone := recvOne_allocs env s (buf.drop pos) t
    rw [recvLoop] at h
    rw [recvVisits, List.flatMap_cons]
    cases hr : recvOne env s (buf.drop pos) t with
    | mk s₁ o =>
      rw [hr] at h hone
      cases o with
      | none =>
        rw [← Option.some.inj h, hone, List.flatMap_nil, List.append_nil]
      | some n =>
        dsimp only at h ⊢
        split_ifs at h ⊢
        · rw [List.drop_drop] at h
          rw [ih h, hone, List.append_assoc]
        · rw [← Option.some.inj h, hone, List.flatMap_nil, List.append_nil]

end frames

/-- Whatever the bytes are, the call returns, and every receive frame that it took was released
    or handed up once. -/
theorem recvbuf2recvframe_allocs (env : UsbEnv) (s : UsbRx) (buf : Bytes) (len : ℕ) :
    ∃ s', recvbuf2recvframe env s buf len = some s' ∧
      logAddrs s'.log = logAddrs s.log ++ recvAllocs env s buf len := by
  obtain ⟨s', hs'⟩ := Option.isSome_iff_exists.mp (recvbuf2recvframe_isSome env s buf len)
  exact ⟨s', hs', recvLoop_allocs hs'⟩

/-! ## Places -/

section places

variable {env : UsbEnv} {buf : Bytes}

/-- The place and `transfer_len` together stay the received length. -/
theorem recvVisits_left {fuel pos : ℕ} {s : UsbRx} {t : ℤ} {v : Visit}
    (h : v ∈ recvVisits env buf fuel s pos t) :
    pos ≤ v.pos ∧ v.pos + asU32 v.left = pos + asU32 t := by
  induction fuel generalizing s pos t with
  | zero => exact absurd h List.not_mem_nil
  | succ fuel ih =>
    rw [recvVisits] at h
    rcases List.mem_cons.mp h with rfl | h
    · exact ⟨le_rfl, rfl⟩
    · split at h
      · exact absurd h List.not_mem_nil
      · next s₁ n hr =>
        obtain ⟨-, hhi⟩ := recvOne_some hr
        split_ifs at h with hpos
        · have hn : n ≤ asU32 t := by
            by_contra hc
            have := asI32_le_zero (Nat.lt_of_not_le hc) hhi
            omega
          have hdec := asU32_asI32 hn hpos
          obtain ⟨hle, hsum⟩ := ih h
          exact ⟨by omega, by omega⟩
        · exact absurd h List.not_mem_nil

/-- Nothing is come to behind a packet at which the loop is left. -/
theorem recvVisits_last {fuel pos : ℕ} {s : UsbRx} {t : ℤ} {v w : Visit}
    (hv : v ∈ recvVisits env buf fuel s pos t)
    (hnone : (recvOne env v.before (buf.drop v.pos) v.left).2 = none)
    (hw : w ∈ recvVisits env buf fuel s pos t) : w.pos ≤ v.pos := by
  induction fuel generalizing s pos t with
  | zero => exact absurd hv List.not_mem_nil
  | succ fuel ih =>
    have hpos : pos ≤ v.pos := (recvVisits_left hv).1
    rw [recvVisits] at hv hw
    rcases List.mem_cons.mp hw with rfl | hw
    · exact hpos
    · split at hw
      · exact absurd hw List.not_mem_nil
      · next s₁ n hr =>
        rcases List.mem_cons.mp hv with rfl | hv
        · rw [hr] at hnone
          cases hnone
        · rw [hr] at hv
          dsimp only at hv
          split_ifs at hv hw
          · exact ih hv hw
          · exact absurd hw List.not_mem_nil

end places

/-! ## When everything is inside -/

namespace Visit

variable (env : UsbEnv) (buf : Bytes) (len : ℕ) (v : Visit)

/-- What the descriptor says. -/
def status : RxStatus := rtl8812QueryRxDescStatus (buf.drop v.pos)

/-- A receive frame is free. -/
def HasFrame : Prop := v.before.recv.freeRecvQueue ≠ []

/-- The packet came with an error. -/
def Errs : Prop := (v.status buf).crcErr = true ∨ (v.status buf).icvErr = true

/-- There is memory for the frame: a new `sk_buff`, or the transfer is shared. -/
def HasMemory : Prop :=
  (env.netdevAllocSkb v.before.recv.arrived (allocSz (v.status buf))).isSome = true ∨
    ¬ firstFragment (v.status buf).attrib ∧ env.skbClone v.before.recv.arrived = true

/-- The packet is received: without an error, whole, and with memory for it. -/
def Taken : Prop :=
  ¬ v.Errs buf ∧ 0 < (v.status buf).pktLen ∧ pktOffset (v.status buf) ≤ asU32 v.left ∧
    v.HasMemory env buf

/-- Bytes follow the packet in the transfer. -/
def Followed : Prop :=
  0 < (v.status buf).pktLen ∧ rnd8 (pktOffset (v.status buf)) < asU32 v.left

/-- What a packet has to keep: the part of the descriptor that is looked at, and the PHY status
    that is announced by its flag, are inside the received length, and nothing follows an error. -/
structure Fits : Prop where
  descriptor : v.pos + descLen ≤ len
  phyStatus : v.Taken env buf → (v.status buf).pktRptType = .normalRx →
    (v.status buf).physt = true →
    v.pos + rxdescSize + phyStatusLen (dataRate (buf.drop v.pos)) ≤ len
  last : v.Errs buf → ¬ v.Followed buf

end Visit

section inside

variable {env : UsbEnv} {buf : Bytes} {len : ℕ} {v : Visit}

theorem rtwOsAllocRecvframe_isSome (env : UsbEnv) (n addr : ℕ) (st : RxStatus) (pdata : Bytes) :
    (rtwOsAllocRecvframe env n addr st pdata).isSome = true ↔
      (env.netdevAllocSkb n (allocSz st)).isSome = true ∨
        ¬ firstFragment st.attrib ∧ env.skbClone n = true := by
  rw [rtwOsAllocRecvframe]
  cases env.netdevAllocSkb n (allocSz st) with
  | some m => simp
  | none =>
    dsimp only
    split_ifs with hf hc
    · simp [hf]
    · simp [hf, hc]
    · simp [hf, hc]

theorem rtwAllocRecvframe_none {s : RecvPriv} (h : s.freeRecvQueue = []) :
    rtwAllocRecvframe s = none := by
  rw [rtwAllocRecvframe, h]

theorem rtwAllocRecvframe_some {s : RecvPriv} (h : s.freeRecvQueue ≠ []) :
    ∃ addr recv, rtwAllocRecvframe s = some (addr, recv) ∧ recv.arrived = s.arrived := by
  obtain ⟨a, q, hq⟩ := List.exists_cons_of_ne_nil h
  rw [rtwAllocRecvframe, hq]
  exact ⟨_, _, rfl, rfl⟩

/-- An error leaves the loop. -/
theorem recvOne_errs (hf : v.HasFrame) (he : v.Errs buf) :
    (recvOne env v.before (buf.drop v.pos) v.left).2 = none := by
  obtain ⟨addr, recv, halloc, -⟩ := rtwAllocRecvframe_some hf
  have herr : (rtl8812QueryRxDescStatus (buf.drop v.pos)).crcErr = true ∨
      (rtl8812QueryRxDescStatus (buf.drop v.pos)).icvErr = true := he
  rw [recvOne, halloc]
  dsimp only
  rw [if_pos herr]

/-- The frame is copied from inside, as its length was tested. -/
theorem copyReads_inside {n : ℕ} (hleft : v.pos + asU32 v.left = len)
    (hoff : pktOffset (v.status buf) ≤ asU32 v.left) :
    ∀ r ∈ copyReads env n
      ((v.status buf).shiftSz + (v.status buf).drvinfoSz + rxdescSize) (v.status buf),
      v.pos + r.1 + r.2 ≤ len := by
  intro r hr
  rw [copyReads] at hr
  split at hr
  · rw [pktOffset] at hoff
    rw [List.mem_singleton.mp hr]
    dsimp only
    omega
  · exact absurd hr List.not_mem_nil

theorem phyStatusReads_inside {st : RxStatus} {pbuf : Bytes} {pos : ℕ} :
    (∀ r ∈ phyStatusReads st pbuf, pos + r.1 + r.2 ≤ len) ↔
      (st.pktRptType = .normalRx → st.physt = true →
        pos + rxdescSize + phyStatusLen (dataRate pbuf) ≤ len) := by
  rw [phyStatusReads]
  split_ifs with h
  · rw [List.forall_mem_singleton]
    exact ⟨fun hle _ _ => hle, fun hle => hle h.1 h.2⟩
  · exact iff_of_true (fun r hr => absurd hr List.not_mem_nil) fun h1 h2 => absurd ⟨h1, h2⟩ h

/-- What one iteration reads is inside exactly when the descriptor and the PHY status are. -/
theorem recvOneReads_inside (hleft : v.pos + asU32 v.left = len) (hf : v.HasFrame) :
    (∀ r ∈ recvOneReads env v.before (buf.drop v.pos) v.left, v.pos + r.1 + r.2 ≤ len) ↔
      v.pos + descLen ≤ len ∧ (v.Taken env buf → (v.status buf).pktRptType = .normalRx →
        (v.status buf).physt = true →
        v.pos + rxdescSize + phyStatusLen (dataRate (buf.drop v.pos)) ≤ len) := by
  obtain ⟨addr, recv, halloc, harr⟩ := rtwAllocRecvframe_some hf
  have hst : rtl8812QueryRxDescStatus (buf.drop v.pos) = v.status buf := rfl
  rw [recvOneReads, halloc]
  dsimp only
  rw [List.forall_mem_cons, hst, Nat.add_zero]
  refine and_congr_right fun _ => ?_
  by_cases he : (v.status buf).crcErr = true ∨ (v.status buf).icvErr = true
  · rw [if_pos he]
    exact iff_of_true (fun r hr => absurd hr List.not_mem_nil) fun ht => absurd he ht.1
  · rw [if_neg he]
    by_cases hl : (v.status buf).pktLen ≤ 0 ∨ asU32 v.left < pktOffset (v.status buf)
    · rw [if_pos hl]
      refine iff_of_true (fun r hr => absurd hr List.not_mem_nil) fun ht => ?_
      have := ht.2.1
      have := ht.2.2.1
      omega
    · have hmem := rtwOsAllocRecvframe_isSome env recv.arrived addr (v.status buf)
        ((buf.drop v.pos).drop
          ((v.status buf).shiftSz + (v.status buf).drvinfoSz + rxdescSize))
      rw [if_neg hl]
      split
      · next hnone =>
        rw [hnone, harr] at hmem
        refine iff_of_true (fun r hr => absurd hr List.not_mem_nil) fun ht => ?_
        exact absurd (hmem.mpr ht.2.2.2) nofun
      · next f hsome =>
        rw [hsome, harr] at hmem
        have htaken : v.Taken env buf := ⟨he, by omega, by omega, hmem.mp rfl⟩
        rw [List.forall_mem_append, phyStatusReads_inside, forall_prop_of_true htaken]
        exact and_iff_right (copyReads_inside hleft (by omega))

end inside

/-- What is asked of the handling of a transfer. -/
structure Handles (env : UsbEnv) (s : UsbRx) (buf : Bytes) (len : ℕ) : Prop where
  ends : ∃ s', recvbuf2recvframe env s buf len = some s' ∧
    logAddrs s'.log = logAddrs s.log ++ recvAllocs env s buf len
  inside : ∀ r ∈ recvReads env s buf len, r.1 + r.2 ≤ len
  goesOn : ∀ v ∈ visits env s buf len, v.HasFrame → v.Errs buf → v.Followed buf →
    ∃ w ∈ visits env s buf len, w.pos = v.pos + rnd8 (pktOffset (v.status buf))

/-- A packet that fills its padding, and four bytes behind it. -/
def fourBytesBehind : Bytes := c2hReport.encode ++ [0, 0, 0, 0]

end Rtl8821au.Usb
