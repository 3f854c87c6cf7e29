import Rtl8821au.Xmit.Aggregate
import Rtl8821au.Xmit.FragWalk

/-!
# Transmit descriptors

Every frame goes to the chip behind a descriptor of 40 bytes that says where the frame starts
and how long it is (`update_txdesc`, `trx.c`, lines 260–429). In front of the first frame the
driver keeps 8 spare bytes, counted by `pkt_offset`, and drops them where the length would else
be a multiple of the packet size. `rtw_dump_xframe` (lines 434–499) decides that by
the length without them, for a frame sent alone; `rtl8812au_xmitframe_complete` (lines
604–772) by the length with them, for several frames in one transfer.

* `dumpTransfers`, `dumpTransfers_ends`: the transfers of `rtw_dump_xframe`, which end where
  `dumpLoop` says.
* `Agg.submit`, `complete_submits`: the transfer of `rtl8812au_xmitframe_complete`.
* `Right`: what the chip needs of a transfer.
* `Packed`, `Packed.next`: the slots of an aggregate.
* `submit_right_iff`: when a transfer is right.

**What goes wrong.** `xmitframe_need_length` does not consider fragments, and the descriptor
of an aggregated frame has `last_txcmdsz` bytes, those of the last fragment: the fragments
before it are not sent. `rtw_dump_xframe` has a transfer for each of them.
-/

namespace Rtl8821au.Xmit

open Places

/-! ## Descriptors -/

/-- `max_bulk_out_size` (`_rtl_usb_init_tx`, `usb.c`, lines 1614–1631). -/
def maxBulkOutSize : UsbSpeed → ℕ
  | .super => 1024
  | .high => 512
  | .full => 64

/-- `_rtl_usb_init_tx`; only the 8812AU takes 3 descriptors in a bulk packet. -/
def rtlUsbInitTx (usb : UsbSpeed) (is8812au : Bool) (fragLen : UInt32) : AggConfig where
  fragLen := fragLen
  bulkSize := maxBulkOutSize usb
  usbTxAggDescNum := if is8812au then 3 else 6
  three_le := by cases is8812au <;> decide

/-- `TXDESC_OFFSET`. -/
def txdescOffset : ℕ := txdescSize + packetOffsetSz

/-- `OFFSET_SZ`. -/
def offsetSz : ℕ := 0

/-- The members of `struct xmit_frame` that say where it lies. -/
structure XmitLayout where
  bufAddr : ℤ
  pktOffset : ℕ
  aggNum : ℕ

/-- A descriptor at `start`, without the members for the rate, the queue and the cipher. -/
structure TxDesc where
  start : ℤ
  pktSize : ℕ
  offset : ℕ
  pktOffset : ℕ
  usbTxAggNum : ℕ
  deriving DecidableEq, Repr

/-- `SET_BITS_TO_LE_4BYTE`: what a member of `bits` bits keeps of a value. -/
def toBits (bits : ℕ) (value : ℤ) : ℕ := (value % (2 ^ bits : ℕ)).toNat

/-- The bytes that the chip takes for the frame. -/
def TxDesc.span (d : TxDesc) : Span := ⟨d.start + d.offset + 8 * d.pktOffset, d.pktSize⟩

/-- Lines 285–311 of `update_txdesc`: the descriptor at `ptxdesc`. Management frames have the
    `agg_num` 1 of `rtw_init_xmitframe`. -/
def fillTxdesc (x : XmitLayout) (ptxdesc sz : ℤ) : TxDesc where
  start := ptxdesc
  pktSize := toBits 16 sz
  offset := toBits 8 (txdescSize + offsetSz : ℕ)
  pktOffset := if 0 < x.pktOffset then toBits 5 x.pktOffset else 0
  usbTxAggNum := if 1 < x.aggNum then toBits 8 x.aggNum else 0

/-- `update_txdesc` for a frame of `sz` bytes at `pmem`. -/
def updateTxdesc (usb : UsbSpeed) (x : XmitLayout) (pmem sz : ℤ) (baggPkt : Bool) :
    Bool × XmitLayout × TxDesc :=
  if baggPkt = false ∧ Pulled usb sz then
    let x := if 0 < x.pktOffset then { x with pktOffset := x.pktOffset - 1 } else x
    (true, x, fillTxdesc x (pmem + packetOffsetSz) sz)
  else (false, x, fillTxdesc x pmem sz)

theorem updateTxdesc_pulled {usb : UsbSpeed} {sz : ℤ} (h : Pulled usb sz) (x : XmitLayout)
    (pmem : ℤ) :
    updateTxdesc usb x pmem sz false =
      (true, { x with pktOffset := x.pktOffset - 1 },
        fillTxdesc { x with pktOffset := x.pktOffset - 1 } (pmem + packetOffsetSz) sz) := by
  rw [updateTxdesc, if_pos ⟨rfl, h⟩]
  cases hx : x.pktOffset with
  | zero =>
    have hself : { x with pktOffset := 0 - 1 } = x := by rw [Nat.zero_sub, ← hx]
    rw [hself]
    rfl
  | succ k => rfl

theorem updateTxdesc_kept {usb : UsbSpeed} {sz : ℤ} {baggPkt : Bool}
    (h : ¬(baggPkt = false ∧ Pulled usb sz)) (x : XmitLayout) (pmem : ℤ) :
    updateTxdesc usb x pmem sz baggPkt = (false, x, fillTxdesc x pmem sz) := if_neg h

/-- A bulk transfer of `len` bytes from `start` on. -/
structure Transfer where
  start : ℤ
  len : ℤ
  descs : List TxDesc
  deriving DecidableEq, Repr

/-! ## A frame sent alone -/

/-- One round of the loop of `rtw_dump_xframe` (lines 464–490): the transfer, which starts at
    `buf_addr`, and `mem_addr` for the next fragment. -/
def dumpFrag (usb : UsbSpeed) (x : XmitLayout) (memAddr sz : ℤ) : Transfer × XmitLayout × ℤ :=
  match updateTxdesc usb x memAddr sz false with
  | (true, x, d) =>
    let memAddr := memAddr + packetOffsetSz
    let wSz := sz + txdescSize
    (⟨memAddr, wSz, [d]⟩, { x with bufAddr := memAddr }, rnd4 (memAddr + wSz))
  | (false, x, d) =>
    let wSz := sz + txdescSize + packetOffsetSz
    (⟨x.bufAddr, wSz, [d]⟩, x, rnd4 (memAddr + wSz))

/-- Lines 454–492 of `rtw_dump_xframe`: a transfer for each fragment. -/
def dumpTransfers (sec : SecurityPriv) (usb : UsbSpeed) (a : TxAttrib) (fragLen : UInt32)
    (lastTxcmdsz : ℕ) : ℕ → ℤ → XmitLayout → List Transfer
  | 0, _, _ => []
  | n + 1, memAddr, x =>
    let sz := if n = 0 then (lastTxcmdsz : ℤ) else dumpSz sec a fragLen
    let (t, x, memAddr) := dumpFrag usb x memAddr sz
    t :: dumpTransfers sec usb a fragLen lastTxcmdsz n memAddr x

section alone

variable {sec : SecurityPriv} {usb : UsbSpeed} {a : TxAttrib} {fragLen : UInt32} {x : XmitLayout}
  {mem sz : ℤ} {last n : ℕ}

theorem dumpFrag_pulled (h : Pulled usb sz) :
    dumpFrag usb x mem sz =
      (⟨mem + 8, sz + 40, [fillTxdesc { x with pktOffset := x.pktOffset - 1 } (mem + 8) sz]⟩,
        ⟨mem + 8, x.pktOffset - 1, x.aggNum⟩, rnd4 (mem + 8 + (sz + 40))) := by
  rw [dumpFrag, updateTxdesc_pulled h]
  rfl

theorem dumpFrag_not_pulled (h : ¬Pulled usb sz) :
    dumpFrag usb x mem sz =
      (⟨x.bufAddr, sz + 40 + 8, [fillTxdesc x mem sz]⟩, x, rnd4 (mem + (sz + 40 + 8))) := by
  rw [dumpFrag, updateTxdesc_kept fun hp => h hp.2]
  rfl

/-- The transfers end where the bytes of the fragments end that `dumpLoop` sends. -/
theorem dumpTransfers_ends (sec : SecurityPriv) (usb : UsbSpeed) (a : TxAttrib) (fragLen : UInt32)
    (last n : ℕ) (mem : ℤ) (x : XmitLayout) :
    (dumpTransfers sec usb a fragLen last n mem x).map (fun t => t.start + t.len) =
      (dumpLoop sec usb a fragLen last n mem x.bufAddr).map fun s => s.start + s.size := by
  induction n generalizing mem x with
  | zero => rfl
  | succ n ih =>
    by_cases h : Pulled usb (if n = 0 then (last : ℤ) else dumpSz sec a fragLen)
    · rw [dumpLoop_pulled h, dumpTransfers, dumpFrag_pulled h]
      dsimp only
      rw [List.map_cons, List.map_cons, ih]
      congr 1
      · dsimp only
        omega
      · congr 3
        omega
    · rw [dumpLoop_not_pulled h, dumpTransfers, dumpFrag_not_pulled h]
      dsimp only
      rw [List.map_cons, List.map_cons, ih]
      congr 1
      · dsimp only
        omega
      · congr 3
        omega

end alone

/-! ## What was written for a frame -/

section written

variable {f : TxFrame} {fragLen : UInt32}

/-- `rtw_xmitframe_coalesce` with the MIC. -/
def TxFrame.coalesce (f : TxFrame) (fragLen : UInt32) (bufAddr : ℤ) (pktOffset : ℕ) :
    Option Coalesced :=
  (rtwXmitframeCoalesce f.attrib fragLen bufAddr pktOffset f.skb).map (Coalesced.addMic f.attrib)

/-- The bytes of a frame in the buffer. -/
def TxFrame.written (f : TxFrame) (fragLen : UInt32) (bufAddr : ℤ) (pktOffset : ℕ) : List Span :=
  match f.coalesce fragLen bufAddr pktOffset with
  | none => []
  | some r => wholes f.attrib (micLen f.attrib) r.frags

/-- `last_txcmdsz`. -/
def TxFrame.lastTxcmdsz (f : TxFrame) (fragLen : UInt32) (bufAddr : ℤ) (pktOffset : ℕ) : ℕ :=
  match f.coalesce fragLen bufAddr pktOffset with
  | none => 0
  | some r => r.lastTxcmdsz

/-- The only fragment of an undivided packet has the length that `xmitframe_need_length`
    predicts. -/
theorem coalesce_fits (bufAddr : ℤ) (pktOffset : ℕ) (h : FitsFirst f.attrib fragLen f.skb) :
    ∃ g : TxFragment, g.memStart = bufAddr + hwHdrOffset pktOffset ∧
      g.size f.attrib + micLen f.attrib = xmitframeNeedLength f ∧
      f.coalesce fragLen bufAddr pktOffset =
        some ⟨[g], 1, g.size f.attrib + micLen f.attrib⟩ := by
  have hpkt := f.pktlen_eq
  have hread : payloadLen f.attrib f.skb ≤ readLen f.attrib (fragLen.toNat - 4) 0 := by
    rcases h with hm | hlen
    · rw [readLen, if_pos hm, hpkt]
    · rw [readLen]
      split_ifs
      · rw [hpkt]
      · rw [mpduLen_first]
        exact hlen
  refine ⟨fragAt f.attrib (fragLen.toNat - 4) (bufAddr + hwHdrOffset pktOffset) 0
    (f.skb.data.drop f.attrib.pktHdrlen) false, rfl, ?_, ?_⟩
  · have hbody : ((f.skb.data.drop f.attrib.pktHdrlen).take
        (readLen f.attrib (fragLen.toNat - 4) 0)).length = payloadLen f.attrib f.skb := by
      rw [List.length_take, List.length_drop]
      exact Nat.min_eq_right hread
    have hllc : (llcOf f.attrib 0).length = Recv.snapSize + 2 := rtwPutSnap_length _
    simp only [TxFragment.size, fragAt, hbody, hllc, xmitframeNeedLength, hpkt]
    omega
  · rw [TxFrame.coalesce, rtwXmitframeCoalesce, fragLoop_last (fitsFirst_iff.mp h)]
    rfl

theorem written_fits (bufAddr : ℤ) (pktOffset : ℕ) (h : FitsFirst f.attrib fragLen f.skb) :
    f.written fragLen bufAddr pktOffset =
      [⟨bufAddr + hwHdrOffset pktOffset, xmitframeNeedLength f⟩] := by
  obtain ⟨g, hm, hsz, hc⟩ := coalesce_fits bufAddr pktOffset h
  rw [TxFrame.written, hc, ← hsz, ← hm]
  rfl

theorem lastTxcmdsz_fits (bufAddr : ℤ) (pktOffset : ℕ) (h : FitsFirst f.attrib fragLen f.skb) :
    f.lastTxcmdsz fragLen bufAddr pktOffset = xmitframeNeedLength f := by
  obtain ⟨g, -, hsz, hc⟩ := coalesce_fits bufAddr pktOffset h
  rw [TxFrame.lastTxcmdsz, hc, ← hsz]

/-- A divided packet is more than one run of bytes. -/
theorem written_divided (bufAddr : ℤ) (pktOffset : ℕ) (h : ¬FitsFirst f.attrib fragLen f.skb) :
    2 ≤ (f.written fragLen bufAddr pktOffset).length := by
  obtain ⟨r, b, g, g', fs, hr, hd⟩ := coalesce_divided bufAddr pktOffset f.iceOk h
  have hc : f.coalesce fragLen bufAddr pktOffset = some (r.addMic f.attrib) := by
    rw [TxFrame.coalesce, hr]
    rfl
  rw [TxFrame.written, hc]
  dsimp only
  rw [wholes_length, show (r.addMic f.attrib).frags = _ from hd.frags_eq]
  simp only [List.length_cons]
  omega

end written

/-! ## Several frames in one transfer -/

section aggregate

variable (usb : UsbSpeed) (cfg : AggConfig) (frame : ℕ → TxFrame)

/-- Frame `y` is written behind the others (lines 659–729). -/
def Agg.next (g : Agg) (y : ℕ) : Agg := (g.take cfg y (slotLen (frame y) 0)).2

/-- The aggregate of `g` and the frames `ys`. -/
def Agg.pack (g : Agg) (ys : List ℕ) : Agg := ys.foldl (Agg.next cfg frame) g

/-- The loop takes the frames `ys`: each fits and can be written, and the loop does not stop
    before the last. -/
def Taken : Agg → List ℕ → Prop
  | _, [] => True
  | g, y :: ys =>
    FitsBehind frame g.pbuf y ∧ (frame y).coalesceOk = true ∧
      ((g.take cfg y (slotLen (frame y) 0)).1 = true → ys = []) ∧ Taken (g.next cfg frame y) ys

/-- Lines 707–708: the descriptor of a frame that is not the first. -/
def slotDesc (sl : Slot) : TxDesc :=
  (updateTxdesc usb ⟨sl.start, sl.pktOffset, 0⟩ sl.start
    ((frame sl.frame).lastTxcmdsz cfg.fragLen sl.start sl.pktOffset) true).2.2

/-- Lines 744–752: the first frame gives up its `pkt_offset` if the transfer would end on a
    packet of the pipe. -/
def Agg.firstLayout (g : Agg) : XmitLayout :=
  if g.pbufTail % cfg.bulkSize = 0 then ⟨packetOffsetSz, 0, g.aggNum⟩ else ⟨0, 1, g.aggNum⟩

/-- Lines 744–760: the transfer of an aggregate. -/
def Agg.submit (g : Agg) : Transfer where
  start := (g.firstLayout cfg).bufAddr
  len := if g.pbufTail % cfg.bulkSize = 0 then g.pbufTail - packetOffsetSz else g.pbufTail
  descs :=
    match g.slots with
    | [] => []
    | sl :: sls =>
      (updateTxdesc usb (g.firstLayout cfg) (g.firstLayout cfg).bufAddr
        ((frame sl.frame).lastTxcmdsz cfg.fragLen sl.start sl.pktOffset) true).2.2 ::
          sls.map (slotDesc usb cfg frame)

end aggregate

/-! ## What the loop packs -/

section loop

variable {usb : UsbSpeed} {cfg : AggConfig} {frame : ℕ → TxFrame} {st st' : TxState}
  {g g' : Agg} {s x y fuel : ℕ} {ac : Ac} {item : Link ListHead ℕ} {r : Completed}

theorem take_visited (cfg : AggConfig) (g : Agg) (v : List (Link ListHead ℕ)) (y len : ℕ) :
    { g with visited := v }.take cfg y len =
      ((g.take cfg y len).1, { (g.take cfg y len).2 with visited := v }) := by
  rw [Agg.take, Agg.take]
  dsimp only
  split_ifs <;> rfl

theorem next_visited (cfg : AggConfig) (frame : ℕ → TxFrame) (g : Agg)
    (v : List (Link ListHead ℕ)) (y : ℕ) :
    { g with visited := v }.next cfg frame y = { g.next cfg frame y with visited := v } := by
  rw [Agg.next, take_visited]
  rfl

theorem pack_visited (cfg : AggConfig) (frame : ℕ → TxFrame) (v : List (Link ListHead ℕ))
    (ys : List ℕ) (g : Agg) :
    { g with visited := v }.pack cfg frame ys = { g.pack cfg frame ys with visited := v } := by
  induction ys generalizing g with
  | nil => rfl
  | cons y ys ih =>
    show ({ g with visited := v }.next cfg frame y).pack cfg frame ys = _
    exact next_visited cfg frame g v y ▸ ih (g.next cfg frame y)

theorem taken_visited (cfg : AggConfig) (frame : ℕ → TxFrame) (v : List (Link ListHead ℕ))
    (ys : List ℕ) (g : Agg) :
    Taken cfg frame { g with visited := v } ys ↔ Taken cfg frame g ys := by
  induction ys generalizing g with
  | nil => exact Iff.rfl
  | cons y ys ih =>
    rw [Taken, Taken, next_visited, ih, take_visited]

/-- Whatever nodes the loop meets, it packs frames that it takes. -/
theorem aggLoop_packs (h : aggLoop cfg frame s ac fuel item st g = some (st', g')) :
    ∃ ys v, Taken cfg frame g ys ∧ g' = { g.pack cfg frame ys with visited := v } := by
  induction fuel generalizing item st g with
  | zero => cases h
  | succ fuel ih =>
    rw [aggLoop] at h
    by_cases hhead : item = .head (.staPending s ac)
    · rw [if_pos hhead] at h
      obtain ⟨-, rfl⟩ := Prod.mk.inj (Option.some.inj h)
      exact ⟨[], g.visited, trivial, rfl⟩
    · rw [if_neg hhead] at h
      dsimp only at h
      cases item with
      | head l =>
        obtain ⟨-, rfl⟩ := Prod.mk.inj (Option.some.inj h)
        exact ⟨[], _, trivial, rfl⟩
      | node y =>
        dsimp only at h
        by_cases hfit : FitsBehind frame g.pbuf y
        · rw [if_neg (not_not.mpr hfit)] at h
          cases hok : (frame y).coalesceOk with
          | false =>
            rw [hok, if_pos rfl] at h
            obtain ⟨ys, v, htaken, rfl⟩ := ih h
            rw [taken_visited] at htaken
            exact ⟨ys, v, htaken, by rw [pack_visited]⟩
          | true =>
            rw [hok, if_neg (by decide), take_visited] at h
            cases hstop : (g.take cfg y (slotLen (frame y) 0)).1 with
            | true =>
              rw [hstop] at h
              obtain ⟨-, rfl⟩ := Prod.mk.inj (Option.some.inj h)
              exact ⟨[y], _, ⟨hfit, hok, fun _ => rfl, trivial⟩, rfl⟩
            | false =>
              rw [hstop] at h
              obtain ⟨ys, v, htaken, rfl⟩ := ih h
              rw [taken_visited] at htaken
              refine ⟨y :: ys, v, ⟨hfit, hok, fun hs => ?_, htaken⟩, by rw [pack_visited]; rfl⟩
              rw [hstop] at hs
              cases hs
        · rw [if_pos hfit] at h
          obtain ⟨-, rfl⟩ := Prod.mk.inj (Option.some.inj h)
          exact ⟨[], _, trivial, rfl⟩

theorem pickFirst_coalesced (h : pickFirst frame fuel st = some (some x, st')) :
    (frame x).coalesceOk = true := by
  induction fuel generalizing st with
  | zero => cases h
  | succ fuel ih =>
    rw [pickFirst] at h
    cases hd : rtwDequeueXframe st.toXmitState with
    | none =>
      rw [hd] at h
      cases h
    | some p =>
      rw [hd] at h
      dsimp only at h
      by_cases hok : (frame p.1).coalesceOk
      · rw [if_pos hok] at h
        obtain ⟨hx, -⟩ := Prod.mk.inj (Option.some.inj h)
        rw [← Option.some.inj hx]
        exact hok
      · rw [if_neg hok] at h
        exact ih h

/-- A call that sends an aggregate sends its first frame and frames that the loop takes. -/
theorem complete_submits (usb : UsbSpeed) {pxmitbuf : Option ℕ} {freeXmitbuf : List ℕ}
    (h : rtl8812auXmitframeComplete cfg frame pxmitbuf freeXmitbuf st = some r)
    (hg : r.agg = some g) :
    ∃ x ys, (frame x).coalesceOk = true ∧
      Taken cfg frame (Agg.init cfg x (slotLen (frame x) 1)) ys ∧
      g.submit usb cfg frame =
        ((Agg.init cfg x (slotLen (frame x) 1)).pack cfg frame ys).submit usb cfg frame := by
  rw [rtl8812auXmitframeComplete] at h
  cases hbuf : pickXmitbuf pxmitbuf freeXmitbuf with
  | none =>
    rw [hbuf] at h
    obtain rfl := Option.some.inj h
    cases hg
  | some p =>
    rw [hbuf] at h
    dsimp only at h
    rw [completeWith] at h
    cases hpick : pickFirst frame (st.arrived + 1) st with
    | none =>
      rw [hpick] at h
      cases h
    | some q =>
      obtain ⟨o, st1⟩ := q
      rw [hpick] at h
      cases o with
      | none =>
        obtain rfl := Option.some.inj h
        cases hg
      | some x =>
        dsimp only at h
        cases hs : (st1.attrib x).psta with
        | none =>
          rw [hs] at h
          cases h
        | some s =>
          rw [hs] at h
          dsimp only at h
          rw [completeFrom] at h
          dsimp only at h
          split at h
          · cases h
          · rename_i st2 g2 hloop
            obtain rfl := Option.some.inj h
            obtain rfl := Option.some.inj hg
            obtain ⟨ys, v, htaken, rfl⟩ := aggLoop_packs hloop
            exact ⟨x, ys, pickFirst_coalesced hpick, htaken, rfl⟩

end loop

/-! ## What the chip needs -/

/-- The bytes of `s` are submitted. -/
def Transfer.Holds (t : Transfer) (s : Span) : Prop :=
  t.start ≤ s.start ∧ s.start + s.size ≤ t.start + t.len

/-- No zero-length packet has to follow, the first descriptor stands at the first byte, and
    the descriptors stand before the bytes that were written for each frame and delimit
    them, all inside the transfer. -/
structure Right (usb : UsbSpeed) (t : Transfer) (written : List (List Span)) : Prop where
  noZlp : t.len % maxBulkOutSize usb ≠ 0
  head : t.descs.head?.map TxDesc.start = some t.start
  delimit : t.descs.map (fun d => [d.span]) = written
  descInside : ∀ d ∈ t.descs, t.Holds ⟨d.start, txdescSize⟩
  inside : ∀ d ∈ t.descs, t.Holds d.span

/-- What is given to the USB layer: a management frame, a packet in one fragment, or a first
    frame `x` with the frames `ys` that the loop takes. -/
inductive Sending (cfg : AggConfig) (frame : ℕ → TxFrame) where
  | mgnt (attrib : TxAttrib)
  | data (x : ℕ) (coalesced : (frame x).coalesceOk = true)
      (single : FitsFirst (frame x).attrib cfg.fragLen (frame x).skb)
  | aggregate (x : ℕ) (ys : List ℕ) (coalesced : (frame x).coalesceOk = true)
      (taken : Taken cfg frame (Agg.init cfg x (slotLen (frame x) 1)) ys)

section sending

variable {cfg : AggConfig} {frame : ℕ → TxFrame}

/-- The transfers. A management frame has one fragment of `pktlen` bytes; frames have the
    `pkt_offset` and `agg_num` of `rtw_init_xmitframe`. -/
def Sending.submit (sec : SecurityPriv) (usb : UsbSpeed) : Sending cfg frame → List Transfer
  | .mgnt a => dumpTransfers sec usb a cfg.fragLen a.pktlen 1 0 ⟨0, 1, 1⟩
  | .data x _ _ =>
    match (frame x).coalesce cfg.fragLen 0 1 with
    | none => []
    | some r =>
      dumpTransfers sec usb (frame x).attrib cfg.fragLen r.lastTxcmdsz r.nrFrags 0 ⟨0, 1, 1⟩
  | .aggregate x ys _ _ =>
    [((Agg.init cfg x (slotLen (frame x) 1)).pack cfg frame ys).submit usb cfg frame]

/-- The bytes written for each frame. Management frames are built behind `TXDESC_OFFSET`. -/
def Sending.written : Sending cfg frame → List (List Span)
  | .mgnt a => [[⟨txdescOffset, a.pktlen⟩]]
  | .data x _ _ => [(frame x).written cfg.fragLen 0 1]
  | .aggregate x ys _ _ =>
    ((Agg.init cfg x (slotLen (frame x) 1)).pack cfg frame ys).slots.map fun sl =>
      (frame sl.frame).written cfg.fragLen sl.start sl.pktOffset

/-- Every frame is in one fragment, and its length fits into the descriptor. The loop takes
    no longer frame. -/
def Sending.OnePiece : Sending cfg frame → Prop
  | .mgnt a => a.pktlen < 2 ^ 16
  | .data x _ _ => xmitframeNeedLength (frame x) < 2 ^ 16
  | .aggregate x ys _ _ =>
    xmitframeNeedLength (frame x) < 2 ^ 16 ∧
      ∀ y ∈ x :: ys, FitsFirst (frame y).attrib cfg.fragLen (frame y).skb

end sending

/-! ## A single descriptor -/

section single

variable {sec : SecurityPriv} {usb : UsbSpeed} {a : TxAttrib} {fragLen : UInt32} {x : XmitLayout}
  {n : ℕ}

@[simp] theorem fillTxdesc_start (x : XmitLayout) (p sz : ℤ) : (fillTxdesc x p sz).start = p := rfl

theorem toBits_nat (n : ℕ) : toBits 16 n = n % 65536 := by
  rw [toBits, ← Int.natCast_emod, Int.toNat_natCast]
  rfl

theorem fillTxdesc_span (hx : x.pktOffset ≤ 1) (p : ℤ) (n : ℕ) :
    (fillTxdesc x p n).span = ⟨p + 40 + 8 * x.pktOffset, (n % 65536 : ℕ)⟩ := by
  have hoff : (fillTxdesc x p n).offset = 40 := by
    show toBits 8 (txdescSize + offsetSz : ℕ) = 40
    decide
  have hpkt : (fillTxdesc x p n).pktOffset = x.pktOffset := by
    show (if 0 < x.pktOffset then toBits 5 x.pktOffset else 0) = _
    rcases Nat.le_one_iff_eq_zero_or_eq_one.mp hx with h | h <;> rw [h] <;> decide
  rw [TxDesc.span, hoff, hpkt, show (fillTxdesc x p n).pktSize = _ from toBits_nat n]
  rfl

/-- A length of 16 bits is what the descriptor says. -/
theorem span_eq_iff (hx : x.pktOffset ≤ 1) {p m : ℤ} (hm : m = p + 40 + 8 * x.pktOffset) :
    (fillTxdesc x p n).span = ⟨m, n⟩ ↔ n < 2 ^ 16 := by
  rw [fillTxdesc_span hx, hm, Span.mk.injEq]
  omega

/-- The transfer of a frame of `n` bytes that is sent alone. -/
def aloneTransfer (usb : UsbSpeed) (n : ℕ) : Transfer :=
  if Pulled usb n then ⟨8, n + 40, [fillTxdesc ⟨0, 0, 1⟩ 8 n]⟩
  else ⟨0, n + 48, [fillTxdesc ⟨0, 1, 1⟩ 0 n]⟩

theorem dump_alone (sec : SecurityPriv) (usb : UsbSpeed) (a : TxAttrib) (fragLen : UInt32) (n : ℕ) :
    dumpTransfers sec usb a fragLen n 1 0 ⟨0, 1, 1⟩ = [aloneTransfer usb n] := by
  rw [dumpTransfers, if_pos rfl, aloneTransfer]
  by_cases h : Pulled usb n
  · rw [dumpFrag_pulled h, if_pos h]
    rfl
  · rw [dumpFrag_not_pulled h, if_neg h, Int.add_assoc]
    rfl

/-- Dropped or kept, the spare bytes keep the length off the packet size of the pipe. -/
theorem aloneTransfer_noZlp (usb : UsbSpeed) (n : ℕ) :
    (aloneTransfer usb n).len % maxBulkOutSize usb ≠ 0 := by
  rw [aloneTransfer]
  by_cases h : Pulled usb n
  · rw [if_pos h]
    cases usb <;> simp [Pulled, rtwUsbBulkSizeBoundary, txdescSize, maxBulkOutSize] at h ⊢ <;> omega
  · rw [if_neg h]
    cases usb <;> simp [Pulled, rtwUsbBulkSizeBoundary, txdescSize, maxBulkOutSize] at h ⊢ <;> omega

theorem aloneTransfer_right_iff (usb : UsbSpeed) (n : ℕ) :
    Right usb (aloneTransfer usb n) [[⟨48, n⟩]] ↔ n < 2 ^ 16 := by
  have hzlp := aloneTransfer_noZlp usb n
  rw [aloneTransfer] at hzlp ⊢
  split_ifs at hzlp ⊢ with h
  · have hspan : (fillTxdesc ⟨0, 0, 1⟩ 8 n).span = ⟨48, n⟩ ↔ n < 2 ^ 16 :=
      span_eq_iff (Nat.zero_le 1) rfl
    refine ⟨fun hr => hspan.mp ?_, fun hn => ⟨hzlp, rfl, ?_, ?_, ?_⟩⟩
    · simpa using hr.delimit
    · simpa using hspan.mpr hn
    · simp [Transfer.Holds, txdescSize]
      omega
    · simp [Transfer.Holds, hspan.mpr hn]
      omega
  · have hspan : (fillTxdesc ⟨0, 1, 1⟩ 0 n).span = ⟨48, n⟩ ↔ n < 2 ^ 16 :=
      span_eq_iff (Nat.le_refl 1) rfl
    refine ⟨fun hr => hspan.mp ?_, fun hn => ⟨hzlp, rfl, ?_, ?_, ?_⟩⟩
    · simpa using hr.delimit
    · simpa using hspan.mpr hn
    · simp [Transfer.Holds, txdescSize]
      omega
    · simp [Transfer.Holds, hspan.mpr hn]
      omega

end single

/-! ## The slots of an aggregate -/

section packed

variable {usb : UsbSpeed} {cfg : AggConfig} {frame : ℕ → TxFrame} {g : Agg} {x y : ℕ}
  {ys : List ℕ} {sl : Slot}

theorem xmitframeNeedLength_lt (f : TxFrame) : xmitframeNeedLength f < 2 ^ 31 + 2 ^ 17 := by
  have hhdr := f.attrib.hdrlen.toNat_lt
  have hiv := f.iceOk.ivLen_le
  have hicv := f.iceOk.icvLen_le
  have hskb := f.skb.length_lt
  have hpkt := f.pktlen_eq
  have hmic : micLen f.attrib ≤ 8 := by
    rw [micLen]
    split_ifs <;> omega
  have hsw : f.attrib.swIcvLen ≤ 8 := by
    rw [TxAttrib.swIcvLen]
    split_ifs <;> omega
  rw [payloadLen] at hpkt
  simp only [xmitframeNeedLength, Recv.snapSize]
  omega

theorem le_rnd8 (n : ℕ) : n ≤ rnd8 n := by
  rw [rnd8]
  split_ifs <;> omega

theorem rnd8_le (n : ℕ) : rnd8 n ≤ n + 7 := by
  rw [rnd8]
  split_ifs <;> omega

/-- A slot behind the first: no `pkt_offset`, and a frame that the buffer holds. -/
structure Behind (frame : ℕ → TxFrame) (sl : Slot) : Prop where
  pktOffset : sl.pktOffset = 0
  len : sl.len = slotLen (frame sl.frame) 0
  small : sl.len ≤ maxXmitbufSz
  start : packetOffsetSz ≤ sl.start

/-- The slots of an aggregate with first frame `x` end before its tail. -/
structure Packed (frame : ℕ → TxFrame) (x : ℕ) (g : Agg) : Prop where
  slots : ∃ sls, g.slots = ⟨x, 0, slotLen (frame x) 1, 1⟩ :: sls ∧ ∀ sl ∈ sls, Behind frame sl
  ends : ∀ sl ∈ g.slots, sl.start + sl.len ≤ g.pbufTail
  tail : g.pbufTail ≤ g.pbuf
  small : g.pbuf ≤ 2 ^ 17

theorem packed_init (cfg : AggConfig) (hx : xmitframeNeedLength (frame x) < 2 ^ 16) :
    Packed frame x (Agg.init cfg x (slotLen (frame x) 1)) where
  slots := ⟨[], rfl, fun sl hsl => absurd hsl List.not_mem_nil⟩
  ends := by
    rw [Agg.init_slots, List.forall_mem_singleton]
    exact Nat.le_of_eq (Nat.zero_add _)
  tail := le_rnd8 _
  small := by
    have hr := rnd8_le (slotLen (frame x) 1)
    have hlen : slotLen (frame x) 1 = xmitframeNeedLength (frame x) + 40 + 1 * 8 := rfl
    rw [Agg.init_pbuf]
    omega

/-- The first frame has the spare bytes in front of it. -/
theorem Packed.spare (hg : Packed frame x g) : packetOffsetSz ≤ g.pbuf := by
  obtain ⟨sls, hsls, -⟩ := hg.slots
  have hend := hg.ends ⟨x, 0, slotLen (frame x) 1, 1⟩ (hsls ▸ List.mem_cons_self)
  have htail := hg.tail
  simp only [slotLen, packetOffsetSz] at hend ⊢
  omega

theorem take_tail (cfg : AggConfig) (g : Agg) (y len : ℕ) :
    (g.take cfg y len).2.pbufTail = u32 (g.pbuf + len) ∧
      (g.take cfg y len).2.pbuf = rnd8 (u32 (g.pbuf + len)) := by
  rw [Agg.take]
  dsimp only
  split_ifs <;> exact ⟨rfl, rfl⟩

/-- A frame that fits goes behind the others; the sum of 32 bits does not wrap. -/
theorem Packed.next (cfg : AggConfig) (hg : Packed frame x g) (hfit : FitsBehind frame g.pbuf y) :
    Packed frame x (g.next cfg frame y) := by
  obtain ⟨htail, hpbuf⟩ := take_tail cfg g y (slotLen (frame y) 0)
  have hslots := take_slots cfg g y (slotLen (frame y) 0)
  have hneed := xmitframeNeedLength_lt (frame y)
  have hlen : slotLen (frame y) 0 = xmitframeNeedLength (frame y) + 40 + 0 * 8 := rfl
  have hsmall := hg.small
  have hsum : u32 (g.pbuf + slotLen (frame y) 0) = g.pbuf + slotLen (frame y) 0 := by
    rw [u32]
    omega
  have hin : rnd8 (u32 (g.pbuf + slotLen (frame y) 0)) ≤ 20480 := hfit
  have hle := le_rnd8 (u32 (g.pbuf + slotLen (frame y) 0))
  rw [hsum] at htail hpbuf hin hle
  obtain ⟨sls, hsls, hbehind⟩ := hg.slots
  refine ⟨⟨sls ++ [⟨y, g.pbuf, slotLen (frame y) 0, 0⟩], ?_, ?_⟩, ?_, ?_, ?_⟩
  · show (g.take cfg y (slotLen (frame y) 0)).2.slots = _
    rw [hslots, hsls]
    rfl
  · intro sl hsl
    rcases List.mem_append.mp hsl with hsl | hsl
    · exact hbehind sl hsl
    · obtain rfl := List.mem_singleton.mp hsl
      refine ⟨rfl, rfl, ?_, hg.spare⟩
      show slotLen (frame y) 0 ≤ 20480
      omega
  · intro sl hsl
    show sl.start + sl.len ≤ (g.take cfg y (slotLen (frame y) 0)).2.pbufTail
    rw [htail]
    have hmem : sl ∈ (g.take cfg y (slotLen (frame y) 0)).2.slots := hsl
    rw [hslots] at hmem
    rcases List.mem_append.mp hmem with hsl | hsl
    · have h1 := hg.ends sl hsl
      have h2 := hg.tail
      omega
    · obtain rfl := List.mem_singleton.mp hsl
      exact Nat.le_refl _
  · show (g.take cfg y (slotLen (frame y) 0)).2.pbufTail ≤
      (g.take cfg y (slotLen (frame y) 0)).2.pbuf
    rw [htail, hpbuf]
    exact hle
  · show (g.take cfg y (slotLen (frame y) 0)).2.pbuf ≤ _
    rw [hpbuf]
    omega

theorem Packed.pack (cfg : AggConfig) (hg : Packed frame x g) (h : Taken cfg frame g ys) :
    Packed frame x (g.pack cfg frame ys) := by
  induction ys generalizing g with
  | nil => exact hg
  | cons y ys ih =>
    obtain ⟨hfit, -, -, htaken⟩ := h
    exact ih (hg.next cfg hfit) htaken

/-- Behind the slots that are there come those of the frames that were taken, in their
    order. -/
theorem pack_slots (cfg : AggConfig) (frame : ℕ → TxFrame) (g : Agg) (ys : List ℕ) :
    ∃ sls, (g.pack cfg frame ys).slots = g.slots ++ sls ∧ sls.map Slot.frame = ys := by
  induction ys generalizing g with
  | nil => exact ⟨[], (List.append_nil _).symm, rfl⟩
  | cons y ys ih =>
    have hslots : (g.next cfg frame y).slots = g.slots ++ [⟨y, g.pbuf, slotLen (frame y) 0, 0⟩] :=
      take_slots cfg g y (slotLen (frame y) 0)
    obtain ⟨sls, hsls, hframes⟩ := ih (g.next cfg frame y)
    refine ⟨⟨y, g.pbuf, slotLen (frame y) 0, 0⟩ :: sls, ?_, ?_⟩
    · rw [hslots, List.append_assoc] at hsls
      exact hsls
    · rw [List.map_cons, hframes]

end packed

/-! ## The transfer of an aggregate -/

section submit

variable {usb : UsbSpeed} {cfg : AggConfig} {frame : ℕ → TxFrame} {g : Agg} {x y : ℕ}
  {ys : List ℕ} {sl : Slot} {sls : List Slot}

theorem slotDesc_eq (usb : UsbSpeed) (cfg : AggConfig) (frame : ℕ → TxFrame) (sl : Slot) :
    slotDesc usb cfg frame sl = fillTxdesc ⟨sl.start, sl.pktOffset, 0⟩ sl.start
      ((frame sl.frame).lastTxcmdsz cfg.fragLen sl.start sl.pktOffset) := by
  rw [slotDesc, updateTxdesc_kept fun h => absurd h.1 (by decide)]

theorem submit_descs (usb : UsbSpeed) (cfg : AggConfig) (frame : ℕ → TxFrame)
    (h : g.slots = sl :: sls) :
    (g.submit usb cfg frame).descs =
      fillTxdesc (g.firstLayout cfg) (g.firstLayout cfg).bufAddr
        ((frame sl.frame).lastTxcmdsz cfg.fragLen sl.start sl.pktOffset) ::
          sls.map (slotDesc usb cfg frame) := by
  rw [Agg.submit, h]
  dsimp only
  rw [updateTxdesc_kept fun h => absurd h.1 (by decide)]

/-- With its spare bytes or without, the first frame is written behind 48 bytes. -/
theorem firstLayout_at (cfg : AggConfig) (g : Agg) :
    (g.firstLayout cfg).pktOffset ≤ 1 ∧ 0 ≤ (g.firstLayout cfg).bufAddr ∧
      (g.firstLayout cfg).bufAddr + 8 * (g.firstLayout cfg).pktOffset = 8 := by
  rw [Agg.firstLayout]
  split_ifs
  · exact ⟨Nat.zero_le 1, Int.natCast_nonneg _, rfl⟩
  · exact ⟨Nat.le_refl 1, Int.le_refl 0, rfl⟩

/-- The transfer ends with the last frame. -/
theorem submit_end (usb : UsbSpeed) (cfg : AggConfig) (frame : ℕ → TxFrame) (g : Agg) :
    (g.submit usb cfg frame).start + (g.submit usb cfg frame).len = g.pbufTail := by
  rw [Agg.submit, Agg.firstLayout]
  split_ifs
  · exact add_sub_cancel _ _
  · exact Int.zero_add _

theorem submit_noZlp (frame : ℕ → TxFrame) (hbulk : cfg.bulkSize = maxBulkOutSize usb) (g : Agg) :
    (g.submit usb cfg frame).len % maxBulkOutSize usb ≠ 0 := by
  simp only [Agg.submit, hbulk, packetOffsetSz]
  split_ifs with h
  · cases usb <;> simp only [maxBulkOutSize] at h ⊢ <;> omega
  · cases usb <;> simp only [maxBulkOutSize] at h ⊢ <;> omega

/-- What the descriptor of a slot says is what was written. -/
theorem slotDesc_span (usb : UsbSpeed) (hsl : Behind frame sl)
    (hfit : FitsFirst (frame sl.frame).attrib cfg.fragLen (frame sl.frame).skb) :
    (slotDesc usb cfg frame sl).span = ⟨sl.start + 40, xmitframeNeedLength (frame sl.frame)⟩ := by
  have hlen : sl.len = xmitframeNeedLength (frame sl.frame) + 40 + 0 * 8 := hsl.len
  have hsmall : sl.len ≤ 20480 := hsl.small
  have hoff := hsl.pktOffset
  rw [slotDesc_eq, lastTxcmdsz_fits _ _ hfit]
  refine (span_eq_iff ?_ ?_).mpr ?_
  · show sl.pktOffset ≤ 1
    omega
  · show (sl.start : ℤ) + 40 = sl.start + 40 + 8 * (sl.pktOffset : ℕ)
    omega
  · omega

/-- An aggregate of undivided frames is right if the first fits into its descriptor. -/
theorem Packed.right (hg : Packed frame x g) (hbulk : cfg.bulkSize = maxBulkOutSize usb)
    (hx : xmitframeNeedLength (frame x) < 2 ^ 16)
    (hfit : ∀ sl ∈ g.slots, FitsFirst (frame sl.frame).attrib cfg.fragLen (frame sl.frame).skb) :
    Right usb (g.submit usb cfg frame)
      (g.slots.map fun sl => (frame sl.frame).written cfg.fragLen sl.start sl.pktOffset) := by
  obtain ⟨sls, hsls, hbehind⟩ := hg.slots
  have hdescs := submit_descs usb cfg frame hsls
  obtain ⟨hoff, hbuf, hsum⟩ := firstLayout_at cfg g
  have hend := submit_end usb cfg frame g
  have hstart : (g.submit usb cfg frame).start = (g.firstLayout cfg).bufAddr := rfl
  have hends := hg.ends
  rw [hsls, List.forall_mem_cons] at hfit hends
  obtain ⟨hfirst, hrest⟩ := hfit
  obtain ⟨hend0, hends⟩ := hends
  have hlen0 : 0 + slotLen (frame x) 1 ≤ g.pbufTail := hend0
  simp only [slotLen, txdescSize, packetOffsetSz] at hlen0
  have hspan0 : (fillTxdesc (g.firstLayout cfg) (g.firstLayout cfg).bufAddr
      ((frame x).lastTxcmdsz cfg.fragLen (0 : ℕ) 1)).span =
        ⟨48, xmitframeNeedLength (frame x)⟩ := by
    rw [lastTxcmdsz_fits _ _ hfirst]
    exact (span_eq_iff hoff (by omega)).mpr hx
  refine ⟨submit_noZlp frame hbulk g, ?_, ?_, ?_, ?_⟩
  · rw [hdescs]
    rfl
  · rw [hdescs, hsls, List.map_cons, List.map_cons, List.map_map]
    congr 1
    · rw [hspan0, written_fits _ _ hfirst]
      rfl
    · refine List.map_congr_left fun sl hsl => ?_
      have hoff := (hbehind sl hsl).pktOffset
      rw [Function.comp_apply, slotDesc_span usb (hbehind sl hsl) (hrest sl hsl),
        written_fits _ _ (hrest sl hsl), hoff]
      rfl
  · rw [hdescs, List.forall_mem_cons, List.forall_mem_map]
    refine ⟨?_, fun sl hsl => ?_⟩
    · simp only [Transfer.Holds, fillTxdesc_start, txdescSize, hstart]
      omega
    · have hlen := (hbehind sl hsl).len
      have hmin : 8 ≤ sl.start := (hbehind sl hsl).start
      have hend' := hends sl hsl
      simp only [slotLen, txdescSize] at hlen
      simp only [Transfer.Holds, slotDesc_eq, fillTxdesc_start, txdescSize, hstart]
      omega
  · rw [hdescs, List.forall_mem_cons, List.forall_mem_map]
    refine ⟨?_, fun sl hsl => ?_⟩
    · simp only [Transfer.Holds, hspan0, hstart]
      omega
    · have hlen := (hbehind sl hsl).len
      have hmin : 8 ≤ sl.start := (hbehind sl hsl).start
      have hend' := hends sl hsl
      simp only [slotLen, txdescSize] at hlen
      simp only [Transfer.Holds, slotDesc_span usb (hbehind sl hsl) (hrest sl hsl), hstart]
      omega

end submit

/-! ## When a transfer is right -/

section right

variable {sec : SecurityPriv} {usb : UsbSpeed} {cfg : AggConfig} {frame : ℕ → TxFrame} {x : ℕ}
  {ys : List ℕ}

/-- A divided packet has one descriptor for several runs of bytes. -/
theorem divided_not_right {t : Transfer} {ss : List (List Span)} {f : TxFrame} {fragLen : UInt32}
    {bufAddr : ℤ} {pktOffset : ℕ} (hmem : f.written fragLen bufAddr pktOffset ∈ ss)
    (h : ¬FitsFirst f.attrib fragLen f.skb) : ¬Right usb t ss := by
  intro hr
  rw [← hr.delimit] at hmem
  obtain ⟨d, -, hd⟩ := List.mem_map.mp hmem
  have hlen := written_divided bufAddr pktOffset h
  rw [← hd] at hlen
  exact absurd hlen (by simp)

theorem aggregate_right_iff (hbulk : cfg.bulkSize = maxBulkOutSize usb)
    (htaken : Taken cfg frame (Agg.init cfg x (slotLen (frame x) 1)) ys) :
    Right usb (((Agg.init cfg x (slotLen (frame x) 1)).pack cfg frame ys).submit usb cfg frame)
        (((Agg.init cfg x (slotLen (frame x) 1)).pack cfg frame ys).slots.map fun sl =>
          (frame sl.frame).written cfg.fragLen sl.start sl.pktOffset) ↔
      xmitframeNeedLength (frame x) < 2 ^ 16 ∧
        ∀ y ∈ x :: ys, FitsFirst (frame y).attrib cfg.fragLen (frame y).skb := by
  obtain ⟨sls, hsls, hys⟩ := pack_slots cfg frame (Agg.init cfg x (slotLen (frame x) 1)) ys
  rw [Agg.init_slots, List.singleton_append] at hsls
  have hframes : ((Agg.init cfg x (slotLen (frame x) 1)).pack cfg frame ys).slots.map Slot.frame =
      x :: ys := by
    rw [hsls, List.map_cons, hys]
  have hall : (∀ sl ∈ ((Agg.init cfg x (slotLen (frame x) 1)).pack cfg frame ys).slots,
      FitsFirst (frame sl.frame).attrib cfg.fragLen (frame sl.frame).skb) ↔
        ∀ y ∈ x :: ys, FitsFirst (frame y).attrib cfg.fragLen (frame y).skb := by
    rw [← hframes, List.forall_mem_map]
  rw [← hall]
  constructor
  · intro hr
    have hfit : ∀ sl ∈ ((Agg.init cfg x (slotLen (frame x) 1)).pack cfg frame ys).slots,
        FitsFirst (frame sl.frame).attrib cfg.fragLen (frame sl.frame).skb := by
      intro sl hsl
      by_contra hdiv
      have hmem : (frame sl.frame).written cfg.fragLen sl.start sl.pktOffset ∈
          ((Agg.init cfg x (slotLen (frame x) 1)).pack cfg frame ys).slots.map fun sl =>
            (frame sl.frame).written cfg.fragLen sl.start sl.pktOffset :=
        List.mem_map_of_mem (f := fun sl : Slot =>
          (frame sl.frame).written cfg.fragLen sl.start sl.pktOffset) hsl
      exact divided_not_right hmem hdiv hr
    refine ⟨?_, hfit⟩
    have hdelimit := hr.delimit
    rw [submit_descs usb cfg frame hsls, hsls, List.map_cons, List.map_cons, List.cons.injEq]
      at hdelimit
    obtain ⟨hfirst, -⟩ := hdelimit
    have hfits : FitsFirst (frame x).attrib cfg.fragLen (frame x).skb :=
      hfit ⟨x, 0, slotLen (frame x) 1, 1⟩ (hsls ▸ List.mem_cons_self)
    rw [written_fits _ _ hfits, lastTxcmdsz_fits _ _ hfits, List.cons.injEq] at hfirst
    obtain ⟨hoff, -, hsum⟩ :=
      firstLayout_at cfg ((Agg.init cfg x (slotLen (frame x) 1)).pack cfg frame ys)
    refine (span_eq_iff hoff ?_).mp hfirst.1
    show ((0 : ℕ) : ℤ) + (48 : ℕ) = _
    omega
  · rintro ⟨hx, hfit⟩
    exact ((packed_init cfg hx).pack cfg htaken).right hbulk hx hfit

/-- For every speed, every threshold and everything that is given to the USB layer, one
    transfer is submitted; it is right exactly if every frame is in one fragment, of a length
    that fits into 16 bits. -/
theorem submit_right_iff (sec : SecurityPriv) (usb : UsbSpeed) (is8812au : Bool) (fragLen : UInt32)
    (frame : ℕ → TxFrame) (s : Sending (rtlUsbInitTx usb is8812au fragLen) frame) :
    (∃ t, s.submit sec usb = [t] ∧ Right usb t s.written) ↔ s.OnePiece := by
  cases s with
  | mgnt a =>
    rw [Sending.submit, dump_alone]
    simp only [List.cons.injEq, and_true, exists_eq_left', Sending.written]
    exact aloneTransfer_right_iff usb a.pktlen
  | data x coalesced single =>
    obtain ⟨g, -, hsz, hc⟩ := coalesce_fits 0 1 single
    rw [Sending.submit, hc]
    dsimp only
    rw [dump_alone, hsz, Sending.written, written_fits 0 1 single]
    simp only [List.cons.injEq, and_true, exists_eq_left']
    exact aloneTransfer_right_iff usb (xmitframeNeedLength (frame x))
  | aggregate x ys coalesced taken =>
    rw [Sending.submit]
    simp only [List.cons.injEq, and_true, exists_eq_left', Sending.written]
    exact aggregate_right_iff rfl taken

theorem updateAttrib_pktlen (sec : SecurityPriv) (encrypt : Recv.Encryption) (hdrlen : UInt16)
    (ra : Recv.MacAddr) (etherType : ℕ) (skb : Skb) :
    (updateAttrib sec encrypt hdrlen ra etherType skb).pktlen =
      payloadLen (updateAttrib sec encrypt hdrlen ra etherType skb) skb := rfl

/-- A packet of 300 bytes for one station, sent with the threshold 256 through the queues. -/
def longFrame : TxFrame where
  attrib := updateAttrib ⟨false, true⟩ .noPrivacy 24 (Vector.replicate 6 2) 0x0800 longPacket
  skb := longPacket
  iceOk := iceOk_updateAttrib ..
  pktlen_eq := updateAttrib_pktlen ..

/-- An aggregate of this packet alone. -/
def longSending : Sending (rtlUsbInitTx .high false 256) fun _ => longFrame :=
  .aggregate 0 [] rfl trivial

/-- Its descriptor says the bytes of its second fragment. -/
theorem longSending_not_right :
    ¬∃ t, longSending.submit ⟨false, true⟩ .high = [t] ∧ Right .high t longSending.written := by
  rintro ⟨t, -, hr⟩
  have hlen : payloadLen longFrame.attrib longFrame.skb = 300 := by
    rw [payloadLen, show longFrame.skb = longPacket from rfl, longPacket, List.length_replicate]
    rfl
  have hdivided : ¬FitsFirst longFrame.attrib 256 longFrame.skb := by
    rintro (h | h)
    · exact absurd h (by decide)
    · rw [hlen] at h
      exact absurd h (by decide)
  exact divided_not_right List.mem_cons_self hdivided hr

end right

end Rtl8821au.Xmit
