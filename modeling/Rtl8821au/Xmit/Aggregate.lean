import Rtl8821au.Xmit.Coalesce
import Rtl8821au.Xmit.Conserve

/-!
# Transmit aggregation

`rtl8812au_xmitframe_complete` (`trx.c`, lines 520–773) takes a frame from the scheduler
and fills the rest of the transmit buffer with frames of the same service queue, each in a
slot whose length `xmitframe_need_length` predicts. Its loop is a `list_for_each` over the
queue that frees the node it stands on, so that the link it follows next is one of the
free queue.

* `rtl8812auXmitframeComplete`: one call.
* `aggLoop_spec`: the loop leaves the queue after the first frame that it takes.
* `AggregationOk`: a prefix of one queue in disjoint aligned slots.
* `aggregation_ok_iff`: when a call does that.
-/

namespace Rtl8821au.Xmit

open Places

/-! ## Frames and slots -/

/-- A pending frame: what the layout depends on, and whether `rtw_make_wlanhdr` and
    `xmitframe_addmic` accept it. -/
structure TxFrame where
  attrib : TxAttrib
  skb : Skb
  wlanhdrOk : Bool := true
  micKeyZero : Bool := false
  iceOk : IceOk attrib
  pktlen_eq : attrib.pktlen = payloadLen attrib skb

/-- `rtw_xmitframe_coalesce` does not return `_FAIL`. -/
def TxFrame.coalesceOk (f : TxFrame) : Bool :=
  f.wlanhdrOk && !(f.attrib.encrypt == .tkip && f.micKeyZero)

/-- `xmitframe_need_length` (lines 501–517). -/
def xmitframeNeedLength (f : TxFrame) : ℕ :=
  f.attrib.hdrlen.toNat + f.attrib.ivLen + Recv.snapSize + 2 + f.attrib.pktlen +
    f.attrib.swIcvLen + micLen f.attrib

/-- `len`: the bytes of a frame behind its descriptor and `pkt_offset`. -/
def slotLen (f : TxFrame) (pktOffset : ℕ) : ℕ :=
  xmitframeNeedLength f + txdescSize + pktOffset * packetOffsetSz

/-- `_RND8` (`osdep_service.h`, lines 138–147). -/
def rnd8 (sz : ℕ) : ℕ := (sz / 8 + if sz % 8 = 0 then 0 else 1) * 8

/-- A sum of type `u32`. -/
def u32 (n : ℕ) : ℕ := n % 2 ^ 32

/-- `MAX_XMITBUF_SZ`. -/
def maxXmitbufSz : ℕ := 20480

/-- `MAX_TX_AGG_PACKET_NUMBER`. -/
def maxTxAggPacketNumber : ℕ := 0xff

/-- The threshold and the limits that `_rtl_usb_init_tx` sets (`usb.c`, lines 1616–1631). -/
structure AggConfig where
  fragLen : UInt32
  bulkSize : ℕ
  usbTxAggDescNum : ℕ
  three_le : 3 ≤ usbTxAggDescNum

/-- `len` bytes from `start` on for a frame. -/
structure Slot where
  frame : ℕ
  start : ℕ
  len : ℕ
  pktOffset : ℕ
  deriving DecidableEq, Repr

/-! ## State -/

/-- The lists whose heads the loop can meet. -/
inductive ListHead where
  | staPending (psta : ℕ) (ac : Ac)
  | freeXmitQueue
  deriving DecidableEq, Repr

/-- The transmit queues with the free frames. -/
structure TxState extends XmitState where
  freeXmitQueue : List ℕ := []

/-- The lists by their heads. -/
def TxState.chain (st : TxState) : ListHead → List ℕ
  | .staPending s ac => st.queue (.staPending s ac)
  | .freeXmitQueue => st.freeXmitQueue

/-- `rtw_free_xmitframe` (`rtw_xmit.c`, lines 1855–1905). -/
def TxState.free (st : TxState) (x : ℕ) : TxState :=
  { st with
    toXmitState := rtwFreeXmitframe st.toXmitState x
    freeXmitQueue := st.freeXmitQueue ++ [x] }

/-- `item->next` in the list that `item` is in now. -/
def TxState.nextLink (st : TxState) (s : ℕ) (ac : Ac) (y : ℕ) : Link ListHead ℕ :=
  if y ∈ st.freeXmitQueue then next st.chain .freeXmitQueue y
  else next st.chain (.staPending s ac) y

/-- The aggregate variables; `slots` and `visited` record the frames written and the
    nodes met. -/
structure Agg where
  pbuf : ℕ
  pbufTail : ℕ
  descCount : ℕ
  bulkPtr : ℕ
  aggNum : ℕ
  slots : List Slot
  visited : List (Link ListHead ℕ) := []

/-- Lines 605–620. -/
def Agg.init (cfg : AggConfig) (x len : ℕ) : Agg :=
  let pbuf := rnd8 len
  { pbuf := pbuf
    pbufTail := len
    descCount := if pbuf < cfg.bulkSize then 1 else 0
    bulkPtr :=
      if pbuf < cfg.bulkSize then cfg.bulkSize else (pbuf / cfg.bulkSize + 1) * cfg.bulkSize
    aggNum := 1
    slots := [⟨x, 0, len, 1⟩] }

@[simp] theorem Agg.init_pbuf (cfg : AggConfig) (x len : ℕ) :
    (Agg.init cfg x len).pbuf = rnd8 len := rfl

@[simp] theorem Agg.init_slots (cfg : AggConfig) (x len : ℕ) :
    (Agg.init cfg x len).slots = [⟨x, 0, len, 1⟩] := rfl

@[simp] theorem Agg.init_visited (cfg : AggConfig) (x len : ℕ) :
    (Agg.init cfg x len).visited = [] := rfl

@[simp] theorem Agg.init_aggNum (cfg : AggConfig) (x len : ℕ) :
    (Agg.init cfg x len).aggNum = 1 := rfl

/-- Lines 713–729: frame `y` has been written; the result says whether the loop
    stops. -/
def Agg.take (cfg : AggConfig) (g : Agg) (y len : ℕ) : Bool × Agg :=
  let g' := { g with
    pbufTail := u32 (g.pbuf + len)
    pbuf := rnd8 (u32 (g.pbuf + len))
    aggNum := g.aggNum + 1
    slots := g.slots ++ [⟨y, g.pbuf, len, 0⟩] }
  if g'.aggNum = maxTxAggPacketNumber then (true, g')
  else if g'.pbuf < g'.bulkPtr then
    let g' := { g' with descCount := g'.descCount + 1 }
    (g'.descCount == cfg.usbTxAggDescNum, g')
  else
    (false,
      { g' with
        descCount := 0
        bulkPtr := (g'.pbuf / cfg.bulkSize + 1) * cfg.bulkSize })

/-! ## One call -/

section call

variable (cfg : AggConfig) (frame : ℕ → TxFrame)

/-- Line 667: frame `y` fits behind `pbuf`. -/
def FitsBehind (pbuf y : ℕ) : Prop := rnd8 (u32 (pbuf + slotLen (frame y) 0)) ≤ maxXmitbufSz

instance (pbuf y : ℕ) : Decidable (FitsBehind frame pbuf y) := inferInstanceAs (Decidable (_ ≤ _))

/-- The loop of lines 659–731, at `item`. -/
def aggLoop (s : ℕ) (ac : Ac) : ℕ → Link ListHead ℕ → TxState → Agg → Option (TxState × Agg)
  | 0, _, _, _ => none
  | fuel + 1, item, st, g =>
    if item = .head (.staPending s ac) then some (st, g)
    else
      let g := { g with visited := g.visited ++ [item] }
      match item with
      -- the driver reads the memory around a foreign head as a frame; the model stops here
      | .head _ => some (st, g)
      | .node y =>
        if ¬FitsBehind frame g.pbuf y then some (st, g)
        else
          let st := { st with queue := del st.queue y }
          if (frame y).coalesceOk = false then
            let st := st.free y
            aggLoop s ac fuel (st.nextLink s ac y) st g
          else
            let st := st.free y
            match g.take cfg y (slotLen (frame y) 0) with
            | (true, g) => some (st, g)
            | (false, g) => aggLoop s ac fuel (st.nextLink s ac y) st g

/-- The loop of lines 563–602: the first frame that can be written. -/
def pickFirst : ℕ → TxState → Option (Option ℕ × TxState)
  | 0, _ => none
  | fuel + 1, st =>
    match rtwDequeueXframe st.toXmitState with
    | none => some (none, st)
    | some (x, xst) =>
      let st := { st with toXmitState := xst }
      if (frame x).coalesceOk then some (some x, st) else pickFirst fuel (st.free x)

/-- A call that returned: the queues, the free buffers, and the aggregate if one was
    sent. -/
structure Completed where
  st : TxState
  freeXmitbuf : List ℕ
  agg : Option Agg

/-- Lines 552–558: the buffer of the caller, or the first free one. -/
def pickXmitbuf (pxmitbuf : Option ℕ) (freeXmitbuf : List ℕ) : Option (ℕ × List ℕ) :=
  match pxmitbuf, freeXmitbuf with
  | some buf, bufs => some (buf, bufs)
  | none, [] => none
  | none, buf :: bufs => some (buf, bufs)

/-- Lines 604–773, with first frame `x`. -/
def completeFrom (bufs : List ℕ) (x s : ℕ) (st : TxState) : Option Completed :=
  let ac := acIndex (st.attrib x).txPriority
  let g := Agg.init cfg x (slotLen (frame x) 1)
  match aggLoop cfg frame s ac (st.arrived + 2) (first st.chain (.staPending s ac)) st g with
  | none => none
  | some (st, g) =>
    let xst := st.toXmitState
    let st := if st.queue (.staPending s ac) = [] then
      { st with toXmitState := unlinkServq xst s ac } else st
    some ⟨st.free x, bufs, some g⟩

/-- Lines 560–773, with transmit buffer `buf`. No more frames are pending than have
    arrived. -/
def completeWith (buf : ℕ) (bufs : List ℕ) (st : TxState) : Option Completed :=
  match pickFirst frame (st.arrived + 1) st with
  | none => none
  | some (none, st) => some ⟨st, bufs ++ [buf], none⟩
  | some (some x, st) =>
    match (st.attrib x).psta with
    | none => none
    | some s => completeFrom cfg frame bufs x s st

/-- `rtl8812au_xmitframe_complete`; `none` is a fault. -/
def rtl8812auXmitframeComplete (pxmitbuf : Option ℕ) (freeXmitbuf : List ℕ) (st : TxState) :
    Option Completed :=
  match pickXmitbuf pxmitbuf freeXmitbuf with
  | none => some ⟨st, freeXmitbuf, none⟩
  | some (buf, bufs) => completeWith cfg frame buf bufs st

end call

/-! ## The loop leaves the queue -/

section loop

variable {cfg : AggConfig} {frame : ℕ → TxFrame} {st : TxState} {g : Agg} {s x y : ℕ} {ac : Ac}

/-- After the first frame the loop does not stop: `agg_num` is 2 and at most two
    descriptors are counted. -/
structure FirstOnly (cfg : AggConfig) (g : Agg) : Prop where
  aggNum : g.aggNum = 1
  descCount : g.descCount ≤ 1

theorem firstOnly_init (cfg : AggConfig) (x len : ℕ) : FirstOnly cfg (Agg.init cfg x len) := by
  refine ⟨rfl, ?_⟩
  show (if rnd8 len < cfg.bulkSize then 1 else 0) ≤ 1
  split_ifs <;> omega

theorem FirstOnly.take (h : FirstOnly cfg g) (y len : ℕ) : (g.take cfg y len).1 = false := by
  have h1 := h.aggNum
  have h2 := h.descCount
  have h3 := cfg.three_le
  rw [Agg.take]
  simp only [h1, maxTxAggPacketNumber]
  split_ifs with hnum hlt
  · exact absurd hnum (by decide)
  · simp only [beq_eq_false_iff_ne]
    omega
  · rfl

theorem take_slots (cfg : AggConfig) (g : Agg) (y len : ℕ) :
    (g.take cfg y len).2.slots = g.slots ++ [⟨y, g.pbuf, len, 0⟩] := by
  rw [Agg.take]
  dsimp only
  split_ifs <;> rfl

/-- The link of a freed frame leads to the head of the free queue. -/
theorem nextLink_free (hy : y ∉ st.freeXmitQueue) :
    (st.free y).nextLink s ac y = .head .freeXmitQueue := by
  have hmem : y ∈ (st.free y).freeXmitQueue := List.mem_append_right _ (List.mem_singleton.mpr rfl)
  rw [TxState.nextLink, if_pos hmem]
  exact next_of_last rfl hy

theorem aggLoop_foreign (fuel : ℕ) :
    aggLoop cfg frame s ac (fuel + 1) (.head .freeXmitQueue) st g =
      some (st, { g with visited := g.visited ++ [.head .freeXmitQueue] }) := by
  rw [aggLoop, if_neg (by simp)]

theorem aggLoop_nil (fuel : ℕ) :
    aggLoop cfg frame s ac (fuel + 1) (.head (.staPending s ac)) st g = some (st, g) := by
  rw [aggLoop, if_pos rfl]

theorem aggLoop_full (fuel : ℕ) (hfit : ¬FitsBehind frame g.pbuf y) :
    aggLoop cfg frame s ac (fuel + 1) (.node y) st g =
      some (st, { g with visited := g.visited ++ [.node y] }) := by
  rw [aggLoop, if_neg (by simp)]
  exact if_pos hfit

/-- A frame that fits is taken or dropped; either way the next node is the head of the
    free queue. -/
theorem aggLoop_fits (s : ℕ) (ac : Ac) (fuel : ℕ) (hg : FirstOnly cfg g) (hy : y ∉ st.freeXmitQueue)
    (hfit : FitsBehind frame g.pbuf y) :
    ∃ g', aggLoop cfg frame s ac (fuel + 2) (.node y) st g =
        some ({ st with queue := del st.queue y }.free y, g') ∧
      .head .freeXmitQueue ∈ g'.visited ∧
      ∀ sl ∈ g'.slots, sl ∈ g.slots ∨ sl.frame = y := by
  have hnext : ({ st with queue := del st.queue y }.free y).nextLink s ac y =
      .head .freeXmitQueue := nextLink_free hy
  rw [aggLoop, if_neg (by simp)]
  dsimp only
  rw [if_neg (not_not.mpr hfit), hnext]
  cases hok : (frame y).coalesceOk with
  | false =>
    rw [if_pos rfl, aggLoop_foreign]
    exact ⟨_, rfl, by simp, fun sl hsl => Or.inl hsl⟩
  | true =>
    rw [if_neg (by simp)]
    cases htake : Agg.take cfg { g with visited := g.visited ++ [.node y] } y
      (slotLen (frame y) 0) with
    | mk stop g' =>
      have hstop : stop = false := by
        have h : FirstOnly cfg { g with visited := g.visited ++ [.node y] } := ⟨hg.1, hg.2⟩
        have := h.take y (slotLen (frame y) 0)
        rw [htake] at this
        exact this
      have hslots := take_slots cfg { g with visited := g.visited ++ [.node y] } y
        (slotLen (frame y) 0)
      rw [htake] at hslots
      subst hstop
      dsimp only
      rw [aggLoop_foreign]
      refine ⟨_, rfl, by simp, fun sl hsl => ?_⟩
      rw [show g'.slots = _ from hslots] at hsl
      rcases List.mem_append.mp hsl with hsl | hsl
      · exact Or.inl hsl
      · exact Or.inr (List.mem_singleton.mp hsl ▸ rfl)

end loop

/-! ## What a call should do -/

section spec

variable (cfg : AggConfig) (frame : ℕ → TxFrame)

/-- What `rtw_xmitframe_coalesce` writes for a frame stays in its slot. -/
def WrittenInside (sl : Slot) : Prop :=
  ∀ r, rtwXmitframeCoalesce (frame sl.frame).attrib cfg.fragLen sl.start sl.pktOffset
      (frame sl.frame).skb = some r →
    ∀ sp ∈ wholes (frame sl.frame).attrib (micLen (frame sl.frame).attrib) r.frags,
      sl.start ≤ sp.start ∧ sp.start + sp.size ≤ sl.start + sl.len

/-- The aggregate `g` is the prefix `taken` of the service queue `(s, ac)`. -/
structure TakesPrefix (st st' : TxState) (g : Agg) (s : ℕ) (ac : Ac) (taken rest : List ℕ) :
    Prop where
  pending : st.queue (.staPending s ac) = taken ++ rest
  nonempty : taken ≠ []
  once : taken.Nodup
  fifo : g.slots.map (·.frame) = taken
  aligned : ∀ sl ∈ g.slots, sl.start % 8 = 0
  disjoint : g.slots.Pairwise fun a b => a.start + a.len ≤ b.start
  within : ∀ sl ∈ g.slots, sl.start + sl.len ≤ maxXmitbufSz
  written : ∀ sl ∈ g.slots, WrittenInside cfg frame sl
  left : st'.queue = Function.update st.queue (.staPending s ac) rest
  counted : g.aggNum = taken.length
  freed : st'.freeXmitQueue.Perm (st.freeXmitQueue ++ taken)
  visited : ∀ n ∈ g.visited, ∃ y ∈ st.queue (.staPending s ac), n = .node y

/-- A call takes a prefix of one service queue, or nothing. -/
def AggregationOk (st : TxState) (r : Completed) : Prop :=
  match r.agg with
  | none => r.st.queue = st.queue ∧ r.st.freeXmitQueue = st.freeXmitQueue
  | some g => ∃ s ac taken rest, TakesPrefix cfg frame st r.st g s ac taken rest

/-- The first frame of its service queue can be sent, as one MPDU, and no frame behind it
    fits into the buffer. -/
structure SentAlone (st : TxState) (x s : ℕ) (ac : Ac) (rest : List ℕ) : Prop where
  pending : st.queue (.staPending s ac) = x :: rest
  coalesced : (frame x).coalesceOk = true
  undivided : FitsFirst (frame x).attrib cfg.fragLen (frame x).skb
  small : slotLen (frame x) 1 ≤ maxXmitbufSz
  alone : ∀ y ∈ rest.head?, ¬FitsBehind frame (rnd8 (slotLen (frame x) 1)) y

/-- No buffer is free, no frame is pending, or the next frame is sent alone. -/
def OneAtMost (pxmitbuf : Option ℕ) (freeXmitbuf : List ℕ) (st : TxState) : Prop :=
  (pxmitbuf = none ∧ freeXmitbuf = []) ∨ rtwDequeueXframe st.toXmitState = none ∨
    ∃ x xst, rtwDequeueXframe st.toXmitState = some (x, xst) ∧
      ∃ s ac rest, SentAlone cfg frame st x s ac rest

end spec

/-- What every run of the queues keeps: a frame is in one list, the service queues are those
    of its receiver and priority, and a free frame is not pending. -/
structure PendingOk (st : TxState) : Prop where
  excl : Exclusive st.queue
  home : ∀ {s ac x}, x ∈ st.queue (.staPending s ac) →
    (st.attrib x).psta = some s ∧ acIndex (st.attrib x).txPriority = ac
  free : ∀ {s ac x}, x ∈ st.queue (.staPending s ac) → x ∉ st.freeXmitQueue

/-- The frames of the scheduler keep it. -/
theorem FrameInv.pendingOk {e : Adapter} {st : TxState} (h : FrameInv e st.toFrames)
    (hfree : ∀ x ∈ st.freeXmitQueue, x ∈ st.freed) : PendingOk st where
  excl := h.excl
  home hx := ⟨(h.owner hx).2.1, h.acIndex_eq hx⟩
  free hx hxf := nomatch h.excl.unique hx (h.freedHanded _ (hfree _ hxf))

/-! ## Slots -/

section slot

variable {cfg : AggConfig} {frame : ℕ → TxFrame} {sl : Slot}

theorem overhead_le (a : TxAttrib) (hwHdr : ℕ) {fs : List TxFragment} (h : 2 ≤ fs.length) :
    2 * (a.hdrlen.toNat + a.ivLen + a.swIcvLen) + hwHdr ≤ overhead a hwHdr fs := by
  have h1 : 2 * (a.hdrlen.toNat + a.ivLen + a.swIcvLen) ≤
      fs.length * (a.hdrlen.toNat + a.ivLen + a.swIcvLen) := Nat.mul_le_mul_right _ h
  have h2 : 1 * hwHdr ≤ (fs.length - 1) * hwHdr := Nat.mul_le_mul_right _ (by omega)
  rw [overhead]
  omega

/-- The slot of the length that `xmitframe_need_length` predicts holds a frame exactly if the
    frame is not divided. -/
theorem writtenInside_iff (hoff : sl.pktOffset ≤ 1)
    (hlen : sl.len = slotLen (frame sl.frame) sl.pktOffset) :
    WrittenInside cfg frame sl ↔
      FitsFirst (frame sl.frame).attrib cfg.fragLen (frame sl.frame).skb := by
  have hhw : hwHdrOffset sl.pktOffset = 40 + sl.pktOffset * 8 :=
    Nat.mod_eq_of_lt (by simp only [txdescSize, packetOffsetSz]; omega)
  have hpkt := (frame sl.frame).pktlen_eq
  simp only [slotLen, xmitframeNeedLength, Recv.snapSize, txdescSize, packetOffsetSz] at hlen
  constructor
  · intro h
    by_contra hfit
    obtain ⟨r, b, f, g, fs, hr, hd⟩ :=
      coalesce_divided sl.start sl.pktOffset (frame sl.frame).iceOk hfit
    obtain ⟨l, hl, -⟩ := hd.lastSize
    have hin : l.memStart + (l.size (frame sl.frame).attrib + micLen (frame sl.frame).attrib) ≤
        sl.start + sl.len := (h r hr _ (mem_wholes_last hl)).2
    have hend := hd.laidOut.le_end hl
    have hover := overhead_le (frame sl.frame).attrib (hwHdrOffset sl.pktOffset)
      (show 2 ≤ r.frags.length from hd.length_eq ▸ Nat.le_add_left 2 _)
    have hbytes := congrArg List.length hd.bytes_eq
    rw [List.length_append, rtwPutSnap_length, List.length_drop, Recv.snapSize] at hbytes
    rw [payloadLen] at hpkt
    omega
  · intro hfit r hr sp hsp
    obtain ⟨f, hm, hllc, hbody, hone⟩ := coalesce_one sl.start sl.pktOffset hfit
    obtain rfl := Option.some.inj (hone.symm.trans hr)
    obtain rfl := List.mem_singleton.mp hsp
    simp only [hm, hhw, TxFragment.size, hllc]
    omega

end slot

/-! ## The steps of a call -/

section steps

variable {cfg : AggConfig} {frame : ℕ → TxFrame} {st st' : TxState} {xst : XmitState} {g : Agg}
  {s x y : ℕ} {ac : Ac} {rest : List ℕ} {o : Option ℕ} {r : Completed}

/-- No frame becomes pending, and no attribute changes. -/
structure Fewer (st st' : TxState) : Prop where
  pending : ∀ {s ac x}, x ∈ st'.queue (.staPending s ac) → x ∈ st.queue (.staPending s ac)
  attrib : st'.attrib = st.attrib

theorem Fewer.trans {st'' : TxState} (h : Fewer st st') (h' : Fewer st' st'') : Fewer st st'' :=
  ⟨fun hx => h.pending (h'.pending hx), h'.attrib.trans h.attrib⟩

/-- Frame `x` leaves the queues. -/
structure Unlinked (st st' : TxState) (x : ℕ) : Prop where
  queue : st'.queue = del st.queue x
  attrib : st'.attrib = st.attrib

theorem Unlinked.fewer (h : Unlinked st st' x) : Fewer st st' where
  pending hx := by
    rw [h.queue] at hx
    exact List.mem_of_mem_erase hx
  attrib := h.attrib

theorem Unlinked.pendingOk (h : Unlinked st st' x) (hst : PendingOk st)
    (hfree : ∀ y ∈ st'.freeXmitQueue, y ∈ st.freeXmitQueue ∨ y = x) : PendingOk st' where
  excl := by
    rw [h.queue]
    exact hst.excl.del x
  home hx := by
    rw [h.attrib]
    exact hst.home (h.fewer.pending hx)
  free {s ac y} hy hf := by
    have hmem := h.fewer.pending hy
    rw [h.queue] at hy
    rcases hfree _ hf with hf | rfl
    · exact hst.free hmem hf
    · exact not_placed_del hst.excl ⟨_, hy⟩

theorem dequeue_unlinked (h : rtwDequeueXframe st.toXmitState = some (x, xst)) :
    Unlinked st { st with toXmitState := xst } x ∧
      ∃ s ac rest, st.queue (.staPending s ac) = x :: rest := by
  obtain ⟨s, ac, rest, -, hq, rfl⟩ := rtwDequeueXframe_some h
  refine ⟨?_, s, ac, rest, hq⟩
  split_ifs <;> exact ⟨rfl, rfl⟩

theorem free_unlinked (st : TxState) (x : ℕ) : Unlinked st (st.free x) x := ⟨rfl, rfl⟩

theorem free_pendingOk (hst : PendingOk st) (x : ℕ) : PendingOk (st.free x) :=
  (free_unlinked st x).pendingOk hst fun y hy => by
    rcases List.mem_append.mp hy with hy | hy
    · exact Or.inl hy
    · exact Or.inr (List.mem_singleton.mp hy)

/-- The frame picked was pending; nothing else happens than that frames leave the
    queues. -/
theorem pickFirst_fewer {fuel : ℕ} (hst : PendingOk st)
    (h : pickFirst frame fuel st = some (o, st')) :
    PendingOk st' ∧ Fewer st st' ∧ ∀ x ∈ o, ∃ s ac, x ∈ st.queue (.staPending s ac) := by
  induction fuel generalizing st with
  | zero => cases h
  | succ fuel ih =>
    rw [pickFirst] at h
    cases hd : rtwDequeueXframe st.toXmitState with
    | none =>
      rw [hd] at h
      obtain ⟨rfl, rfl⟩ := Prod.mk.inj (Option.some.inj h)
      exact ⟨hst, ⟨id, rfl⟩, by simp⟩
    | some p =>
      obtain ⟨x, xst⟩ := p
      obtain ⟨hun, s, ac, rest, hq⟩ := dequeue_unlinked hd
      have hst1 := hun.pendingOk hst fun y hy => Or.inl hy
      have hmem : x ∈ st.queue (.staPending s ac) := hq ▸ List.mem_cons_self
      rw [hd] at h
      dsimp only at h
      split_ifs at h with hok
      · obtain ⟨rfl, rfl⟩ := Prod.mk.inj (Option.some.inj h)
        refine ⟨hst1, hun.fewer, fun x' hx' => ?_⟩
        obtain rfl := Option.some.inj hx'
        exact ⟨s, ac, hmem⟩
      · have hfr := free_unlinked { st with toXmitState := xst } x
        obtain ⟨hok', hfew, hpick⟩ := ih (free_pendingOk hst1 x) h
        refine ⟨hok', (hun.fewer.trans hfr.fewer).trans hfew, fun x' hx' => ?_⟩
        obtain ⟨s', ac', hx'⟩ := hpick x' hx'
        exact ⟨s', ac', hun.fewer.pending (hfr.fewer.pending hx')⟩

/-- No frame behind `x` fits: the loop takes none, and `x` is freed. -/
theorem completeFrom_alone_eq (cfg : AggConfig) (bufs : List ℕ)
    (hac : acIndex (st.attrib x).txPriority = ac)
    (h : ∀ y ∈ (st.queue (.staPending s ac)).head?,
      ¬FitsBehind frame (rnd8 (slotLen (frame x) 1)) y) :
    ∃ g, completeFrom cfg frame bufs x s st =
        some ⟨(if st.queue (.staPending s ac) = [] then
          { st with toXmitState := unlinkServq st.toXmitState s ac } else st).free x, bufs,
          some g⟩ ∧
      g.slots = [⟨x, 0, slotLen (frame x) 1, 1⟩] ∧ g.aggNum = 1 ∧
      ∀ n ∈ g.visited, ∃ y ∈ st.queue (.staPending s ac), n = .node y := by
  have hloop : ∃ g, aggLoop cfg frame s ac (st.arrived + 2) (first st.chain (.staPending s ac)) st
      (Agg.init cfg x (slotLen (frame x) 1)) = some (st, g) ∧
      g.slots = [⟨x, 0, slotLen (frame x) 1, 1⟩] ∧ g.aggNum = 1 ∧
      ∀ n ∈ g.visited, ∃ y ∈ st.queue (.staPending s ac), n = .node y := by
    cases hq : st.queue (.staPending s ac) with
    | nil =>
      have hfirst : first st.chain (.staPending s ac) = .head (.staPending s ac) := congrArg _ hq
      rw [hfirst, aggLoop_nil]
      exact ⟨_, rfl, by simp, by simp, by simp⟩
    | cons y ys =>
      have hfirst : first st.chain (.staPending s ac) = .node y := congrArg _ hq
      have hfit : ¬FitsBehind frame (Agg.init cfg x (slotLen (frame x) 1)).pbuf y := by
        rw [Agg.init_pbuf]
        exact h y (by rw [hq]; rfl)
      rw [hfirst, aggLoop_full _ hfit]
      exact ⟨_, rfl, by simp, by simp, by simp⟩
  obtain ⟨g, hg, hslots, hnum, hvis⟩ := hloop
  subst hac
  rw [completeFrom]
  dsimp only
  rw [hg]
  exact ⟨g, rfl, hslots, hnum, hvis⟩

/-- No frame behind `x` fits: `x` is sent alone. -/
theorem completeFrom_alone (cfg : AggConfig) (bufs : List ℕ)
    (hac : acIndex (st.attrib x).txPriority = ac)
    (h : ∀ y ∈ (st.queue (.staPending s ac)).head?,
      ¬FitsBehind frame (rnd8 (slotLen (frame x) 1)) y) :
    ∃ r g, completeFrom cfg frame bufs x s st = some r ∧ r.agg = some g ∧
      Unlinked st r.st x ∧ r.st.freeXmitQueue = st.freeXmitQueue ++ [x] ∧
      g.slots = [⟨x, 0, slotLen (frame x) 1, 1⟩] ∧ g.aggNum = 1 ∧
      ∀ n ∈ g.visited, ∃ y ∈ st.queue (.staPending s ac), n = .node y := by
  obtain ⟨g, hr, hslots, hnum, hvis⟩ := completeFrom_alone_eq cfg bufs hac h
  refine ⟨_, g, hr, rfl, ?_, ?_, hslots, hnum, hvis⟩
  · dsimp only
    split_ifs <;> exact ⟨rfl, rfl⟩
  · dsimp only
    split_ifs <;> rfl

/-- A frame behind `x` fits: the loop leaves the queue. -/
theorem completeFrom_more (cfg : AggConfig) (bufs : List ℕ) (hst : PendingOk st)
    (hac : acIndex (st.attrib x).txPriority = ac)
    (hy : y ∈ (st.queue (.staPending s ac)).head?)
    (hfit : FitsBehind frame (rnd8 (slotLen (frame x) 1)) y) :
    ∃ r g, completeFrom cfg frame bufs x s st = some r ∧ r.agg = some g ∧
      .head .freeXmitQueue ∈ g.visited ∧ (∀ sl ∈ g.slots, sl.frame = x ∨ sl.frame = y) ∧
      Fewer st r.st := by
  obtain ⟨ys, hq⟩ : ∃ ys, st.queue (.staPending s ac) = y :: ys := by
    cases hq : st.queue (.staPending s ac) with
    | nil => rw [hq] at hy; cases hy
    | cons z zs => rw [hq] at hy; exact ⟨zs, by rw [Option.some.inj hy]⟩
  have hfirst : first st.chain (.staPending s ac) = .node y := congrArg _ hq
  have hfree : y ∉ st.freeXmitQueue := hst.free (hq ▸ List.mem_cons_self)
  have hfit' : FitsBehind frame (Agg.init cfg x (slotLen (frame x) 1)).pbuf y := by
    rw [Agg.init_pbuf]
    exact hfit
  obtain ⟨g, hg, hvis, hslots⟩ := aggLoop_fits s ac st.arrived
    (firstOnly_init cfg x (slotLen (frame x) 1)) hfree hfit'
  have hdel : Unlinked st { st with queue := del st.queue y } y := ⟨rfl, rfl⟩
  have hfew : Fewer st ({ st with queue := del st.queue y }.free y) :=
    hdel.fewer.trans (free_unlinked _ y).fewer
  subst hac
  rw [completeFrom]
  dsimp only
  rw [hfirst, hg]
  refine ⟨_, g, rfl, rfl, hvis, fun sl hsl => ?_, ?_⟩
  · rcases hslots sl hsl with hsl | hsl
    · rw [Agg.init_slots, List.mem_singleton] at hsl
      exact Or.inl (hsl ▸ rfl)
    · exact Or.inr hsl
  · refine hfew.trans ?_
    dsimp only
    split_ifs
    · exact Unlinked.fewer (x := x) ⟨rfl, rfl⟩
    · exact (free_unlinked _ x).fewer

/-- Every frame that a call sends was pending or is the one that was picked. -/
theorem completeFrom_slots (cfg : AggConfig) (frame : ℕ → TxFrame) (bufs : List ℕ) (s x : ℕ)
    (hst : PendingOk st) :
    ∃ r g, completeFrom cfg frame bufs x s st = some r ∧ r.agg = some g ∧ Fewer st r.st ∧
      ∀ sl ∈ g.slots, sl.frame = x ∨ ∃ ac, sl.frame ∈ st.queue (.staPending s ac) := by
  by_cases hfit : ∀ y ∈ (st.queue (.staPending s (acIndex (st.attrib x).txPriority))).head?,
      ¬FitsBehind frame (rnd8 (slotLen (frame x) 1)) y
  · obtain ⟨r, g, hr, hg, hun, -, hslots, -⟩ := completeFrom_alone cfg bufs rfl hfit
    refine ⟨r, g, hr, hg, hun.fewer, fun sl hsl => Or.inl ?_⟩
    rw [hslots, List.mem_singleton] at hsl
    rw [hsl]
  · obtain ⟨y, hy⟩ := not_forall.mp hfit
    obtain ⟨hy, hfit⟩ := Classical.not_imp.mp hy
    obtain ⟨r, g, hr, hg, -, hslots, hfew⟩ :=
      completeFrom_more cfg bufs hst rfl hy (not_not.mp hfit)
    refine ⟨r, g, hr, hg, hfew, fun sl hsl => (hslots sl hsl).imp_right fun hsy => ?_⟩
    exact ⟨_, hsy ▸ List.mem_of_mem_head? hy⟩

/-- A frame that was pending stays pending or is sent. -/
theorem TakesPrefix.pending_or_sent {s' : ℕ} {ac' : Ac} {taken : List ℕ}
    (h : TakesPrefix cfg frame st st' g s ac taken rest)
    (hx : x ∈ st.queue (.staPending s' ac')) :
    x ∈ st'.queue (.staPending s' ac') ∨ ∃ sl ∈ g.slots, sl.frame = x := by
  rw [h.left]
  by_cases heq : Place.staPending s' ac' = .staPending s ac
  · rw [heq, h.pending, List.mem_append] at hx
    rw [heq, Function.update_self]
    refine hx.symm.imp_right fun hx => ?_
    rw [← h.fifo] at hx
    exact List.mem_map.mp hx
  · rw [Function.update_of_ne heq]
    exact Or.inl hx

/-- A frame that cannot be written is dropped: the call takes no prefix. -/
theorem dropped_not_ok (hst : PendingOk st) {buf : ℕ} {bufs : List ℕ}
    (hd : rtwDequeueXframe st.toXmitState = some (x, xst)) (hok : (frame x).coalesceOk = false)
    (hr : completeWith cfg frame buf bufs st = some r) : ¬AggregationOk cfg frame st r := by
  obtain ⟨hun, s, ac, rest, hq⟩ := dequeue_unlinked hd
  have hmem : x ∈ st.queue (.staPending s ac) := hq ▸ List.mem_cons_self
  have hfr := free_unlinked { st with toXmitState := xst } x
  have hst1 := free_pendingOk (hun.pendingOk hst fun y hy => Or.inl hy) x
  have hgone : ∀ s ac, x ∉ ({ st with toXmitState := xst }.free x).queue (.staPending s ac) := by
    intro s ac hx
    rw [hfr.queue] at hx
    exact not_placed_del (hun.pendingOk hst fun y hy => Or.inl hy).excl ⟨_, hx⟩
  rw [completeWith, pickFirst, hd] at hr
  dsimp only at hr
  rw [if_neg (by simp [hok])] at hr
  cases hpick : pickFirst frame st.arrived ({ st with toXmitState := xst }.free x) with
  | none => rw [hpick] at hr; cases hr
  | some p =>
    obtain ⟨o, st'⟩ := p
    obtain ⟨hst', hfew, hin⟩ := pickFirst_fewer hst1 hpick
    rw [hpick] at hr
    cases o with
    | none =>
      obtain rfl := Option.some.inj hr
      rintro ⟨hqueue, -⟩
      refine hgone s ac (hfew.pending ?_)
      rw [show st'.queue = st.queue from hqueue]
      exact hmem
    | some z =>
      dsimp only at hr
      cases hs : (st'.attrib z).psta with
      | none => rw [hs] at hr; cases hr
      | some s' =>
        rw [hs] at hr
        obtain ⟨r', g, hr', hg, hfew', hslots⟩ := completeFrom_slots cfg frame bufs s' z hst'
        obtain rfl := Option.some.inj (hr'.symm.trans hr)
        rw [AggregationOk, hg]
        rintro ⟨s1, ac1, taken, left, htake⟩
        rcases htake.pending_or_sent hmem with hx | ⟨sl, hsl, hx⟩
        · exact hgone s ac (hfew.pending (hfew'.pending hx))
        · obtain ⟨s2, ac2, hz⟩ := hin z rfl
          rcases hslots sl hsl with hslz | ⟨ac', hmem'⟩
          · obtain rfl : z = x := hslz.symm.trans hx
            exact hgone s2 ac2 hz
          · exact hgone s' ac' (hfew.pending (hx ▸ hmem'))

/-- A frame that is sent alone is a prefix of its queue. -/
theorem alone_takesPrefix (hst : PendingOk st) (h : SentAlone cfg frame st x s ac rest)
    (hun : Unlinked st st' x) (hfree : st'.freeXmitQueue = st.freeXmitQueue ++ [x])
    (hslots : g.slots = [⟨x, 0, slotLen (frame x) 1, 1⟩]) (hnum : g.aggNum = 1)
    (hvis : ∀ n ∈ g.visited, ∃ y ∈ rest, n = .node y) :
    TakesPrefix cfg frame st st' g s ac [x] rest where
  pending := h.pending
  nonempty := List.cons_ne_nil _ _
  once := List.nodup_singleton x
  fifo := by rw [hslots]; rfl
  aligned := by simp [hslots]
  disjoint := by rw [hslots]; exact List.pairwise_singleton _ _
  within := by
    rw [hslots, List.forall_mem_singleton, Nat.zero_add]
    exact h.small
  written := by
    rw [hslots, List.forall_mem_singleton]
    exact (writtenInside_iff (Nat.le_refl 1) rfl).mpr h.undivided
  left := by
    rw [hun.queue]
    funext p
    by_cases hp : p = .staPending s ac
    · rw [hp, Function.update_self, del, h.pending, List.erase_cons_head]
    · rw [Function.update_of_ne hp]
      exact del_eq_self fun hx => hp (hst.excl.unique hx (h.pending ▸ List.mem_cons_self))
  counted := hnum
  freed := by rw [hfree]
  visited n hn := by
    obtain ⟨y, hy, rfl⟩ := hvis n hn
    exact ⟨y, h.pending ▸ List.mem_cons_of_mem x hy, rfl⟩

/-- A frame that was sent alone stands in its slot. -/
theorem TakesPrefix.sentAlone {taken left : List ℕ} {s' : ℕ} {ac' : Ac}
    (h : TakesPrefix cfg frame st st' g s' ac' taken left)
    (hslots : g.slots = [⟨x, 0, slotLen (frame x) 1, 1⟩])
    (hpending : st.queue (.staPending s ac) = x :: rest) (hok : (frame x).coalesceOk)
    (halone : ∀ y ∈ rest.head?, ¬FitsBehind frame (rnd8 (slotLen (frame x) 1)) y) :
    SentAlone cfg frame st x s ac rest := by
  have hwithin := h.within
  have hwritten := h.written
  rw [hslots, List.forall_mem_singleton] at hwithin hwritten
  rw [writtenInside_iff (Nat.le_refl 1) rfl] at hwritten
  exact ⟨hpending, hok, hwritten, Nat.zero_add (slotLen (frame x) 1) ▸ hwithin, halone⟩

theorem Unlinked.again {st'' : TxState} (hst : PendingOk st) (h : Unlinked st st' x)
    (h' : Unlinked st' st'' x) : Unlinked st st'' x where
  queue := by
    rw [h'.queue, h.queue]
    exact del_of_not_placed (not_placed_del hst.excl)
  attrib := h'.attrib.trans h.attrib

/-- What a call makes of the first frame of its queue. -/
theorem completeWith_iff (buf : ℕ) (bufs : List ℕ) (hst : PendingOk st) :
    (∃ r, completeWith cfg frame buf bufs st = some r ∧ AggregationOk cfg frame st r) ↔
      rtwDequeueXframe st.toXmitState = none ∨
        ∃ x xst, rtwDequeueXframe st.toXmitState = some (x, xst) ∧
          ∃ s ac rest, SentAlone cfg frame st x s ac rest := by
  cases hd : rtwDequeueXframe st.toXmitState with
  | none =>
    refine iff_of_true ⟨⟨st, bufs ++ [buf], none⟩, ?_, rfl, rfl⟩ (Or.inl rfl)
    rw [completeWith, pickFirst, hd]
  | some p =>
    obtain ⟨x, xst⟩ := p
    obtain ⟨hun, s, ac, rest, hq⟩ := dequeue_unlinked hd
    have hst1 := hun.pendingOk hst fun y hy => Or.inl hy
    obtain ⟨hpsta, hac⟩ := hst.home (hq ▸ List.mem_cons_self : x ∈ st.queue (.staPending s ac))
    have hrest : ({ st with toXmitState := xst } : TxState).queue (.staPending s ac) = rest := by
      rw [hun.queue, del, hq, List.erase_cons_head]
    simp only [reduceCtorEq, false_or, Option.some.injEq, Prod.mk.injEq]
    by_cases hok : (frame x).coalesceOk
    · have hcall : completeWith cfg frame buf bufs st =
          completeFrom cfg frame bufs x s { st with toXmitState := xst } := by
        rw [completeWith, pickFirst, hd]
        dsimp only
        rw [if_pos hok]
        dsimp only
        rw [show xst.attrib = st.attrib from hun.attrib, hpsta]
      have hac' : acIndex (({ st with toXmitState := xst } : TxState).attrib x).txPriority = ac := by
        rw [hun.attrib, hac]
      have hsame : ∀ {s' ac' rest'}, SentAlone cfg frame st x s' ac' rest' → rest' = rest := by
        intro s' ac' rest' h
        have hplace : Place.staPending s' ac' = .staPending s ac :=
          hst.excl.unique (x := x) (h.pending ▸ List.mem_cons_self) (hq ▸ List.mem_cons_self)
        have hpend := h.pending
        rw [hplace, hq] at hpend
        exact (List.cons.inj hpend).2.symm
      rw [hcall]
      by_cases hfit : ∀ y ∈ rest.head?, ¬FitsBehind frame (rnd8 (slotLen (frame x) 1)) y
      · obtain ⟨r, g, hr, hg, hun', hfree, hslots, hnum, hvis⟩ :=
          completeFrom_alone cfg bufs hac' (hrest.symm ▸ hfit)
        constructor
        · rintro ⟨r', hr', hagg⟩
          obtain rfl := Option.some.inj (hr.symm.trans hr')
          rw [AggregationOk, hg] at hagg
          obtain ⟨s', ac', taken, left, htake⟩ := hagg
          exact ⟨x, xst, ⟨rfl, rfl⟩, s, ac, rest, htake.sentAlone hslots hq hok hfit⟩
        · rintro ⟨x', xst', ⟨rfl, rfl⟩, s', ac', rest', h⟩
          refine ⟨r, hr, ?_⟩
          obtain rfl := hsame h
          rw [AggregationOk, hg]
          have hun'' := hun.again hst hun'
          refine ⟨s', ac', [x], rest', alone_takesPrefix hst h hun'' hfree hslots hnum ?_⟩
          exact hrest ▸ hvis
      · refine iff_of_false ?_ ?_
        · obtain ⟨y, hy⟩ := not_forall.mp hfit
          obtain ⟨hy, hfit⟩ := Classical.not_imp.mp hy
          obtain ⟨r, g, hr, hg, hvis, -⟩ :=
            completeFrom_more cfg bufs hst1 hac' (hrest.symm ▸ hy) (not_not.mp hfit)
          rintro ⟨r', hr', hagg⟩
          obtain rfl := Option.some.inj (hr.symm.trans hr')
          rw [AggregationOk, hg] at hagg
          obtain ⟨s', ac', taken, left, htake⟩ := hagg
          obtain ⟨z, -, hz⟩ := htake.visited _ hvis
          cases hz
        · rintro ⟨x', xst', ⟨rfl, rfl⟩, s', ac', rest', h⟩
          exact hfit (hsame h ▸ h.alone)
    · refine iff_of_false ?_ ?_
      · rintro ⟨r, hr, hagg⟩
        exact dropped_not_ok hst hd (Bool.of_not_eq_true hok) hr hagg
      · rintro ⟨x', xst', ⟨rfl, rfl⟩, s', ac', rest', h⟩
        exact hok h.coalesced

end steps

/-! ## When a call takes a prefix -/

/-- For every state of the queues and the buffers, a call takes a prefix of one service queue
    in disjoint aligned slots and meets only frames of that queue exactly if it takes at most
    one frame, undivided and no larger than the buffer. -/
theorem aggregation_ok_iff (cfg : AggConfig) (frame : ℕ → TxFrame) (pxmitbuf : Option ℕ)
    (freeXmitbuf : List ℕ) (st : TxState) (hst : PendingOk st) :
    (∃ r, rtl8812auXmitframeComplete cfg frame pxmitbuf freeXmitbuf st = some r ∧
      AggregationOk cfg frame st r) ↔ OneAtMost cfg frame pxmitbuf freeXmitbuf st := by
  cases pxmitbuf with
  | some buf =>
    rw [OneAtMost, or_iff_right (by simp)]
    exact completeWith_iff buf freeXmitbuf hst
  | none =>
    cases freeXmitbuf with
    | nil => exact iff_of_true ⟨_, rfl, rfl, rfl⟩ (Or.inl ⟨rfl, rfl⟩)
    | cons buf bufs =>
      rw [OneAtMost, or_iff_right (by simp)]
      exact completeWith_iff buf bufs hst

/-- A packet of 46 bytes behind its Ethernet header. -/
def shortPacket : Skb := ⟨List.replicate 60 0, by decide, by decide⟩

/-- It is sent without encryption. -/
def shortFrame : TxFrame where
  attrib := updateAttrib ⟨false, true⟩ .noPrivacy 24 (Vector.replicate 6 2) 0x0800 shortPacket
  skb := shortPacket
  iceOk := ⟨by decide, by decide⟩
  pktlen_eq := rfl

/-- A threshold of 2346 on a high-speed bus. -/
def highSpeed : AggConfig := ⟨2346, 512, 6, by decide⟩

/-- Two frames of best effort for station 1. -/
def twoPending : TxState where
  attrib := fun _ => ⟨Vector.replicate 6 2, some 1, 0⟩
  queue := fun p => if p = .staPending 1 .be then [0, 1] else []
  freeXmitframeCnt := 254
  arrived := 2
  accepted := [0, 1]
  staQueue := fun ac => if ac = .be then [1] else []

theorem twoPending_pendingOk : PendingOk twoPending where
  excl := by
    refine ⟨fun p => ?_, fun {p q x} hp hq => ?_⟩
    · show (if p = .staPending 1 .be then [0, 1] else []).Nodup
      split_ifs <;> decide
    · have hmem : ∀ p, x ∈ twoPending.queue p → p = .staPending 1 .be := by
        intro p hp
        by_contra hne
        exact absurd (show x ∈ (if p = .staPending 1 .be then [0, 1] else []) from hp)
          (by rw [if_neg hne]; exact List.not_mem_nil)
      rw [hmem p hp, hmem q hq]
  home {s ac x} hx := by
    have hplace : Place.staPending s ac = .staPending 1 .be := by
      by_contra hne
      exact absurd (show x ∈ (if Place.staPending s ac = .staPending 1 .be then [0, 1] else [])
        from hx) (by rw [if_neg hne]; exact List.not_mem_nil)
    obtain ⟨rfl, rfl⟩ := Place.staPending.inj hplace
    exact ⟨rfl, rfl⟩
  free _ := List.not_mem_nil

theorem aggregation_ok_iff_twoPending :
    (∃ r, rtl8812auXmitframeComplete highSpeed (fun _ => shortFrame) (some 0) [] twoPending = some r ∧
      AggregationOk highSpeed (fun _ => shortFrame) twoPending r) ↔
        OneAtMost highSpeed (fun _ => shortFrame) (some 0) [] twoPending :=
  aggregation_ok_iff highSpeed (fun _ => shortFrame) (some 0) [] twoPending twoPending_pendingOk

/-- With two pending frames the loop meets the head of the free queue. -/
theorem aggregation_leaves_queue :
    ∃ r g, rtl8812auXmitframeComplete highSpeed (fun _ => shortFrame) (some 0) [] twoPending =
        some r ∧ r.agg = some g ∧
      g.visited = [.node 1, .head .freeXmitQueue] ∧
      ¬AggregationOk highSpeed (fun _ => shortFrame) twoPending r := by
  refine ⟨_, _, rfl, rfl, rfl, ?_⟩
  rintro ⟨s, ac, taken, rest, h⟩
  obtain ⟨y, -, hy⟩ := h.visited (.head .freeXmitQueue) (by decide)
  cases hy

end Rtl8821au.Xmit
