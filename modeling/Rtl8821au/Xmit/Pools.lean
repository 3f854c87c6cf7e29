import Rtl8821au.Lib.FreeQueue
import Rtl8821au.Xmit.Aggregate

/-!
# The pools of transmit frames and buffers

Data frames come from `free_xmit_queue` and their buffers from `free_xmitbuf_queue`;
management frames have pools of their own. A frame goes back as soon as its buffer is
written, the buffer when the write is completed (`_rtl_tx_complete`). Several exits of the
builders and `dump_mgntframe` of a stopped driver give nothing back; a packet in several
fragments writes one buffer several times; the loop of the aggregation leaves its queue.

* `xmitEvent`: one send, one completion or one change of the flags.
* `poolInv_step`: the pools are conserved by every event that meets `PoolOk`.
* `PoolInv.completeWith_isSome`: the tasklet always returns.
* `pools_conserved_of_run`: so they are along every such run.
-/

namespace Rtl8821au.Xmit

open Places Run

/-! ## Data -/

/-- `NR_XMITBUFF` and `NR_XMIT_EXTBUFF` (`rtw_xmit.h`, lines 28–35). There are as many
    management frames as buffers for them. -/
def nrXmitbuff : ℕ := 4

def nrXmitExtbuff : ℕ := 32

/-- `MAX_IE_SZ`. -/
def maxIeSz : ℕ := 768

/-- `struct xmit_buf` of either pool: `XMITBUF_DATA` and `XMITBUF_MGNT`. -/
inductive XmitBuf where
  | data (i : ℕ)
  | mgnt (i : ℕ)
  deriving DecidableEq, Repr

/-- `struct xmit_frame` of either pool, by `ext_tag`. -/
inductive XmitFrame where
  | data (x : ℕ)
  | ext (x : ℕ)
  deriving DecidableEq, Repr

/-- The pools, the queues and the flags of the device. `frame` is what the data frames
    hold, `inFlight` are the buffers whose URB is active. Frames are named by their index
    in the pool; `arrived` only bounds the loops over the pending ones. -/
structure PoolState extends TxState where
  frame : ℕ → TxFrame
  freeXframeExt : FreeQueue ℕ
  freeXmitbuf : FreeQueue ℕ
  freeXmitExtbuf : FreeQueue ℕ
  inFlight : List XmitBuf := []
  driverStopped : Bool := false
  surpriseRemoved : Bool := false
  pnpBstopTrx : Bool := false
  writePortCancel : Bool := false

/-- The result of `usb_submit_urb`. -/
inductive Submit where
  | ok
  | noDevice
  | error
  deriving DecidableEq, Repr

/-- `purb->status` of a completed write: zero or an error that changes nothing,
    `-ESHUTDOWN`, or another error. -/
inductive UrbStatus where
  | done
  | shutdown
  | other
  deriving DecidableEq, Repr

/-- What `issue_beacon` reads of the network: `ssidIeLen` is the length of the SSID element
    in its elements. -/
structure BeaconNetwork where
  apState : Bool
  ieLength : ℕ
  hiddenSsidMode : ℕ := 0
  ssidIeLen : ℕ := 0
  ssidLength : ℕ := 0
  rateLen : ℕ := 8
  deriving DecidableEq, Repr

/-- The functions `issue_*` by what decides whether the frame is sent. -/
inductive MgtSend where
  | beacon (network : BeaconNetwork)
  | probersp (ieLength : ℕ)
  | probereq
  | auth
  | asocrsp (pktType : ℕ)
  | assocreq (bssrateLen : ℕ)
  | nulldata
  | qosNulldata
  | deauth
  | actionSpctChSwitch
  | actionBA
  | actionBSSCoexistPacket
  deriving DecidableEq, Repr

/-- How a builder ends: it returns, it releases frame and buffer, or it calls
    `dump_mgntframe`. -/
inductive Built where
  | abandoned
  | released
  | dumped
  deriving DecidableEq, Repr

/-! ## Model of the C code -/

/-- `pktlen` in `issue_beacon` (`rtw_mlme_ext.c`, lines 2521–2660), with `len_diff` of
    `update_hidden_ssid`. -/
def BeaconNetwork.pktlen (n : BeaconNetwork) : ℕ :=
  if n.apState then
    24 + n.ieLength - if n.hiddenSsidMode = 1 then n.ssidIeLen else 0
  else
    24 + 8 + 2 + 2 + (2 + n.ssidLength) + (2 + min n.rateLen 8) + 3 + 4 + 3 +
      if n.rateLen > 8 then 2 + (n.rateLen - 8) else 0

/-- The builders between `alloc_mgtxmitframe` and their end: `issue_beacon` (line 2670),
    `issue_probersp` (line 2748), `issue_asocrsp` (line 3217) and `issue_assocreq` (lines
    3474–3478) have an exit. -/
def MgtSend.built : MgtSend → Built
  | .beacon n => if n.pktlen + txdescSize > 512 then .abandoned else .dumped
  | .probersp ieLength => if ieLength > maxIeSz then .abandoned else .dumped
  | .asocrsp pktType => if pktType = 0x10 ∨ pktType = 0x30 then .dumped else .abandoned
  | .assocreq bssrateLen => if bssrateLen = 0 then .released else .dumped
  | .probereq | .auth | .nulldata | .qosNulldata | .deauth | .actionSpctChSwitch | .actionBA
  | .actionBSSCoexistPacket => .dumped

namespace PoolState

/-- `free_xmit_queue` with `free_xmitframe_cnt`. -/
def freeXmit (st : PoolState) : FreeQueue ℕ := ⟨st.freeXmitQueue, st.freeXmitframeCnt⟩

/-- `rtw_alloc_xmitframe` (`rtw_xmit.c`, lines 1766–1798). -/
def allocXmitframe (st : PoolState) : Option (ℕ × PoolState) :=
  st.freeXmit.alloc.map fun (x, q) =>
    (x, { st with freeXmitQueue := q.queue, freeXmitframeCnt := q.cnt })

/-- `rtw_free_xmitframe` (lines 1855–1905). -/
def freeXmitframe (st : PoolState) : XmitFrame → PoolState
  | .data x => { st with toTxState := st.toTxState.free x }
  | .ext x => { st with freeXframeExt := st.freeXframeExt.free x }

/-- `rtw_free_xmitbuf` (lines 1702–1736). -/
def rtwFreeXmitbuf (st : PoolState) : XmitBuf → PoolState
  | .data i => { st with freeXmitbuf := st.freeXmitbuf.free i }
  | .mgnt i => { st with freeXmitExtbuf := st.freeXmitExtbuf.free i }

/-- `_rtlw_usb_transmit` (`usb.c`, lines 428–537). An URB that is active is refused. -/
def usbTransmit (submit : Submit) (st : PoolState) (b : XmitBuf) : PoolState :=
  if st.driverStopped ∨ st.surpriseRemoved ∨ st.pnpBstopTrx then st.rtwFreeXmitbuf b
  else if b ∈ st.inFlight then st.rtwFreeXmitbuf b
  else
    match submit with
    | .ok => { st with inFlight := st.inFlight ++ [b] }
    | .noDevice => { st with driverStopped := true }.rtwFreeXmitbuf b
    | .error => st.rtwFreeXmitbuf b

/-- `_rtl_tx_complete` (lines 338–424). -/
def txComplete (st : PoolState) (b : XmitBuf) (status : UrbStatus) : PoolState :=
  if b ∈ st.inFlight then
    let st := { st with inFlight := st.inFlight.erase b }
    let st :=
      if st.surpriseRemoved ∨ st.driverStopped ∨ st.writePortCancel then st
      else
        match status with
        | .done => st
        | .shutdown => { st with driverStopped := true }
        | .other => { st with surpriseRemoved := true }
    st.rtwFreeXmitbuf b
  else st

/-- `rtw_dump_xframe` (`trx.c`, lines 434–499): one write for each fragment. -/
def rtwDumpXframe (nrFrags : ℕ) (submit : ℕ → Submit) (st : PoolState) (x : XmitFrame)
    (b : XmitBuf) : PoolState :=
  ((List.range nrFrags).foldl (fun st t => st.usbTransmit (submit t) b) st).freeXmitframe x

/-! ### Management frames -/

/-- `_alloc_mgtxmitframe` (`rtw_mlme_ext.c`, lines 2334–2364). -/
def allocMgtxmitframe (st : PoolState) : PoolState × Option (ℕ × ℕ) :=
  match st.freeXframeExt.alloc with
  | none => (st, none)
  | some (x, q) =>
    let st := { st with freeXframeExt := q }
    match st.freeXmitExtbuf.alloc with
    | none => (st.freeXmitframe (.ext x), none)
    | some (b, q) => ({ st with freeXmitExtbuf := q }, some (x, b))

/-- `dump_mgntframe` (lines 2440–2447). `dump_mgntframe_and_wait` has the same test. -/
def dumpMgntframe (submit : Submit) (st : PoolState) (x b : ℕ) : PoolState :=
  if st.surpriseRemoved ∨ st.driverStopped then st
  else st.rtwDumpXframe 1 (fun _ => submit) (.ext x) (.mgnt b)

/-- A function `issue_*` from the allocation on. -/
def issue (m : MgtSend) (submit : Submit) (st : PoolState) : PoolState :=
  match st.allocMgtxmitframe with
  | (st, none) => st
  | (st, some (x, b)) =>
    match m.built with
    | .abandoned => st
    | .released => (st.rtwFreeXmitbuf (.mgnt b)).freeXmitframe (.ext x)
    | .dumped => st.dumpMgntframe submit x b

/-! ### Data frames -/

/-- `rtw_txframes_sta_ac_pending` (`rtw_xmit.c`, lines 1223–1278). -/
def txframesStaAcPending (e : Adapter) (st : PoolState) (x : ℕ) : Bool :=
  let attrib := st.attrib x
  match e.rtwGetStainfo attrib.ra with
  | none => false
  | some s =>
    attrib.psta = some s && (e.sta s).fwLinked &&
      st.queue (.staPending s (acIndex attrib.txPriority)) ≠ []

/-- `rtw_xmitframe_enqueue`, and the frame released where it fails (`trx.c`, lines
    830–847). -/
def xmitframeEnqueue (e : Adapter) (st : PoolState) (x : ℕ) : PoolState :=
  match rtwXmitClassifier e st.toXmitState x with
  | some q => { st with toXmitState := q }
  | none => st.freeXmitframe (.data x)

/-- `nr_frags` after `rtw_xmitframe_coalesce` with `pkt_offset` one. -/
def nrFrags (cfg : AggConfig) (f : TxFrame) : ℕ :=
  (rtwXmitframeCoalesce f.attrib cfg.fragLen 0 1 f.skb).elim 0 (·.nrFrags)

/-- `pre_xmitframe` with `xmitframe_direct` (lines 776–849). `busy` is
    `_FW_UNDER_SURVEY|_FW_UNDER_LINKING`. -/
def preXmitframe (cfg : AggConfig) (e : Adapter) (busy : Bool) (submit : ℕ → Submit)
    (st : PoolState) (x : ℕ) : PoolState :=
  if st.txframesStaAcPending e x ∨ busy then st.xmitframeEnqueue e x
  else
    match st.freeXmitbuf.alloc with
    | none => st.xmitframeEnqueue e x
    | some (b, q) =>
      let st := { st with freeXmitbuf := q }
      if (st.frame x).coalesceOk then
        st.rtwDumpXframe (nrFrags cfg (st.frame x)) submit (.data x) (.data b)
      else (st.rtwFreeXmitbuf (.data b)).freeXmitframe (.data x)

/-- The frame gets the attributes of its packet. -/
def fill (st : PoolState) (x : ℕ) (attrib : PktAttrib) (f : TxFrame) : PoolState :=
  { st with
    attrib := Function.update st.attrib x attrib
    flags := Function.update st.flags x { txQsel := attrib.txPriority }
    frame := Function.update st.frame x f }

/-- `rtw_xmit` (`rtw_xmit.c`, lines 2180–2229); without attributes `update_attrib` has
    failed. -/
def rtwXmit (cfg : AggConfig) (e : Adapter) (attrib : Option PktAttrib) (f : TxFrame)
    (busy : Bool) (submit : ℕ → Submit) (st : PoolState) : PoolState :=
  match st.allocXmitframe with
  | none => st
  | some (x, st) =>
    match attrib with
    | none => st.freeXmitframe (.data x)
    | some attrib =>
      let st := st.fill x attrib f
      match xmitframeEnqueueForSleepingSta e st.toXmitState x with
      | (true, q) => { st with toXmitState := q }
      | (false, q) => { st with toXmitState := q }.preXmitframe cfg e busy submit x

/-- `rtl8812au_xmitframe_complete` without a buffer (`trx.c`, lines 520–773). -/
def xmitframeComplete (cfg : AggConfig) (submit : Submit) (st : PoolState) : PoolState :=
  match st.freeXmitbuf.alloc with
  | none => st
  | some (b, q) =>
    match completeWith cfg st.frame b q.queue st.toTxState with
    | none => st
    | some ⟨tx, _, none⟩ =>
      { st with toTxState := tx, freeXmitbuf := q }.rtwFreeXmitbuf (.data b)
    | some ⟨tx, _, some _⟩ =>
      { st with toTxState := tx, freeXmitbuf := q }.usbTransmit submit (.data b)

/-- One turn of `rtl8812au_xmit_tasklet` (`usb_ops_linux.c`, lines 165–189). -/
def xmitTasklet (cfg : AggConfig) (underSurvey : Bool) (submit : Submit) (st : PoolState) :
    PoolState :=
  if underSurvey ∨ st.driverStopped ∨ st.surpriseRemoved ∨ st.writePortCancel then st
  else st.xmitframeComplete cfg submit

/-! ### Events -/

/-- `_rtw_init_xmit_priv` (`rtw_xmit.c`, lines 153–386). -/
def rtwInitXmitPriv (frame : ℕ → TxFrame) : PoolState where
  attrib := fun _ => ⟨Vector.replicate 6 0, none, 0⟩
  freeXmitframeCnt := nrXmitframe
  arrived := nrXmitframe
  freeXmitQueue := List.range nrXmitframe
  frame := frame
  freeXframeExt := ⟨List.range nrXmitExtbuff, nrXmitExtbuff⟩
  freeXmitbuf := ⟨List.range nrXmitbuff, nrXmitbuff⟩
  freeXmitExtbuf := ⟨List.range nrXmitExtbuff, nrXmitExtbuff⟩

end PoolState

/-- A send, a turn of the tasklet, a completed write; stations fall asleep or wake up; the
    device is stopped, removed or started. -/
inductive XmitEvent where
  | issue (m : MgtSend) (submit : Submit)
  | data (e : Adapter) (attrib : Option PktAttrib) (f : TxFrame) (busy : Bool)
      (submit : ℕ → Submit)
  | tasklet (underSurvey : Bool) (submit : Submit)
  | complete (b : XmitBuf) (status : UrbStatus)
  | power (sleep : ℕ → StaSleep) (staDzBitmap : BitVec 16)
  | device (driverStopped surpriseRemoved pnpBstopTrx writePortCancel : Bool)

def xmitEvent (cfg : AggConfig) (st : PoolState) : XmitEvent → PoolState
  | .issue m submit => st.issue m submit
  | .data e attrib f busy submit => st.rtwXmit cfg e attrib f busy submit
  | .tasklet underSurvey submit => st.xmitTasklet cfg underSurvey submit
  | .complete b status => st.txComplete b status
  | .power sleep staDzBitmap => { st with sleep := sleep, staDzBitmap := staDzBitmap }
  | .device driverStopped surpriseRemoved pnpBstopTrx writePortCancel =>
    { st with
      driverStopped := driverStopped
      surpriseRemoved := surpriseRemoved
      pnpBstopTrx := pnpBstopTrx
      writePortCancel := writePortCancel }

/-! ## The property -/

/-- All buffers. -/
def allXmitbufs : List XmitBuf :=
  (List.range nrXmitbuff).map .data ++ (List.range nrXmitExtbuff).map .mgnt

/-- The lists of the data frames: the free queue, the queues of the stations. -/
def PoolState.frames (st : PoolState) : Option Place → List ℕ
  | none => st.freeXmitQueue
  | some p => st.queue p

/-- The buffers: free, or in flight. -/
def PoolState.bufs (st : PoolState) : List XmitBuf :=
  st.freeXmitbuf.queue.map .data ++ st.freeXmitExtbuf.queue.map .mgnt ++ st.inFlight

/-- Between two events no handler works on a frame, so that each is in the free queue it
    belongs to or in one queue of a station, and each buffer is free or in flight, once. -/
structure PoolsConserved (st : PoolState) : Prop where
  frames : Exclusive st.frames
  frames_all : ∀ x, Placed st.frames x ↔ x < nrXmitframe
  extFrames : st.freeXframeExt.queue.Perm (List.range nrXmitExtbuff)
  bufs : st.bufs.Perm allXmitbufs
  freeXmitframeCnt : st.freeXmitframeCnt = st.freeXmitQueue.length
  freeXframeExtCnt : st.freeXframeExt.cnt = st.freeXframeExt.queue.length
  freeXmitbufCnt : st.freeXmitbuf.cnt = st.freeXmitbuf.queue.length
  freeXmitExtbufCnt : st.freeXmitExtbuf.cnt = st.freeXmitExtbuf.queue.length
  drained : st.inFlight = [] → (∀ p, st.queue p = []) →
    st.freeXmitQueue.Perm (List.range nrXmitframe) ∧
      st.freeXmitbuf.queue.Perm (List.range nrXmitbuff) ∧
      st.freeXmitExtbuf.queue.Perm (List.range nrXmitExtbuff)

/-! ## Invariant -/

/-- What holds inside a handler that has frame `fr` and buffer `b` in its hands. -/
structure PoolInv (fr : Option XmitFrame) (b : Option XmitBuf) (st : PoolState) : Prop where
  excl : Exclusive st.queue
  home : ∀ s ac x, x ∈ st.queue (.staPending s ac) →
    (st.attrib x).psta = some s ∧ acIndex (st.attrib x).txPriority = ac
  frames : st.freeXmit.Keeps (· < nrXmitframe) fun x => Placed st.queue x ∨ fr = some (.data x)
  hand : ∀ x, fr = some (.data x) → ¬Placed st.queue x
  extFrames : st.freeXframeExt.Keeps (· < nrXmitExtbuff) fun x => fr = some (.ext x)
  bufs : st.freeXmitbuf.Keeps (· < nrXmitbuff) fun i =>
    .data i ∈ st.inFlight ∨ b = some (.data i)
  extBufs : st.freeXmitExtbuf.Keeps (· < nrXmitExtbuff) fun i =>
    .mgnt i ∈ st.inFlight ∨ b = some (.mgnt i)
  inFlight : st.inFlight.Nodup
  bufHand : ∀ x, b = some x → x ∉ st.inFlight
  arrived : nrXmitframe ≤ st.arrived

section inv

variable {fr : Option XmitFrame} {b : Option XmitBuf} {st st' : PoolState} {x i : ℕ}

theorem PoolInv.pendingOk (h : PoolInv fr b st) : PendingOk st.toTxState where
  excl := h.excl
  home hx := h.home _ _ _ hx
  free {_ _ y} hy hf := ((h.frames.mem y).mp hf).2 (.inl ⟨_, hy⟩)

/-! ### Frames -/

theorem PoolInv.freeXmitframe {f : XmitFrame} (h : PoolInv (some f) b st) :
    PoolInv none b (st.freeXmitframe f) := by
  cases f with
  | data x =>
    have hx : ¬Placed st.queue x := h.hand x rfl
    have hqueue : (st.freeXmitframe (.data x)).queue = st.queue := del_of_not_placed hx
    have hnotin : x ∉ st.freeXmitQueue := fun hmem => ((h.frames.mem x).mp hmem).2 (.inr rfl)
    have hfree : (st.freeXmitframe (.data x)).freeXmit = st.freeXmit.free x := by
      show FreeQueue.mk (st.freeXmitQueue ++ [x]) (st.freeXmitframeCnt + 1) =
        ⟨st.freeXmitQueue.erase x ++ [x], st.freeXmitframeCnt + 1⟩
      rw [List.erase_of_not_mem hnotin]
    refine { h with excl := ?_, home := ?_, frames := ?_, hand := ?_, extFrames := ?_ }
    · rw [hqueue]
      exact h.excl
    · intro _ _ y hy
      rw [hqueue] at hy
      exact h.home _ _ y hy
    · rw [hfree, hqueue]
      refine (h.frames.free (.inr rfl)).congr fun y => ?_
      by_cases hy : y = x
      · subst hy
        simpa using hx
      · simp [hy, Ne.symm hy]
    · intro y hy
      cases hy
    · exact h.extFrames.congr fun y => by simp
  | ext x =>
    refine { h with frames := ?_, hand := ?_, extFrames := ?_ }
    · refine h.frames.congr fun y => ?_
      show _ ↔ Placed st.queue y ∨ _
      simp
    · intro y hy
      cases hy
    · refine (h.extFrames.free rfl).congr fun y => ?_
      by_cases hy : y = x
      · simp [hy]
      · simp [hy, Ne.symm hy]

/-- A frame is taken from the free queue. -/
theorem PoolInv.allocXmitframe (h : PoolInv none b st)
    (hs : st.allocXmitframe = some (x, st')) : PoolInv (some (.data x)) b st' := by
  unfold PoolState.allocXmitframe at hs
  obtain ⟨⟨y, q⟩, halloc, hpair⟩ := Option.map_eq_some_iff.mp hs
  obtain ⟨rfl, rfl⟩ := Prod.mk.inj hpair
  obtain ⟨hkeeps, -, hout⟩ := h.frames.alloc halloc
  refine { h with frames := ?_, hand := ?_, extFrames := ?_ }
  · refine hkeeps.congr fun z => ?_
    simp [eq_comm]
  · intro z hz
    obtain rfl : y = z := XmitFrame.data.inj (Option.some.inj hz)
    exact fun hp => hout (.inl hp)
  · exact h.extFrames.congr fun z => by simp

/-- A frame of the pool enters a queue. -/
theorem PoolInv.put (h : PoolInv (some (.data x)) b st) (p : Place) {q : XmitState}
    (hqueue : q.queue = put st.queue p x) (hattrib : q.attrib = st.attrib)
    (hcnt : q.freeXmitframeCnt = st.freeXmitframeCnt) (harr : q.arrived = st.arrived)
    (hhome : ∀ s ac, p = .staPending s ac →
      (st.attrib x).psta = some s ∧ acIndex (st.attrib x).txPriority = ac) :
    PoolInv none b { st with toXmitState := q } where
  excl := by
    show Exclusive q.queue
    rw [hqueue]
    exact h.excl.put (h.hand x rfl)
  home s ac y hy := by
    show (q.attrib y).psta = some s ∧ acIndex (q.attrib y).txPriority = ac
    replace hy : y ∈ q.queue (.staPending s ac) := hy
    rw [hqueue, mem_put] at hy
    rw [hattrib]
    rcases hy with hy | ⟨rfl, hp⟩
    · exact h.home s ac y hy
    · exact hhome s ac hp.symm
  frames := by
    have hfree : PoolState.freeXmit { st with toXmitState := q } = st.freeXmit := by
      show FreeQueue.mk st.freeXmitQueue q.freeXmitframeCnt = ⟨st.freeXmitQueue, _⟩
      rw [hcnt]
    rw [hfree]
    refine h.frames.congr fun y => ?_
    show _ ↔ Placed q.queue y ∨ _
    rw [hqueue, placed_put]
    simp [or_comm, eq_comm]
  hand y hy := by cases hy
  extFrames := h.extFrames.congr fun y => by simp
  bufs := h.bufs
  extBufs := h.extBufs
  inFlight := h.inFlight
  bufHand := h.bufHand
  arrived := by
    show nrXmitframe ≤ q.arrived
    rw [harr]
    exact h.arrived

/-! ### Buffers -/

@[simp] theorem rtwFreeXmitbuf_inFlight (st : PoolState) (bf : XmitBuf) :
    (st.rtwFreeXmitbuf bf).inFlight = st.inFlight := by
  cases bf <;> rfl

theorem PoolInv.rtwFreeXmitbuf {bf : XmitBuf} (h : PoolInv fr (some bf) st) :
    PoolInv fr none (st.rtwFreeXmitbuf bf) := by
  have hout := h.bufHand bf rfl
  cases bf with
  | data i =>
    refine { h with bufs := ?_, extBufs := ?_, bufHand := fun y hy => by cases hy }
    · refine (h.bufs.free (.inr rfl)).congr fun j => ?_
      by_cases hj : j = i
      · subst hj
        simpa using hout
      · simp [hj, Ne.symm hj]
    · exact h.extBufs.congr fun j => by simp
  | mgnt i =>
    refine { h with bufs := ?_, extBufs := ?_, bufHand := fun y hy => by cases hy }
    · exact h.bufs.congr fun j => by simp
    · refine (h.extBufs.free (.inr rfl)).congr fun j => ?_
      by_cases hj : j = i
      · subst hj
        simpa using hout
      · simp [hj, Ne.symm hj]

/-- The write of a buffer takes it over: it is in flight or free. -/
theorem PoolInv.usbTransmit {bf : XmitBuf} (h : PoolInv fr (some bf) st) (submit : Submit) :
    PoolInv fr none (st.usbTransmit submit bf) := by
  have hout := h.bufHand bf rfl
  unfold PoolState.usbTransmit
  rw [if_neg hout]
  split_ifs
  · exact h.rtwFreeXmitbuf
  · cases submit with
    | ok =>
      refine { h with bufs := ?_, extBufs := ?_, inFlight := ?_, bufHand := ?_ }
      · refine h.bufs.congr fun j => ?_
        simp [eq_comm]
      · refine h.extBufs.congr fun j => ?_
        simp [eq_comm]
      · refine List.nodup_append.mpr ⟨h.inFlight, List.nodup_singleton bf, fun y hy z hz hyz => ?_⟩
        rw [List.mem_singleton.mp hz] at hyz
        exact hout (hyz ▸ hy)
      · intro y hy
        cases hy
    | noDevice =>
      have hstop : PoolInv fr (some bf) { st with driverStopped := true } := { h with }
      exact hstop.rtwFreeXmitbuf
    | error => exact h.rtwFreeXmitbuf

/-- The URB of a buffer is no longer active: the callback has the buffer. -/
theorem PoolInv.urb {bf : XmitBuf} (h : PoolInv fr none st) (hmem : bf ∈ st.inFlight) :
    PoolInv fr (some bf) { st with inFlight := st.inFlight.erase bf } := by
  have hiff : ∀ y, y ∈ st.inFlight ↔ y ∈ st.inFlight.erase bf ∨ some bf = some y := by
    intro y
    rw [h.inFlight.mem_erase_iff]
    by_cases hy : y = bf
    · subst hy
      simpa using hmem
    · simp [hy, Ne.symm hy]
  refine { h with bufs := ?_, extBufs := ?_, inFlight := h.inFlight.erase bf, bufHand := ?_ }
  · exact h.bufs.congr fun j => by simpa using hiff (.data j)
  · exact h.extBufs.congr fun j => by simpa using hiff (.mgnt j)
  · intro y hy
    obtain rfl := Option.some.inj hy
    exact fun hin => (h.inFlight.mem_erase_iff.mp hin).1 rfl

/-- A completed write hands its buffer to the callback. -/
theorem PoolInv.txComplete (h : PoolInv fr none st) (bf : XmitBuf) (status : UrbStatus) :
    PoolInv fr none (st.txComplete bf status) := by
  unfold PoolState.txComplete
  by_cases hmem : bf ∈ st.inFlight
  · rw [if_pos hmem]
    have hurb := h.urb hmem
    apply PoolInv.rtwFreeXmitbuf
    split_ifs
    · exact hurb
    · cases status with
      | done => exact hurb
      | shutdown => exact { hurb with }
      | other => exact { hurb with }
  · rw [if_neg hmem]
    exact h

theorem PoolInv.allocXmitbuf {q : FreeQueue ℕ} (h : PoolInv fr none st)
    (hs : st.freeXmitbuf.alloc = some (i, q)) :
    PoolInv fr (some (.data i)) { st with freeXmitbuf := q } := by
  obtain ⟨hkeeps, -, hout⟩ := h.bufs.alloc hs
  refine { h with bufs := ?_, extBufs := ?_, bufHand := ?_ }
  · refine hkeeps.congr fun j => ?_
    simp [eq_comm]
  · exact h.extBufs.congr fun j => by simp
  · intro y hy
    obtain rfl := Option.some.inj hy
    exact fun hin => hout (.inl hin)

/-- One fragment: the buffer is written, the frame goes back. -/
theorem PoolInv.rtwDumpXframe {f : XmitFrame} {bf : XmitBuf} (h : PoolInv (some f) (some bf) st)
    (submit : ℕ → Submit) : PoolInv none none (st.rtwDumpXframe 1 submit f bf) :=
  (h.usbTransmit (submit 0)).freeXmitframe

/-! ### Management frames -/

/-- Frame and buffer, or neither. -/
theorem PoolInv.allocMgtxmitframe (h : PoolInv none none st) :
    match st.allocMgtxmitframe with
    | (st', none) => PoolInv none none st'
    | (st', some (x, i)) => PoolInv (some (.ext x)) (some (.mgnt i)) st' ∧
        st.freeXframeExt.queue ≠ [] ∧ st.freeXmitExtbuf.queue ≠ [] ∧
        st'.driverStopped = st.driverStopped ∧ st'.surpriseRemoved = st.surpriseRemoved := by
  unfold PoolState.allocMgtxmitframe
  cases hframe : st.freeXframeExt.alloc with
  | none => exact h
  | some p =>
    obtain ⟨x, q⟩ := p
    obtain ⟨hkeeps, -, hout⟩ := h.extFrames.alloc hframe
    have hx : PoolInv (some (.ext x)) none { st with freeXframeExt := q } := by
      refine { h with frames := ?_, hand := ?_, extFrames := ?_ }
      · exact h.frames.congr fun y => by simp
      · intro y hy
        cases hy
      · refine hkeeps.congr fun y => ?_
        simp [eq_comm]
    dsimp only
    cases hbuf : st.freeXmitExtbuf.alloc with
    | none => exact hx.freeXmitframe
    | some p =>
      obtain ⟨i, q'⟩ := p
      obtain ⟨hkeeps, -, hout⟩ := h.extBufs.alloc hbuf
      refine ⟨?_, ?_, ?_, rfl, rfl⟩
      · refine { hx with bufs := ?_, extBufs := ?_, bufHand := ?_ }
        · exact h.bufs.congr fun j => by simp
        · refine hkeeps.congr fun j => ?_
          simp [eq_comm]
        · intro y hy
          obtain rfl := Option.some.inj hy
          exact fun hin => hout (.inl hin)
      · intro hnil
        rw [FreeQueue.alloc_none.mpr hnil] at hframe
        cases hframe
      · intro hnil
        rw [FreeQueue.alloc_none.mpr hnil] at hbuf
        cases hbuf

/-- A management frame that gets frame and buffer is dumped while the device runs, or
    released. -/
def IssueOk (st : PoolState) (m : MgtSend) : Prop :=
  st.freeXframeExt.queue ≠ [] → st.freeXmitExtbuf.queue ≠ [] →
    m.built = .released ∨
      m.built = .dumped ∧ st.driverStopped = false ∧ st.surpriseRemoved = false

theorem PoolInv.issue (h : PoolInv none none st) {m : MgtSend} (hok : IssueOk st m)
    (submit : Submit) : PoolInv none none (st.issue m submit) := by
  have halloc := h.allocMgtxmitframe
  unfold PoolState.issue
  cases hst : st.allocMgtxmitframe with
  | mk st' o =>
    rw [hst] at halloc
    cases o with
    | none => exact halloc
    | some p =>
      obtain ⟨x, i⟩ := p
      obtain ⟨h', hframe, hbuf, hstop, hremoved⟩ := halloc
      dsimp only
      rcases hok hframe hbuf with hbuilt | ⟨hbuilt, hrun, hthere⟩
      · rw [hbuilt]
        exact h'.rtwFreeXmitbuf.freeXmitframe
      · rw [hbuilt]
        show PoolInv none none (st'.dumpMgntframe submit x i)
        unfold PoolState.dumpMgntframe
        rw [hstop, hremoved, hrun, hthere, if_neg (by simp)]
        exact h'.rtwDumpXframe _

/-! ### Data frames -/

/-- The frame gets its attributes; it is in no queue. -/
theorem PoolInv.fill (h : PoolInv (some (.data x)) b st) (attrib : PktAttrib) (f : TxFrame) :
    PoolInv (some (.data x)) b (st.fill x attrib f) := by
  refine { h with home := ?_ }
  intro s ac y hy
  have hne : y ≠ x := by
    rintro rfl
    exact h.hand y rfl ⟨_, hy⟩
  show (Function.update st.attrib x attrib y).psta = some s ∧
    acIndex (Function.update st.attrib x attrib y).txPriority = ac
  rw [Function.update_of_ne hne]
  exact h.home s ac y hy

theorem PoolInv.xmitframeEnqueue (h : PoolInv (some (.data x)) b st) (e : Adapter) :
    PoolInv none b (st.xmitframeEnqueue e x) := by
  unfold PoolState.xmitframeEnqueue
  cases hq : rtwXmitClassifier e st.toXmitState x with
  | none => exact h.freeXmitframe
  | some q =>
    obtain ⟨s, howner, rfl⟩ := owner_of_rtwXmitClassifier hq
    have hfr := enqueueServq_toFrames st.toXmitState s x
    refine h.put (.staPending s (acIndex (st.attrib x).txPriority)) (congrArg Frames.queue hfr)
      (by rw [hfr]) (by rw [hfr]) (by rw [hfr]) ?_
    intro s' ac' hplace
    obtain ⟨rfl, rfl⟩ := Place.staPending.inj hplace
    exact ⟨howner.2.1, rfl⟩

/-- `pre_xmitframe` writes frame `x` at once. -/
structure Direct (e : Adapter) (busy : Bool) (st : PoolState) (x : ℕ) : Prop where
  first : st.txframesStaAcPending e x = false
  idle : busy = false
  buffer : st.freeXmitbuf.queue ≠ []
  coalesced : (st.frame x).coalesceOk = true

theorem PoolInv.preXmitframe {cfg : AggConfig} {e : Adapter} {busy : Bool}
    (h : PoolInv (some (.data x)) none st) (submit : ℕ → Submit)
    (hok : Direct e busy st x →
      FitsFirst (st.frame x).attrib cfg.fragLen (st.frame x).skb) :
    PoolInv none none (st.preXmitframe cfg e busy submit x) := by
  unfold PoolState.preXmitframe
  by_cases hqueued : st.txframesStaAcPending e x = true ∨ busy = true
  · rw [if_pos hqueued]
    exact h.xmitframeEnqueue e
  rw [if_neg hqueued]
  cases halloc : st.freeXmitbuf.alloc with
  | none => exact h.xmitframeEnqueue e
  | some p =>
    obtain ⟨i, q⟩ := p
    have hb := h.allocXmitbuf halloc
    dsimp only
    by_cases hcoal : (st.frame x).coalesceOk = true
    · rw [if_pos hcoal]
      obtain ⟨hfirst, hidle⟩ := not_or.mp hqueued
      have hbuf : st.freeXmitbuf.queue ≠ [] := by
        intro hnil
        rw [FreeQueue.alloc_none.mpr hnil] at halloc
        cases halloc
      have hfits := hok ⟨by simpa using hfirst, by simpa using hidle, hbuf, hcoal⟩
      obtain ⟨f, -, -, -, hone⟩ := coalesce_one 0 1 hfits
      have hnr : PoolState.nrFrags cfg (st.frame x) = 1 := by
        unfold PoolState.nrFrags
        rw [hone]
        rfl
      rw [hnr]
      exact hb.rtwDumpXframe submit
    · rw [if_neg hcoal]
      exact hb.rtwFreeXmitbuf.freeXmitframe

/-- A packet that is written at once, since its station is awake, is not divided. -/
def DataOk (cfg : AggConfig) (st : PoolState) (e : Adapter) (attrib : Option PktAttrib)
    (f : TxFrame) (busy : Bool) : Prop :=
  ∀ x st' a, st.allocXmitframe = some (x, st') → attrib = some a →
    (∀ s, Owner e (st'.fill x a f).toFrames s x → ¬Takes e (st'.fill x a f).toXmitState s x) →
      Direct e busy (st'.fill x a f) x → FitsFirst f.attrib cfg.fragLen f.skb

theorem PoolInv.rtwXmit {cfg : AggConfig} {e : Adapter} {attrib : Option PktAttrib} {f : TxFrame}
    {busy : Bool} (h : PoolInv none none st) (hok : DataOk cfg st e attrib f busy)
    (submit : ℕ → Submit) : PoolInv none none (st.rtwXmit cfg e attrib f busy submit) := by
  unfold PoolState.rtwXmit
  cases halloc : st.allocXmitframe with
  | none => exact h
  | some p =>
    obtain ⟨x, st1⟩ := p
    have hx := h.allocXmitframe halloc
    dsimp only
    cases attrib with
    | none => exact hx.freeXmitframe
    | some a =>
      have hfill := hx.fill a f
      have hframe : (st1.fill x a f).frame x = f := Function.update_self ..
      have hfits : (∀ s, Owner e (st1.fill x a f).toFrames s x →
          ¬Takes e (st1.fill x a f).toXmitState s x) → Direct e busy (st1.fill x a f) x →
          FitsFirst ((st1.fill x a f).frame x).attrib cfg.fragLen
            ((st1.fill x a f).frame x).skb := by
        rw [hframe]
        exact hok x st1 a halloc rfl
      dsimp only
      generalize st1.fill x a f = st2 at hfill hfits
      by_cases htakes : ∃ s, Owner e st2.toFrames s x ∧ Takes e st2.toXmitState s x
      · obtain ⟨s, howner, htake⟩ := htakes
        rw [enqueueForSleeping_takes howner htake]
        have hfr := bufferFrame_toFrames (e := e) st2.toXmitState s x
        refine hfill.put (.sleepQ s) ?_ (by rw [hfr]) (by rw [hfr]) (by rw [hfr]) ?_
        · rw [congrArg Frames.queue hfr]
          show move st2.queue (.sleepQ s) x = _
          rw [move, del_of_not_placed (hfill.hand x rfl)]
        · intro s' ac' hplace
          cases hplace
      · have hawake : ∀ s, Owner e st2.toFrames s x → ¬Takes e st2.toXmitState s x :=
          fun s howner htake => htakes ⟨s, howner, htake⟩
        obtain ⟨flags, -, hleave⟩ := enqueueForSleeping_leaves hawake
        rw [hleave]
        have hflags : PoolInv (some (.data x)) none
            { st2 with toXmitState := { st2.toXmitState with flags := flags } } := { hfill with }
        refine hflags.preXmitframe submit fun hsent => ?_
        exact hfits hawake ⟨hsent.first, hsent.idle, hsent.buffer, hsent.coalesced⟩

/-! ### The tasklet -/

/-- The first frame of a queue is taken out of it. -/
theorem PoolInv.dequeue {xst : XmitState} (h : PoolInv none b st)
    (hs : rtwDequeueXframe st.toXmitState = some (x, xst)) :
    PoolInv (some (.data x)) b { st with toXmitState := xst } := by
  obtain ⟨s, ac, rest, -, hq, hxst⟩ := rtwDequeueXframe_some hs
  have hplaced : Placed st.queue x := ⟨_, hq ▸ List.mem_cons_self⟩
  have hdel : PoolInv (some (.data x)) b { st with queue := del st.queue x } := by
    refine { h with excl := h.excl.del x, home := ?_, frames := ?_, hand := ?_, extFrames := ?_ }
    · intro s ac y hy
      exact h.home s ac y (List.mem_of_mem_erase hy)
    · refine h.frames.congr fun y => ?_
      show _ ↔ Placed (del st.queue x) y ∨ _
      rw [placed_del h.excl]
      by_cases hy : y = x
      · subst hy
        simpa using hplaced
      · simp [hy, Ne.symm hy]
    · intro y hy
      obtain rfl : x = y := XmitFrame.data.inj (Option.some.inj hy)
      exact not_placed_del h.excl
    · exact h.extFrames.congr fun y => by simp
  rw [hxst]
  split_ifs
  · exact { hdel with }
  · exact hdel

theorem PoolInv.pickFirst {o : Option ℕ} {fuel : ℕ} {tx : TxState} (h : PoolInv none b st)
    (hs : pickFirst st.frame fuel st.toTxState = some (o, tx)) :
    PoolInv (o.map .data) b { st with toTxState := tx } := by
  induction fuel generalizing st with
  | zero => cases hs
  | succ fuel ih =>
    rw [Xmit.pickFirst] at hs
    cases hd : rtwDequeueXframe st.toXmitState with
    | none =>
      rw [hd] at hs
      obtain ⟨rfl, rfl⟩ := Prod.mk.inj (Option.some.inj hs)
      exact h
    | some p =>
      obtain ⟨x, xst⟩ := p
      have hx := h.dequeue hd
      rw [hd] at hs
      dsimp only at hs
      split_ifs at hs with hok
      · obtain ⟨rfl, rfl⟩ := Prod.mk.inj (Option.some.inj hs)
        exact hx
      · have hnext := ih hx.freeXmitframe hs
        exact hnext

/-- No frame waits behind the one that is sent, or it does not fit into the buffer. -/
def TaskletOk (st : PoolState) (underSurvey : Bool) : Prop :=
  underSurvey = false → st.driverStopped = false → st.surpriseRemoved = false →
    st.writePortCancel = false → st.freeXmitbuf.queue ≠ [] →
    ∀ x tx s, Xmit.pickFirst st.frame (st.arrived + 1) st.toTxState = some (some x, tx) →
      (tx.attrib x).psta = some s →
      ∀ y ∈ (tx.queue (.staPending s (acIndex (tx.attrib x).txPriority))).head?,
        ¬FitsBehind st.frame (rnd8 (slotLen (st.frame x) 1)) y

theorem PoolInv.xmitTasklet {underSurvey : Bool} (cfg : AggConfig) (h : PoolInv none none st)
    (hok : TaskletOk st underSurvey) (submit : Submit) :
    PoolInv none none (st.xmitTasklet cfg underSurvey submit) := by
  unfold PoolState.xmitTasklet
  by_cases hstop : underSurvey = true ∨ st.driverStopped = true ∨ st.surpriseRemoved = true ∨
      st.writePortCancel = true
  · rw [if_pos hstop]
    exact h
  rw [if_neg hstop]
  simp only [not_or, Bool.not_eq_true] at hstop
  obtain ⟨hsurvey, hdriver, hremoved, hcancel⟩ := hstop
  unfold PoolState.xmitframeComplete
  cases halloc : st.freeXmitbuf.alloc with
  | none => exact h
  | some p =>
    obtain ⟨i, q⟩ := p
    have hb := h.allocXmitbuf halloc
    have hbuf : st.freeXmitbuf.queue ≠ [] := by
      intro hnil
      rw [FreeQueue.alloc_none.mpr hnil] at halloc
      cases halloc
    have halone := hok hsurvey hdriver hremoved hcancel hbuf
    dsimp only
    rw [completeWith]
    cases hpick : Xmit.pickFirst st.frame (st.arrived + 1) st.toTxState with
    | none => exact h
    | some p =>
      obtain ⟨o, tx⟩ := p
      have hpicked := hb.pickFirst hpick
      cases o with
      | none => exact hpicked.rtwFreeXmitbuf
      | some x =>
        dsimp only
        cases hs : (tx.attrib x).psta with
        | none => exact h
        | some s =>
          obtain ⟨g, hg, -⟩ := completeFrom_alone_eq cfg q.queue rfl (halone x tx s hpick hs)
          dsimp only
          rw [hg]
          refine PoolInv.usbTransmit ?_ submit
          have hunlink : PoolInv (some (.data x)) (some (.data i))
              { st with
                toTxState :=
                  if tx.queue (.staPending s (acIndex (tx.attrib x).txPriority)) = [] then
                    { tx with toXmitState :=
                        unlinkServq tx.toXmitState s (acIndex (tx.attrib x).txPriority) }
                  else tx
                freeXmitbuf := q } := by
            split_ifs
            · exact { hpicked with }
            · exact hpicked
          exact hunlink.freeXmitframe

/-- There are not more frames than the loop that picks one can take. -/
theorem PoolInv.pickFirst_isSome {fuel : ℕ} (h : PoolInv none b st)
    (hfuel : nrXmitframe - st.freeXmitQueue.length < fuel) :
    ∃ p, Xmit.pickFirst st.frame fuel st.toTxState = some p := by
  induction fuel generalizing st with
  | zero => omega
  | succ fuel ih =>
    rw [Xmit.pickFirst]
    cases hd : rtwDequeueXframe st.toXmitState with
    | none => exact ⟨_, rfl⟩
    | some p =>
      obtain ⟨x, xst⟩ := p
      have hx := (h.dequeue hd).freeXmitframe
      dsimp only
      split_ifs with hok
      · exact ⟨_, rfl⟩
      · apply ih hx
        have hsub : st.freeXmitQueue ++ [x] ⊆ List.range nrXmitframe := fun y hy =>
          List.mem_range.mpr ((hx.frames.mem y).mp hy).1
        have hnodup : (st.freeXmitQueue ++ [x]).Nodup := hx.frames.nodup
        have hle := (hnodup.subperm hsub).length_le
        show nrXmitframe - (st.freeXmitQueue ++ [x]).length < fuel
        rw [List.length_range, List.length_append, List.length_singleton] at hle
        rw [List.length_append, List.length_singleton]
        omega

/-- The tasklet returns. -/
theorem PoolInv.completeWith_isSome (h : PoolInv none none st) (cfg : AggConfig) (i : ℕ)
    (bufs : List ℕ) : ∃ r, completeWith cfg st.frame i bufs st.toTxState = some r := by
  have hfuel : nrXmitframe - st.freeXmitQueue.length < st.arrived + 1 := by
    have harr := h.arrived
    omega
  obtain ⟨⟨o, tx⟩, hpick⟩ := h.pickFirst_isSome hfuel
  obtain ⟨hpending, hfew, hmem⟩ := pickFirst_fewer h.pendingOk hpick
  rw [completeWith, hpick]
  cases o with
  | none => exact ⟨_, rfl⟩
  | some x =>
    obtain ⟨s, ac, hx⟩ := hmem x rfl
    have hpsta : (tx.attrib x).psta = some s := by
      rw [hfew.attrib]
      exact (h.home s ac x hx).1
    dsimp only
    rw [hpsta]
    obtain ⟨r, -, hr, -⟩ := completeFrom_slots cfg st.frame bufs s x hpending
    exact ⟨r, hr⟩

/-! ### The property -/

theorem PoolInv.mem_frames (h : PoolInv none none st) (x : ℕ) :
    x ∈ st.freeXmitQueue ↔ x < nrXmitframe ∧ ¬Placed st.queue x := by
  refine (h.frames.mem x).trans ?_
  rw [or_iff_left (by simp)]

theorem PoolInv.bufs_nodup (h : PoolInv none none st) : st.bufs.Nodup := by
  have hdata : (st.freeXmitbuf.queue.map XmitBuf.data).Nodup :=
    h.bufs.nodup.map fun _ _ hij => XmitBuf.data.inj hij
  have hmgnt : (st.freeXmitExtbuf.queue.map XmitBuf.mgnt).Nodup :=
    h.extBufs.nodup.map fun _ _ hij => XmitBuf.mgnt.inj hij
  refine List.nodup_append'.mpr ⟨List.nodup_append'.mpr ⟨hdata, hmgnt, ?_⟩, h.inFlight, ?_⟩
  · intro y hy hy'
    obtain ⟨i, -, rfl⟩ := List.mem_map.mp hy
    obtain ⟨j, -, hij⟩ := List.mem_map.mp hy'
    cases hij
  · intro y hy hfly
    rcases List.mem_append.mp hy with hy | hy
    · obtain ⟨i, hi, rfl⟩ := List.mem_map.mp hy
      exact ((h.bufs.mem i).mp hi).2 (.inl hfly)
    · obtain ⟨i, hi, rfl⟩ := List.mem_map.mp hy
      exact ((h.extBufs.mem i).mp hi).2 (.inl hfly)

theorem PoolInv.mem_bufs (h : PoolInv none none st) (y : XmitBuf) :
    y ∈ st.bufs ↔ y ∈ allXmitbufs := by
  cases y with
  | data i =>
    have hmem := h.bufs.mem i
    have hdom := h.bufs.dom i
    simp only [reduceCtorEq, or_false] at hmem hdom
    simp only [PoolState.bufs, allXmitbufs, List.mem_append, List.mem_map, XmitBuf.data.injEq,
      exists_eq_right, reduceCtorEq, and_false, exists_false, or_false, List.mem_range, hmem]
    tauto
  | mgnt i =>
    have hmem := h.extBufs.mem i
    have hdom := h.extBufs.dom i
    simp only [reduceCtorEq, or_false] at hmem hdom
    simp only [PoolState.bufs, allXmitbufs, List.mem_append, List.mem_map, XmitBuf.mgnt.injEq,
      exists_eq_right, reduceCtorEq, and_false, exists_false, false_or, List.mem_range, hmem]
    tauto

theorem PoolInv.conserved (h : PoolInv none none st) : PoolsConserved st where
  frames := by
    refine ⟨fun p => ?_, fun {p p' x} hp hp' => ?_⟩
    · cases p with
      | none => exact h.frames.nodup
      | some p => exact h.excl.nodup p
    · cases p with
      | none =>
        cases p' with
        | none => rfl
        | some p' => exact absurd ⟨p', hp'⟩ ((h.mem_frames x).mp hp).2
      | some p =>
        cases p' with
        | none => exact absurd ⟨p, hp⟩ ((h.mem_frames x).mp hp').2
        | some p' => rw [h.excl.unique hp hp']
  frames_all x := by
    constructor
    · rintro ⟨p, hp⟩
      cases p with
      | none => exact ((h.mem_frames x).mp hp).1
      | some p => exact h.frames.dom x (.inl ⟨p, hp⟩)
    · intro hx
      by_cases hplaced : Placed st.queue x
      · obtain ⟨p, hp⟩ := hplaced
        exact ⟨some p, hp⟩
      · exact ⟨none, (h.mem_frames x).mpr ⟨hx, hplaced⟩⟩
  extFrames := h.extFrames.drained List.nodup_range (by simp) (by simp)
  bufs := (List.perm_ext_iff_of_nodup h.bufs_nodup (by decide)).mpr h.mem_bufs
  freeXmitframeCnt := h.frames.cnt
  freeXframeExtCnt := h.extFrames.cnt
  freeXmitbufCnt := h.bufs.cnt
  freeXmitExtbufCnt := h.extBufs.cnt
  drained hfly hempty := by
    refine ⟨h.frames.drained List.nodup_range (by simp) ?_,
      h.bufs.drained List.nodup_range (by simp) (by simp [hfly]),
      h.extBufs.drained List.nodup_range (by simp) (by simp [hfly])⟩
    rintro x (⟨p, hp⟩ | hp)
    · rw [hempty p] at hp
      cases hp
    · cases hp

end inv

/-! ## Runs -/

/-- The condition on an event: no builder gives up its frame or buffer, a packet that is
    written at once is one fragment, and the tasklet aggregates nothing. -/
def PoolOk (cfg : AggConfig) (st : PoolState) : XmitEvent → Prop
  | .issue m _ => IssueOk st m
  | .data e attrib f busy _ => DataOk cfg st e attrib f busy
  | .tasklet underSurvey _ => TaskletOk st underSurvey
  | .complete .. | .power .. | .device .. => True

theorem poolInv_step (cfg : AggConfig) (st : PoolState) (ev : XmitEvent) (hok : PoolOk cfg st ev)
    (h : PoolInv none none st) : PoolInv none none (xmitEvent cfg st ev) := by
  cases ev with
  | issue m submit => exact h.issue hok submit
  | data e attrib f busy submit => exact h.rtwXmit hok submit
  | tasklet underSurvey submit => exact h.xmitTasklet cfg hok submit
  | complete b status => exact h.txComplete b status
  | power sleep staDzBitmap => exact { h with }
  | device driverStopped surpriseRemoved pnpBstopTrx writePortCancel => exact { h with }

theorem poolInv_rtwInitXmitPriv (frame : ℕ → TxFrame) :
    PoolInv none none (PoolState.rtwInitXmitPriv frame) := by
  have hfull : ∀ (n : ℕ) {out : ℕ → Prop}, (∀ x, ¬out x) →
      FreeQueue.Keeps ⟨List.range n, n⟩ (· < n) out := by
    intro n out hnone
    have hkeeps := FreeQueue.keeps_full (List.nodup_range (n := n)) hnone
    rw [List.length_range] at hkeeps
    simpa using hkeeps
  exact {
    excl := exclusive_nil
    home := fun s ac x hx => absurd hx List.not_mem_nil
    frames := by
      have hfree : (PoolState.rtwInitXmitPriv frame).freeXmit =
          ⟨List.range nrXmitframe, nrXmitframe⟩ := by
        simp only [PoolState.freeXmit, PoolState.rtwInitXmitPriv]
      rw [hfree]
      refine hfull nrXmitframe fun x hx => ?_
      rcases hx with ⟨p, hp⟩ | hx
      · exact absurd hp List.not_mem_nil
      · cases hx
    hand := fun x hx => by cases hx
    extFrames := hfull nrXmitExtbuff fun x hx => by cases hx
    bufs := hfull nrXmitbuff fun x hx => by simp [PoolState.rtwInitXmitPriv] at hx
    extBufs := hfull nrXmitExtbuff fun x hx => by simp [PoolState.rtwInitXmitPriv] at hx
    inFlight := List.nodup_nil
    bufHand := fun x hx => by cases hx
    arrived := Nat.le_refl _ }

/-- From the start of the driver the pools are conserved along every run that meets the
    condition. -/
theorem pools_conserved_of_run (cfg : AggConfig) (frame : ℕ → TxFrame) (events : List XmitEvent)
    (hok : Guarded (xmitEvent cfg) (PoolOk cfg) (PoolState.rtwInitXmitPriv frame) events) (n : ℕ) :
    PoolsConserved (run (xmitEvent cfg) (PoolState.rtwInitXmitPriv frame) (events.take n)) :=
  (invariant_run_take (poolInv_step cfg) hok (poolInv_rtwInitXmitPriv frame) n).conserved

/-- A station without a record of the receiver. -/
def noStation : Adapter where
  wifiApState := false
  staHash := []
  sta := fun _ => ⟨Vector.replicate 6 0, true, 0, 0, 0, 0, 0, true⟩
  expireTo := 0

/-- A management frame and a packet are sent, the tasklet runs, both writes are completed. -/
def twoWrites : List XmitEvent :=
  [.issue .deauth .ok,
    .data noStation (some ⟨Vector.replicate 6 2, none, 0⟩) shortFrame false fun _ => .ok,
    .tasklet false .ok, .complete (.mgnt 0) .done, .complete (.data 0) .done]

theorem pools_conserved_twoWrites : PoolsConserved (run (xmitEvent highSpeed)
    (PoolState.rtwInitXmitPriv fun _ => shortFrame) (twoWrites.take 5)) := by
  refine pools_conserved_of_run highSpeed (fun _ => shortFrame) twoWrites ?_ 5
  refine ⟨fun _ _ => .inr ⟨rfl, rfl, rfl⟩, fun x st a _ _ _ _ => ?_,
    fun _ _ _ _ _ x tx s hpick => ?_, trivial, trivial, trivial⟩
  · right
    decide
  · cases hpick

/-- A beacon with elements of 500 bytes is too large for its buffer. -/
def largeBeacon : List XmitEvent := [.issue (.beacon ⟨true, 500, 0, 0, 0, 8⟩) .ok]

/-- Its frame and its buffer are lost. -/
theorem largeBeacon_leaks : ¬ ∀ (cfg : AggConfig) (frame : ℕ → TxFrame) (events : List XmitEvent)
    (n : ℕ), PoolsConserved
      (run (xmitEvent cfg) (PoolState.rtwInitXmitPriv frame) (events.take n)) := by
  intro h
  have hperm := (h highSpeed (fun _ => shortFrame) largeBeacon 1).extFrames.length_eq
  revert hperm
  decide

end Rtl8821au.Xmit
