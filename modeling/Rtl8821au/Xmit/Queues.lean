import Mathlib.Tactic.SplitIfs
import Rtl8821au.Lib.Places
import Rtl8821au.Recv.Frame

/-!
# Transmit queues

The queues between `rtw_xmit` and the USB layer (`rtw_xmit.c`, lines 1971–2122 and
2234–2704): four `tx_servq` for each station, linked in four hardware queues while
they hold frames, and one `sleep_q` for a station in power save. Frames are named
by their arrival number.

* `rtwXmitClassifier`, `rtwDequeueXframe`: in and out of the service queues.
* `xmitframeEnqueueForSleepingSta`, `stopStaXmit`: into the sleep queue.
* `wakeupStaToXmit`, `xmitDeliveryEnabledFrames`, `recvPsPoll`: out of it.
* `xmitStep`: one operation on the queues.
-/

namespace Rtl8821au.Xmit

open Recv (MacAddr)
open Places

/-! ## Data -/

/-- The index into `hwxmits`. -/
inductive Ac where
  | vo
  | vi
  | be
  | bk
  deriving DecidableEq, Repr

/-- The lists a frame can be in: the `sleep_q` of a station, the `sta_pending` of one
    of its `tx_servq`, or none because it was handed to the USB layer. -/
inductive Place where
  | sleepQ (psta : ℕ)
  | staPending (psta : ℕ) (ac : Ac)
  | handed
  deriving DecidableEq, Repr

/-- `struct sta_info` (`sta_info.h`, lines 85–200): the members that the queue
    functions only read. -/
structure StaInfo where
  hwaddr : MacAddr
  fwLinked : Bool := true
  aid : ℕ
  uapsdBk : ℕ := 0
  uapsdBe : ℕ := 0
  uapsdVi : ℕ := 0
  uapsdVo : ℕ := 0
  hasLegacyAc : Bool := true

/-- `struct sta_info`: the members that the queue functions write. `sleepState` and
    `aliveChk` are the bits `WIFI_SLEEP_STATE` and `WIFI_STA_ALIVE_CHK_STATE` of
    `state`; the lengths are of type `unsigned int`. -/
structure StaSleep where
  sleepState : Bool := false
  aliveChk : Bool := false
  expireTo : ℕ := 0
  sleepqLen : ℕ := 0
  sleepqAcLen : ℕ := 0
  deriving DecidableEq, Repr

/-- The adapter as the queue functions read it. `staHash` lists the stations in the
    hash table. -/
structure Adapter where
  wifiApState : Bool
  staHash : List ℕ
  sta : ℕ → StaInfo
  expireTo : ℕ

/-- `struct pkt_attrib`: what the queue functions read. -/
structure PktAttrib where
  ra : MacAddr
  psta : Option ℕ
  txPriority : ℕ

/-- `struct pkt_attrib`: what the queue functions write. -/
structure PktFlags where
  triggered : Bool := false
  mdata : Bool := false
  eosp : Bool := false
  txQsel : ℕ := 0
  deriving DecidableEq, Repr

/-- A frame as it leaves a sleep queue, with the frames left behind and the two
    lengths after it. -/
structure Release where
  psta : ℕ
  frame : ℕ
  flags : PktFlags
  left : List ℕ
  sleepqLen : ℕ
  sleepqAcLen : ℕ

/-- The frames and the lists they are in; `arrived`, `accepted`, `slept` and `freed`
    record the history. -/
structure Frames where
  attrib : ℕ → PktAttrib
  queue : Place → List ℕ := fun _ => []
  freeXmitframeCnt : ℕ
  arrived : ℕ := 0
  accepted : List ℕ := []
  slept : List ℕ := []
  freed : List ℕ := []

/-- The next frame is taken from the pool. -/
def Frames.arrive (fr : Frames) (attrib : PktAttrib) : Frames :=
  { fr with
    attrib := Function.update fr.attrib fr.arrived attrib
    freeXmitframeCnt := fr.freeXmitframeCnt - 1
    arrived := fr.arrived + 1 }

/-- The frames, the stations and the hardware queues: `staQueue` are the stations whose
    `tx_servq` is linked. `releases` records the history. -/
structure XmitState extends Frames where
  flags : ℕ → PktFlags := fun _ => {}
  sleep : ℕ → StaSleep := fun _ => {}
  staDzBitmap : BitVec 16 := 0
  timBitmap : BitVec 16 := 0
  staQueue : Ac → List ℕ := fun _ => []
  releases : List Release := []

/-- `NR_XMITFRAME` (`xmit_osdep.h`, line 27). -/
def nrXmitframe : ℕ := 256

/-- `BIT(aid)` as a 16-bit mask (`sta_dz_bitmap`, `tim_bitmap`: `u16`). -/
def bit (aid : ℕ) : BitVec 16 := 1#16 <<< aid

/-- `++` and `--` on `unsigned int`. -/
def incU32 (n : ℕ) : ℕ := (n + 1) % 2 ^ 32

def decU32 (n : ℕ) : ℕ := (n + (2 ^ 32 - 1)) % 2 ^ 32

/-- `is_multicast_ether_addr`. -/
def isMulticast (a : MacAddr) : Bool := a.getD 0 0 &&& 1 == 1

def bcAddr : MacAddr := Vector.replicate 6 0xff

/-- `rtw_get_stainfo` (`rtw_sta_mgt.c`, lines 587–627). -/
def Adapter.rtwGetStainfo (e : Adapter) (hwaddr : MacAddr) : Option ℕ :=
  let addr := if isMulticast hwaddr then bcAddr else hwaddr
  e.staHash.find? fun s => (e.sta s).hwaddr == addr

/-- `rtw_get_bcmc_stainfo` (lines 667–676). -/
def Adapter.rtwGetBcmcStainfo (e : Adapter) : Option ℕ := e.rtwGetStainfo bcAddr

/-- The index that `rtw_get_sta_pending` chooses (`rtw_xmit.c`, lines 2023–2060). -/
def acIndex (up : ℕ) : Ac :=
  match up with
  | 1 | 2 => .bk
  | 4 | 5 => .vi
  | 6 | 7 => .vo
  | _ => .be

/-- `wmmps_ac`: bit `b` of the `uapsd` member that belongs to a priority. Every switch
    of the queue functions selects it in this way. -/
def StaInfo.wmmpsAc (sta : StaInfo) (up b : ℕ) : Bool :=
  match up with
  | 1 | 2 => sta.uapsdBk.testBit b
  | 4 | 5 => sta.uapsdVi.testBit b
  | 6 | 7 => sta.uapsdVo.testBit b
  | _ => sta.uapsdBe.testBit b

/-! ## Service queues -/

variable (e : Adapter)

/-- `rtw_free_xmitframe` (lines 1855–1910). -/
def rtwFreeXmitframe (st : XmitState) (x : ℕ) : XmitState :=
  { st with queue := del st.queue x, freeXmitframeCnt := st.freeXmitframeCnt + 1 }

/-- `list_add_tail(&ptxservq->tx_pending, …)`. -/
def linkServq (st : XmitState) (s : ℕ) (ac : Ac) : XmitState :=
  { st with staQueue := put st.staQueue ac s }

/-- `list_del_init(&ptxservq->tx_pending)`. -/
def unlinkServq (st : XmitState) (s : ℕ) (ac : Ac) : XmitState :=
  { st with staQueue := Function.update st.staQueue ac ((st.staQueue ac).erase s) }

/-- The end of `rtw_xmit_classifier` (lines 2100–2113). -/
def enqueueServq (st : XmitState) (s x : ℕ) : XmitState :=
  let ac := acIndex (st.attrib x).txPriority
  let st := if s ∈ st.staQueue ac then st else linkServq st s ac
  { st with queue := put st.queue (.staPending s ac) x }

/-- `rtw_xmit_classifier` (lines 2067–2122); `none` is `_FAIL`. -/
def rtwXmitClassifier (st : XmitState) (x : ℕ) : Option XmitState :=
  let attrib := st.attrib x
  let psta := e.rtwGetStainfo attrib.ra
  if attrib.psta ≠ psta then none
  else
    match psta with
    | none => none
    | some s =>
      if (e.sta s).fwLinked = false then none else some (enqueueServq st s x)

/-- `rtl8812au_hal_xmitframe_enqueue` (`trx.c`, lines 864–883), with its result. -/
def halXmitframeEnqueue (st : XmitState) (x : ℕ) : Bool × XmitState :=
  match rtwXmitClassifier e st x with
  | some st => (true, st)
  | none => (false, rtwFreeXmitframe st x)

/-- The loop of `rtw_dequeue_xframe` over one hardware queue (lines 1994–2018);
    `dequeue_one_xmitframe` unlinks the first frame of a service queue. -/
def dequeueHwxmit (st : XmitState) (ac : Ac) : List ℕ → Option (ℕ × XmitState)
  | [] => none
  | s :: rest =>
    match st.queue (.staPending s ac) with
    | [] => dequeueHwxmit st ac rest
    | x :: _ =>
      let st := { st with queue := del st.queue x }
      let st := if st.queue (.staPending s ac) = [] then unlinkServq st s ac else st
      some (x, st)

/-- `rtw_dequeue_xframe` (lines 1971–2029). -/
def rtwDequeueXframe (st : XmitState) : Option (ℕ × XmitState) :=
  [Ac.vo, .vi, .be, .bk].findSome? fun ac => dequeueHwxmit st ac (st.staQueue ac)

/-! ## Into the sleep queue -/

/-- The lengths and the bitmaps of a station change. -/
def setSleep (st : XmitState) (s : ℕ) (f : StaSleep → StaSleep) : XmitState :=
  { st with sleep := Function.update st.sleep s (f (st.sleep s)) }

/-- The last part of `xmitframe_enqueue_for_sleeping_sta` for a group address (lines
    2293–2306). -/
def bufferBcmc (st : XmitState) (s x : ℕ) : XmitState :=
  let st := setSleep st s fun sl => { sl with sleepqLen := incU32 sl.sleepqLen }
  { st with
    queue := move st.queue (.sleepQ s) x
    slept := st.slept ++ [x]
    timBitmap := st.timBitmap ||| bit 0
    staDzBitmap := st.staDzBitmap ||| bit 0 }

/-- The same for the address of one station (lines 2329–2372). -/
def bufferUnicast (st : XmitState) (s x : ℕ) : XmitState :=
  let sta := e.sta s
  let wmmpsAc := sta.wmmpsAc (st.attrib x).txPriority 0
  let st := setSleep st s fun sl =>
    { sl with
      sleepqLen := incU32 sl.sleepqLen
      sleepqAcLen := if wmmpsAc then incU32 sl.sleepqAcLen else sl.sleepqAcLen }
  { st with
    queue := move st.queue (.sleepQ s) x
    slept := st.slept ++ [x]
    timBitmap :=
      if (sta.hasLegacyAc ∧ ¬wmmpsAc) ∨ (¬sta.hasLegacyAc ∧ wmmpsAc) then
        st.timBitmap ||| bit sta.aid
      else st.timBitmap }

/-- `xmitframe_enqueue_for_sleeping_sta` (lines 2234–2388), with its result. -/
def xmitframeEnqueueForSleepingSta (st : XmitState) (x : ℕ) : Bool × XmitState :=
  let attrib := st.attrib x
  let flags := st.flags x
  let psta := e.rtwGetStainfo attrib.ra
  if e.wifiApState = false then (false, st)
  else if attrib.psta ≠ psta then (false, st)
  else
    match psta with
    | none => (false, st)
    | some s =>
      if (e.sta s).fwLinked = false then (false, st)
      else if flags.triggered then
        if isMulticast attrib.ra then
          (false, { st with flags := Function.update st.flags x { flags with txQsel := 0x11 } })
        else (false, st)
      else if isMulticast attrib.ra then
        if st.staDzBitmap ≠ 0 then (true, bufferBcmc st s x) else (false, st)
      else if (st.sleep s).sleepState ∧ st.staDzBitmap &&& bit (e.sta s).aid ≠ 0 then
        (true, bufferUnicast e st s x)
      else (false, st)

/-- `dequeue_xmitframes_to_sleeping_queue` (lines 2391–2420). -/
def dequeueXmitframesToSleepingQueue (st : XmitState) (s : ℕ) (ac : Ac) : XmitState :=
  (st.queue (.staPending s ac)).foldl (fun st x => (xmitframeEnqueueForSleepingSta e st x).2) st

/-- One service queue in `stop_sta_xmit`: its frames, then its link. -/
def stopServq (st : XmitState) (s : ℕ) (ac : Ac) : XmitState :=
  unlinkServq (dequeueXmitframesToSleepingQueue e st s ac) s ac

/-- The first two assignments of `stop_sta_xmit`. -/
def markAsleep (st : XmitState) (s : ℕ) : XmitState :=
  let st := setSleep st s fun sl => { sl with sleepState := true }
  { st with staDzBitmap := st.staDzBitmap ||| bit (e.sta s).aid }

/-- `stop_sta_xmit` (lines 2422–2464). The source reads the station for broadcast
    without a test; it exists from the initialisation on. -/
def stopStaXmit (st : XmitState) (s : ℕ) : XmitState :=
  let st := markAsleep e st s
  let st := stopServq e st s .vo
  let st := stopServq e st s .vi
  let st := stopServq e st s .be
  let st := stopServq e st s .bk
  match e.rtwGetBcmcStainfo with
  | some b => stopServq e st b .be
  | none => st

/-! ## Out of the sleep queue -/

/-- What every release does first: the frame leaves its queue, the lengths and the
    flags are written. -/
def unlinkFrame (st : XmitState) (s x : ℕ) (sleepqLen sleepqAcLen : ℕ) (flags : PktFlags) :
    XmitState :=
  let queue := del st.queue x
  let release : Release :=
    { psta := s, frame := x, flags := flags, left := queue (.sleepQ s)
      sleepqLen := sleepqLen, sleepqAcLen := sleepqAcLen }
  let st := setSleep st s fun sl =>
    { sl with sleepqLen := sleepqLen, sleepqAcLen := sleepqAcLen }
  { st with
    queue := queue
    flags := Function.update st.flags x flags
    releases := st.releases ++ [release] }

/-- A release: then the frame goes to `hal_xmitframe_enqueue`. -/
def releaseFrame (st : XmitState) (s x : ℕ) (sleepqLen sleepqAcLen : ℕ) (flags : PktFlags) :
    XmitState :=
  (halXmitframeEnqueue e (unlinkFrame st s x sleepqLen sleepqAcLen flags) x).2

/-- The body of the first loop of `wakeup_sta_to_xmit` (lines 2484–2541). -/
def wakeupFrame (s : ℕ) (st : XmitState) (x : ℕ) : XmitState :=
  let wmmpsAc := (e.sta s).wmmpsAc (st.attrib x).txPriority 1
  let len := decU32 (st.sleep s).sleepqLen
  let acLen := if wmmpsAc then decU32 (st.sleep s).sleepqAcLen else (st.sleep s).sleepqAcLen
  let flags := { st.flags x with mdata := decide (0 < len), triggered := true }
  let flags :=
    if wmmpsAc then { flags with mdata := decide (0 < acLen), eosp := !decide (0 < acLen) }
    else flags
  releaseFrame e st s x len acLen flags

/-- The body of its second loop (lines 2556–2578). -/
def wakeupBcmcFrame (b : ℕ) (st : XmitState) (x : ℕ) : XmitState :=
  let len := decU32 (st.sleep b).sleepqLen
  let flags := { st.flags x with mdata := decide (0 < len), triggered := true }
  releaseFrame e st b x len (st.sleep b).sleepqAcLen flags

/-- `wakeup_sta_to_xmit` between its loops and `_exit` (lines 2593–2609). -/
def wakeupDone (st : XmitState) (s : ℕ) : XmitState :=
  if (st.sleep s).sleepqLen = 0 then
    let st := setSleep st s fun sl =>
      { sl with
        sleepState := false
        expireTo := if sl.aliveChk then e.expireTo else sl.expireTo
        aliveChk := false }
    { st with
      timBitmap := st.timBitmap &&& ~~~bit (e.sta s).aid
      staDzBitmap := st.staDzBitmap &&& ~~~bit (e.sta s).aid }
  else st

/-- `wakeup_sta_to_xmit` (lines 2466–2622). -/
def wakeupStaToXmit (st : XmitState) (s : ℕ) : XmitState :=
  let st := (st.queue (.sleepQ s)).foldl (wakeupFrame e s) st
  match e.rtwGetBcmcStainfo with
  | none => st
  | some b =>
    let st :=
      if st.staDzBitmap &&& 0xfffe = 0 then
        let st := (st.queue (.sleepQ b)).foldl (wakeupBcmcFrame e b) st
        if (st.sleep b).sleepqLen = 0 then
          { st with
            timBitmap := st.timBitmap &&& ~~~bit 0
            staDzBitmap := st.staDzBitmap &&& ~~~bit 0 }
        else st
      else st
    wakeupDone e st s

/-- The body of the loop of `xmit_delivery_enabled_frames` (lines 2638–2699). -/
def deliveryFrame (s : ℕ) (st : XmitState) (x : ℕ) : XmitState :=
  let sta := e.sta s
  if sta.wmmpsAc (st.attrib x).txPriority 1 = false then st
  else
    let len := decU32 (st.sleep s).sleepqLen
    let acLen := decU32 (st.sleep s).sleepqAcLen
    let flags :=
      { st.flags x with
        mdata := decide (0 < acLen), eosp := !decide (0 < acLen), triggered := true }
    let st := releaseFrame e st s x len acLen flags
    if (st.sleep s).sleepqAcLen = 0 ∧ sta.hasLegacyAc = false then
      { st with timBitmap := st.timBitmap &&& ~~~bit sta.aid }
    else st

/-- `xmit_delivery_enabled_frames` (lines 2624–2704). -/
def xmitDeliveryEnabledFrames (st : XmitState) (s : ℕ) : XmitState :=
  (st.queue (.sleepQ s)).foldl (deliveryFrame e s) st

/-- The PS-Poll is answered: the head of the sleep queue, if any (`rtw_recv.c`, lines
    1181–1251). -/
def answerPsPoll (st : XmitState) (s : ℕ) : XmitState :=
  match st.queue (.sleepQ s) with
  | x :: _ =>
    let len := decU32 (st.sleep s).sleepqLen
    let flags := { st.flags x with mdata := decide (0 < len), triggered := true }
    let st := releaseFrame e st s x len (st.sleep s).sleepqAcLen flags
    if (st.sleep s).sleepqLen = 0 then
      { st with timBitmap := st.timBitmap &&& ~~~bit (e.sta s).aid }
    else st
  | [] =>
    if st.timBitmap &&& bit (e.sta s).aid ≠ 0 then
      let st := setSleep st s fun sl => { sl with sleepqLen := 0 }
      { st with timBitmap := st.timBitmap &&& ~~~bit (e.sta s).aid }
    else st

/-- `validate_recv_ctrl_frame` on a PS-Poll to this station (lines 1132–1251). -/
def recvPsPoll (st : XmitState) (addr2 : MacAddr) (aid priority : ℕ) : XmitState :=
  match e.rtwGetStainfo addr2 with
  | none => st
  | some s =>
    let sta := e.sta s
    if sta.aid ≠ aid then st
    else if sta.wmmpsAc priority 0 then st
    else
      let st :=
        if (st.sleep s).aliveChk then
          setSleep st s fun sl => { sl with expireTo := e.expireTo, aliveChk := false }
        else st
      if (st.sleep s).sleepState ∧ st.staDzBitmap &&& bit sta.aid ≠ 0 then answerPsPoll e st s
      else st

/-! ## Operations -/

/-- One operation on the queues. -/
inductive XmitOp where
  | enqueue (attrib : PktAttrib)
  | buffer (attrib : PktAttrib)
  | dequeue
  | complete (frame : ℕ)
  | stop (psta : ℕ)
  | wakeup (psta : ℕ)
  | delivery (psta : ℕ)
  | psPoll (addr2 : MacAddr) (aid priority : ℕ)

/-- `rtw_alloc_xmitframe` and `update_attrib`: the next frame, with cleared flags. -/
def arrive (st : XmitState) (attrib : PktAttrib) : XmitState :=
  { st with
    toFrames := st.toFrames.arrive attrib
    flags := Function.update st.flags st.arrived { txQsel := attrib.txPriority } }

/-- A frame is taken over by the queues or released. -/
def takeOver (x : ℕ) : Bool × XmitState → XmitState
  | (true, st) => { st with accepted := st.accepted ++ [x] }
  | (false, st) => st

/-- One step. Without a free frame nothing arrives; a frame that is not buffered goes
    on to `hal_xmit`, which is `enqueue` or a direct transmission. -/
def xmitStep (st : XmitState) : XmitOp → XmitState
  | .enqueue attrib =>
    if st.freeXmitframeCnt = 0 then st
    else takeOver st.arrived (halXmitframeEnqueue e (arrive st attrib) st.arrived)
  | .buffer attrib =>
    if st.freeXmitframeCnt = 0 then st
    else
      match xmitframeEnqueueForSleepingSta e (arrive st attrib) st.arrived with
      | (true, st') => takeOver st.arrived (true, st')
      | (false, st') => rtwFreeXmitframe st' st.arrived
  | .dequeue =>
    match rtwDequeueXframe st with
    | some (x, st') => { st' with queue := put st'.queue .handed x }
    | none => st
  | .complete x =>
    if x ∈ st.queue .handed ∧ x ∉ st.freed then
      { st with freeXmitframeCnt := st.freeXmitframeCnt + 1, freed := st.freed ++ [x] }
    else st
  | .stop s => stopStaXmit e st s
  | .wakeup s => wakeupStaToXmit e st s
  | .delivery s => xmitDeliveryEnabledFrames e st s
  | .psPoll addr2 aid priority => recvPsPoll e st addr2 aid priority

end Rtl8821au.Xmit
