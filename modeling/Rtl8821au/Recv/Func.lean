import Rtl8821au.Recv.BlockAck
import Rtl8821au.Recv.Decrypt
import Rtl8821au.Recv.Defrag

/-!
# The receive path

`recv_func` (`rtw_recv.c`) takes a frame from the pool through validation, decryption,
defragmentation, port control and reordering. The frames are in the free queue of
`struct recv_priv`, in the queues of the stations, or in the queue of frames that wait
for the pairwise key.

* `RecvPriv`: the queues, and a log of what left them.
* `recvFunc`: one received frame.
* `rxStep`: a received frame, an expiry of a reorder timer, or a change of a station.
-/

namespace Rtl8821au.Recv

/-! ## State -/

/-- What a call of the receive path reads. `pstaAddr` is where the variable
    `psta_addr` of `portctrl` points and `mickey` what that of `recvframe_chkmic`
    points to: both are used without having been set. -/
structure RecvEnv where
  priv : RtlPriv
  drv : DriverState := {}
  pstaAddr : Option MacAddr := none
  mickey : Bytes := List.replicate 16 0

/-- What `recvframe_chkmic` reads of it. `bcheck_grpkey`, which it writes, is read
    nowhere else. -/
def RecvEnv.micContext (env : RecvEnv) : MicContext :=
  { rxmickey := fun ta => (env.priv.rtwGetStainfo ta).map fun i => (env.priv.sta i).dot11tkiprxmickey
    mickey := env.mickey, binstallGrpkey := env.priv.binstallGrpkey
    bcheckGrpkey := env.priv.bcheckGrpkey, keyIndex := env.priv.mlmeKeyIndex }

/-- What the receive path gives away. -/
inductive RxOut where
  /-- `rtw_free_recvframe`: the `sk_buff` is freed with the frame. -/
  | freed (f : RecvFrame)
  | event (e : RecvEvent)
  | effect (e : RxEffect)

/-- `struct recv_priv` (`rtw_recv.h`, lines 236–290) and the receive members of the
    stations, by their index in `pstainfo_buf`. `message` is the static buffer of
    `aes_decipher`; `log` and `arrived` are what was given away and how many buffers
    came in so far. -/
structure RecvPriv where
  freeRecvQueue : List ℕ := List.range 256
  freeRecvframeCnt : ℕ := 256
  ucSwdecPendingQueue : List RecvFrame := []
  defragQ : ℕ → List RecvFrame := fun _ => []
  recvreorderCtrl : ℕ → ℕ → RecvReorderCtrl := fun _ _ => preorderAlloc
  tidRxseq : ℕ → ℕ → ℕ := fun _ _ => 0xFFFF
  message : Bytes := List.replicate 2048 0
  log : List RxOut := []
  arrived : ℕ := 0

namespace RecvPriv

variable (s : RecvPriv)

/-- `defrag_q` of one station. -/
def setDefragQ (psta : ℕ) (q : List RecvFrame) : RecvPriv :=
  { s with defragQ := Function.update s.defragQ psta q }

/-- `recvreorder_ctrl[tid]` of one station. -/
def setReorder (psta tid : ℕ) (c : RecvReorderCtrl) : RecvPriv :=
  { s with recvreorderCtrl :=
      Function.update s.recvreorderCtrl psta (Function.update (s.recvreorderCtrl psta) tid c) }

def record (out : List RxOut) : RecvPriv := { s with log := s.log ++ out }

/-- The frames of a queue that are not at `addr`. -/
def without (addr : ℕ) (q : List RecvFrame) : List RecvFrame := q.filter fun f => f.addr != addr

/-- `list_del_init(&precvframe->list)`. -/
def unlink (addr : ℕ) : RecvPriv :=
  { s with
    freeRecvQueue := s.freeRecvQueue.erase addr
    ucSwdecPendingQueue := without addr s.ucSwdecPendingQueue
    defragQ := fun i => without addr (s.defragQ i)
    recvreorderCtrl := fun i tid =>
      { s.recvreorderCtrl i tid with pending := without addr (s.recvreorderCtrl i tid).pending } }

/-- The list operations of `rtw_free_recvframe` (lines 202–227). -/
def giveBack (addr : ℕ) : RecvPriv :=
  { s.unlink addr with
    freeRecvQueue := (s.unlink addr).freeRecvQueue ++ [addr]
    freeRecvframeCnt := s.freeRecvframeCnt + 1 }

/-- `rtw_free_recvframe` on a frame that has its `sk_buff`. -/
def rtwFreeRecvframe (f : RecvFrame) : RecvPriv := (s.giveBack f.addr).record [.freed f]

/-- `rtw_free_recvframe_queue` (lines 281–307) on frames that were taken out of their
    queue. -/
def freeAll (fs : List RecvFrame) : RecvPriv := fs.foldl rtwFreeRecvframe s

/-- `rtw_recv_indicatepkt` (`recv_linux.c`, lines 314–358) and `amsdu_to_msdu` end
    with `rtw_free_recvframe` on a frame without its `sk_buff`. -/
def handOn : RecvEvent → RecvPriv
  | .indicate f => (s.giveBack f.addr).record [.event (.indicate f)]
  | .deaggregate f => (s.giveBack f.addr).record [.event (.deaggregate f)]
  | .forget f => s.record [.event (.forget f)]

def handOnAll (events : List RecvEvent) : RecvPriv := events.foldl handOn s

end RecvPriv

/-! ## Model of the C code -/

section stages

variable (env : RecvEnv) (s : RecvPriv)

/-- The station whose `defrag_q` `recvframe_chk_defrag` uses (lines 1790–1802). -/
def defragSta (priv : RtlPriv) (f : RecvFrame) : Option ℕ :=
  match priv.rtwGetStainfo f.attrib.ta with
  | some psta => some psta
  | none => if getFrameType f ≠ .data then some priv.bcmc else none

/-- `recvframe_chk_defrag` on the queue of the station. -/
def chkDefrag (f : RecvFrame) : RecvPriv × Option RecvFrame :=
  match defragSta env.priv f with
  | none =>
    let r := recvframeChkDefrag env.micContext none f
    (s.freeAll r.freed, r.ret)
  | some psta =>
    let r := recvframeChkDefrag env.micContext (some (s.defragQ psta)) f
    ((s.setDefragQ psta r.queue).freeAll r.freed, r.ret)

/-- `portctrl` (lines 571–641): whether the frame goes on. -/
def portctrl (f : RecvFrame) : Bool :=
  if env.priv.dot11AuthAlgrthm = .ieee8021X then
    match env.pstaAddr.bind env.priv.rtwGetStainfo with
    | some psta =>
      if (env.priv.sta psta).ieee8021xBlocked then
        let ptr := f.attrib.hdrlen + f.attrib.ivLen + 6
        be16 (f.byteAt ptr) (f.byteAt (ptr + 1)) == 0x888e
      else true
    | none => true
  else true

/-- `process_recv_indicatepkts` (lines 2363–2410). -/
def processRecvIndicatepkts (f : RecvFrame) : RecvPriv × Status :=
  if env.priv.htOption then
    let r := recvIndicatepktReorder env.drv (s.recvreorderCtrl f.psta f.attrib.priority) f
    ((s.setReorder f.psta f.attrib.priority r.ctrl).handOnAll r.events,
      if r.status ≠ .success ∧ env.drv.running then .fail else .success)
  else if env.drv.running then (s.handOn (.indicate (wlanhdrToEthhdr f)), .success)
  else (s, .fail)

/-- `recv_func_posthandle` from `process_recv_indicatepkts` on (lines 2458–2470). -/
def indicateOrFree (origPrframe f : RecvFrame) : RecvPriv :=
  let r := processRecvIndicatepkts env s f
  if r.2 ≠ .success then r.1.rtwFreeRecvframe origPrframe else r.1

/-- `recv_func_posthandle` (lines 2434–2478). -/
def recvFuncPosthandle (prframe : RecvFrame) : RecvPriv :=
  let r := decryptor env.priv s.message prframe
  let s := { s with message := r.message }
  match r.ret with
  | none => s.freeAll r.freed
  | some f =>
    match chkDefrag env s f with
    | (s, none) => s
    | (s, some f) =>
      if portctrl env f then indicateOrFree env s prframe f else s.rtwFreeRecvframe f

/-- The frames that wait for the pairwise key (lines 2492–2500). -/
def drainUcSwdec : RecvPriv → List RecvFrame → RecvPriv
  | s, [] => s
  | s, f :: q => drainUcSwdec (recvFuncPosthandle env { s with ucSwdecPendingQueue := q } f) q

/-- The frame waits for the pairwise key (lines 2505–2510). -/
def parks (priv : RtlPriv) (f : RecvFrame) : Bool :=
  priv.fwState.station && !isMulticast f.attrib.ra && f.attrib.encrypt != .noPrivacy &&
    (!f.attrib.bdecrypted || priv.swDecrypt) &&
    !(priv.dot11PrivacyAlgrthm == .wep40 || priv.dot11PrivacyAlgrthm == .wep104) &&
    !priv.busetkipkey

/-- The frame that `recv_func_posthandle` passes to `portctrl`. -/
def portctrlFrame (prframe : RecvFrame) : Option RecvFrame :=
  (decryptor env.priv s.message prframe).ret.bind fun g =>
    (recvframeChkDefrag env.micContext ((defragSta env.priv g).map s.defragQ) g).ret

/-- The calls of `recv_func_posthandle` for the frames that waited for the key. -/
def drainCalls : RecvPriv → List RecvFrame → List (RecvPriv × RecvFrame)
  | _, [] => []
  | s, f :: q =>
    ({ s with ucSwdecPendingQueue := q }, f) ::
      drainCalls (recvFuncPosthandle env { s with ucSwdecPendingQueue := q } f) q

end stages

/-- What happens to the receive queues of the stations, mostly on behalf of received
    management frames. -/
inductive StaQueueOp where
  /-- `_rtw_init_stainfo` and the end of `rtw_alloc_stainfo`. -/
  | rtwAllocStainfo (psta : ℕ)
  /-- `rtw_free_stainfo`: the reorder queues are emptied. -/
  | rtwFreeStainfo (psta : ℕ)
  | processAddbaReq (psta tid : ℕ) (bAcceptAddbaReq : Bool)
  | onActionDelba (psta tid : ℕ)
  | sendDelba (psta : ℕ)
  /-- `rtw_joinbss_update_stainfo` on one station. -/
  | rtwJoinbssUpdateStainfo (psta : ℕ)
  | rtwFreeUcSwdecPendingQueue

/-- The reorder queues of one station (`rtw_sta_mgt.c`, lines 456–489). -/
def freeReorderQueues (s : RecvPriv) (psta : ℕ) : List ℕ → RecvPriv
  | [] => s
  | tid :: tids =>
    let c := s.recvreorderCtrl psta tid
    freeReorderQueues
      ((s.setReorder psta tid { c with pending := [], timer := false }).freeAll c.pending) psta tids

/-- One change of the queues. -/
def staQueueStep (s : RecvPriv) : StaQueueOp → RecvPriv
  | .rtwAllocStainfo psta =>
    { s.setDefragQ psta [] with
      recvreorderCtrl := Function.update s.recvreorderCtrl psta fun _ => preorderAlloc
      tidRxseq := Function.update s.tidRxseq psta fun _ => 0xFFFF }
  | .rtwFreeStainfo psta => freeReorderQueues s psta (List.range 16)
  | .processAddbaReq psta tid bAcceptAddbaReq =>
    s.setReorder psta tid (processAddbaReq bAcceptAddbaReq (s.recvreorderCtrl psta tid))
  | .onActionDelba psta tid => s.setReorder psta tid (onActionDelba (s.recvreorderCtrl psta tid))
  | .sendDelba psta =>
    { s with recvreorderCtrl :=
        Function.update s.recvreorderCtrl psta fun tid => sendDelba (s.recvreorderCtrl psta tid) }
  | .rtwJoinbssUpdateStainfo psta =>
    { s with recvreorderCtrl :=
        Function.update s.recvreorderCtrl psta fun tid =>
          { s.recvreorderCtrl psta tid with enable := false, indicateSeq := 0xFFFF, wsizeB := 64 } }
  | .rtwFreeUcSwdecPendingQueue =>
    { s with ucSwdecPendingQueue := [] }.freeAll s.ucSwdecPendingQueue

section recvFunc

variable (env : RecvEnv) (s : RecvPriv)

/-- `validate_recv_mgnt_frame` (lines 1262–1296): `mgt` is what `mgt_dispatcher` does
    to the queues. -/
def validateRecvMgntFrame (mgt : List StaQueueOp) (f : RecvFrame) : RecvPriv :=
  match chkDefrag env s f with
  | (s, none) => s
  | (s, some _) => mgt.foldl staQueueStep s

/-- `validate_recv_frame` (lines 1422–1495). Control frames, which leave the receive
    queues alone, are dropped. -/
def validateRecvFrame (mgt : List StaQueueOp) (f : RecvFrame) : RecvPriv × Status × RecvFrame :=
  if frameVersion f ≠ 0 then (s, .fail, f)
  else
    let f := f.setAttrib (parseHeader f)
    match getFrameType f with
    | .mgt => (validateRecvMgntFrame env s mgt f, .fail, f)
    | .data =>
      let r := validateRecvDataFrame env.priv s.tidRxseq (f.setAttrib (parseQos f))
      ({ s with tidRxseq := r.tidRxseq }.record (r.effects.map .effect), r.status, r.frame)
    | .ctrl | .reserved => (s, .fail, f)

/-- `recv_func` from `recv_func_prehandle` on (lines 2502–2521). -/
def recvFuncNew (mgt : List StaQueueOp) (rframe : RecvFrame) : RecvPriv :=
  match validateRecvFrame env s mgt rframe with
  | (s, .success, f) =>
    if parks env.priv f then { s with ucSwdecPendingQueue := s.ucSwdecPendingQueue ++ [f] }
    else recvFuncPosthandle env s f
  | (s, _, f) => s.rtwFreeRecvframe f

/-- `recv_func` (lines 2481–2521). -/
def recvFunc (mgt : List StaQueueOp) (rframe : RecvFrame) : RecvPriv :=
  let s := if env.priv.fwState.station && env.priv.busetkipkey then
      drainUcSwdec env s s.ucSwdecPendingQueue
    else s
  recvFuncNew env s mgt rframe

/-- The call of `recv_func_posthandle` for a received frame. -/
def newCalls (rframe : RecvFrame) : List (RecvPriv × RecvFrame) :=
  match validateRecvFrame env s [] rframe with
  | (s, .success, f) => if parks env.priv f then [] else [(s, f)]
  | (_, _, _) => []

/-- The calls of `recv_func_posthandle` during a call of `recv_func`. -/
def recvCalls (rframe : RecvFrame) : List (RecvPriv × RecvFrame) :=
  if env.priv.fwState.station && env.priv.busetkipkey then
    drainCalls env s s.ucSwdecPendingQueue ++
      newCalls env (drainUcSwdec env s s.ucSwdecPendingQueue) rframe
  else newCalls env s rframe

/-- `recvbuf2recvframe` (`usb_ops_linux.c`, lines 36–135) on one frame without errors;
    the tasklet drops it when the driver is stopped. -/
def recvbuf2recvframe (mgt : List StaQueueOp) (f : RecvFrame) : RecvPriv :=
  if env.drv.running then
    match s.freeRecvQueue with
    | [] => s
    | a :: q =>
      recvFunc env
        { s with freeRecvQueue := q, freeRecvframeCnt := s.freeRecvframeCnt - 1
                 arrived := s.arrived + 1 }
        mgt { f with addr := a, skb := some s.arrived }
  else s

/-- The calls of `recv_func_posthandle` when a frame is received. -/
def rxCalls (f : RecvFrame) : List (RecvPriv × RecvFrame) :=
  if env.drv.running then
    match s.freeRecvQueue with
    | [] => []
    | a :: q =>
      recvCalls env
        { s with freeRecvQueue := q, freeRecvframeCnt := s.freeRecvframeCnt - 1
                 arrived := s.arrived + 1 }
        { f with addr := a, skb := some s.arrived }
  else []

/-- The frames that `portctrl` gets when a frame is received. -/
def rxPortctrlFrames (f : RecvFrame) : List RecvFrame :=
  (rxCalls env s f).filterMap fun c => portctrlFrame env c.1 c.2

end recvFunc

/-! ## Steps -/

/-- What the receive path does next. -/
inductive RxOp where
  | recv (env : RecvEnv) (mgt : List StaQueueOp) (f : RecvFrame)
  | timeout (drv : DriverState) (psta tid : ℕ)
  | sta (op : StaQueueOp)

/-- One step of the receive path. -/
def rxStep (s : RecvPriv) : RxOp → RecvPriv
  | .recv env mgt f => recvbuf2recvframe env s mgt f
  | .timeout drv psta tid =>
    let r := rtwReorderingCtrlTimeoutHandler drv (s.recvreorderCtrl psta tid)
    (s.setReorder psta tid r.1).handOnAll r.2
  | .sta op => staQueueStep s op

/-! ## What the stages return -/

/-- The frame and its buffer. -/
def RecvFrame.ident (f : RecvFrame) : ℕ × Option ℕ := (f.addr, f.skb)

/-- `g` was made of `f`: the same frame of the pool with the same attributes, but for
    the length of the ICV. -/
structure MadeOf (f g : RecvFrame) : Prop where
  ident : g.ident = f.ident
  psta : g.psta = f.psta
  attrib : ∃ icvLen, g.attrib = { f.attrib with icvLen := icvLen }

theorem MadeOf.refl (f : RecvFrame) : MadeOf f f := ⟨rfl, rfl, f.attrib.icvLen, rfl⟩

theorem MadeOf.trans {f g h : RecvFrame} (hfg : MadeOf f g) (hgh : MadeOf g h) : MadeOf f h := by
  refine ⟨hgh.ident.trans hfg.ident, hgh.psta.trans hfg.psta, ?_⟩
  obtain ⟨n, hn⟩ := hfg.attrib
  obtain ⟨m, hm⟩ := hgh.attrib
  exact ⟨m, by rw [hm, hn]⟩

theorem recvframePullTail_madeOf (f : RecvFrame) (sz : ℕ) : MadeOf f (recvframePullTail f sz) := by
  refine ⟨by simp [RecvFrame.ident], ?_, f.attrib.icvLen, by simp⟩
  unfold recvframePullTail
  split <;> rfl

theorem appendFragment_madeOf (pr next : RecvFrame) : MadeOf pr (appendFragment pr next) := by
  have hput : ∀ (f : RecvFrame) (n : ℕ), (recvframePut f n).psta = f.psta := by
    intro f n
    unfold recvframePut
    split <;> rfl
  refine ⟨by simp [RecvFrame.ident], ?_, next.attrib.icvLen, by simp [appendFragment,
    RecvFrame.setIcvLen]⟩
  exact (hput _ _).trans (recvframePullTail_madeOf pr pr.attrib.icvLen).psta

theorem defragLoop_madeOf {num : ℕ} {pr r : RecvFrame} {q : List RecvFrame}
    (h : defragLoop num pr q = some r) : MadeOf pr r := by
  induction q generalizing num pr with
  | nil =>
    obtain rfl := Option.some.inj h
    exact MadeOf.refl pr
  | cons f q ih =>
    unfold defragLoop at h
    split_ifs at h
    exact (appendFragment_madeOf pr f).trans (ih h)

theorem chkDefragMic_some {sec : MicContext} {r : DefragResult} {g : RecvFrame}
    (h : (chkDefragMic sec r).ret = some g) :
    ∃ g₀, r.ret = some g₀ ∧ (g = g₀ ∨ g = recvframePullTail g₀ 8) := by
  unfold chkDefragMic at h
  cases hret : r.ret with
  | none =>
    rw [hret] at h
    dsimp only at h
    rw [hret] at h
    cases h
  | some g₀ =>
    rw [hret] at h
    dsimp only at h
    refine ⟨g₀, rfl, ?_⟩
    split_ifs at h with hp hmic
    · obtain rfl := Option.some.inj h
      by_cases henc : g₀.attrib.encrypt = .tkip
      · exact Or.inr (recvframeChkmic_frame henc hmic)
      · exact Or.inl (by rw [recvframeChkmic_other henc])
    · rw [hret] at h
      exact Or.inl (Option.some.inj h).symm

/-- A frame that goes on is the frame itself, or what its sender's queue and it make
    up; the Michael check may have taken eight bytes off its end. -/
theorem recvframeChkDefrag_ret {sec : MicContext} {pdefragQ : Option (List RecvFrame)}
    {f g : RecvFrame} (h : (recvframeChkDefrag sec pdefragQ f).ret = some g) :
    ∃ g₀, (g = g₀ ∨ g = recvframePullTail g₀ 8) ∧
      (f.attrib.fragNum = 0 ∧ g₀ = f ∨
        f.attrib.fragNum ≠ 0 ∧ ∃ pr q, pdefragQ = some (pr :: q) ∧ pr.attrib.fragNum = 0 ∧
          defragLoop 1 pr (q ++ [f]) = some g₀) := by
  unfold recvframeChkDefrag at h
  obtain ⟨g₀, hret, hg⟩ := chkDefragMic_some h
  refine ⟨g₀, hg, ?_⟩
  by_cases h0 : f.attrib.mfrag = 0 ∧ f.attrib.fragNum = 0
  · rw [if_pos h0] at hret
    exact Or.inl ⟨h0.2, (Option.some.inj hret).symm⟩
  rw [if_neg h0] at hret
  cases pdefragQ with
  | none =>
    dsimp only at hret
    split_ifs at hret
  | some q =>
    dsimp only at hret
    by_cases h1 : f.attrib.mfrag = 1
    · rw [if_pos h1] at hret
      split_ifs at hret
    rw [if_neg h1] at hret
    by_cases h3 : f.attrib.mfrag = 0
    · rw [if_neg (not_not_intro h3)] at hret
      have hfrag : f.attrib.fragNum ≠ 0 := fun hf => h0 ⟨h3, hf⟩
      obtain ⟨pr, q', hq, hpr, hloop⟩ := recvframeDefrag_ret hret
      refine Or.inr ⟨hfrag, ?_⟩
      cases q with
      | nil =>
        obtain ⟨rfl, -⟩ := List.cons.inj hq
        exact absurd hpr hfrag
      | cons x q =>
        obtain ⟨rfl, rfl⟩ := List.cons.inj hq
        exact ⟨x, q, rfl, hpr, hloop⟩
    · rw [if_pos h3] at hret
      cases hret

theorem recvframeChkDefrag_madeOf {sec : MicContext} {pdefragQ : Option (List RecvFrame)}
    {f g : RecvFrame} (h : (recvframeChkDefrag sec pdefragQ f).ret = some g) :
    (f.attrib.fragNum = 0 ∧ MadeOf f g) ∨
      (f.attrib.fragNum ≠ 0 ∧ ∃ pr ∈ pdefragQ.getD [], MadeOf pr g) := by
  obtain ⟨g₀, hg, hfrom⟩ := recvframeChkDefrag_ret h
  have hmade : MadeOf g₀ g := by
    rcases hg with rfl | rfl
    · exact MadeOf.refl _
    · exact recvframePullTail_madeOf g₀ 8
  rcases hfrom with ⟨h0, rfl⟩ | ⟨h0, pr, q, rfl, -, hloop⟩
  · exact Or.inl ⟨h0, hmade⟩
  · exact Or.inr ⟨h0, pr, List.mem_cons_self, (defragLoop_madeOf hloop).trans hmade⟩

theorem appendFragment_lenOk {pr next : RecvFrame} (h : pr.LenOk) :
    (appendFragment pr next).LenOk :=
  recvframePut_memcpy_lenOk (recvframePullTail_lenOk h) _ _

theorem defragLoop_lenOk {num : ℕ} {pr r : RecvFrame} {q : List RecvFrame}
    (h : defragLoop num pr q = some r) (hpr : pr.LenOk) : r.LenOk := by
  induction q generalizing num pr with
  | nil =>
    obtain rfl := Option.some.inj h
    exact hpr
  | cons f q ih =>
    unfold defragLoop at h
    split_ifs at h
    exact ih h (appendFragment_lenOk hpr)

/-- What `recvframe_chk_defrag` makes of frames whose lengths are right has a right
    length. -/
theorem recvframeChkDefrag_lenOk {sec : MicContext} {pdefragQ : Option (List RecvFrame)}
    {f g : RecvFrame} (h : (recvframeChkDefrag sec pdefragQ f).ret = some g) (hf : f.LenOk)
    (hq : ∀ p ∈ pdefragQ.getD [], p.LenOk) : g.LenOk := by
  obtain ⟨g₀, hg, hfrom⟩ := recvframeChkDefrag_ret h
  have hg₀ : g₀.LenOk := by
    rcases hfrom with ⟨-, rfl⟩ | ⟨-, pr, q, rfl, -, hloop⟩
    · exact hf
    · exact defragLoop_lenOk hloop (hq pr List.mem_cons_self)
  rcases hg with rfl | rfl
  · exact hg₀
  · exact recvframePullTail_lenOk hg₀

/-- `chkDefrag` in terms of the queue it uses. -/
theorem chkDefrag_ret (env : RecvEnv) (s : RecvPriv) (f : RecvFrame) :
    (Recv.chkDefrag env s f).2 =
      (recvframeChkDefrag env.micContext ((defragSta env.priv f).map s.defragQ) f).ret := by
  unfold Recv.chkDefrag
  cases defragSta env.priv f <;> rfl

/-! ## What the queues hold -/

/-- A place for a frame; `hand` is what a running function holds. -/
inductive Loc where
  | pool
  | hand
  | ucSwdec
  | defragQ (psta : ℕ)
  | reorder (psta tid : ℕ)
  deriving DecidableEq

/-- The frames that carry a buffer. -/
def RecvPriv.held (s : RecvPriv) (hand : List RecvFrame) : Loc → List RecvFrame
  | .pool => []
  | .hand => hand
  | .ucSwdec => s.ucSwdecPendingQueue
  | .defragQ psta => s.defragQ psta
  | .reorder psta tid => (s.recvreorderCtrl psta tid).pending

/-- Every frame in a queue is as its place asks. -/
def Queued (P : Loc → RecvFrame → Prop) (s : RecvPriv) : Prop :=
  ∀ l, ∀ f ∈ s.held [] l, P l f

@[simp] theorem setReorder_self (s : RecvPriv) (psta tid : ℕ) (c : RecvReorderCtrl) :
    (s.setReorder psta tid c).recvreorderCtrl psta tid = c := by
  simp [RecvPriv.setReorder]

theorem setReorder_of_ne (s : RecvPriv) {psta tid i j : ℕ} (c : RecvReorderCtrl)
    (h : ¬(i = psta ∧ j = tid)) :
    (s.setReorder psta tid c).recvreorderCtrl i j = s.recvreorderCtrl i j := by
  by_cases hi : i = psta
  · subst hi
    have hj : j ≠ tid := fun hj => h ⟨rfl, hj⟩
    simp [RecvPriv.setReorder, hj]
  · simp [RecvPriv.setReorder, hi]

section queued

variable {P : Loc → RecvFrame → Prop} {s : RecvPriv}

theorem mem_held_giveBack {l : Loc} {a : ℕ} {f : RecvFrame} (h : f ∈ (s.giveBack a).held [] l) :
    f ∈ s.held [] l ∧ f.addr ≠ a := by
  have hwithout : ∀ q : List RecvFrame, f ∈ RecvPriv.without a q → f ∈ q ∧ f.addr ≠ a := by
    intro q hf
    obtain ⟨hf, ha⟩ := List.mem_filter.mp hf
    exact ⟨hf, bne_iff_ne.mp ha⟩
  cases l with
  | pool => exact absurd h List.not_mem_nil
  | hand => exact absurd h List.not_mem_nil
  | ucSwdec => exact hwithout _ h
  | defragQ psta => exact hwithout _ h
  | reorder psta tid => exact hwithout _ h

theorem Queued.giveBack (h : Queued P s) (a : ℕ) : Queued P (s.giveBack a) :=
  fun l f hf => h l f (mem_held_giveBack hf).1

theorem Queued.rtwFreeRecvframe (h : Queued P s) (f : RecvFrame) :
    Queued P (s.rtwFreeRecvframe f) := h.giveBack f.addr

theorem Queued.freeAll (h : Queued P s) (fs : List RecvFrame) : Queued P (s.freeAll fs) := by
  induction fs generalizing s with
  | nil => exact h
  | cons f fs ih => exact ih (h.rtwFreeRecvframe f)

theorem Queued.handOnAll (h : Queued P s) (events : List RecvEvent) :
    Queued P (s.handOnAll events) := by
  induction events generalizing s with
  | nil => exact h
  | cons e events ih =>
    apply ih
    cases e with
    | indicate f => exact h.giveBack f.addr
    | deaggregate f => exact h.giveBack f.addr
    | forget f => exact h

theorem Queued.setDefragQ (h : Queued P s) {psta : ℕ} {q : List RecvFrame}
    (hq : ∀ f ∈ q, P (.defragQ psta) f) : Queued P (s.setDefragQ psta q) := by
  intro l f hf
  by_cases hl : l = .defragQ psta
  · subst hl
    have hself : (s.setDefragQ psta q).held [] (.defragQ psta) = q := Function.update_self _ _ _
    rw [hself] at hf
    exact hq f hf
  · refine h l f ?_
    cases l with
    | pool => exact hf
    | hand => exact hf
    | ucSwdec => exact hf
    | defragQ i =>
      have hi : i ≠ psta := fun hi => hl (hi ▸ rfl)
      have hsame : (s.setDefragQ psta q).defragQ i = s.defragQ i := Function.update_of_ne hi _ _
      rw [RecvPriv.held, hsame] at hf
      exact hf
    | reorder i tid => exact hf

theorem Queued.setReorder (h : Queued P s) {psta tid : ℕ} {c : RecvReorderCtrl}
    (hq : ∀ f ∈ c.pending, P (.reorder psta tid) f) : Queued P (s.setReorder psta tid c) := by
  intro l f hf
  cases l with
  | pool => exact h .pool f hf
  | hand => exact h .hand f hf
  | ucSwdec => exact h .ucSwdec f hf
  | defragQ i => exact h (.defragQ i) f hf
  | reorder i j =>
    by_cases hij : i = psta ∧ j = tid
    · obtain ⟨rfl, rfl⟩ := hij
      have hself : (s.setReorder i j c).held [] (.reorder i j) = c.pending := by
        rw [RecvPriv.held, setReorder_self]
      exact hq f (hself ▸ hf)
    · have hsame : (s.setReorder psta tid c).held [] (.reorder i j) = s.held [] (.reorder i j) := by
        rw [RecvPriv.held, setReorder_of_ne s c hij]
        rfl
      exact h (.reorder i j) f (hsame ▸ hf)

/-- A frame that is not a fragment. -/
def Whole (f : RecvFrame) : Prop := f.attrib.mfrag = 0 ∧ f.attrib.fragNum = 0

/-- What `recvframe_chk_defrag` leaves in the queue was there or is the new fragment. -/
theorem mem_recvframeChkDefrag_queue {sec : MicContext} {q : List RecvFrame} {f g : RecvFrame}
    (h : g ∈ (recvframeChkDefrag sec (some q) f).queue) : g ∈ q ∨ (g = f ∧ ¬Whole f) := by
  unfold recvframeChkDefrag at h
  rw [chkDefragMic_queue] at h
  dsimp only [Option.getD_some] at h
  split_ifs at h with hwhole
  · exact Or.inl h
  · exact Or.inr ⟨List.mem_singleton.mp h, hwhole⟩
  · rcases List.mem_append.mp h with h | h
    · exact Or.inl h
    · exact Or.inr ⟨List.mem_singleton.mp h, hwhole⟩
  · exact Or.inl h
  · rw [recvframeDefrag_queue] at h
    exact absurd h List.not_mem_nil

theorem Queued.chkDefrag (h : Queued P s) (env : RecvEnv) {f : RecvFrame}
    (hf : ¬Whole f → ∀ psta, defragSta env.priv f = some psta → P (.defragQ psta) f) :
    Queued P (chkDefrag env s f).1 := by
  unfold Recv.chkDefrag
  cases hsta : defragSta env.priv f with
  | none => exact h.freeAll _
  | some psta =>
    refine (h.setDefragQ fun g hg => ?_).freeAll _
    rcases mem_recvframeChkDefrag_queue hg with hg | ⟨rfl, hwhole⟩
    · exact h (.defragQ psta) g hg
    · exact hf hwhole psta hsta

theorem Queued.processRecvIndicatepkts (h : Queued P s) (env : RecvEnv) {f : RecvFrame}
    (hf : P (.reorder f.psta f.attrib.priority) (msduOf f)) :
    Queued P (processRecvIndicatepkts env s f).1 := by
  unfold Recv.processRecvIndicatepkts
  split_ifs
  · refine (h.setReorder fun g hg => ?_).handOnAll _
    have hperm := recvIndicatepktReorder_perm env.drv
      (s.recvreorderCtrl f.psta f.attrib.priority) f
    have hmem := hperm.mem_iff.mp (List.mem_append_left _ (List.mem_append_right _ hg))
    rcases List.mem_cons.mp hmem with rfl | hmem
    · rw [recvIndicatepktReorder_frame]
      exact hf
    · exact h (.reorder f.psta f.attrib.priority) g hmem
  · exact h.handOnAll [.indicate (wlanhdrToEthhdr f)]
  · exact h

theorem Queued.indicateOrFree (h : Queued P s) (env : RecvEnv) (orig : RecvFrame) {f : RecvFrame}
    (hf : P (.reorder f.psta f.attrib.priority) (msduOf f)) :
    Queued P (indicateOrFree env s orig f) := by
  unfold Recv.indicateOrFree
  dsimp only
  split_ifs
  · exact (h.processRecvIndicatepkts env hf).rtwFreeRecvframe orig
  · exact h.processRecvIndicatepkts env hf

/-- Only the queues matter. -/
theorem Queued.congr {s' : RecvPriv} (h : Queued P s) (hheld : ∀ l, s'.held [] l = s.held [] l) :
    Queued P s' := fun l f hf => h l f (hheld l ▸ hf)

theorem Queued.mono {Q : Loc → RecvFrame → Prop} (h : Queued P s) (hPQ : ∀ l f, P l f → Q l f) :
    Queued Q s := fun l f hf => hPQ l f (h l f hf)

theorem Queued.freeReorderQueues (h : Queued P s) (psta : ℕ) (tids : List ℕ) :
    Queued P (freeReorderQueues s psta tids) := by
  induction tids generalizing s with
  | nil => exact h
  | cons tid tids ih =>
    exact ih ((h.setReorder fun f hf => absurd hf List.not_mem_nil).freeAll _)

theorem Queued.updateReorder (h : Queued P s) (psta : ℕ) {c : ℕ → RecvReorderCtrl}
    (hc : ∀ tid, ∀ f ∈ (c tid).pending, f ∈ (s.recvreorderCtrl psta tid).pending) :
    Queued P { s with recvreorderCtrl := Function.update s.recvreorderCtrl psta c } := by
  intro l f hf
  cases l with
  | pool => exact absurd hf List.not_mem_nil
  | hand => exact absurd hf List.not_mem_nil
  | ucSwdec => exact h .ucSwdec f hf
  | defragQ i => exact h (.defragQ i) f hf
  | reorder i tid =>
    apply h (.reorder i tid) f
    by_cases hi : i = psta
    · subst hi
      have hself : Function.update s.recvreorderCtrl i c i tid = c tid := by
        rw [Function.update_self]
      apply hc tid f
      rw [← hself]
      exact hf
    · have hother : Function.update s.recvreorderCtrl psta c i tid = s.recvreorderCtrl i tid := by
        rw [Function.update_of_ne hi]
      show f ∈ (s.recvreorderCtrl i tid).pending
      rw [← hother]
      exact hf

/-- No change of a station puts a frame into a queue. -/
theorem Queued.staQueueStep (h : Queued P s) (op : StaQueueOp) : Queued P (staQueueStep s op) := by
  cases op with
  | rtwAllocStainfo psta =>
    have hempty : Queued P (s.setDefragQ psta []) :=
      h.setDefragQ fun f hf => absurd hf List.not_mem_nil
    have hinit := hempty.updateReorder psta (c := fun _ => preorderAlloc)
      fun _ f hf => absurd hf List.not_mem_nil
    exact hinit.congr fun l => by cases l <;> rfl
  | rtwFreeStainfo psta => exact h.freeReorderQueues psta _
  | processAddbaReq psta tid b => exact h.setReorder fun f hf => h (.reorder psta tid) f hf
  | onActionDelba psta tid => exact h.setReorder fun f hf => h (.reorder psta tid) f hf
  | sendDelba psta =>
    refine h.updateReorder psta fun tid f hf => ?_
    unfold sendDelba at hf
    split_ifs at hf <;> exact hf
  | rtwJoinbssUpdateStainfo psta => exact h.updateReorder psta fun tid f hf => hf
  | rtwFreeUcSwdecPendingQueue =>
    refine Queued.freeAll (fun l f hf => ?_) _
    cases l with
    | pool => exact absurd hf List.not_mem_nil
    | hand => exact absurd hf List.not_mem_nil
    | ucSwdec => exact absurd hf List.not_mem_nil
    | defragQ i => exact h (.defragQ i) f hf
    | reorder i tid => exact h (.reorder i tid) f hf

theorem Queued.staQueueSteps (h : Queued P s) (ops : List StaQueueOp) :
    Queued P (ops.foldl Recv.staQueueStep s) := by
  induction ops generalizing s with
  | nil => exact h
  | cons op ops ih => exact ih (h.staQueueStep op)

/-- The places that a change of a station empties. -/
def StaQueueOp.Empties : StaQueueOp → Loc → Prop
  | .rtwAllocStainfo i, .defragQ psta => psta = i
  | .rtwAllocStainfo i, .reorder psta _ => psta = i
  | .rtwFreeStainfo i, .reorder psta tid => psta = i ∧ tid < 16
  | _, _ => False

theorem freeReorderQueues_empties {psta tid : ℕ} {tids : List ℕ} (h : tid ∈ tids) :
    Queued (fun l _ => l ≠ .reorder psta tid) (freeReorderQueues s psta tids) := by
  induction tids generalizing s with
  | nil => exact absurd h List.not_mem_nil
  | cons t tids ih =>
    by_cases ht : tid = t
    · subst ht
      refine Queued.freeReorderQueues (Queued.freeAll ?_ _) psta tids
      intro l f hf hl
      subst hl
      rw [RecvPriv.held, setReorder_self] at hf
      exact List.not_mem_nil hf
    · exact ih ((List.mem_cons.mp h).resolve_left ht)

theorem Queued.staQueueStep_empties (h : Queued P s) (op : StaQueueOp) :
    Queued (fun l f => P l f ∧ ¬op.Empties l) (Recv.staQueueStep s op) := by
  intro l f hf
  refine ⟨h.staQueueStep op l f hf, fun hempty => ?_⟩
  cases op with
  | rtwAllocStainfo i =>
    cases l with
    | defragQ psta =>
      subst hempty
      have hnil : (s.setDefragQ psta []).defragQ psta = [] := Function.update_self _ _ _
      have hmem : f ∈ (s.setDefragQ psta []).defragQ psta := hf
      rw [hnil] at hmem
      exact List.not_mem_nil hmem
    | reorder psta tid =>
      subst hempty
      have hmem : f ∈ ((Function.update s.recvreorderCtrl psta fun _ => preorderAlloc) psta
        tid).pending := hf
      rw [Function.update_self] at hmem
      exact List.not_mem_nil hmem
    | pool => exact hempty
    | hand => exact hempty
    | ucSwdec => exact hempty
  | rtwFreeStainfo i =>
    cases l with
    | reorder psta tid =>
      obtain ⟨rfl, htid⟩ := hempty
      have hmem : tid ∈ List.range 16 := List.mem_range.mpr htid
      rw [Recv.staQueueStep] at hf
      generalize List.range 16 = tids at hf hmem
      exact freeReorderQueues_empties hmem _ f hf rfl
    | defragQ psta => exact hempty
    | pool => exact hempty
    | hand => exact hempty
    | ucSwdec => exact hempty
  | processAddbaReq i tid b => exact hempty
  | onActionDelba i tid => exact hempty
  | sendDelba i => exact hempty
  | rtwJoinbssUpdateStainfo i => exact hempty
  | rtwFreeUcSwdecPendingQueue => exact hempty

theorem Queued.staQueueSteps_empties (h : Queued P s) (ops : List StaQueueOp) :
    Queued (fun l f => P l f ∧ ∀ op ∈ ops, ¬op.Empties l) (ops.foldl Recv.staQueueStep s) := by
  induction ops generalizing s P with
  | nil => exact fun l f hf => ⟨h l f hf, fun op hop => absurd hop List.not_mem_nil⟩
  | cons op ops ih =>
    refine (ih (h.staQueueStep_empties op)).mono fun l f ⟨⟨hP, hop⟩, hops⟩ => ⟨hP, ?_⟩
    intro op' hop'
    rcases List.mem_cons.mp hop' with rfl | hop'
    · exact hop
    · exact hops op' hop'

end queued

/-! ## What is handed on -/

/-- Every event of the log is as `E` asks, every effect of an address check as `X` asks. -/
def Logged (E : RecvEvent → Prop) (X : RxEffect → Prop) (s : RecvPriv) : Prop :=
  (∀ e, RxOut.event e ∈ s.log → E e) ∧ ∀ x, RxOut.effect x ∈ s.log → X x

section logged

variable {E : RecvEvent → Prop} {X : RxEffect → Prop} {s : RecvPriv} {env : RecvEnv}

theorem Logged.record (h : Logged E X s) {out : List RxOut}
    (hE : ∀ e, RxOut.event e ∈ out → E e) (hX : ∀ x, RxOut.effect x ∈ out → X x) :
    Logged E X (s.record out) := by
  refine ⟨fun e he => ?_, fun x hx => ?_⟩
  · rcases List.mem_append.mp he with he | he
    · exact h.1 e he
    · exact hE e he
  · rcases List.mem_append.mp hx with hx | hx
    · exact h.2 x hx
    · exact hX x hx

theorem Logged.rtwFreeRecvframe (h : Logged E X s) (f : RecvFrame) :
    Logged E X (s.rtwFreeRecvframe f) :=
  Logged.record (s := s.giveBack f.addr) h (fun e he => by simp at he) fun x hx => by simp at hx

theorem Logged.freeAll (h : Logged E X s) (fs : List RecvFrame) : Logged E X (s.freeAll fs) := by
  induction fs generalizing s with
  | nil => exact h
  | cons f fs ih => exact ih (h.rtwFreeRecvframe f)

theorem Logged.handOn (h : Logged E X s) {e : RecvEvent} (he : E e) : Logged E X (s.handOn e) := by
  have hone : ∀ e', RxOut.event e' ∈ [RxOut.event e] → E e' := by
    intro e' he'
    obtain rfl := RxOut.event.inj (List.mem_singleton.mp he')
    exact he
  have hnone : ∀ x, RxOut.effect x ∈ [RxOut.event e] → X x := fun x hx => by simp at hx
  cases e with
  | indicate f => exact Logged.record (s := s.giveBack f.addr) h hone hnone
  | deaggregate f => exact Logged.record (s := s.giveBack f.addr) h hone hnone
  | forget f => exact h.record hone hnone

theorem Logged.handOnAll (h : Logged E X s) {events : List RecvEvent} (he : ∀ e ∈ events, E e) :
    Logged E X (s.handOnAll events) := by
  induction events generalizing s with
  | nil => exact h
  | cons e events ih =>
    exact ih (h.handOn (he e List.mem_cons_self)) fun e' he' =>
      he e' (List.mem_cons_of_mem e he')

theorem Logged.chkDefrag (h : Logged E X s) (env : RecvEnv) (f : RecvFrame) :
    Logged E X (chkDefrag env s f).1 := by
  unfold Recv.chkDefrag
  cases defragSta env.priv f with
  | none => exact h.freeAll _
  | some psta => exact Logged.freeAll (s := s.setDefragQ psta _) h _

theorem Logged.freeReorderQueues (h : Logged E X s) (psta : ℕ) (tids : List ℕ) :
    Logged E X (freeReorderQueues s psta tids) := by
  induction tids generalizing s with
  | nil => exact h
  | cons tid tids ih => exact ih (Logged.freeAll (s := s.setReorder psta tid _) h _)

/-- A change of a station hands nothing on. -/
theorem Logged.staQueueStep (h : Logged E X s) (op : StaQueueOp) : Logged E X (staQueueStep s op) := by
  cases op with
  | rtwAllocStainfo psta => exact h
  | rtwFreeStainfo psta => exact h.freeReorderQueues psta _
  | processAddbaReq psta tid b => exact h
  | onActionDelba psta tid => exact h
  | sendDelba psta => exact h
  | rtwJoinbssUpdateStainfo psta => exact h
  | rtwFreeUcSwdecPendingQueue =>
    exact Logged.freeAll (s := { s with ucSwdecPendingQueue := [] }) h _

theorem Logged.staQueueSteps (h : Logged E X s) (ops : List StaQueueOp) :
    Logged E X (ops.foldl Recv.staQueueStep s) := by
  induction ops generalizing s with
  | nil => exact h
  | cons op ops ih => exact ih (h.staQueueStep op)

end logged

/-! ## Through the stages -/

/-- What the stages make of data frames under `env`: `In` holds where they enter
    `recv_func_posthandle`, `P` in the queues, `E` of what is handed on; `C` is assumed of
    the calls of `recv_func_posthandle`. -/
structure Stages (env : RecvEnv) (In : RecvFrame → Prop) (P : Loc → RecvFrame → Prop)
    (C : RecvPriv → RecvFrame → Prop) (E : RecvEvent → Prop) : Prop where
  unpark : ∀ f, P .ucSwdec f → In f
  defragQ : ∀ s f g psta, C s f → In f → (decryptor env.priv s.message f).ret = some g →
    ¬Whole g → defragSta env.priv g = some psta → P (.defragQ psta) g
  pass : ∀ s f g k, Queued P s → C s f → In f →
    (decryptor env.priv s.message f).ret = some g →
    (recvframeChkDefrag env.micContext ((defragSta env.priv g).map s.defragQ) g).ret = some k →
    portctrl env k = true → P (.reorder k.psta k.attrib.priority) (msduOf k) ∧
      (env.priv.htOption = false → E (.indicate (wlanhdrToEthhdr k)))
  event : ∀ psta tid f, P (.reorder psta tid) f → E (indicateOne env.drv f)

section stages

variable {env : RecvEnv} {In : RecvFrame → Prop} {P : Loc → RecvFrame → Prop}
  {C : RecvPriv → RecvFrame → Prop} {E : RecvEvent → Prop} {X : RxEffect → Prop} {s : RecvPriv}

/-- The queues and the log. -/
def Sound (P : Loc → RecvFrame → Prop) (E : RecvEvent → Prop) (X : RxEffect → Prop)
    (s : RecvPriv) : Prop := Queued P s ∧ Logged E X s

/-- Nothing is asked of what is given away. -/
theorem Queued.sound (h : Queued P s) : Sound P (fun _ => True) (fun _ => True) s :=
  ⟨h, fun _ _ => trivial, fun _ _ => trivial⟩

theorem Sound.congr {s' : RecvPriv} (h : Sound P E X s) (hheld : ∀ l, s'.held [] l = s.held [] l)
    (hlog : s'.log = s.log) : Sound P E X s' :=
  ⟨h.1.congr hheld, fun e he => h.2.1 e (hlog ▸ he), fun x hx => h.2.2 x (hlog ▸ hx)⟩

theorem Sound.rtwFreeRecvframe (h : Sound P E X s) (f : RecvFrame) :
    Sound P E X (s.rtwFreeRecvframe f) := ⟨h.1.rtwFreeRecvframe f, h.2.rtwFreeRecvframe f⟩

theorem Sound.staQueueStep (h : Sound P E X s) (op : StaQueueOp) :
    Sound P E X (staQueueStep s op) := ⟨h.1.staQueueStep op, h.2.staQueueStep op⟩

/-- What `recv_indicatepkt_reorder` hands on was in the queue, or passes through it. -/
theorem reorder_event {drv : DriverState} (hrun : drv.running = true)
    (hevent : ∀ psta tid f, P (.reorder psta tid) f → E (indicateOne drv f))
    {c : RecvReorderCtrl} {psta tid : ℕ} {f : RecvFrame}
    (hc : ∀ g ∈ c.pending, P (.reorder psta tid) g) (hf : P (.reorder psta tid) (msduOf f))
    {e : RecvEvent} (he : e ∈ (recvIndicatepktReorder drv c f).events) : E e := by
  rcases recvIndicatepktReorder_events he with ⟨h0, rfl⟩ | ⟨h1, rfl⟩ | ⟨g, hg, rfl⟩
  · have hone := hevent psta tid _ hf
    rwa [msduOf, if_pos h0, indicateOne, if_pos (by rw [wlanhdrToEthhdr_attrib]; exact h0),
      if_pos hrun] at hone
  · have hone := hevent psta tid _ hf
    rwa [msduOf, if_neg (by omega), indicateOne, if_neg (by omega), if_pos h1] at hone
  · rcases List.mem_cons.mp hg with rfl | hg
    · exact hevent psta tid _ hf
    · exact hevent psta tid g (hc g hg)

theorem Sound.processRecvIndicatepkts (hrun : env.drv.running = true) (hst : Stages env In P C E)
    (h : Sound P E X s) {f : RecvFrame} (hf : P (.reorder f.psta f.attrib.priority) (msduOf f))
    (hbg : env.priv.htOption = false → E (.indicate (wlanhdrToEthhdr f))) :
    Sound P E X (processRecvIndicatepkts env s f).1 := by
  refine ⟨h.1.processRecvIndicatepkts env hf, ?_⟩
  unfold Recv.processRecvIndicatepkts
  split_ifs with hht
  · refine Logged.handOnAll (s := s.setReorder f.psta f.attrib.priority _) h.2 fun e he => ?_
    exact reorder_event hrun hst.event (h.1 (.reorder f.psta f.attrib.priority)) hf he
  · exact h.2.handOn (hbg (Bool.eq_false_iff.mpr hht))

theorem Stages.posthandle (hst : Stages env In P C E) (hrun : env.drv.running = true)
    (h : Sound P E X s) {f : RecvFrame} (hf : In f) (hC : C s f) :
    Sound P E X (recvFuncPosthandle env s f) := by
  unfold recvFuncPosthandle
  dsimp only
  set m := s.message
  have hm : Sound P E X { s with message := (decryptor env.priv m f).message } :=
    h.congr (fun l => by cases l <;> rfl) rfl
  cases hret : (decryptor env.priv m f).ret with
  | none => exact ⟨hm.1.freeAll _, hm.2.freeAll _⟩
  | some g =>
    dsimp only
    have hc : Sound P E X (Recv.chkDefrag env
        { s with message := (decryptor env.priv m f).message } g).1 :=
      ⟨hm.1.chkDefrag env fun hwhole psta hpsta =>
          hst.defragQ s f g psta hC hf hret hwhole hpsta,
        hm.2.chkDefrag env g⟩
    have hk := chkDefrag_ret env { s with message := (decryptor env.priv m f).message } g
    generalize Recv.chkDefrag env _ g = c at hc hk
    obtain ⟨s₁, _ | k⟩ := c
    · exact hc
    · dsimp only at hc hk ⊢
      split_ifs with hport
      · obtain ⟨hreorder, hbg⟩ := hst.pass s f g k h.1 hC hf hret hk.symm hport
        have hproc := hc.processRecvIndicatepkts hrun hst hreorder hbg
        unfold indicateOrFree
        dsimp only
        split_ifs
        · exact hproc.rtwFreeRecvframe f
        · exact hproc
      · exact hc.rtwFreeRecvframe k

theorem Stages.drainUcSwdec (hst : Stages env In P C E) (hrun : env.drv.running = true)
    {q : List RecvFrame} (hq : ∀ f ∈ q, P .ucSwdec f) (h : Sound P E X s)
    (hC : ∀ c ∈ drainCalls env s q, C c.1 c.2) : Sound P E X (drainUcSwdec env s q) := by
  induction q generalizing s with
  | nil => exact h
  | cons f q ih =>
    have htail : ∀ g ∈ q, P .ucSwdec g := fun g hg => hq g (List.mem_cons_of_mem f hg)
    have hpop : Sound P E X { s with ucSwdecPendingQueue := q } := by
      refine ⟨fun l g hg => ?_, h.2⟩
      cases l with
      | pool => exact absurd hg List.not_mem_nil
      | hand => exact absurd hg List.not_mem_nil
      | ucSwdec => exact htail g hg
      | defragQ i => exact h.1 (.defragQ i) g hg
      | reorder i tid => exact h.1 (.reorder i tid) g hg
    have hpost := hst.posthandle hrun hpop (hst.unpark f (hq f List.mem_cons_self))
      (hC _ List.mem_cons_self)
    exact ih htail hpost fun c hc => hC c (List.mem_cons_of_mem _ hc)

/-- Fragments of management frames are queued, and freed by the caller at once. -/
theorem Sound.mgnt (h : Sound P E X s) (mgt : List StaQueueOp) (f : RecvFrame) :
    Sound P E X ((validateRecvMgntFrame env s mgt f).rtwFreeRecvframe f) := by
  have hQ : Queued (fun l g => P l g ∨ g.addr = f.addr)
      (validateRecvMgntFrame env s mgt f) := by
    have hc := (h.1.mono fun l g hg => Or.inl hg).chkDefrag env (f := f)
      (P := fun l g => P l g ∨ g.addr = f.addr) fun _ _ _ => Or.inr rfl
    unfold validateRecvMgntFrame
    generalize Recv.chkDefrag env s f = c at hc
    obtain ⟨s₁, _ | k⟩ := c
    · exact hc
    · exact hc.staQueueSteps mgt
  have hL : Logged E X (validateRecvMgntFrame env s mgt f) := by
    have hc := h.2.chkDefrag env f
    unfold validateRecvMgntFrame
    generalize Recv.chkDefrag env s f = c at hc
    obtain ⟨s₁, _ | k⟩ := c
    · exact hc
    · exact hc.staQueueSteps mgt
  refine ⟨fun l g hg => ?_, hL.rtwFreeRecvframe f⟩
  obtain ⟨hg, hne⟩ := mem_held_giveBack hg
  exact (hQ l g hg).resolve_right hne

/-- Only data frames are accepted. -/
theorem validateRecvFrame_success {mgt : List StaQueueOp} {f f' : RecvFrame} {s' : RecvPriv}
    (h : validateRecvFrame env s mgt f = (s', .success, f')) :
    let g := f.setAttrib (parseHeader f)
    let r := validateRecvDataFrame env.priv s.tidRxseq (g.setAttrib (parseQos g))
    frameVersion f = 0 ∧ getFrameType f = .data ∧ r.status = .success ∧ r.frame = f' := by
  unfold validateRecvFrame at h
  by_cases hver : frameVersion f = 0
  · rw [if_neg (not_not_intro hver)] at h
    have htype : getFrameType (f.setAttrib (parseHeader f)) = getFrameType f := rfl
    dsimp only at h ⊢
    rw [htype] at h
    cases hf : getFrameType f with
    | data =>
      rw [hf] at h
      obtain ⟨-, h⟩ := Prod.mk.inj h
      obtain ⟨hstatus, hframe⟩ := Prod.mk.inj h
      exact ⟨hver, rfl, hstatus, hframe⟩
    | mgt =>
      rw [hf] at h
      cases (Prod.mk.inj (Prod.mk.inj h).2).1
    | ctrl =>
      rw [hf] at h
      cases (Prod.mk.inj (Prod.mk.inj h).2).1
    | reserved =>
      rw [hf] at h
      cases (Prod.mk.inj (Prod.mk.inj h).2).1
  · rw [if_pos hver] at h
    cases (Prod.mk.inj (Prod.mk.inj h).2).1

/-- An accepted data frame is as `In` asks, or as `P` if it has to wait; what the address
    check does is as `X` asks. -/
def AcceptedAs (env : RecvEnv) (In : RecvFrame → Prop) (P : Loc → RecvFrame → Prop)
    (X : RxEffect → Prop) (f : RecvFrame) : Prop :=
  frameVersion f = 0 → getFrameType f = .data → ∀ tidRxseq,
    let f := f.setAttrib (parseHeader f)
    let r := validateRecvDataFrame env.priv tidRxseq (f.setAttrib (parseQos f))
    (∀ x ∈ r.effects, X x) ∧
      (r.status = .success → if parks env.priv r.frame then P .ucSwdec r.frame else In r.frame)

theorem Stages.recvFuncNew (hst : Stages env In P C E) (hrun : env.drv.running = true)
    (h : Sound P E X s) {mgt : List StaQueueOp} {f : RecvFrame} (hnew : AcceptedAs env In P X f)
    (hC : ∀ c ∈ newCalls env s f, C c.1 c.2) : Sound P E X (recvFuncNew env s mgt f) := by
  unfold newCalls validateRecvFrame at hC
  unfold Recv.recvFuncNew validateRecvFrame
  by_cases hver : frameVersion f = 0
  · rw [if_neg (not_not_intro hver)] at hC ⊢
    dsimp only at hnew hC ⊢
    have htype : getFrameType (f.setAttrib (parseHeader f)) = getFrameType f := rfl
    rw [htype] at hC ⊢
    cases hf : getFrameType f with
    | mgt =>
      exact h.mgnt mgt (f.setAttrib (parseHeader f))
    | ctrl => exact h.rtwFreeRecvframe _
    | reserved => exact h.rtwFreeRecvframe _
    | data =>
      rw [hf] at hC
      dsimp only at hC ⊢
      have hnew := hnew hver hf s.tidRxseq
      dsimp only at hnew
      generalize validateRecvDataFrame env.priv s.tidRxseq _ = r at hnew hC ⊢
      have hs : Sound P E X ({ s with tidRxseq := r.tidRxseq }.record (r.effects.map .effect)) := by
        refine ⟨h.1.congr fun l => by cases l <;> rfl, Logged.record h.2 (fun e he => ?_)
          fun x hx => ?_⟩
        · simp at he
        · obtain ⟨y, hy, hxy⟩ := List.mem_map.mp hx
          obtain rfl := RxOut.effect.inj hxy
          exact hnew.1 y hy
      cases hstatus : r.status with
      | success =>
        rw [hstatus] at hC
        dsimp only at hC ⊢
        have hnew := hnew.2 hstatus
        split_ifs at hnew hC ⊢ with hpark
        · refine ⟨fun l g hg => ?_, hs.2⟩
          cases l with
          | pool => exact absurd hg List.not_mem_nil
          | hand => exact absurd hg List.not_mem_nil
          | ucSwdec =>
            rcases List.mem_append.mp hg with hg | hg
            · exact hs.1 .ucSwdec g hg
            · rw [List.mem_singleton.mp hg]
              exact hnew
          | defragQ i => exact hs.1 (.defragQ i) g hg
          | reorder i tid => exact hs.1 (.reorder i tid) g hg
        · exact hst.posthandle hrun hs hnew (hC _ List.mem_cons_self)
      | fail => exact hs.rtwFreeRecvframe _
      | rxHandled => exact hs.rtwFreeRecvframe _
  · rw [if_pos hver]
    exact h.rtwFreeRecvframe f

theorem Stages.recvFunc (hst : Stages env In P C E) (hrun : env.drv.running = true)
    (h : Sound P E X s) {mgt : List StaQueueOp} {f : RecvFrame} (hnew : AcceptedAs env In P X f)
    (hC : ∀ c ∈ recvCalls env s f, C c.1 c.2) : Sound P E X (recvFunc env s mgt f) := by
  unfold recvCalls at hC
  unfold Recv.recvFunc
  dsimp only
  split_ifs at hC ⊢
  · have hdrain := hst.drainUcSwdec hrun (h.1 .ucSwdec) h
      fun c hc => hC c (List.mem_append_left _ hc)
    exact hst.recvFuncNew hrun hdrain hnew fun c hc => hC c (List.mem_append_right _ hc)
  · exact hst.recvFuncNew hrun h hnew hC

/-- A received frame. -/
theorem Stages.recvbuf2recvframe (hst : Stages env In P C E) (h : Sound P E X s)
    {mgt : List StaQueueOp} {f : RecvFrame}
    (hnew : ∀ addr skb, AcceptedAs env In P X { f with addr := addr, skb := skb })
    (hC : ∀ c ∈ rxCalls env s f, C c.1 c.2) : Sound P E X (recvbuf2recvframe env s mgt f) := by
  unfold rxCalls at hC
  unfold Recv.recvbuf2recvframe
  split_ifs at hC ⊢ with hrun
  · cases hq : s.freeRecvQueue with
    | nil => exact h
    | cons a q =>
      rw [hq] at hC
      apply hst.recvFunc hrun _ (hnew a (some s.arrived)) hC
      exact h.congr (fun l => by cases l <;> rfl) rfl
  · exact h

/-- An expiry of a reorder timer. -/
theorem Sound.timeout (h : Sound P E X s) {drv : DriverState} (psta tid : ℕ)
    (hevent : drv.running = true → ∀ f, P (.reorder psta tid) f → E (indicateOne drv f)) :
    Sound P E X (rxStep s (.timeout drv psta tid)) := by
  have hq := h.1 (.reorder psta tid)
  have hsplit := rtwReorderingCtrlTimeoutHandler_split drv (s.recvreorderCtrl psta tid)
  refine ⟨(h.1.setReorder fun f hf => hq f ?_).handOnAll _, ?_⟩
  · show f ∈ (s.recvreorderCtrl psta tid).pending
    rw [← hsplit]
    exact List.mem_append_right _ hf
  · refine Logged.handOnAll (s := s.setReorder psta tid _) h.2 fun e he => ?_
    obtain ⟨hrun, f, hf, rfl⟩ := rtwReorderingCtrlTimeoutHandler_events he
    exact hevent hrun f (hq f hf)

end stages

end Rtl8821au.Recv
