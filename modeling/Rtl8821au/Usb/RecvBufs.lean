import Mathlib.Algebra.Order.BigOperators.Group.Finset
import Rtl8821au.Lib.Places
import Rtl8821au.Lib.Run
import Rtl8821au.Usb.RecvAgg

/-!
# USB receive buffers

Each of the `NR_RECVBUFF` receive buffers has one URB and one `sk_buff` that it fills. A
completed URB puts its `sk_buff` in `rx_skb_queue` and is submitted with another one; the
tasklet takes the frames out of it and puts it in `free_recv_skb_queue`. Whether a buffer keeps
its `sk_buff` is in `reuse`, which starting (`usb.c`, lines 997–1021), completion (566–652),
submission (674–752) and cancelling (`usb_ops_linux.c`, lines 191–210) set by hand. A step is
one round of a loop or one handler, so that completions and the tasklet come in between.

* `RxStep`, `step`: what can happen.
* `Kept`: every `sk_buff` is in exactly one place.
* `Inv`, `inv_step`: with what the phases of starting and cancelling say of `reuse`.
* `recv_skbs_conserved`: what holds along every run.

**What goes wrong.** `rx_pending_cnt` starts with 1 and is not counted down when a submission
fails; a buffer that is started twice loses its `sk_buff`; and the tasklet gives an `sk_buff`
back although a frame that is queued may be a clone of it.
-/

namespace Rtl8821au.Usb.RecvBufs

open Places Run

/-! ## State -/

/-- `NR_RECVBUFF`. -/
def nrRecvbuff : ℕ := 4

/-- `MAX_RECVBUF_SZ`. -/
def maxRecvbufSz : ℕ := 24576

/-- `MAX_CONTINUAL_URB_ERR`. -/
def maxContinualUrbErr : ℕ := 4

/-- `struct recv_buf`, with the number of its URBs in flight. -/
structure RecvBuf where
  skb : Option ℕ := none
  reuse : Bool := false
  urbs : ℕ := 0
  deriving DecidableEq, Repr

/-- How far the callers of `usb_intf_start` and `usb_intf_stop` are. -/
inductive Phase where
  | down
  | starting (i : ℕ)
  | up
  | cancelling (i : ℕ)
  deriving DecidableEq, Repr

/-- The members of `struct recv_priv` and `struct rtl_priv` that the buffers depend on. An
    `sk_buff` is named by when it was allocated; `copies` are those that belong to frames, and
    `queued` has for every frame that waits in a queue the `sk_buff` that its data lies in. -/
structure RxPriv where
  bufs : ℕ → RecvBuf
  rxSkbQueue : List ℕ
  freeRecvSkbQueue : List ℕ
  freed : List ℕ
  copies : List ℕ
  allocated : ℕ
  rxPendingCnt : UInt8
  continualUrbError : ℕ
  bDriverStopped : Bool
  bSurpriseRemoved : Bool
  bReadPortCancel : Bool
  pnpBstopTrx : Bool
  queued : List ℕ
  phase : Phase

/-- `_rtw_init_recv_priv` (`rtw_recv.c`, line 114) and `rtl8812au_init_recv_priv`, which
    allocates `m` buffers in advance. -/
def init (m : ℕ) : RxPriv where
  bufs := fun _ => {}
  rxSkbQueue := []
  freeRecvSkbQueue := List.range m
  freed := []
  copies := []
  allocated := m
  rxPendingCnt := 1
  continualUrbError := 0
  bDriverStopped := false
  bSurpriseRemoved := false
  bReadPortCancel := false
  pnpBstopTrx := false
  queued := []
  phase := .down

/-- Buffer `i` becomes `b`. -/
def RxPriv.setBuf (s : RxPriv) (i : ℕ) (b : RecvBuf) : RxPriv :=
  { s with bufs := Function.update s.bufs i b }

/-! ## Submitting -/

/-- What `usb_submit_urb` returns. -/
inductive SubmitErr where
  | none
  | eperm
  | other
  deriving DecidableEq, Repr

/-- Whether `netdev_alloc_skb` succeeds, and what `usb_submit_urb` returns. -/
structure UrbEnv where
  alloc : Bool
  err : SubmitErr
  deriving DecidableEq, Repr

/-- Lines 693–698 of `_rtl_usb_receive`. -/
def dequeueFree (s : RxPriv) (i : ℕ) : RxPriv :=
  if (s.bufs i).reuse = false ∨ (s.bufs i).skb = none then
    match s.freeRecvSkbQueue with
    | [] => s.setBuf i { s.bufs i with skb := none }
    | x :: rest =>
      { s.setBuf i { s.bufs i with skb := some x, reuse := true } with freeRecvSkbQueue := rest }
  else s

/-- Lines 705–721: a new `sk_buff` is allocated, or the one that is there is used again. -/
def allocSkb (s : RxPriv) (i : ℕ) (alloc : Bool) : Bool × RxPriv :=
  if (s.bufs i).reuse = false ∨ (s.bufs i).skb = none then
    if alloc then
      (true, { s.setBuf i { s.bufs i with skb := some s.allocated } with
        allocated := s.allocated + 1 })
    else (false, s.setBuf i { s.bufs i with skb := none })
  else (true, s.setBuf i { s.bufs i with reuse := false })

/-- Lines 729–746: `EPERM`, what a URB that is being killed returns, counts as success. -/
def submitUrb (s : RxPriv) (i : ℕ) (err : SubmitErr) : Bool × RxPriv :=
  let s := { s with rxPendingCnt := s.rxPendingCnt + 1 }
  match err with
  | .none => (true, s.setBuf i { s.bufs i with urbs := (s.bufs i).urbs + 1 })
  | .eperm => (true, s)
  | .other => (false, s)

/-- `_rtl_usb_receive` (lines 674–752). -/
def rtlUsbReceive (s : RxPriv) (i : ℕ) (env : UrbEnv) : Bool × RxPriv :=
  if s.bDriverStopped || s.bSurpriseRemoved || s.pnpBstopTrx then (false, s)
  else
    match allocSkb (dequeueFree s i) i env.alloc with
    | (false, s) => (false, s)
    | (true, s) => submitUrb s i env.err

/-! ## Completion -/

/-- `purb->status`. -/
inductive UrbStatus where
  | success
  | einval
  | epipe
  | enodev
  | eshutdown
  | enoent
  | eproto
  | eilseq
  | etime
  | ecomm
  | eoverflow
  | einprogress
  | other
  deriving DecidableEq, Repr

/-- `rtw_inc_and_chk_continual_urb_error` (lines 33–45, 620–622). -/
def countUrbError (s : RxPriv) : RxPriv :=
  { s with
    continualUrbError := s.continualUrbError + 1
    bSurpriseRemoved :=
      s.bSurpriseRemoved || decide (maxContinualUrbErr < s.continualUrbError + 1) }

/-- Lines 620–646: an error stops the driver, or the URB is submitted again. -/
def urbError (s : RxPriv) (i : ℕ) (status : UrbStatus) (env : UrbEnv) : RxPriv :=
  let s := countUrbError s
  match status with
  | .einval | .epipe | .enodev | .eshutdown | .enoent => { s with bDriverStopped := true }
  | .eproto | .eilseq | .etime | .ecomm | .eoverflow =>
    (rtlUsbReceive (s.setBuf i { s.bufs i with reuse := true }) i env).2
  | .success | .einprogress | .other => s

/-- The URB of buffer `i` is no longer in flight, and line 580. -/
def retired (s : RxPriv) (i : ℕ) : RxPriv :=
  { s.setBuf i { s.bufs i with urbs := (s.bufs i).urbs - 1 } with
    rxPendingCnt := s.rxPendingCnt - 1 }

/-- Lines 605–614: the `sk_buff` is queued for the tasklet. -/
def queueSkb (s : RxPriv) (i : ℕ) : RxPriv :=
  { s.setBuf i { s.bufs i with skb := none, reuse := false } with
    continualUrbError := 0
    rxSkbQueue := s.rxSkbQueue ++ (s.bufs i).skb.toList }

/-- `_rtl_rx_complete` (lines 566–652). -/
def rtlRxComplete (s : RxPriv) (i : ℕ) (status : UrbStatus) (actualLength : ℕ) (env : UrbEnv) :
    RxPriv :=
  let s := retired s i
  if s.bSurpriseRemoved || s.bDriverStopped || s.bReadPortCancel then
    s.setBuf i { s.bufs i with reuse := true }
  else if status = .success then
    if maxRecvbufSz < actualLength ∨ actualLength < rxdescSize then
      (rtlUsbReceive (s.setBuf i { s.bufs i with reuse := true }) i env).2
    else (rtlUsbReceive (queueSkb s i) i env).2
  else urbError s i status env

/-! ## The tasklet -/

/-- A frame of a transfer: whether it is the first of several fragments, whether
    `netdev_alloc_skb` and `skb_clone` succeed, and whether `rtw_recv_entry` leaves it in a
    queue. -/
structure RxFrame where
  firstFragment : Bool
  copy : Bool
  clone : Bool
  queue : Bool
  deriving DecidableEq, Repr

/-- `rtw_os_alloc_recvframe` (`recv_linux.c`, lines 33–105): where the data of the frame
    lies. -/
def rtwOsAllocRecvframe (f : RxFrame) (pskb fresh : ℕ) : Option ℕ :=
  if f.copy then some fresh
  else if f.firstFragment then none
  else if f.clone then some pskb
  else none

/-- `recvbuf2recvframe` (`usb_ops_linux.c`, lines 35–140) for the frames that it comes to; it
    stops at one that has no data. -/
def recvbuf2recvframe (s : RxPriv) (pskb : ℕ) : List RxFrame → RxPriv
  | [] => s
  | f :: fs =>
    match rtwOsAllocRecvframe f pskb s.allocated with
    | none => s
    | some d =>
      let s := if f.copy then
          { s with copies := s.copies ++ [s.allocated], allocated := s.allocated + 1 }
        else s
      recvbuf2recvframe { s with queued := s.queued ++ if f.queue then [d] else [] } pskb fs

/-- One round of `rtl8812au_recv_tasklet` (lines 148–161). -/
def recvTasklet (s : RxPriv) (fs : List RxFrame) : RxPriv :=
  match s.rxSkbQueue with
  | [] => s
  | x :: rest =>
    let s := { s with rxSkbQueue := rest }
    if s.bDriverStopped || s.bSurpriseRemoved then { s with freed := s.freed ++ [x] }
    else
      let s := recvbuf2recvframe s x fs
      { s with freeRecvSkbQueue := s.freeRecvSkbQueue ++ [x] }

/-! ## Runs -/

/-- What can happen. `startBuf` and `cancelBuf` are a round of the loops of `usb_intf_start` and
    `usb_read_port_cancel`; `release` frees a frame that was queued; `setFlags` and
    `resetDrvSw` are the rest of the driver. -/
inductive RxStep where
  | start
  | startBuf (env : UrbEnv)
  | cancel
  | cancelBuf
  | complete (i : ℕ) (status : UrbStatus) (actualLength : ℕ) (env : UrbEnv)
  | tasklet (fs : List RxFrame)
  | release (x : ℕ)
  | setFlags (bDriverStopped bSurpriseRemoved pnpBstopTrx : Bool)
  | resetDrvSw
  deriving DecidableEq, Repr

/-- `usb_kill_urb`: the URB completes with `ENOENT`. -/
def usbKillUrb (s : RxPriv) (i : ℕ) : RxPriv :=
  if (s.bufs i).urbs = 0 then s else rtlRxComplete s i .enoent 0 ⟨false, .eperm⟩

/-- One round of `usb_intf_start` (lines 1009–1017). -/
def startBuf (s : RxPriv) (env : UrbEnv) : RxPriv :=
  match s.phase with
  | .starting i =>
    if i < nrRecvbuff then
      match rtlUsbReceive s i env with
      | (false, s) => { s with phase := .up }
      | (true, s) => { s with phase := .starting (i + 1) }
    else { s with phase := .up }
  | _ => s

/-- One round of `usb_read_port_cancel` (lines 201–209). -/
def cancelBuf (s : RxPriv) : RxPriv :=
  match s.phase with
  | .cancelling i =>
    if i < nrRecvbuff then
      { usbKillUrb (s.setBuf i { s.bufs i with reuse := true }) i with
        phase := .cancelling (i + 1) }
    else { s with phase := .down }
  | _ => s

def step (s : RxPriv) : RxStep → RxPriv
  | .start => { s with phase := .starting 0 }
  | .startBuf env => startBuf s env
  | .cancel => { s with bReadPortCancel := true, phase := .cancelling 0 }
  | .cancelBuf => cancelBuf s
  | .complete i status actualLength env =>
    if (s.bufs i).urbs = 0 then s else rtlRxComplete s i status actualLength env
  | .tasklet fs => recvTasklet s fs
  | .release x => { s with queued := s.queued.erase x }
  | .setFlags stopped removed pnp =>
    { s with bDriverStopped := stopped, bSurpriseRemoved := removed, pnpBstopTrx := pnp }
  | .resetDrvSw => { s with bReadPortCancel := false }

/-! ## Where the buffers are -/

/-- The places of an `sk_buff`. -/
inductive SkbPlace where
  | recvBuf (i : ℕ)
  | rxSkbQueue
  | freeRecvSkbQueue
  | freed
  | copies
  deriving DecidableEq, Repr

/-- The `sk_buff`s of a place. -/
def RxPriv.places (s : RxPriv) : SkbPlace → List ℕ
  | .recvBuf i => (s.bufs i).skb.toList
  | .rxSkbQueue => s.rxSkbQueue
  | .freeRecvSkbQueue => s.freeRecvSkbQueue
  | .freed => s.freed
  | .copies => s.copies

/-- Every `sk_buff` that was allocated is in exactly one place, once. -/
structure Kept (s : RxPriv) : Prop where
  excl : Exclusive s.places
  all : ∀ x, Placed s.places x ↔ x < s.allocated

section kept

variable {s s' : RxPriv} {i j x : ℕ} {b : RecvBuf} {p p' : SkbPlace} {rest : List ℕ}

@[simp] theorem setBuf_bufs_self : (s.setBuf i b).bufs i = b := Function.update_self ..

theorem setBuf_bufs_of_ne (h : j ≠ i) : (s.setBuf i b).bufs j = s.bufs j :=
  Function.update_of_ne h ..

theorem Kept.congr (h : Kept s) (hplaces : s'.places = s.places)
    (hall : s'.allocated = s.allocated) : Kept s' := by
  refine ⟨hplaces ▸ h.excl, fun x => ?_⟩
  rw [hplaces, hall]
  exact h.all x

/-- An `sk_buff` goes from the head of a list to the end of another one. -/
theorem Kept.move (h : Kept s) (p p' : SkbPlace) (hne : p ≠ p')
    (hall : s'.allocated = s.allocated) (hp : s.places p = x :: rest)
    (htake : s'.places p = rest) (hput : s'.places p' = s.places p' ++ [x])
    (hout : ∀ r, r ≠ p' → r ≠ p → s'.places r = s.places r) : Kept s' := by
  have hmove : s'.places = Places.move s.places p' x := eq_move h.excl hp hne htake hput hout
  have hx : x < s.allocated := (h.all x).mp ⟨p, hp ▸ List.mem_cons_self⟩
  refine ⟨hmove ▸ h.excl.move p' x, fun y => ?_⟩
  rw [hmove, placed_move h.excl, h.all, hall, or_iff_right_of_imp]
  rintro rfl
  exact hx

/-- A new `sk_buff` comes to the end of a list. -/
theorem Kept.put (h : Kept s) (p : SkbPlace) (hall : s'.allocated = s.allocated + 1)
    (hput : s'.places p = s.places p ++ [s.allocated])
    (hout : ∀ r, r ≠ p → s'.places r = s.places r) : Kept s' := by
  have hnew : ¬Placed s.places s.allocated := fun hp => Nat.lt_irrefl _ ((h.all _).mp hp)
  have heq : s'.places = Places.put s.places p s.allocated := by
    funext r
    by_cases hr : r = p
    · rw [hr, hput, put_self]
    · rw [hout r hr, put_of_ne hr]
  refine ⟨heq ▸ h.excl.put hnew, fun y => ?_⟩
  rw [heq, placed_put, h.all, hall]
  omega

/-- A buffer keeps its `sk_buff`. -/
theorem places_setBuf_same (hb : b.skb = (s.bufs i).skb) : (s.setBuf i b).places = s.places := by
  funext p
  cases p with
  | recvBuf j =>
    show ((s.setBuf i b).bufs j).skb.toList = (s.bufs j).skb.toList
    by_cases hj : j = i
    · rw [hj, setBuf_bufs_self, hb]
    · rw [setBuf_bufs_of_ne hj]
  | rxSkbQueue => rfl
  | freeRecvSkbQueue => rfl
  | freed => rfl
  | copies => rfl

/-- The other places do not see what a buffer holds. -/
theorem places_setBuf_of_ne (hp : p ≠ .recvBuf i) : (s.setBuf i b).places p = s.places p := by
  cases p with
  | recvBuf j =>
    show ((s.setBuf i b).bufs j).skb.toList = (s.bufs j).skb.toList
    rw [setBuf_bufs_of_ne fun hj => hp (congrArg _ hj)]
  | rxSkbQueue => rfl
  | freeRecvSkbQueue => rfl
  | freed => rfl
  | copies => rfl

theorem kept_init (m : ℕ) : Kept (init m) where
  excl := by
    refine ⟨fun p => ?_, fun {p p' x} hp hp' => ?_⟩
    · cases p with
      | freeRecvSkbQueue => exact List.nodup_range
      | recvBuf i => exact List.nodup_nil
      | rxSkbQueue => exact List.nodup_nil
      | freed => exact List.nodup_nil
      | copies => exact List.nodup_nil
    · have honly : ∀ p, x ∈ (init m).places p → p = .freeRecvSkbQueue := by
        intro p hp
        cases p with
        | freeRecvSkbQueue => rfl
        | recvBuf i => exact absurd hp List.not_mem_nil
        | rxSkbQueue => exact absurd hp List.not_mem_nil
        | freed => exact absurd hp List.not_mem_nil
        | copies => exact absurd hp List.not_mem_nil
      rw [honly p hp, honly p' hp']
  all x := by
    constructor
    · rintro ⟨p, hp⟩
      cases p with
      | freeRecvSkbQueue => exact List.mem_range.mp hp
      | recvBuf i => exact absurd hp List.not_mem_nil
      | rxSkbQueue => exact absurd hp List.not_mem_nil
      | freed => exact absurd hp List.not_mem_nil
      | copies => exact absurd hp List.not_mem_nil
    · exact fun hx => ⟨.freeRecvSkbQueue, List.mem_range.mpr hx⟩

end kept

/-! ## Submitting keeps them -/

section receive

variable {s s' : RxPriv} {i j : ℕ} {env : UrbEnv}

/-- The buffer has no URB in flight and does not lose what it holds when it gets one. -/
structure Ready (b : RecvBuf) : Prop where
  idle : b.urbs = 0
  holds : b.reuse = true ∨ b.skb = none

/-- What an operation on buffer `i` leaves alone. -/
structure OnlyBuf (i : ℕ) (s s' : RxPriv) : Prop where
  bufs : ∀ j, j ≠ i → s'.bufs j = s.bufs j
  phase : s'.phase = s.phase
  cancel : s'.bReadPortCancel = s.bReadPortCancel
  queued : s'.queued = s.queued
  copies : s'.copies = s.copies

theorem OnlyBuf.refl (i : ℕ) (s : RxPriv) : OnlyBuf i s s := ⟨fun _ _ => rfl, rfl, rfl, rfl, rfl⟩

theorem OnlyBuf.trans {s'' : RxPriv} (h : OnlyBuf i s s') (h' : OnlyBuf i s' s'') :
    OnlyBuf i s s'' :=
  ⟨fun j hj => (h'.bufs j hj).trans (h.bufs j hj), h'.phase.trans h.phase,
    h'.cancel.trans h.cancel, h'.queued.trans h.queued, h'.copies.trans h.copies⟩

theorem onlyBuf_setBuf (s : RxPriv) (i : ℕ) (b : RecvBuf) : OnlyBuf i s (s.setBuf i b) :=
  ⟨fun _ hj => setBuf_bufs_of_ne hj, rfl, rfl, rfl, rfl⟩

/-- An operation on buffer `i` that keeps every `sk_buff` in one place; the buffer has at most
    one URB afterwards, with an `sk_buff`. -/
structure Served (i : ℕ) (s s' : RxPriv) : Prop where
  kept : Kept s'
  only : OnlyBuf i s s'
  one : (s'.bufs i).urbs ≤ 1
  busy : 0 < (s'.bufs i).urbs → (s'.bufs i).skb ≠ none

/-- Dequeuing: the buffer has an `sk_buff` and `reuse`, or none. -/
theorem dequeueFree_spec (hk : Kept s) (hr : Ready (s.bufs i)) :
    Kept (dequeueFree s i) ∧ OnlyBuf i s (dequeueFree s i) ∧ Ready ((dequeueFree s i).bufs i) ∧
      (dequeueFree s i).rxPendingCnt = s.rxPendingCnt := by
  rw [dequeueFree]
  by_cases hc : (s.bufs i).reuse = false ∨ (s.bufs i).skb = none
  · have hnone : (s.bufs i).skb = none := by
      rcases hc with h | h
      · exact hr.holds.resolve_left (by simp [h])
      · exact h
    rw [if_pos hc]
    cases hfree : s.freeRecvSkbQueue with
    | nil =>
      refine ⟨?_, onlyBuf_setBuf s i _, ?_, rfl⟩
      · exact hk.congr (places_setBuf_same hnone.symm) rfl
      · dsimp only
        rw [setBuf_bufs_self]
        exact ⟨hr.idle, Or.inr rfl⟩
    | cons x rest =>
      refine ⟨?_, ?_, ?_, rfl⟩
      · refine hk.move .freeRecvSkbQueue (.recvBuf i) (by simp) rfl hfree rfl ?_ ?_
        · show ((s.setBuf i _).bufs i).skb.toList = (s.bufs i).skb.toList ++ [x]
          rw [setBuf_bufs_self, hnone]
          rfl
        · intro r hr hr'
          cases r with
          | recvBuf j =>
            show ((s.setBuf i _).bufs j).skb.toList = (s.bufs j).skb.toList
            rw [setBuf_bufs_of_ne fun hj => hr (congrArg _ hj)]
          | freeRecvSkbQueue => exact absurd rfl hr'
          | rxSkbQueue => rfl
          | freed => rfl
          | copies => rfl
      · exact ⟨fun j hj => setBuf_bufs_of_ne hj, rfl, rfl, rfl, rfl⟩
      · show Ready ((s.setBuf i _).bufs i)
        rw [setBuf_bufs_self]
        exact ⟨hr.idle, Or.inl rfl⟩
  · rw [if_neg hc]
    exact ⟨hk, OnlyBuf.refl i s, hr, rfl⟩

/-- Allocating: the buffer keeps its `sk_buff`, or has a new one or none. -/
theorem allocSkb_spec (hk : Kept s) (hr : Ready (s.bufs i)) {alloc ok : Bool}
    (h : allocSkb s i alloc = (ok, s')) :
    Kept s' ∧ OnlyBuf i s s' ∧ (s'.bufs i).urbs = 0 ∧ s'.rxPendingCnt = s.rxPendingCnt ∧
      (if ok then (s'.bufs i).skb ≠ none else Ready (s'.bufs i)) := by
  rw [allocSkb] at h
  by_cases hc : (s.bufs i).reuse = false ∨ (s.bufs i).skb = none
  · have hnone : (s.bufs i).skb = none := by
      rcases hc with h | h
      · exact hr.holds.resolve_left (by simp [h])
      · exact h
    rw [if_pos hc] at h
    cases alloc with
    | true =>
      obtain ⟨rfl, rfl⟩ := Prod.mk.inj h
      refine ⟨?_, ⟨fun j hj => setBuf_bufs_of_ne hj, rfl, rfl, rfl, rfl⟩, ?_, rfl, ?_⟩
      · refine hk.put (.recvBuf i) rfl ?_ ?_
        · show ((s.setBuf i _).bufs i).skb.toList = (s.bufs i).skb.toList ++ [s.allocated]
          rw [setBuf_bufs_self, hnone]
          rfl
        · intro r hr
          exact places_setBuf_of_ne (b := { s.bufs i with skb := some s.allocated }) hr
      · show ((s.setBuf i _).bufs i).urbs = 0
        rw [setBuf_bufs_self]
        exact hr.idle
      · show ((s.setBuf i _).bufs i).skb ≠ none
        rw [setBuf_bufs_self]
        exact Option.some_ne_none _
    | false =>
      obtain ⟨rfl, rfl⟩ := Prod.mk.inj h
      refine ⟨hk.congr (places_setBuf_same hnone.symm) rfl, onlyBuf_setBuf s i _, ?_, rfl, ?_⟩
      · rw [setBuf_bufs_self]
        exact hr.idle
      · rw [if_neg (by decide), setBuf_bufs_self]
        exact ⟨hr.idle, Or.inr rfl⟩
  · obtain ⟨hreuse, hskb⟩ := not_or.mp hc
    rw [if_neg hc] at h
    obtain ⟨rfl, rfl⟩ := Prod.mk.inj h
    refine ⟨hk.congr (places_setBuf_same rfl) rfl, onlyBuf_setBuf s i _, ?_, rfl, ?_⟩
    · rw [setBuf_bufs_self]
      exact hr.idle
    · rw [if_pos rfl, setBuf_bufs_self]
      exact hskb

/-- The number of URBs that are in flight. -/
def RxPriv.inFlight (s : RxPriv) : ℕ := ∑ i ∈ Finset.range nrRecvbuff, (s.bufs i).urbs

/-- Submitting moves no `sk_buff`; it counts the URB whether or not it is in flight. -/
theorem submitUrb_spec (s : RxPriv) (i : ℕ) (err : SubmitErr) :
    (submitUrb s i err).2.places = s.places ∧ (submitUrb s i err).2.allocated = s.allocated ∧
      OnlyBuf i s (submitUrb s i err).2 ∧
      (submitUrb s i err).2.bufs i =
        { s.bufs i with urbs := (s.bufs i).urbs + if err = .none then 1 else 0 } ∧
      (submitUrb s i err).2.rxPendingCnt = s.rxPendingCnt + 1 := by
  cases err with
  | none =>
    refine ⟨places_setBuf_same rfl, rfl, ?_, setBuf_bufs_self, rfl⟩
    exact ⟨fun j hj => setBuf_bufs_of_ne hj, rfl, rfl, rfl, rfl⟩
  | eperm => exact ⟨rfl, rfl, ⟨fun _ _ => rfl, rfl, rfl, rfl, rfl⟩, rfl, rfl⟩
  | other => exact ⟨rfl, rfl, ⟨fun _ _ => rfl, rfl, rfl, rfl, rfl⟩, rfl, rfl⟩

theorem add_ofNat_zero (c : UInt8) : c + UInt8.ofNat 0 = c := UInt8.add_zero c

theorem Served.of_idle (hk : Kept s') (ho : OnlyBuf i s s') (hidle : (s'.bufs i).urbs = 0) :
    Served i s s' where
  kept := hk
  only := ho
  one := by rw [hidle]; exact Nat.zero_le 1
  busy := by rw [hidle]; exact fun h => absurd h (Nat.lt_irrefl 0)

/-- A call of `_rtl_usb_receive` for a buffer that is ready. Its URB is counted if it is in
    flight, unless the submission fails. -/
theorem rtlUsbReceive_spec (hk : Kept s) (hr : Ready (s.bufs i)) (env : UrbEnv) :
    Served i s (rtlUsbReceive s i env).2 ∧
      (env.err = .none → (rtlUsbReceive s i env).2.rxPendingCnt =
        s.rxPendingCnt + UInt8.ofNat ((rtlUsbReceive s i env).2.bufs i).urbs) := by
  rw [rtlUsbReceive]
  split_ifs with hflags
  · refine ⟨Served.of_idle hk (OnlyBuf.refl i s) hr.idle, fun _ => ?_⟩
    rw [hr.idle, add_ofNat_zero]
  · obtain ⟨hk1, ho1, hr1, hcnt1⟩ := dequeueFree_spec hk hr
    cases halloc : allocSkb (dequeueFree s i) i env.alloc with
    | mk ok s2 =>
      obtain ⟨hk2, ho2, hidle, hcnt2, hok⟩ := allocSkb_spec hk1 hr1 halloc
      have ho := ho1.trans ho2
      have hcnt := hcnt2.trans hcnt1
      cases ok with
      | false =>
        refine ⟨Served.of_idle hk2 ho hidle, fun _ => ?_⟩
        dsimp only
        rw [hidle, hcnt, add_ofNat_zero]
      | true =>
        have hskb : (s2.bufs i).skb ≠ none := hok
        obtain ⟨hplaces, hall, honly, hbuf, hcount⟩ := submitUrb_spec s2 i env.err
        refine ⟨⟨hk2.congr hplaces hall, ho.trans honly, ?_, ?_⟩, fun herr => ?_⟩
        · dsimp only
          rw [hbuf, hidle]
          dsimp only
          split_ifs
          · exact Nat.le_refl 1
          · exact Nat.zero_le 1
        · dsimp only
          rw [hbuf]
          exact fun _ => hskb
        · dsimp only
          rw [hbuf, hidle, if_pos herr, hcount, hcnt]
          rfl

end receive

/-! ## Completion keeps them -/

section complete

variable {s s' s'' : RxPriv} {i : ℕ} {env : UrbEnv} {status : UrbStatus} {n : ℕ}

theorem Served.after (h : OnlyBuf i s s') (h' : Served i s' s'') : Served i s s'' :=
  ⟨h'.kept, h.trans h'.only, h'.one, h'.busy⟩

/-- `reuse` makes a buffer without URB ready. -/
theorem served_reuse (hk : Kept s) (hidle : (s.bufs i).urbs = 0) :
    Served i s (s.setBuf i { s.bufs i with reuse := true }) ∧
      Ready ((s.setBuf i { s.bufs i with reuse := true }).bufs i) := by
  have hready : Ready ((s.setBuf i { s.bufs i with reuse := true }).bufs i) := by
    rw [setBuf_bufs_self]
    exact ⟨hidle, Or.inl rfl⟩
  exact ⟨Served.of_idle (hk.congr (places_setBuf_same rfl) rfl) (onlyBuf_setBuf s i _) hready.idle,
    hready⟩

/-- A buffer that keeps its `sk_buff` is submitted again. -/
theorem resubmit_spec (hk : Kept s) (hidle : (s.bufs i).urbs = 0) (env : UrbEnv) :
    Served i s (rtlUsbReceive (s.setBuf i { s.bufs i with reuse := true }) i env).2 ∧
      (env.err = .none →
        (rtlUsbReceive (s.setBuf i { s.bufs i with reuse := true }) i env).2.rxPendingCnt =
          s.rxPendingCnt + UInt8.ofNat ((rtlUsbReceive
            (s.setBuf i { s.bufs i with reuse := true }) i env).2.bufs i).urbs) := by
  obtain ⟨hserved, hready⟩ := served_reuse hk hidle
  obtain ⟨hserved', hcnt⟩ := rtlUsbReceive_spec hserved.kept hready env
  exact ⟨hserved'.after hserved.only, hcnt⟩

theorem urbError_spec (hk : Kept s) (hidle : (s.bufs i).urbs = 0) (status : UrbStatus)
    (env : UrbEnv) :
    Served i s (urbError s i status env) ∧
      (env.err = .none → (urbError s i status env).rxPendingCnt =
        s.rxPendingCnt + UInt8.ofNat ((urbError s i status env).bufs i).urbs) := by
  have hk1 : Kept (countUrbError s) := hk.congr rfl rfl
  have honly : OnlyBuf i s (countUrbError s) := ⟨fun _ _ => rfl, rfl, rfl, rfl, rfl⟩
  have hstays : Served i s (countUrbError s) := Served.of_idle hk1 honly hidle
  have hcnt : (countUrbError s).rxPendingCnt =
      s.rxPendingCnt + UInt8.ofNat ((countUrbError s).bufs i).urbs := by
    show s.rxPendingCnt = s.rxPendingCnt + UInt8.ofNat (s.bufs i).urbs
    rw [hidle, add_ofNat_zero]
  have hstop : Served i s { countUrbError s with bDriverStopped := true } :=
    Served.of_idle (hk1.congr rfl rfl) ⟨fun _ _ => rfl, rfl, rfl, rfl, rfl⟩ hidle
  obtain ⟨hretry, hretry'⟩ := resubmit_spec hk1 hidle env
  -- the three groups of the switch: stop, submit again, do nothing
  cases status
  case einval | epipe | enodev | eshutdown | enoent => exact ⟨hstop, fun _ => hcnt⟩
  case eproto | eilseq | etime | ecomm | eoverflow => exact ⟨hretry.after honly, hretry'⟩
  case success | einprogress | other => exact ⟨hstays, fun _ => hcnt⟩

/-- A full `sk_buff` goes to the tasklet, and the buffer is submitted with another one. -/
theorem queueSkb_spec (hk : Kept s) (hidle : (s.bufs i).urbs = 0) (hskb : (s.bufs i).skb ≠ none)
    (env : UrbEnv) :
    Served i s (rtlUsbReceive (queueSkb s i) i env).2 ∧
      (env.err = .none → (rtlUsbReceive (queueSkb s i) i env).2.rxPendingCnt =
        s.rxPendingCnt + UInt8.ofNat ((rtlUsbReceive (queueSkb s i) i env).2.bufs i).urbs) := by
  obtain ⟨x, hx⟩ := Option.ne_none_iff_exists'.mp hskb
  have hbuf : (queueSkb s i).bufs i = { s.bufs i with skb := none, reuse := false } :=
    setBuf_bufs_self
  have honly : OnlyBuf i s (queueSkb s i) := ⟨fun j hj => setBuf_bufs_of_ne hj, rfl, rfl, rfl, rfl⟩
  have hplace : s.places (.recvBuf i) = [x] := by
    show (s.bufs i).skb.toList = [x]
    rw [hx]
    rfl
  have hk1 : Kept (queueSkb s i) := by
    refine hk.move (.recvBuf i) .rxSkbQueue (by simp) rfl hplace ?_ ?_ ?_
    · show ((queueSkb s i).bufs i).skb.toList = []
      rw [hbuf]
      rfl
    · show s.rxSkbQueue ++ (s.bufs i).skb.toList = s.rxSkbQueue ++ [x]
      rw [hx]
      rfl
    · intro r hr hr'
      cases r with
      | recvBuf j =>
        show ((queueSkb s i).bufs j).skb.toList = (s.bufs j).skb.toList
        rw [honly.bufs j fun hj => hr' (congrArg _ hj)]
      | rxSkbQueue => exact absurd rfl hr
      | freeRecvSkbQueue => rfl
      | freed => rfl
      | copies => rfl
  have hready : Ready ((queueSkb s i).bufs i) := by
    rw [hbuf]
    exact ⟨hidle, Or.inr rfl⟩
  obtain ⟨hserved, hcnt⟩ := rtlUsbReceive_spec hk1 hready env
  exact ⟨hserved.after honly, hcnt⟩

/-- A completion of the URB of buffer `i`. While the URBs are cancelled the buffer keeps its
    `sk_buff`. -/
theorem rtlRxComplete_spec (hk : Kept s) (hone : (s.bufs i).urbs = 1)
    (hskb : (s.bufs i).skb ≠ none) (status : UrbStatus) (n : ℕ) (env : UrbEnv) :
    Served i s (rtlRxComplete s i status n env) ∧
      (s.bReadPortCancel = true → Ready ((rtlRxComplete s i status n env).bufs i)) ∧
      (env.err = .none ∨ s.bReadPortCancel = true →
        (rtlRxComplete s i status n env).rxPendingCnt = s.rxPendingCnt - 1 +
          UInt8.ofNat ((rtlRxComplete s i status n env).bufs i).urbs) := by
  have hk1 : Kept (retired s i) := hk.congr (places_setBuf_same rfl) rfl
  have ho1 : OnlyBuf i s (retired s i) := ⟨fun j hj => setBuf_bufs_of_ne hj, rfl, rfl, rfl, rfl⟩
  have hbuf : (retired s i).bufs i = { s.bufs i with urbs := (s.bufs i).urbs - 1 } :=
    setBuf_bufs_self
  have hidle : ((retired s i).bufs i).urbs = 0 := by rw [hbuf, hone]
  have hskb1 : ((retired s i).bufs i).skb ≠ none := by rw [hbuf]; exact hskb
  have hcnt1 : (retired s i).rxPendingCnt = s.rxPendingCnt - 1 := rfl
  rw [rtlRxComplete, ← hcnt1]
  dsimp only
  by_cases hflags : (retired s i).bSurpriseRemoved || (retired s i).bDriverStopped ||
      (retired s i).bReadPortCancel
  · obtain ⟨hserved, hready⟩ := served_reuse hk1 hidle
    rw [if_pos hflags]
    refine ⟨hserved.after ho1, fun _ => hready, fun _ => ?_⟩
    rw [hready.idle, add_ofNat_zero]
    rfl
  · have hcancel : s.bReadPortCancel ≠ true := by
      intro hc
      apply hflags
      rw [show (retired s i).bReadPortCancel = true from hc, Bool.or_true]
    rw [if_neg hflags]
    by_cases hok : status = .success
    · rw [if_pos hok]
      by_cases hlen : maxRecvbufSz < n ∨ n < rxdescSize
      · obtain ⟨hserved, hcnt⟩ := resubmit_spec hk1 hidle env
        rw [if_pos hlen]
        exact ⟨hserved.after ho1, fun hc => absurd hc hcancel,
          fun he => hcnt (he.resolve_right hcancel)⟩
      · obtain ⟨hserved, hcnt⟩ := queueSkb_spec hk1 hidle hskb1 env
        rw [if_neg hlen]
        exact ⟨hserved.after ho1, fun hc => absurd hc hcancel,
          fun he => hcnt (he.resolve_right hcancel)⟩
    · obtain ⟨hserved, hcnt⟩ := urbError_spec hk1 hidle status env
      rw [if_neg hok]
      exact ⟨hserved.after ho1, fun hc => absurd hc hcancel,
        fun he => hcnt (he.resolve_right hcancel)⟩

end complete

/-! ## The tasklet keeps them -/

section tasklet

variable {s s' : RxPriv} {x : ℕ} {fs : List RxFrame}

/-- Every frame that is left in a queue has its own copy of the data. -/
def QueuesCopies (fs : List RxFrame) : Prop := ∀ f ∈ fs, f.queue = true → f.copy = true

/-- The frames of a transfer get new copies, one after the other; the data of one that has none
    lies in the transfer. -/
theorem recvbuf2recvframe_spec (x : ℕ) (fs : List RxFrame) (s : RxPriv) :
    ∃ n ds, recvbuf2recvframe s x fs =
        { s with
          copies := s.copies ++ List.range' s.allocated n
          allocated := s.allocated + n
          queued := s.queued ++ ds } ∧
      (QueuesCopies fs → ∀ d ∈ ds, d ∈ List.range' s.allocated n) := by
  induction fs generalizing s with
  | nil => exact ⟨0, [], by simp [recvbuf2recvframe], fun _ d hd => absurd hd List.not_mem_nil⟩
  | cons f fs ih =>
    rw [recvbuf2recvframe]
    cases hd : rtwOsAllocRecvframe f x s.allocated with
    | none => exact ⟨0, [], by simp, fun _ d hd => absurd hd List.not_mem_nil⟩
    | some d =>
      dsimp only
      by_cases hcopy : f.copy
      · have hfresh : d = s.allocated := by
          rw [rtwOsAllocRecvframe, if_pos hcopy] at hd
          exact (Option.some.inj hd).symm
        rw [if_pos hcopy]
        obtain ⟨n, ds, hrest, hds⟩ := ih
          { s with
            copies := s.copies ++ [s.allocated]
            allocated := s.allocated + 1
            queued := s.queued ++ if f.queue then [d] else [] }
        refine ⟨n + 1, (if f.queue then [d] else []) ++ ds, ?_, fun hq d' hd' => ?_⟩
        · rw [hrest, List.range'_succ]
          simp only [List.append_assoc, List.singleton_append, Nat.add_assoc, Nat.add_comm 1 n]
        · rw [List.range'_succ, List.mem_cons]
          rcases List.mem_append.mp hd' with hd' | hd'
          · left
            split_ifs at hd' with hqueue
            · rw [List.mem_singleton.mp hd', hfresh]
            · exact absurd hd' List.not_mem_nil
          · exact Or.inr (hds (fun g hg => hq g (List.mem_cons_of_mem f hg)) d' hd')
      · rw [if_neg hcopy]
        obtain ⟨n, ds, hrest, hds⟩ := ih
          { s with queued := s.queued ++ if f.queue then [d] else [] }
        refine ⟨n, (if f.queue then [d] else []) ++ ds, ?_, fun hq d' hd' => ?_⟩
        · rw [hrest]
          simp only [List.append_assoc]
        · rcases List.mem_append.mp hd' with hd' | hd'
          · split_ifs at hd' with hqueue
            · exact absurd (hq f List.mem_cons_self hqueue) hcopy
            · exact absurd hd' List.not_mem_nil
          · exact hds (fun g hg => hq g (List.mem_cons_of_mem f hg)) d' hd'

/-- New copies. -/
theorem Kept.copies (hk : Kept s) (n : ℕ) :
    Kept { s with
      copies := s.copies ++ List.range' s.allocated n
      allocated := s.allocated + n } := by
  induction n with
  | zero => exact hk.congr (by simp) rfl
  | succ n ih =>
    refine ih.put .copies rfl ?_ ?_
    · show s.copies ++ List.range' s.allocated (n + 1) =
        s.copies ++ List.range' s.allocated n ++ [s.allocated + n]
      rw [List.range'_concat, Nat.one_mul, List.append_assoc]
    · intro r hr
      cases r with
      | copies => exact absurd rfl hr
      | recvBuf j => rfl
      | rxSkbQueue => rfl
      | freeRecvSkbQueue => rfl
      | freed => rfl

/-- What a round of the tasklet leaves alone. -/
structure SameBufs (s s' : RxPriv) : Prop where
  bufs : s'.bufs = s.bufs
  phase : s'.phase = s.phase
  cancel : s'.bReadPortCancel = s.bReadPortCancel
  cnt : s'.rxPendingCnt = s.rxPendingCnt

/-- A round of the tasklet. The frames that it leaves in queues are copies, if their data was
    copied. -/
theorem recvTasklet_spec (hk : Kept s) (fs : List RxFrame) :
    Kept (recvTasklet s fs) ∧ SameBufs s (recvTasklet s fs) ∧
      (QueuesCopies fs → (∀ d ∈ s.queued, d ∈ s.copies) →
        ∀ d ∈ (recvTasklet s fs).queued, d ∈ (recvTasklet s fs).copies) := by
  rw [recvTasklet]
  cases hrx : s.rxSkbQueue with
  | nil => exact ⟨hk, ⟨rfl, rfl, rfl, rfl⟩, fun _ h => h⟩
  | cons x rest =>
    dsimp only
    split_ifs with hflags
    · refine ⟨?_, ⟨rfl, rfl, rfl, rfl⟩, fun _ h => h⟩
      refine hk.move .rxSkbQueue .freed (by simp) rfl hrx rfl rfl fun r hr hr' => ?_
      cases r with
      | freed => exact absurd rfl hr
      | rxSkbQueue => exact absurd rfl hr'
      | recvBuf j => rfl
      | freeRecvSkbQueue => rfl
      | copies => rfl
    · obtain ⟨n, ds, heq, hds⟩ := recvbuf2recvframe_spec x fs { s with rxSkbQueue := rest }
      rw [heq]
      refine ⟨?_, ⟨rfl, rfl, rfl, rfl⟩, fun hq h d hd => ?_⟩
      · have hfree : Kept { s with
            rxSkbQueue := rest
            freeRecvSkbQueue := s.freeRecvSkbQueue ++ [x] } := by
          refine hk.move .rxSkbQueue .freeRecvSkbQueue (by simp) rfl hrx rfl rfl fun r hr hr' => ?_
          cases r with
          | freeRecvSkbQueue => exact absurd rfl hr
          | rxSkbQueue => exact absurd rfl hr'
          | recvBuf j => rfl
          | freed => rfl
          | copies => rfl
        exact (hfree.copies n).congr rfl rfl
      · rcases List.mem_append.mp hd with hd | hd
        · exact List.mem_append_left _ (h d hd)
        · exact List.mem_append_right _ (hds hq d hd)

end tasklet

/-! ## The invariant -/

section inv

variable {s s' : RxPriv} {i j k : ℕ} {a : RxStep} {env : UrbEnv}

/-- Starting has not come to buffer `i`, or cancelling is through with it, or it is none of the
    buffers. -/
def Phase.AtRest (p : Phase) (i : ℕ) : Prop :=
  nrRecvbuff ≤ i ∨
    match p with
    | .down => True
    | .starting k => k ≤ i
    | .up => False
    | .cancelling k => i < k

/-- What every step keeps. -/
structure Inv (s : RxPriv) : Prop where
  kept : Kept s
  one : ∀ i, (s.bufs i).urbs ≤ 1
  busy : ∀ i, 0 < (s.bufs i).urbs → (s.bufs i).skb ≠ none
  ready : ∀ i, s.phase.AtRest i → Ready (s.bufs i)
  cancel : ∀ k, s.phase = .cancelling k → s.bReadPortCancel = true

theorem inv_init (m : ℕ) : Inv (init m) where
  kept := kept_init m
  one _ := Nat.zero_le 1
  busy _ h := absurd h (Nat.lt_irrefl 0)
  ready _ _ := ⟨rfl, Or.inr rfl⟩
  cancel k h := by cases h

/-- The callers start the interface when it is down, stop it when that is done, and allow
    reading again when it is not being stopped. -/
def InTurn (s : RxPriv) : RxStep → Prop
  | .start => s.phase = .down
  | .cancel => s.phase = .down ∨ s.phase = .up
  | .resetDrvSw => ∀ k, s.phase ≠ .cancelling k
  | .startBuf _ | .cancelBuf | .complete .. | .tasklet _ | .release _ | .setFlags .. => True

/-- No submission of the step fails. -/
def Accepted : RxStep → Prop
  | .startBuf env | .complete _ _ _ env => env.err = .none
  | .start | .cancel | .cancelBuf | .tasklet _ | .release _ | .setFlags .. | .resetDrvSw => True

/-- Every frame that the step leaves in a queue has its own copy of the data. -/
def Copies : RxStep → Prop
  | .tasklet fs => QueuesCopies fs
  | .start | .startBuf _ | .cancel | .cancelBuf | .complete .. | .release _ | .setFlags ..
  | .resetDrvSw => True

/-- The counter counts from 1. -/
def Counted (s : RxPriv) : Prop := s.rxPendingCnt = UInt8.ofNat (1 + s.inFlight)

/-- The data of every frame that waits is a copy. -/
def Copied (s : RxPriv) : Prop := ∀ d ∈ s.queued, d ∈ s.copies

/-- Only the state of the buffer that was served has changed. -/
theorem inFlight_served (h : OnlyBuf i s s') (hi : i < nrRecvbuff) :
    s'.inFlight + (s.bufs i).urbs = s.inFlight + (s'.bufs i).urbs := by
  have hrest : ∑ j ∈ (Finset.range nrRecvbuff).erase i, (s'.bufs j).urbs =
      ∑ j ∈ (Finset.range nrRecvbuff).erase i, (s.bufs j).urbs := by
    apply Finset.sum_congr rfl
    intro j hj
    rw [h.bufs j (Finset.ne_of_mem_erase hj)]
  have hmem : i ∈ Finset.range nrRecvbuff := Finset.mem_range.mpr hi
  rw [RxPriv.inFlight, RxPriv.inFlight, ← Finset.add_sum_erase _ _ hmem,
    ← Finset.add_sum_erase (Finset.range nrRecvbuff) (fun j => (s.bufs j).urbs) hmem, hrest]
  omega

theorem inFlight_congr (h : s'.bufs = s.bufs) : s'.inFlight = s.inFlight := by
  rw [RxPriv.inFlight, RxPriv.inFlight, h]

/-- Serving a buffer and a new phase keep the invariant if all buffers that are at rest then
    are ready. -/
theorem Inv.served (h : Inv s) (hs : Served i s s') (p : Phase)
    (hrest : ∀ j, j ≠ i → p.AtRest j → s.phase.AtRest j) (hready : p.AtRest i → Ready (s'.bufs i))
    (hcancel : ∀ k, p = .cancelling k → s.bReadPortCancel = true) :
    Inv { s' with phase := p } where
  kept := hs.kept.congr rfl rfl
  one j := by
    by_cases hj : j = i
    · exact hj ▸ hs.one
    · show (s'.bufs j).urbs ≤ 1
      rw [hs.only.bufs j hj]
      exact h.one j
  busy j := by
    by_cases hj : j = i
    · exact hj ▸ hs.busy
    · show 0 < (s'.bufs j).urbs → (s'.bufs j).skb ≠ none
      rw [hs.only.bufs j hj]
      exact h.busy j
  ready j hp := by
    by_cases hj : j = i
    · exact hj ▸ hready (hj ▸ hp)
    · show Ready (s'.bufs j)
      rw [hs.only.bufs j hj]
      exact h.ready j (hrest j hj hp)
  cancel k hk := hs.only.cancel.trans (hcancel k hk)

/-- A new phase keeps the invariant if all buffers that are at rest then are ready. -/
theorem Inv.rephase (h : Inv s) (p : Phase) (c : Bool)
    (hready : ∀ i, p.AtRest i → Ready (s.bufs i)) (hcancel : ∀ k, p = .cancelling k → c = true) :
    Inv { s with phase := p, bReadPortCancel := c } :=
  ⟨h.kept.congr rfl rfl, h.one, h.busy, hready, hcancel⟩

/-- A buffer with a URB in flight is not at rest. -/
theorem Inv.not_atRest (h : Inv s) (hi : (s.bufs i).urbs ≠ 0) : ¬s.phase.AtRest i :=
  fun hrest => hi (h.ready i hrest).idle

theorem Inv.urbs_eq_one (h : Inv s) (hi : (s.bufs i).urbs ≠ 0) : (s.bufs i).urbs = 1 :=
  Nat.le_antisymm (h.one i) (Nat.pos_of_ne_zero hi)

theorem Inv.lt_of_urbs (h : Inv s) (hi : (s.bufs i).urbs ≠ 0) : i < nrRecvbuff :=
  Nat.not_le.mp fun hle => h.not_atRest hi (Or.inl hle)

/-- What a step keeps. -/
structure StepKeeps (a : RxStep) (s s' : RxPriv) : Prop where
  inv : Inv s'
  counted : Accepted a → Counted s → Counted s'
  copied : Copies a → Copied s → Copied s'

theorem copied_congr (hqueued : s'.queued = s.queued) (hcopies : s'.copies = s.copies) :
    Copied s → Copied s' := by
  intro hc
  rw [Copied, hqueued, hcopies]
  exact hc

/-- A submission from rest is counted. -/
theorem counted_submit (ho : OnlyBuf i s s') (hi : i < nrRecvbuff) (hidle : (s.bufs i).urbs = 0)
    (hcnt : s'.rxPendingCnt = s.rxPendingCnt + UInt8.ofNat (s'.bufs i).urbs) :
    Counted s → Counted s' := by
  intro hc
  have hsum := inFlight_served ho hi
  rw [hidle, Nat.add_zero] at hsum
  rw [Counted, hcnt, hc, hsum, ← Nat.add_assoc]
  exact (UInt8.ofNat_add _ _).symm

/-- A completion is counted, with the submission that it makes. -/
theorem counted_complete (ho : OnlyBuf i s s') (hi : i < nrRecvbuff) (hone : (s.bufs i).urbs = 1)
    (hcnt : s'.rxPendingCnt = s.rxPendingCnt - 1 + UInt8.ofNat (s'.bufs i).urbs) :
    Counted s → Counted s' := by
  intro hc
  have hsum := inFlight_served ho hi
  have heq : UInt8.ofNat (1 + s'.inFlight) + 1 =
      UInt8.ofNat (1 + s.inFlight) + UInt8.ofNat (s'.bufs i).urbs := by
    have h1 : (1 : UInt8) = UInt8.ofNat 1 := rfl
    rw [h1, ← UInt8.ofNat_add, ← UInt8.ofNat_add]
    congr 1
    omega
  rw [Counted, hcnt, hc]
  grind

theorem startBuf_keeps (h : Inv s) (env : UrbEnv) :
    StepKeeps (.startBuf env) s (startBuf s env) := by
  rw [startBuf]
  cases hp : s.phase with
  | starting i =>
    dsimp only
    split_ifs with hi
    · have hrest : s.phase.AtRest i := by
        rw [hp]
        exact Or.inr (Nat.le_refl i)
      have hready := h.ready i hrest
      obtain ⟨hserved, hcnt⟩ := rtlUsbReceive_spec h.kept hready env
      cases hrecv : rtlUsbReceive s i env with
      | mk ok s2 =>
        rw [hrecv] at hserved hcnt
        cases ok with
        | false =>
          refine ⟨h.served hserved .up ?_ ?_ (fun k hk => by cases hk), fun ha hc => ?_,
            fun _ => copied_congr hserved.only.queued hserved.only.copies⟩
          · exact fun j _ hj => Or.inl (hj.resolve_right id)
          · exact fun hj => absurd (hj.resolve_right id) (Nat.not_le.mpr hi)
          · have hcounted : Counted s2 := counted_submit hserved.only hi hready.idle (hcnt ha) hc
            exact hcounted
        | true =>
          refine ⟨h.served hserved (.starting (i + 1)) ?_ ?_ (fun k hk => by cases hk),
            fun ha hc => ?_, fun _ => copied_congr hserved.only.queued hserved.only.copies⟩
          · intro j _ hj
            rw [hp]
            exact hj.imp_right fun hle => Nat.le_of_succ_le hle
          · intro hj
            rcases hj with hj | hj
            · exact absurd hj (Nat.not_le.mpr hi)
            · exact absurd hj (Nat.not_succ_le_self i)
          · have hcounted : Counted s2 := counted_submit hserved.only hi hready.idle (hcnt ha) hc
            exact hcounted
    · refine ⟨h.rephase .up s.bReadPortCancel ?_ (fun k hk => by cases hk), fun _ hc => hc,
        fun _ hc => hc⟩
      intro j hj
      refine h.ready j (Or.inl (hj.resolve_right id))
  | down => exact ⟨h, fun _ hc => hc, fun _ hc => hc⟩
  | up => exact ⟨h, fun _ hc => hc, fun _ hc => hc⟩
  | cancelling k => exact ⟨h, fun _ hc => hc, fun _ hc => hc⟩

theorem complete_keeps (h : Inv s) (hi : (s.bufs i).urbs ≠ 0) (status : UrbStatus) (n : ℕ)
    (env : UrbEnv) :
    StepKeeps (.complete i status n env) s (rtlRxComplete s i status n env) := by
  have hone := h.urbs_eq_one hi
  obtain ⟨hserved, -, hcnt⟩ :=
    rtlRxComplete_spec h.kept hone (h.busy i (Nat.pos_of_ne_zero hi)) status n env
  have hinv := h.served hserved s.phase (fun _ _ hj => hj)
    (fun hrest => absurd hrest (h.not_atRest hi)) h.cancel
  have hsame : { rtlRxComplete s i status n env with phase := s.phase } =
      rtlRxComplete s i status n env := by
    rw [← hserved.only.phase]
  rw [hsame] at hinv
  refine ⟨hinv, fun ha hc => ?_, fun _ => copied_congr hserved.only.queued hserved.only.copies⟩
  exact counted_complete hserved.only (h.lt_of_urbs hi) hone (hcnt (Or.inl ha)) hc

/-- After a round of cancelling the buffer is ready. -/
theorem kill_spec (h : Inv s) (hi : i < nrRecvbuff) (hcancel : s.bReadPortCancel = true) :
    Served i s (usbKillUrb (s.setBuf i { s.bufs i with reuse := true }) i) ∧
      Ready ((usbKillUrb (s.setBuf i { s.bufs i with reuse := true }) i).bufs i) ∧
      (Counted s → Counted (usbKillUrb (s.setBuf i { s.bufs i with reuse := true }) i)) := by
  have honly : OnlyBuf i s (s.setBuf i { s.bufs i with reuse := true }) := onlyBuf_setBuf s i _
  have hbuf : (s.setBuf i { s.bufs i with reuse := true }).bufs i =
      { s.bufs i with reuse := true } := setBuf_bufs_self
  have hkept : Kept (s.setBuf i { s.bufs i with reuse := true }) :=
    h.kept.congr (places_setBuf_same rfl) rfl
  have hcounted : Counted s → Counted (s.setBuf i { s.bufs i with reuse := true }) := by
    intro hc
    have hsum := inFlight_served honly hi
    rw [hbuf, Nat.add_right_cancel_iff] at hsum
    rw [Counted, hsum]
    exact hc
  rw [usbKillUrb, hbuf]
  dsimp only
  by_cases hu : (s.bufs i).urbs = 0
  · rw [if_pos hu]
    refine ⟨Served.of_idle hkept honly (by rw [hbuf]; exact hu), ?_, hcounted⟩
    rw [hbuf]
    exact ⟨hu, Or.inl rfl⟩
  · rw [if_neg hu]
    have hone : ((s.setBuf i { s.bufs i with reuse := true }).bufs i).urbs = 1 := by
      rw [hbuf]
      exact h.urbs_eq_one hu
    have hskb : ((s.setBuf i { s.bufs i with reuse := true }).bufs i).skb ≠ none := by
      rw [hbuf]
      exact h.busy i (Nat.pos_of_ne_zero hu)
    obtain ⟨hserved, hready, hcnt⟩ :=
      rtlRxComplete_spec hkept hone hskb .enoent 0 ⟨false, .eperm⟩
    refine ⟨hserved.after honly, hready hcancel, fun hc => ?_⟩
    exact counted_complete hserved.only hi hone (hcnt (Or.inr hcancel)) (hcounted hc)

theorem cancelBuf_keeps (h : Inv s) : StepKeeps .cancelBuf s (cancelBuf s) := by
  rw [cancelBuf]
  cases hp : s.phase with
  | cancelling i =>
    have hcancel := h.cancel i hp
    dsimp only
    split_ifs with hi
    · obtain ⟨hserved, hready, hcounted⟩ := kill_spec h hi hcancel
      refine ⟨h.served hserved (.cancelling (i + 1)) ?_ (fun _ => hready) (fun _ _ => hcancel),
        fun _ => hcounted, fun _ => copied_congr hserved.only.queued hserved.only.copies⟩
      intro j hj hrest
      rw [hp]
      exact hrest.imp_right fun hlt => Nat.lt_of_le_of_ne (Nat.le_of_lt_succ hlt) hj
    · refine ⟨h.rephase .down s.bReadPortCancel ?_ (fun k hk => by cases hk), fun _ hc => hc,
        fun _ hc => hc⟩
      intro j _
      refine h.ready j ?_
      rw [hp]
      by_cases hj : nrRecvbuff ≤ j
      · exact Or.inl hj
      · exact Or.inr (Nat.lt_of_lt_of_le (Nat.not_le.mp hj) (Nat.not_lt.mp hi))
  | down => exact ⟨h, fun _ hc => hc, fun _ hc => hc⟩
  | up => exact ⟨h, fun _ hc => hc, fun _ hc => hc⟩
  | starting k => exact ⟨h, fun _ hc => hc, fun _ hc => hc⟩

theorem step_keeps (h : Inv s) (hturn : InTurn s a) : StepKeeps a s (step s a) := by
  cases a with
  | start =>
    have hdown : s.phase = .down := hturn
    refine ⟨h.rephase (.starting 0) s.bReadPortCancel (fun j _ => h.ready j ?_)
      (fun k hk => by cases hk), fun _ hc => hc, fun _ hc => hc⟩
    rw [hdown]
    exact Or.inr trivial
  | startBuf env => exact startBuf_keeps h env
  | cancel =>
    refine ⟨h.rephase (.cancelling 0) true ?_ (fun _ _ => rfl), fun _ hc => hc, fun _ hc => hc⟩
    exact fun j hj => h.ready j (Or.inl (hj.resolve_right (Nat.not_lt_zero j)))
  | cancelBuf => exact cancelBuf_keeps h
  | complete i status n env =>
    rw [step]
    split_ifs with hi
    · exact ⟨h, fun _ hc => hc, fun _ hc => hc⟩
    · exact complete_keeps h hi status n env
  | tasklet fs =>
    obtain ⟨hkept, hsame, hcopied⟩ := recvTasklet_spec h.kept fs
    refine ⟨⟨hkept, ?_, ?_, ?_, ?_⟩, fun _ hc => ?_, hcopied⟩
    · show ∀ i, ((recvTasklet s fs).bufs i).urbs ≤ 1
      rw [hsame.bufs]
      exact h.one
    · show ∀ i, 0 < ((recvTasklet s fs).bufs i).urbs → ((recvTasklet s fs).bufs i).skb ≠ none
      rw [hsame.bufs]
      exact h.busy
    · show ∀ i, (recvTasklet s fs).phase.AtRest i → Ready ((recvTasklet s fs).bufs i)
      rw [hsame.bufs, hsame.phase]
      exact h.ready
    · show ∀ k, (recvTasklet s fs).phase = .cancelling k → (recvTasklet s fs).bReadPortCancel = true
      rw [hsame.phase, hsame.cancel]
      exact h.cancel
    · show (recvTasklet s fs).rxPendingCnt = _
      rw [hsame.cnt, hc]
      exact congrArg (fun n => UInt8.ofNat (1 + n)) (inFlight_congr hsame.bufs).symm
  | release x =>
    refine ⟨⟨h.kept.congr rfl rfl, h.one, h.busy, h.ready, h.cancel⟩, fun _ hc => hc, ?_⟩
    exact fun _ hc d hd => hc d (List.mem_of_mem_erase hd)
  | setFlags stopped removed pnp =>
    exact ⟨⟨h.kept.congr rfl rfl, h.one, h.busy, h.ready, h.cancel⟩, fun _ hc => hc, fun _ hc => hc⟩
  | resetDrvSw =>
    refine ⟨h.rephase s.phase false h.ready (fun k hk => absurd hk (hturn k)), fun _ hc => hc,
      fun _ hc => hc⟩

end inv

/-! ## Along every run -/

section runs

variable {s : RxPriv}

/-- What is said of a state: every `sk_buff` that was allocated is in exactly one place, once,
    and no buffer has two URBs in flight. -/
structure Conserved (s : RxPriv) : Prop where
  place : ∀ x < s.allocated, ∃! p, x ∈ s.places p
  once : ∀ p, (s.places p).Nodup
  oneUrb : ∀ i, (s.bufs i).urbs ≤ 1

/-- No frame that waits in a queue has its data in an `sk_buff` that a URB fills. -/
def Unshared (s : RxPriv) : Prop :=
  ∀ i, 0 < (s.bufs i).urbs → ∀ x, (s.bufs i).skb = some x → x ∉ s.queued

theorem Inv.conserved (h : Inv s) : Conserved s where
  place x hx := h.kept.excl.existsUnique ((h.kept.all x).mpr hx)
  once := h.kept.excl.nodup
  oneUrb := h.one

theorem Inv.inFlight_le (h : Inv s) : s.inFlight ≤ nrRecvbuff := by
  have h0 := h.one 0
  have h1 := h.one 1
  have h2 := h.one 2
  have h3 := h.one 3
  simp only [RxPriv.inFlight, nrRecvbuff, Finset.sum_range_succ, Finset.sum_range_zero]
  omega

theorem Inv.cnt (h : Inv s) (hc : Counted s) : s.rxPendingCnt.toNat = 1 + s.inFlight := by
  have hle : s.inFlight ≤ 4 := h.inFlight_le
  rw [hc, UInt8.toNat_ofNat', Nat.mod_eq_of_lt (by omega)]

theorem Inv.unshared (h : Inv s) (hc : Copied s) : Unshared s := by
  intro i _ x hx hq
  have hbuf : x ∈ s.places (.recvBuf i) := by
    show x ∈ (s.bufs i).skb.toList
    rw [hx]
    exact List.mem_singleton.mpr rfl
  have hcopy : x ∈ s.places .copies := hc x hq
  cases h.kept.excl.unique hbuf hcopy

/-- In every run in which the callers start, stop and reset in turn, with any completions, failed
    submissions, failed allocations and runs of the tasklet in between: every `sk_buff` is in
    exactly one place and no buffer has two URBs in flight; as long as no submission failed,
    `rx_pending_cnt` is one more than the number of URBs in flight; as long as every frame that
    was left in a queue was copied, none of them shares its data with a URB. -/
theorem recv_skbs_conserved (m : ℕ) (steps : List RxStep)
    (hg : Guarded step InTurn (init m) steps) :
    Conserved (run step (init m) steps) ∧
      ((∀ a ∈ steps, Accepted a) → (run step (init m) steps).rxPendingCnt.toNat =
        1 + (run step (init m) steps).inFlight) ∧
      ((∀ a ∈ steps, Copies a) → Unshared (run step (init m) steps)) := by
  have hinv : ∀ s a, InTurn s a → Inv s → Inv (step s a) := fun s a ht h => (step_keeps h ht).inv
  have hlast := invariant_run hinv hg (inv_init m)
  refine ⟨hlast.conserved, fun hacc => ?_, fun hcopies => ?_⟩
  · have hstep : ∀ s a, InTurn s a ∧ Accepted a → Inv s ∧ Counted s →
        Inv (step s a) ∧ Counted (step s a) := fun s a ⟨ht, ha⟩ ⟨h, hc⟩ =>
      ⟨(step_keeps h ht).inv, (step_keeps h ht).counted ha hc⟩
    have hboth := invariant_run hstep (hg.and (guarded_of_forall _ hacc)) ⟨inv_init m, rfl⟩
    exact hboth.1.cnt hboth.2
  · have hstep : ∀ s a, InTurn s a ∧ Copies a → Inv s ∧ Copied s →
        Inv (step s a) ∧ Copied (step s a) := fun s a ⟨ht, ha⟩ ⟨h, hc⟩ =>
      ⟨(step_keeps h ht).inv, (step_keeps h ht).copied ha hc⟩
    have hboth := invariant_run hstep (hg.and (guarded_of_forall _ hcopies))
      ⟨inv_init m, fun d hd => absurd hd List.not_mem_nil⟩
    exact hboth.1.unshared hboth.2

/-- A frame is received and copied, and the interface is stopped. -/
def oneFrame : List RxStep :=
  [.start, .startBuf ⟨true, .none⟩, .startBuf ⟨true, .none⟩, .startBuf ⟨true, .none⟩,
    .startBuf ⟨true, .none⟩, .startBuf ⟨true, .none⟩, .complete 0 .success 100 ⟨true, .none⟩,
    .tasklet [⟨false, true, true, true⟩], .cancel, .cancelBuf]

theorem oneFrame_conserved :
    Conserved (run step (init 8) oneFrame) ∧
      ((∀ a ∈ oneFrame, Accepted a) → (run step (init 8) oneFrame).rxPendingCnt.toNat =
        1 + (run step (init 8) oneFrame).inFlight) ∧
      ((∀ a ∈ oneFrame, Copies a) → Unshared (run step (init 8) oneFrame)) :=
  recv_skbs_conserved 8 oneFrame
    ⟨rfl, trivial, trivial, trivial, trivial, trivial, trivial, trivial, Or.inr rfl, trivial,
      trivial⟩

/-- The same with `rx_pending_cnt` as the number of URBs in flight, and without conditions. -/
structure AsClaimed (s : RxPriv) : Prop where
  conserved : Conserved s
  cnt : s.rxPendingCnt.toNat = s.inFlight
  unshared : Unshared s

/-- The counter is 1 from the start. A submission that fails is counted, a buffer that is
    started twice has two URBs, and the data of a clone that waits in a queue is filled by
    the next URB. -/
theorem not_as_claimed :
    ¬AsClaimed (init 8) ∧
      ¬AsClaimed (run step (init 8) [.start, .startBuf ⟨true, .other⟩]) ∧
      ¬Conserved (run step (init 8)
        [.start, .startBuf ⟨true, .none⟩, .start, .startBuf ⟨true, .none⟩]) ∧
      ¬Unshared (run step (init 0)
        [.start, .startBuf ⟨true, .none⟩, .complete 0 .success 100 ⟨true, .none⟩,
          .tasklet [⟨false, false, true, true⟩], .startBuf ⟨true, .none⟩]) := by
  refine ⟨fun h => ?_, fun h => ?_, fun h => ?_, fun h => ?_⟩
  · exact absurd h.cnt (by decide)
  · exact absurd h.cnt (by decide)
  · exact absurd (h.oneUrb 0) (by decide)
  · exact h 1 (by decide) 0 (by decide) (by decide)

end runs

end Rtl8821au.Usb.RecvBufs
