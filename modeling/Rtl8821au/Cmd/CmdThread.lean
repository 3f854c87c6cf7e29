import Mathlib.Data.List.Perm.Basic
import Rtl8821au.Lib.Run

/-!
# The command queue and its thread

`rtw_cmd_filter`, `rtw_enqueue_cmd`, `rtw_free_cmd_obj` and `rtw_cmd_thread` (`rtw_cmd.c`, lines
126–433) with the tables `wlancmds` and `rtw_cmd_callback` and, as far as they free the command,
the callbacks (lines 1586–1776). Callers and thread take their steps in any order; a call reads
the flags, adds its command to the queue and wakes the thread in three steps. What goes outside a
buffer or a table ends the thread.

Four things go wrong: a `cmdcode` equal to the length of the tables passes the comparison with
`<=`, the bytes that are copied are rounded up and not compared with the buffers, the callback of
a disconnect command that was dropped does not free it, and a caller that has passed the filter
can add its command after the thread has drained the queue.

* `inv_step`: what a step keeps.
* `cmdThread_right`: the order, the bounds and the ownership in every state of a run in which
  none of the four happens.
-/

namespace Rtl8821au.Cmd.CmdThread

/-! ## Model -/

/-- `MAX_CMDSZ`. -/
def maxCmdsz : ℕ := 1024

/-- `_RND4`. -/
def rnd4 (sz : UInt32) : UInt32 := ((sz >>> 2) + if sz &&& 3 ≠ 0 then 1 else 0) <<< 2

/-- `_JoinBss_CMD_`. -/
def joinBssCmd : UInt16 := 0

/-- `_DisConnect_CMD_`. -/
def disConnectCmd : UInt16 := 1

/-- `_CreateBss_CMD_`. -/
def createBssCmd : UInt16 := 2

/-- `H2C_SUCCESS`. -/
def h2cSuccess : UInt8 := 0

/-- `H2C_DROPPED`. -/
def h2cDropped : UInt8 := 3

/-- `H2C_PARAMETERS_ERROR`. -/
def h2cParametersError : UInt8 := 4

/-- The handlers. -/
inductive Hdl where
  | joinCmdHdl
  | disconnectHdl
  | createbssHdl
  | setopmodeHdl
  | sitesurveyCmdHdl
  | setauthHdl
  | setkeyHdl
  | setStakeyHdl
  | addBaHdl
  | setChHdl
  | txBeaconHdl
  | mlmeEvtHdl
  | rtwDrvextraCmdHdl
  | setCsaHdl
  deriving DecidableEq, Repr

/-- `wlancmds`. -/
def wlancmds : List Hdl :=
  [.joinCmdHdl, .disconnectHdl, .createbssHdl, .setopmodeHdl, .sitesurveyCmdHdl, .setauthHdl,
    .setkeyHdl, .setStakeyHdl, .addBaHdl, .setChHdl, .txBeaconHdl, .mlmeEvtHdl,
    .rtwDrvextraCmdHdl, .setCsaHdl]

/-- The callbacks. -/
inductive Callback where
  | joinbss
  | disassoc
  | createbss
  | survey
  | setstaKey
  deriving DecidableEq, Repr

/-- `rtw_cmd_callback`. -/
def rtwCmdCallback : List (Option Callback) :=
  [some .joinbss, some .disassoc, some .createbss, none, some .survey, none, none,
    some .setstaKey, none, none, none, none, none, none]

/-- `struct cmd_obj`: `parmLen` bytes are behind `parmbuf`, and `rsp` is not `NULL`. The objects
    are numbered as they are handed in. -/
structure CmdObj where
  id : ℕ := 0
  cmdcode : UInt16
  cmdsz : UInt32
  parmLen : ℕ
  rsp : Bool := false
  rspsz : UInt32 := 0
  deriving DecidableEq, Repr

/-- The parameter buffer is the command's own: `rtw_joinbss_cmd`, `rtw_createbss_cmd` and
    `rtw_createbss_cmd_ex` hand in memory of the driver. -/
def CmdObj.ownParm (o : CmdObj) : Bool := o.cmdcode ≠ joinBssCmd ∧ o.cmdcode ≠ createBssCmd

/-- The command has a response buffer. -/
def CmdObj.ownRsp (o : CmdObj) : Bool := o.rsp = true ∧ o.rspsz ≠ 0

/-- Where the thread is: not running, at the semaphore, at `_next`, with a command that it has
    dequeued, at `post_process`, out of the loop, in the loop that drains the queue, or outside
    a buffer or a table. -/
inductive Thread where
  | off
  | wait
  | next
  | got (o : CmdObj)
  | post (o : CmdObj) (res : UInt8)
  | leave
  | drain
  | fault
  deriving DecidableEq, Repr

/-- The flags, the queue with its semaphore, the thread, the calls between filter and queue
    (`adding`) and between queue and semaphore (`upping`), and what has happened: the commands
    handed in, refused, added, executed and freed, with their buffers, the bytes copied of a
    command, and the table lookups with the length of the table. -/
structure St where
  hwInitCompleted : Bool := false
  stopped : Bool := false
  cmdthdRunning : Bool := false
  sema : ℕ := 0
  queue : List CmdObj := []
  thread : Thread := .off
  adding : List CmdObj := []
  upping : ℕ := 0
  handed : List CmdObj := []
  refused : List CmdObj := []
  added : List CmdObj := []
  executed : List CmdObj := []
  freed : List CmdObj := []
  freedParm : List CmdObj := []
  freedRsp : List CmdObj := []
  copied : List (CmdObj × ℕ) := []
  looked : List (ℕ × ℕ) := []
  deriving DecidableEq

/-- `rtw_cmd_filter`. -/
def cmdFilter (s : St) : Bool := s.hwInitCompleted && s.cmdthdRunning

/-- `rtw_free_cmd_obj`. -/
def freeCmdObj (s : St) (o : CmdObj) : St :=
  { s with
    freedParm :=
      if o.cmdcode ≠ joinBssCmd ∧ o.cmdcode ≠ createBssCmd then s.freedParm ++ [o]
      else s.freedParm
    freedRsp := if o.rsp = true ∧ o.rspsz ≠ 0 then s.freedRsp ++ [o] else s.freedRsp
    freed := s.freed ++ [o] }

/-- What the handler returns; `disconnect_hdl` cannot fail. -/
def Hdl.result (hdl : Hdl) (ret : UInt8) : UInt8 := if hdl = .disconnectHdl then h2cSuccess else ret

/-- The callbacks end in `rtw_free_cmd_obj`, `rtw_disassoc_cmd_callback` only after a success. -/
def Callback.run (cb : Callback) (s : St) (o : CmdObj) (res : UInt8) : St :=
  if cb = .disassoc ∧ res ≠ h2cSuccess then s else freeCmdObj s o

/-- From the filter to `post_process`. -/
def process (s : St) (o : CmdObj) (ret : UInt8) : St :=
  if cmdFilter s = false then { s with thread := .post o h2cDropped }
  else
    let n := (rnd4 o.cmdsz).toNat
    let s := { s with copied := s.copied ++ [(o, n)] }
    if maxCmdsz < n ∨ o.parmLen < n then { s with thread := .fault }
    else if o.cmdcode.toNat ≤ wlancmds.length then
      let s := { s with looked := s.looked ++ [(o.cmdcode.toNat, wlancmds.length)] }
      match wlancmds[o.cmdcode.toNat]? with
      | none => { s with thread := .fault }
      | some hdl => { s with executed := s.executed ++ [o], thread := .post o (hdl.result ret) }
    else { s with thread := .post o h2cParametersError }

/-- `post_process`. -/
def postProcess (s : St) (o : CmdObj) (res : UInt8) : St :=
  if o.cmdcode.toNat ≤ rtwCmdCallback.length then
    let s := { s with looked := s.looked ++ [(o.cmdcode.toNat, rtwCmdCallback.length)] }
    match rtwCmdCallback[o.cmdcode.toNat]? with
    | none => { s with thread := .fault }
    | some none => { freeCmdObj s o with thread := .next }
    | some (some cb) => { cb.run s o res with thread := .next }
  else { freeCmdObj s o with thread := .next }

/-- A step of `rtw_cmd_thread`; `intr` is what `down_interruptible` returns, and `ret` what the
    handler returns. -/
def threadStep (s : St) (intr : Bool) (ret : UInt8) : St :=
  match s.thread with
  | .off => s
  | .wait =>
    if intr then { s with thread := .leave }
    else if s.sema = 0 then s
    else if s.stopped then { s with sema := s.sema - 1, thread := .leave }
    else { s with sema := s.sema - 1, thread := .next }
  | .next =>
    if s.stopped then { s with thread := .leave }
    else
      match s.queue with
      | [] => { s with thread := .wait }
      | o :: rest => { s with queue := rest, thread := .got o }
  | .got o => process s o ret
  | .post o res => postProcess s o res
  | .leave => { s with cmdthdRunning := false, thread := .drain }
  | .drain =>
    match s.queue with
    | [] => { s with thread := .off }
    | o :: rest => freeCmdObj { s with queue := rest } o
  | .fault => s

/-- What can happen: the flags change, `rtw_start_drv_threads` starts the thread and
    `rtw_stop_drv_threads` wakes it, `rtw_enqueue_cmd` is called, one of the calls adds its
    command or wakes the thread, and the thread takes a step. -/
inductive Act where
  | setHw (b : Bool)
  | setStopped (b : Bool)
  | start
  | wake
  | call (o : CmdObj)
  | add (k : ℕ)
  | up
  | thread (intr : Bool) (ret : UInt8)

/-- A call up to the filter. -/
def enqueueCmd (s : St) (o : CmdObj) : St :=
  let s := { s with handed := s.handed ++ [o] }
  if cmdFilter s = false then freeCmdObj { s with refused := s.refused ++ [o] } o
  else { s with adding := s.adding ++ [o] }

/-- One step; what is not possible changes nothing. -/
def step (s : St) : Act → St
  | .setHw b => { s with hwInitCompleted := b }
  | .setStopped b => { s with stopped := b }
  | .start => if s.thread = .off then { s with cmdthdRunning := true, thread := .wait } else s
  | .wake => { s with sema := s.sema + 1 }
  | .call o => enqueueCmd s { o with id := s.handed.length }
  | .add k =>
    match s.adding[k]? with
    | none => s
    | some o =>
      { s with
        adding := s.adding.eraseIdx k
        queue := s.queue ++ [o]
        added := s.added ++ [o]
        upping := s.upping + 1 }
  | .up => if s.upping = 0 then s else { s with upping := s.upping - 1, sema := s.sema + 1 }
  | .thread intr ret => threadStep s intr ret

/-! ## What it is for -/

/-- No call is under way, and the thread does not run or nothing wakes it. -/
def Idle (s : St) : Prop :=
  s.adding = [] ∧ s.upping = 0 ∧ (s.thread = .off ∨ s.thread = .wait ∧ s.sema = 0)

/-- Commands are executed in the order in which they were added, each at most once, lookups are
    inside the tables and copies inside both buffers, and no command or buffer is freed twice; when
    all is quiet each command that was handed in was freed, with its own buffers. -/
structure Right (s : St) : Prop where
  fifo : ∃ taken, s.added = taken ++ s.queue ∧ s.executed.Sublist taken
  once : s.executed.Nodup
  inTable : ∀ p ∈ s.looked, p.1 < p.2
  inBuf : ∀ p ∈ s.copied, p.2 ≤ maxCmdsz ∧ p.2 ≤ p.1.parmLen
  freedOnce : s.freed.Nodup ∧ s.freed ⊆ s.handed
  parm : s.freedParm = s.freed.filter CmdObj.ownParm
  rsp : s.freedRsp = s.freed.filter CmdObj.ownRsp
  all : Idle s → s.freed.Perm s.handed

/-- The step is none of those that go wrong. -/
def Fine (s : St) : Act → Prop
  | .thread _ _ =>
    match s.thread with
    | .got o =>
      o.cmdcode.toNat ≠ wlancmds.length ∧
        if s.hwInitCompleted = true then
          (rnd4 o.cmdsz).toNat ≤ maxCmdsz ∧ (rnd4 o.cmdsz).toNat ≤ o.parmLen
        else o.cmdcode ≠ disConnectCmd
    | .drain => s.queue = [] → s.adding = []
    | _ => True
  | _ => True

/-! ## The invariant -/

section invariant

variable {s : St} {o : CmdObj} {rest : List CmdObj} {ret res : UInt8}

/-- The command that the thread has. -/
def hand (s : St) : List CmdObj :=
  match s.thread with
  | .got o => [o]
  | .post o _ => [o]
  | _ => []

/-- The command that the thread has and that it has not executed. -/
def fresh (s : St) : List CmdObj :=
  match s.thread with
  | .got o => [o]
  | _ => []

/-- What the thread relies on where it is. -/
def Placed (s : St) : Prop :=
  match s.thread with
  | .off => s.cmdthdRunning = false ∧ s.queue = [] ∧ s.adding = []
  | .wait => s.cmdthdRunning = true ∧ s.queue.length ≤ s.sema + s.upping
  | .next => s.cmdthdRunning = true
  | .got _ => s.cmdthdRunning = true
  | .post o res => s.cmdthdRunning = true ∧ o.cmdcode.toNat ≠ wlancmds.length ∧
      (o.cmdcode = disConnectCmd → res = h2cSuccess)
  | .leave => s.cmdthdRunning = true
  | .drain => s.cmdthdRunning = false
  | .fault => False

/-- Where the commands are, and what was touched. -/
structure Inv (s : St) : Prop where
  ids : s.handed.map CmdObj.id = List.range s.handed.length
  calls : (s.refused ++ (s.adding ++ s.added)).Perm s.handed
  owned : (s.freed ++ (s.adding ++ (s.queue ++ hand s))).Perm s.handed
  order : ∃ taken, s.added = taken ++ (fresh s ++ s.queue) ∧ s.executed.Sublist taken
  parm : s.freedParm = s.freed.filter CmdObj.ownParm
  rsp : s.freedRsp = s.freed.filter CmdObj.ownRsp
  inTable : ∀ p ∈ s.looked, p.1 < p.2
  inBuf : ∀ p ∈ s.copied, p.2 ≤ maxCmdsz ∧ p.2 ≤ p.1.parmLen
  placed : Placed s

theorem handed_nodup (h : Inv s) : s.handed.Nodup :=
  List.Nodup.of_map CmdObj.id (h.ids ▸ List.nodup_range)

/-- What the invariant says without the thread. -/
theorem Inv.right (h : Inv s) : Right s := by
  have hnd := handed_nodup h
  have hadded : s.added.Nodup :=
    (List.nodup_append.mp (List.nodup_append.mp (h.calls.nodup_iff.mpr hnd)).2.1).2.1
  obtain ⟨taken, htaken, hex⟩ := h.order
  refine ⟨⟨taken ++ fresh s, ?_, ?_⟩, ?_, h.inTable, h.inBuf, ⟨?_, ?_⟩, h.parm, h.rsp, ?_⟩
  · rw [htaken, List.append_assoc]
  · exact hex.trans (List.sublist_append_left _ _)
  · rw [htaken] at hadded
    exact (hex.trans (List.sublist_append_left _ _)).nodup hadded
  · exact (List.nodup_append.mp (h.owned.nodup_iff.mpr hnd)).1
  · exact fun x hx => h.owned.subset (List.mem_append_left _ hx)
  · rintro ⟨hadding, hupping, hthread⟩
    have howned := h.owned
    have hplaced := h.placed
    have hquiet : s.queue = [] ∧ hand s = [] := by
      unfold Placed at hplaced
      unfold hand
      rcases hthread with hoff | ⟨hwait, hsema⟩
      · rw [hoff] at hplaced ⊢
        exact ⟨hplaced.2.1, rfl⟩
      · rw [hwait] at hplaced ⊢
        have hlen := hplaced.2
        rw [hsema, hupping] at hlen
        exact ⟨List.eq_nil_of_length_eq_zero (Nat.le_zero.mp hlen), rfl⟩
    rw [hadding, hquiet.1, hquiet.2, List.append_nil, List.append_nil, List.append_nil] at howned
    exact howned

theorem inv_init : Inv {} :=
  ⟨rfl, List.Perm.refl _, List.Perm.refl _, ⟨[], rfl, List.Sublist.refl _⟩, rfl, rfl,
    fun _ hp => absurd hp List.not_mem_nil, fun _ hp => absurd hp List.not_mem_nil,
    rfl, rfl, rfl⟩

theorem filter_snoc (p : CmdObj → Bool) (l : List CmdObj) :
    (l ++ [o]).filter p = if p o = true then l.filter p ++ [o] else l.filter p := by
  rw [List.filter_append]
  split_ifs with h
  · rw [List.filter_cons_of_pos h, List.filter_nil]
  · rw [List.filter_cons_of_neg h, List.filter_nil, List.append_nil]

/-- The buffers go with the object. -/
theorem freeCmdObj_bufs (hparm : s.freedParm = s.freed.filter CmdObj.ownParm)
    (hrsp : s.freedRsp = s.freed.filter CmdObj.ownRsp) (o : CmdObj) :
    (freeCmdObj s o).freedParm = (freeCmdObj s o).freed.filter CmdObj.ownParm ∧
      (freeCmdObj s o).freedRsp = (freeCmdObj s o).freed.filter CmdObj.ownRsp := by
  unfold freeCmdObj
  dsimp only
  rw [filter_snoc, filter_snoc, ← hparm, ← hrsp]
  exact ⟨if_congr decide_eq_true_iff.symm rfl rfl, if_congr decide_eq_true_iff.symm rfl rfl⟩

/-- The callers do not disturb the thread: they add to the queue and count the semaphore up
    later, and before the thread runs they do not come to it. -/
theorem Placed.callers (h : Placed s) {s' : St} (hthread : s'.thread = s.thread)
    (hrun : s'.cmdthdRunning = s.cmdthdRunning)
    (hoff : s.cmdthdRunning = false → s.adding = [] → s.queue = [] →
      s'.queue = [] ∧ s'.adding = [])
    (hwait : s.queue.length ≤ s.sema + s.upping → s'.queue.length ≤ s'.sema + s'.upping) :
    Placed s' := by
  unfold Placed at h ⊢
  rw [hthread, hrun]
  cases hs : s.thread with
  | off =>
    rw [hs] at h
    exact ⟨h.1, hoff h.1 h.2.2 h.2.1⟩
  | wait =>
    rw [hs] at h
    exact ⟨h.1, hwait h.2⟩
  | next | got | post | leave | drain | fault =>
    rw [hs] at h
    exact h

/-- A call hands in its command. -/
theorem inv_enqueueCmd (h : Inv s) (hid : o.id = s.handed.length) : Inv (enqueueCmd s o) := by
  have hids : (s.handed ++ [o]).map CmdObj.id = List.range (s.handed ++ [o]).length := by
    rw [List.map_append, h.ids, List.length_append, List.length_singleton, List.range_succ,
      List.map_singleton, hid]
  unfold enqueueCmd
  dsimp only
  split_ifs with hfilter
  · obtain ⟨hparm, hrsp⟩ := freeCmdObj_bufs h.parm h.rsp o
    refine { h with ids := hids, calls := ?_, owned := ?_, parm := hparm, rsp := hrsp,
                    placed := ?_ }
    · show (s.refused ++ [o] ++ (s.adding ++ s.added)).Perm (s.handed ++ [o])
      refine List.perm_iff_count.mpr fun a => ?_
      have ha := List.perm_iff_count.mp h.calls a
      simp only [List.count_append] at ha ⊢
      omega
    · show (s.freed ++ [o] ++ (s.adding ++ (s.queue ++ hand s))).Perm (s.handed ++ [o])
      refine List.perm_iff_count.mpr fun a => ?_
      have ha := List.perm_iff_count.mp h.owned a
      simp only [List.count_append] at ha ⊢
      omega
    · exact h.placed.callers rfl rfl (fun _ hadding hq => ⟨hq, hadding⟩) id
  · refine { h with ids := hids, calls := ?_, owned := ?_, placed := ?_ }
    · refine List.perm_iff_count.mpr fun a => ?_
      have ha := List.perm_iff_count.mp h.calls a
      simp only [List.count_append] at ha ⊢
      omega
    · show (s.freed ++ (s.adding ++ [o] ++ (s.queue ++ hand s))).Perm (s.handed ++ [o])
      refine List.perm_iff_count.mpr fun a => ?_
      have ha := List.perm_iff_count.mp h.owned a
      simp only [List.count_append] at ha ⊢
      omega
    · refine h.placed.callers rfl rfl (fun hrun => absurd ?_ hfilter) id
      show (s.hwInitCompleted && s.cmdthdRunning) = false
      rw [hrun]
      exact Bool.and_false _

/-- A call adds its command to the queue. -/
theorem inv_add (h : Inv s) {k : ℕ} (hk : s.adding[k]? = some o) :
    Inv { s with
      adding := s.adding.eraseIdx k
      queue := s.queue ++ [o]
      added := s.added ++ [o]
      upping := s.upping + 1 } := by
  obtain ⟨hlt, rfl⟩ := List.getElem?_eq_some_iff.mp hk
  have hperm := List.perm_iff_count.mp (List.getElem_cons_eraseIdx_perm hlt)
  refine { h with calls := ?_, owned := ?_, order := ?_, placed := ?_ }
  · refine List.perm_iff_count.mpr fun a => ?_
    have ha := List.perm_iff_count.mp h.calls a
    have hp := hperm a
    rw [List.count_cons] at hp
    simp only [List.count_append, List.count_singleton] at ha ⊢
    omega
  · show (s.freed ++ (s.adding.eraseIdx k ++ (s.queue ++ [s.adding[k]] ++ hand s))).Perm s.handed
    refine List.perm_iff_count.mpr fun a => ?_
    have ha := List.perm_iff_count.mp h.owned a
    have hp := hperm a
    rw [List.count_cons] at hp
    simp only [List.count_append, List.count_singleton] at ha ⊢
    omega
  · obtain ⟨taken, htaken, hex⟩ := h.order
    refine ⟨taken, ?_, hex⟩
    show s.added ++ [s.adding[k]] = taken ++ (fresh s ++ (s.queue ++ [s.adding[k]]))
    rw [htaken, List.append_assoc, List.append_assoc]
  · refine h.placed.callers rfl rfl (fun _ hadding => ?_) fun hlen => ?_
    · rw [hadding] at hlt
      exact absurd hlt (Nat.not_lt_zero k)
    · show (s.queue ++ [s.adding[k]]).length ≤ s.sema + (s.upping + 1)
      rw [List.length_append, List.length_singleton]
      omega

/-! ## The thread -/

/-- The thread goes on without a command. -/
theorem inv_move (h : Inv s) (hhand : hand s = []) {s' : St}
    (hs' : ∃ b n t, s' = { s with cmdthdRunning := b, sema := n, thread := t })
    (hhand' : hand s' = []) (hplaced : Placed s') : Inv s' := by
  obtain ⟨b, n, t, rfl⟩ := hs'
  have howned := h.owned
  have hfresh : ∀ r : St, hand r = [] → fresh r = [] := by
    intro r hr
    unfold hand at hr
    unfold fresh
    cases hthread : r.thread with
    | got o =>
      rw [hthread] at hr
      cases hr
    | off | wait | next | post | leave | drain | fault => rfl
  obtain ⟨taken, htaken, hex⟩ := h.order
  rw [hfresh s hhand] at htaken
  rw [hhand] at howned
  refine { h with owned := ?_, order := ⟨taken, ?_, hex⟩, placed := hplaced }
  · rw [hhand']
    exact howned
  · rw [hfresh _ hhand']
    exact htaken

/-- The thread takes a command. -/
theorem inv_dequeue (h : Inv s) (hthread : s.thread = .next) (hq : s.queue = o :: rest) :
    Inv { s with queue := rest, thread := .got o } := by
  have hhand : hand s = [] := by unfold hand; rw [hthread]
  have hfresh : fresh s = [] := by unfold fresh; rw [hthread]
  have hplaced := h.placed
  obtain ⟨taken, htaken, hex⟩ := h.order
  unfold Placed at hplaced
  rw [hthread] at hplaced
  rw [hfresh, hq] at htaken
  refine { h with owned := ?_, order := ⟨taken, htaken, hex⟩, placed := hplaced }
  refine List.perm_iff_count.mpr fun a => ?_
  have ha := List.perm_iff_count.mp h.owned a
  rw [hhand, hq] at ha
  show (s.freed ++ (s.adding ++ (rest ++ [o]))).count a = s.handed.count a
  simp only [List.count_append, List.count_cons, List.count_nil] at ha ⊢
  omega

/-- The thread is done with a command up to `post_process`. -/
theorem inv_post (h : Inv s) (hthread : s.thread = .got o) {executed : List CmdObj}
    {copied : List (CmdObj × ℕ)} {looked : List (ℕ × ℕ)}
    (hex : executed = s.executed ∨ executed = s.executed ++ [o])
    (hcopied : ∀ p ∈ copied, p.2 ≤ maxCmdsz ∧ p.2 ≤ p.1.parmLen)
    (hlooked : ∀ p ∈ looked, p.1 < p.2) (hcode : o.cmdcode.toNat ≠ wlancmds.length)
    (hres : o.cmdcode = disConnectCmd → res = h2cSuccess) :
    Inv { s with
      executed := executed, copied := copied, looked := looked, thread := .post o res } := by
  have howned := h.owned
  have hhand : hand s = [o] := by unfold hand; rw [hthread]
  have hfresh : fresh s = [o] := by unfold fresh; rw [hthread]
  have hplaced := h.placed
  obtain ⟨taken, htaken, hsub⟩ := h.order
  unfold Placed at hplaced
  rw [hthread] at hplaced
  rw [hhand] at howned
  rw [hfresh] at htaken
  refine { h with owned := howned, order := ⟨taken ++ [o], ?_, ?_⟩, inBuf := hcopied,
                  inTable := hlooked, placed := ⟨hplaced, hcode, hres⟩ }
  · exact htaken.trans (List.append_assoc taken [o] s.queue).symm
  · rcases hex with rfl | rfl
    · exact hsub.trans (List.sublist_append_left _ _)
    · exact hsub.append_right [o]

/-- The thread frees its command. -/
theorem inv_free (h : Inv s) (hthread : s.thread = .post o res) {looked : List (ℕ × ℕ)}
    (hlooked : ∀ p ∈ looked, p.1 < p.2) :
    Inv { freeCmdObj { s with looked := looked } o with thread := .next } := by
  have hhand : hand s = [o] := by unfold hand; rw [hthread]
  have hfresh : fresh s = [] := by unfold fresh; rw [hthread]
  have hplaced := h.placed
  obtain ⟨hparm, hrsp⟩ := freeCmdObj_bufs h.parm h.rsp o
  obtain ⟨taken, htaken, hex⟩ := h.order
  unfold Placed at hplaced
  rw [hthread] at hplaced
  rw [hfresh] at htaken
  refine { h with owned := ?_, order := ⟨taken, htaken, hex⟩, parm := hparm, rsp := hrsp,
                  inTable := hlooked, placed := hplaced.1 }
  refine List.perm_iff_count.mpr fun a => ?_
  have ha := List.perm_iff_count.mp h.owned a
  rw [hhand] at ha
  show (s.freed ++ [o] ++ (s.adding ++ (s.queue ++ []))).count a = s.handed.count a
  simp only [List.count_append, List.count_nil] at ha ⊢
  omega

/-- The thread drains the queue. -/
theorem inv_drain (h : Inv s) (hthread : s.thread = .drain) (hq : s.queue = o :: rest) :
    Inv (freeCmdObj { s with queue := rest } o) := by
  have hfresh : fresh s = [] := by unfold fresh; rw [hthread]
  have hplaced := h.placed
  obtain ⟨hparm, hrsp⟩ := freeCmdObj_bufs h.parm h.rsp o
  obtain ⟨taken, htaken, hex⟩ := h.order
  unfold Placed at hplaced
  rw [hthread] at hplaced
  rw [hfresh, hq] at htaken
  refine { h with owned := ?_, order := ⟨taken ++ [o], ?_, ?_⟩, parm := hparm, rsp := hrsp,
                  placed := ?_ }
  · refine List.perm_iff_count.mpr fun a => ?_
    have ha := List.perm_iff_count.mp h.owned a
    rw [hq] at ha
    show (s.freed ++ [o] ++ (s.adding ++ (rest ++ hand s))).count a = s.handed.count a
    simp only [List.count_append, List.count_cons, List.count_nil] at ha ⊢
    omega
  · show s.added = taken ++ [o] ++ (fresh s ++ rest)
    rw [htaken, hfresh, List.append_assoc]
    rfl
  · exact hex.trans (List.sublist_append_left _ _)
  · show Placed { s with queue := rest }
    unfold Placed
    rw [hthread]
    exact hplaced

/-- The filter, the copy, the lookup and the handler. -/
theorem inv_process (h : Inv s) (hthread : s.thread = .got o)
    (hcode : o.cmdcode.toNat ≠ wlancmds.length)
    (hfine : if s.hwInitCompleted = true then
        (rnd4 o.cmdsz).toNat ≤ maxCmdsz ∧ (rnd4 o.cmdsz).toNat ≤ o.parmLen
      else o.cmdcode ≠ disConnectCmd) : Inv (process s o ret) := by
  have hrun : s.cmdthdRunning = true := by
    have hplaced := h.placed
    unfold Placed at hplaced
    rwa [hthread] at hplaced
  unfold process
  by_cases hhw : s.hwInitCompleted = true
  case neg =>
    have hfilter : cmdFilter s = false := by
      unfold cmdFilter
      rw [Bool.eq_false_iff.mpr hhw, Bool.false_and]
    rw [if_neg hhw] at hfine
    rw [if_pos hfilter]
    exact inv_post h hthread (Or.inl rfl) h.inBuf h.inTable hcode fun hdis => absurd hdis hfine
  have hfilter : ¬ cmdFilter s = false := by
    unfold cmdFilter
    rw [hhw, hrun]
    decide
  rw [if_pos hhw] at hfine
  have hroom : ¬ (maxCmdsz < (rnd4 o.cmdsz).toNat ∨ o.parmLen < (rnd4 o.cmdsz).toNat) := by
    rintro (hlt | hlt)
    · exact absurd hfine.1 (Nat.not_le.mpr hlt)
    · exact absurd hfine.2 (Nat.not_le.mpr hlt)
  have hcopied : ∀ p ∈ s.copied ++ [(o, (rnd4 o.cmdsz).toNat)],
      p.2 ≤ maxCmdsz ∧ p.2 ≤ p.1.parmLen := by
    intro p hp
    rcases List.mem_append.mp hp with hold | hnew
    · exact h.inBuf p hold
    · rw [List.mem_singleton.mp hnew]
      exact hfine
  rw [if_neg hfilter]
  dsimp only
  rw [if_neg hroom]
  by_cases hle : o.cmdcode.toNat ≤ wlancmds.length
  · have hlt : o.cmdcode.toNat < wlancmds.length := Nat.lt_of_le_of_ne hle hcode
    have hlooked : ∀ p ∈ s.looked ++ [(o.cmdcode.toNat, wlancmds.length)], p.1 < p.2 := by
      intro p hp
      rcases List.mem_append.mp hp with hold | hnew
      · exact h.inTable p hold
      · rw [List.mem_singleton.mp hnew]
        exact hlt
    rw [if_pos hle, List.getElem?_eq_getElem hlt]
    refine inv_post h hthread (Or.inr rfl) hcopied hlooked hcode fun hdis => ?_
    have hhdl : wlancmds[o.cmdcode.toNat] = .disconnectHdl := by
      have hone : o.cmdcode.toNat = 1 := by rw [hdis]; rfl
      simp only [hone]
      rfl
    rw [hhdl]
    rfl
  · rw [if_neg hle]
    refine inv_post h hthread (Or.inl rfl) hcopied h.inTable hcode fun hdis => absurd ?_ hle
    rw [hdis]
    decide

/-- The callback. -/
theorem inv_postProcess (h : Inv s) (hthread : s.thread = .post o res) :
    Inv (postProcess s o res) := by
  obtain ⟨-, hcode, hres⟩ : s.cmdthdRunning = true ∧ o.cmdcode.toNat ≠ wlancmds.length ∧
      (o.cmdcode = disConnectCmd → res = h2cSuccess) := by
    have hplaced := h.placed
    unfold Placed at hplaced
    rwa [hthread] at hplaced
  unfold postProcess
  by_cases hle : o.cmdcode.toNat ≤ rtwCmdCallback.length
  case neg =>
    rw [if_neg hle]
    exact inv_free h hthread h.inTable
  have hlt : o.cmdcode.toNat < rtwCmdCallback.length := Nat.lt_of_le_of_ne hle hcode
  have hlooked : ∀ p ∈ s.looked ++ [(o.cmdcode.toNat, rtwCmdCallback.length)], p.1 < p.2 := by
    intro p hp
    rcases List.mem_append.mp hp with hold | hnew
    · exact h.inTable p hold
    · rw [List.mem_singleton.mp hnew]
      exact hlt
  rw [if_pos hle]
  dsimp only
  cases hcb : rtwCmdCallback[o.cmdcode.toNat]? with
  | none => exact absurd hlt (Nat.not_lt.mpr (List.getElem?_eq_none_iff.mp hcb))
  | some cb =>
    cases cb with
    | none => exact inv_free h hthread hlooked
    | some cb =>
      have hfree : ¬ (cb = .disassoc ∧ res ≠ h2cSuccess) := by
        rintro ⟨rfl, hne⟩
        refine hne (hres (UInt16.toNat_inj.mp ?_))
        have hall : ∀ i < rtwCmdCallback.length,
            rtwCmdCallback[i]? = some (some .disassoc) → i = disConnectCmd.toNat := by decide
        exact hall _ hlt hcb
      show Inv { cb.run { s with looked := _ } o res with thread := .next }
      unfold Callback.run
      rw [if_neg hfree]
      exact inv_free h hthread hlooked

theorem inv_threadStep (h : Inv s) {intr : Bool} (hfine : Fine s (.thread intr ret)) :
    Inv (threadStep s intr ret) := by
  have hplaced := h.placed
  have hhand : ∀ t, s.thread = t → hand { s with thread := t } = hand s := by
    rintro t rfl
    rfl
  unfold Placed at hplaced
  unfold threadStep
  cases hthread : s.thread with
  | off => exact h
  | fault => exact h
  | wait =>
    rw [hthread] at hplaced
    have hnone : hand s = [] := (hhand _ hthread).symm
    dsimp only
    split_ifs with hintr hsema hstop
    · exact inv_move h hnone ⟨_, _, _, rfl⟩ rfl hplaced.1
    · exact h
    · exact inv_move h hnone ⟨_, _, _, rfl⟩ rfl hplaced.1
    · exact inv_move h hnone ⟨_, _, _, rfl⟩ rfl hplaced.1
  | next =>
    rw [hthread] at hplaced
    have hnone : hand s = [] := (hhand _ hthread).symm
    dsimp only
    split_ifs with hstop
    · exact inv_move h hnone ⟨_, _, _, rfl⟩ rfl hplaced
    · have htake : ∀ q, s.queue = q → Inv (match q with
          | [] => { s with thread := .wait }
          | o :: rest => { s with queue := rest, thread := .got o }) := by
        intro q hq
        cases q with
        | nil =>
          refine inv_move h hnone ⟨_, _, _, rfl⟩ rfl ⟨hplaced, ?_⟩
          show s.queue.length ≤ _
          rw [hq]
          exact Nat.zero_le _
        | cons o rest => exact inv_dequeue h hthread hq
      exact htake s.queue rfl
  | got o =>
    unfold Fine at hfine
    rw [hthread] at hfine
    exact inv_process h hthread hfine.1 hfine.2
  | post o res => exact inv_postProcess h hthread
  | leave => exact inv_move h (hhand _ hthread).symm ⟨_, _, _, rfl⟩ rfl rfl
  | drain =>
    rw [hthread] at hplaced
    unfold Fine at hfine
    rw [hthread] at hfine
    dsimp only
    have htake : ∀ q, s.queue = q → Inv (match q with
        | [] => { s with thread := .off }
        | o :: rest => freeCmdObj { s with queue := rest } o) := by
      intro q hq
      cases q with
      | nil =>
        exact inv_move h (hhand _ hthread).symm ⟨_, _, _, rfl⟩ rfl ⟨hplaced, hq, hfine hq⟩
      | cons o rest => exact inv_drain h hthread hq
    rw [hthread] at htake
    exact htake s.queue rfl

/-- What every step keeps that is none of those that go wrong. -/
theorem inv_step (s : St) (a : Act) (hfine : Fine s a) (h : Inv s) : Inv (step s a) := by
  cases a with
  | setHw b => exact { h with placed := h.placed }
  | setStopped b => exact { h with placed := h.placed }
  | start =>
    show Inv (if s.thread = .off then { s with cmdthdRunning := true, thread := .wait } else s)
    split_ifs with hoff
    · have hplaced := h.placed
      unfold Placed at hplaced
      rw [hoff] at hplaced
      refine inv_move h (by unfold hand; rw [hoff]) ⟨_, _, _, rfl⟩ rfl ⟨rfl, ?_⟩
      show s.queue.length ≤ _
      rw [hplaced.2.1]
      exact Nat.zero_le _
    · exact h
  | wake =>
    refine { h with placed := h.placed.callers rfl rfl (fun _ hadding hq => ⟨hq, hadding⟩) ?_ }
    intro hlen
    show s.queue.length ≤ s.sema + 1 + s.upping
    omega
  | call o => exact inv_enqueueCmd h rfl
  | add k =>
    unfold step
    dsimp only
    cases hk : s.adding[k]? with
    | none => exact h
    | some o => exact inv_add h hk
  | up =>
    show Inv (if s.upping = 0 then s else { s with upping := s.upping - 1, sema := s.sema + 1 })
    split_ifs with hup
    · exact h
    · refine { h with placed := h.placed.callers rfl rfl (fun _ hadding hq => ⟨hq, hadding⟩) ?_ }
      intro hlen
      show s.queue.length ≤ s.sema + 1 + (s.upping - 1)
      omega
  | thread intr ret => exact inv_threadStep h hfine

end invariant

/-! ## Every run -/

/-- In a run none of whose steps goes wrong the commands are executed in order and at most once,
    inside the buffers and the tables, and freed once. -/
theorem cmdThread_right (as : List Act) (h : Run.Guarded step Fine {} as) (n : ℕ) :
    Right (Run.run step {} (as.take n)) :=
  (Run.invariant_run_take inv_step h inv_init n).right

/-- A disconnect command with its four bytes is handed in. -/
def handIn : List Act :=
  [.setHw true, .start, .call ⟨0, disConnectCmd, 4, 4, false, 0⟩, .add 0, .up]

/-- The thread wakes up, takes it, and comes back to the semaphore. -/
def takes : List Act := List.replicate 5 (.thread false 0)

theorem cmdThread_right_handIn :
    Run.Guarded step Fine {} (handIn ++ takes) ∧
      Right (Run.run step {} ((handIn ++ takes).take 10)) := by
  have hg : Run.Guarded step Fine {} (handIn ++ takes) := by
    refine ⟨trivial, trivial, trivial, trivial, trivial, trivial, trivial, ?_, trivial, trivial,
      trivial⟩
    exact ⟨by decide, by decide⟩
  exact ⟨hg, cmdThread_right _ hg 10⟩

/-- The hardware is shut down before the thread takes the command. -/
def shutDown : List Act := handIn ++ .setHw false :: takes

/-- The dropped command is not freed. -/
theorem shutDown_leaks :
    Idle (Run.run step {} shutDown) ∧ (Run.run step {} shutDown).handed.length = 1 ∧
      (Run.run step {} shutDown).freed = [] ∧ ¬ Right (Run.run step {} shutDown) := by
  have hidle : Idle (Run.run step {} shutDown) :=
    ⟨by decide, by decide, Or.inr ⟨by decide, by decide⟩⟩
  have hhanded : (Run.run step {} shutDown).handed.length = 1 := by decide
  have hfreed : (Run.run step {} shutDown).freed = [] := by decide
  refine ⟨hidle, hhanded, hfreed, fun h => ?_⟩
  have hperm := (h.all hidle).length_eq
  rw [hfreed, hhanded] at hperm
  cases hperm

end Rtl8821au.Cmd.CmdThread
