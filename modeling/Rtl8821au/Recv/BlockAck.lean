import Rtl8821au.Recv.Delivery

/-!
# Block-ack sessions on one reorder queue

`process_addba_req` (`rtw_wlan_util.c`), the DELBA branch of `OnAction_back` and
`send_delba` (`rtw_mlme_ext.c`) start and end a session by writing `enable` and
`indicate_seq`. They leave the pending queue and its timer alone.

Results:
* `sessionStep_inv`: what a step keeps while every session starts with an empty queue.
* `session_undisturbed`: such sessions deliver in order and refuse no frame of their
  window; a session that starts with frames in the queue refuses one.
* `session_refuses`: a run that does so.
-/

namespace Rtl8821au.Recv

open SerialNum Run

/-! ## Model of the C code -/

/-- The queue that `rtw_alloc_stainfo` leaves (`rtw_sta_mgt.c`, lines 316–333). -/
def preorderAlloc : RecvReorderCtrl := { enable := false, indicateSeq := 0xFFFF, wsizeB := 64 }

/-- `process_addba_req` (`rtw_wlan_util.c`, lines 1990–2020) on the queue of its
    traffic identifier; `CONFIG_UPDATE_INDICATE_SEQ_WHILE_PROCESS_ADDBA_REQ` is not
    set. -/
def processAddbaReq (bAcceptAddbaReq : Bool) (preorderCtrl : RecvReorderCtrl) : RecvReorderCtrl :=
  { preorderCtrl with indicateSeq := 0xFFFF, enable := bAcceptAddbaReq }

/-- `OnAction_back` on a DELBA of the originator (`rtw_mlme_ext.c`, lines
    2146–2153). -/
def onActionDelba (preorderCtrl : RecvReorderCtrl) : RecvReorderCtrl :=
  { preorderCtrl with enable := false, indicateSeq := 0xFFFF }

/-- `send_delba` of the recipient (lines 4353–4364). -/
def sendDelba (preorderCtrl : RecvReorderCtrl) : RecvReorderCtrl :=
  if preorderCtrl.enable then { preorderCtrl with enable := false, indicateSeq := 0xFFFF }
  else preorderCtrl

/-! ## Sessions -/

/-- What happens to the queue. -/
inductive SessionOp where
  | data (op : ReorderOp)
  | addbaReq (bAcceptAddbaReq : Bool)
  | delba
  | sendDelba

/-- The frames handed on, as MSDUs or as A-MSDUs. -/
def handed (events : List RecvEvent) : List RecvFrame :=
  events.filterMap fun
    | .indicate f => some f
    | .deaggregate f => some f
    | .forget _ => none

/-- The frame takes part in reordering. -/
def queued (f : RecvFrame) : Bool :=
  f.attrib.amsdu != 0 || !reorderBypass (wlanhdrToEthhdr f).attrib

/-- The queue, with the frames that were pending when the last session started
    and those of the session that left the queue since. -/
structure Session where
  ctrl : RecvReorderCtrl := preorderAlloc
  stale : List RecvFrame := []
  delivered : List RecvFrame := []

/-- One step of the queue. -/
def sessionStep (drv : DriverState) (s : Session) : SessionOp → Session
  | .data (.arrive f) =>
    let r := recvIndicatepktReorder drv s.ctrl f
    { s with ctrl := r.ctrl
             delivered := s.delivered ++
               if queued f then (handed r.events).filter (· ∉ s.stale) else [] }
  | .data .timeout =>
    let r := rtwReorderingCtrlTimeoutHandler drv s.ctrl
    { s with ctrl := r.1, delivered := s.delivered ++ (handed r.2).filter (· ∉ s.stale) }
  | .addbaReq bAcceptAddbaReq =>
    { ctrl := processAddbaReq bAcceptAddbaReq s.ctrl, stale := s.ctrl.pending }
  | .delba => { s with ctrl := onActionDelba s.ctrl }
  | .sendDelba => { s with ctrl := Recv.sendDelba s.ctrl }

/-- The sequence number has 12 bits and the A-MSDU flag is a bit. -/
def SessionOp.FieldsOk : SessionOp → Prop
  | .data (.arrive f) => f.attrib.seqNum < 4096 ∧ f.attrib.amsdu ≤ 1
  | _ => True

/-- `indicate_seq … indicate_seq + wsize_b - 1`. -/
def InWindow (c : RecvReorderCtrl) (f : RecvFrame) : Prop :=
  dist (c.base f.attrib.seqNum) f < c.wsizeB

/-- Frames of earlier sessions do not disturb the session. -/
structure Undisturbed (drv : DriverState) (s : Session) : Prop where
  /-- The window starts ahead of the last delivery. -/
  ahead : ∀ L ∈ s.delivered.getLast?,
    1 ≤ fwd 4096 L.attrib.seqNum s.ctrl.indicateSeq ∧
      fwd 4096 L.attrib.seqNum s.ctrl.indicateSeq ≤ 2048
  inOrder : s.delivered.IsChain Follows
  /-- A frame of the window is taken, or the session has one like it. -/
  takes : ∀ f, f.attrib.seqNum < 4096 → f.attrib.amsdu ≤ 1 → InWindow s.ctrl f →
    (recvIndicatepktReorder drv s.ctrl f).status = .success ∨
      ∃ g ∈ s.ctrl.pending, g ∉ s.stale ∧ g.attrib.seqNum = f.attrib.seqNum

/-- A session starts with an empty queue. -/
def StartsEmpty (s : Session) (op : SessionOp) : Prop :=
  op = .addbaReq true → s.ctrl.pending = []

/-! ## One step -/

section step

variable {drv : DriverState} {c : RecvReorderCtrl} {f : RecvFrame}

theorem handed_map (hrun : drv.running = true) {done : List RecvFrame}
    (h : ∀ f ∈ done, f.attrib.amsdu ≤ 1) : handed (done.map (indicateOne drv)) = done := by
  induction done with
  | nil => rfl
  | cons f done ih =>
    have hf : f.attrib.amsdu = 0 ∨ f.attrib.amsdu = 1 := by
      have := h f List.mem_cons_self
      omega
    have ih := ih fun g hg => h g (List.mem_cons_of_mem f hg)
    rw [List.map_cons]
    show handed (indicateOne drv f :: done.map (indicateOne drv)) = f :: done
    rcases hf with hf | hf
    · rw [show indicateOne drv f = .indicate f by rw [indicateOne, if_pos hf, if_pos hrun]]
      show f :: handed (done.map (indicateOne drv)) = f :: done
      rw [ih]
    · rw [show indicateOne drv f = .deaggregate f by
        rw [indicateOne, if_neg (by omega), if_pos hf]]
      show f :: handed (done.map (indicateOne drv)) = f :: done
      rw [ih]

/-- The frame as the queue sees it. -/
def msduOf (f : RecvFrame) : RecvFrame := if f.attrib.amsdu = 0 then wlanhdrToEthhdr f else f

@[simp] theorem msduOf_seqNum (f : RecvFrame) :
    (msduOf f).attrib.seqNum = f.attrib.seqNum := by
  unfold msduOf
  split_ifs <;> simp

@[simp] theorem msduOf_amsdu (f : RecvFrame) : (msduOf f).attrib.amsdu = f.attrib.amsdu := by
  unfold msduOf
  split_ifs <;> simp

@[simp] theorem msduOf_ta (f : RecvFrame) : (msduOf f).attrib.ta = f.attrib.ta := by
  unfold msduOf
  split_ifs <;> simp

@[simp] theorem msduOf_ra (f : RecvFrame) : (msduOf f).attrib.ra = f.attrib.ra := by
  unfold msduOf
  split_ifs <;> simp

theorem queued_enqueue (drv : DriverState) (hen : c.enable = true) (hq : queued f = true) :
    recvIndicatepktReorder drv c f = reorderEnqueue drv c (msduOf f) := by
  unfold recvIndicatepktReorder msduOf
  by_cases h0 : f.attrib.amsdu = 0
  · have hb : reorderBypass (wlanhdrToEthhdr f).attrib = false := by
      simpa [queued, h0] using hq
    simp only [h0, hb, hen, if_true, Bool.not_true, Bool.false_eq_true, if_false]
  · simp [h0, hen]

/-- A frame that bypasses the queue leaves it alone. -/
theorem bypass_eq (hrun : drv.running = true) (hq : queued f = false) :
    (recvIndicatepktReorder drv c f).ctrl = c ∧
      (recvIndicatepktReorder drv c f).status = .success := by
  obtain ⟨h0, hb⟩ : f.attrib.amsdu = 0 ∧ reorderBypass (wlanhdrToEthhdr f).attrib = true := by
    simpa [queued] using hq
  simp only [recvIndicatepktReorder, h0, hb, hrun, if_true, and_self]

/-- A frame of the window is refused only if the queue has its sequence number. -/
theorem Window.takes (hW : Window c) (hw : 1 ≤ c.wsizeB) (hw' : c.wsizeB ≤ 256)
    (hf : f.attrib.seqNum < 4096) (hin : InWindow c f) :
    (reorderEnqueue drv c f).status = .success ∨
      ∃ g ∈ c.pending, g.attrib.seqNum = f.attrib.seqNum := by
  obtain ⟨hsort, hpend⟩ := hW.from_base f.attrib.seqNum
  have hd : fwd 4096 (c.base f.attrib.seqNum) f.attrib.seqNum < c.wsizeB := hin
  have hcheck := checkIndicateSeq_eq c hw hw' (hW.base_lt hf) hf
  rw [if_neg (by omega)] at hcheck
  have hins := insertReorder_spec hf (show dist (c.base f.attrib.seqNum) f ≤ 2047 by
    rw [dist]; omega) hsort fun g hg => by
      have := hpend g hg
      omega
  rw [← accepts_iff, accepts, hcheck, Bool.true_and]
  cases hq : insertReorder f c.pending with
  | none =>
    rw [hq] at hins
    exact Or.inr (List.mem_map.mp hins)
  | some q => exact Or.inl (by simp [enqueueReorderRecvframe, hq])

end step

/-! ## The invariant -/

/-- What holds while a session that started with an empty queue lasts. -/
structure LiveInv (s : Session) : Prop where
  stale : s.stale = []
  window : Window s.ctrl
  amsdu : ∀ g ∈ s.ctrl.pending, g.attrib.amsdu ≤ 1
  chain : s.delivered.IsChain Follows
  last : ∀ L ∈ s.delivered.getLast?,
    s.ctrl.indicateSeq ≠ 0xFFFF ∧ Reach L s.ctrl.indicateSeq s.ctrl.pending

/-- The window size never changes, and a session keeps its invariant. -/
structure SessionInv (s : Session) : Prop where
  wsize : s.ctrl.wsizeB = 64
  live : s.ctrl.enable = true → LiveInv s

theorem windowInv_of_live {s : Session} (hi : SessionInv s) (hen : s.ctrl.enable = true) :
    WindowInv 64 s.ctrl := ⟨hen, hi.wsize, (hi.live hen).window⟩

theorem filter_fresh (l : List RecvFrame) : l.filter (· ∉ ([] : List RecvFrame)) = l := by simp

/-- Arrivals and expiries keep the invariant of a session. -/
theorem LiveInv.data {drv : DriverState} (hrun : drv.running = true) {s : Session} {op : ReorderOp}
    (hop : (SessionOp.data op).FieldsOk) (hi : SessionInv s) (hen : s.ctrl.enable = true) :
    LiveInv (sessionStep drv s (.data op)) := by
  have hl := hi.live hen
  have hw := hi.wsize
  cases op with
  | arrive f =>
    obtain ⟨hseq, hamsdu⟩ := hop
    have hstep := (reorderStep_windowInv hrun (by decide) (by decide) s.ctrl (.arrive f) hseq
      (windowInv_of_live hi hen)).2.2
    cases hq : queued f with
    | false =>
      obtain ⟨hctrl, -⟩ := bypass_eq (c := s.ctrl) hrun hq
      refine ⟨hl.stale, hstep, ?_, ?_, ?_⟩ <;>
        simp only [sessionStep, hq, hctrl, Bool.false_eq_true, if_false, List.append_nil]
      · exact hl.amsdu
      · exact hl.chain
      · exact hl.last
    | true =>
      have henq := queued_enqueue drv hen hq
      have hf : (msduOf f).attrib.seqNum < 4096 := by rwa [msduOf_seqNum]
      rcases reorderEnqueue_chain drv hl.window (by omega) (by omega) hf hl.chain hl.last with
        ⟨-, hctrl, hev⟩ | ⟨done, rest, -, hev, hrest, hperm, hchain, hlast⟩
      · refine ⟨hl.stale, hstep, ?_, ?_, ?_⟩ <;>
          simp only [sessionStep, hq, henq, hctrl, hev, handed, if_true, List.filterMap_nil,
            List.filter_nil, List.append_nil]
        · exact hl.amsdu
        · exact hl.chain
        · exact hl.last
      · have hall : ∀ g ∈ done ++ rest, g.attrib.amsdu ≤ 1 := by
          intro g hg
          rcases List.mem_cons.mp (hperm.mem_iff.mpr hg) with rfl | hg
          · rwa [msduOf_amsdu]
          · exact hl.amsdu g hg
        have hdone := handed_map hrun fun g hg => hall g (List.mem_append_left rest hg)
        refine ⟨hl.stale, hstep, ?_, ?_, ?_⟩ <;>
          simp only [sessionStep, hq, henq, hev, hdone, hl.stale, filter_fresh, if_true]
        · rw [hrest]
          exact fun g hg => hall g (List.mem_append_right done hg)
        · exact hchain
        · exact hlast
  | timeout =>
    have hstep := (reorderStep_windowInv hrun (by decide) (by decide) s.ctrl .timeout trivial
      (windowInv_of_live hi hen)).2.2
    obtain ⟨done, rest, hev, hrest, hsplit, hchain, hlast⟩ :=
      timeout_chain hrun hl.window (by omega) hl.chain hl.last
    have hall : ∀ g ∈ done ++ rest, g.attrib.amsdu ≤ 1 := by
      rw [← hsplit]
      exact hl.amsdu
    have hdone := handed_map hrun fun g hg => hall g (List.mem_append_left rest hg)
    refine ⟨hl.stale, hstep, ?_, ?_, ?_⟩ <;>
      simp only [sessionStep, hev, hdone, hl.stale, filter_fresh]
    · rw [hrest]
      exact fun g hg => hall g (List.mem_append_right done hg)
    · exact hchain
    · exact hlast

/-- The queue after a restart with nothing pending. -/
theorem liveInv_addba {s : Session} (hq : s.ctrl.pending = []) :
    LiveInv { ctrl := processAddbaReq true s.ctrl, stale := s.ctrl.pending } where
  stale := hq
  window := by
    refine ⟨fun _ => hq, fun h => absurd rfl h, ?_, ?_⟩
    · rw [processAddbaReq, hq]
      exact Sorted.nil 4096 _
    · rw [processAddbaReq, hq]
      exact fun g hg => absurd hg List.not_mem_nil
  amsdu := by
    rw [processAddbaReq, hq]
    exact fun g hg => absurd hg List.not_mem_nil
  chain := List.isChain_nil
  last := fun L hL => by simp at hL

/-! ## Runs -/

section fields

variable (drv : DriverState) (c : RecvReorderCtrl) (f : RecvFrame)

/-- The members that only the start and the end of a session write. -/
def SameSession (c c' : RecvReorderCtrl) : Prop := c'.wsizeB = c.wsizeB ∧ c'.enable = c.enable

theorem inOrder_sameSession (bforced : Bool) :
    SameSession c (recvIndicatepktsInOrder drv c bforced).1 := by
  unfold recvIndicatepktsInOrder
  split <;> exact ⟨rfl, rfl⟩

theorem reorderEnqueue_sameSession : SameSession c (reorderEnqueue drv c f).ctrl := by
  have hcheck : SameSession c (checkIndicateSeq c f.attrib.seqNum).2 := by
    unfold checkIndicateSeq
    dsimp only
    split_ifs <;> exact ⟨rfl, rfl⟩
  unfold reorderEnqueue enqueueReorderRecvframe
  rcases hc : checkIndicateSeq c f.attrib.seqNum with ⟨_ | _, ctrl⟩
  · rwa [hc] at hcheck
  · rw [hc] at hcheck
    dsimp only at hcheck ⊢
    cases insertReorder f ctrl.pending with
    | none => exact hcheck
    | some q =>
      obtain ⟨h1, h2⟩ := inOrder_sameSession drv { ctrl with pending := q } false
      exact ⟨h1.trans hcheck.1, h2.trans hcheck.2⟩

theorem recvIndicatepktReorder_sameSession :
    SameSession c (recvIndicatepktReorder drv c f).ctrl := by
  unfold recvIndicatepktReorder
  dsimp only
  split_ifs
  · exact ⟨rfl, rfl⟩
  · exact ⟨rfl, rfl⟩
  · exact ⟨rfl, rfl⟩
  · exact reorderEnqueue_sameSession drv c _
  · exact ⟨rfl, rfl⟩
  · exact reorderEnqueue_sameSession drv c f

theorem timeout_sameSession : SameSession c (rtwReorderingCtrlTimeoutHandler drv c).1 := by
  unfold rtwReorderingCtrlTimeoutHandler
  dsimp only
  split_ifs
  · exact ⟨rfl, rfl⟩
  · exact inOrder_sameSession drv { c with timer := false } true

end fields

theorem sessionStep_data_sameSession (drv : DriverState) (s : Session) (op : ReorderOp) :
    SameSession s.ctrl (sessionStep drv s (.data op)).ctrl := by
  cases op with
  | arrive f => exact recvIndicatepktReorder_sameSession drv s.ctrl f
  | timeout => exact timeout_sameSession drv s.ctrl

theorem sessionStep_wsizeB (drv : DriverState) (s : Session) (op : SessionOp) :
    (sessionStep drv s op).ctrl.wsizeB = s.ctrl.wsizeB := by
  cases op with
  | data op => exact (sessionStep_data_sameSession drv s op).1
  | addbaReq bAcceptAddbaReq => rfl
  | delba => rfl
  | sendDelba =>
    show (Recv.sendDelba s.ctrl).wsizeB = _
    unfold Recv.sendDelba
    split_ifs <;> rfl

/-- Every step keeps the invariant when sessions start with an empty queue. -/
theorem sessionStep_inv {drv : DriverState} (hrun : drv.running = true) (s : Session)
    (op : SessionOp) (hop : op.FieldsOk ∧ StartsEmpty s op) (hi : SessionInv s) :
    SessionInv (sessionStep drv s op) := by
  cases op with
  | data op =>
    obtain ⟨hw, hen⟩ := sessionStep_data_sameSession drv s op
    refine ⟨hw.trans hi.wsize, fun h => ?_⟩
    exact LiveInv.data hrun hop.1 hi (hen.symm.trans h)
  | addbaReq bAcceptAddbaReq =>
    refine ⟨hi.wsize, fun h => ?_⟩
    obtain rfl : bAcceptAddbaReq = true := h
    exact liveInv_addba (hop.2 rfl)
  | delba => exact ⟨hi.wsize, fun h => absurd h Bool.false_ne_true⟩
  | sendDelba =>
    cases hen : s.ctrl.enable with
    | true =>
      have hstep : (sessionStep drv s .sendDelba).ctrl = onActionDelba s.ctrl := if_pos hen
      refine ⟨by rw [hstep]; exact hi.wsize, fun h => ?_⟩
      rw [hstep] at h
      exact absurd h Bool.false_ne_true
    | false =>
      have hstep : sessionStep drv s .sendDelba = s := by
        simp [sessionStep, Recv.sendDelba, hen]
      rwa [hstep]

theorem sessionInv_init : SessionInv {} := ⟨rfl, fun h => absurd h Bool.false_ne_true⟩

/-- The next start is ahead of the last delivery. -/
theorem Reach.ahead {L : RecvFrame} {a : ℕ} {q : List RecvFrame} (h : Reach L a q) :
    1 ≤ fwd 4096 L.attrib.seqNum a ∧ fwd 4096 L.attrib.seqNum a ≤ 2048 := by
  cases q with
  | nil =>
    have h : fwd 4096 L.attrib.seqNum a = 1 := h
    omega
  | cons g q =>
    obtain ⟨h1, h2⟩ := h
    omega

theorem SessionInv.undisturbed {drv : DriverState} (hrun : drv.running = true) {s : Session}
    (hi : SessionInv s) (hen : s.ctrl.enable = true) : Undisturbed drv s where
  ahead L hL := ((hi.live hen).last L hL).2.ahead
  inOrder := (hi.live hen).chain
  takes f hseq _ hin := by
    cases hq : queued f with
    | false => exact Or.inl (bypass_eq hrun hq).2
    | true =>
      have hw := hi.wsize
      have hin' : InWindow s.ctrl (msduOf f) := by
        unfold InWindow dist at hin ⊢
        rwa [msduOf_seqNum]
      have hf : (msduOf f).attrib.seqNum < 4096 := by rwa [msduOf_seqNum]
      rw [queued_enqueue drv hen hq]
      rcases (hi.live hen).window.takes (by omega) (by omega) hf hin' with h | ⟨g, hg, hgf⟩
      · exact Or.inl h
      · rw [msduOf_seqNum] at hgf
        exact Or.inr ⟨g, hg, by rw [(hi.live hen).stale]; exact List.not_mem_nil, hgf⟩

theorem parsedEthType_qosFrame (addr seqNum : ℕ) : parsedEthType (qosFrame addr seqNum) = 0 := by
  have hbyte : ∀ k, (qosFrame addr seqNum).byteAt k = 0 := by
    intro k
    simp only [RecvFrame.byteAt, qosFrame, List.getD_eq_getElem?_getD, List.getElem?_replicate]
    split <;> rfl
  rw [parsedEthType, hbyte, hbyte]
  rfl

/-- A session that starts with frames in the queue refuses the frame that has the
    sequence number of the first of them. -/
theorem addbaReq_refuses (drv : DriverState) {c : RecvReorderCtrl} {g : RecvFrame}
    {q : List RecvFrame} (hq : c.pending = g :: q) (hg : g.attrib.seqNum < 4096) :
    (recvIndicatepktReorder drv (processAddbaReq true c) (qosFrame 0 g.attrib.seqNum)).status =
      .fail := by
  have hplain : (ReorderOp.arrive (qosFrame 0 g.attrib.seqNum)).Plain :=
    ⟨hg, rfl, rfl, rfl, by rw [parsedEthType_qosFrame]; decide⟩
  have hseq : (wlanhdrToEthhdr (qosFrame 0 g.attrib.seqNum)).attrib.seqNum = g.attrib.seqNum := by
    rw [wlanhdrToEthhdr_attrib]
    rfl
  have hless : snLess g.attrib.seqNum g.attrib.seqNum = false := by
    rw [Bool.eq_false_iff, Ne, snLess_iff, fwd_self circle_pos]
    omega
  have hequal : snEqual g.attrib.seqNum g.attrib.seqNum = true := beq_self_eq_true _
  rw [plain_enqueue drv rfl hplain]
  unfold reorderEnqueue enqueueReorderRecvframe checkIndicateSeq insertReorder
  rw [hseq]
  simp [processAddbaReq, hq, hless, hequal]

/-- Only what arrived is ever pending. -/
theorem sessionStep_seqNum {drv : DriverState} (s : Session) (op : SessionOp) (hop : op.FieldsOk)
    (hi : ∀ g ∈ s.ctrl.pending, g.attrib.seqNum < 4096) :
    ∀ g ∈ (sessionStep drv s op).ctrl.pending, g.attrib.seqNum < 4096 := by
  intro g hg
  cases op with
  | data op =>
    cases op with
    | arrive f =>
      have hperm := recvIndicatepktReorder_perm drv s.ctrl f
      have hmem := hperm.mem_iff.mp (List.mem_append_left _ (List.mem_append_right _ hg))
      rcases List.mem_cons.mp hmem with rfl | hmem
      · show (recvIndicatepktReorder drv s.ctrl f).frame.attrib.seqNum < 4096
        rw [recvIndicatepktReorder_frame]
        exact (msduOf_seqNum f).trans_lt hop.1
      · exact hi g hmem
    | timeout =>
      have hsplit := rtwReorderingCtrlTimeoutHandler_split drv s.ctrl
      exact hi g (by rw [← hsplit]; exact List.mem_append_right _ hg)
  | addbaReq bAcceptAddbaReq => exact hi g hg
  | delba => exact hi g hg
  | sendDelba =>
    have hpend : (Recv.sendDelba s.ctrl).pending = s.ctrl.pending := by
      unfold Recv.sendDelba
      split_ifs <;> rfl
    exact hi g (hpend ▸ hg)

/-- In every run whose sessions start with an empty queue, the session in progress
    delivers in order, its window starts ahead of the last delivery, and it takes the
    frames of its window. A session that starts with frames in the queue refuses one. -/
theorem session_undisturbed (drv : DriverState) (hrun : drv.running = true) (ops : List SessionOp)
    (hops : ∀ op ∈ ops, op.FieldsOk) :
    let s := run (sessionStep drv) {} ops
    (Guarded (sessionStep drv) StartsEmpty {} ops → s.ctrl.enable = true → Undisturbed drv s) ∧
      (s.ctrl.pending ≠ [] → ¬Undisturbed drv (sessionStep drv s (.addbaReq true))) := by
  intro s
  have hfields : Guarded (sessionStep drv) (fun _ op => op.FieldsOk) {} ops :=
    guarded_of_forall _ hops
  constructor
  · intro hg hen
    exact (invariant_run (sessionStep_inv hrun) (hfields.and hg) sessionInv_init).undisturbed
      hrun hen
  · intro hq hu
    have hseq : ∀ g ∈ s.ctrl.pending, g.attrib.seqNum < 4096 :=
      invariant_run sessionStep_seqNum hfields fun g hg => absurd hg List.not_mem_nil
    have hw : s.ctrl.wsizeB = 64 := by
      have hkeep : ∀ (s : Session) op, op.FieldsOk → s.ctrl.wsizeB = 64 →
          (sessionStep drv s op).ctrl.wsizeB = 64 := fun s op _ hi =>
        (sessionStep_wsizeB drv s op).trans hi
      exact invariant_run hkeep hfields rfl
    obtain ⟨g, q, hpend⟩ := List.exists_cons_of_ne_nil hq
    have hg := hseq g (by rw [hpend]; exact List.mem_cons_self)
    have hin : InWindow (processAddbaReq true s.ctrl) (qosFrame 0 g.attrib.seqNum) := by
      show fwd 4096 g.attrib.seqNum g.attrib.seqNum < s.ctrl.wsizeB
      rw [fwd_self circle_pos, hw]
      decide
    rcases hu.takes (qosFrame 0 g.attrib.seqNum) hg (Nat.zero_le 1) hin with h | ⟨g', hg', hfresh, -⟩
    · have hfail := addbaReq_refuses drv hpend hg
      rw [show (sessionStep drv s (.addbaReq true)).ctrl = processAddbaReq true s.ctrl from rfl,
        hfail] at h
      exact absurd h (by decide)
    · exact hfresh hg'

theorem session_undisturbed_restart :
    let s := run (sessionStep {}) {} [.addbaReq true, .data (.arrive (qosFrame 0 7)), .delba,
      .addbaReq true, .data (.arrive (qosFrame 1 3))]
    Undisturbed {} s :=
  (session_undisturbed {} rfl [.addbaReq true, .data (.arrive (qosFrame 0 7)), .delba,
    .addbaReq true, .data (.arrive (qosFrame 1 3))] (by
      intro op hop
      simp only [List.mem_cons, List.not_mem_nil, or_false] at hop
      rcases hop with rfl | rfl | rfl | rfl | rfl
      · trivial
      · exact ⟨by decide, by decide⟩
      · trivial
      · trivial
      · exact ⟨by decide, by decide⟩)).1
    ⟨fun _ => rfl, nofun, nofun, fun _ => by decide, nofun, trivial⟩ (by decide)

/-- A frame that waits while the session is restarted takes the place of the frame of
    the new session with its sequence number. -/
theorem session_refuses :
    ¬ ∀ ops : List SessionOp, (∀ op ∈ ops, op.FieldsOk) →
      (run (sessionStep {}) {} ops).ctrl.enable = true →
      Undisturbed {} (run (sessionStep {}) {} ops) := by
  intro h
  specialize h [.addbaReq true, .data (.arrive (qosFrame 0 0)), .data (.arrive (qosFrame 1 5)),
    .addbaReq true] (by
      intro op hop
      simp only [List.mem_cons, List.not_mem_nil, or_false] at hop
      rcases hop with rfl | rfl | rfl | rfl
      · trivial
      · exact ⟨by decide, by decide⟩
      · exact ⟨by decide, by decide⟩
      · trivial) (by decide)
  have ht := h.takes (qosFrame 2 5) (by decide) (by decide) (by
    unfold InWindow
    decide)
  revert ht
  decide

end Rtl8821au.Recv
