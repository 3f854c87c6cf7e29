import Rtl8821au.Xmit.Conserve

/-!
# The transmit scheduler

A service queue is linked in its hardware queue while it holds frames, so that
`rtw_dequeue_xframe` finds every pending frame. `stop_sta_xmit` unlinks service
queues without a test, which is right only when it has emptied them.

* `stopServq_linked`: when every frame of a service queue is taken, stopping it keeps
  the links right.
* `scheduler_queues`: the links, the places of the frames and their order along every
  run in which this is so.
* `scheduler_queues_stranded`: a run in which it is not.
-/

namespace Rtl8821au.Xmit

open Places

variable {e : Adapter} {st st' : XmitState} {s x : ℕ} {ac : Ac}

/-- A service queue is linked when it holds frames. -/
structure Linked (st : XmitState) : Prop where
  iff : ∀ s ac, s ∈ st.staQueue ac ↔ st.queue (.staPending s ac) ≠ []
  nodup : ∀ ac, (st.staQueue ac).Nodup

/-- The links follow the pending frames and the hardware queues only. -/
theorem Linked.congr (h : Linked st) (hsta : st'.staQueue = st.staQueue)
    (hqueue : ∀ s ac, st'.queue (.staPending s ac) = st.queue (.staPending s ac)) :
    Linked st' where
  iff s ac := by rw [hsta, hqueue]; exact h.iff s ac
  nodup ac := by rw [hsta]; exact h.nodup ac

/-! ## Enqueue and dequeue -/

theorem enqueueServq_staQueue (st : XmitState) (s x : ℕ) :
    (enqueueServq st s x).staQueue =
      if s ∈ st.staQueue (acIndex (st.attrib x).txPriority) then st.staQueue
      else put st.staQueue (acIndex (st.attrib x).txPriority) s := by
  dsimp only [enqueueServq]
  split_ifs <;> rfl

theorem Linked.enqueueServq (h : Linked st) (s x : ℕ) : Linked (enqueueServq st s x) where
  iff s' ac' := by
    show s' ∈ (Xmit.enqueueServq st s x).staQueue ac' ↔
      (Xmit.enqueueServq st s x).toFrames.queue (.staPending s' ac') ≠ []
    rw [enqueueServq_staQueue, enqueueServq_toFrames]
    generalize acIndex (st.attrib x).txPriority = ac
    dsimp only
    by_cases heq : Place.staPending s' ac' = .staPending s ac
    · obtain ⟨rfl, rfl⟩ := Place.staPending.inj heq
      rw [put_self]
      refine iff_of_true ?_ (by simp)
      split_ifs with hmem
      · exact hmem
      · exact mem_put.mpr (Or.inr ⟨rfl, rfl⟩)
    · rw [put_of_ne heq, ← h.iff]
      split_ifs with hmem
      · exact Iff.rfl
      · rw [mem_put]
        refine or_iff_left fun hsa => heq ?_
        rw [hsa.1, hsa.2]
  nodup ac' := by
    rw [enqueueServq_staQueue]
    split_ifs with hmem
    · exact h.nodup ac'
    · by_cases heq : ac' = acIndex (st.attrib x).txPriority
      · rw [heq, put_self]
        refine List.nodup_append.mpr ⟨h.nodup _, List.nodup_singleton _, fun a ha b hb hab => ?_⟩
        exact hmem (List.mem_singleton.mp hb ▸ hab ▸ ha)
      · rw [put_of_ne heq]
        exact h.nodup ac'

/-- Frames that leave one list or another list change no other. -/
theorem queue_del_of_mem (hexcl : Exclusive st.queue) {p p' : Place} (hx : x ∈ st.queue p)
    (hp : p' ≠ p) : del st.queue x p' = st.queue p' :=
  del_eq_self fun hx' => hp (hexcl.unique hx' hx)

theorem Linked.releaseFrame (h : Linked st) (hinv : FrameInv e st.toFrames)
    (hx : x ∈ st.queue (.sleepQ s)) (len acLen : ℕ) (flags : PktFlags) :
    Linked (releaseFrame e st s x len acLen flags) := by
  rw [releaseFrame_eq (hinv.owner_sleepQ hx)]
  have hunlink : Linked (unlinkFrame st s x len acLen flags) :=
    h.congr rfl fun s' ac' => queue_del_of_mem hinv.excl hx (by simp)
  exact hunlink.enqueueServq s x

/-- The links and the frames of a state. -/
def SchedInv (e : Adapter) (st : XmitState) : Prop := FrameInv e st.toFrames ∧ Linked st

theorem SchedInv.releaseFrame (h : SchedInv e st) (hx : x ∈ st.queue (.sleepQ s)) (len acLen : ℕ)
    (flags : PktFlags) : SchedInv e (releaseFrame e st s x len acLen flags) :=
  ⟨(releaseFrame_moved h.1 hx len acLen flags).1, h.2.releaseFrame h.1 hx len acLen flags⟩

/-- A loop whose body releases frames of one sleep queue. -/
theorem foldl_release_linked {f : XmitState → ℕ → XmitState}
    (hf : ∀ st x, f st x = st ∨ ∃ len acLen flags,
      (f st x).toFrames = (releaseFrame e st s x len acLen flags).toFrames ∧
      (f st x).staQueue = (releaseFrame e st s x len acLen flags).staQueue)
    (h : SchedInv e st) : SchedInv e ((st.queue (.sleepQ s)).foldl f st) := by
  refine Run.foldl_of_mem (P := SchedInv e)
    (M := fun (st' : XmitState) x => x ∈ st'.queue (.sleepQ s)) (fun st x h hx => ?_) (h.1.excl.nodup _) (fun _ => id) h
  rcases hf st x with heq | ⟨len, acLen, flags, hframes, hsta⟩
  · rw [heq]
    exact ⟨h, fun y hy _ => hy⟩
  · have hrel := h.releaseFrame hx len acLen flags
    refine ⟨⟨by rw [hframes]; exact hrel.1, hrel.2.congr hsta fun s ac => by rw [hframes]⟩,
      fun y hy hyx => ?_⟩
    rw [hframes, releaseFrame_queue (h.1.owner_sleepQ hx)]
    exact (mem_move h.1.excl).mpr (Or.inl ⟨hyx, hy⟩)

/-- An empty service queue is unlinked. -/
theorem Linked.unlink (h : Linked st)
    (hsta : st'.staQueue = Function.update st.staQueue ac ((st.staQueue ac).erase s))
    (hempty : st'.queue (.staPending s ac) = [])
    (hother : ∀ s' ac', Place.staPending s' ac' ≠ .staPending s ac →
      st'.queue (.staPending s' ac') = st.queue (.staPending s' ac')) : Linked st' where
  iff s' ac' := by
    rw [hsta]
    by_cases hac : ac' = ac
    · subst hac
      rw [Function.update_self, (h.nodup ac').mem_erase_iff, h.iff]
      by_cases hs : s' = s
      · rw [hs, hempty]
        simp
      · rw [hother s' ac' (by simp [hs])]
        simp [hs]
    · rw [Function.update_of_ne hac, hother s' ac' (by simp [hac])]
      exact h.iff s' ac'
  nodup ac' := by
    rw [hsta]
    by_cases hac : ac' = ac
    · subst hac
      rw [Function.update_self]
      exact (h.nodup ac').erase s
    · rw [Function.update_of_ne hac]
      exact h.nodup ac'

theorem Linked.dequeue (h : Linked st) (hinv : FrameInv e st.toFrames) :
    Linked (xmitStep e st .dequeue) := by
  unfold xmitStep
  dsimp only
  cases hd : rtwDequeueXframe st with
  | none => exact h
  | some r =>
    obtain ⟨x, st'⟩ := r
    obtain ⟨s, ac, rest, -, hq, rfl⟩ := rtwDequeueXframe_some hd
    obtain ⟨hhead, -, hother⟩ := move_head hinv.excl hq (i := .handed) (by simp)
    dsimp only
    by_cases hrest : rest = []
    · rw [if_pos hrest]
      exact h.unlink rfl (hhead.trans hrest) fun s' ac' hne => hother _ (by simp) hne
    · rw [if_neg hrest]
      constructor
      · intro s' ac'
        show s' ∈ st.staQueue ac' ↔ Places.move st.queue .handed x (.staPending s' ac') ≠ []
        rw [h.iff]
        by_cases heq : Place.staPending s' ac' = .staPending s ac
        · rw [heq, hq, hhead]
          simp [hrest]
        · rw [hother _ (by simp) heq]
      · exact h.nodup

/-! ## Going to sleep -/

/-- Every frame of a service queue is taken by the sleep queue. -/
def StopOk (e : Adapter) (st : XmitState) (s : ℕ) (ac : Ac) : Prop :=
  ∀ x ∈ st.queue (.staPending s ac), Takes e st s x

instance (st : XmitState) (s : ℕ) (ac : Ac) : Decidable (StopOk e st s ac) := by
  unfold StopOk; infer_instance

/-- Buffering one frame does not change what is asked of another. -/
theorem Takes.bufferFrame {s' y : ℕ} (h : Takes e st s' y) :
    Takes e (bufferFrame e st s x) s' y := by
  obtain ⟨hap, htrig, htake⟩ := h
  have hattrib : (Xmit.bufferFrame e st s x).attrib = st.attrib := by
    show (Xmit.bufferFrame e st s x).toFrames.attrib = _
    rw [bufferFrame_toFrames]
  have hsleep : ((Xmit.bufferFrame e st s x).sleep s').sleepState = (st.sleep s').sleepState := by
    rw [bufferFrame_sleep]
    by_cases hs : s' = s
    · rw [hs, Function.update_self]
    · rw [Function.update_of_ne hs]
  refine ⟨hap, by rw [bufferFrame_flags]; exact htrig, ?_⟩
  rw [hattrib, hsleep]
  rcases bufferFrame_staDzBitmap (e := e) st s x with hdz | hdz
  · rw [hdz]
    exact htake
  · rw [hdz]
    split_ifs at htake ⊢
    · exact fun h0 => htake (BitVec.or_eq_zero_iff.mp h0).1
    · refine ⟨htake.1, fun h0 => htake.2 ?_⟩
      rw [BitVec.and_or_distrib_right] at h0
      exact (BitVec.or_eq_zero_iff.mp h0).1

/-- What stopping a service queue leaves to the next one. -/
structure Emptied (e : Adapter) (st : XmitState) (s : ℕ) (ac : Ac) (st' : XmitState) : Prop where
  inv : FrameInv e st'.toFrames
  sta : st'.staQueue = st.staQueue
  other : ∀ s' ac', Place.staPending s' ac' ≠ .staPending s ac →
    st'.queue (.staPending s' ac') = st.queue (.staPending s' ac')
  takes : ∀ s' y, Takes e st s' y → Takes e st' s' y
  sub : ∀ y ∈ st'.queue (.staPending s ac), y ∈ st.queue (.staPending s ac)

theorem Emptied.step (hok : StopOk e st s ac) {rest : List ℕ} (h : Emptied e st s ac st')
    (hq : st'.queue (.staPending s ac) = x :: rest) :
    let st'' := (xmitframeEnqueueForSleepingSta e st' x).2
    Emptied e st s ac st'' ∧ st''.queue (.staPending s ac) = rest := by
  have hx : x ∈ st'.queue (.staPending s ac) := by rw [hq]; exact List.mem_cons_self
  have howner := h.inv.owner hx
  have htakes := h.takes s x (hok x (h.sub x hx))
  obtain ⟨hhead, -, hother⟩ := move_head h.inv.excl hq (i := .sleepQ s) (by simp)
  have hqueue : (bufferFrame e st' s x).queue = Places.move st'.queue (.sleepQ s) x := by
    show (bufferFrame e st' s x).toFrames.queue = _
    rw [bufferFrame_toFrames]
  rw [enqueueForSleeping_takes howner htakes]
  dsimp only
  rw [hqueue, hhead]
  refine ⟨⟨?_, by rw [bufferFrame_staQueue, h.sta], fun s' ac' hne => ?_,
    fun s' y hy => (h.takes s' y hy).bufferFrame, fun y hy => ?_⟩, rfl⟩
  · rw [bufferFrame_toFrames]
    exact h.inv.toSleep hx
  · rw [hqueue, hother _ (by simp) hne]
    exact h.other s' ac' hne
  · rw [hqueue, hhead] at hy
    exact h.sub y (by rw [hq]; exact List.mem_cons_of_mem x hy)

/-- Stopping a service queue all of whose frames are taken. -/
theorem stopServq_linked (h : SchedInv e st) (hok : StopOk e st s ac) :
    SchedInv e (stopServq e st s ac) ∧
      ∀ s' ac', StopOk e st s' ac' → StopOk e (stopServq e st s ac) s' ac' := by
  obtain ⟨hemptied, hempty⟩ := Run.foldl_consume
    (q := fun st' : XmitState => st'.queue (.staPending s ac)) (P := Emptied e st s ac)
    (f := fun st' x => (xmitframeEnqueueForSleepingSta e st' x).2) (s := st)
    (fun _ _ _ => Emptied.step hok)
    ⟨h.1, rfl, fun _ _ _ => rfl, fun _ _ => id, fun _ => id⟩
  have hlinked : Linked (stopServq e st s ac) := by
    have hsta : (dequeueXmitframesToSleepingQueue e st s ac).staQueue = st.staQueue := hemptied.sta
    refine h.2.unlink ?_ hempty hemptied.other
    simp only [stopServq, unlinkServq, hsta]
  refine ⟨⟨hemptied.inv, hlinked⟩, fun s' ac' hok' y hy => ?_⟩
  have hy' : y ∈ st.queue (.staPending s' ac') := by
    by_cases heq : Place.staPending s' ac' = .staPending s ac
    · rw [heq] at hy ⊢
      exact hemptied.sub y hy
    · exact hemptied.other s' ac' heq ▸ hy
  exact hemptied.takes s' y (hok' y hy')

/-- The frames that `stop_sta_xmit` looks at are all taken. -/
def StopTakesAll (e : Adapter) (st : XmitState) (s : ℕ) : Prop :=
  (∀ ac ∈ [Ac.vo, .vi, .be, .bk], StopOk e (markAsleep e st s) s ac) ∧
    ∀ b ∈ e.rtwGetBcmcStainfo, StopOk e (markAsleep e st s) b .be

instance (st : XmitState) (s : ℕ) : Decidable (StopTakesAll e st s) := by
  unfold StopTakesAll; infer_instance

theorem stopStaXmit_sched (h : SchedInv e st) (hok : StopTakesAll e st s) :
    SchedInv e (stopStaXmit e st s) := by
  obtain ⟨hsta, hbcmc⟩ := hok
  have hmark : SchedInv e (markAsleep e st s) := ⟨h.1, h.2.congr rfl fun _ _ => rfl⟩
  obtain ⟨hvo, kvo⟩ := stopServq_linked hmark (hsta .vo (by simp))
  obtain ⟨hvi, kvi⟩ := stopServq_linked hvo (kvo s .vi (hsta .vi (by simp)))
  obtain ⟨hbe, kbe⟩ := stopServq_linked hvi (kvi s .be (kvo s .be (hsta .be (by simp))))
  obtain ⟨hbk, kbk⟩ :=
    stopServq_linked hbe (kbe s .bk (kvi s .bk (kvo s .bk (hsta .bk (by simp)))))
  unfold stopStaXmit
  cases hb : e.rtwGetBcmcStainfo with
  | none => exact hbk
  | some b =>
    have hokb := hbcmc b hb
    exact (stopServq_linked hbk (kbk b .be (kbe b .be (kvi b .be (kvo b .be hokb))))).1

/-! ## Waking up -/

theorem wakeupStaToXmit_sched (h : SchedInv e st) (s : ℕ) :
    SchedInv e (wakeupStaToXmit e st s) := by
  have hsta : SchedInv e ((st.queue (.sleepQ s)).foldl (wakeupFrame e s) st) :=
    foldl_release_linked (fun _ _ => Or.inr ⟨_, _, _, rfl, rfl⟩) h
  have hdone : ∀ st', SchedInv e st' → SchedInv e (wakeupDone e st' s) := by
    intro st' h'
    unfold wakeupDone
    split_ifs
    · exact ⟨h'.1, h'.2.congr rfl fun _ _ => rfl⟩
    · exact h'
  unfold wakeupStaToXmit
  cases e.rtwGetBcmcStainfo with
  | none => exact hsta
  | some b =>
    have hbcmc := foldl_release_linked (f := wakeupBcmcFrame e b) (s := b)
      (fun _ _ => Or.inr ⟨_, _, _, rfl, rfl⟩) hsta
    dsimp only
    refine hdone _ ?_
    split_ifs
    · exact ⟨hbcmc.1, hbcmc.2.congr rfl fun _ _ => rfl⟩
    · exact hbcmc
    · exact hsta

theorem xmitDeliveryEnabledFrames_sched (h : SchedInv e st) (s : ℕ) :
    SchedInv e (xmitDeliveryEnabledFrames e st s) := by
  refine foldl_release_linked (fun st x => ?_) h
  unfold deliveryFrame
  dsimp only
  split_ifs
  · exact Or.inl rfl
  · exact Or.inr ⟨_, _, _, rfl, rfl⟩
  · exact Or.inr ⟨_, _, _, rfl, rfl⟩

theorem answerPsPoll_sched (h : SchedInv e st) (s : ℕ) : SchedInv e (answerPsPoll e st s) := by
  unfold answerPsPoll
  cases hq : st.queue (.sleepQ s) with
  | nil =>
    dsimp only
    split_ifs
    · exact ⟨h.1, h.2.congr rfl fun _ _ => rfl⟩
    · exact h
  | cons x rest =>
    have hx : x ∈ st.queue (.sleepQ s) := by rw [hq]; exact List.mem_cons_self
    dsimp only
    split_ifs
    · have hrel := h.releaseFrame hx (decU32 (st.sleep s).sleepqLen) (st.sleep s).sleepqAcLen
        { st.flags x with mdata := decide (0 < decU32 (st.sleep s).sleepqLen), triggered := true }
      exact ⟨hrel.1, hrel.2.congr rfl fun _ _ => rfl⟩
    · exact h.releaseFrame hx _ _ _

theorem recvPsPoll_sched (h : SchedInv e st) (addr2 : Recv.MacAddr) (aid priority : ℕ) :
    SchedInv e (recvPsPoll e st addr2 aid priority) := by
  unfold recvPsPoll
  cases e.rtwGetStainfo addr2 with
  | none => exact h
  | some s =>
    have halive : ∀ f, SchedInv e (setSleep st s f) := fun f =>
      ⟨h.1, h.2.congr rfl fun _ _ => rfl⟩
    dsimp only
    split_ifs
    · exact h
    · exact h
    · exact answerPsPoll_sched (halive _) s
    · exact halive _
    · exact answerPsPoll_sched h s
    · exact h

/-! ## Runs -/

/-- A driver before its first frame. -/
structure Initial (st : XmitState) : Prop where
  queue : st.queue = fun _ => []
  staQueue : st.staQueue = fun _ => []
  sleepqLen : ∀ s, (st.sleep s).sleepqLen = 0 ∧ (st.sleep s).sleepqAcLen = 0
  pool : st.freeXmitframeCnt = nrXmitframe
  accepted : st.accepted = []
  freed : st.freed = []
  flags : st.flags = fun _ => {}
  releases : st.releases = []

theorem Initial.frameInv (h : Initial st) : FrameInv e st.toFrames where
  excl := by rw [h.queue]; exact exclusive_nil
  home p x hx := by rw [h.queue] at hx; cases hx
  placed x := by
    rw [h.accepted, h.queue]
    exact iff_of_false List.not_mem_nil fun ⟨_, hx⟩ => List.not_mem_nil hx
  old x hx := by rw [h.accepted] at hx; cases hx
  nodup := by rw [h.accepted]; exact List.nodup_nil
  fifo s ac := by rw [direct, h.queue]; exact List.Pairwise.nil
  freedNodup := by rw [h.freed]; exact List.nodup_nil
  freedHanded x hx := by rw [h.freed] at hx; cases hx
  pool := by rw [h.accepted, h.freed, h.pool]

theorem Initial.schedInv (h : Initial st) : SchedInv e st := by
  refine ⟨h.frameInv, fun s ac => ?_, fun ac => ?_⟩
  · rw [h.staQueue, h.queue]
    simp
  · rw [h.staQueue]
    exact List.nodup_nil

/-- The condition on a step: `stop_sta_xmit` empties what it unlinks. -/
def StopGuard (e : Adapter) (st : XmitState) : XmitOp → Prop
  | .stop s => StopTakesAll e st s
  | _ => True

instance (st : XmitState) (op : XmitOp) : Decidable (StopGuard e st op) := by
  unfold StopGuard; split <;> infer_instance

theorem xmitStep_sched (st : XmitState) (op : XmitOp) (hg : StopGuard e st op)
    (h : SchedInv e st) : SchedInv e (xmitStep e st op) := by
  cases op with
  | enqueue attrib =>
    refine ⟨(xmitStep_moved h.1 _).1, ?_⟩
    unfold xmitStep halXmitframeEnqueue
    dsimp only
    have harrive : Linked (arrive st attrib) := h.2.congr rfl fun _ _ => rfl
    split_ifs
    · exact h.2
    · cases hc : rtwXmitClassifier e (arrive st attrib) st.arrived with
      | none =>
        refine h.2.congr rfl fun s ac => ?_
        show del st.queue st.arrived _ = _
        rw [del_of_not_placed h.1.not_placed]
      | some st' =>
        obtain ⟨s, -, rfl⟩ := owner_of_rtwXmitClassifier hc
        exact (harrive.enqueueServq s st.arrived).congr rfl fun _ _ => rfl
  | buffer attrib =>
    refine ⟨(xmitStep_moved h.1 _).1, ?_⟩
    have hdel : ∀ p, del st.queue st.arrived p = st.queue p := fun p =>
      congrFun (del_of_not_placed h.1.not_placed) p
    unfold xmitStep
    dsimp only
    split_ifs
    · exact h.2
    · rcases enqueueForSleeping_cases (e := e) (arrive st attrib) st.arrived with
        ⟨s, -, -, heq⟩ | ⟨flags, -, heq⟩
      · rw [heq]
        refine h.2.congr (bufferFrame_staQueue ..) fun s' ac' => ?_
        show (bufferFrame e (arrive st attrib) s st.arrived).toFrames.queue _ = _
        rw [bufferFrame_toFrames]
        have hne : Place.staPending s' ac' ≠ .sleepQ s := by simp
        exact (put_of_ne (x := st.arrived) hne).trans (hdel _)
      · rw [heq]
        exact h.2.congr rfl fun s' ac' => hdel _
  | dequeue => exact ⟨(xmitStep_moved h.1 _).1, h.2.dequeue h.1⟩
  | complete x =>
    refine ⟨(xmitStep_moved h.1 _).1, ?_⟩
    unfold xmitStep
    dsimp only
    split_ifs
    · exact h.2.congr rfl fun _ _ => rfl
    · exact h.2
  | stop s => exact stopStaXmit_sched h hg
  | wakeup s => exact wakeupStaToXmit_sched h s
  | delivery s => exact xmitDeliveryEnabledFrames_sched h s
  | psPoll addr2 aid priority => exact recvPsPoll_sched h addr2 aid priority

/-- In every run in which `stop_sta_xmit` empties what it unlinks, and after each of
    its steps: a service queue is linked exactly when it holds frames; every accepted
    frame is in one list, once, and the list is its receiver's; an unsuccessful dequeue
    means that nothing is pending; and frames of one service queue that never slept are
    handed out in the order of their arrival. -/
theorem scheduler_queues (hinit : Initial st) {ops : List XmitOp}
    (hg : Run.Guarded (xmitStep e) (StopGuard e) st ops) (n : ℕ) :
    let st' := Run.run (xmitStep e) st (ops.take n)
    (∀ s ac, s ∈ st'.staQueue ac ↔ st'.queue (.staPending s ac) ≠ []) ∧
    (∀ ac, (st'.staQueue ac).Nodup) ∧
    (∀ x ∈ st'.accepted, ∃! p, x ∈ st'.queue p) ∧
    (∀ p, (st'.queue p).Nodup) ∧
    (∀ p x, x ∈ st'.queue p → AtHome e st'.toFrames x p) ∧
    (rtwDequeueXframe st' = none → ∀ s ac, st'.queue (.staPending s ac) = []) ∧
    ∀ s ac, ((st'.queue .handed).filter fun x =>
      Belongs e st'.toFrames s ac x ∧ x ∉ st'.slept).Pairwise (· < ·) := by
  intro st'
  have hinv : SchedInv e st' :=
    Run.invariant_run_take xmitStep_sched hg hinit.schedInv n
  refine ⟨hinv.2.iff, hinv.2.nodup, fun x hx => ?_, hinv.1.excl.nodup, hinv.1.home,
    fun hnone s ac => ?_,
    fun s ac => ?_⟩
  · exact hinv.1.excl.existsUnique ((hinv.1.placed x).mp hx)
  · by_contra hne
    exact hne (rtwDequeueXframe_none hnone ((hinv.2.iff s ac).mpr hne))
  · have hfifo := hinv.1.fifo s ac
    rw [direct, List.filter_append, List.filter_filter] at hfifo
    refine (List.pairwise_append.mp hfifo).1.sublist ?_
    refine List.monotone_filter_right _ fun x hx => ?_
    simp only [Bool.decide_and, Bool.and_eq_true] at hx ⊢
    exact ⟨hx.2, hx.1⟩

/-! ## One station -/

/-- The address of the station. -/
def peer : Recv.MacAddr := #v[0x02, 0, 0, 0, 0, 0x01]

/-- An access point with one station, which uses U-APSD for voice only. -/
def onePeer : Adapter where
  wifiApState := true
  staHash := [0, 1]
  sta := fun s =>
    if s = 0 then { hwaddr := bcAddr, aid := 0 } else { hwaddr := peer, aid := 1, uapsdVo := 3 }
  expireTo := 0

/-- Its queues before the first frame. -/
def idle : XmitState where
  attrib := fun _ => { ra := peer, psta := none, txPriority := 0 }
  freeXmitframeCnt := nrXmitframe

/-- A best-effort frame to the station. -/
def toPeer : PktAttrib := { ra := peer, psta := some 1, txPriority := 0 }

theorem initial_idle : Initial idle := ⟨rfl, rfl, fun _ => ⟨rfl, rfl⟩, rfl, rfl, rfl, rfl, rfl⟩

/-- The station sleeps once and wakes up. -/
theorem scheduler_queues_onePeer :
    let ops : List XmitOp := [.enqueue toPeer, .stop 1, .wakeup 1, .dequeue]
    let st' := Run.run (xmitStep onePeer) idle (ops.take 4)
    ∀ x ∈ st'.accepted, ∃! p, x ∈ st'.queue p := by
  intro ops
  have hg : Run.Guarded (xmitStep onePeer) (StopGuard onePeer) idle ops := by decide +kernel
  exact (scheduler_queues initial_idle hg 4).2.2.1

/-- The station sleeps again before its frame, released by the wake-up, is dequeued:
    the frame stays pending, but its service queue is no longer linked and nothing is
    dequeued. -/
theorem scheduler_queues_stranded :
    let ops : List XmitOp := [.enqueue toPeer, .stop 1, .wakeup 1, .stop 1]
    let st' := Run.run (xmitStep onePeer) idle ops
    Initial idle ∧ st'.queue (.staPending 1 .be) = [0] ∧ 1 ∉ st'.staQueue .be ∧
      (rtwDequeueXframe st').isNone ∧
      ¬∀ s ac, s ∈ st'.staQueue ac ↔ st'.queue (.staPending s ac) ≠ [] := by
  intro ops st'
  have hpending : st'.queue (.staPending 1 .be) = [0] := by decide +kernel
  have hunlinked : 1 ∉ st'.staQueue .be := by decide +kernel
  refine ⟨initial_idle, hpending, hunlinked, by decide +kernel, fun h => ?_⟩
  exact hunlinked ((h 1 .be).mpr (by rw [hpending]; decide))

end Rtl8821au.Xmit
