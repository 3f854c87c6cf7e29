import Rtl8821au.Lib.Places
import Rtl8821au.Recv.Func

/-!
# Conservation of receive frames

Every frame of the pool is in the free queue, in a queue of a station or in the queue
that waits for the pairwise key; every received buffer is with a frame in one of the
queues, or was handed on or released, once.

Results:

* `Owned.recvFunc`: a call of `recv_func` keeps the partition of frames and buffers,
* `rxStep_poolInv`: every step that meets `RxOk` keeps it,
* `recvFrames_conserved`: it holds after every run of such steps.
-/

namespace Rtl8821au.Recv

open Places Run

/-! ## Where the frames are -/

/-- The frame whose buffer was given away. -/
def RxOut.gone : RxOut → Option RecvFrame
  | .freed f => some f
  | .event (.indicate f) => some f
  | .event (.deaggregate f) => some f
  | .event (.forget _) => none
  | .effect _ => none

namespace RecvPriv

variable (s : RecvPriv) (hand : List RecvFrame)

/-- The frames of the pool, by their index. -/
def addrs (l : Loc) : List ℕ :=
  (if l = .pool then s.freeRecvQueue else []) ++ (s.held hand l).map (·.addr)

/-- The buffers: those in `pool` were handed on or released. -/
def skbs (l : Loc) : List (Option ℕ) :=
  (if l = .pool then (s.log.filterMap RxOut.gone).map (·.skb) else []) ++
    (s.held hand l).map (·.skb)

end RecvPriv

/-- Every frame of the pool and every received buffer is in exactly one place. -/
structure Owned (s : RecvPriv) (hand : List RecvFrame) : Prop where
  addrs : Exclusive (s.addrs hand)
  addrs_all : ∀ a, Placed (s.addrs hand) a ↔ a < 256
  skbs : Exclusive (s.skbs hand)
  skbs_all : ∀ x, Placed (s.skbs hand) x ↔ ∃ n < s.arrived, x = some n
  cnt : s.freeRecvframeCnt = s.freeRecvQueue.length

section moves

variable {s s' : RecvPriv} {hand hand' : List RecvFrame}

theorem map_flatMap_perm {κ : Type*} (k : ℕ × Option ℕ → κ) {q q' : Loc → List RecvFrame}
    {I : List Loc} (h : ((I.flatMap q').map RecvFrame.ident).Perm
      ((I.flatMap q).map RecvFrame.ident)) :
    (I.flatMap fun l => (q' l).map fun f => k f.ident).Perm
      (I.flatMap fun l => (q l).map fun f => k f.ident) := by
  have := h.map k
  simpa only [List.map_map, List.map_flatMap, Function.comp_def] using this

/-- Frames that only change places among the lists of `I`. -/
theorem Owned.redistribute (h : Owned s hand) (I : List Loc) (hI : I.Nodup) (hpool : .pool ∉ I)
    (hperm : ((I.flatMap (s'.held hand')).map RecvFrame.ident).Perm
      ((I.flatMap (s.held hand)).map RecvFrame.ident))
    (hout : ∀ l, l ∉ I → s'.held hand' l = s.held hand l)
    (hfree : s'.freeRecvQueue = s.freeRecvQueue) (hcnt : s'.freeRecvframeCnt = s.freeRecvframeCnt)
    (hlog : s'.log.filterMap RxOut.gone = s.log.filterMap RxOut.gone)
    (harr : s'.arrived = s.arrived) : Owned s' hand' := by
  have hpool' : ∀ l ∈ I, l ≠ .pool := fun l hl h0 => hpool (h0 ▸ hl)
  have haddr : ∀ (t : RecvPriv) (hd : List RecvFrame), I.flatMap (t.addrs hd) =
      I.flatMap fun l => (t.held hd l).map fun f => Prod.fst f.ident := fun t hd =>
    List.flatMap_congr fun l hl => by
      rw [RecvPriv.addrs, if_neg (hpool' l hl)]
      rfl
  have hskb : ∀ (t : RecvPriv) (hd : List RecvFrame), I.flatMap (t.skbs hd) =
      I.flatMap fun l => (t.held hd l).map fun f => Prod.snd f.ident := fun t hd =>
    List.flatMap_congr fun l hl => by
      rw [RecvPriv.skbs, if_neg (hpool' l hl)]
      rfl
  have hpa : (I.flatMap (s'.addrs hand')).Perm (I.flatMap (s.addrs hand)) := by
    rw [haddr, haddr]
    exact map_flatMap_perm Prod.fst hperm
  have hps : (I.flatMap (s'.skbs hand')).Perm (I.flatMap (s.skbs hand)) := by
    rw [hskb, hskb]
    exact map_flatMap_perm Prod.snd hperm
  have hoa : ∀ l, l ∉ I → s'.addrs hand' l = s.addrs hand l := fun l hl => by
    rw [RecvPriv.addrs, RecvPriv.addrs, hout l hl, hfree]
  have hos : ∀ l, l ∉ I → s'.skbs hand' l = s.skbs hand l := fun l hl => by
    rw [RecvPriv.skbs, RecvPriv.skbs, hout l hl, hlog]
  constructor
  · exact h.addrs.redistribute hI hpa hoa
  · exact fun a => (placed_redistribute hpa hoa).trans (h.addrs_all a)
  · exact h.skbs.redistribute hI hps hos
  · intro x
    rw [placed_redistribute hps hos, h.skbs_all, harr]
  · rw [hcnt, hfree]
    exact h.cnt

/-- The frames in hand may be exchanged for others with the same identity. -/
theorem Owned.hand_perm (h : Owned s hand)
    (hperm : (hand'.map RecvFrame.ident).Perm (hand.map RecvFrame.ident)) : Owned s hand' := by
  refine h.redistribute [.hand] (List.nodup_singleton _) (by simp) ?_ ?_ rfl rfl rfl rfl
  · simpa [RecvPriv.held] using hperm
  · intro l hl
    cases l with
    | hand => simp at hl
    | pool => rfl
    | ucSwdec => rfl
    | defragQ psta => rfl
    | reorder psta tid => rfl

/-! ## Giving back -/

theorem without_eq_self {a : ℕ} {q : List RecvFrame} (h : ∀ f ∈ q, f.addr ≠ a) :
    RecvPriv.without a q = q :=
  List.filter_eq_self.mpr fun f hf => bne_iff_ne.mpr (h f hf)

/-- A frame that is in no queue needs no unlinking. -/
theorem unlink_eq_self {a : ℕ} (hpool : a ∉ s.freeRecvQueue)
    (hheld : ∀ l, l ≠ .hand → ∀ f ∈ s.held [] l, f.addr ≠ a) : s.unlink a = s := by
  unfold RecvPriv.unlink
  have h1 : s.freeRecvQueue.erase a = s.freeRecvQueue := List.erase_of_not_mem hpool
  have h2 : RecvPriv.without a s.ucSwdecPendingQueue = s.ucSwdecPendingQueue :=
    without_eq_self (hheld .ucSwdec nofun)
  have h3 : (fun i => RecvPriv.without a (s.defragQ i)) = s.defragQ := by
    funext i
    exact without_eq_self (hheld (.defragQ i) nofun)
  have h4 : (fun i tid => { s.recvreorderCtrl i tid with
      pending := RecvPriv.without a (s.recvreorderCtrl i tid).pending }) = s.recvreorderCtrl := by
    funext i tid
    have hpend : RecvPriv.without a (s.recvreorderCtrl i tid).pending =
        (s.recvreorderCtrl i tid).pending := without_eq_self (hheld (.reorder i tid) nofun)
    rw [hpend]
  rw [h1, h2, h3, h4]

theorem Owned.giveBack_eq {f : RecvFrame} (h : Owned s (f :: hand)) :
    s.giveBack f.addr =
      { s with freeRecvQueue := s.freeRecvQueue ++ [f.addr]
               freeRecvframeCnt := s.freeRecvframeCnt + 1 } := by
  have hhand : f.addr ∈ s.addrs (f :: hand) .hand := by simp [RecvPriv.addrs, RecvPriv.held]
  have hun : s.unlink f.addr = s := by
    apply unlink_eq_self
    · intro hmem
      have hpool : f.addr ∈ s.addrs (f :: hand) .pool := by
        simpa [RecvPriv.addrs, RecvPriv.held] using hmem
      cases h.addrs.unique hhand hpool
    · intro l hl g hg heq
      have hg' : g ∈ s.held (f :: hand) l := by
        cases l with
        | hand => exact absurd rfl hl
        | pool => exact hg
        | ucSwdec => exact hg
        | defragQ psta => exact hg
        | reorder psta tid => exact hg
      have hmem : f.addr ∈ s.addrs (f :: hand) l := by
        rw [← heq]
        exact List.mem_append_right _ (List.mem_map_of_mem hg')
      exact hl (h.addrs.unique hhand hmem).symm
  rw [RecvPriv.giveBack, hun]

/-- A frame in hand goes to the free queue, and its buffer away. -/
theorem Owned.release {f g : RecvFrame} (out : RxOut) (h : Owned s (f :: hand))
    (hout : out.gone = some g) (hg : g.ident = f.ident) :
    Owned ((s.giveBack g.addr).record [out]) hand := by
  obtain ⟨haddr, hskb⟩ := Prod.ext_iff.mp hg
  change g.addr = f.addr at haddr
  change g.skb = f.skb at hskb
  rw [haddr, h.giveBack_eq]
  have hlog : (s.log ++ [out]).filterMap RxOut.gone = s.log.filterMap RxOut.gone ++ [g] := by
    rw [List.filterMap_append]
    simp [hout]
  set s' : RecvPriv := RecvPriv.record { s with
    freeRecvQueue := s.freeRecvQueue ++ [f.addr]
    freeRecvframeCnt := s.freeRecvframeCnt + 1 } [out] with hs'
  have hheld : ∀ l, l ∉ [Loc.pool, .hand] → s'.held hand l = s.held (f :: hand) l := by
    intro l hl
    cases l with
    | hand => simp at hl
    | pool => simp at hl
    | ucSwdec => rfl
    | defragQ psta => rfl
    | reorder psta tid => rfl
  have hpa : ([Loc.pool, .hand].flatMap (s'.addrs hand)).Perm
      ([Loc.pool, .hand].flatMap (s.addrs (f :: hand))) := by
    simp [RecvPriv.addrs, RecvPriv.held, hs', RecvPriv.record]
  have hps : ([Loc.pool, .hand].flatMap (s'.skbs hand)).Perm
      ([Loc.pool, .hand].flatMap (s.skbs (f :: hand))) := by
    simp [RecvPriv.skbs, RecvPriv.held, hs', RecvPriv.record, hlog, hskb]
  have hoa : ∀ l, l ∉ [Loc.pool, .hand] → s'.addrs hand l = s.addrs (f :: hand) l := by
    intro l hl
    have hne : l ≠ .pool := by
      rintro rfl
      simp at hl
    rw [RecvPriv.addrs, RecvPriv.addrs, hheld l hl, if_neg hne, if_neg hne]
  have hos : ∀ l, l ∉ [Loc.pool, .hand] → s'.skbs hand l = s.skbs (f :: hand) l := by
    intro l hl
    have hne : l ≠ .pool := by
      rintro rfl
      simp at hl
    rw [RecvPriv.skbs, RecvPriv.skbs, hheld l hl, if_neg hne, if_neg hne]
  have hnd : [Loc.pool, .hand].Nodup := by decide
  constructor
  · exact h.addrs.redistribute hnd hpa hoa
  · exact fun a => (placed_redistribute hpa hoa).trans (h.addrs_all a)
  · exact h.skbs.redistribute hnd hps hos
  · exact fun x => (placed_redistribute hps hos).trans (h.skbs_all x)
  · show s.freeRecvframeCnt + 1 = (s.freeRecvQueue ++ [f.addr]).length
    rw [List.length_append, h.cnt]
    rfl

theorem Owned.rtwFreeRecvframe {f : RecvFrame} (h : Owned s (f :: hand)) :
    Owned (s.rtwFreeRecvframe f) hand := h.release (.freed f) rfl rfl

theorem Owned.freeAll {fs : List RecvFrame} (h : Owned s (fs ++ hand)) :
    Owned (s.freeAll fs) hand := by
  induction fs generalizing s with
  | nil => exact h
  | cons f fs ih => exact ih h.rtwFreeRecvframe

/-- Releasing what is in hand touches the free queue only. -/
theorem Owned.freeAll_eq {fs : List RecvFrame} (h : Owned s (fs ++ hand)) :
    s.freeAll fs =
      { s with freeRecvQueue := s.freeRecvQueue ++ fs.map (·.addr)
               freeRecvframeCnt := s.freeRecvframeCnt + fs.length
               log := s.log ++ fs.map .freed } := by
  induction fs generalizing s with
  | nil => simp [RecvPriv.freeAll]
  | cons f fs ih =>
    have hstep : s.freeAll (f :: fs) = (s.rtwFreeRecvframe f).freeAll fs := rfl
    have hone : s.rtwFreeRecvframe f =
        { s with freeRecvQueue := s.freeRecvQueue ++ [f.addr]
                 freeRecvframeCnt := s.freeRecvframeCnt + 1, log := s.log ++ [.freed f] } := by
      rw [RecvPriv.rtwFreeRecvframe, h.giveBack_eq]
      rfl
    rw [hstep, ih h.rtwFreeRecvframe, hone]
    simp only [List.append_assoc, List.map_cons, List.cons_append, List.nil_append,
      List.length_cons]
    congr 1
    omega

theorem Owned.handOn {f : RecvFrame} {e : RecvEvent} (h : Owned s (f :: hand))
    (he : e.frame.ident = f.ident) (hkeep : ∀ g, e ≠ .forget g) : Owned (s.handOn e) hand := by
  cases e with
  | indicate g => exact h.release (.event (.indicate g)) rfl he
  | deaggregate g => exact h.release (.event (.deaggregate g)) rfl he
  | forget g => exact absurd rfl (hkeep g)

theorem Owned.handOnAll {events : List RecvEvent} (hkeep : ∀ e ∈ events, ∀ g, e ≠ .forget g)
    (h : Owned s (events.map (·.frame) ++ hand)) : Owned (s.handOnAll events) hand := by
  induction events generalizing s with
  | nil => exact h
  | cons e events ih =>
    apply ih (fun e' he' => hkeep e' (List.mem_cons_of_mem e he'))
    exact Owned.handOn h rfl (hkeep e List.mem_cons_self)

/-- So does handing on. -/
theorem Owned.handOnAll_queues {events : List RecvEvent}
    (hkeep : ∀ e ∈ events, ∀ g, e ≠ .forget g)
    (h : Owned s (events.map (·.frame) ++ hand)) :
    (s.handOnAll events).ucSwdecPendingQueue = s.ucSwdecPendingQueue := by
  induction events generalizing s with
  | nil => rfl
  | cons e events ih =>
    have hone : (s.handOn e).ucSwdecPendingQueue = s.ucSwdecPendingQueue := by
      have hback := Owned.giveBack_eq (f := e.frame) h
      cases e with
      | indicate g =>
        show (s.giveBack g.addr).ucSwdecPendingQueue = _
        rw [show s.giveBack g.addr = _ from hback]
      | deaggregate g =>
        show (s.giveBack g.addr).ucSwdecPendingQueue = _
        rw [show s.giveBack g.addr = _ from hback]
      | forget g => rfl
    refine (ih (fun e' he' => hkeep e' (List.mem_cons_of_mem e he')) ?_).trans hone
    exact Owned.handOn h rfl (hkeep e List.mem_cons_self)

end moves

/-! ## Queues of a station -/

section queues

variable {s : RecvPriv} {hand : List RecvFrame}

/-- The new content of a `defrag_q` and of the hand. -/
theorem Owned.setDefragQ {psta : ℕ} {q : List RecvFrame} {hand' : List RecvFrame} (h : Owned s hand)
    (hperm : ((hand' ++ q).map RecvFrame.ident).Perm
      ((hand ++ s.defragQ psta).map RecvFrame.ident)) : Owned (s.setDefragQ psta q) hand' := by
  refine h.redistribute [.hand, .defragQ psta] (by simp) (by simp) ?_ ?_ rfl rfl rfl rfl
  · simpa [RecvPriv.held, RecvPriv.setDefragQ] using hperm
  · intro l hl
    cases l with
    | hand => simp at hl
    | pool => rfl
    | ucSwdec => rfl
    | defragQ i =>
      have hi : i ≠ psta := by
        rintro rfl
        simp at hl
      exact Function.update_of_ne hi _ _
    | reorder i tid => rfl

/-- The new content of a reorder queue and of the hand. -/
theorem Owned.setReorder {psta tid : ℕ} {c : RecvReorderCtrl} {hand' : List RecvFrame}
    (h : Owned s hand)
    (hperm : ((hand' ++ c.pending).map RecvFrame.ident).Perm
      ((hand ++ (s.recvreorderCtrl psta tid).pending).map RecvFrame.ident)) :
    Owned (s.setReorder psta tid c) hand' := by
  refine h.redistribute [.hand, .reorder psta tid] (by simp) (by simp) ?_ ?_ rfl rfl rfl rfl
  · simpa [RecvPriv.held] using hperm
  · intro l hl
    cases l with
    | hand => simp at hl
    | pool => rfl
    | ucSwdec => rfl
    | defragQ i => rfl
    | reorder i j =>
      have hij : ¬(i = psta ∧ j = tid) := by
        rintro ⟨rfl, rfl⟩
        simp at hl
      show ((s.setReorder psta tid c).recvreorderCtrl i j).pending = _
      rw [setReorder_of_ne s c hij]
      rfl

/-- Members other than the queues do not matter. -/
theorem Owned.congr {s' : RecvPriv} (h : Owned s hand)
    (hheld : ∀ l, s'.held [] l = s.held [] l) (hfree : s'.freeRecvQueue = s.freeRecvQueue)
    (hcnt : s'.freeRecvframeCnt = s.freeRecvframeCnt)
    (hlog : s'.log.filterMap RxOut.gone = s.log.filterMap RxOut.gone)
    (harr : s'.arrived = s.arrived) : Owned s' hand := by
  refine h.redistribute [.hand] (List.nodup_singleton _) (by simp) ?_ ?_ hfree hcnt hlog harr
  · simp [RecvPriv.held]
  · intro l hl
    cases l with
    | hand => simp at hl
    | pool => rfl
    | ucSwdec => exact hheld .ucSwdec
    | defragQ i => exact hheld (.defragQ i)
    | reorder i j => exact hheld (.reorder i j)

end queues

/-! ## Defragmentation -/

section chkDefrag

variable {sec : MicContext} {f : RecvFrame}

theorem recvframeChkmic_ident (sec : MicContext) (f : RecvFrame) :
    (recvframeChkmic sec f).frame.ident = f.ident := by
  have hpull : (recvframePullTail f 8).ident = f.ident := by simp [RecvFrame.ident]
  unfold recvframeChkmic
  split_ifs
  · rfl
  · split
    · exact hpull
    · dsimp only
      split_ifs
      · rfl
      all_goals exact hpull

/-- The frames that a call leaves behind, by identity. -/
def DefragResult.idents (r : DefragResult) : List (ℕ × Option ℕ) :=
  (r.ret.toList ++ r.freed ++ r.queue).map RecvFrame.ident

theorem chkDefragMic_idents (sec : MicContext) (r : DefragResult) :
    (chkDefragMic sec r).idents.Perm r.idents := by
  unfold chkDefragMic
  cases hret : r.ret with
  | none => exact List.Perm.refl _
  | some g =>
    dsimp only
    have hmic := recvframeChkmic_ident sec g
    split_ifs
    · simp only [DefragResult.idents, hret, Option.toList_none, Option.toList_some,
        List.nil_append, List.map_append, List.map_cons, List.map_nil, hmic, List.append_assoc]
      exact List.perm_append_comm_assoc _ _ _
    · simp only [DefragResult.idents, hret, Option.toList_some, List.map_append, List.map_cons,
        List.map_nil, hmic]
      exact List.Perm.refl _
    · exact List.Perm.refl _

theorem recvframeDefrag_idents (q : List RecvFrame) :
    (recvframeDefrag q).idents.Perm (q.map RecvFrame.ident) := by
  cases q with
  | nil => exact List.Perm.refl _
  | cons pr q =>
    rw [recvframeDefrag]
    split_ifs
    · simp [DefragResult.idents]
    · cases hl : defragLoop 1 pr q with
      | none => simp [DefragResult.idents]
      | some r =>
        obtain ⟨haddr, hskb⟩ := defragLoop_addr hl
        have hid : r.ident = pr.ident := by rw [RecvFrame.ident, haddr, hskb]; rfl
        simp [DefragResult.idents, hid]

/-- No frame is lost between the queue, the caller and the free queue. -/
theorem recvframeChkDefrag_idents (sec : MicContext) (pdefragQ : Option (List RecvFrame))
    (hm : f.attrib.mfrag ≤ 1) :
    (recvframeChkDefrag sec pdefragQ f).idents.Perm
      ((pdefragQ.getD [] ++ [f]).map RecvFrame.ident) := by
  unfold recvframeChkDefrag
  refine (chkDefragMic_idents sec _).trans ?_
  by_cases h0 : f.attrib.mfrag = 0 ∧ f.attrib.fragNum = 0
  · rw [if_pos h0]
    simpa [DefragResult.idents] using (List.perm_append_singleton _ _).symm
  rw [if_neg h0]
  by_cases h1 : f.attrib.mfrag = 1
  · rw [if_pos h1]
    cases pdefragQ with
    | none => simp [DefragResult.idents]
    | some q =>
      by_cases h2 : f.attrib.fragNum = 0
      · simp [h2, DefragResult.idents]
      · simp [h2, DefragResult.idents]
  · rw [if_neg h1, if_neg (by omega)]
    cases pdefragQ with
    | none => simp [DefragResult.idents]
    | some q => exact recvframeDefrag_idents (q ++ [f])

theorem recvframeChkDefrag_none_queue : (recvframeChkDefrag sec none f).queue = [] := by
  unfold recvframeChkDefrag
  rw [chkDefragMic_queue]
  dsimp only
  split_ifs <;> rfl

end chkDefrag

/-! ## The condition -/

/-- The A-MSDU flag and the More Fragments flag are bits. -/
def FieldsOk (f : RecvFrame) : Prop := f.attrib.amsdu ≤ 1 ∧ f.attrib.mfrag ≤ 1

/-- The frame that a last fragment completes, on its way to
    `process_recv_indicatepkts`. -/
def assembled (env : RecvEnv) (s : RecvPriv) (f : RecvFrame) : Option RecvFrame :=
  (decryptor env.priv s.message f).ret.bind fun g =>
    if g.attrib.fragNum = 0 then none
    else
      (recvframeChkDefrag env.micContext ((defragSta env.priv g).map s.defragQ) g).ret.filter
        (portctrl env)

/-- The reorder window does not refuse a frame that a last fragment completes. -/
def CompletesOk (env : RecvEnv) (s : RecvPriv) (f : RecvFrame) : Prop :=
  ∀ g ∈ assembled env s f, env.priv.htOption = true →
    (recvIndicatepktReorder env.drv (s.recvreorderCtrl g.psta g.attrib.priority) g).status =
      .success

/-- So it is for the frames that waited for the key. -/
def DrainOk (env : RecvEnv) : RecvPriv → List RecvFrame → Prop
  | _, [] => True
  | s, f :: q =>
    CompletesOk env { s with ucSwdecPendingQueue := q } f ∧
      DrainOk env (recvFuncPosthandle env { s with ucSwdecPendingQueue := q } f) q

/-- A station is initialised with nothing in its queues. -/
def StaOk (s : RecvPriv) : StaQueueOp → Prop
  | .rtwAllocStainfo psta =>
    s.defragQ psta = [] ∧ ∀ tid, (s.recvreorderCtrl psta tid).pending = []
  | _ => True

/-- The management frame is not the last of several fragments, and no Protected frame
    whose MIC is wrong. -/
def MgntOk (env : RecvEnv) (s : RecvPriv) (mgt : List StaQueueOp) (f : RecvFrame) : Prop :=
  f.attrib.mfrag = 0 → f.attrib.fragNum = 0 ∧
    (f.attrib.privacy = true → (recvframeChkmic env.micContext f).status ≠ .fail) ∧
    Guarded staQueueStep StaOk s mgt

/-- The condition on a frame that `recv_func_prehandle` takes. -/
def NewOk (env : RecvEnv) (s : RecvPriv) (mgt : List StaQueueOp) (f : RecvFrame) : Prop :=
  let f := f.setAttrib (parseHeader f)
  match getFrameType f with
  | .mgt => MgntOk env s mgt f
  | .data =>
    let r := validateRecvDataFrame env.priv s.tidRxseq (f.setAttrib (parseQos f))
    r.status = .success → parks env.priv r.frame = false → CompletesOk env s r.frame
  | .ctrl | .reserved => True

theorem getFrameType_of_zero {f : RecvFrame} (h : f.le16At 0 &&& 0x0C = 0) :
    getFrameType f = .mgt := by
  unfold getFrameType
  rw [h]
  rfl

theorem newOk_mgt {env : RecvEnv} {s : RecvPriv} {mgt : List StaQueueOp} {f : RecvFrame}
    (h : getFrameType f = .mgt) :
    NewOk env s mgt f ↔ MgntOk env s mgt (f.setAttrib (parseHeader f)) := by
  have htype : getFrameType (f.setAttrib (parseHeader f)) = .mgt := h
  unfold NewOk
  simp only [htype]

/-- The condition on a received frame. -/
def RecvOk (env : RecvEnv) (s : RecvPriv) (mgt : List StaQueueOp) (f : RecvFrame) : Prop :=
  if env.priv.fwState.station && env.priv.busetkipkey then
    DrainOk env s s.ucSwdecPendingQueue ∧
      (frameVersion f = 0 → NewOk env (drainUcSwdec env s s.ucSwdecPendingQueue) mgt f)
  else frameVersion f = 0 → NewOk env s mgt f

/-- The condition on a step. -/
def RxOk (s : RecvPriv) : RxOp → Prop
  | .recv env mgt f =>
    ∀ a q, s.freeRecvQueue = a :: q →
      RecvOk env
        { s with freeRecvQueue := q, freeRecvframeCnt := s.freeRecvframeCnt - 1
                 arrived := s.arrived + 1 }
        mgt { f with addr := a, skb := some s.arrived }
  | .timeout _ _ _ => True
  | .sta op => StaOk s op

/-! ## Stages -/

section stages

variable {env : RecvEnv} {s : RecvPriv} {hand : List RecvFrame} {f : RecvFrame}

theorem idents_perm_hand {r : DefragResult} {q : List RecvFrame} {f : RecvFrame}
    (h : r.idents.Perm ((q ++ [f]).map RecvFrame.ident)) (hand : List RecvFrame) :
    (((r.freed ++ (r.ret.toList ++ hand)) ++ r.queue).map RecvFrame.ident).Perm
      (((f :: hand) ++ q).map RecvFrame.ident) := by
  rw [List.perm_iff_count] at h ⊢
  intro x
  have hx := h x
  simp only [DefragResult.idents, List.map_append, List.count_append, List.map_cons,
    List.cons_append, List.count_cons, List.map_nil, List.count_nil] at hx ⊢
  omega

theorem Owned.chkDefrag (h : Owned s (f :: hand)) (env : RecvEnv) (hm : f.attrib.mfrag ≤ 1) :
    Owned (chkDefrag env s f).1 ((chkDefrag env s f).2.toList ++ hand) := by
  unfold Recv.chkDefrag
  cases defragSta env.priv f with
  | none =>
    have hperm := idents_perm_hand
      (recvframeChkDefrag_idents env.micContext none hm) hand
    rw [recvframeChkDefrag_none_queue, List.append_nil, Option.getD_none, List.append_nil] at hperm
    exact (h.hand_perm hperm).freeAll
  | some psta =>
    exact (h.setDefragQ (idents_perm_hand
      (recvframeChkDefrag_idents env.micContext (some (s.defragQ psta)) hm) hand)).freeAll

theorem recvIndicatepktReorder_keeps {drv : DriverState} (hrun : drv.running = true)
    {c : RecvReorderCtrl} (hf : f.attrib.amsdu ≤ 1) (hc : ∀ g ∈ c.pending, g.attrib.amsdu ≤ 1) :
    ∀ e ∈ (recvIndicatepktReorder drv c f).events, e.Keeps := by
  intro e he
  rcases recvIndicatepktReorder_events he with ⟨-, rfl⟩ | ⟨-, rfl⟩ | ⟨g, hg, rfl⟩
  · nofun
  · nofun
  · apply indicateOne_keeps hrun
    rcases List.mem_cons.mp hg with rfl | hg
    · exact (msduOf_amsdu f).trans_le hf
    · exact hc g hg

theorem msduOf_ident (f : RecvFrame) : (msduOf f).ident = f.ident := by
  unfold msduOf
  split_ifs
  · simp [RecvFrame.ident]
  · rfl

theorem recvIndicatepktReorder_status (drv : DriverState) (c : RecvReorderCtrl) (f : RecvFrame) :
    (recvIndicatepktReorder drv c f).status = .success ∨
      (recvIndicatepktReorder drv c f).status = .fail := by
  unfold recvIndicatepktReorder
  dsimp only
  split_ifs
  · exact Or.inl rfl
  · exact Or.inr rfl
  · exact Or.inl rfl
  · exact reorderEnqueue_status drv c _
  · exact Or.inl rfl
  · exact reorderEnqueue_status drv c _

/-- The frame goes on, or the caller keeps it. -/
theorem Owned.processRecvIndicatepkts (hrun : env.drv.running = true) (hf : f.attrib.amsdu ≤ 1)
    (hQ : Queued (fun _ g => FieldsOk g) s) (h : Owned s (f :: hand)) :
    let r := processRecvIndicatepkts env s f
    (r.2 = .success → Owned r.1 hand) ∧ (r.2 ≠ .success → Owned r.1 (f :: hand)) ∧
      r.1.ucSwdecPendingQueue = s.ucSwdecPendingQueue := by
  intro r
  have hr : r = Recv.processRecvIndicatepkts env s f := rfl
  unfold Recv.processRecvIndicatepkts at hr
  cases hht : env.priv.htOption with
  | true =>
    rw [if_pos hht] at hr
    set c := s.recvreorderCtrl f.psta f.attrib.priority with hc
    have hkeeps := recvIndicatepktReorder_keeps hrun hf fun g hg =>
      (hQ (.reorder f.psta f.attrib.priority) g hg).1
    have hperm := recvIndicatepktReorder_perm env.drv c f
    have hframe : (recvIndicatepktReorder env.drv c f).frame = msduOf f :=
      recvIndicatepktReorder_frame env.drv c f
    have hstatus := recvIndicatepktReorder_status env.drv c f
    dsimp only at hr hperm
    generalize recvIndicatepktReorder env.drv c f = o at hr hperm hframe hstatus hkeeps
    rw [hframe] at hperm
    have hset : Owned (s.setReorder f.psta f.attrib.priority o.ctrl)
        (o.events.map (·.frame) ++ (o.refused ++ hand)) := by
      apply h.setReorder
      rw [← hc]
      have hid := hperm.map RecvFrame.ident
      rw [List.perm_iff_count] at hid ⊢
      intro x
      have hx := hid x
      simp only [List.map_append, List.count_append, List.map_cons, List.cons_append,
        List.count_cons, msduOf_ident] at hx ⊢
      omega
    have hdone := hset.handOnAll hkeeps
    have huc := hset.handOnAll_queues hkeeps
    rw [hr]
    rcases hstatus with hs | hs
    · have hrefused : o.refused = [] := if_pos hs
      rw [hrefused, List.nil_append] at hdone
      refine ⟨fun _ => hdone, fun hne => ?_, huc⟩
      simp [hs] at hne
    · have hrefused : o.refused = [msduOf f] := by
        rw [ReorderResult.refused, if_neg (by rw [hs]; decide), hframe]
      rw [hrefused] at hdone
      have hback : Owned _ (f :: hand) := hdone.hand_perm (by simp [msduOf_ident])
      refine ⟨fun hsucc => ?_, fun _ => hback, huc⟩
      simp [hs, hrun] at hsucc
  | false =>
    rw [if_neg (by rw [hht]; decide), if_pos hrun] at hr
    rw [hr]
    have hid : (RecvEvent.indicate (wlanhdrToEthhdr f)).frame.ident = f.ident := by
      simp [RecvEvent.frame, RecvFrame.ident]
    have hkeep : ∀ e ∈ [RecvEvent.indicate (wlanhdrToEthhdr f)], e.Keeps := by
      intro e he g
      rw [List.mem_singleton.mp he]
      intro hg
      cases hg
    have hone : Owned s ([RecvEvent.indicate (wlanhdrToEthhdr f)].map (·.frame) ++ hand) :=
      h.hand_perm (by simp [hid])
    exact ⟨fun _ => hone.handOnAll hkeep, fun hne => absurd rfl hne, hone.handOnAll_queues hkeep⟩

/-- The members that decryption does not touch. -/
theorem Rewritten.ident {f g : RecvFrame} (h : Rewritten (setKeyIndex f) g) :
    g.ident = f.ident := by
  rw [RecvFrame.ident, h.addr, h.skb]
  unfold setKeyIndex
  split <;> rfl

theorem Rewritten.fieldsOk {f g : RecvFrame} (h : Rewritten (setKeyIndex f) g) (hf : FieldsOk f) :
    FieldsOk g := by
  unfold FieldsOk
  rw [h.attrib]
  unfold setKeyIndex
  split <;> exact hf

theorem MadeOf.fieldsOk {f g : RecvFrame} (h : MadeOf f g) (hf : FieldsOk f) : FieldsOk g := by
  obtain ⟨n, hn⟩ := h.attrib
  unfold FieldsOk
  rw [hn]
  exact hf

theorem MadeOf.msduOf_amsdu {f g : RecvFrame} (h : MadeOf f g) (hf : FieldsOk f) :
    FieldsOk (msduOf g) := by
  have hg := h.fieldsOk hf
  refine ⟨(Recv.msduOf_amsdu g).trans_le hg.1, ?_⟩
  unfold msduOf
  split_ifs
  · rw [wlanhdrToEthhdr_attrib]
    exact hg.2
  · exact hg.2

/-- A frame that goes on keeps the fields that the queues rely on. -/
theorem chkDefrag_fieldsOk {g : RecvFrame} (hf : FieldsOk f)
    (hQ : Queued (fun _ g => FieldsOk g) s) (h : (Recv.chkDefrag env s f).2 = some g) :
    ∃ f₀, FieldsOk f₀ ∧ MadeOf f₀ g := by
  rw [chkDefrag_ret] at h
  rcases recvframeChkDefrag_madeOf h with ⟨-, hmade⟩ | ⟨-, pr, hpr, hmade⟩
  · exact ⟨f, hf, hmade⟩
  · refine ⟨pr, ?_, hmade⟩
    cases hsta : defragSta env.priv f with
    | none =>
      rw [hsta] at hpr
      exact absurd hpr List.not_mem_nil
    | some psta =>
      rw [hsta] at hpr
      exact hQ (.defragQ psta) pr hpr

/-- The other queues are those from before. -/
theorem Owned.chkDefrag_queues (h : Owned s (f :: hand)) (env : RecvEnv)
    (hm : f.attrib.mfrag ≤ 1) :
    (Recv.chkDefrag env s f).1.recvreorderCtrl = s.recvreorderCtrl ∧
      (Recv.chkDefrag env s f).1.ucSwdecPendingQueue = s.ucSwdecPendingQueue := by
  unfold Recv.chkDefrag
  cases defragSta env.priv f with
  | none =>
    have hperm := idents_perm_hand
      (recvframeChkDefrag_idents env.micContext none hm) hand
    rw [recvframeChkDefrag_none_queue, List.append_nil, Option.getD_none, List.append_nil] at hperm
    dsimp only
    rw [(h.hand_perm hperm).freeAll_eq]
    exact ⟨rfl, rfl⟩
  | some psta =>
    have hset := h.setDefragQ (idents_perm_hand
      (recvframeChkDefrag_idents env.micContext (some (s.defragQ psta)) hm) hand)
    dsimp only
    rw [hset.freeAll_eq]
    exact ⟨rfl, rfl⟩

/-- A data frame that goes through `recv_func_posthandle` ends up in one place. -/
theorem Owned.recvFuncPosthandle (hrun : env.drv.running = true) (hf : FieldsOk f)
    (hQ : Queued (fun _ g => FieldsOk g) s) (hok : CompletesOk env s f)
    (h : Owned s (f :: hand)) : Owned (recvFuncPosthandle env s f) hand ∧
      (Recv.recvFuncPosthandle env s f).ucSwdecPendingQueue = s.ucSwdecPendingQueue := by
  unfold Recv.recvFuncPosthandle
  obtain ⟨g, hg, hret⟩ := decryptor_cases env.priv s.message f
  set m := (decryptor env.priv s.message f).message
  have hmsg : Owned { s with message := m } (g :: hand) := by
    have hs : Owned { s with message := m } (f :: hand) :=
      h.congr (fun l => by cases l <;> rfl) rfl rfl rfl rfl
    exact hs.hand_perm (by simp [hg.ident])
  have hQm : Queued (fun _ g => FieldsOk g) { s with message := m } :=
    hQ.congr fun l => by cases l <;> rfl
  have hgf := hg.fieldsOk hf
  have hfree : ∀ {t : RecvPriv} {k : RecvFrame}, Owned t (k :: hand) →
      t.ucSwdecPendingQueue = s.ucSwdecPendingQueue →
      Owned (t.rtwFreeRecvframe k) hand ∧
        (t.rtwFreeRecvframe k).ucSwdecPendingQueue = s.ucSwdecPendingQueue := by
    intro t k ht huc
    refine ⟨ht.rtwFreeRecvframe, ?_⟩
    show (t.giveBack k.addr).ucSwdecPendingQueue = _
    rw [ht.giveBack_eq]
    exact huc
  rcases hret with ⟨hret, -⟩ | ⟨hret, hfreed⟩
  · dsimp only
    rw [hret]
    dsimp only
    have hown := hmsg.chkDefrag env hgf.2
    have hQc := hQm.chkDefrag env (f := g) fun _ _ _ => hgf
    obtain ⟨hreorder, huc⟩ := hmsg.chkDefrag_queues env hgf.2
    have hfields : ∀ k, (Recv.chkDefrag env { s with message := m } g).2 = some k →
        ∃ f₀, FieldsOk f₀ ∧ MadeOf f₀ k := fun k => chkDefrag_fieldsOk hgf hQm
    have hsecond := chkDefrag_ret env { s with message := m } g
    have hsame : ∀ k, (Recv.chkDefrag env { s with message := m } g).2 = some k →
        g.attrib.fragNum = 0 → k.ident = g.ident := by
      intro k hk h0
      rw [chkDefrag_ret] at hk
      rcases recvframeChkDefrag_madeOf hk with ⟨-, hmade⟩ | ⟨hne, -⟩
      · exact hmade.ident
      · exact absurd h0 hne
    generalize Recv.chkDefrag env { s with message := m } g = c at *
    obtain ⟨s₁, _ | k⟩ := c
    · exact ⟨hown, huc⟩
    · dsimp only at hown hQc hreorder huc hfields hsecond hsame ⊢
      obtain ⟨f₀, hf₀, hmade⟩ := hfields k rfl
      split_ifs with hport
      · have hproc := hown.processRecvIndicatepkts hrun (hmade.fieldsOk hf₀).1 hQc
        unfold indicateOrFree
        dsimp only at hproc ⊢
        split_ifs with hstatus
        · by_cases h0 : g.attrib.fragNum = 0
          · have hback : Owned _ (f :: hand) := (hproc.2.1 hstatus).hand_perm (by
              simp [hsame k rfl h0, hg.ident])
            exact hfree hback (hproc.2.2.trans huc)
          · -- the frame was completed by a last fragment, which the window takes
            exfalso
            apply hstatus
            have hk : assembled env s f = some k := by
              rw [assembled, hret, Option.bind_some, if_neg h0, ← hsecond]
              exact Option.filter_some_pos hport
            unfold Recv.processRecvIndicatepkts
            split_ifs with hht
            · dsimp only
              rw [hreorder]
              have hst := hok k hk hht
              rw [hst]
              rfl
            · rfl
        · exact ⟨hproc.1 (not_not.mp hstatus), hproc.2.2.trans huc⟩
      · exact hfree hown huc
  · dsimp only
    rw [hret, hfreed]
    exact hfree hmsg rfl

/-- Every frame in a queue keeps its flags. -/
theorem fieldsOk_stages (env : RecvEnv) :
    Stages env FieldsOk (fun _ f => FieldsOk f) (fun _ _ => True) fun _ => True where
  unpark _ hf := hf
  defragQ _ f g _ _ hf hret _ _ := (decryptor_ret hret).fieldsOk hf
  pass s f g k hQ _ hf hret hk _ := by
    rw [← chkDefrag_ret] at hk
    obtain ⟨f₀, hf₀, hmade⟩ := chkDefrag_fieldsOk ((decryptor_ret hret).fieldsOk hf) hQ hk
    exact ⟨hmade.msduOf_amsdu hf₀, fun _ => trivial⟩
  event _ _ _ _ := trivial

/-- The flags are parsed from single bits. -/
theorem validateRecvDataFrame_fieldsOk {priv : RtlPriv} {tidRxseq : ℕ → ℕ → ℕ}
    (hm : f.attrib.mfrag ≤ 1) (h : (validateRecvDataFrame priv tidRxseq f).status = .success) :
    FieldsOk (validateRecvDataFrame priv tidRxseq f).frame := by
  obtain ⟨psta, -, -, hframe⟩ := validateRecvDataFrame_success h
  rw [hframe]
  have hsec : ∀ a : RxPktAttrib, (setSecurity priv psta a).amsdu = a.amsdu ∧
      (setSecurity priv psta a).mfrag = a.mfrag := by
    intro a
    unfold setSecurity
    split <;> exact ⟨rfl, rfl⟩
  have hqos : ∀ g : RecvFrame, (parseQosControl g).amsdu ≤ 1 ∧
      (parseQosControl g).mfrag = g.attrib.mfrag := by
    intro g
    have hbit : getAMsdu g ≤ 1 := Bool.toNat_le _
    unfold parseQosControl
    dsimp only
    split_ifs <;> first | exact ⟨hbit, rfl⟩ | exact ⟨Nat.zero_le 1, rfl⟩
  refine ⟨?_, ?_⟩
  · exact (hsec _).1.trans_le (hqos _).1
  · exact ((hsec _).2.trans (hqos _).2).trans_le hm

theorem validateRecvDataFrame_ident (priv : RtlPriv) (tidRxseq : ℕ → ℕ → ℕ) (f : RecvFrame) :
    (validateRecvDataFrame priv tidRxseq f).frame.ident = f.ident := by
  unfold validateRecvDataFrame
  dsimp only
  split
  · split <;> rfl
  · rfl
  · rfl

theorem acceptedAs_fieldsOk (env : RecvEnv) (f : RecvFrame) :
    AcceptedAs env FieldsOk (fun _ f => FieldsOk f) (fun _ => True) f := by
  intro _ _ tidRxseq
  dsimp only
  refine ⟨fun _ _ => trivial, fun h => ?_⟩
  have hf := validateRecvDataFrame_fieldsOk (Bool.toNat_le _) h
  split_ifs <;> exact hf

/-- The queues of a station as they are freed. -/
theorem Owned.freeReorderQueues (h : Owned s hand) (psta : ℕ) (tids : List ℕ) :
    Owned (freeReorderQueues s psta tids) hand := by
  induction tids generalizing s with
  | nil => exact h
  | cons tid tids ih =>
    apply ih
    apply Owned.freeAll
    apply h.setReorder
    simp only [List.append_nil]
    exact (List.perm_append_comm).map RecvFrame.ident

theorem Owned.updateReorder (h : Owned s hand) (psta : ℕ) {c : ℕ → RecvReorderCtrl}
    (hc : ∀ tid, (c tid).pending = (s.recvreorderCtrl psta tid).pending) :
    Owned { s with recvreorderCtrl := Function.update s.recvreorderCtrl psta c } hand := by
  refine h.congr (fun l => ?_) rfl rfl rfl rfl
  cases l with
  | pool => rfl
  | hand => rfl
  | ucSwdec => rfl
  | defragQ i => rfl
  | reorder i tid =>
    show (Function.update s.recvreorderCtrl psta c i tid).pending = _
    by_cases hi : i = psta
    · subst hi
      rw [Function.update_self]
      exact hc tid
    · rw [Function.update_of_ne hi]
      rfl

/-- A change of a station keeps every frame in its place or frees it. -/
theorem Owned.staQueueStep (h : Owned s hand) {op : StaQueueOp} (hok : StaOk s op) :
    Owned (staQueueStep s op) hand := by
  cases op with
  | rtwAllocStainfo psta =>
    have hset : Owned (s.setDefragQ psta []) hand := h.setDefragQ (by rw [hok.1])
    have hinit := hset.updateReorder psta (c := fun _ => preorderAlloc) fun tid => (hok.2 tid).symm
    exact hinit.congr (fun l => by cases l <;> rfl) rfl rfl rfl rfl
  | rtwFreeStainfo psta => exact h.freeReorderQueues psta _
  | processAddbaReq psta tid b => exact h.setReorder (List.Perm.refl _)
  | onActionDelba psta tid => exact h.setReorder (List.Perm.refl _)
  | sendDelba psta =>
    refine h.updateReorder psta fun tid => ?_
    unfold sendDelba
    split_ifs <;> rfl
  | rtwJoinbssUpdateStainfo psta => exact h.updateReorder psta fun tid => rfl
  | rtwFreeUcSwdecPendingQueue =>
    apply Owned.freeAll
    refine h.redistribute [.hand, .ucSwdec] (by simp) (by simp) ?_ ?_ rfl rfl rfl rfl
    · simpa [RecvPriv.held] using List.perm_append_comm
    · intro l hl
      cases l with
      | hand => simp at hl
      | ucSwdec => simp at hl
      | pool => rfl
      | defragQ i => rfl
      | reorder i tid => rfl

theorem Owned.staQueueSteps (h : Owned s hand) {ops : List StaQueueOp}
    (hok : Guarded Recv.staQueueStep StaOk s ops) :
    Owned (ops.foldl Recv.staQueueStep s) hand := by
  induction ops generalizing s with
  | nil => exact h
  | cons op ops ih => exact ih (h.staQueueStep hok.1) hok.2

/-- The frames that waited for the key. -/
theorem Owned.drainUcSwdec (hrun : env.drv.running = true) {q : List RecvFrame}
    (hQ : Queued (fun _ g => FieldsOk g) s) (hq : s.ucSwdecPendingQueue = q)
    (hok : DrainOk env s q) (h : Owned s hand) : Owned (drainUcSwdec env s q) hand := by
  induction q generalizing s with
  | nil => exact h
  | cons f q ih =>
    have hfields : ∀ g ∈ f :: q, FieldsOk g := by
      rw [← hq]
      exact hQ .ucSwdec
    have hpop : Owned { s with ucSwdecPendingQueue := q } (f :: hand) := by
      refine h.redistribute [.hand, .ucSwdec] (by simp) (by simp) ?_ ?_ rfl rfl rfl rfl
      · simpa [RecvPriv.held, hq] using List.perm_middle.symm
      · intro l hl
        cases l with
        | hand => simp at hl
        | ucSwdec => simp at hl
        | pool => rfl
        | defragQ i => rfl
        | reorder i tid => rfl
    have hQpop : Queued (fun _ g => FieldsOk g) { s with ucSwdecPendingQueue := q } := by
      intro l g hg
      cases l with
      | pool => exact absurd hg List.not_mem_nil
      | hand => exact absurd hg List.not_mem_nil
      | ucSwdec => exact hfields g (List.mem_cons_of_mem f hg)
      | defragQ i => exact hQ (.defragQ i) g hg
      | reorder i tid => exact hQ (.reorder i tid) g hg
    obtain ⟨hown, huc⟩ := hpop.recvFuncPosthandle hrun (hfields f List.mem_cons_self) hQpop hok.1
    have hsound := (fieldsOk_stages env).posthandle hrun hQpop.sound
      (hfields f List.mem_cons_self) trivial
    exact ih hsound.1 huc hok.2 hown

/-! ## Management frames -/

theorem without_perm {q : List RecvFrame} (hq : (q.map (·.addr)).Nodup) (hf : f ∈ q) :
    q.Perm (f :: RecvPriv.without f.addr q) := by
  induction q with
  | nil => exact absurd hf List.not_mem_nil
  | cons g q ih =>
    rw [List.map_cons, List.nodup_cons] at hq
    by_cases hgf : g.addr = f.addr
    · have hrest : RecvPriv.without f.addr q = q := without_eq_self fun x hx hxf =>
        hq.1 (hgf.trans hxf.symm ▸ List.mem_map_of_mem hx)
      have hhead : RecvPriv.without f.addr (g :: q) = q := by
        rw [RecvPriv.without, List.filter_cons, if_neg (by simp [hgf])]
        exact hrest
      have hgf' : g = f := by
        rcases List.mem_cons.mp hf with rfl | hf
        · rfl
        · exact absurd (hgf ▸ List.mem_map_of_mem hf) hq.1
      rw [hhead, hgf']
    · have hhead : RecvPriv.without f.addr (g :: q) = g :: RecvPriv.without f.addr q := by
        rw [RecvPriv.without, List.filter_cons, if_pos (by simpa using hgf)]
        rfl
      rw [hhead]
      have hf' : f ∈ q := (List.mem_cons.mp hf).resolve_left fun h => hgf (h ▸ rfl)
      exact ((ih hq.2 hf').cons g).trans (List.Perm.swap f g _)

/-- A frame may be freed while it is in a queue. -/
theorem Owned.rtwFreeRecvframe_queued {psta : ℕ} (h : Owned s hand) (hf : f ∈ s.defragQ psta) :
    Owned (s.rtwFreeRecvframe f) hand := by
  have hnd : ((s.defragQ psta).map (·.addr)).Nodup := h.addrs.nodup (.defragQ psta)
  set q := RecvPriv.without f.addr (s.defragQ psta) with hq
  have hset : Owned (s.setDefragQ psta q) (f :: hand) := by
    apply h.setDefragQ
    have hperm := (without_perm hnd hf).map RecvFrame.ident
    rw [← hq] at hperm
    rw [List.perm_iff_count] at hperm ⊢
    intro x
    have hx := hperm x
    simp only [List.map_append, List.count_append, List.map_cons, List.cons_append,
      List.count_cons] at hx ⊢
    omega
  have hsame : (s.setDefragQ psta q).unlink f.addr = s.unlink f.addr := by
    have hdefrag : (fun i => RecvPriv.without f.addr (Function.update s.defragQ psta q i)) =
        fun i => RecvPriv.without f.addr (s.defragQ i) := by
      funext i
      by_cases hi : i = psta
      · subst hi
        rw [Function.update_self, hq, RecvPriv.without, RecvPriv.without, List.filter_filter]
        simp only [Bool.and_self]
      · rw [Function.update_of_ne hi]
    unfold RecvPriv.unlink RecvPriv.setDefragQ
    rw [hdefrag]
  have hfree := hset.rtwFreeRecvframe
  rw [RecvPriv.rtwFreeRecvframe, RecvPriv.giveBack, hsame] at hfree
  exact hfree

/-- `recvframe_chk_defrag` finds a queue for every management frame. -/
theorem defragSta_mgt (priv : RtlPriv) (htype : getFrameType f = .mgt) :
    ∃ psta, defragSta priv f = some psta := by
  unfold defragSta
  cases priv.rtwGetStainfo f.attrib.ta with
  | some psta => exact ⟨psta, rfl⟩
  | none => exact ⟨priv.bcmc, if_pos (by rw [htype]; decide)⟩

theorem Owned.mgnt {mgt : List StaQueueOp} (htype : getFrameType f = .mgt)
    (hm : f.attrib.mfrag ≤ 1) (hok : MgntOk env s mgt f) (h : Owned s (f :: hand)) :
    Owned ((validateRecvMgntFrame env s mgt f).rtwFreeRecvframe f) hand := by
  obtain ⟨psta, hpsta⟩ := defragSta_mgt env.priv htype
  by_cases h0 : f.attrib.mfrag = 0
  · -- a whole frame: the queues are those from before
    obtain ⟨hfrag, hmic, hmgt⟩ := hok h0
    have hchk : ∃ g, Recv.chkDefrag env s f = (s, some g) := by
      have hwhole : recvframeChkDefrag env.micContext (some (s.defragQ psta)) f =
          chkDefragMic env.micContext
            { queue := s.defragQ psta, freed := [], ret := some f } := by
        rw [recvframeChkDefrag, if_pos ⟨h0, hfrag⟩]
        rfl
      have hback : s.setDefragQ psta (s.defragQ psta) = s := by
        rw [RecvPriv.setDefragQ, Function.update_eq_self]
      unfold Recv.chkDefrag
      rw [hpsta]
      dsimp only
      rw [hwhole, chkDefragMic]
      dsimp only
      split_ifs with hp hs
      · exact absurd hs (hmic hp)
      · exact ⟨_, by rw [hback]; rfl⟩
      · exact ⟨_, by rw [hback]; rfl⟩
    obtain ⟨g, hg⟩ := hchk
    rw [validateRecvMgntFrame, hg]
    exact (h.staQueueSteps hmgt).rtwFreeRecvframe
  · -- a fragment: it is in the queue when the caller frees it
    have h1 : f.attrib.mfrag = 1 := by omega
    have hret : (Recv.chkDefrag env s f).2 = none := by
      rw [chkDefrag_ret, hpsta]
      show (recvframeChkDefrag env.micContext (some (s.defragQ psta)) f).ret = none
      by_cases hn : f.attrib.fragNum = 0
      · rw [chkDefrag_first h1 hn]
      · rw [chkDefrag_middle h1 hn]
    have hqueue : f ∈ (recvframeChkDefrag env.micContext (some (s.defragQ psta)) f).queue := by
      by_cases hn : f.attrib.fragNum = 0
      · rw [chkDefrag_first h1 hn]
        exact List.mem_singleton_self f
      · rw [chkDefrag_middle h1 hn]
        exact List.mem_append_right _ (List.mem_singleton_self f)
    have hown := h.chkDefrag env hm
    have hin : f ∈ (Recv.chkDefrag env s f).1.defragQ psta := by
      have hset := h.setDefragQ (idents_perm_hand
        (recvframeChkDefrag_idents env.micContext (some (s.defragQ psta)) hm) hand)
      unfold Recv.chkDefrag
      rw [hpsta]
      dsimp only
      rw [hset.freeAll_eq]
      show f ∈ Function.update s.defragQ psta _ psta
      rw [Function.update_self]
      exact hqueue
    rw [hret] at hown
    unfold validateRecvMgntFrame
    generalize Recv.chkDefrag env s f = c at hret hown hin
    obtain ⟨s₁, r⟩ := c
    obtain rfl : r = none := hret
    exact hown.rtwFreeRecvframe_queued hin

/-! ## Received frames -/

theorem Owned.recvFuncNew (hrun : env.drv.running = true) {mgt : List StaQueueOp}
    (hQ : Queued (fun _ g => FieldsOk g) s) (hok : frameVersion f = 0 → NewOk env s mgt f)
    (h : Owned s (f :: hand)) : Owned (recvFuncNew env s mgt f) hand := by
  have hset : ∀ {t : RecvPriv} {g : RecvFrame}, Owned t (f :: hand) → g.ident = f.ident →
      Owned t (g :: hand) := fun ht hg => ht.hand_perm (by simp [hg])
  unfold Recv.recvFuncNew validateRecvFrame
  by_cases hver : frameVersion f = 0
  · have hok := hok hver
    unfold NewOk at hok
    rw [if_neg (not_not_intro hver)]
    dsimp only at hok ⊢
    have hp : Owned s (f.setAttrib (parseHeader f) :: hand) := hset h rfl
    cases hf : getFrameType (f.setAttrib (parseHeader f)) with
    | mgt =>
      rw [hf] at hok
      exact hp.mgnt hf (Bool.toNat_le _) hok
    | ctrl => exact hp.rtwFreeRecvframe
    | reserved => exact hp.rtwFreeRecvframe
    | data =>
      rw [hf] at hok
      dsimp only at hok ⊢
      have hfields : (validateRecvDataFrame env.priv s.tidRxseq ((f.setAttrib
          (parseHeader f)).setAttrib (parseQos (f.setAttrib (parseHeader f))))).status = .success →
          FieldsOk (validateRecvDataFrame env.priv s.tidRxseq ((f.setAttrib
            (parseHeader f)).setAttrib (parseQos (f.setAttrib (parseHeader f))))).frame :=
        validateRecvDataFrame_fieldsOk (Bool.toNat_le _)
      have hident := validateRecvDataFrame_ident env.priv s.tidRxseq
        ((f.setAttrib (parseHeader f)).setAttrib (parseQos (f.setAttrib (parseHeader f))))
      generalize validateRecvDataFrame env.priv s.tidRxseq _ = r at hok hfields hident ⊢
      have hr : Owned ({ s with tidRxseq := r.tidRxseq }.record (r.effects.map .effect))
          (r.frame :: hand) := by
        have ht : Owned ({ s with tidRxseq := r.tidRxseq }.record (r.effects.map .effect))
            (f :: hand) := by
          refine h.congr (fun l => by cases l <;> rfl) rfl rfl ?_ rfl
          simp [RecvPriv.record, RxOut.gone, List.filterMap_append, List.filterMap_map]
        exact hset ht hident
      cases hstatus : r.status with
      | success =>
        dsimp only
        split_ifs with hpark
        · refine hr.redistribute [.hand, .ucSwdec] (by simp) (by simp) ?_ ?_ rfl rfl rfl rfl
          · rw [List.perm_iff_count]
            intro x
            simp only [RecvPriv.held, RecvPriv.record, List.flatMap_cons, List.flatMap_nil,
              List.append_nil, List.map_append, List.map_cons, List.map_nil, List.count_append,
              List.count_cons, List.count_nil]
            omega
          · intro l hl
            cases l with
            | hand => simp at hl
            | ucSwdec => simp at hl
            | pool => rfl
            | defragQ i => rfl
            | reorder i tid => rfl
        · have hok' : CompletesOk env
              ({ s with tidRxseq := r.tidRxseq }.record (r.effects.map .effect)) r.frame :=
            hok hstatus (Bool.eq_false_iff.mpr hpark)
          have hQ' : Queued (fun _ g => FieldsOk g)
              ({ s with tidRxseq := r.tidRxseq }.record (r.effects.map .effect)) :=
            hQ.congr fun l => by cases l <;> rfl
          exact (hr.recvFuncPosthandle hrun (hfields hstatus) hQ' hok').1
      | fail => exact hr.rtwFreeRecvframe
      | rxHandled => exact hr.rtwFreeRecvframe
  · rw [if_pos hver]
    exact h.rtwFreeRecvframe

theorem Owned.recvFunc (hrun : env.drv.running = true) {mgt : List StaQueueOp}
    (hQ : Queued (fun _ g => FieldsOk g) s) (hok : RecvOk env s mgt f)
    (h : Owned s (f :: hand)) : Owned (recvFunc env s mgt f) hand := by
  unfold Recv.recvFunc
  unfold RecvOk at hok
  dsimp only
  split_ifs at hok ⊢
  · have hsound := (fieldsOk_stages env).drainUcSwdec hrun (hQ .ucSwdec) hQ.sound
      fun _ _ => trivial
    exact (h.drainUcSwdec hrun hQ rfl hok.1).recvFuncNew hrun hsound.1 hok.2
  · exact h.recvFuncNew hrun hQ hok

end stages

/-! ## Runs -/

section runs

variable {s : RecvPriv}

/-- A frame of the pool takes a new buffer. -/
theorem Owned.arrive {a : ℕ} {q : List ℕ} {f : RecvFrame} (h : Owned s [])
    (hq : s.freeRecvQueue = a :: q) (haddr : f.addr = a) (hskb : f.skb = some s.arrived) :
    Owned { s with freeRecvQueue := q, freeRecvframeCnt := s.freeRecvframeCnt - 1
                   arrived := s.arrived + 1 } [f] := by
  set t : RecvPriv := { s with
    freeRecvQueue := q
    freeRecvframeCnt := s.freeRecvframeCnt - 1
    arrived := s.arrived + 1 } with ht
  have hpa : ([Loc.pool, .hand].flatMap (t.addrs [f])).Perm
      ([Loc.pool, .hand].flatMap (s.addrs [])) := by
    simp [RecvPriv.addrs, RecvPriv.held, ht, hq, haddr]
  have hoa : ∀ l, l ∉ [Loc.pool, .hand] → t.addrs [f] l = s.addrs [] l := by
    intro l hl
    cases l with
    | pool => simp at hl
    | hand => simp at hl
    | ucSwdec => rfl
    | defragQ i => rfl
    | reorder i tid => rfl
  have hput : t.skbs [f] = put (s.skbs []) .hand (some s.arrived) := by
    funext l
    cases l with
    | hand =>
      rw [put_self]
      simp [RecvPriv.skbs, RecvPriv.held, hskb]
    | pool =>
      have hne : Loc.pool ≠ Loc.hand := by simp
      rw [put_of_ne hne]
      rfl
    | ucSwdec =>
      have hne : Loc.ucSwdec ≠ Loc.hand := by simp
      rw [put_of_ne hne]
      rfl
    | defragQ i =>
      have hne : Loc.defragQ i ≠ Loc.hand := by simp
      rw [put_of_ne hne]
      rfl
    | reorder i tid =>
      have hne : Loc.reorder i tid ≠ Loc.hand := by simp
      rw [put_of_ne hne]
      rfl
  have hnew : ¬Placed (s.skbs []) (some s.arrived) := by
    rw [h.skbs_all]
    rintro ⟨n, hn, heq⟩
    exact absurd (Option.some.inj heq) (by omega)
  constructor
  · exact h.addrs.redistribute (by decide) hpa hoa
  · exact fun b => (placed_redistribute hpa hoa).trans (h.addrs_all b)
  · rw [hput]
    exact h.skbs.put hnew
  · intro x
    rw [hput, placed_put, h.skbs_all]
    constructor
    · rintro (rfl | ⟨n, hn, rfl⟩)
      · exact ⟨s.arrived, Nat.lt_succ_self _, rfl⟩
      · exact ⟨n, Nat.lt_succ_of_lt hn, rfl⟩
    · rintro ⟨n, hn, rfl⟩
      rcases Nat.lt_succ_iff_lt_or_eq.mp hn with hn | rfl
      · exact Or.inr ⟨n, hn, rfl⟩
      · exact Or.inl rfl
  · show s.freeRecvframeCnt - 1 = q.length
    rw [h.cnt, hq]
    rfl

/-- What holds between the calls. -/
def PoolInv (s : RecvPriv) : Prop := Owned s [] ∧ Queued (fun _ f => FieldsOk f) s

theorem rxStep_poolInv (s : RecvPriv) (op : RxOp) (hok : RxOk s op) (hi : PoolInv s) :
    PoolInv (rxStep s op) := by
  obtain ⟨h, hQ⟩ := hi
  cases op with
  | recv env mgt f =>
    have hsound : Sound (fun _ f => FieldsOk f) (fun _ => True) (fun _ => True)
        (recvbuf2recvframe env s mgt f) :=
      (fieldsOk_stages env).recvbuf2recvframe hQ.sound
        (fun addr skb => acceptedAs_fieldsOk env { f with addr := addr, skb := skb })
        fun _ _ => trivial
    refine ⟨?_, hsound.1⟩
    show Owned (recvbuf2recvframe env s mgt f) []
    unfold recvbuf2recvframe
    split_ifs with hrun
    · cases hq : s.freeRecvQueue with
      | nil => exact h
      | cons a q =>
        refine (h.arrive hq rfl rfl).recvFunc hrun ?_ (hok a q hq)
        exact hQ.congr fun l => by cases l <;> rfl
    · exact h
  | timeout drv psta tid =>
    have hsound : Sound (fun _ f => FieldsOk f) (fun _ => True) (fun _ => True)
        (rxStep s (.timeout drv psta tid)) :=
      Sound.timeout hQ.sound psta tid fun _ _ _ => trivial
    refine ⟨?_, hsound.1⟩
    have hsplit := rtwReorderingCtrlTimeoutHandler_split drv (s.recvreorderCtrl psta tid)
    apply Owned.handOnAll
    · intro e he
      obtain ⟨hrun, f, hf, rfl⟩ := rtwReorderingCtrlTimeoutHandler_events he
      exact indicateOne_keeps hrun (hQ (.reorder psta tid) f hf).1
    · apply h.setReorder
      rw [List.append_nil, hsplit, List.nil_append]
  | sta op => exact ⟨h.staQueueStep hok, hQ.staQueueStep op⟩

theorem poolInv_idle {n : ℕ} (hn : n = 256) :
    PoolInv { freeRecvQueue := List.range n, freeRecvframeCnt := n } := by
  set s : RecvPriv := { freeRecvQueue := List.range n, freeRecvframeCnt := n } with hs
  have hheld : ∀ l, s.held [] l = [] := by
    intro l
    cases l <;> rfl
  have haddr : ∀ l, s.addrs [] l = if l = .pool then List.range n else [] := by
    intro l
    unfold RecvPriv.addrs
    rw [hheld, List.map_nil, List.append_nil]
  have hmem : ∀ l a, a ∈ s.addrs [] l ↔ l = .pool ∧ a < n := by
    intro l a
    rw [haddr]
    by_cases hl : l = .pool
    · rw [if_pos hl, List.mem_range, and_iff_right hl]
    · simp [hl]
  have hskb : ∀ l, s.skbs [] l = [] := by
    intro l
    unfold RecvPriv.skbs
    rw [hheld]
    split_ifs <;> rfl
  refine ⟨⟨⟨fun l => ?_, ?_⟩, fun a => ?_, ⟨fun l => ?_, ?_⟩, fun x => ?_, ?_⟩, fun l f hf => ?_⟩
  · rw [haddr]
    split_ifs
    · exact List.nodup_range
    · exact List.nodup_nil
  · intro i j a hi hj
    rw [((hmem i a).mp hi).1, ((hmem j a).mp hj).1]
  · rw [← hn]
    constructor
    · rintro ⟨l, hl⟩
      exact ((hmem l a).mp hl).2
    · exact fun ha => ⟨.pool, (hmem .pool a).mpr ⟨rfl, ha⟩⟩
  · rw [hskb]
    exact List.nodup_nil
  · intro i j x hi
    rw [hskb] at hi
    exact absurd hi List.not_mem_nil
  · constructor
    · rintro ⟨l, hl⟩
      rw [hskb] at hl
      exact absurd hl List.not_mem_nil
    · rintro ⟨m, hm, -⟩
      exact absurd hm (Nat.not_lt_zero m)
  · exact List.length_range.symm
  · rw [hheld] at hf
    exact absurd hf List.not_mem_nil

theorem poolInv_init : PoolInv {} := poolInv_idle rfl

/-- Every frame of the pool is in exactly one place. Every received buffer is with a
    frame in exactly one queue, or was handed on or released, once. The counter is
    the length of the free queue. -/
structure Conserved (s : RecvPriv) : Prop where
  place : ∀ a < 256, ∃! l, a ∈ s.addrs [] l
  places : ∀ l, (s.addrs [] l).Nodup
  fate : ∀ n < s.arrived, ∃! l, some n ∈ s.skbs [] l
  once : ∀ l, (s.skbs [] l).Nodup
  cnt : s.freeRecvframeCnt = s.freeRecvQueue.length

theorem PoolInv.conserved (hi : PoolInv s) : Conserved s where
  place a ha := hi.1.addrs.existsUnique ((hi.1.addrs_all a).mpr ha)
  places := hi.1.addrs.nodup
  fate n hn := hi.1.skbs.existsUnique ((hi.1.skbs_all (some n)).mpr ⟨n, hn, rfl⟩)
  once := hi.1.skbs.nodup
  cnt := hi.1.cnt

/-- In every run whose steps meet the condition, no frame is lost or released twice. -/
theorem recvFrames_conserved (ops : List RxOp) (hok : Guarded rxStep RxOk {} ops) :
    Conserved (run rxStep {} ops) :=
  (invariant_run rxStep_poolInv hok poolInv_init).conserved

end runs

/-- A beacon with the given byte of the sequence control field. -/
def beaconFrame (seqCtrl : UInt8) : RecvFrame :=
  { addr := 0, skb := none, attrib := {}, len := 24
    mem := 0x80 :: List.replicate 21 0 ++ [seqCtrl, 0], rxData := 0, rxTail := 24
    data_le_tail := by decide, tail_le_end := by simp }

/-- The receive path of an interface without stations. -/
def idleEnv : RecvEnv := { priv := {} }

theorem recvFrames_conserved_beacon :
    Conserved (run rxStep {} [.recv idleEnv [] (beaconFrame 0)]) :=
  recvFrames_conserved [.recv idleEnv [] (beaconFrame 0)] ⟨by
    intro a q _
    unfold RecvOk
    rw [if_neg (by decide)]
    intro _
    have hfc : (beaconFrame 0).le16At 0 &&& 0x0C = 0 := rfl
    have hfrag : (parseHeader (beaconFrame 0)).fragNum = 0 := rfl
    have hpriv : (parseHeader (beaconFrame 0)).privacy = false := rfl
    refine (newOk_mgt (getFrameType_of_zero ?_)).mpr fun _ => ?_
    · exact hfc
    exact ⟨hfrag, fun hp => absurd (hpriv.symm.trans hp) Bool.false_ne_true, trivial⟩, trivial⟩

/-- The last fragment of a management frame is released by `recvframe_defrag` and by
    `recv_func_prehandle`. -/
theorem lastMgntFragment_released_twice :
    ¬ ∀ ops : List RxOp, Conserved (run rxStep {} ops) := by
  intro h
  have hcnt := (h [.recv idleEnv [] (beaconFrame 1)]).cnt
  revert hcnt
  decide +kernel

end Rtl8821au.Recv
