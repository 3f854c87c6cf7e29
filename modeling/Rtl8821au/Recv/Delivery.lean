import Mathlib.Data.List.Chain
import Rtl8821au.Recv.Reorder

/-!
# Delivery from the reorder queue

The frames that `recv_indicatepkts_in_order` hands to `rtw_recv_indicatepkt`, over
runs of QoS data frames that take part in reordering (not an A-MSDU, not ARP,
ack policy 0).

Results:
* `historyStep_inv`: what one arrival or expiry does to the deliveries.
* `delivery_in_order`: each delivered sequence number is `1 … 2048` ahead of the
  previous one; what was accepted is what was delivered and what is pending.
* `delivery_half_circle`: the distance 2048 occurs.
-/

namespace Rtl8821au.Recv

open SerialNum Run
open scoped List

/-! ## Histories -/

/-- `check_indicate_seq` and `enqueue_reorder_recvframe` both take the frame. -/
def accepts (c : RecvReorderCtrl) (f : RecvFrame) : Bool :=
  (checkIndicateSeq c f.attrib.seqNum).1 &&
    (enqueueReorderRecvframe (checkIndicateSeq c f.attrib.seqNum).2 f).isSome

/-- The frames handed to `rtw_recv_indicatepkt`, in order. -/
def indicated (events : List RecvEvent) : List RecvFrame :=
  events.filterMap fun
    | .indicate f => some f
    | _ => none

/-- The reorder queue with the frames it accepted and delivered so far. -/
structure History where
  ctrl : RecvReorderCtrl := preorderInit
  accepted : List RecvFrame := []
  delivered : List RecvFrame := []

/-- One step of the reorder queue and what it adds to the history. -/
def historyStep (drv : DriverState) (h : History) : ReorderOp → History
  | .arrive f =>
    let r := recvIndicatepktReorder drv h.ctrl f
    { ctrl := r.ctrl, delivered := h.delivered ++ indicated r.events
      accepted := if accepts h.ctrl r.frame then h.accepted ++ [r.frame] else h.accepted }
  | .timeout =>
    let r := rtwReorderingCtrlTimeoutHandler drv h.ctrl
    { h with ctrl := r.1, delivered := h.delivered ++ indicated r.2 }

/-- A QoS data frame that the bypass does not take. -/
def ReorderOp.Plain : ReorderOp → Prop
  | .arrive f => f.attrib.seqNum < 4096 ∧ f.attrib.amsdu = 0 ∧ f.attrib.qos = 1 ∧
      f.attrib.ackPolicy = 0 ∧ parsedEthType f ≠ ethPArp
  | .timeout => True

/-- `g` may be delivered after `f`. -/
def Follows (f g : RecvFrame) : Prop :=
  1 ≤ fwd 4096 f.attrib.seqNum g.attrib.seqNum ∧ fwd 4096 f.attrib.seqNum g.attrib.seqNum ≤ 2048

/-! ## The last delivery and the window -/

/-- The window start lies behind the last delivery `L`, and the next frame to
    deliver at most half the circle behind it. -/
def Reach (L : RecvFrame) (start : ℕ) : List RecvFrame → Prop
  | [] => fwd 4096 L.attrib.seqNum start = 1
  | f :: _ => 1 ≤ fwd 4096 L.attrib.seqNum start ∧
      fwd 4096 L.attrib.seqNum start + dist start f ≤ 2048

section Moved

variable {w a k : ℕ} {q done rest : List RecvFrame} {L : RecvFrame}

/-- The frames that are handed on together follow each other. -/
theorem sortedFrom_chain (hs : SortedFrom a q) (hq : ∀ g ∈ q, dist a g ≤ 2047) :
    q.IsChain Follows := by
  refine List.Pairwise.isChain ((List.pairwise_map.mp hs).imp_of_mem ?_)
  intro f g hf hg hlt
  have h1 := hq g hg
  have h2 : fwd 4096 f.attrib.seqNum g.attrib.seqNum = dist a g - dist a f :=
    fwd_rebase circle_pos hlt.le
  change dist a f < dist a g at hlt
  exact ⟨by omega, by omega⟩

theorem Reach.follows {g : RecvFrame} (h : Reach L a (g :: q)) : Follows L g := by
  obtain ⟨h1, h2⟩ := h
  have : fwd 4096 L.attrib.seqNum g.attrib.seqNum = fwd 4096 L.attrib.seqNum a + dist a g :=
    fwd_trans (by unfold dist at h2; omega)
  unfold Follows
  omega

/-- After a delivery the start is behind the last frame delivered. -/
theorem Moved.reach_last (h : Moved w a k q (done ++ [L]) rest) (hs : SortedFrom a q)
    (hq : ∀ g ∈ q, dist a g ≤ 2047) : Reach L ((a + k) % 4096) rest := by
  have hk := h.le
  have hL := h.behind L (by simp)
  have hstart : fwd 4096 a ((a + k) % 4096) = k := fwd_add_mod (by omega) a
  have hgap : fwd 4096 L.attrib.seqNum ((a + k) % 4096) = k - dist a L := by
    have := fwd_rebase circle_pos (a := a) (b := L.attrib.seqNum) (c := (a + k) % 4096)
      (by rw [hstart]; exact hL.le)
    rw [this, hstart, dist]
  cases hrest : rest with
  | nil =>
    obtain ⟨g, hg, hgk⟩ := h.reached hrest
    have hle : dist a g ≤ dist a L := by
      rw [h.split, hrest, List.append_nil, SortedFrom, List.map_append] at hs
      rcases List.mem_append.mp hg with hg | hg
      · exact ((List.pairwise_append.mp hs).2.2 _ (List.mem_map_of_mem hg) _
          (List.mem_map_of_mem List.mem_cons_self)).le
      · rw [List.mem_singleton.mp hg]
    rw [Reach, hgap]
    omega
  | cons r rest' =>
    have hr := (h.ahead r (by simp [hrest])).1
    have hr' := hq r (by rw [h.split, hrest]; simp)
    have hd : dist ((a + k) % 4096) r = dist a r - k := fwd_advance circle_pos hr.le
    rw [Reach, hgap, hd]
    omega

/-- Without a delivery the head stays within reach. -/
theorem Moved.reach_same (h : Moved w a k q [] rest) (hL : Reach L a q) :
    Reach L ((a + k) % 4096) rest := by
  obtain rfl : q = rest := h.split
  cases hq : q with
  | nil =>
    obtain ⟨g, hg, -⟩ := h.reached hq
    exact absurd hg List.not_mem_nil
  | cons r q' =>
    rw [hq] at hL
    have hr := (h.ahead r (by simp [hq])).1
    obtain ⟨h1, h2⟩ := hL
    have hk := h.le
    have hstart : fwd 4096 a ((a + k) % 4096) = k := fwd_add_mod (by omega) a
    have hd : dist ((a + k) % 4096) r = dist a r - k := fwd_advance circle_pos hr.le
    have hgap : fwd 4096 L.attrib.seqNum ((a + k) % 4096) = fwd 4096 L.attrib.seqNum a + k := by
      rw [fwd_trans (b := a) (by rw [hstart]; omega), hstart]
    rw [Reach, hgap, hd]
    omega

/-- An insertion keeps the head within reach. -/
theorem Reach.insert {p : List RecvFrame} {f : RecvFrame} (h : Reach L a p)
    (hperm : q.Perm (f :: p)) (hs : SortedFrom a q) (hf : dist a f ≤ 2047) : Reach L a q := by
  cases hq : q with
  | nil => simp [hq] at hperm
  | cons g q' =>
    rw [hq, sortedFrom_cons] at hs
    have hle : ∀ x ∈ f :: p, dist a g ≤ dist a x := by
      intro x hx
      rw [← hperm.mem_iff, hq] at hx
      rcases List.mem_cons.mp hx with rfl | hx
      · exact le_refl _
      · exact (hs.1 x hx).le
    have hgf := hle f List.mem_cons_self
    cases p with
    | nil =>
      rw [Reach] at h
      rw [Reach, h]
      omega
    | cons x p' =>
      have hgx := hle x (by simp)
      obtain ⟨h1, h2⟩ := h
      exact ⟨h1, by omega⟩

end Moved

/-! ## The invariant -/

/-- What a history keeps: what was accepted is either delivered or pending, the
    deliveries follow each other, and the next one will. -/
structure DeliveryInv (h : History) : Prop where
  window : WindowInv 64 h.ctrl
  plain : ∀ f ∈ h.ctrl.pending, f.attrib.amsdu = 0
  perm : h.accepted.Perm (h.delivered ++ h.ctrl.pending)
  chain : h.delivered.IsChain Follows
  last : ∀ L ∈ h.delivered.getLast?,
    h.ctrl.indicateSeq ≠ 0xFFFF ∧ Reach L h.ctrl.indicateSeq h.ctrl.pending

/-- A move of the window extends the chain of deliveries. -/
theorem chain_of_moved {w a k : ℕ} {delivered q done rest : List RecvFrame}
    (hchain : delivered.IsChain Follows) (hlast : ∀ L ∈ delivered.getLast?, Reach L a q)
    (hs : SortedFrom a q) (hq : ∀ g ∈ q, dist a g ≤ 2047) (hm : Moved w a k q done rest) :
    (delivered ++ done).IsChain Follows ∧
      ∀ L ∈ (delivered ++ done).getLast?, Reach L ((a + k) % 4096) rest := by
  constructor
  · refine hchain.append ?_ ?_
    · have := sortedFrom_chain hs hq
      rw [hm.split] at this
      exact this.left_of_append
    · intro L hL g hg
      have hr := hlast L hL
      have hhead : q.head? = some g := by
        rw [hm.split, List.head?_append, hg, Option.some_or]
      obtain ⟨q', rfl⟩ := List.head?_eq_some_iff.mp hhead
      exact hr.follows
  · intro L hL
    rcases List.eq_nil_or_concat done with rfl | ⟨done', g, rfl⟩
    · rw [List.append_nil] at hL
      exact hm.reach_same (hlast L hL)
    · have hLg : L = g := by simpa using hL.symm
      subst hLg
      rw [List.concat_eq_append] at hm
      exact hm.reach_last hs hq

/-- One call on the reorder queue: what it hands on continues the deliveries. -/
theorem reorderEnqueue_chain (drv : DriverState) {c : RecvReorderCtrl} {f : RecvFrame}
    {delivered : List RecvFrame} (hW : Window c) (hw : 1 ≤ c.wsizeB) (hw' : c.wsizeB ≤ 256)
    (hf : f.attrib.seqNum < 4096) (hchain : delivered.IsChain Follows)
    (hlast : ∀ L ∈ delivered.getLast?, c.indicateSeq ≠ 0xFFFF ∧ Reach L c.indicateSeq c.pending) :
    let r := reorderEnqueue drv c f
    Refused c r ∨ ∃ done rest, r.status = .success ∧ r.events = done.map (indicateOne drv) ∧
      r.ctrl.pending = rest ∧ (f :: c.pending).Perm (done ++ rest) ∧
      (delivered ++ done).IsChain Follows ∧
      ∀ L ∈ (delivered ++ done).getLast?,
        r.ctrl.indicateSeq ≠ 0xFFFF ∧ Reach L r.ctrl.indicateSeq r.ctrl.pending := by
  intro r
  rcases reorderEnqueue_cases drv hW hw hw' hf with hr | ⟨hd, q, k, done, rest, hperm, hs, hm, hr⟩
  · exact Or.inl hr
  right
  obtain ⟨-, hin⟩ := hW.from_base f.attrib.seqNum
  have hmax : ∀ g ∈ q, dist (c.base f.attrib.seqNum) g ≤ 2047 := by
    intro g hg
    rcases List.mem_cons.mp (hperm.mem_iff.mp hg) with rfl | hg
    · exact hd
    · have := hin g hg
      omega
  have hreach : ∀ L ∈ delivered.getLast?, Reach L (c.base f.attrib.seqNum) q := by
    intro L hL
    obtain ⟨hind, hr⟩ := hlast L hL
    have hbase : c.base f.attrib.seqNum = c.indicateSeq := if_neg hind
    rw [hbase] at hs hd ⊢
    exact hr.insert hperm hs hd
  have hc := chain_of_moved hchain hreach hs hmax hm
  refine ⟨done, rest, hr.1, hr.2.2, ?_, ?_, hc.1, ?_⟩
  · show r.ctrl.pending = rest
    rw [hr.2.1]
  · rw [← hm.split]
    exact hperm.symm
  · show ∀ L ∈ (delivered ++ done).getLast?,
      r.ctrl.indicateSeq ≠ 0xFFFF ∧ Reach L r.ctrl.indicateSeq r.ctrl.pending
    rw [hr.2.1]
    intro L hL
    refine ⟨?_, hc.2 L hL⟩
    have := Nat.mod_lt (c.base f.attrib.seqNum + k) circle_pos
    dsimp only
    omega

/-- One expiry: what it hands on continues the deliveries. -/
theorem timeout_chain {drv : DriverState} {c : RecvReorderCtrl} {delivered : List RecvFrame}
    (hrun : drv.running = true) (hW : Window c) (hw : c.wsizeB ≤ 256)
    (hchain : delivered.IsChain Follows)
    (hlast : ∀ L ∈ delivered.getLast?, c.indicateSeq ≠ 0xFFFF ∧ Reach L c.indicateSeq c.pending) :
    let r := rtwReorderingCtrlTimeoutHandler drv c
    ∃ done rest, r.2 = done.map (indicateOne drv) ∧ r.1.pending = rest ∧ c.pending = done ++ rest ∧
      (delivered ++ done).IsChain Follows ∧
      ∀ L ∈ (delivered ++ done).getLast?,
        r.1.indicateSeq ≠ 0xFFFF ∧ Reach L r.1.indicateSeq r.1.pending := by
  intro r
  have hmax : ∀ g ∈ c.pending, dist c.indicateSeq g ≤ 2047 := fun g hg => by
    have := hW.inside g hg
    omega
  have hr : r = rtwReorderingCtrlTimeoutHandler drv c := rfl
  rcases timeout_cases hrun hW hw with ⟨hq, ht⟩ | ⟨k, done, rest, -, hm, ht⟩
  · refine ⟨[], [], ?_, ?_, hq, ?_, ?_⟩
    · show r.2 = _
      rw [hr, ht]
      rfl
    · show r.1.pending = _
      rw [hr, ht]
      exact hq
    · rwa [List.append_nil]
    · show ∀ L ∈ (delivered ++ []).getLast?,
        r.1.indicateSeq ≠ 0xFFFF ∧ Reach L r.1.indicateSeq r.1.pending
      rw [hr, ht, List.append_nil]
      exact hlast
  · have hc := chain_of_moved hchain (fun L hL => (hlast L hL).2) hW.sorted hmax hm
    refine ⟨done, rest, ?_, ?_, hm.split, hc.1, ?_⟩
    · show r.2 = _
      rw [hr, ht]
    · show r.1.pending = _
      rw [hr, ht]
    · show ∀ L ∈ (delivered ++ done).getLast?,
        r.1.indicateSeq ≠ 0xFFFF ∧ Reach L r.1.indicateSeq r.1.pending
      rw [hr, ht]
      intro L hL
      refine ⟨?_, hc.2 L hL⟩
      have := Nat.mod_lt (c.indicateSeq + k) circle_pos
      dsimp only
      omega

/-- Nothing but `rtw_recv_indicatepkt` happens to plain frames. -/
theorem indicated_map {drv : DriverState} (hrun : drv.running = true) {done : List RecvFrame}
    (h : ∀ f ∈ done, f.attrib.amsdu = 0) : indicated (done.map (indicateOne drv)) = done := by
  induction done with
  | nil => rfl
  | cons f done ih =>
    have hf : indicateOne drv f = .indicate f := by
      rw [indicateOne, if_pos (h f List.mem_cons_self), if_pos hrun]
    have ih := ih fun g hg => h g (List.mem_cons_of_mem f hg)
    rw [List.map_cons, hf]
    change f :: indicated (done.map (indicateOne drv)) = f :: done
    rw [ih]

theorem accepts_iff (drv : DriverState) (c : RecvReorderCtrl) (f : RecvFrame) :
    accepts c f = true ↔ (reorderEnqueue drv c f).status = .success := by
  unfold accepts reorderEnqueue
  rcases checkIndicateSeq c f.attrib.seqNum with ⟨_ | _, ctrl⟩
  · simp
  · dsimp only
    cases enqueueReorderRecvframe ctrl f <;> simp

/-- A plain frame goes through the reorder queue. -/
theorem plain_enqueue (drv : DriverState) {c : RecvReorderCtrl} {f : RecvFrame}
    (hen : c.enable = true) (hf : (ReorderOp.arrive f).Plain) :
    recvIndicatepktReorder drv c f = reorderEnqueue drv c (wlanhdrToEthhdr f) := by
  obtain ⟨-, h1, h2, h3, h4⟩ := hf
  have hbypass : reorderBypass (wlanhdrToEthhdr f).attrib = false := by
    simp [reorderBypass, h2, h3, h4]
  simp only [recvIndicatepktReorder, h1, hbypass, hen, if_true, Bool.not_true,
    Bool.false_eq_true, if_false]

theorem ReorderOp.Plain.seqOk {op : ReorderOp} (h : op.Plain) : op.SeqOk := by
  cases op with
  | arrive f => exact h.1
  | timeout => trivial

theorem historyStep_inv {drv : DriverState} (hrun : drv.running = true) (h : History)
    (op : ReorderOp) (hop : op.Plain) (hi : DeliveryInv h) : DeliveryInv (historyStep drv h op) := by
  obtain ⟨hen, hw, hW⟩ := hi.window
  have hstep := reorderStep_windowInv hrun (by decide) (by decide) h.ctrl op hop.seqOk hi.window
  cases op with
  | arrive f =>
    have hf : (wlanhdrToEthhdr f).attrib.seqNum < 4096 := by
      rw [wlanhdrToEthhdr_attrib]
      exact hop.1
    have hplain : (wlanhdrToEthhdr f).attrib.amsdu = 0 := by
      rw [wlanhdrToEthhdr_attrib]
      exact hop.2.1
    have haccepts := accepts_iff drv h.ctrl (wlanhdrToEthhdr f)
    have henq := plain_enqueue drv hen hop
    have hframe := reorderEnqueue_frame drv h.ctrl (wlanhdrToEthhdr f)
    rcases reorderEnqueue_chain drv hW (by omega) (by omega) hf hi.chain hi.last with
      ⟨hst, hctrl, hev⟩ | ⟨done, rest, hst, hev, hrest, hperm, hchain, hlast⟩
    · have hno : accepts h.ctrl (wlanhdrToEthhdr f) = false := by
        rw [Bool.eq_false_iff, Ne, haccepts, hst]
        decide
      refine ⟨hstep, ?_, ?_, ?_, ?_⟩ <;>
        simp only [historyStep, henq, hctrl, hev, hframe, hno, indicated, List.filterMap_nil,
          List.append_nil, Bool.false_eq_true, if_false]
      · exact hi.plain
      · exact hi.perm
      · exact hi.chain
      · exact hi.last
    · rw [hst, eq_self_iff_true, iff_true] at haccepts
      have hamsdu : ∀ g ∈ done ++ rest, g.attrib.amsdu = 0 := by
        intro g hg
        rcases List.mem_cons.mp (hperm.mem_iff.mpr hg) with rfl | hg
        · exact hplain
        · exact hi.plain g hg
      have hdone : indicated (done.map (indicateOne drv)) = done :=
        indicated_map hrun fun g hg => hamsdu g (List.mem_append_left rest hg)
      refine ⟨hstep, ?_, ?_, ?_, ?_⟩ <;>
        simp only [historyStep, henq, hev, hframe, haccepts, hdone, if_true]
      · rw [hrest]
        exact fun g hg => hamsdu g (List.mem_append_right done hg)
      · -- the accepted frame joins `pending`, of which `done` goes to `delivered`
        rw [hrest]
        calc h.accepted ++ [wlanhdrToEthhdr f]
            ~ (h.delivered ++ h.ctrl.pending) ++ [wlanhdrToEthhdr f] := hi.perm.append_right _
          _ ~ h.delivered ++ (wlanhdrToEthhdr f :: h.ctrl.pending) := by
            rw [List.append_assoc]
            exact (List.perm_append_singleton _ _).append_left _
          _ ~ h.delivered ++ (done ++ rest) := hperm.append_left _
          _ ~ (h.delivered ++ done) ++ rest := by rw [List.append_assoc]
      · exact hchain
      · exact hlast
  | timeout =>
    obtain ⟨done, rest, hev, hrest, hsplit, hchain, hlast⟩ :=
      timeout_chain hrun hW (by omega) hi.chain hi.last
    have hdone : indicated (done.map (indicateOne drv)) = done := by
      refine indicated_map hrun fun f hf => hi.plain f ?_
      rw [hsplit]
      exact List.mem_append_left rest hf
    refine ⟨hstep, ?_, ?_, ?_, ?_⟩ <;> simp only [historyStep, hev, hdone]
    · rw [hrest]
      intro f hf
      refine hi.plain f ?_
      rw [hsplit]
      exact List.mem_append_right done hf
    · rw [hrest, List.append_assoc, ← hsplit]
      exact hi.perm
    · exact hchain
    · exact hlast

/-! ## Runs -/

theorem deliveryInv_init : DeliveryInv {} where
  window := windowInv_init
  plain := fun _ hf => absurd hf List.not_mem_nil
  perm := List.Perm.refl _
  chain := List.isChain_nil
  last := fun L hL => by simp at hL

theorem run_deliveryInv {drv : DriverState} (hrun : drv.running = true) {ops : List ReorderOp}
    (hops : ∀ op ∈ ops, op.Plain) : DeliveryInv (run (historyStep drv) {} ops) :=
  invariant_run (historyStep_inv hrun) (guarded_of_forall _ hops) deliveryInv_init

/-- The frames that arrive in a run. -/
def arrivals (ops : List ReorderOp) : List RecvFrame :=
  ops.filterMap fun
    | .arrive f => some f
    | .timeout => none

/-- What was accepted stays accepted. -/
theorem accepted_prefix (drv : DriverState) (h : History) (ops : List ReorderOp) :
    h.accepted <+: (run (historyStep drv) h ops).accepted := by
  induction ops generalizing h with
  | nil => exact List.prefix_refl _
  | cons op ops ih =>
    refine List.IsPrefix.trans ?_ (ih (historyStep drv h op))
    cases op with
    | arrive f =>
      dsimp only [historyStep]
      split_ifs
      · exact List.prefix_append _ _
      · exact List.prefix_refl _
    | timeout => exact List.prefix_refl _

/-- `recv_indicatepkt_reorder` leaves the buffer with its frame. -/
theorem recvIndicatepktReorder_skb (drv : DriverState) (c : RecvReorderCtrl) (f : RecvFrame) :
    (recvIndicatepktReorder drv c f).frame.skb = f.skb := by
  unfold recvIndicatepktReorder
  dsimp only
  split_ifs <;> simp [reorderEnqueue_frame]

/-- Only what arrived is accepted, and in that order. -/
theorem accepted_sublist (drv : DriverState) (h : History) (ops : List ReorderOp) :
    ((run (historyStep drv) h ops).accepted.map (·.skb)).Sublist
      (h.accepted.map (·.skb) ++ (arrivals ops).map (·.skb)) := by
  induction ops generalizing h with
  | nil => simp [arrivals]
  | cons op ops ih =>
    refine (ih (historyStep drv h op)).trans ?_
    cases op with
    | arrive f =>
      have ha : arrivals (.arrive f :: ops) = f :: arrivals ops := rfl
      rw [ha, List.map_cons]
      dsimp only [historyStep]
      split_ifs
      · simp [recvIndicatepktReorder_skb]
      · exact (List.sublist_cons_self _ _).append_left _
    | timeout => exact List.Sublist.refl _

/-- Over every run of plain arrivals and expiries, `SN_LESS` holds from each
    delivery to the next, what was ever accepted is delivered or pending, once,
    and frames in distinct buffers are delivered at most once. -/
theorem delivery_in_order (drv : DriverState) (hrun : drv.running = true) (ops : List ReorderOp)
    (hops : ∀ op ∈ ops, op.Plain) :
    let h := run (historyStep drv) {} ops
    (h.delivered.IsChain fun f g => 1 ≤ fwd 4096 f.attrib.seqNum g.attrib.seqNum ∧
      fwd 4096 f.attrib.seqNum g.attrib.seqNum ≤ 2048) ∧
    h.accepted.Perm (h.delivered ++ h.ctrl.pending) ∧
    (∀ n, (run (historyStep drv) {} (ops.take n)).accepted <+: h.accepted) ∧
    (((arrivals ops).map (·.skb)).Nodup →
      ((h.delivered ++ h.ctrl.pending).map (·.skb)).Nodup) := by
  intro h
  have hi : DeliveryInv h := run_deliveryInv hrun hops
  refine ⟨hi.chain, hi.perm, ?_, ?_⟩
  · intro n
    have := accepted_prefix drv (run (historyStep drv) {} (ops.take n)) (ops.drop n)
    rwa [← run_append, List.take_append_drop] at this
  · intro hnodup
    have hsub := accepted_sublist drv {} ops
    exact (hi.perm.map _).nodup_iff.mp (hsub.nodup hnodup)

theorem delivery_in_order_timeout :
    let h := run (historyStep {}) {} [.arrive (qosFrame 0 0), .arrive (qosFrame 1 7), .timeout]
    h.accepted.Perm (h.delivered ++ h.ctrl.pending) :=
  (delivery_in_order {} rfl [.arrive (qosFrame 0 0), .arrive (qosFrame 1 7), .timeout] (by
    intro op hop
    simp only [List.mem_cons, List.not_mem_nil, or_false] at hop
    rcases hop with rfl | rfl | rfl
    · exact ⟨by decide, rfl, rfl, rfl, by decide⟩
    · exact ⟨by decide, rfl, rfl, rfl, by decide⟩
    · trivial)).2.1

/-- A frame 2048 ahead of the last delivery is accepted, moves the window and is
    delivered when the timer expires. -/
theorem delivery_half_circle :
    ¬ ∀ ops : List ReorderOp, (∀ op ∈ ops, op.Plain) →
      (run (historyStep {}) {} ops).delivered.IsChain fun f g =>
        1 ≤ fwd 4096 f.attrib.seqNum g.attrib.seqNum ∧
          fwd 4096 f.attrib.seqNum g.attrib.seqNum ≤ 2047 := by
  intro h
  specialize h [.arrive (qosFrame 0 0), .arrive (qosFrame 1 2048), .timeout] (by
    intro op hop
    simp only [List.mem_cons, List.not_mem_nil, or_false] at hop
    rcases hop with rfl | rfl | rfl
    · exact ⟨by decide, rfl, rfl, rfl, by decide⟩
    · exact ⟨by decide, rfl, rfl, rfl, by decide⟩
    · trivial)
  revert h
  decide

end Rtl8821au.Recv
