import Rtl8821au.Lib.SerialNum
import Rtl8821au.Lib.Run
import Rtl8821au.Recv.Frame

/-!
# The receive reorder window

`recv_indicatepkt_reorder` (`rtw_recv.c`) buffers the frames of one traffic
identifier until the frames before them arrived or a timer expires. The window
is `indicate_seq … indicate_seq + wsize_b - 1` modulo 4096; it moves on a match,
when a frame beyond its end arrives, and when the timer forces the head out.

Results:
* `snLess_iff`: `SN_LESS` says that the forward distance is `1 … 2048`.
* `checkIndicateSeq_eq`: what a sequence number does to the window, in forward
  distances from its start.
* `indicateLoop_spec`: the indication loop splits the queue at the window start.
* `reorder_window`: in every run of arrivals and expiries the queue is sorted,
  free of duplicates and inside the window, and a refused frame leaves it alone.
-/

namespace Rtl8821au.Recv

open SerialNum Run

/-! ## Sequence numbers -/

/-- `SN_LESS(a, b)` (`rtw_recv.h`, line 199); the operands are promoted to
    `int`. -/
def snLess (a b : ℕ) : Bool := (BitVec.ofNat 32 a - BitVec.ofNat 32 b) &&& 0x800#32 != 0#32

/-- `SN_EQUAL(a, b)` (line 200). -/
def snEqual (a b : ℕ) : Bool := a == b

theorem and_0xFFF (x : ℕ) : x &&& 0xFFF = x % 4096 := Nat.and_two_pow_sub_one_eq_mod x 12

theorem and_0x800_ne_zero (x : BitVec 32) :
    (x &&& 0x800#32 != 0#32) = decide (2048 ≤ x.toNat % 4096) := by
  have h1 : 0x800#32 = BitVec.twoPow 32 11 := by decide
  have h2 : x.getLsbD 11 = decide (2048 ≤ x.toNat % 4096) := by
    rw [BitVec.getLsbD, Nat.testBit_eq_decide_div_mod_eq]
    congr 1
    rw [eq_iff_iff]
    omega
  rw [h1, BitVec.and_twoPow, ← h2]
  cases x.getLsbD 11 <;> decide

/-- `SN_LESS(a, b)` holds when `b` is at most half the circle ahead of `a`. -/
theorem snLess_iff (a b : ℕ) : snLess a b = true ↔ 1 ≤ fwd 4096 a b ∧ fwd 4096 a b ≤ 2048 := by
  rw [snLess, and_0x800_ne_zero, decide_eq_true_iff, BitVec.toNat_sub, BitVec.toNat_ofNat,
    BitVec.toNat_ofNat, fwd]
  omega

/-! ## Model of the C code -/

/-- `rtlpriv->bDriverStopped` and `rtlpriv->bSurpriseRemoved`. -/
structure DriverState where
  bDriverStopped : Bool := false
  bSurpriseRemoved : Bool := false
  deriving DecidableEq, Repr

def DriverState.running (d : DriverState) : Bool := !d.bDriverStopped && !d.bSurpriseRemoved

/-- `struct recv_reorder_ctrl` (`rtw_recv.h`, lines 75–84): `pending` is
    `pending_recvframe_queue`, `timer` tells whether `reordering_ctrl_timer` is
    pending. `wend_b` is never read. -/
structure RecvReorderCtrl where
  enable : Bool := true
  indicateSeq : ℕ := 0xFFFF
  wsizeB : ℕ := 64
  pending : List RecvFrame := []
  timer : Bool := false
  deriving DecidableEq, Repr

/-- What happens to a frame that leaves the reorder queue or bypasses it. -/
inductive RecvEvent where
  /-- `rtw_recv_indicatepkt`: the `sk_buff` goes to the OS, the frame to the
      free queue. -/
  | indicate (f : RecvFrame)
  /-- `amsdu_to_msdu`: the subframes go to the OS, the frame to the free queue. -/
  | deaggregate (f : RecvFrame)
  /-- The frame was unlinked and is not referenced any more. -/
  | forget (f : RecvFrame)
  deriving DecidableEq, Repr

/-- `check_indicate_seq` (`rtw_recv.c`, lines 1958–2012). Below the mask,
    `- 1` is `+ 0xFFF`. -/
def checkIndicateSeq (preorderCtrl : RecvReorderCtrl) (seqNum : ℕ) : Bool × RecvReorderCtrl :=
  let wsize := preorderCtrl.wsizeB
  let wend := (preorderCtrl.indicateSeq + wsize + 0xFFF) &&& 0xFFF
  let indicateSeq := if preorderCtrl.indicateSeq = 0xFFFF then seqNum else preorderCtrl.indicateSeq
  if snLess seqNum indicateSeq then (false, { preorderCtrl with indicateSeq := indicateSeq })
  else if snEqual seqNum indicateSeq then
    (true, { preorderCtrl with indicateSeq := (indicateSeq + 1) &&& 0xFFF })
  else if snLess wend seqNum then
    if wsize ≤ seqNum + 1 then (true, { preorderCtrl with indicateSeq := seqNum + 1 - wsize })
    else (true, { preorderCtrl with indicateSeq := 0xFFF - (wsize - (seqNum + 1)) + 1 })
  else (true, { preorderCtrl with indicateSeq := indicateSeq })

/-- The walk of `enqueue_reorder_recvframe` (lines 2033–2070) over the queue:
    `none` at a duplicate. -/
def insertReorder (f : RecvFrame) : List RecvFrame → Option (List RecvFrame)
  | [] => some [f]
  | g :: q =>
    if snLess g.attrib.seqNum f.attrib.seqNum then (insertReorder f q).map (g :: ·)
    else if snEqual g.attrib.seqNum f.attrib.seqNum then none
    else some (f :: g :: q)

/-- `enqueue_reorder_recvframe` (lines 2015–2079). -/
def enqueueReorderRecvframe (preorderCtrl : RecvReorderCtrl) (f : RecvFrame) :
    Option RecvReorderCtrl :=
  (insertReorder f preorderCtrl.pending).map fun q => { preorderCtrl with pending := q }

/-- How `recv_indicatepkts_in_order` disposes of a frame it unlinked (lines
    2152–2167). -/
def indicateOne (drv : DriverState) (f : RecvFrame) : RecvEvent :=
  if f.attrib.amsdu = 0 then if drv.running then .indicate f else .forget f
  else if f.attrib.amsdu = 1 then .deaggregate f
  else .forget f

/-- The loop of `recv_indicatepkts_in_order` (lines 2124–2180) from `indicate_seq`
    and the queue: the new `indicate_seq`, the queue, what was unlinked, and
    `bPktInBuf`. -/
def indicateLoop (drv : DriverState) :
    ℕ → List RecvFrame → ℕ × List RecvFrame × List RecvEvent × Bool
  | indicateSeq, [] => (indicateSeq, [], [], false)
  | indicateSeq, f :: q =>
    if !snLess indicateSeq f.attrib.seqNum then
      let next := if snEqual indicateSeq f.attrib.seqNum then (indicateSeq + 1) &&& 0xFFF
        else indicateSeq
      let (indicateSeq, rest, events, bPktInBuf) := indicateLoop drv next q
      (indicateSeq, rest, indicateOne drv f :: events, bPktInBuf)
    else (indicateSeq, f :: q, [], true)

/-- `recv_indicatepkts_in_order` (lines 2082–2207). -/
def recvIndicatepktsInOrder (drv : DriverState) (preorderCtrl : RecvReorderCtrl) (bforced : Bool) :
    RecvReorderCtrl × List RecvEvent × Bool :=
  match bforced, preorderCtrl.pending with
  | true, [] => (preorderCtrl, [], true)
  | true, f :: q =>
    let (indicateSeq, rest, events, bPktInBuf) := indicateLoop drv f.attrib.seqNum (f :: q)
    ({ preorderCtrl with indicateSeq := indicateSeq, pending := rest }, events, bPktInBuf)
  | false, q =>
    let (indicateSeq, rest, events, bPktInBuf) := indicateLoop drv preorderCtrl.indicateSeq q
    ({ preorderCtrl with indicateSeq := indicateSeq, pending := rest }, events, bPktInBuf)

/-- What `recv_indicatepkt_reorder` returns and leaves behind; `frame` is its
    argument as it left it. -/
structure ReorderResult where
  status : Status
  ctrl : RecvReorderCtrl
  frame : RecvFrame
  events : List RecvEvent

/-- Steps s2 to s4 of `recv_indicatepkt_reorder` (lines 2270–2333). -/
def reorderEnqueue (drv : DriverState) (preorderCtrl : RecvReorderCtrl) (f : RecvFrame) :
    ReorderResult :=
  match checkIndicateSeq preorderCtrl f.attrib.seqNum with
  | (false, ctrl) => { status := .fail, ctrl := ctrl, frame := f, events := [] }
  | (true, ctrl) =>
    match enqueueReorderRecvframe ctrl f with
    | none => { status := .fail, ctrl := ctrl, frame := f, events := [] }
    | some ctrl =>
      let (ctrl, events, bPktInBuf) := recvIndicatepktsInOrder drv ctrl false
      { status := .success, ctrl := { ctrl with timer := bPktInBuf }, frame := f, events := events }

/-- Lines 2222–2223: frames that are not buffered. -/
def reorderBypass (attrib : RxPktAttrib) : Bool :=
  attrib.qos != 1 || attrib.ethType == ethPArp || attrib.ackPolicy != 0

/-- `recv_indicatepkt_reorder` (lines 2210–2335). -/
def recvIndicatepktReorder (drv : DriverState) (preorderCtrl : RecvReorderCtrl)
    (prframe : RecvFrame) : ReorderResult :=
  if prframe.attrib.amsdu = 0 then
    let f := wlanhdrToEthhdr prframe
    if reorderBypass f.attrib then
      if drv.running then
        { status := .success, ctrl := preorderCtrl, frame := f, events := [.indicate f] }
      else { status := .fail, ctrl := preorderCtrl, frame := f, events := [] }
    else if !preorderCtrl.enable then
      { status := .success, frame := f, events := [.indicate f]
        ctrl := { preorderCtrl with indicateSeq := (f.attrib.seqNum + 1) % 4096 } }
    else reorderEnqueue drv preorderCtrl f
  else if prframe.attrib.amsdu = 1 ∧ preorderCtrl.enable = false then
    { status := .success, frame := prframe, events := [.deaggregate prframe]
      ctrl := { preorderCtrl with indicateSeq := (prframe.attrib.seqNum + 1) % 4096 } }
  else reorderEnqueue drv preorderCtrl prframe

/-- `rtw_reordering_ctrl_timeout_handler` (lines 2338–2361). -/
def rtwReorderingCtrlTimeoutHandler (drv : DriverState) (preorderCtrl : RecvReorderCtrl) :
    RecvReorderCtrl × List RecvEvent :=
  let preorderCtrl := { preorderCtrl with timer := false }
  if !drv.running then (preorderCtrl, [])
  else
    let (ctrl, events, bPktInBuf) := recvIndicatepktsInOrder drv preorderCtrl true
    ({ ctrl with timer := bPktInBuf }, events)

/-- A frame arrives or the timer expires. -/
inductive ReorderOp where
  | arrive (f : RecvFrame)
  | timeout

/-- The reorder queue of a station with which a block-ack session was just set
    up: `rtw_alloc_stainfo` initialises it, the session enables it. -/
def preorderInit : RecvReorderCtrl := { enable := true, indicateSeq := 0xFFFF, wsizeB := 64 }

/-- One step of the reorder queue. -/
def reorderStep (drv : DriverState) (preorderCtrl : RecvReorderCtrl) :
    ReorderOp → RecvReorderCtrl
  | .arrive f => (recvIndicatepktReorder drv preorderCtrl f).ctrl
  | .timeout => (rtwReorderingCtrlTimeoutHandler drv preorderCtrl).1

/-! ## Distances from the window start -/

/-- The start of the window once `check_indicate_seq` has seen `seq`. -/
def RecvReorderCtrl.base (c : RecvReorderCtrl) (seq : ℕ) : ℕ :=
  if c.indicateSeq = 0xFFFF then seq else c.indicateSeq

/-- How far a sequence number at distance `d` moves a window of size `w`. -/
def slide (w d : ℕ) : ℕ := if d = 0 then 1 else if d < w then 0 else d + 1 - w

/-- The forward distance from `a` to the frame. -/
def dist (a : ℕ) (f : RecvFrame) : ℕ := fwd 4096 a f.attrib.seqNum

/-- The queue is in increasing distance from `a`. -/
def SortedFrom (a : ℕ) (q : List RecvFrame) : Prop := Sorted 4096 a (q.map (·.attrib.seqNum))

theorem sortedFrom_cons {a : ℕ} {f : RecvFrame} {q : List RecvFrame} :
    SortedFrom a (f :: q) ↔ (∀ g ∈ q, dist a f < dist a g) ∧ SortedFrom a q := by
  simp [SortedFrom, sorted_cons, dist]

theorem circle_pos : 0 < 4096 := by decide

theorem fwd4096_lt (a b : ℕ) : fwd 4096 a b < 4096 := fwd_lt circle_pos a b

theorem snLess_of_dist {a b c : ℕ} (hb : fwd 4096 a b ≤ 2047) (hc : fwd 4096 a c ≤ 2047) :
    snLess b c = true ↔ fwd 4096 a b < fwd 4096 a c := by
  rw [snLess_iff]
  rcases Nat.lt_or_ge (fwd 4096 a c) (fwd 4096 a b) with h | h
  · have h1 := fwd_behind circle_pos h
    omega
  · have h1 := fwd_rebase circle_pos h
    omega

theorem snLess_back {a b : ℕ} (ha : a < 4096) (hb : b < 4096) :
    snLess b a = decide (2048 ≤ fwd 4096 a b) := by
  rw [Bool.eq_iff_iff, snLess_iff, decide_eq_true_iff]
  have hlt := fwd4096_lt a b
  by_cases h0 : fwd 4096 a b = 0
  · obtain rfl := eq_of_fwd_eq_zero ha hb h0
    omega
  · rw [fwd_swap circle_pos h0]
    omega

theorem snEqual_eq {a b : ℕ} (ha : a < 4096) (hb : b < 4096) :
    snEqual b a = decide (fwd 4096 a b = 0) := by
  rw [Bool.eq_iff_iff, snEqual, beq_iff_eq, decide_eq_true_iff, fwd_eq_zero_iff ha hb, eq_comm]

/-- The window end is reached by the distances from `w` on. -/
theorem snLess_windowEnd {a b w : ℕ} (hw : 1 ≤ w) (hw' : w ≤ 256) (hd : fwd 4096 a b < 2048) :
    snLess ((a + w + 0xFFF) &&& 0xFFF) b = decide (w ≤ fwd 4096 a b) := by
  have hwend : (a + w + 0xFFF) % 4096 = (a + (w - 1)) % 4096 := by omega
  have hk : fwd 4096 a ((a + (w - 1)) % 4096) = w - 1 := fwd_add_mod (by omega) a
  rw [Bool.eq_iff_iff, and_0xFFF, hwend, snLess_of_dist (a := a) (by omega) (by omega), hk,
    decide_eq_true_iff]
  omega

/-- `check_indicate_seq` refuses the far half of the circle; everything else
    moves the window by `slide`. -/
theorem checkIndicateSeq_eq (c : RecvReorderCtrl) {seq : ℕ} (hw : 1 ≤ c.wsizeB)
    (hw' : c.wsizeB ≤ 256) (ha : c.base seq < 4096) (hs : seq < 4096) :
    checkIndicateSeq c seq =
      if 2048 ≤ fwd 4096 (c.base seq) seq then (false, { c with indicateSeq := c.base seq })
      else (true, { c with indicateSeq :=
        (c.base seq + slide c.wsizeB (fwd 4096 (c.base seq) seq)) % 4096 }) := by
  have hd := fwd4096_lt (c.base seq) seq
  have hadd := add_fwd circle_pos (c.base seq) seq
  rw [Nat.mod_eq_of_lt hs] at hadd
  have hbase : (if c.indicateSeq = 0xFFFF then seq else c.indicateSeq) = c.base seq := rfl
  -- the window end is computed before the window is initialised, but then `seq` matches
  have hind : fwd 4096 (c.base seq) seq ≠ 0 → c.indicateSeq = c.base seq := by
    intro h0
    by_contra hne
    apply h0
    have : c.indicateSeq = 0xFFFF := by
      by_contra h
      exact hne (by simp [RecvReorderCtrl.base, h])
    simp [RecvReorderCtrl.base, this, fwd_self circle_pos]
  have hend : fwd 4096 (c.base seq) seq ≠ 0 → fwd 4096 (c.base seq) seq < 2048 →
      snLess ((c.indicateSeq + c.wsizeB + 0xFFF) &&& 0xFFF) seq =
        decide (c.wsizeB ≤ fwd 4096 (c.base seq) seq) := by
    intro h0 h
    rw [hind h0]
    exact snLess_windowEnd hw hw' h
  unfold checkIndicateSeq slide
  simp only [hbase, snLess_back ha hs, snEqual_eq ha hs, decide_eq_true_eq, and_0xFFF] at hend ⊢
  by_cases hfar : 2048 ≤ fwd 4096 (c.base seq) seq
  · simp [hfar]
  by_cases hzero : fwd 4096 (c.base seq) seq = 0
  · simp [hzero]
  rw [hend hzero (by omega)]
  by_cases hin : fwd 4096 (c.base seq) seq < c.wsizeB
  · simp [hfar, hzero, hin, Nat.mod_eq_of_lt ha]
  · simp only [hfar, hzero, hin, if_false, decide_eq_true_eq, Nat.le_of_not_lt hin, if_true]
    split_ifs with hwrap <;> congr 2 <;> omega

/-! ## The queue -/

/-- Insertion keeps the order; it fails only at a frame with the same sequence
    number. -/
theorem insertReorder_spec {a : ℕ} {f : RecvFrame}
    (hf : f.attrib.seqNum < 4096) (hd : dist a f ≤ 2047) :
    ∀ {q : List RecvFrame}, SortedFrom a q →
      (∀ g ∈ q, g.attrib.seqNum < 4096 ∧ dist a g ≤ 2047) →
      match insertReorder f q with
      | none => f.attrib.seqNum ∈ q.map (·.attrib.seqNum)
      | some q' => q'.Perm (f :: q) ∧ SortedFrom a q' := by
  intro q
  induction q with
  | nil => intro _ _; simp [insertReorder, SortedFrom, Sorted]
  | cons g q ih =>
    intro hs hq
    rw [sortedFrom_cons] at hs
    have hg := hq g List.mem_cons_self
    have hless : snLess g.attrib.seqNum f.attrib.seqNum = true ↔ dist a g < dist a f :=
      snLess_of_dist hg.2 hd
    specialize ih hs.2 fun x hx => hq x (List.mem_cons_of_mem g hx)
    unfold insertReorder
    split_ifs with h1 h2
    · rw [hless] at h1
      cases hins : insertReorder f q with
      | none =>
        rw [hins] at ih
        simpa using Or.inr (List.mem_map.mp ih)
      | some q' =>
        rw [hins] at ih
        obtain ⟨hperm, hsort⟩ := ih
        refine ⟨(hperm.cons g).trans (List.Perm.swap f g q), sortedFrom_cons.mpr ⟨?_, hsort⟩⟩
        intro x hx
        rcases List.mem_cons.mp (hperm.mem_iff.mp hx) with rfl | hx
        · exact h1
        · exact hs.1 x hx
    · rw [snEqual, beq_iff_eq] at h2
      simp [h2]
    · refine ⟨List.Perm.refl _, sortedFrom_cons.mpr ⟨?_, sortedFrom_cons.mpr hs⟩⟩
      have hne : dist a f ≠ dist a g := by
        intro h
        have := eq_of_fwd_eq hf hg.1 h
        exact h2 (by simp [snEqual, this])
      have hlt : dist a f < dist a g := by
        have := mt hless.mpr h1
        omega
      intro x hx
      rcases List.mem_cons.mp hx with rfl | hx
      · exact hlt
      · exact hlt.trans (hs.1 x hx)

/-- A frame that the window start has reached is unlinked; the start moves on
    when they match. -/
theorem snLess_start {a k : ℕ} {f : RecvFrame} (hf : f.attrib.seqNum < 4096)
    (hd : dist a f ≤ 2047) (hk : k ≤ 2048) (hk' : k ≤ dist a f + 2047) :
    snLess ((a + k) % 4096) f.attrib.seqNum = decide (k < dist a f) ∧
      snEqual ((a + k) % 4096) f.attrib.seqNum = decide (dist a f = k) := by
  have hstart : fwd 4096 a ((a + k) % 4096) = k := fwd_add_mod (by omega) a
  have hlt : (a + k) % 4096 < 4096 := Nat.mod_lt _ circle_pos
  have heq : snEqual ((a + k) % 4096) f.attrib.seqNum = decide (dist a f = k) := by
    rw [Bool.eq_iff_iff, snEqual, beq_iff_eq, decide_eq_true_iff]
    constructor
    · intro h
      rw [dist, ← h, hstart]
    · intro h
      exact eq_of_fwd_eq hlt hf (hstart.trans h.symm)
  refine ⟨?_, heq⟩
  rw [Bool.eq_iff_iff, snLess_iff, decide_eq_true_iff]
  rcases Nat.lt_or_ge (dist a f) k with h | h
  · have := fwd_behind (b := (a + k) % 4096) circle_pos (h.trans_eq hstart.symm)
    unfold dist at h hk'
    unfold dist
    omega
  · have := fwd_rebase (b := (a + k) % 4096) circle_pos (hstart.trans_le h)
    unfold dist at *
    omega

/-- The indication loop from a window start `k` ahead of `a`: it unlinks the
    frames behind the start and those that match it, in order, and stops at the
    first gap. -/
theorem indicateLoop_spec (drv : DriverState) {a k : ℕ} {q : List RecvFrame}
    (hk : k ≤ 2048) (hs : SortedFrom a q)
    (hq : ∀ g ∈ q, g.attrib.seqNum < 4096 ∧ dist a g ≤ 2047 ∧ k ≤ dist a g + 2047) :
    ∃ k' done rest, k ≤ k' ∧ k' ≤ 2048 ∧ q = done ++ rest ∧
      indicateLoop drv ((a + k) % 4096) q =
        ((a + k') % 4096, rest, done.map (indicateOne drv), !rest.isEmpty) ∧
      (∀ g ∈ done, dist a g < k') ∧ (∀ g ∈ rest, k' < dist a g) ∧
      (k' = k ∨ ∃ g ∈ done, dist a g + 1 = k') := by
  induction q generalizing k with
  | nil => exact ⟨k, [], [], le_refl k, hk, rfl, rfl, by simp, by simp, Or.inl rfl⟩
  | cons f q ih =>
    rw [sortedFrom_cons] at hs
    obtain ⟨hf, hd, hk'⟩ := hq f List.mem_cons_self
    have hq' : ∀ g ∈ q, g.attrib.seqNum < 4096 ∧ dist a g ≤ 2047 ∧ k ≤ dist a g + 2047 :=
      fun g hg => hq g (List.mem_cons_of_mem f hg)
    obtain ⟨hless, hequal⟩ := snLess_start hf hd hk hk'
    unfold indicateLoop
    rw [hless, hequal]
    by_cases hlt : k < dist a f
    · -- a gap before the head
      refine ⟨k, [], f :: q, le_refl k, hk, rfl, by simp [hlt], by simp, ?_, Or.inl rfl⟩
      intro g hg
      rcases List.mem_cons.mp hg with rfl | hg
      · exact hlt
      · exact hlt.trans (hs.1 g hg)
    by_cases heq : dist a f = k
    · -- the head matches
      have hnext : ((a + k) % 4096 + 1) &&& 0xFFF = (a + (k + 1)) % 4096 := by
        rw [and_0xFFF]
        omega
      obtain ⟨k', done, rest, h1, h2, h3, h4, h5, h6, h7⟩ :=
        ih (k := k + 1) (by omega) hs.2 fun g hg => by
          have := hs.1 g hg
          have := hq' g hg
          omega
      refine ⟨k', f :: done, rest, by omega, h2, by rw [h3, List.cons_append], ?_, ?_, h6, ?_⟩
      · simp [heq, hnext, h4]
      · intro g hg
        rcases List.mem_cons.mp hg with rfl | hg
        · omega
        · exact h5 g hg
      · right
        rcases h7 with h7 | ⟨g, hg, h7⟩
        · exact ⟨f, List.mem_cons_self, by omega⟩
        · exact ⟨g, List.mem_cons_of_mem f hg, h7⟩
    · -- the head is behind the start
      obtain ⟨k', done, rest, h1, h2, h3, h4, h5, h6, h7⟩ := ih hk hs.2 hq'
      refine ⟨k', f :: done, rest, h1, h2, by rw [h3, List.cons_append], ?_, ?_, h6, ?_⟩
      · simp [hlt, heq, h4]
      · intro g hg
        rcases List.mem_cons.mp hg with rfl | hg
        · omega
        · exact h5 g hg
      · rcases h7 with h7 | ⟨g, hg, h7⟩
        · exact Or.inl h7
        · exact Or.inr ⟨g, List.mem_cons_of_mem f hg, h7⟩

/-! ## The invariant -/

/-- The reorder queue lies in increasing order inside the window and strictly
    behind its start. -/
structure Window (c : RecvReorderCtrl) : Prop where
  init : c.indicateSeq = 0xFFFF → c.pending = []
  start : c.indicateSeq ≠ 0xFFFF → c.indicateSeq < 4096
  sorted : SortedFrom c.indicateSeq c.pending
  inside : ∀ f ∈ c.pending,
    f.attrib.seqNum < 4096 ∧ 1 ≤ dist c.indicateSeq f ∧ dist c.indicateSeq f < c.wsizeB

/-- The window start moved `k` ahead of `a` and split `q` into what was handed
    on and what stays. -/
structure Moved (w a k : ℕ) (q done rest : List RecvFrame) : Prop where
  split : q = done ++ rest
  le : k ≤ 2048
  behind : ∀ g ∈ done, dist a g < k
  ahead : ∀ g ∈ rest, k < dist a g ∧ dist a g < k + w
  reached : rest = [] → ∃ g ∈ done, dist a g + 1 = k

theorem Window.of_moved {c : RecvReorderCtrl} {a k : ℕ} {q done rest : List RecvFrame}
    (hs : SortedFrom a q) (hq : ∀ g ∈ q, g.attrib.seqNum < 4096)
    (h : Moved c.wsizeB a k q done rest) (t : Bool) :
    Window { c with indicateSeq := (a + k) % 4096, pending := rest, timer := t } := by
  have hlt : (a + k) % 4096 < 4096 := Nat.mod_lt _ circle_pos
  have hk := h.le
  have hstart : fwd 4096 a ((a + k) % 4096) = k := fwd_add_mod (by omega) a
  have hrest : SortedFrom a rest := by
    rw [h.split] at hs
    exact hs.sublist ((List.sublist_append_right done rest).map _)
  refine ⟨fun h' => absurd h' (by dsimp only; omega), fun _ => hlt, ?_, ?_⟩
  · refine Sorted.rebase circle_pos hrest ?_
    intro x hx
    obtain ⟨g, hg, rfl⟩ := List.mem_map.mp hx
    rw [hstart]
    exact (h.ahead g hg).1.le
  · intro g hg
    have hg' := h.ahead g hg
    have hd : dist ((a + k) % 4096) g = dist a g - k := fwd_advance circle_pos hg'.1.le
    refine ⟨hq g (by rw [h.split]; exact List.mem_append_right done hg), ?_⟩
    dsimp only
    omega

section step

variable {drv : DriverState} {c : RecvReorderCtrl} {f : RecvFrame}

theorem Window.base_lt (hW : Window c) (hf : f.attrib.seqNum < 4096) :
    c.base f.attrib.seqNum < 4096 := by
  unfold RecvReorderCtrl.base
  split_ifs with h
  · exact hf
  · exact hW.start h

/-- Seen from the base, an uninitialised window is empty and every other one is
    as it was. -/
theorem Window.from_base (hW : Window c) (s : ℕ) :
    SortedFrom (c.base s) c.pending ∧ ∀ g ∈ c.pending, g.attrib.seqNum < 4096 ∧
      1 ≤ dist (c.base s) g ∧ dist (c.base s) g < c.wsizeB := by
  unfold RecvReorderCtrl.base
  split_ifs with h
  · rw [hW.init h]
    simp [SortedFrom, Sorted]
  · exact ⟨hW.sorted, hW.inside⟩

/-- A refused frame changes nothing. -/
def Refused (c : RecvReorderCtrl) (r : ReorderResult) : Prop :=
  r.status = .fail ∧ r.ctrl = c ∧ r.events = []

/-- An accepted frame is inserted, and the window moves on from `a`. -/
def Accepted (drv : DriverState) (c : RecvReorderCtrl) (a : ℕ) (f : RecvFrame)
    (r : ReorderResult) : Prop :=
  dist a f ≤ 2047 ∧ ∃ q k done rest, q.Perm (f :: c.pending) ∧ SortedFrom a q ∧
    Moved c.wsizeB a k q done rest ∧ r.status = .success ∧
    r.ctrl = { c with indicateSeq := (a + k) % 4096, pending := rest, timer := !rest.isEmpty } ∧
    r.events = done.map (indicateOne drv)

theorem reorderEnqueue_cases (drv : DriverState) (hW : Window c) (hw : 1 ≤ c.wsizeB)
    (hw' : c.wsizeB ≤ 256) (hf : f.attrib.seqNum < 4096) :
    Refused c (reorderEnqueue drv c f) ∨
      Accepted drv c (c.base f.attrib.seqNum) f (reorderEnqueue drv c f) := by
  have ha := hW.base_lt hf
  obtain ⟨hsort, hin⟩ := hW.from_base f.attrib.seqNum
  have hinit : dist (c.base f.attrib.seqNum) f ≠ 0 → c.base f.attrib.seqNum = c.indicateSeq := by
    intro h0
    unfold RecvReorderCtrl.base at h0 ⊢
    split_ifs with h
    · simp [h, dist, fwd_self circle_pos] at h0
    · rfl
  have hcheck := checkIndicateSeq_eq c hw hw' ha hf
  have hd0 : fwd 4096 (c.base f.attrib.seqNum) f.attrib.seqNum =
    dist (c.base f.attrib.seqNum) f := rfl
  rw [hd0] at hcheck
  generalize c.base f.attrib.seqNum = a at *
  unfold reorderEnqueue
  by_cases hfar : 2048 ≤ dist a f
  · left
    rw [hcheck, if_pos hfar]
    exact ⟨rfl, by rw [hinit (by omega)], rfl⟩
  rw [hcheck, if_neg hfar]
  have hins := insertReorder_spec hf (by omega : dist a f ≤ 2047) hsort fun g hg => by
    have := hin g hg
    omega
  cases hq : insertReorder f c.pending with
  | none =>
    left
    rw [hq] at hins
    obtain ⟨g, hg, hgf⟩ := List.mem_map.mp hins
    have hdist : dist a f = dist a g := by rw [dist, ← hgf, dist]
    have hg' := hin g hg
    have hslide : slide c.wsizeB (dist a f) = 0 := by
      unfold slide
      rw [if_neg (by omega), if_pos (by omega)]
    have ha' := hinit (by omega)
    simp only [enqueueReorderRecvframe, hq, Option.map_none, hslide, Nat.add_zero,
      Nat.mod_eq_of_lt ha]
    exact ⟨rfl, by rw [ha'], rfl⟩
  | some q =>
    right
    rw [hq] at hins
    obtain ⟨hperm, hsort'⟩ := hins
    have hmem : ∀ g ∈ q, g = f ∨ g ∈ c.pending := fun g hg =>
      List.mem_cons.mp (hperm.mem_iff.mp hg)
    -- the window end reaches the new frame, and every frame is at most half a circle behind
    have hk : slide c.wsizeB (dist a f) ≤ dist a f + 1 ∧ slide c.wsizeB (dist a f) ≤ 2047 ∧
        dist a f < slide c.wsizeB (dist a f) + c.wsizeB := by
      unfold slide
      split_ifs <;> omega
    have hbound : ∀ g ∈ q, g.attrib.seqNum < 4096 ∧ dist a g ≤ 2047 ∧
        dist a g < slide c.wsizeB (dist a f) + c.wsizeB := by
      intro g hg
      rcases hmem g hg with rfl | hg
      · exact ⟨hf, by omega, hk.2.2⟩
      · have := hin g hg
        omega
    obtain ⟨k', done, rest, h1, h2, h3, h4, h5, h6, h7⟩ :=
      indicateLoop_spec drv (a := a) (k := slide c.wsizeB (dist a f)) (by omega) hsort'
        fun g hg => by
          have := hbound g hg
          omega
    refine ⟨by omega, q, k', done, rest, hperm, hsort', ⟨h3, h2, h5, ?_, ?_⟩, ?_⟩
    · intro g hg
      have := hbound g (by rw [h3]; exact List.mem_append_right done hg)
      exact ⟨h6 g hg, by omega⟩
    · intro hrest
      rcases h7 with h7 | h7
      · have hf' : f ∈ done := by
          have : f ∈ q := hperm.mem_iff.mpr List.mem_cons_self
          rwa [h3, hrest, List.append_nil] at this
        have := h5 f hf'
        exact ⟨f, hf', by omega⟩
      · exact h7
    · simp [enqueueReorderRecvframe, hq, recvIndicatepktsInOrder, h4]

/-- The timer hands on the head of the queue and what follows it. -/
theorem timeout_cases (hrun : drv.running = true) (hW : Window c) (hw : c.wsizeB ≤ 256) :
    (c.pending = [] ∧ rtwReorderingCtrlTimeoutHandler drv c = ({ c with timer := true }, [])) ∨
    ∃ k done rest, done ≠ [] ∧ Moved c.wsizeB c.indicateSeq k c.pending done rest ∧
      rtwReorderingCtrlTimeoutHandler drv c =
        ({ c with indicateSeq := (c.indicateSeq + k) % 4096, pending := rest
                  timer := !rest.isEmpty }, done.map (indicateOne drv)) := by
  have hsort := hW.sorted
  have hin := hW.inside
  cases hq : c.pending with
  | nil =>
    left
    simp [rtwReorderingCtrlTimeoutHandler, hrun, recvIndicatepktsInOrder, hq]
  | cons f q =>
    right
    rw [hq] at hsort hin
    have hf := hin f List.mem_cons_self
    have ha : c.indicateSeq < 4096 := hW.start fun h => by simp [hW.init h] at hq
    have hhead : f.attrib.seqNum = (c.indicateSeq + dist c.indicateSeq f) % 4096 := by
      rw [dist, add_fwd circle_pos, Nat.mod_eq_of_lt hf.1]
    obtain ⟨k', done, rest, h1, h2, h3, h4, h5, h6, h7⟩ :=
      indicateLoop_spec drv (a := c.indicateSeq) (k := dist c.indicateSeq f) (by omega) hsort
        fun g hg => by
          have := hin g hg
          omega
    have hdone : done ≠ [] := by
      rintro rfl
      rw [List.nil_append] at h3
      have := h6 f (by rw [← h3]; exact List.mem_cons_self)
      omega
    refine ⟨k', done, rest, hdone, ⟨h3, h2, h5, ?_, ?_⟩, ?_⟩
    · intro g hg
      have := hin g (by rw [h3]; exact List.mem_append_right done hg)
      exact ⟨h6 g hg, by omega⟩
    · intro _
      rcases h7 with h7 | h7
      · obtain ⟨g, done', rfl⟩ := List.exists_cons_of_ne_nil hdone
        obtain ⟨rfl, -⟩ := List.cons.inj h3
        have := h5 f List.mem_cons_self
        omega
      · exact h7
    · rw [← hhead] at h4
      simp [rtwReorderingCtrlTimeoutHandler, hrun, recvIndicatepktsInOrder, hq, h4]

end step

/-! ## What becomes of the frames -/

/-- The frame that an event is about. -/
def RecvEvent.frame : RecvEvent → RecvFrame
  | .indicate f => f
  | .deaggregate f => f
  | .forget f => f

/-- The frame that a call hands back to its caller. -/
def ReorderResult.refused (r : ReorderResult) : List RecvFrame :=
  if r.status = .success then [] else [r.frame]

@[simp] theorem indicateOne_frame (drv : DriverState) (f : RecvFrame) :
    (indicateOne drv f).frame = f := by
  unfold indicateOne
  split_ifs <;> rfl

theorem insertReorder_perm {f : RecvFrame} {q q' : List RecvFrame}
    (h : insertReorder f q = some q') : q'.Perm (f :: q) := by
  induction q generalizing q' with
  | nil =>
    obtain rfl := Option.some.inj h
    exact List.Perm.refl _
  | cons g q ih =>
    unfold insertReorder at h
    split_ifs at h
    · obtain ⟨q'', hq, rfl⟩ := Option.map_eq_some_iff.mp h
      exact ((ih hq).cons g).trans (List.Perm.swap f g q)
    · obtain rfl := Option.some.inj h
      exact List.Perm.refl _

theorem indicateLoop_split (drv : DriverState) (a : ℕ) (q : List RecvFrame) :
    (indicateLoop drv a q).2.2.1.map (·.frame) ++ (indicateLoop drv a q).2.1 = q := by
  induction q generalizing a with
  | nil => rfl
  | cons f q ih =>
    unfold indicateLoop
    split_ifs
    · simp only [List.map_cons, indicateOne_frame, List.cons_append, ih]
    · simp only [List.map_cons, indicateOne_frame, List.cons_append, ih]
    · rfl

theorem recvIndicatepktsInOrder_split (drv : DriverState) (c : RecvReorderCtrl) (bforced : Bool) :
    (recvIndicatepktsInOrder drv c bforced).2.1.map (·.frame) ++
      (recvIndicatepktsInOrder drv c bforced).1.pending = c.pending := by
  unfold recvIndicatepktsInOrder
  split
  · rfl
  · next f q h =>
    rw [h]
    exact indicateLoop_split drv f.attrib.seqNum (f :: q)
  · exact indicateLoop_split drv c.indicateSeq c.pending

/-- The timer takes frames from the queue only. -/
theorem rtwReorderingCtrlTimeoutHandler_split (drv : DriverState) (c : RecvReorderCtrl) :
    (rtwReorderingCtrlTimeoutHandler drv c).2.map (·.frame) ++
      (rtwReorderingCtrlTimeoutHandler drv c).1.pending = c.pending := by
  unfold rtwReorderingCtrlTimeoutHandler
  dsimp only
  split_ifs
  · rfl
  · exact recvIndicatepktsInOrder_split drv { c with timer := false } true

theorem checkIndicateSeq_pending (c : RecvReorderCtrl) (seq : ℕ) :
    (checkIndicateSeq c seq).2.pending = c.pending := by
  unfold checkIndicateSeq
  dsimp only
  split_ifs <;> rfl

theorem reorderEnqueue_perm (drv : DriverState) (c : RecvReorderCtrl) (f : RecvFrame) :
    ((reorderEnqueue drv c f).events.map (·.frame) ++ (reorderEnqueue drv c f).ctrl.pending ++
      (reorderEnqueue drv c f).refused).Perm (f :: c.pending) := by
  have hpend := checkIndicateSeq_pending c f.attrib.seqNum
  unfold reorderEnqueue
  rcases hc : checkIndicateSeq c f.attrib.seqNum with ⟨_ | _, ctrl⟩
  · rw [hc] at hpend
    dsimp only at hpend ⊢
    simp [ReorderResult.refused, hpend]
  · rw [hc] at hpend
    dsimp only at hpend ⊢
    cases henq : enqueueReorderRecvframe ctrl f with
    | none => simp [ReorderResult.refused, hpend]
    | some ctrl' =>
      obtain ⟨q, hq, rfl⟩ := Option.map_eq_some_iff.mp henq
      have hsplit := recvIndicatepktsInOrder_split drv { ctrl with pending := q } false
      rw [hpend] at hq
      simp only [ReorderResult.refused, if_true, List.append_nil, hsplit]
      exact insertReorder_perm hq

theorem reorderEnqueue_frame (drv : DriverState) (c : RecvReorderCtrl) (f : RecvFrame) :
    (reorderEnqueue drv c f).frame = f := by
  unfold reorderEnqueue
  rcases checkIndicateSeq c f.attrib.seqNum with ⟨_ | _, ctrl⟩
  · rfl
  · dsimp only
    cases enqueueReorderRecvframe ctrl f <;> rfl

/-- The frame that a call is about: an A-MSDU, or its only MSDU. -/
theorem recvIndicatepktReorder_frame (drv : DriverState) (c : RecvReorderCtrl) (f : RecvFrame) :
    (recvIndicatepktReorder drv c f).frame =
      if f.attrib.amsdu = 0 then wlanhdrToEthhdr f else f := by
  unfold recvIndicatepktReorder
  dsimp only
  split_ifs <;> simp [reorderEnqueue_frame]

/-- A frame is handed on, queued or refused, and so are those that it sets free. -/
theorem recvIndicatepktReorder_perm (drv : DriverState) (c : RecvReorderCtrl) (f : RecvFrame) :
    let r := recvIndicatepktReorder drv c f
    (r.events.map (·.frame) ++ r.ctrl.pending ++ r.refused).Perm (r.frame :: c.pending) := by
  intro r
  have hframe := recvIndicatepktReorder_frame drv c f
  show (r.events.map (·.frame) ++ r.ctrl.pending ++ r.refused).Perm (r.frame :: c.pending)
  change r.frame = _ at hframe
  rw [hframe]
  have hr : r = recvIndicatepktReorder drv c f := rfl
  unfold recvIndicatepktReorder at hr
  rw [hr]
  dsimp only
  split_ifs
  · simp [ReorderResult.refused, RecvEvent.frame]
  · simp [ReorderResult.refused]
  · simp [ReorderResult.refused, RecvEvent.frame]
  · exact reorderEnqueue_perm drv c (wlanhdrToEthhdr f)
  · simp [ReorderResult.refused, RecvEvent.frame]
  · exact reorderEnqueue_perm drv c f

/-- Every event is about a frame that was queued, and disposes of it as
    `recv_indicatepkts_in_order` does. -/
theorem indicateLoop_events {drv : DriverState} {a : ℕ} {q : List RecvFrame} {e : RecvEvent}
    (h : e ∈ (indicateLoop drv a q).2.2.1) : ∃ f ∈ q, e = indicateOne drv f := by
  induction q generalizing a with
  | nil => exact absurd h List.not_mem_nil
  | cons f q ih =>
    unfold indicateLoop at h
    split_ifs at h
    · rcases List.mem_cons.mp h with rfl | h
      · exact ⟨f, List.mem_cons_self, rfl⟩
      · obtain ⟨g, hg, he⟩ := ih h
        exact ⟨g, List.mem_cons_of_mem f hg, he⟩
    · rcases List.mem_cons.mp h with rfl | h
      · exact ⟨f, List.mem_cons_self, rfl⟩
      · obtain ⟨g, hg, he⟩ := ih h
        exact ⟨g, List.mem_cons_of_mem f hg, he⟩
    · exact absurd h List.not_mem_nil

theorem recvIndicatepktsInOrder_events {drv : DriverState} {c : RecvReorderCtrl} (bforced : Bool)
    {e : RecvEvent} (h : e ∈ (recvIndicatepktsInOrder drv c bforced).2.1) :
    ∃ f ∈ c.pending, e = indicateOne drv f := by
  unfold recvIndicatepktsInOrder at h
  split at h
  · exact absurd h List.not_mem_nil
  · next f q hq =>
    rw [hq]
    exact indicateLoop_events h
  · exact indicateLoop_events h

theorem rtwReorderingCtrlTimeoutHandler_events {drv : DriverState} {c : RecvReorderCtrl}
    {e : RecvEvent} (h : e ∈ (rtwReorderingCtrlTimeoutHandler drv c).2) :
    drv.running = true ∧ ∃ f ∈ c.pending, e = indicateOne drv f := by
  unfold rtwReorderingCtrlTimeoutHandler at h
  dsimp only at h
  split_ifs at h with hrun
  · exact absurd h List.not_mem_nil
  · obtain ⟨f, hf, he⟩ :=
      recvIndicatepktsInOrder_events (c := { c with timer := false }) true h
    exact ⟨by simpa using hrun, f, hf, he⟩

theorem reorderEnqueue_events {drv : DriverState} {c : RecvReorderCtrl} {f : RecvFrame}
    {e : RecvEvent} (h : e ∈ (reorderEnqueue drv c f).events) :
    ∃ g ∈ f :: c.pending, e = indicateOne drv g := by
  have hpend := checkIndicateSeq_pending c f.attrib.seqNum
  unfold reorderEnqueue at h
  rcases hc : checkIndicateSeq c f.attrib.seqNum with ⟨_ | _, ctrl⟩
  · rw [hc] at h
    exact absurd h List.not_mem_nil
  · rw [hc] at h hpend
    dsimp only at h hpend
    cases henq : enqueueReorderRecvframe ctrl f with
    | none =>
      rw [henq] at h
      exact absurd h List.not_mem_nil
    | some ctrl' =>
      obtain ⟨q, hq, rfl⟩ := Option.map_eq_some_iff.mp henq
      rw [henq] at h
      obtain ⟨g, hg, he⟩ :=
        recvIndicatepktsInOrder_events (c := { ctrl with pending := q }) false h
      rw [hpend] at hq
      exact ⟨g, (insertReorder_perm hq).mem_iff.mp hg, he⟩

/-- A call hands on its own frame or frames of the queue. -/
theorem recvIndicatepktReorder_events {drv : DriverState} {c : RecvReorderCtrl} {f : RecvFrame}
    {e : RecvEvent} (h : e ∈ (recvIndicatepktReorder drv c f).events) :
    (f.attrib.amsdu = 0 ∧ e = .indicate (wlanhdrToEthhdr f)) ∨
      (f.attrib.amsdu = 1 ∧ e = .deaggregate f) ∨
      ∃ g ∈ (if f.attrib.amsdu = 0 then wlanhdrToEthhdr f else f) :: c.pending,
        e = indicateOne drv g := by
  unfold recvIndicatepktReorder at h
  dsimp only at h
  split_ifs at h with h0 h1 h2 h3 h4
  · exact Or.inl ⟨h0, List.mem_singleton.mp h⟩
  · exact absurd h List.not_mem_nil
  · exact Or.inl ⟨h0, List.mem_singleton.mp h⟩
  · rw [if_pos h0]
    exact Or.inr (Or.inr (reorderEnqueue_events h))
  · exact Or.inr (Or.inl ⟨h4.1, List.mem_singleton.mp h⟩)
  · rw [if_neg h0]
    exact Or.inr (Or.inr (reorderEnqueue_events h))

/-- The frame of the event is given to the OS. -/
def RecvEvent.Keeps (e : RecvEvent) : Prop := ∀ f, e ≠ .forget f

theorem indicateOne_keeps {drv : DriverState} (hrun : drv.running = true) {f : RecvFrame}
    (hf : f.attrib.amsdu ≤ 1) : (indicateOne drv f).Keeps := by
  intro g
  unfold indicateOne
  split_ifs with h0 h1
  · nofun
  · nofun
  · omega

theorem reorderEnqueue_status (drv : DriverState) (c : RecvReorderCtrl) (f : RecvFrame) :
    (reorderEnqueue drv c f).status = .success ∨ (reorderEnqueue drv c f).status = .fail := by
  unfold reorderEnqueue
  rcases checkIndicateSeq c f.attrib.seqNum with ⟨_ | _, ctrl⟩
  · exact Or.inr rfl
  · dsimp only
    cases enqueueReorderRecvframe ctrl f with
    | none => exact Or.inr rfl
    | some ctrl' => exact Or.inl rfl

/-! ## Runs -/

/-- The bypass of `recv_indicatepkt_reorder` does not touch the window, and all
    other frames go through the queue. -/
theorem recvIndicatepktReorder_cases (drv : DriverState) {c : RecvReorderCtrl} (f : RecvFrame)
    (hen : c.enable = true) :
    (recvIndicatepktReorder drv c f).ctrl = c ∨
      ∃ f', f'.attrib.seqNum = f.attrib.seqNum ∧
        recvIndicatepktReorder drv c f = reorderEnqueue drv c f' := by
  unfold recvIndicatepktReorder
  by_cases hamsdu : f.attrib.amsdu = 0
  · rw [if_pos hamsdu]
    by_cases hbypass : reorderBypass (wlanhdrToEthhdr f).attrib = true
    · left
      simp only [hbypass, if_true]
      split_ifs <;> rfl
    · right
      refine ⟨wlanhdrToEthhdr f, by simp, ?_⟩
      simp only [hbypass, hen, Bool.not_true, Bool.false_eq_true, if_false]
  · right
    refine ⟨f, rfl, ?_⟩
    simp [hamsdu, hen]

/-- The invariant of a queue with preorder enabled and window size `w`. -/
def WindowInv (w : ℕ) (c : RecvReorderCtrl) : Prop :=
  c.enable = true ∧ c.wsizeB = w ∧ Window c

/-- The sequence number field of the header has 12 bits. -/
def ReorderOp.SeqOk : ReorderOp → Prop
  | .arrive f => f.attrib.seqNum < 4096
  | .timeout => True

/-- Every arrival and every expiry keeps the invariant. -/
theorem reorderStep_windowInv {drv : DriverState} {w : ℕ} (hrun : drv.running = true)
    (hw : 1 ≤ w) (hw' : w ≤ 256) (c : RecvReorderCtrl) (op : ReorderOp) (hop : op.SeqOk)
    (h : WindowInv w c) : WindowInv w (reorderStep drv c op) := by
  obtain ⟨hen, rfl, hW⟩ := h
  cases op with
  | arrive f =>
    rcases recvIndicatepktReorder_cases drv f hen with h | ⟨f', hf', h⟩
    · rw [reorderStep, h]
      exact ⟨hen, rfl, hW⟩
    · rw [reorderStep, h]
      have hf : f'.attrib.seqNum < 4096 := hf' ▸ hop
      rcases reorderEnqueue_cases drv hW hw hw' hf with hr | ⟨-, q, k, done, rest, hp, hs, hm, -, hr, -⟩
      · rw [hr.2.1]
        exact ⟨hen, rfl, hW⟩
      · rw [hr]
        refine ⟨hen, rfl, Window.of_moved hs (fun g hg => ?_) hm _⟩
        rcases List.mem_cons.mp (hp.mem_iff.mp hg) with rfl | hg
        · exact hf
        · exact (hW.inside g hg).1
  | timeout =>
    rcases timeout_cases hrun hW hw' with ⟨-, h⟩ | ⟨k, done, rest, -, hm, h⟩
    · rw [reorderStep, h]
      exact ⟨hen, rfl, hW.init, hW.start, hW.sorted, hW.inside⟩
    · rw [reorderStep, h]
      exact ⟨hen, rfl, Window.of_moved hW.sorted (fun g hg => (hW.inside g hg).1) hm _⟩

theorem windowInv_init : WindowInv 64 preorderInit :=
  ⟨rfl, rfl, fun _ => rfl, fun h => absurd rfl h, Sorted.nil 4096 _,
    fun _ hf => absurd hf List.not_mem_nil⟩

theorem run_windowInv {drv : DriverState} (hrun : drv.running = true) {ops : List ReorderOp}
    (hops : ∀ op ∈ ops, op.SeqOk) : WindowInv 64 (run (reorderStep drv) preorderInit ops) :=
  invariant_run (fun c op hop h => reorderStep_windowInv hrun (by decide) (by decide) c op hop h)
    (guarded_of_forall _ hops) windowInv_init

/-- The distances in the window are below half the circle, where `SN_LESS` is
    the order of distances. -/
theorem Window.pairwise_snLess {c : RecvReorderCtrl} (hW : Window c) (hw : c.wsizeB ≤ 256) :
    c.pending.Pairwise fun f g => snLess f.attrib.seqNum g.attrib.seqNum = true := by
  have hs := List.pairwise_map.mp hW.sorted
  refine hs.imp_of_mem ?_
  intro f g hf hg hlt
  have h1 := (hW.inside f hf).2.2
  have h2 := (hW.inside g hg).2.2
  unfold dist at h1 h2
  exact (snLess_of_dist (by omega) (by omega)).mpr hlt

/-- A frame that `check_indicate_seq` or `enqueue_reorder_recvframe` refuses
    leaves the queue alone. -/
theorem recvIndicatepktReorder_refused (drv : DriverState) {c : RecvReorderCtrl} (f : RecvFrame)
    (hen : c.enable = true)
    (h : (checkIndicateSeq c f.attrib.seqNum).1 = false ∨
      enqueueReorderRecvframe (checkIndicateSeq c f.attrib.seqNum).2 f = none) :
    (recvIndicatepktReorder drv c f).ctrl.pending = c.pending := by
  have hpend : ∀ s, (checkIndicateSeq c s).2.pending = c.pending := by
    intro s
    unfold checkIndicateSeq
    dsimp only
    split_ifs <;> rfl
  rcases recvIndicatepktReorder_cases drv f hen with h' | ⟨f', hf', h'⟩
  · rw [h']
  · have hins : ∀ q, insertReorder f q = none → insertReorder f' q = none := by
      intro q
      induction q with
      | nil => simp [insertReorder]
      | cons g q ih =>
        unfold insertReorder
        rw [hf']
        split_ifs <;> simp_all
    rw [h', ← hpend f'.attrib.seqNum]
    rw [← hf'] at h
    unfold reorderEnqueue
    rcases hc : checkIndicateSeq c f'.attrib.seqNum with ⟨_ | _, ctrl⟩
    · rfl
    · rw [hc] at h
      have henq : enqueueReorderRecvframe ctrl f' = none := by
        simp only [enqueueReorderRecvframe, Option.map_eq_none_iff, Bool.true_eq_false,
          false_or] at h ⊢
        exact hins _ h
      simp [henq]

/-- Along every run of arrivals and expiries the queue is strictly increasing
    in the `SN_LESS` order, free of duplicates and strictly inside the window;
    a refused frame leaves it as it was. -/
theorem reorder_window (drv : DriverState) (hrun : drv.running = true) (ops : List ReorderOp)
    (hops : ∀ op ∈ ops, op.SeqOk) :
    let c := run (reorderStep drv) preorderInit ops
    (c.pending.Pairwise fun f g => snLess f.attrib.seqNum g.attrib.seqNum = true) ∧
    (c.pending.map (·.attrib.seqNum)).Nodup ∧
    (c.indicateSeq = 0xFFFF → c.pending = []) ∧
    (∀ f ∈ c.pending, 0 < fwd 4096 c.indicateSeq f.attrib.seqNum ∧
      fwd 4096 c.indicateSeq f.attrib.seqNum < 64) ∧
    (∀ f ∈ c.pending, f.attrib.seqNum ≠ c.indicateSeq) ∧
    (∀ f, (checkIndicateSeq c f.attrib.seqNum).1 = false ∨
        enqueueReorderRecvframe (checkIndicateSeq c f.attrib.seqNum).2 f = none →
      (recvIndicatepktReorder drv c f).ctrl.pending = c.pending) := by
  intro c
  obtain ⟨hen, hw, hW⟩ : WindowInv 64 c := run_windowInv hrun hops
  refine ⟨hW.pairwise_snLess (by omega), hW.sorted.nodup, hW.init, ?_, ?_,
    fun f h => recvIndicatepktReorder_refused drv f hen h⟩
  · intro f hf
    have := hW.inside f hf
    rw [hw] at this
    exact this.2
  · intro f hf heq
    have := (hW.inside f hf).2.1
    rw [dist, heq, fwd_self circle_pos] at this
    omega

/-- A QoS data frame with the given sequence number. -/
def qosFrame (addr seqNum : ℕ) : RecvFrame :=
  { addr := addr, skb := some addr, attrib := { hdrlen := 26, qos := 1, seqNum := seqNum }, len := 40
    mem := List.replicate 40 0, rxData := 0, rxTail := 40
    data_le_tail := by decide, tail_le_end := by decide }

theorem reorder_window_wrap :
    ((run (reorderStep {}) preorderInit
      [.arrive (qosFrame 0 4094), .arrive (qosFrame 1 1), .arrive (qosFrame 2 4095)]).pending.map
        (·.attrib.seqNum)).Nodup :=
  (reorder_window {} rfl _ (by simp [ReorderOp.SeqOk, qosFrame])).2.1

end Rtl8821au.Recv
