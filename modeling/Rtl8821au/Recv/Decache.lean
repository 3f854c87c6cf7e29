import Mathlib.Data.List.Induction
import Rtl8821au.Recv.Validate

/-!
# Duplicates

`recv_decache` (`rtw_recv.c`, lines 643–665) over the data frames of one station, from the record
that `rtw_alloc_stainfo` makes (`rtw_sta_mgt.c`, lines 301–310). The station numbers its MPDUs with
a counter modulo 4096 for every TID and one for frames without QoS.

* `run_tidRxseq`: an entry has the numbers of the last frame that was accepted with its priority.
* `right_iff_apart`: one frame.
* `decache_right_iff`: which frames of a run are dropped.

**What goes wrong.** The entry of TID 0 is that of the frames without QoS too, `bretry` is not
looked at, so new frames with the numbers in their entry are dropped, and a new entry has the
numbers of a fragment.
-/

namespace Rtl8821au.Recv.Decache

/-! ## Model -/

/-- `wRxSeqInitialValue` in every entry. -/
def freshCache : ℕ → ℕ := fun _ => 0xffff

/-- `GetRetry` (`wifi.h`, line 298). -/
def getRetry (f : RecvFrame) : Bool := (f.le16At 0).testBit 11

/-- The attributes that `recv_decache` is given: `validate_recv_frame` and
    `validate_recv_data_frame` up to there. -/
def dataAttrib (f : RecvFrame) : RxPktAttrib :=
  let f := f.setAttrib (parseHeader f)
  let f := f.setAttrib (parseQos f)
  parseQosControl (f.setAttrib (setAddresses f))

/-! ## The sender -/

/-- A data frame from the station: its counter, a TID or none, the number of its MSDU, counted
    without end, and of the fragment, as they are in the header. -/
structure Received where
  frame : RecvFrame
  tid : Option (Fin 16)
  msdu : ℕ
  frag : ℕ
  frag_lt : frag < 16
  seq_eq : frame.le16At 22 = msdu % 4096 * 16 + frag
  qos_eq : (getFrameSubType frame).testBit 7 = tid.isSome
  priority_eq : ∀ t ∈ tid, getPriority frame = t

namespace Received

/-- It has been sent before. -/
def Retry (x : Received) : Prop := getRetry x.frame = true

/-- One MPDU, sent once more or not. -/
def SameMpdu (x y : Received) : Prop := x.tid = y.tid ∧ x.msdu = y.msdu ∧ x.frag = y.frag

/-- The numbers in the header. -/
def SameNumbers (x y : Received) : Prop := x.msdu % 4096 = y.msdu % 4096 ∧ x.frag = y.frag

/-- A later MSDU, or a later fragment of one. -/
def After (y x : Received) : Prop := x.msdu < y.msdu ∨ x.msdu = y.msdu ∧ x.frag < y.frag

/-- The sequence control field. -/
def seqCtrl (x : Received) : ℕ := x.msdu % 4096 * 16 + x.frag

/-- Where it is kept. -/
def entry (x : Received) : ℕ := x.tid.elim 0 Fin.val

end Received

/-- What arrives: a frame that is sent for the first time is behind all of its counter that have
    arrived. Some may be lost, and retransmissions come in any order. -/
structure Arrivals where
  frames : List Received
  numbered : frames.Pairwise fun x y => x.tid = y.tid → ¬ y.Retry → y.After x

/-! ## Runs -/

/-- The cache, and the frames that were accepted, the last one first. -/
structure Station where
  tidRxseq : ℕ → ℕ
  accepted : List Received

/-- The frame is dropped. -/
def Station.Drops (s : Station) (x : Received) : Prop :=
  recvDecache (dataAttrib x.frame) s.tidRxseq = none

/-- A frame arrives. -/
def Station.receive (s : Station) (x : Received) : Station :=
  match recvDecache (dataAttrib x.frame) s.tidRxseq with
  | none => s
  | some cache => ⟨cache, x :: s.accepted⟩

def fresh : Station := ⟨freshCache, []⟩

def run (frames : List Received) : Station := frames.foldl Station.receive fresh

/-- The last frame of a counter, and the last one in an entry. -/
def Station.lastOf (s : Station) (tid : Option (Fin 16)) : Option Received :=
  s.accepted.find? (·.tid = tid)

def Station.lastIn (s : Station) (entry : ℕ) : Option Received :=
  s.accepted.find? (·.entry = entry)

/-- A retransmission of the last frame of its counter is dropped, a new frame is not. -/
structure Right (s : Station) (x : Received) : Prop where
  retransmission : x.Retry → (∃ y ∈ s.lastOf x.tid, y.SameMpdu x) → s.Drops x
  new : ¬ x.Retry → ¬ s.Drops x

/-- What has to be so in a run. A new frame in an empty entry is not the last fragment of the last
    number; behind a frame of its counter it is not the same fragment after a multiple of 4096
    MSDUs; behind one of the other counter it has other numbers. And behind a frame of its counter
    there was none of the other, but with the same numbers, when that is sent again. -/
structure Apart (s : Station) (x : Received) : Prop where
  empty : ¬ x.Retry → s.lastIn x.entry = none → ¬ (x.msdu % 4096 = 4095 ∧ x.frag = 15)
  wrapped : ¬ x.Retry → ∀ y ∈ s.lastIn x.entry, y.tid = x.tid →
    ¬ ∃ k, 0 < k ∧ x.msdu = y.msdu + 4096 * k ∧ x.frag = y.frag
  other : ¬ x.Retry → ∀ y ∈ s.lastIn x.entry, y.tid ≠ x.tid → ¬ y.SameNumbers x
  last : x.Retry → (∃ y ∈ s.lastOf x.tid, y.SameMpdu x) →
    ∀ y ∈ s.lastIn x.entry, y.tid = x.tid ∨ y.SameNumbers x

/-! ## One frame -/

section frame

variable {x y : Received} {s : Station} {cache : ℕ → ℕ}

theorem Received.sameNumbers_iff : y.SameNumbers x ↔ y.seqCtrl = x.seqCtrl := by
  have hx := x.frag_lt
  have hy := y.frag_lt
  rw [SameNumbers, seqCtrl, seqCtrl]
  omega

theorem Received.SameMpdu.sameNumbers (h : y.SameMpdu x) : y.SameNumbers x :=
  ⟨by rw [h.2.1], h.2.2⟩

theorem Received.seqCtrl_lt (x : Received) : x.seqCtrl < 65536 := by
  have hx := x.frag_lt
  rw [seqCtrl]
  omega

/-- What is parsed of the QoS field leaves the numbers. -/
theorem parseQosControl_numbers (f : RecvFrame) :
    (parseQosControl f).seqNum = f.attrib.seqNum ∧ (parseQosControl f).fragNum = f.attrib.fragNum ∧
      (parseQosControl f).priority = if f.attrib.qos = 1 then getPriority f else 0 := by
  unfold parseQosControl
  dsimp only
  split_ifs
  all_goals exact ⟨rfl, rfl, rfl⟩

theorem dataAttrib_numbers (f : RecvFrame) :
    (dataAttrib f).seqNum = f.le16At 22 >>> 4 ∧ (dataAttrib f).fragNum = f.le16At 22 &&& 0x0F ∧
      (dataAttrib f).priority =
        if ((getFrameSubType f).testBit 7).toNat = 1 then getPriority f else 0 :=
  parseQosControl_numbers _

theorem Received.priority (x : Received) : (dataAttrib x.frame).priority = x.entry := by
  obtain ⟨-, -, hpriority⟩ := dataAttrib_numbers x.frame
  rw [hpriority, x.qos_eq, entry]
  cases htid : x.tid with
  | none => rfl
  | some t => exact x.priority_eq t htid

theorem Received.entry_le (x : Received) : x.entry ≤ 15 := by
  rw [entry]
  cases x.tid with
  | none => exact Nat.zero_le _
  | some t => exact Nat.le_of_lt_succ t.isLt

/-- What `recv_decache` does. -/
theorem recvDecache_eq (x : Received) (cache : ℕ → ℕ) :
    recvDecache (dataAttrib x.frame) cache =
      if x.seqCtrl = cache x.entry then none
      else some (Function.update cache x.entry x.seqCtrl) := by
  have hlt := x.seqCtrl_lt
  have hentry := x.entry_le
  obtain ⟨hseq, hfrag, -⟩ := dataAttrib_numbers x.frame
  have hmask : x.frame.le16At 22 &&& 0x0F = x.frame.le16At 22 % 16 :=
    Nat.and_two_pow_sub_one_eq_mod _ 4
  have hctrl : ((dataAttrib x.frame).seqNum * 16 + (dataAttrib x.frame).fragNum % 16) % 65536 =
      x.seqCtrl := by
    rw [hseq, hfrag, hmask, Nat.shiftRight_eq_div_pow, x.seq_eq]
    rw [Received.seqCtrl] at hlt ⊢
    omega
  rw [recvDecache]
  simp only [hctrl, x.priority, if_neg (Nat.not_lt.mpr hentry)]

theorem drops_iff : s.Drops x ↔ x.seqCtrl = s.tidRxseq x.entry := by
  rw [Station.Drops, recvDecache_eq]
  by_cases h : x.seqCtrl = s.tidRxseq x.entry
  · rw [if_pos h]
    exact iff_of_true rfl h
  · rw [if_neg h]
    exact iff_of_false (Option.some_ne_none _) h

/-- The cache has the numbers of the last frame in each entry. -/
def Kept (s : Station) : Prop :=
  ∀ e, s.tidRxseq e = (s.lastIn e).elim 0xffff Received.seqCtrl

theorem Kept.receive (h : Kept s) (x : Received) : Kept (s.receive x) := by
  intro e
  rw [Station.receive, recvDecache_eq]
  by_cases hdrop : x.seqCtrl = s.tidRxseq x.entry
  · rw [if_pos hdrop]
    exact h e
  · rw [if_neg hdrop]
    by_cases he : x.entry = e
    · subst he
      simp only [Station.lastIn, List.find?_cons, decide_true, Function.update_self,
        Option.elim_some]
    · simp only [Station.lastIn, List.find?_cons, he, decide_false,
        Function.update_of_ne (Ne.symm he)]
      exact h e

/-- A frame with a counter is in the counter's entry. -/
theorem Received.entry_eq (h : y.tid = x.tid) : y.entry = x.entry := by rw [entry, entry, h]

/-- If the last frame in the entry is of the counter, it is the last of the counter. -/
theorem lastOf_eq_lastIn {z : Received} (hz : s.lastIn x.entry = some z) (htid : z.tid = x.tid) :
    s.lastOf x.tid = some z := by
  obtain ⟨-, pre, post, hs, hpre⟩ := List.find?_eq_some_iff_append.mp hz
  refine List.find?_eq_some_iff_append.mpr ⟨decide_eq_true htid, pre, post, hs, fun y hy => ?_⟩
  have hne := hpre y hy
  rw [Bool.not_eq_true', decide_eq_false_iff_not] at hne ⊢
  exact fun htid' => hne (Received.entry_eq htid')

/-- A frame that is new among those of its counter. -/
theorem right_iff_apart (hkept : Kept s)
    (hnew : ¬ x.Retry → ∀ y ∈ s.accepted, y.tid = x.tid → x.After y) :
    Right s x ↔ Apart s x := by
  have hcache := hkept x.entry
  -- what is in the entry, and when the frame has the numbers that are kept
  have hnone : s.lastIn x.entry = none → (s.Drops x ↔ x.msdu % 4096 = 4095 ∧ x.frag = 15) := by
    intro h
    have hx := x.frag_lt
    rw [drops_iff, hcache, h, Option.elim_none, Received.seqCtrl]
    omega
  have hsome : ∀ y ∈ s.lastIn x.entry, (s.Drops x ↔ y.SameNumbers x) := by
    intro y hy
    rw [drops_iff, hcache, hy, Option.elim_some, Received.sameNumbers_iff, eq_comm]
  constructor
  · intro h
    refine ⟨fun hr hno hlast => h.new hr ((hnone hno).mpr hlast), fun hr y hy _ hwrap => ?_,
      fun hr y hy _ hsame => h.new hr ((hsome y hy).mpr hsame), fun hr hlast y hy =>
        .inr ((hsome y hy).mp (h.retransmission hr hlast))⟩
    obtain ⟨k, -, hmsdu, hfrag⟩ := hwrap
    refine h.new hr ((hsome y hy).mpr ⟨?_, hfrag.symm⟩)
    rw [hmsdu, Nat.add_mul_mod_self_left]
  · intro h
    constructor
    · rintro hr ⟨y, hy, hmpdu⟩
      cases hlast : s.lastIn x.entry with
      | none =>
        have hmem : y ∈ s.accepted := List.mem_of_find?_eq_some hy
        have hno := List.find?_eq_none.mp hlast y hmem
        exact absurd (decide_eq_true (Received.entry_eq hmpdu.1)) hno
      | some z =>
        rw [hsome z hlast]
        rcases h.last hr ⟨y, hy, hmpdu⟩ z hlast with htid | hsame
        · have heq : some y = some z := hy.symm.trans (lastOf_eq_lastIn hlast htid)
          obtain rfl := Option.some.inj heq
          exact hmpdu.sameNumbers
        · exact hsame
    · intro hr hdrop
      cases hlast : s.lastIn x.entry with
      | none => exact h.empty hr hlast ((hnone hlast).mp hdrop)
      | some y =>
        have hsame := (hsome y hlast).mp hdrop
        by_cases htid : y.tid = x.tid
        · -- the same fragment of a later MSDU with the same number
          have hafter := hnew hr y (List.mem_of_find?_eq_some hlast) htid
          obtain ⟨hmod, hfrag⟩ := hsame
          rw [Received.After] at hafter
          have hlt : y.msdu < x.msdu := by omega
          refine h.wrapped hr y hlast htid ⟨(x.msdu - y.msdu) / 4096, ?_, ?_, hfrag.symm⟩
          · omega
          · omega
        · exact h.other hr y hlast htid hsame

end frame

/-! ## Runs -/

theorem kept_run (frames : List Received) : Kept (run frames) := by
  induction frames using List.reverseRecOn with
  | nil => exact fun e => rfl
  | append_singleton frames x ih =>
    rw [run, List.foldl_append]
    exact ih.receive x

/-- What is accepted has arrived. -/
theorem mem_of_accepted {frames : List Received} {y : Received} (h : y ∈ (run frames).accepted) :
    y ∈ frames := by
  induction frames using List.reverseRecOn with
  | nil => cases h
  | append_singleton frames x ih =>
    rw [run, List.foldl_append] at h
    change y ∈ ((run frames).receive x).accepted at h
    rw [Station.receive] at h
    split at h
    · exact List.mem_append_left _ (ih h)
    · rcases List.mem_cons.mp h with rfl | h
      · exact List.mem_append_right _ List.mem_cons_self
      · exact List.mem_append_left _ (ih h)

/-- In a run, retransmissions of the last frame are dropped and new frames are not, exactly if
    every frame finds in its entry what it should. -/
theorem decache_right_iff (a : Arrivals) :
    (∀ before x after, a.frames = before ++ x :: after → Right (run before) x) ↔
      ∀ before x after, a.frames = before ++ x :: after → Apart (run before) x := by
  have hone : ∀ before x after, a.frames = before ++ x :: after →
      (Right (run before) x ↔ Apart (run before) x) := by
    intro before x after hframes
    refine right_iff_apart (kept_run before) fun hr y hy htid => ?_
    have hnum := a.numbered
    rw [hframes, List.pairwise_append] at hnum
    exact hnum.2.2 y (mem_of_accepted hy) x List.mem_cons_self htid hr
  constructor
  · intro h before x after hframes
    exact (hone before x after hframes).mp (h before x after hframes)
  · intro h before x after hframes
    exact (hone before x after hframes).mpr (h before x after hframes)

/-- A frame with QoS or without it, its priority, and whether it is sent again. -/
def frameBytes (qos retry : Bool) (tid seqLo seqHi : UInt8) : Bytes :=
  [if qos then 0x88 else 0x08, if retry then 0x09 else 0x01] ++ List.replicate 20 0 ++
    [seqLo, seqHi, tid, 0]

theorem frameBytes_length (qos retry : Bool) (tid seqLo seqHi : UInt8) :
    26 ≤ (frameBytes qos retry tid seqLo seqHi).length := Nat.le_refl 26

def frameOf (qos retry : Bool) (tid seqLo seqHi : UInt8) : RecvFrame where
  addr := 0
  skb := none
  attrib := {}
  len := 26
  mem := frameBytes qos retry tid seqLo seqHi
  rxData := 0
  rxTail := 26
  data_le_tail := Nat.zero_le 26
  tail_le_end := frameBytes_length qos retry tid seqLo seqHi

theorem zero_lt_fragments : 0 < 16 := Nat.succ_pos 15

/-- MSDU 5 without QoS, sent again or not, and MSDUs 5 and 7 of TID 0. -/
def plain5 (retry : Bool) : Received where
  frame := frameOf false retry 0 80 0
  tid := none
  msdu := 5
  frag := 0
  frag_lt := zero_lt_fragments
  seq_eq := by cases retry <;> decide
  qos_eq := by cases retry <;> decide
  priority_eq := fun _ h => by cases h

def qos5 : Received where
  frame := frameOf true false 0 80 0
  tid := some 0
  msdu := 5
  frag := 0
  frag_lt := zero_lt_fragments
  seq_eq := by decide
  qos_eq := by decide
  priority_eq := by decide

def qos7 : Received where
  frame := frameOf true false 0 112 0
  tid := some 0
  msdu := 7
  frag := 0
  frag_lt := zero_lt_fragments
  seq_eq := by decide
  qos_eq := by decide
  priority_eq := by decide

theorem tid_ne : (plain5 false).tid ≠ qos5.tid := by decide

theorem plain5_qos5_numbered :
    [plain5 false, qos5].Pairwise fun x y => x.tid = y.tid → ¬ y.Retry → y.After x := by
  refine List.pairwise_pair.mpr fun htid _ => ?_
  exact absurd htid tid_ne

/-- A new frame of TID 0 is dropped for one without QoS; one without QoS that is sent again is not
    dropped behind one of TID 0. -/
theorem qos5_dropped :
    (run [plain5 false]).Drops qos5 ∧ ¬ Right (run [plain5 false]) qos5 ∧
      ¬ Right (run [plain5 false, qos7]) (plain5 true) ∧
      ¬ ∀ a : Arrivals, ∀ before x after, a.frames = before ++ x :: after →
        Right (run before) x := by
  have hdrop : (run [plain5 false]).Drops qos5 := by
    rw [drops_iff]
    decide
  have hretry : ¬ qos5.Retry := by
    rw [Received.Retry]
    decide
  have hkeep : ¬ (run [plain5 false, qos7]).Drops (plain5 true) := by
    rw [drops_iff]
    decide
  have hagain : (plain5 true).Retry := by
    rw [Received.Retry]
    decide
  have hnew : ¬ Right (run [plain5 false]) qos5 := fun h => h.new hretry hdrop
  refine ⟨hdrop, hnew, fun h => hkeep (h.retransmission hagain ?_), fun h => ?_⟩
  · exact ⟨plain5 false, rfl, rfl, rfl, rfl⟩
  · exact hnew (h ⟨_, plain5_qos5_numbered⟩ [plain5 false] qos5 [] rfl)

end Rtl8821au.Recv.Decache
