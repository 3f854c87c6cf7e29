import Mathlib.Data.List.Count
import Rtl8821au.Sta.Table

/-!
# Multicast frames sent as unicast copies

`rtw_xmit_entry` and `rtw_mlcst2unicst` (`xmit_linux.c`, lines 173–296) of an access point. What
`skb_copy` and `rtw_xmit` return is given by two patterns; the log says what becomes of the frame
and its copies. `rtw_xmit` takes the frame that it is given unless it returns a negative number,
as its two error paths return before the frame is stored.

When a copy cannot be made the frame itself is sent in the normal way, also if copies have been
sent by then.

* `mlcst2unicst_log`: what the conversion does, from the stations that get a copy.
* `xmitEntry_once_iff`: no station is sent the frame twice, exactly if this does not happen; the
  frame and its copies are given away once in any case.
-/

namespace Rtl8821au.Xmit.Mcast2Uni

open Recv (MacAddr)
open Sta (numSta StaPriv TableInv bcAddr)

/-! ## Model of the C code -/

/-- `NR_XMITFRAME`. -/
def nrXmitframe : ℕ := 256

/-- The original frame and its copies, counted by the calls of `skb_copy`. -/
inductive Pkt where
  | orig
  | copy (k : ℕ)
  deriving DecidableEq, Repr

/-- What happens to a frame: `skb_copy` makes it, `rtw_xmit` takes it, as it is or with the
    address of a station, or it is freed. -/
inductive Event where
  | make (k : ℕ)
  | send
  | sendTo (psta : ℕ) (k : ℕ)
  | free (p : Pkt)
  deriving DecidableEq, Repr

/-- The associated stations, each listed once, in `pstainfo_buf`. -/
structure Stations where
  sta : ℕ → Sta.StaInfo
  asocList : List ℕ
  nodup : asocList.Nodup
  valid : ∀ x ∈ asocList, x < numSta

/-- The stations of a station table. -/
def Stations.ofTable (s : StaPriv) (h : TableInv s) : Stations where
  sta := s.sta
  asocList := s.asocList
  nodup := h.asoc_nodup
  valid x hx := h.lt x (h.linked x (.inl hx))

/-- What the transmit path sees: the stations, the settings, the first bytes of the frame, and the
    results of the calls of `skb_copy` and `rtw_xmit`. -/
structure Env where
  stations : Stations
  ifUp : Bool
  mc2uDisable : Bool
  apState : Bool
  freeXmitframeCnt : ℕ
  dst : MacAddr
  src : MacAddr
  copyOk : ℕ → Bool
  xmitRes : ℕ → ℤ

/-- The calls so far, the counters and the log. -/
structure St where
  copies : ℕ := 0
  xmits : ℕ := 0
  txPkts : ℕ := 0
  txDrop : ℕ := 0
  log : List Event := []

variable (e : Env)

theorem byte0_lt : 0 < 6 := by decide

theorem byte1_lt : 1 < 6 := by decide

theorem byte2_lt : 2 < 6 := by decide

/-- `IP_MCAST_MAC` or `ICMPV6_MCAST_MAC`. -/
def mcastMac (mac : MacAddr) : Prop :=
  mac.get ⟨0, byte0_lt⟩ = 0x01 ∧ mac.get ⟨1, byte1_lt⟩ = 0x00 ∧ mac.get ⟨2, byte2_lt⟩ = 0x5e ∨
    mac.get ⟨0, byte0_lt⟩ = 0x33 ∧ mac.get ⟨1, byte1_lt⟩ = 0x33 ∧ mac.get ⟨2, byte2_lt⟩ ≠ 0xff

instance (mac : MacAddr) : Decidable (mcastMac mac) := inferInstanceAs (Decidable (_ ∨ _))

/-- The stations that get no copy: those not linked, the sender, and those without an address. -/
def skipped (psta : ℕ) : Prop :=
  (e.stations.sta psta).state.linked = false ∨ (e.stations.sta psta).hwaddr = e.src ∨
    (e.stations.sta psta).hwaddr = Vector.replicate 6 0 ∨ (e.stations.sta psta).hwaddr = bcAddr

instance (psta : ℕ) : Decidable (skipped e psta) := inferInstanceAs (Decidable (_ ∨ _))

/-- The loop over `chk_alive_list` in `rtw_mlcst2unicst`. -/
def convertLoop : List ℕ → St → Bool × St
  | [], st => (true, st)
  | psta :: rest, st =>
    if skipped e psta then convertLoop rest st
    else if e.copyOk st.copies then
      let k := st.copies
      let st := { st with copies := k + 1, log := st.log ++ [Event.make k] }
      let res := e.xmitRes st.xmits
      let st := { st with xmits := st.xmits + 1 }
      if res < 0 then
        convertLoop rest
          { st with txDrop := st.txDrop + 1, log := st.log ++ [Event.free (.copy k)] }
      else
        convertLoop rest
          { st with txPkts := st.txPkts + 1, log := st.log ++ [Event.sendTo psta k] }
    else (false, { st with copies := st.copies + 1, txDrop := st.txDrop + 1 })

/-- `rtw_mlcst2unicst`. -/
def mlcst2unicst (st : St) : Bool × St :=
  match convertLoop e (e.stations.asocList.filter fun x => x < numSta) st with
  | (true, st) => (true, { st with log := st.log ++ [Event.free .orig] })
  | (false, st) => (false, st)

/-- `drop_packet`. -/
def dropPacket (st : St) : St :=
  { st with txDrop := st.txDrop + 1, log := st.log ++ [Event.free .orig] }

/-- The call of `rtw_xmit` in `rtw_xmit_entry`, and what follows it. -/
def xmitOrig (st : St) : St :=
  let res := e.xmitRes st.xmits
  let st := { st with xmits := st.xmits + 1 }
  if res < 0 then dropPacket st
  else { st with txPkts := st.txPkts + 1, log := st.log ++ [Event.send] }

/-- The frame is to be converted. -/
def Converts : Prop :=
  e.mc2uDisable = false ∧ e.apState = true ∧ mcastMac e.dst ∧ nrXmitframe / 4 < e.freeXmitframeCnt

instance : Decidable (Converts e) := inferInstanceAs (Decidable (_ ∧ _))

/-- `rtw_xmit_entry`. -/
def xmitEntry : St :=
  let st : St := {}
  if e.ifUp = false then dropPacket st
  else if Converts e then
    match mlcst2unicst e st with
    | (true, st) => st
    | (false, st) => xmitOrig e st
  else xmitOrig e st

/-! ## What it is for -/

/-- A copy is sent to the station. -/
def Event.isSendTo (psta : ℕ) : Event → Bool
  | .sendTo x _ => x = psta
  | _ => false

/-- The frame is given away. -/
def Event.ends (p : Pkt) : Event → Bool
  | .make _ => false
  | .send => p = .orig
  | .sendTo _ k => p = .copy k
  | .free q => q = p

/-- How often the station is sent a copy. -/
def sentCopies (log : List Event) (psta : ℕ) : ℕ := log.countP (Event.isSendTo psta)

/-- How often a frame is freed or handed over. -/
def ended (log : List Event) (p : Pkt) : ℕ := log.countP (Event.ends p)

/-- Every associated station is sent the frame at most once, as a copy, while the frame itself is
    freed, or with the frame; the frame and every copy are given away once. -/
structure Once (e : Env) (log : List Event) : Prop where
  once : ∀ x ∈ e.stations.asocList, sentCopies log x + log.count .send ≤ 1
  copies : (∃ x, 0 < sentCopies log x) → log.count (.free .orig) = 1 ∧ log.count .send = 0
  frame : ended log .orig = 1
  copy : ∀ k, ended log (.copy k) = log.count (.make k) ∧ log.count (.make k) ≤ 1

/-- The stations that are to get a copy. -/
def eligible : List ℕ := e.stations.asocList.filter fun x => ¬ skipped e x

/-- After a copy that was sent another one cannot be made, and the frame is sent as well. -/
def SendsTwice : Prop :=
  e.ifUp = true ∧ Converts e ∧ ∃ f < (eligible e).length, (∀ k < f, e.copyOk k = true) ∧
    e.copyOk f = false ∧ (∃ k < f, 0 ≤ e.xmitRes k) ∧ 0 ≤ e.xmitRes f

/-! ## The copies -/

section copies

variable {e : Env} {c k x : ℕ} {xs : List ℕ} {st : St}

/-- The stations for which a copy is made, counting the calls of `skb_copy` from `c` on. -/
def getCopies (e : Env) : ℕ → List ℕ → List ℕ
  | _, [] => []
  | c, x :: xs => if e.copyOk c then x :: getCopies e (c + 1) xs else []

/-- What becomes of a copy. -/
def copyEnd (e : Env) (c x : ℕ) : Event :=
  if e.xmitRes c < 0 then .free (.copy c) else .sendTo x c

/-- What becomes of the copies. -/
def copyEvents (e : Env) : ℕ → List ℕ → List Event
  | _, [] => []
  | c, x :: xs => .make c :: copyEnd e c x :: copyEvents e (c + 1) xs

theorem copyEnd_ends (p : Pkt) : (copyEnd e c x).ends p = decide (p = .copy c) := by
  unfold copyEnd
  split_ifs
  · exact decide_eq_decide.mpr eq_comm
  · rfl

theorem copyEnd_isSendTo (y : ℕ) :
    (copyEnd e c x).isSendTo y = decide (0 ≤ e.xmitRes c ∧ x = y) := by
  unfold copyEnd
  split_ifs with hres
  · exact (decide_eq_false fun h => by omega).symm
  · exact decide_eq_decide.mpr (iff_and_self.mpr fun _ => Int.not_lt.mp hres)

theorem copyEnd_ne : copyEnd e c x ≠ .send ∧ copyEnd e c x ≠ .free .orig ∧
    ∀ k, copyEnd e c x ≠ .make k := by
  unfold copyEnd
  split_ifs <;> simp

theorem getCopies_length_le : (getCopies e c xs).length ≤ xs.length := by
  induction xs generalizing c with
  | nil => exact Nat.le_refl 0
  | cons x xs ih =>
    rw [getCopies]
    split_ifs
    · exact Nat.succ_le_succ ih
    · exact Nat.zero_le _

theorem getCopies_sublist : (getCopies e c xs).Sublist xs := by
  induction xs generalizing c with
  | nil => exact List.Sublist.refl []
  | cons x xs ih =>
    rw [getCopies]
    split_ifs
    · exact ih.cons_cons x
    · exact List.nil_sublist _

/-- The calls up to the first one that fails. -/
theorem getCopies_ok (hk : k < (getCopies e c xs).length) : e.copyOk (c + k) = true := by
  induction xs generalizing c k with
  | nil => exact absurd hk (Nat.not_lt_zero k)
  | cons x xs ih =>
    rw [getCopies] at hk
    split_ifs at hk with hok
    · cases k with
      | zero => exact hok
      | succ k =>
        rw [Nat.add_comm k 1, ← Nat.add_assoc]
        exact ih (Nat.lt_of_succ_lt_succ hk)
    · exact absurd hk (Nat.not_lt_zero k)

theorem getCopies_fails (h : (getCopies e c xs).length < xs.length) :
    e.copyOk (c + (getCopies e c xs).length) = false := by
  induction xs generalizing c with
  | nil => exact absurd h (Nat.lt_irrefl 0)
  | cons x xs ih =>
    rw [getCopies] at h ⊢
    split_ifs at h ⊢ with hok
    · rw [List.length_cons, Nat.add_comm _ 1, ← Nat.add_assoc]
      exact ih (Nat.lt_of_succ_lt_succ h)
    · exact Bool.eq_false_iff.mpr hok

/-- The loop makes the copies up to the first failure. -/
theorem convertLoop_eq (hc : st.copies = c) (hx : st.xmits = c) :
    (convertLoop e xs st).2.log = st.log ++
        copyEvents e c (getCopies e c (xs.filter fun x => ¬ skipped e x)) ∧
      (convertLoop e xs st).2.xmits =
        c + (getCopies e c (xs.filter fun x => ¬ skipped e x)).length ∧
      ((convertLoop e xs st).1 = true ↔
        (getCopies e c (xs.filter fun x => ¬ skipped e x)).length =
          (xs.filter fun x => ¬ skipped e x).length) := by
  induction xs generalizing st c with
  | nil => exact ⟨(List.append_nil _).symm, hx, iff_of_true rfl rfl⟩
  | cons x xs ih =>
    rw [convertLoop]
    by_cases hskip : skipped e x
    · rw [if_pos hskip, List.filter_cons_of_neg (by simpa using hskip)]
      exact ih hc hx
    rw [if_neg hskip, List.filter_cons_of_pos (by simpa using hskip), getCopies, hc]
    by_cases hok : e.copyOk c = true
    · rw [if_pos hok, if_pos hok, copyEvents]
      dsimp only
      rw [hx]
      split_ifs with hneg
      · obtain ⟨hlog, hxmits, hres⟩ := @ih (c + 1) { st with
          copies := c + 1, xmits := c + 1, txDrop := st.txDrop + 1
          log := st.log ++ [Event.make c] ++ [Event.free (.copy c)] } rfl rfl
        refine ⟨hlog.trans ?_, hxmits.trans ?_, hres.trans ?_⟩
        · simp only [copyEnd, if_pos hneg, List.append_assoc, List.cons_append, List.nil_append]
        · rw [List.length_cons, Nat.add_assoc, Nat.add_comm 1]
        · rw [List.length_cons, List.length_cons, Nat.succ_inj]
      · obtain ⟨hlog, hxmits, hres⟩ := @ih (c + 1) { st with
          copies := c + 1, xmits := c + 1, txPkts := st.txPkts + 1
          log := st.log ++ [Event.make c] ++ [Event.sendTo x c] } rfl rfl
        refine ⟨hlog.trans ?_, hxmits.trans ?_, hres.trans ?_⟩
        · simp only [copyEnd, if_neg hneg, List.append_assoc, List.cons_append, List.nil_append]
        · rw [List.length_cons, Nat.add_assoc, Nat.add_comm 1]
        · rw [List.length_cons, List.length_cons, Nat.succ_inj]
    · rw [if_neg hok, if_neg hok]
      refine ⟨(List.append_nil _).symm, hx, iff_of_false Bool.false_ne_true ?_⟩
      rw [List.length_cons]
      exact (Nat.succ_ne_zero _).symm

/-- The frame itself is not touched. -/
theorem copyEvents_orig :
    ended (copyEvents e c xs) .orig = 0 ∧ (copyEvents e c xs).count .send = 0 ∧
      (copyEvents e c xs).count (.free .orig) = 0 := by
  induction xs generalizing c with
  | nil => exact ⟨rfl, rfl, rfl⟩
  | cons x xs ih =>
    obtain ⟨h1, h2, h3⟩ := @ih (c + 1)
    obtain ⟨hsend, hfree, -⟩ := @copyEnd_ne e c x
    unfold ended at h1 ⊢
    rw [copyEvents, List.count_cons_of_ne (by simp), List.count_cons_of_ne hsend,
      List.count_cons_of_ne (by simp), List.count_cons_of_ne hfree]
    refine ⟨?_, h2, h3⟩
    rw [List.countP_cons_of_neg (by simp [Event.ends]), List.countP_cons_of_neg, h1]
    rw [copyEnd_ends]
    simp

theorem sentCopies_copyEvents_le : sentCopies (copyEvents e c xs) x ≤ xs.count x := by
  induction xs generalizing c with
  | nil => exact Nat.le_refl 0
  | cons y xs ih =>
    have ih := @ih (c + 1)
    unfold sentCopies at ih ⊢
    rw [copyEvents, List.countP_cons_of_neg (by simp [Event.isSendTo]), List.countP_cons,
      copyEnd_isSendTo, List.count_cons]
    by_cases hyx : y = x
    · rw [if_pos (beq_iff_eq.mpr hyx)]
      split_ifs <;> omega
    · rw [if_neg (by simp [hyx]), if_neg (by simpa using hyx)]
      exact ih

/-- Every copy is made once and given away once. -/
theorem copyEvents_copy :
    ended (copyEvents e c xs) (.copy k) = (if c ≤ k ∧ k < c + xs.length then 1 else 0) ∧
      (copyEvents e c xs).count (.make k) = if c ≤ k ∧ k < c + xs.length then 1 else 0 := by
  induction xs generalizing c with
  | nil =>
    rw [if_neg (by simp only [List.length_nil]; omega)]
    exact ⟨rfl, rfl⟩
  | cons y xs ih =>
    obtain ⟨h1, h2⟩ := @ih (c + 1)
    unfold ended at h1 ⊢
    rw [copyEvents, List.countP_cons_of_neg (by simp [Event.ends]), List.countP_cons, copyEnd_ends,
      List.count_cons, List.count_cons_of_ne (copyEnd_ne.2.2 k), h1, h2, List.length_cons]
    by_cases hck : c = k
    · subst hck
      have hlow : ¬ (c + 1 ≤ c ∧ c < c + 1 + xs.length) := by omega
      have hin : c ≤ c ∧ c < c + (xs.length + 1) := by omega
      rw [if_neg hlow, if_pos hin]
      simp
    · have hiff : (c ≤ k ∧ k < c + (xs.length + 1)) ↔ (c + 1 ≤ k ∧ k < c + 1 + xs.length) := by
        omega
      have hends : decide (Pkt.copy k = Pkt.copy c) = false :=
        decide_eq_false fun h => hck (Pkt.copy.inj h).symm
      have hmake : (Event.make c == Event.make k) = false :=
        beq_eq_false_iff_ne.mpr fun h => hck (Event.make.inj h)
      simp only [hiff, hends, hmake, Bool.false_eq_true, if_false, Nat.add_zero, and_self]

theorem exists_sentCopies :
    (∃ x, 0 < sentCopies (copyEvents e c xs) x) ↔ ∃ k < xs.length, 0 ≤ e.xmitRes (c + k) := by
  induction xs generalizing c with
  | nil => exact iff_of_false (fun ⟨_, h⟩ => Nat.lt_irrefl 0 h) fun ⟨k, h, _⟩ => Nat.not_lt_zero k h
  | cons y xs ih =>
    have ih := @ih (c + 1)
    have hcons : ∀ x, 0 < sentCopies (copyEvents e c (y :: xs)) x ↔
        0 < sentCopies (copyEvents e (c + 1) xs) x ∨ 0 ≤ e.xmitRes c ∧ y = x := by
      intro x
      unfold sentCopies
      rw [copyEvents, List.countP_cons_of_neg (by simp [Event.isSendTo]), List.countP_cons,
        copyEnd_isSendTo]
      by_cases h : 0 ≤ e.xmitRes c ∧ y = x
      · rw [if_pos (decide_eq_true h)]
        exact iff_of_true (Nat.succ_pos _) (Or.inr h)
      · rw [if_neg (by simpa using h), Nat.add_zero]
        exact (or_iff_left h).symm
    simp only [hcons, exists_or]
    rw [ih]
    constructor
    · rintro (⟨k, hk, hres⟩ | ⟨x, hres, -⟩)
      · exact ⟨k + 1, Nat.succ_lt_succ hk, by rwa [Nat.add_comm k 1, ← Nat.add_assoc]⟩
      · exact ⟨0, Nat.succ_pos _, hres⟩
    · rintro ⟨k, hk, hres⟩
      cases k with
      | zero => exact Or.inr ⟨y, hres, rfl⟩
      | succ k =>
        rw [Nat.add_comm k 1, ← Nat.add_assoc] at hres
        exact Or.inl ⟨k, Nat.lt_of_succ_lt_succ hk, hres⟩

end copies

/-! ## The frame -/

section frame

variable {e : Env}

theorem alive_eq : (e.stations.asocList.filter fun x => x < numSta) = e.stations.asocList :=
  List.filter_eq_self.mpr fun x hx => decide_eq_true (e.stations.valid x hx)

/-- What the conversion does: it ends with the original freed, or hands it back. -/
theorem mlcst2unicst_log :
    (mlcst2unicst e {}).2.log = copyEvents e 0 (getCopies e 0 (eligible e)) ++
        (if (getCopies e 0 (eligible e)).length = (eligible e).length then [.free .orig] else []) ∧
      (mlcst2unicst e {}).2.xmits = (getCopies e 0 (eligible e)).length ∧
      ((mlcst2unicst e {}).1 = true ↔
        (getCopies e 0 (eligible e)).length = (eligible e).length) := by
  obtain ⟨hlog, hxmits, hres⟩ := @convertLoop_eq e 0 e.stations.asocList {} rfl rfl
  unfold mlcst2unicst
  rw [alive_eq]
  unfold eligible
  cases hrun : convertLoop e e.stations.asocList {} with
  | mk b st =>
    rw [hrun] at hlog hxmits hres
    cases b with
    | true =>
      have hall := hres.mp rfl
      rw [if_pos hall]
      refine ⟨?_, hxmits.trans (Nat.zero_add _), hres⟩
      show st.log ++ _ = _
      rw [hlog]
      rfl
    | false =>
      have hfail := hres.not.mp Bool.false_ne_true
      rw [if_neg hfail, List.append_nil]
      exact ⟨hlog, hxmits.trans (Nat.zero_add _), hres⟩

/-- The frame is sent or freed behind what has been logged. -/
theorem xmitOrig_log (st : St) : (xmitOrig e st).log =
    st.log ++ [if e.xmitRes st.xmits < 0 then .free .orig else .send] := by
  unfold xmitOrig dropPacket
  dsimp only
  split_ifs <;> rfl

/-- Copies for some stations, and then the end of the frame. -/
theorem once_copies_iff {l : List ℕ} (hl : l.Nodup) {ev : Event}
    (hev : ev = .free .orig ∨ ev = .send) :
    Once e (copyEvents e 0 l ++ [ev]) ↔ ¬ ((∃ k < l.length, 0 ≤ e.xmitRes k) ∧ ev = .send) := by
  have hsome := @exists_sentCopies e 0 l
  simp only [Nat.zero_add] at hsome
  obtain ⟨horig, hsend, hfree⟩ := @copyEvents_orig e 0 l
  have hle : ∀ x, sentCopies (copyEvents e 0 l) x ≤ 1 := fun x =>
    sentCopies_copyEvents_le.trans (List.nodup_iff_count_le_one.mp hl x)
  have happend : ∀ x, sentCopies (copyEvents e 0 l ++ [ev]) x = sentCopies (copyEvents e 0 l) x :=
    fun x => by
      unfold sentCopies
      rw [List.countP_append]
      rcases hev with rfl | rfl <;> rfl
  rw [← hsome]
  constructor
  · rintro h ⟨hex, rfl⟩
    have hcount := (h.copies (by simpa only [happend] using hex)).2
    rw [List.count_append, hsend] at hcount
    cases hcount
  · intro hno
    refine ⟨fun x hx => ?_, fun hex => ?_, ?_, fun k => ?_⟩
    · rw [happend, List.count_append, hsend]
      rcases hev with rfl | rfl
      · exact hle x
      · have hzero : sentCopies (copyEvents e 0 l) x = 0 := by
          by_contra hne
          exact hno ⟨⟨x, Nat.pos_of_ne_zero hne⟩, rfl⟩
        rw [hzero]
        exact Nat.le_refl 1
    · simp only [happend] at hex
      obtain rfl := hev.resolve_right fun h => hno ⟨hex, h⟩
      rw [List.count_append, List.count_append, hsend, hfree]
      exact ⟨rfl, rfl⟩
    · unfold ended at horig ⊢
      rw [List.countP_append, horig]
      rcases hev with rfl | rfl <;> rfl
    · obtain ⟨hends, hmake⟩ := @copyEvents_copy e 0 k l
      unfold ended at hends ⊢
      rw [List.countP_append, List.count_append, hends, hmake]
      rcases hev with rfl | rfl <;>
      · refine ⟨rfl, ?_⟩
        show (if _ then 1 else 0) + 0 ≤ 1
        split_ifs <;> decide

/-- The frame alone. -/
theorem once_xmitOrig : Once e (xmitOrig e {}).log := by
  rw [xmitOrig_log]
  refine (@once_copies_iff e [] List.nodup_nil _ ?_).mpr fun h => ?_
  · split_ifs
    · exact Or.inl rfl
    · exact Or.inr rfl
  · obtain ⟨⟨k, hk, -⟩, -⟩ := h
    exact Nat.not_lt_zero k hk

theorem getCopies_nodup : (getCopies e 0 (eligible e)).Nodup :=
  (getCopies_sublist.trans List.filter_sublist).nodup e.stations.nodup

/-- The first call of `skb_copy` that fails. -/
theorem sendsTwice_iff (hup : e.ifUp = true) (hconv : Converts e) :
    SendsTwice e ↔ (getCopies e 0 (eligible e)).length ≠ (eligible e).length ∧
      (∃ k < (getCopies e 0 (eligible e)).length, 0 ≤ e.xmitRes k) ∧
      0 ≤ e.xmitRes (getCopies e 0 (eligible e)).length := by
  have hok : ∀ k < (getCopies e 0 (eligible e)).length, e.copyOk k = true := fun k hk => by
    have h := getCopies_ok hk
    rwa [Nat.zero_add] at h
  have hfails : (getCopies e 0 (eligible e)).length < (eligible e).length →
      e.copyOk (getCopies e 0 (eligible e)).length = false := fun h => by
    have hf := getCopies_fails h
    rwa [Nat.zero_add] at hf
  constructor
  · rintro ⟨-, -, f, hf, hprev, hnot, hsent, hres⟩
    have hge : (getCopies e 0 (eligible e)).length ≤ f := by
      by_contra hlt
      rw [hok f (Nat.not_le.mp hlt)] at hnot
      cases hnot
    have hle : f ≤ (getCopies e 0 (eligible e)).length := by
      by_contra hlt
      have hf' := hfails (Nat.lt_of_le_of_lt hge hf)
      rw [hprev _ (Nat.not_le.mp hlt)] at hf'
      cases hf'
    obtain rfl := Nat.le_antisymm hge hle
    exact ⟨Nat.ne_of_lt hf, hsent, hres⟩
  · rintro ⟨hne, hsent, hres⟩
    have hlt := Nat.lt_of_le_of_ne (@getCopies_length_le e 0 (eligible e)) hne
    exact ⟨hup, hconv, _, hlt, hok, hfails hlt, hsent, hres⟩

/-- No associated station is sent the frame twice, exactly if not a copy was sent, another one
    could not be made, and the frame was sent as well. -/
theorem xmitEntry_once_iff (e : Env) : Once e (xmitEntry e).log ↔ ¬ SendsTwice e := by
  unfold xmitEntry
  dsimp only
  cases hup : e.ifUp with
  | false =>
    refine iff_of_true ?_ fun h => ?_
    · refine (@once_copies_iff e [] List.nodup_nil _ (.inl rfl)).mpr fun h => ?_
      cases h.2
    · rw [h.1] at hup
      cases hup
  | true =>
    rw [if_neg (by decide)]
    by_cases hconv : Converts e
    case neg =>
      rw [if_neg hconv]
      exact iff_of_true once_xmitOrig fun h => hconv h.2.1
    rw [if_pos hconv, sendsTwice_iff hup hconv]
    obtain ⟨hlog, hxmits, hres⟩ := @mlcst2unicst_log e
    cases hrun : mlcst2unicst e {} with
    | mk b st =>
      rw [hrun] at hlog hxmits hres
      cases b with
      | true =>
        have hall := hres.mp rfl
        rw [if_pos hall] at hlog
        dsimp only at hlog ⊢
        rw [hlog]
        refine iff_of_true ((once_copies_iff getCopies_nodup (.inl rfl)).mpr fun h => ?_)
          fun h => h.1 hall
        cases h.2
      | false =>
        have hfail := hres.not.mp Bool.false_ne_true
        rw [if_neg hfail, List.append_nil] at hlog
        dsimp only at hlog hxmits ⊢
        rw [xmitOrig_log, hlog, hxmits, and_iff_right hfail]
        by_cases hneg : e.xmitRes (getCopies e 0 (eligible e)).length < 0
        · rw [if_pos hneg, once_copies_iff getCopies_nodup (.inl rfl)]
          refine not_congr (and_congr_right fun _ => iff_of_false (fun h => ?_) fun h => ?_)
          · cases h
          · omega
        · rw [if_neg hneg, once_copies_iff getCopies_nodup (.inr rfl)]
          exact not_congr (and_congr_right fun _ => iff_of_true rfl (Int.not_lt.mp hneg))

theorem firstTwo_nodup : [1, 2].Nodup := by decide

theorem firstTwo_valid : ∀ psta ∈ [1, 2], psta < numSta := by decide

theorem copyMac_size (x : ℕ) : #[(2 : UInt8), 0, 0, 0, 0, UInt8.ofNat x].size = 6 := rfl

/-- Two stations, memory for one copy, and every frame is taken. -/
def oneCopy : Env where
  stations :=
    { sta := fun x =>
        { hwaddr := ⟨#[2, 0, 0, 0, 0, UInt8.ofNat x], copyMac_size x⟩, state := { linked := true } }
      asocList := [1, 2]
      nodup := firstTwo_nodup
      valid := firstTwo_valid }
  ifUp := true
  mc2uDisable := false
  apState := true
  freeXmitframeCnt := 256
  dst := #v[0x01, 0x00, 0x5e, 0, 0, 1]
  src := #v[2, 0, 0, 0, 0, 0]
  copyOk := fun k => k = 0
  xmitRes := fun _ => 0

/-- The first station gets its copy and the frame. -/
theorem oneCopy_twice :
    (xmitEntry oneCopy).log = [.make 0, .sendTo 1 0, .send] ∧
      ¬ Once oneCopy (xmitEntry oneCopy).log := by
  have hlog : (xmitEntry oneCopy).log = [.make 0, .sendTo 1 0, .send] := by decide
  refine ⟨hlog, fun h => ?_⟩
  have hone := h.once 1 (by decide)
  rw [hlog] at hone
  exact absurd hone (by decide)

end frame

end Rtl8821au.Xmit.Mcast2Uni
