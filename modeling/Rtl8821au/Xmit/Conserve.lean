import Mathlib.Data.List.Perm.Subperm
import Mathlib.Logic.Relation
import Rtl8821au.Lib.Run
import Rtl8821au.Xmit.Queues

/-!
# What happens to a frame

The transmit queues as a system of frames that move from list to list
(`FrameStep`), its invariant, and the proof that every operation on the queues is a
sequence of such moves.

* `FrameInv.step`: a move keeps the invariant: a frame is in one list at a time, the
  list belongs to its receiver and its priority, and frames that never slept leave a
  service queue in the order in which they entered it.
* `xmitStep_moves`: the operations of the driver are sequences of moves.
-/

namespace Rtl8821au.Xmit

open Places

variable (e : Adapter)

/-! ## Moves -/

/-- Station `s` is the receiver of frame `x`, as the classifier tests it. -/
def Owner (fr : Frames) (s x : ℕ) : Prop :=
  e.rtwGetStainfo (fr.attrib x).ra = some s ∧ (fr.attrib x).psta = some s ∧
    (e.sta s).fwLinked = true

/-- The service queue `(s, ac)` is the one of frame `x`. -/
def Belongs (fr : Frames) (s : ℕ) (ac : Ac) (x : ℕ) : Prop :=
  e.rtwGetStainfo (fr.attrib x).ra = some s ∧ acIndex (fr.attrib x).txPriority = ac

instance (fr : Frames) (s : ℕ) (ac : Ac) (x : ℕ) : Decidable (Belongs e fr s ac x) := by
  unfold Belongs; infer_instance

/-- One frame moves. -/
inductive FrameStep : Frames → Frames → Prop
  | refuse (fr : Frames) (attrib : PktAttrib) :
      FrameStep fr { fr.arrive attrib with freeXmitframeCnt := fr.freeXmitframeCnt }
  | enqueue (fr : Frames) (attrib : PktAttrib) (s : ℕ) (hfree : 0 < fr.freeXmitframeCnt)
      (howner : Owner e (fr.arrive attrib) s fr.arrived) :
      FrameStep fr { fr.arrive attrib with
        queue := put fr.queue (.staPending s (acIndex attrib.txPriority)) fr.arrived
        accepted := fr.accepted ++ [fr.arrived] }
  | buffer (fr : Frames) (attrib : PktAttrib) (s : ℕ) (hfree : 0 < fr.freeXmitframeCnt)
      (howner : Owner e (fr.arrive attrib) s fr.arrived) :
      FrameStep fr { fr.arrive attrib with
        queue := put fr.queue (.sleepQ s) fr.arrived
        slept := fr.slept ++ [fr.arrived]
        accepted := fr.accepted ++ [fr.arrived] }
  | toSleep (fr : Frames) (s : ℕ) (ac : Ac) (x : ℕ) (hx : x ∈ fr.queue (.staPending s ac)) :
      FrameStep fr { fr with
        queue := move fr.queue (.sleepQ s) x
        slept := fr.slept ++ [x] }
  | requeue (fr : Frames) (s x : ℕ) (hx : x ∈ fr.queue (.sleepQ s)) :
      FrameStep fr { fr with
        queue := move fr.queue (.staPending s (acIndex (fr.attrib x).txPriority)) x }
  | handOut (fr : Frames) (s : ℕ) (ac : Ac) (x : ℕ) (rest : List ℕ)
      (hx : fr.queue (.staPending s ac) = x :: rest) :
      FrameStep fr { fr with queue := move fr.queue .handed x }
  | complete (fr : Frames) (x : ℕ) (hx : x ∈ fr.queue .handed) (hnew : x ∉ fr.freed) :
      FrameStep fr { fr with
        freeXmitframeCnt := fr.freeXmitframeCnt + 1
        freed := fr.freed ++ [x] }

/-! ## Invariant -/

/-- The list of a frame belongs to its receiver. -/
def AtHome (fr : Frames) (x : ℕ) : Place → Prop
  | .sleepQ s => Owner e fr s x ∧ x ∈ fr.slept
  | .staPending s ac => Owner e fr s x ∧ acIndex (fr.attrib x).txPriority = ac
  | .handed => True

/-- The frames of a service queue that never slept: those handed out, then those
    pending. -/
def direct (fr : Frames) (s : ℕ) (ac : Ac) : List ℕ :=
  ((fr.queue .handed).filter (fun x => Belongs e fr s ac x) ++
    fr.queue (.staPending s ac)).filter fun x => x ∉ fr.slept

/-- The invariant of the frames. -/
structure FrameInv (fr : Frames) : Prop where
  excl : Exclusive fr.queue
  home : ∀ p x, x ∈ fr.queue p → AtHome e fr x p
  placed : ∀ x, x ∈ fr.accepted ↔ Placed fr.queue x
  old : ∀ x ∈ fr.accepted, x < fr.arrived
  nodup : fr.accepted.Nodup
  fifo : ∀ s ac, (direct e fr s ac).Pairwise (· < ·)
  freedNodup : fr.freed.Nodup
  freedHanded : ∀ x ∈ fr.freed, x ∈ fr.queue .handed
  pool : fr.freeXmitframeCnt + fr.accepted.length = nrXmitframe + fr.freed.length

variable {e} {fr fr' : Frames} {s x : ℕ} {ac : Ac} {attrib : PktAttrib}

theorem FrameInv.lt_arrived (h : FrameInv e fr) {p : Place} (hx : x ∈ fr.queue p) :
    x < fr.arrived := h.old x ((h.placed x).mpr ⟨p, hx⟩)

theorem FrameInv.not_placed (h : FrameInv e fr) : ¬Placed fr.queue fr.arrived := by
  rintro ⟨p, hp⟩
  exact Nat.lt_irrefl _ (h.lt_arrived hp)

theorem FrameInv.owner (h : FrameInv e fr) (hx : x ∈ fr.queue (.staPending s ac)) :
    Owner e fr s x := (h.home _ _ hx).1

theorem FrameInv.acIndex_eq (h : FrameInv e fr) (hx : x ∈ fr.queue (.staPending s ac)) :
    acIndex (fr.attrib x).txPriority = ac := (h.home _ _ hx).2

theorem FrameInv.owner_sleepQ (h : FrameInv e fr) (hx : x ∈ fr.queue (.sleepQ s)) :
    Owner e fr s x := (h.home _ _ hx).1

/-- The new frame changes the attributes of no other. -/
theorem arrive_attrib_of_lt (hx : x < fr.arrived) : (fr.arrive attrib).attrib x = fr.attrib x :=
  Function.update_of_ne (Nat.ne_of_lt hx) ..

theorem AtHome.congr {p : Place} (h : AtHome e fr x p) (hattrib : fr'.attrib x = fr.attrib x)
    (hslept : x ∈ fr.slept → x ∈ fr'.slept) : AtHome e fr' x p := by
  cases p with
  | sleepQ s => exact ⟨by rw [Owner, hattrib]; exact h.1, hslept h.2⟩
  | staPending s ac => exact ⟨by rw [Owner, hattrib]; exact h.1, by rw [hattrib]; exact h.2⟩
  | handed => trivial

/-- The handed-out frames of a service queue depend on the attributes of these frames
    only. -/
theorem filter_belongs_congr {l : List ℕ} (h : ∀ x ∈ l, fr'.attrib x = fr.attrib x) :
    l.filter (fun x => Belongs e fr' s ac x) = l.filter fun x => Belongs e fr s ac x :=
  List.filter_congr fun x hx => by simp only [Belongs, h x hx]

theorem direct_sublist {l l' m m' : List ℕ} {p q : ℕ → Bool} (hl : l.Sublist l')
    (hm : m.Sublist m') (hpq : ∀ x, p x = true → q x = true) :
    ((l ++ m).filter p).Sublist ((l' ++ m').filter q) :=
  (List.monotone_filter_right _ hpq).trans ((hl.append hm).filter q)

/-- The new frame does not touch the frames handed out. -/
theorem FrameInv.direct_arrive (h : FrameInv e fr) (attrib : PktAttrib) (slept : List ℕ)
    {q : Place → List ℕ} (hq : q .handed = fr.queue .handed) :
    direct e { fr.arrive attrib with queue := q, slept := slept } s ac =
      ((fr.queue .handed).filter (fun x => Belongs e fr s ac x) ++ q (.staPending s ac)).filter
        fun x => x ∉ slept := by
  unfold direct
  dsimp only
  rw [hq]
  refine congrArg (List.filter _) (congrArg (· ++ _) ?_)
  exact filter_belongs_congr fun _ hx => arrive_attrib_of_lt (h.lt_arrived hx)

theorem FrameInv.refuse (h : FrameInv e fr) (attrib : PktAttrib) :
    FrameInv e { fr.arrive attrib with freeXmitframeCnt := fr.freeXmitframeCnt } where
  excl := h.excl
  home p x hx := (h.home p x hx).congr (arrive_attrib_of_lt (h.lt_arrived hx)) id
  placed := h.placed
  old x hx := Nat.lt_succ_of_lt (h.old x hx)
  nodup := h.nodup
  fifo s ac := by
    have hsame : direct e { fr.arrive attrib with queue := fr.queue, slept := fr.slept } s ac =
        direct e fr s ac := h.direct_arrive attrib fr.slept rfl
    exact hsame ▸ h.fifo s ac
  freedNodup := h.freedNodup
  freedHanded := h.freedHanded
  pool := h.pool

/-- The parts of the invariant that do not depend on the list which the new frame
    enters. -/
theorem FrameInv.accept (h : FrameInv e fr) (hfree : 0 < fr.freeXmitframeCnt) {p : Place}
    (slept : List ℕ) (hp : p ≠ .handed) (hslept : ∀ x ∈ fr.slept, x ∈ slept)
    (hhome : AtHome e { fr.arrive attrib with slept := slept } fr.arrived p)
    (hfifo : ∀ s ac, (direct e { fr.arrive attrib with
      queue := put fr.queue p fr.arrived, slept := slept } s ac).Pairwise (· < ·)) :
    FrameInv e { fr.arrive attrib with
      queue := put fr.queue p fr.arrived
      slept := slept
      accepted := fr.accepted ++ [fr.arrived] } where
  excl := h.excl.put h.not_placed
  home p' x hx := by
    rcases mem_put.mp hx with hx | ⟨hxa, hpp⟩
    · exact (h.home p' x hx).congr (arrive_attrib_of_lt (h.lt_arrived hx)) (hslept x)
    · rw [hxa, hpp]
      exact hhome
  placed x := by
    show x ∈ fr.accepted ++ [fr.arrived] ↔ Placed (put fr.queue p fr.arrived) x
    rw [List.mem_append, List.mem_singleton, h.placed]
    constructor
    · rintro (⟨p', hp'⟩ | hxa)
      · exact ⟨p', mem_put.mpr (Or.inl hp')⟩
      · exact ⟨p, mem_put.mpr (Or.inr ⟨hxa, rfl⟩)⟩
    · rintro ⟨p', hp'⟩
      rcases mem_put.mp hp' with hp' | ⟨hxa, -⟩
      · exact Or.inl ⟨p', hp'⟩
      · exact Or.inr hxa
  old x hx := by
    show x < fr.arrived + 1
    rcases List.mem_append.mp hx with hx | hx
    · exact Nat.lt_succ_of_lt (h.old x hx)
    · rw [List.mem_singleton.mp hx]
      exact Nat.lt_succ_self _
  nodup := by
    show (fr.accepted ++ [fr.arrived]).Nodup
    refine List.nodup_append.mpr ⟨h.nodup, List.nodup_singleton _, fun a ha b hb hab => ?_⟩
    have := h.old a ha
    rw [hab, List.mem_singleton.mp hb] at this
    exact Nat.lt_irrefl _ this
  fifo := hfifo
  freedNodup := h.freedNodup
  freedHanded x hx := by
    show x ∈ put fr.queue p fr.arrived .handed
    rw [put_of_ne hp.symm]
    exact h.freedHanded x hx
  pool := by
    have := h.pool
    show fr.freeXmitframeCnt - 1 + (fr.accepted ++ [fr.arrived]).length =
      nrXmitframe + fr.freed.length
    rw [List.length_append, List.length_singleton]
    omega

theorem FrameInv.enqueue (h : FrameInv e fr) (hfree : 0 < fr.freeXmitframeCnt)
    (howner : Owner e (fr.arrive attrib) s fr.arrived) :
    FrameInv e { fr.arrive attrib with
      queue := put fr.queue (.staPending s (acIndex attrib.txPriority)) fr.arrived
      accepted := fr.accepted ++ [fr.arrived] } := by
  have hself : (fr.arrive attrib).attrib fr.arrived = attrib := Function.update_self ..
  refine h.accept hfree fr.slept (by simp) (fun _ => id) ⟨howner, by rw [hself]⟩
    fun s' ac' => ?_
  rw [h.direct_arrive _ _ (put_of_ne (by simp))]
  by_cases heq : Place.staPending s' ac' = .staPending s (acIndex attrib.txPriority)
  · rw [heq, put_self, ← heq, ← List.append_assoc, List.filter_append]
    refine List.pairwise_append.mpr ⟨h.fifo s' ac', ?_, fun a ha b hb => ?_⟩
    · exact (List.pairwise_singleton _ _).sublist List.filter_sublist
    · -- every earlier frame has a smaller number
      rw [List.mem_singleton.mp (List.mem_of_mem_filter hb)]
      rcases List.mem_append.mp (List.mem_of_mem_filter ha) with ha | ha
      · exact h.lt_arrived (List.mem_of_mem_filter ha)
      · exact h.lt_arrived ha
  · rw [put_of_ne heq]
    exact h.fifo s' ac'

theorem FrameInv.buffer (h : FrameInv e fr) (hfree : 0 < fr.freeXmitframeCnt)
    (howner : Owner e (fr.arrive attrib) s fr.arrived) :
    FrameInv e { fr.arrive attrib with
      queue := put fr.queue (.sleepQ s) fr.arrived
      slept := fr.slept ++ [fr.arrived]
      accepted := fr.accepted ++ [fr.arrived] } := by
  refine h.accept hfree _ (by simp) (fun x hx => List.mem_append_left _ hx)
    ⟨howner, List.mem_append_right _ (List.mem_singleton.mpr rfl)⟩ fun s' ac' => ?_
  rw [h.direct_arrive _ _ (put_of_ne (by simp)), put_of_ne (by simp)]
  refine (h.fifo s' ac').sublist (direct_sublist (List.Sublist.refl _) (List.Sublist.refl _) ?_)
  intro x hx
  simp only [List.mem_append, not_or, decide_eq_true_eq] at hx ⊢
  exact hx.1

/-- The parts of the invariant that do not depend on where a frame moves. -/
theorem FrameInv.move (h : FrameInv e fr) {p : Place} (slept : List ℕ)
    (hx : Placed fr.queue x) (hout : x ∉ fr.queue .handed) (hslept : ∀ x ∈ fr.slept, x ∈ slept)
    (hhome : AtHome e { fr with slept := slept } x p)
    (hfifo : ∀ s ac, (direct e { fr with
      queue := move fr.queue p x, slept := slept } s ac).Pairwise (· < ·)) :
    FrameInv e { fr with queue := move fr.queue p x, slept := slept } where
  excl := h.excl.move p x
  home p' y hy := by
    rcases (mem_move h.excl).mp hy with ⟨-, hy⟩ | ⟨hyx, hpp⟩
    · exact (h.home p' y hy).congr rfl (hslept y)
    · rw [hyx, hpp]
      exact hhome
  placed y := by
    show y ∈ fr.accepted ↔ Placed (Places.move fr.queue p x) y
    rw [placed_move h.excl, h.placed]
    constructor
    · exact Or.inr
    · rintro (hyx | hy)
      · exact hyx ▸ hx
      · exact hy
  old := h.old
  nodup := h.nodup
  fifo := hfifo
  freedNodup := h.freedNodup
  freedHanded y hy := by
    have hin := h.freedHanded y hy
    exact (mem_move h.excl).mpr (Or.inl ⟨fun hyx => hout (hyx ▸ hin), hin⟩)
  pool := h.pool

/-- A frame that is moved into a sleep queue, or out of it once it has slept, leaves
    the order of the others as it is. -/
theorem direct_move_sublist {p : Place} {slept : List ℕ}
    (hp : p ≠ .handed) (hslept : ∀ x ∈ fr.slept, x ∈ slept) (hx : x ∈ slept) :
    (direct e { fr with queue := Places.move fr.queue p x, slept := slept } s ac).Sublist
      (direct e fr s ac) := by
  have hout : ∀ y, decide (y ∉ slept) = true → decide (y ∉ fr.slept) = true := by
    intro y hy
    simp only [decide_eq_true_eq] at hy ⊢
    exact fun hin => hy (hslept y hin)
  have hdel : ∀ p', (del fr.queue x p').Sublist (fr.queue p') := fun p' => List.erase_sublist
  have hhanded : Places.move fr.queue p x .handed = del fr.queue x .handed := put_of_ne hp.symm
  unfold direct
  dsimp only
  rw [hhanded]
  by_cases heq : Place.staPending s ac = p
  · rw [heq, Places.move, put_self, ← List.append_assoc, List.filter_append, ← heq]
    have hnil : [x].filter (fun y => decide (y ∉ slept)) = [] := by simp [hx]
    rw [hnil, List.append_nil]
    exact direct_sublist ((hdel _).filter _) (hdel _) hout
  · rw [Places.move, put_of_ne heq]
    exact direct_sublist ((hdel _).filter _) (hdel _) hout

theorem FrameInv.toSleep (h : FrameInv e fr) (hx : x ∈ fr.queue (.staPending s ac)) :
    FrameInv e { fr with
      queue := Places.move fr.queue (.sleepQ s) x
      slept := fr.slept ++ [x] } := by
  have hself : x ∈ fr.slept ++ [x] := List.mem_append_right _ (List.mem_singleton.mpr rfl)
  have hmono : ∀ y ∈ fr.slept, y ∈ fr.slept ++ [x] := fun y hy => List.mem_append_left _ hy
  refine h.move _ ⟨_, hx⟩ (fun hh => nomatch h.excl.unique hx hh) hmono ⟨h.owner hx, hself⟩
    fun s' ac' => ?_
  exact (h.fifo s' ac').sublist (direct_move_sublist (by simp) hmono hself)

theorem FrameInv.requeue (h : FrameInv e fr) (hx : x ∈ fr.queue (.sleepQ s)) :
    FrameInv e { fr with
      queue := Places.move fr.queue (.staPending s (acIndex (fr.attrib x).txPriority)) x } := by
  refine h.move fr.slept ⟨_, hx⟩ (fun hh => nomatch h.excl.unique hx hh)
    (fun _ => id) ⟨h.owner_sleepQ hx, rfl⟩ fun s' ac' => ?_
  exact (h.fifo s' ac').sublist
    (direct_move_sublist (by simp) (fun _ => id) (h.home _ _ hx).2)

/-- The frame at the head of a service queue is the next of this queue to be handed
    out. -/
theorem FrameInv.direct_handOut (h : FrameInv e fr) {rest : List ℕ}
    (hx : fr.queue (.staPending s ac) = x :: rest) (s' : ℕ) (ac' : Ac) :
    direct e { fr with queue := Places.move fr.queue .handed x } s' ac' = direct e fr s' ac' := by
  have hmem : x ∈ fr.queue (.staPending s ac) := by rw [hx]; exact List.mem_cons_self
  obtain ⟨hhead, hhanded, hother⟩ := move_head h.excl hx (i := .handed) (by simp)
  unfold direct
  dsimp only
  rw [hhanded]
  show ((fr.queue .handed ++ [x]).filter (fun y => decide (Belongs e fr s' ac' y)) ++ _).filter _ = _
  rw [List.filter_append (fr.queue .handed)]
  by_cases heq : Place.staPending s' ac' = .staPending s ac
  · obtain ⟨rfl, rfl⟩ := Place.staPending.inj heq
    have hb : Belongs e fr s' ac' x := ⟨(h.owner hmem).1, h.acIndex_eq hmem⟩
    rw [hhead, hx, List.append_assoc, List.filter_cons_of_pos (by simp [hb])]
    rfl
  · have hb : ¬Belongs e fr s' ac' x := by
      rintro ⟨h1, h2⟩
      rw [(h.owner hmem).1] at h1
      exact heq (by rw [← Option.some.inj h1, ← h2, h.acIndex_eq hmem])
    rw [hother _ (by simp) heq, List.filter_cons_of_neg (by simp [hb]), List.filter_nil,
      List.append_nil]

theorem FrameInv.handOut (h : FrameInv e fr) {rest : List ℕ}
    (hx : fr.queue (.staPending s ac) = x :: rest) :
    FrameInv e { fr with queue := Places.move fr.queue .handed x } where
  excl := h.excl.move _ x
  home p y hy := by
    rcases (mem_move h.excl).mp hy with ⟨-, hy⟩ | ⟨-, hp⟩
    · exact h.home p y hy
    · rw [hp]
      trivial
  placed y := by
    show y ∈ fr.accepted ↔ Placed (Places.move fr.queue .handed x) y
    rw [placed_move h.excl, h.placed]
    constructor
    · exact Or.inr
    · rintro (hyx | hy)
      · exact ⟨.staPending s ac, by rw [hx, hyx]; exact List.mem_cons_self⟩
      · exact hy
  old := h.old
  nodup := h.nodup
  fifo s' ac' := by
    rw [h.direct_handOut hx]
    exact h.fifo s' ac'
  freedNodup := h.freedNodup
  freedHanded y hy := by
    show y ∈ Places.move fr.queue .handed x .handed
    by_cases hyx : y = x
    · exact (mem_move h.excl).mpr (Or.inr ⟨hyx, rfl⟩)
    · exact (mem_move h.excl).mpr (Or.inl ⟨hyx, h.freedHanded y hy⟩)
  pool := h.pool

theorem FrameInv.complete (h : FrameInv e fr) (hx : x ∈ fr.queue .handed) (hnew : x ∉ fr.freed) :
    FrameInv e { fr with
      freeXmitframeCnt := fr.freeXmitframeCnt + 1
      freed := fr.freed ++ [x] } where
  excl := h.excl
  home := h.home
  placed := h.placed
  old := h.old
  nodup := h.nodup
  fifo := h.fifo
  freedNodup := by
    refine List.nodup_append.mpr ⟨h.freedNodup, List.nodup_singleton _, fun a ha b hb hab => ?_⟩
    exact hnew (List.mem_singleton.mp hb ▸ hab ▸ ha)
  freedHanded y hy := by
    rcases List.mem_append.mp hy with hy | hy
    · exact h.freedHanded y hy
    · rw [List.mem_singleton.mp hy]
      exact hx
  pool := by
    have := h.pool
    show fr.freeXmitframeCnt + 1 + fr.accepted.length =
      nrXmitframe + (fr.freed ++ [x]).length
    rw [List.length_append, List.length_singleton]
    omega

/-- A move keeps the invariant. -/
theorem FrameInv.step (h : FrameInv e fr) (hstep : FrameStep e fr fr') : FrameInv e fr' := by
  cases hstep with
  | refuse attrib => exact h.refuse attrib
  | enqueue attrib s hfree howner => exact h.enqueue hfree howner
  | buffer attrib s hfree howner => exact h.buffer hfree howner
  | toSleep s ac x hx => exact h.toSleep hx
  | requeue s x hx => exact h.requeue hx
  | handOut s ac x rest hx => exact h.handOut hx
  | complete x hx hnew => exact h.complete hx hnew

/-- Any number of moves. -/
abbrev FrameSteps (e : Adapter) : Frames → Frames → Prop := Relation.ReflTransGen (FrameStep e)

/-- The pool bounds every sleep queue. -/
theorem FrameInv.sleepQ_length (h : FrameInv e fr) (s : ℕ) :
    (fr.queue (.sleepQ s)).length ≤ nrXmitframe := by
  have hdisj : (fr.queue (.sleepQ s) ++ fr.freed).Nodup := by
    refine List.nodup_append.mpr ⟨h.excl.nodup _, h.freedNodup, fun a ha b hb hab => ?_⟩
    have hin := h.freedHanded b hb
    rw [← hab] at hin
    exact nomatch h.excl.unique ha hin
  have hsub : fr.queue (.sleepQ s) ++ fr.freed ⊆ fr.accepted := by
    intro y hy
    rcases List.mem_append.mp hy with hy | hy
    · exact (h.placed y).mpr ⟨_, hy⟩
    · exact (h.placed y).mpr ⟨_, h.freedHanded y hy⟩
  have hlen := (List.subperm_of_subset hdisj hsub).length_le
  have := h.pool
  rw [List.length_append] at hlen
  omega

/-! ## The functions -/

section functions

variable {st st' : XmitState}

@[simp] theorem enqueueServq_toFrames (st : XmitState) (s x : ℕ) :
    (enqueueServq st s x).toFrames = { st.toFrames with
      queue := put st.queue (.staPending s (acIndex (st.attrib x).txPriority)) x } := by
  dsimp only [enqueueServq]
  split_ifs <;> rfl

@[simp] theorem enqueueServq_sleep (st : XmitState) (s x : ℕ) :
    (enqueueServq st s x).sleep = st.sleep := by
  dsimp only [enqueueServq]
  split_ifs <;> rfl

@[simp] theorem enqueueServq_releases (st : XmitState) (s x : ℕ) :
    (enqueueServq st s x).releases = st.releases := by
  dsimp only [enqueueServq]
  split_ifs <;> rfl

theorem rtwXmitClassifier_of_owner (h : Owner e st.toFrames s x) :
    rtwXmitClassifier e st x = some (enqueueServq st s x) := by
  obtain ⟨hlookup, hpsta, hlinked⟩ := h
  simp only [rtwXmitClassifier, hlookup, hpsta, hlinked, ne_eq, not_true_eq_false, if_false,
    Bool.true_eq_false]

theorem owner_of_rtwXmitClassifier (h : rtwXmitClassifier e st x = some st') :
    ∃ s, Owner e st.toFrames s x ∧ st' = enqueueServq st s x := by
  unfold rtwXmitClassifier at h
  dsimp only at h
  split_ifs at h with hpsta
  have hpsta := not_not.mp hpsta
  cases hlookup : e.rtwGetStainfo (st.attrib x).ra with
  | none => rw [hlookup] at h; cases h
  | some s =>
    rw [hlookup] at h
    dsimp only at h
    split_ifs at h with hlinked
    refine ⟨s, ⟨hlookup, hpsta.trans hlookup, by simpa using hlinked⟩, (Option.some.inj h).symm⟩

/-- The receiver of a sleeping frame still is its receiver. -/
theorem releaseFrame_eq {s' len acLen : ℕ} {flags : PktFlags} (h : Owner e st.toFrames s' x) :
    releaseFrame e st s x len acLen flags =
      enqueueServq (unlinkFrame st s x len acLen flags) s' x := by
  have h' : Owner e (unlinkFrame st s x len acLen flags).toFrames s' x := h
  simp only [releaseFrame, halXmitframeEnqueue, rtwXmitClassifier_of_owner h']

theorem releaseFrame_toFrames {len acLen : ℕ} {flags : PktFlags} (h : Owner e st.toFrames s x) :
    (releaseFrame e st s x len acLen flags).toFrames = { st.toFrames with
      queue := Places.move st.queue (.staPending s (acIndex (st.attrib x).txPriority)) x } := by
  rw [releaseFrame_eq h, enqueueServq_toFrames]
  rfl

theorem releaseFrame_queue {len acLen : ℕ} {flags : PktFlags} (h : Owner e st.toFrames s x) :
    (releaseFrame e st s x len acLen flags).queue =
      Places.move st.queue (.staPending s (acIndex (st.attrib x).txPriority)) x :=
  congrArg Frames.queue (releaseFrame_toFrames h)

/-- What `xmitframe_enqueue_for_sleeping_sta` asks of a frame of station `s`. -/
def Takes (e : Adapter) (st : XmitState) (s x : ℕ) : Prop :=
  e.wifiApState = true ∧ (st.flags x).triggered = false ∧
    if isMulticast (st.attrib x).ra then st.staDzBitmap ≠ 0
    else (st.sleep s).sleepState = true ∧ st.staDzBitmap &&& bit (e.sta s).aid ≠ 0

instance (st : XmitState) (s x : ℕ) : Decidable (Takes e st s x) := by
  unfold Takes; infer_instance

/-- A frame to one station whose access category is delivery enabled
    (`sta_info.h`, line 190). -/
def deliveryEnabled (e : Adapter) (fr : Frames) (s x : ℕ) : Bool :=
  !isMulticast (fr.attrib x).ra && (e.sta s).wmmpsAc (fr.attrib x).txPriority 0

/-- The frame enters the sleep queue of its station. -/
def bufferFrame (e : Adapter) (st : XmitState) (s x : ℕ) : XmitState :=
  if isMulticast (st.attrib x).ra then bufferBcmc st s x else bufferUnicast e st s x

@[simp] theorem bufferFrame_toFrames (st : XmitState) (s x : ℕ) :
    (bufferFrame e st s x).toFrames = { st.toFrames with
      queue := Places.move st.queue (.sleepQ s) x
      slept := st.slept ++ [x] } := by
  unfold bufferFrame
  split_ifs <;> rfl

@[simp] theorem bufferFrame_staQueue (st : XmitState) (s x : ℕ) :
    (bufferFrame e st s x).staQueue = st.staQueue := by
  unfold bufferFrame
  split_ifs <;> rfl

@[simp] theorem bufferFrame_releases (st : XmitState) (s x : ℕ) :
    (bufferFrame e st s x).releases = st.releases := by
  unfold bufferFrame
  split_ifs <;> rfl

@[simp] theorem bufferFrame_flags (st : XmitState) (s x : ℕ) :
    (bufferFrame e st s x).flags = st.flags := by
  unfold bufferFrame
  split_ifs <;> rfl

theorem bufferFrame_sleep (st : XmitState) (s x : ℕ) :
    (bufferFrame e st s x).sleep = Function.update st.sleep s { st.sleep s with
      sleepqLen := incU32 (st.sleep s).sleepqLen
      sleepqAcLen :=
        if deliveryEnabled e st.toFrames s x then incU32 (st.sleep s).sleepqAcLen
        else (st.sleep s).sleepqAcLen } := by
  unfold bufferFrame deliveryEnabled
  by_cases hm : isMulticast (st.attrib x).ra = true
  · simp only [hm, if_true, Bool.not_true, Bool.false_and, Bool.false_eq_true, if_false]
    rfl
  · simp only [hm, if_false, Bool.not_false, Bool.true_and, Bool.false_eq_true]
    rfl

theorem bufferFrame_staDzBitmap (st : XmitState) (s x : ℕ) :
    (bufferFrame e st s x).staDzBitmap = st.staDzBitmap ∨
      (bufferFrame e st s x).staDzBitmap = st.staDzBitmap ||| bit 0 := by
  unfold bufferFrame
  split_ifs
  · exact Or.inr rfl
  · exact Or.inl rfl

theorem enqueueForSleeping_takes (howner : Owner e st.toFrames s x) (h : Takes e st s x) :
    xmitframeEnqueueForSleepingSta e st x = (true, bufferFrame e st s x) := by
  obtain ⟨hlookup, hpsta, hlinked⟩ := howner
  obtain ⟨hap, htrig, htake⟩ := h
  simp only [xmitframeEnqueueForSleepingSta, hap, hlookup, hpsta, hlinked, htrig, bufferFrame,
    ne_eq, not_true_eq_false, if_false, Bool.true_eq_false, Bool.false_eq_true]
  split_ifs at htake ⊢ <;> rfl

/-- At most the hardware queue of a frame has changed. -/
def SameFlags (st : XmitState) (flags : ℕ → PktFlags) : Prop :=
  ∀ y, (flags y).triggered = (st.flags y).triggered ∧ (flags y).eosp = (st.flags y).eosp

/-- A frame that is not taken stays where it is. -/
theorem enqueueForSleeping_leaves (h : ∀ s, Owner e st.toFrames s x → ¬Takes e st s x) :
    ∃ flags, SameFlags st flags ∧
      xmitframeEnqueueForSleepingSta e st x = (false, { st with flags := flags }) := by
  have hsame : ∃ flags, SameFlags st flags ∧
      ((false, st) : Bool × XmitState) = (false, { st with flags := flags }) :=
    ⟨st.flags, fun _ => ⟨rfl, rfl⟩, rfl⟩
  have hqsel : SameFlags st (Function.update st.flags x { st.flags x with txQsel := 0x11 }) := by
    intro y
    by_cases hy : y = x
    · rw [hy, Function.update_self]
      exact ⟨rfl, rfl⟩
    · rw [Function.update_of_ne hy]
      exact ⟨rfl, rfl⟩
  unfold xmitframeEnqueueForSleepingSta
  dsimp only
  cases hlookup : e.rtwGetStainfo (st.attrib x).ra with
  | none =>
    dsimp only
    split_ifs <;> exact hsame
  | some s =>
    dsimp only
    split_ifs with hap hpsta hlinked htrig hm hm hdz hsleep
    · exact hsame
    · exact hsame
    · exact hsame
    · exact ⟨_, hqsel, rfl⟩
    · exact hsame
    · exact absurd ⟨by simpa using hap, by simpa using htrig, by rw [if_pos hm]; exact hdz⟩
        (h s ⟨hlookup, not_not.mp hpsta, by simpa using hlinked⟩)
    · exact hsame
    · exact absurd ⟨by simpa using hap, by simpa using htrig, by rw [if_neg hm]; exact hsleep⟩
        (h s ⟨hlookup, not_not.mp hpsta, by simpa using hlinked⟩)
    · exact hsame

/-- What `xmitframe_enqueue_for_sleeping_sta` does to a frame. -/
theorem enqueueForSleeping_cases (st : XmitState) (x : ℕ) :
    (∃ s, Owner e st.toFrames s x ∧ Takes e st s x ∧
      xmitframeEnqueueForSleepingSta e st x = (true, bufferFrame e st s x)) ∨
    (∃ flags, SameFlags st flags ∧
      xmitframeEnqueueForSleepingSta e st x = (false, { st with flags := flags })) := by
  by_cases h : ∃ s, Owner e st.toFrames s x ∧ Takes e st s x
  · obtain ⟨s, howner, htakes⟩ := h
    exact Or.inl ⟨s, howner, htakes, enqueueForSleeping_takes howner htakes⟩
  · exact Or.inr (enqueueForSleeping_leaves fun s howner htakes => h ⟨s, howner, htakes⟩)

/-- The first service queue with a frame loses its head. -/
theorem dequeueHwxmit_some {l : List ℕ} (h : dequeueHwxmit st ac l = some (x, st')) :
    ∃ s ∈ l, ∃ rest, st.queue (.staPending s ac) = x :: rest ∧
      st' =
        if rest = [] then unlinkServq { st with queue := del st.queue x } s ac
        else { st with queue := del st.queue x } := by
  induction l with
  | nil => cases h
  | cons s l ih =>
    rw [dequeueHwxmit] at h
    cases hq : st.queue (.staPending s ac) with
    | nil =>
      rw [hq] at h
      obtain ⟨s', hs', hrest⟩ := ih h
      exact ⟨s', List.mem_cons_of_mem s hs', hrest⟩
    | cons y rest =>
      rw [hq] at h
      obtain ⟨rfl, rfl⟩ := Prod.mk.inj (Option.some.inj h)
      have herase : del st.queue y (.staPending s ac) = rest := by
        rw [del, hq, List.erase_cons_head]
      exact ⟨s, List.mem_cons_self, rest, hq, by simp only [herase]⟩

theorem dequeueHwxmit_none {l : List ℕ} (h : dequeueHwxmit st ac l = none) :
    ∀ s ∈ l, st.queue (.staPending s ac) = [] := by
  induction l with
  | nil => exact fun s hs => absurd hs List.not_mem_nil
  | cons s l ih =>
    intro s' hs'
    rw [dequeueHwxmit] at h
    cases hq : st.queue (.staPending s ac) with
    | nil =>
      rw [hq] at h
      rcases List.mem_cons.mp hs' with rfl | hs'
      · exact hq
      · exact ih h s' hs'
    | cons y rest =>
      rw [hq] at h
      cases h

theorem rtwDequeueXframe_some (h : rtwDequeueXframe st = some (x, st')) :
    ∃ s ac rest, s ∈ st.staQueue ac ∧ st.queue (.staPending s ac) = x :: rest ∧
      st' =
        if rest = [] then unlinkServq { st with queue := del st.queue x } s ac
        else { st with queue := del st.queue x } := by
  obtain ⟨ac, -, hac⟩ := List.exists_of_findSome?_eq_some h
  obtain ⟨s, hs, rest, hrest, hst⟩ := dequeueHwxmit_some hac
  exact ⟨s, ac, rest, hs, hrest, hst⟩

theorem rtwDequeueXframe_none (h : rtwDequeueXframe st = none) (hs : s ∈ st.staQueue ac) :
    st.queue (.staPending s ac) = [] := by
  have hac := List.findSome?_eq_none_iff.mp h ac (by cases ac <;> simp)
  exact dequeueHwxmit_none hac s hs

/-! ## The operations -/

/-- The frames have moved, and the invariant with them. -/
def Moved (e : Adapter) (fr fr' : Frames) : Prop := FrameInv e fr' ∧ FrameSteps e fr fr'

theorem Moved.refl (h : FrameInv e fr) : Moved e fr fr := ⟨h, Relation.ReflTransGen.refl⟩

theorem Moved.trans {fr'' : Frames} (h : Moved e fr fr') (h' : Moved e fr' fr'') :
    Moved e fr fr'' := ⟨h'.1, h.2.trans h'.2⟩

theorem Moved.of_step (h : FrameInv e fr) (hstep : FrameStep e fr fr') : Moved e fr fr' :=
  ⟨h.step hstep, Relation.ReflTransGen.single hstep⟩

theorem Owner.unique {s' : ℕ} (h : Owner e fr s x) (h' : Owner e fr s' x) : s = s' :=
  Option.some.inj (h.1.symm.trans h'.1)

/-- Stopping a service queue moves frames of this queue only. -/
theorem stopServq_moved (h : FrameInv e st.toFrames) (s : ℕ) (ac : Ac) :
    Moved e st.toFrames (stopServq e st s ac).toFrames := by
  show Moved e st.toFrames (dequeueXmitframesToSleepingQueue e st s ac).toFrames
  refine Run.foldl_of_mem (P := fun st' : XmitState => Moved e st.toFrames st'.toFrames)
    (M := fun (st' : XmitState) x => x ∈ st'.queue (.staPending s ac)) ?_ (h.excl.nodup _) (fun _ => id)
    (Moved.refl h)
  intro st' x hmoved hx
  rcases enqueueForSleeping_cases (e := e) st' x with ⟨s', howner, -, heq⟩ | ⟨flags, -, heq⟩
  · obtain rfl : s = s' := (hmoved.1.owner hx).unique howner
    rw [heq]
    dsimp only
    rw [bufferFrame_toFrames]
    refine ⟨hmoved.trans (Moved.of_step hmoved.1 (.toSleep _ s ac x hx)), fun y hy hyx => ?_⟩
    exact (mem_move (i := .sleepQ s) hmoved.1.excl).mpr (Or.inl ⟨hyx, hy⟩)
  · rw [heq]
    exact ⟨hmoved, fun y hy _ => hy⟩

theorem releaseFrame_moved (h : FrameInv e st.toFrames) (hx : x ∈ st.queue (.sleepQ s))
    (len acLen : ℕ) (flags : PktFlags) :
    Moved e st.toFrames (releaseFrame e st s x len acLen flags).toFrames := by
  rw [releaseFrame_toFrames (h.owner_sleepQ hx)]
  exact Moved.of_step h (FrameStep.requeue _ s x hx)

/-- A loop whose body releases frames of one sleep queue. -/
theorem foldl_release_moved {f : XmitState → ℕ → XmitState}
    (hf : ∀ st x, f st x = st ∨ ∃ len acLen flags,
      (f st x).toFrames = (releaseFrame e st s x len acLen flags).toFrames)
    (h : FrameInv e st.toFrames) :
    Moved e st.toFrames ((st.queue (.sleepQ s)).foldl f st).toFrames := by
  refine Run.foldl_of_mem (P := fun st' : XmitState => Moved e st.toFrames st'.toFrames)
    (M := fun (st' : XmitState) x => x ∈ st'.queue (.sleepQ s)) ?_ (h.excl.nodup _) (fun _ => id)
    (Moved.refl h)
  intro st' x hmoved hx
  rcases hf st' x with heq | ⟨len, acLen, flags, heq⟩
  · rw [heq]
    exact ⟨hmoved, fun y hy _ => hy⟩
  · have howner := hmoved.1.owner_sleepQ hx
    rw [heq]
    refine ⟨hmoved.trans (releaseFrame_moved hmoved.1 hx len acLen flags), fun y hy hyx => ?_⟩
    rw [releaseFrame_queue howner]
    exact (mem_move hmoved.1.excl).mpr (Or.inl ⟨hyx, hy⟩)

theorem wakeupFrame_moved (h : FrameInv e st.toFrames) :
    Moved e st.toFrames ((st.queue (.sleepQ s)).foldl (wakeupFrame e s) st).toFrames :=
  foldl_release_moved (fun _ _ => Or.inr ⟨_, _, _, rfl⟩) h

theorem wakeupBcmcFrame_moved (h : FrameInv e st.toFrames) :
    Moved e st.toFrames ((st.queue (.sleepQ s)).foldl (wakeupBcmcFrame e s) st).toFrames :=
  foldl_release_moved (fun _ _ => Or.inr ⟨_, _, _, rfl⟩) h

theorem xmitDeliveryEnabledFrames_moved (h : FrameInv e st.toFrames) (s : ℕ) :
    Moved e st.toFrames (xmitDeliveryEnabledFrames e st s).toFrames := by
  refine foldl_release_moved (fun st x => ?_) h
  unfold deliveryFrame
  dsimp only
  split_ifs
  · exact Or.inl rfl
  · exact Or.inr ⟨_, _, _, rfl⟩
  · exact Or.inr ⟨_, _, _, rfl⟩

@[simp] theorem wakeupDone_toFrames (st : XmitState) (s : ℕ) :
    (wakeupDone e st s).toFrames = st.toFrames := by
  unfold wakeupDone
  split_ifs <;> rfl

theorem wakeupStaToXmit_moved (h : FrameInv e st.toFrames) (s : ℕ) :
    Moved e st.toFrames (wakeupStaToXmit e st s).toFrames := by
  have hsta := wakeupFrame_moved (s := s) h
  unfold wakeupStaToXmit
  cases e.rtwGetBcmcStainfo with
  | none => exact hsta
  | some b =>
    dsimp only
    rw [wakeupDone_toFrames]
    split_ifs
    · exact hsta.trans (wakeupBcmcFrame_moved hsta.1)
    · exact hsta.trans (wakeupBcmcFrame_moved hsta.1)
    · exact hsta

theorem stopStaXmit_moved (h : FrameInv e st.toFrames) (s : ℕ) :
    Moved e st.toFrames (stopStaXmit e st s).toFrames := by
  have hmark : Moved e st.toFrames (markAsleep e st s).toFrames := Moved.refl h
  have hvo := hmark.trans (stopServq_moved hmark.1 s .vo)
  have hvi := hvo.trans (stopServq_moved hvo.1 s .vi)
  have hbe := hvi.trans (stopServq_moved hvi.1 s .be)
  have hbk := hbe.trans (stopServq_moved hbe.1 s .bk)
  unfold stopStaXmit
  cases e.rtwGetBcmcStainfo with
  | none => exact hbk
  | some b => exact hbk.trans (stopServq_moved hbk.1 b .be)

theorem answerPsPoll_moved (st : XmitState) (h : FrameInv e st.toFrames) (s : ℕ) :
    Moved e st.toFrames (answerPsPoll e st s).toFrames := by
  unfold answerPsPoll
  cases hq : st.queue (.sleepQ s) with
  | nil =>
    dsimp only
    split_ifs <;> exact Moved.refl h
  | cons x rest =>
    have hx : x ∈ st.queue (.sleepQ s) := by rw [hq]; exact List.mem_cons_self
    dsimp only
    split_ifs <;> exact releaseFrame_moved h hx _ _ _

theorem recvPsPoll_moved (h : FrameInv e st.toFrames) (addr2 : Recv.MacAddr) (aid priority : ℕ) :
    Moved e st.toFrames (recvPsPoll e st addr2 aid priority).toFrames := by
  unfold recvPsPoll
  cases e.rtwGetStainfo addr2 with
  | none => exact Moved.refl h
  | some s =>
    dsimp only
    split_ifs
    · exact Moved.refl h
    · exact Moved.refl h
    · exact answerPsPoll_moved (setSleep st s _) h s
    · exact Moved.refl h
    · exact answerPsPoll_moved st h s
    · exact Moved.refl h

/-- A frame that did not get in leaves the pool as it was. -/
theorem refuse_moved (h : FrameInv e fr) (hfree : 0 < fr.freeXmitframeCnt) (attrib : PktAttrib) :
    Moved e fr { fr.arrive attrib with
      queue := del fr.queue fr.arrived
      freeXmitframeCnt := fr.freeXmitframeCnt - 1 + 1 } := by
  rw [del_of_not_placed h.not_placed, Nat.sub_add_cancel hfree]
  exact Moved.of_step h (FrameStep.refuse fr attrib)

theorem enqueue_moved (h : FrameInv e st.toFrames) (attrib : PktAttrib) :
    Moved e st.toFrames (xmitStep e st (.enqueue attrib)).toFrames := by
  unfold xmitStep
  dsimp only
  split_ifs with hfree
  · exact Moved.refl h
  · have hfree : 0 < st.freeXmitframeCnt := Nat.pos_of_ne_zero hfree
    unfold halXmitframeEnqueue
    cases hc : rtwXmitClassifier e (arrive st attrib) st.arrived with
    | none => exact refuse_moved h hfree attrib
    | some st' =>
      obtain ⟨s, howner, rfl⟩ := owner_of_rtwXmitClassifier hc
      have hself : (arrive st attrib).attrib st.arrived = attrib := Function.update_self ..
      show Moved e st.toFrames { (enqueueServq (arrive st attrib) s st.arrived).toFrames with
        accepted := (enqueueServq (arrive st attrib) s st.arrived).accepted ++ [st.arrived] }
      rw [enqueueServq_toFrames, hself]
      exact Moved.of_step h (FrameStep.enqueue _ attrib s hfree howner)

theorem buffer_moved (h : FrameInv e st.toFrames) (attrib : PktAttrib) :
    Moved e st.toFrames (xmitStep e st (.buffer attrib)).toFrames := by
  unfold xmitStep
  dsimp only
  split_ifs with hfree
  · exact Moved.refl h
  · have hfree : 0 < st.freeXmitframeCnt := Nat.pos_of_ne_zero hfree
    rcases enqueueForSleeping_cases (e := e) (arrive st attrib) st.arrived with
      ⟨s, howner, -, heq⟩ | ⟨flags, -, heq⟩
    · rw [heq]
      show Moved e st.toFrames { (bufferFrame e (arrive st attrib) s st.arrived).toFrames with
        accepted := (bufferFrame e (arrive st attrib) s st.arrived).accepted ++ [st.arrived] }
      rw [bufferFrame_toFrames]
      have hmove : Places.move (arrive st attrib).queue (.sleepQ s) st.arrived =
          put st.queue (.sleepQ s) st.arrived := by
        show put (del st.queue st.arrived) _ _ = _
        rw [del_of_not_placed h.not_placed]
      rw [hmove]
      exact Moved.of_step h (FrameStep.buffer _ attrib s hfree howner)
    · rw [heq]
      exact refuse_moved h hfree attrib

theorem dequeue_moved (h : FrameInv e st.toFrames) :
    Moved e st.toFrames (xmitStep e st .dequeue).toFrames := by
  unfold xmitStep
  dsimp only
  cases hd : rtwDequeueXframe st with
  | none => exact Moved.refl h
  | some r =>
    obtain ⟨x, st'⟩ := r
    obtain ⟨s, ac, rest, -, hq, rfl⟩ := rtwDequeueXframe_some hd
    have hstep := Moved.of_step h (FrameStep.handOut _ s ac x rest hq)
    dsimp only
    split_ifs
    · exact hstep
    · exact hstep

/-- The operations of the driver are sequences of moves. -/
theorem xmitStep_moved (h : FrameInv e st.toFrames) (op : XmitOp) :
    Moved e st.toFrames (xmitStep e st op).toFrames := by
  cases op with
  | enqueue attrib => exact enqueue_moved h attrib
  | buffer attrib => exact buffer_moved h attrib
  | dequeue => exact dequeue_moved h
  | complete x =>
    unfold xmitStep
    dsimp only
    split_ifs with hx
    · exact Moved.of_step h (FrameStep.complete _ x hx.1 hx.2)
    · exact Moved.refl h
  | stop s => exact stopStaXmit_moved h s
  | wakeup s => exact wakeupStaToXmit_moved h s
  | delivery s => exact xmitDeliveryEnabledFrames_moved h s
  | psPoll addr2 aid priority => exact recvPsPoll_moved h addr2 aid priority

end functions

end Rtl8821au.Xmit
