import Mathlib.Data.List.Count
import Rtl8821au.Xmit.Sched

/-!
# Sleep-queue accounting

`sleepq_len` and `sleepq_ac_len` count the frames of a sleep queue and the delivery
enabled ones among them; the More Data and EOSP bits of a released frame are computed
from them.

* `Counted.buffer`, `Counted.release`: one frame in, one frame out.
* `sleepq_accounting`: the counts and the bits along every run in which the two bits
  of the `uapsd` members agree and no PS-Poll takes a delivery-enabled frame.
* `sleepq_accounting_psPoll`: a PS-Poll that does.
-/

namespace Rtl8821au.Xmit

open Places

variable {e : Adapter} {st st' : XmitState} {fr fr' : Frames} {s x : ℕ} {ac : Ac}

/-- What a released frame should say: a delivery-enabled frame announces more delivery
    enabled frames or ends the service period, any other frame announces more frames.
    The lengths are those of what is left, so they never wrapped. -/
structure Release.Ok (e : Adapter) (fr : Frames) (r : Release) : Prop where
  len : r.sleepqLen = r.left.length
  acLen : r.sleepqAcLen = r.left.countP (deliveryEnabled e fr r.psta)
  mdata : r.flags.mdata =
    if deliveryEnabled e fr r.psta r.frame then r.left.any (deliveryEnabled e fr r.psta)
    else !r.left.isEmpty
  eosp : r.flags.eosp =
    (deliveryEnabled e fr r.psta r.frame && !r.left.any (deliveryEnabled e fr r.psta))

/-- The lengths count, and frames that were released say what they should. -/
structure Counted (e : Adapter) (st : XmitState) : Prop where
  len : ∀ s, (st.sleep s).sleepqLen = (st.queue (.sleepQ s)).length
  acLen : ∀ s, (st.sleep s).sleepqAcLen =
    (st.queue (.sleepQ s)).countP (deliveryEnabled e st.toFrames s)
  clean : ∀ y, (st.flags y).triggered = false → (st.flags y).eosp = false
  asleep : ∀ s, ∀ y ∈ st.queue (.sleepQ s), (st.flags y).triggered = false
  old : ∀ r ∈ st.releases, r.frame < st.arrived ∧ ∀ y ∈ r.left, y < st.arrived
  ok : ∀ r ∈ st.releases, r.Ok e st.toFrames

theorem deliveryEnabled_congr (h : fr'.attrib x = fr.attrib x) :
    deliveryEnabled e fr' s x = deliveryEnabled e fr s x := by rw [deliveryEnabled, deliveryEnabled, h]

theorem Release.Ok.congr {r : Release} (h : r.Ok e fr)
    (hde : deliveryEnabled e fr' r.psta = deliveryEnabled e fr r.psta) : r.Ok e fr' where
  len := h.len
  acLen := by rw [hde]; exact h.acLen
  mdata := by rw [hde]; exact h.mdata
  eosp := by rw [hde]; exact h.eosp

/-- Only the sleep queues, the lengths and the flags count. -/
theorem Counted.congr (h : Counted e st) (hattrib : st'.attrib = st.attrib)
    (harrived : st'.arrived = st.arrived) (hrel : st'.releases = st.releases)
    (hqueue : ∀ s, st'.queue (.sleepQ s) = st.queue (.sleepQ s)) (hflags : SameFlags st st'.flags)
    (hlen : ∀ s, (st'.sleep s).sleepqLen = (st.sleep s).sleepqLen ∧
      (st'.sleep s).sleepqAcLen = (st.sleep s).sleepqAcLen) : Counted e st' := by
  have hde : ∀ s, deliveryEnabled e st'.toFrames s = deliveryEnabled e st.toFrames s := fun s =>
    funext fun y => deliveryEnabled_congr (congrFun hattrib y)
  constructor
  · intro s
    rw [(hlen s).1, hqueue]
    exact h.len s
  · intro s
    rw [(hlen s).2, hqueue, hde]
    exact h.acLen s
  · intro y hy
    rw [(hflags y).2]
    exact h.clean y ((hflags y).1 ▸ hy)
  · intro s y hy
    rw [(hflags y).1]
    exact h.asleep s y (hqueue s ▸ hy)
  · rw [hrel, harrived]
    exact h.old
  · intro r hr
    exact (h.ok r (hrel ▸ hr)).congr (hde _)

/-! ## One frame in -/

theorem incU32_of_lt {n : ℕ} (h : n ≤ nrXmitframe) : incU32 n = n + 1 := by
  unfold incU32 nrXmitframe at *
  omega

theorem decU32_succ {n : ℕ} (h : n < nrXmitframe) : decU32 (n + 1) = n := by
  unfold decU32 nrXmitframe at *
  omega

theorem Counted.buffer (h : Counted e st) (hnew : ∀ s, x ∉ st.queue (.sleepQ s))
    (hbound : (st.queue (.sleepQ s)).length ≤ nrXmitframe)
    (htrig : (st.flags x).triggered = false) : Counted e (bufferFrame e st s x) := by
  have hqueue : ∀ s', (bufferFrame e st s x).queue (.sleepQ s') =
      if s' = s then st.queue (.sleepQ s) ++ [x] else st.queue (.sleepQ s') := by
    intro s'
    show (bufferFrame e st s x).toFrames.queue _ = _
    rw [bufferFrame_toFrames]
    by_cases hs : s' = s
    · rw [if_pos hs, hs]
      exact put_self.trans (by rw [del_eq_self (hnew s)])
    · have hne : Place.sleepQ s' ≠ .sleepQ s := by simp [hs]
      rw [if_neg hs]
      exact (put_of_ne (x := x) hne).trans (del_eq_self (hnew s'))
  have hframes : (bufferFrame e st s x).attrib = st.attrib ∧
      (bufferFrame e st s x).arrived = st.arrived := by
    show (bufferFrame e st s x).toFrames.attrib = _ ∧ (bufferFrame e st s x).toFrames.arrived = _
    rw [bufferFrame_toFrames]
    exact ⟨rfl, rfl⟩
  have hde : ∀ s', deliveryEnabled e (bufferFrame e st s x).toFrames s' =
      deliveryEnabled e st.toFrames s' := fun s' =>
    funext fun y => deliveryEnabled_congr (congrFun hframes.1 y)
  have hac : (st.queue (.sleepQ s)).countP (deliveryEnabled e st.toFrames s) ≤ nrXmitframe :=
    Nat.le_trans List.countP_le_length hbound
  constructor
  · intro s'
    rw [bufferFrame_sleep, hqueue]
    by_cases hs : s' = s
    · rw [hs, Function.update_self, if_pos rfl, List.length_append]
      show incU32 (st.sleep s).sleepqLen = _
      rw [h.len, incU32_of_lt hbound]
      rfl
    · rw [Function.update_of_ne hs, if_neg hs]
      exact h.len s'
  · intro s'
    rw [bufferFrame_sleep, hqueue, hde]
    by_cases hs : s' = s
    · rw [hs, Function.update_self, if_pos rfl, List.countP_append]
      dsimp only
      rw [h.acLen, incU32_of_lt hac, List.countP_singleton]
      split_ifs <;> rfl
    · rw [Function.update_of_ne hs, if_neg hs]
      exact h.acLen s'
  · rw [bufferFrame_flags]
    exact h.clean
  · intro s' y hy
    rw [hqueue] at hy
    rw [bufferFrame_flags]
    split_ifs at hy with hs
    · rcases List.mem_append.mp hy with hy | hy
      · exact h.asleep s y hy
      · rw [List.mem_singleton.mp hy]
        exact htrig
    · exact h.asleep s' y hy
  · rw [bufferFrame_releases, hframes.2]
    exact h.old
  · rw [bufferFrame_releases]
    exact fun r hr => (h.ok r hr).congr (hde _)

/-! ## One frame out -/

/-- The lengths and the flags that a release should write. -/
structure ReleaseWrites (e : Adapter) (st : XmitState) (s x len acLen : ℕ) (flags : PktFlags) :
    Prop where
  lenEq : len = decU32 (st.sleep s).sleepqLen
  acLenEq : acLen =
    if deliveryEnabled e st.toFrames s x then decU32 (st.sleep s).sleepqAcLen
    else (st.sleep s).sleepqAcLen
  triggered : flags.triggered = true
  mdata : flags.mdata =
    if deliveryEnabled e st.toFrames s x then decide (0 < acLen) else decide (0 < len)
  eosp : flags.eosp = (deliveryEnabled e st.toFrames s x && !decide (0 < acLen))

theorem length_erase_add {l : List ℕ} (h : x ∈ l) : (l.erase x).length + 1 = l.length :=
  (List.perm_cons_erase h).length_eq.symm

theorem countP_erase_add {l : List ℕ} {p : ℕ → Bool} (h : x ∈ l) :
    (l.erase x).countP p + (if p x then 1 else 0) = l.countP p := by
  rw [(List.perm_cons_erase h).countP_eq, List.countP_cons]

theorem decide_countP_pos {l : List ℕ} {p : ℕ → Bool} : decide (0 < l.countP p) = l.any p := by
  rw [Bool.eq_iff_iff, decide_eq_true_eq, List.countP_pos_iff, List.any_eq_true]

theorem decide_length_pos {l : List ℕ} : decide (0 < l.length) = !l.isEmpty := by
  cases l <;> simp

/-- The lengths after a release are those of the rest of the queue. -/
theorem ReleaseWrites.lengths (h : Counted e st) {len acLen : ℕ} {flags : PktFlags}
    (hw : ReleaseWrites e st s x len acLen flags) (hx : x ∈ st.queue (.sleepQ s))
    (hbound : (st.queue (.sleepQ s)).length ≤ nrXmitframe) :
    len = ((st.queue (.sleepQ s)).erase x).length ∧
      acLen = ((st.queue (.sleepQ s)).erase x).countP (deliveryEnabled e st.toFrames s) := by
  have hlen := length_erase_add hx
  have hcount := countP_erase_add (p := deliveryEnabled e st.toFrames s) hx
  have hle := List.countP_le_length (p := deliveryEnabled e st.toFrames s)
    (l := (st.queue (.sleepQ s)).erase x)
  constructor
  · rw [hw.lenEq, h.len, ← hlen, decU32_succ (by omega)]
  · rw [hw.acLenEq, h.acLen, ← hcount]
    split_ifs with hde
    · rw [decU32_succ (by omega)]
    · rfl

theorem Counted.unlinkFrame (h : Counted e st) (hexcl : Exclusive st.queue) {len acLen : ℕ}
    {flags : PktFlags} (hw : ReleaseWrites e st s x len acLen flags)
    (hx : x ∈ st.queue (.sleepQ s)) (hbound : (st.queue (.sleepQ s)).length ≤ nrXmitframe)
    (hold : ∀ y ∈ st.queue (.sleepQ s), y < st.arrived) :
    Counted e (unlinkFrame st s x len acLen flags) := by
  obtain ⟨hlen, hacLen⟩ := hw.lengths h hx hbound
  have hother : ∀ s', s' ≠ s → del st.queue x (.sleepQ s') = st.queue (.sleepQ s') := fun s' hs =>
    queue_del_of_mem hexcl hx (by simp [hs])
  constructor
  · intro s'
    show (Function.update st.sleep s _ s').sleepqLen = (del st.queue x (.sleepQ s')).length
    by_cases hs : s' = s
    · rw [hs, Function.update_self]
      exact hlen
    · rw [Function.update_of_ne hs, hother s' hs]
      exact h.len s'
  · intro s'
    show (Function.update st.sleep s _ s').sleepqAcLen =
      (del st.queue x (.sleepQ s')).countP (deliveryEnabled e st.toFrames s')
    by_cases hs : s' = s
    · rw [hs, Function.update_self]
      exact hacLen
    · rw [Function.update_of_ne hs, hother s' hs]
      exact h.acLen s'
  · intro y
    show (Function.update st.flags x flags y).triggered = false →
      (Function.update st.flags x flags y).eosp = false
    by_cases hy : y = x
    · rw [hy, Function.update_self, hw.triggered]
      exact fun hfalse => absurd hfalse (by decide)
    · rw [Function.update_of_ne hy]
      exact h.clean y
  · intro s' y hy
    obtain ⟨hyx, hy⟩ := (mem_del hexcl).mp hy
    show (Function.update st.flags x flags y).triggered = false
    rw [Function.update_of_ne hyx]
    exact h.asleep s' y hy
  · intro r hr
    rcases List.mem_append.mp hr with hr | hr
    · exact h.old r hr
    · rw [List.mem_singleton.mp hr]
      exact ⟨hold x hx, fun y hy => hold y ((mem_del hexcl).mp hy).2⟩
  · intro r hr
    rcases List.mem_append.mp hr with hr | hr
    · exact (h.ok r hr).congr rfl
    · rw [List.mem_singleton.mp hr]
      have hmdata := hw.mdata
      have heosp := hw.eosp
      rw [hacLen, decide_countP_pos] at hmdata heosp
      rw [hlen, decide_length_pos] at hmdata
      exact ⟨hlen, hacLen, hmdata, heosp⟩

theorem enqueueServq_flags (st : XmitState) (s x : ℕ) :
    (enqueueServq st s x).flags = st.flags := by
  dsimp only [enqueueServq]
  split_ifs <;> rfl

theorem Counted.enqueueServq (h : Counted e st) (s x : ℕ) :
    Counted e (enqueueServq st s x) := by
  have hframes := enqueueServq_toFrames st s x
  have hattrib : (Xmit.enqueueServq st s x).attrib = st.attrib := by rw [hframes]
  have harrived : (Xmit.enqueueServq st s x).arrived = st.arrived := by rw [hframes]
  refine h.congr hattrib harrived (enqueueServq_releases st s x) (fun s' => ?_) (fun y => ?_)
    fun s' => ?_
  · have hne : Place.sleepQ s' ≠ .staPending s (acIndex (st.attrib x).txPriority) := by simp
    exact (congrFun (congrArg Frames.queue hframes) _).trans (put_of_ne (x := x) hne)
  · rw [enqueueServq_flags]
    exact ⟨rfl, rfl⟩
  · rw [enqueueServq_sleep]
    exact ⟨rfl, rfl⟩

/-- The counts and the frames of a state. -/
def SleepInv (e : Adapter) (st : XmitState) : Prop := FrameInv e st.toFrames ∧ Counted e st

theorem SleepInv.release (h : SleepInv e st) {len acLen : ℕ} {flags : PktFlags}
    (hw : ReleaseWrites e st s x len acLen flags) (hx : x ∈ st.queue (.sleepQ s)) :
    SleepInv e (releaseFrame e st s x len acLen flags) := by
  refine ⟨(releaseFrame_moved h.1 hx len acLen flags).1, ?_⟩
  rw [releaseFrame_eq (h.1.owner_sleepQ hx)]
  have hunlink := h.2.unlinkFrame h.1.excl hw hx (h.1.sleepQ_length s) fun y hy =>
    h.1.lt_arrived hy
  exact hunlink.enqueueServq s x

/-- Bitmaps, links and the power-save state of a station do not count. -/
theorem SleepInv.congr (h : SleepInv e st) (hframes : st'.toFrames = st.toFrames)
    (hrel : st'.releases = st.releases) (hflags : st'.flags = st.flags)
    (hlen : ∀ s, (st'.sleep s).sleepqLen = (st.sleep s).sleepqLen ∧
      (st'.sleep s).sleepqAcLen = (st.sleep s).sleepqAcLen) : SleepInv e st' := by
  refine ⟨by rw [hframes]; exact h.1, h.2.congr ?_ ?_ hrel (fun s => ?_) (fun y => ?_) hlen⟩
  · rw [hframes]
  · rw [hframes]
  · rw [hframes]
  · rw [hflags]
    exact ⟨rfl, rfl⟩

theorem SleepInv.setSleep (h : SleepInv e st) (s : ℕ) (f : StaSleep → StaSleep)
    (hf : ∀ sl, (f sl).sleepqLen = sl.sleepqLen ∧ (f sl).sleepqAcLen = sl.sleepqAcLen) :
    SleepInv e (setSleep st s f) := by
  refine h.congr rfl rfl rfl fun s' => ?_
  show (Function.update st.sleep s (f (st.sleep s)) s').sleepqLen = _ ∧
    (Function.update st.sleep s (f (st.sleep s)) s').sleepqAcLen = _
  by_cases hs : s' = s
  · rw [hs, Function.update_self]
    exact hf _
  · rw [Function.update_of_ne hs]
    exact ⟨rfl, rfl⟩

/-! ## The operations -/

/-- A loop whose body releases frames of one sleep queue as it should. The condition on
    the frames does not change as the queue gets shorter. -/
theorem foldl_release_counted {f : XmitState → ℕ → XmitState} {G : PktAttrib → Prop}
    (hf : ∀ st x, SleepInv e st → x ∈ st.queue (.sleepQ s) → G (st.attrib x) →
      f st x = st ∨ SleepInv e (f st x) ∧ ∃ len acLen flags,
        (f st x).toFrames = (releaseFrame e st s x len acLen flags).toFrames)
    (h : SleepInv e st) (hgood : ∀ x ∈ st.queue (.sleepQ s), G (st.attrib x)) :
    SleepInv e ((st.queue (.sleepQ s)).foldl f st) := by
  refine (Run.foldl_of_mem
    (P := fun st' => SleepInv e st' ∧ ∀ x ∈ st'.queue (.sleepQ s), G (st'.attrib x))
    (M := fun (st' : XmitState) x => x ∈ st'.queue (.sleepQ s))
    (fun st x ⟨h, hgood⟩ hx => ?_) (h.1.excl.nodup _) (fun _ => id) ⟨h, hgood⟩).1
  rcases hf st x h hx (hgood x hx) with heq | ⟨hinv, len, acLen, flags, hframes⟩
  · rw [heq]
    exact ⟨⟨h, hgood⟩, fun y hy _ => hy⟩
  · have hqueue := congrArg Frames.queue hframes
    rw [releaseFrame_queue (h.1.owner_sleepQ hx)] at hqueue
    have hattrib : (f st x).attrib = st.attrib := by
      have := congrArg Frames.attrib hframes
      rwa [releaseFrame_toFrames (h.1.owner_sleepQ hx)] at this
    refine ⟨⟨hinv, fun y hy => ?_⟩, fun y hy hyx => ?_⟩
    · rw [hqueue] at hy
      rw [hattrib]
      rcases (mem_move h.1.excl).mp hy with ⟨-, hy⟩ | ⟨-, hp⟩
      · exact hgood y hy
      · cases hp
    · rw [hqueue]
      exact (mem_move h.1.excl).mpr (Or.inl ⟨hyx, hy⟩)

/-- Bit 1 of the `uapsd` member says of a frame what bit 0 says. -/
def BitsAgree (e : Adapter) (s : ℕ) (attrib : PktAttrib) : Prop :=
  (e.sta s).wmmpsAc attrib.txPriority 1 =
    (!isMulticast attrib.ra && (e.sta s).wmmpsAc attrib.txPriority 0)

instance (s : ℕ) (attrib : PktAttrib) : Decidable (BitsAgree e s attrib) := by
  unfold BitsAgree; infer_instance

theorem SleepInv.eosp_clean (h : SleepInv e st) (hx : x ∈ st.queue (.sleepQ s)) :
    (st.flags x).eosp = false := h.2.clean x (h.2.asleep s x hx)

theorem wakeupFrame_counted (h : SleepInv e st) (hx : x ∈ st.queue (.sleepQ s))
    (hgood : BitsAgree e s (st.attrib x)) : SleepInv e (wakeupFrame e s st x) := by
  have hde : (e.sta s).wmmpsAc (st.attrib x).txPriority 1 = deliveryEnabled e st.toFrames s x :=
    hgood
  unfold wakeupFrame
  dsimp only
  rw [hde]
  refine h.release ⟨rfl, rfl, ?_, ?_, ?_⟩ hx
  · by_cases hd : deliveryEnabled e st.toFrames s x = true
    · rw [if_pos hd]
    · rw [if_neg hd]
  · by_cases hd : deliveryEnabled e st.toFrames s x = true
    · simp only [if_pos hd]
    · simp only [if_neg hd]
  · by_cases hd : deliveryEnabled e st.toFrames s x = true
    · rw [if_pos hd, hd, Bool.true_and]
    · rw [if_neg hd, Bool.eq_false_iff.mpr hd, Bool.false_and]
      exact h.eosp_clean hx

theorem deliveryFrame_counted (h : SleepInv e st) (hx : x ∈ st.queue (.sleepQ s))
    (hgood : BitsAgree e s (st.attrib x)) : SleepInv e (deliveryFrame e s st x) := by
  have hde : (e.sta s).wmmpsAc (st.attrib x).txPriority 1 = deliveryEnabled e st.toFrames s x :=
    hgood
  unfold deliveryFrame
  dsimp only
  by_cases hd : deliveryEnabled e st.toFrames s x = true
  · have hw : ReleaseWrites e st s x (decU32 (st.sleep s).sleepqLen)
        (decU32 (st.sleep s).sleepqAcLen) { st.flags x with
          mdata := decide (0 < decU32 (st.sleep s).sleepqAcLen)
          eosp := !decide (0 < decU32 (st.sleep s).sleepqAcLen)
          triggered := true } :=
      ⟨rfl, by rw [if_pos hd], rfl, by rw [if_pos hd], by rw [hd, Bool.true_and]⟩
    have hrel := h.release hw hx
    rw [hde, hd, if_neg (by decide)]
    split_ifs
    · exact hrel.congr rfl rfl rfl fun _ => ⟨rfl, rfl⟩
    · exact hrel
  · rw [hde, if_pos (Bool.eq_false_iff.mpr hd)]
    exact h

/-- A frame of the station for group addresses is not delivery enabled. -/
theorem isMulticast_of_owner_bcmc (hb : e.rtwGetBcmcStainfo = some s)
    (howner : Owner e fr s x) : isMulticast (fr.attrib x).ra = true := by
  have hbc : isMulticast bcAddr = true := by decide
  have hsta : ∀ a, e.rtwGetStainfo a = some s →
      (e.sta s).hwaddr = if isMulticast a then bcAddr else a := by
    intro a ha
    simpa using List.find?_some ha
  have h1 := hsta _ hb
  have h2 := hsta _ howner.1
  rw [hbc, if_pos rfl] at h1
  by_contra hm
  rw [if_neg hm, h1] at h2
  exact hm (h2 ▸ hbc)

theorem wakeupBcmcFrame_counted (h : SleepInv e st) (hb : e.rtwGetBcmcStainfo = some s)
    (hx : x ∈ st.queue (.sleepQ s)) : SleepInv e (wakeupBcmcFrame e s st x) := by
  have hde : deliveryEnabled e st.toFrames s x = false := by
    rw [deliveryEnabled, isMulticast_of_owner_bcmc hb (h.1.owner_sleepQ hx)]
    rfl
  unfold wakeupBcmcFrame
  refine h.release ⟨rfl, by simp [hde], rfl, by simp [hde], ?_⟩ hx
  rw [hde, Bool.false_and]
  exact h.eosp_clean hx

theorem stopServq_counted (h : SleepInv e st) (s : ℕ) (ac : Ac) :
    SleepInv e (stopServq e st s ac) := by
  have hloop : SleepInv e (dequeueXmitframesToSleepingQueue e st s ac) := by
    refine Run.foldl_of_mem (P := SleepInv e)
      (M := fun (st' : XmitState) x => x ∈ st'.queue (.staPending s ac))
      (fun st x h hx => ?_) (h.1.excl.nodup _) (fun _ => id) h
    rcases enqueueForSleeping_cases (e := e) st x with ⟨s', howner, htakes, heq⟩ | ⟨flags, hsame, heq⟩
    · obtain rfl : s = s' := (h.1.owner hx).unique howner
      have hnew : ∀ s', x ∉ st.queue (.sleepQ s') := fun s' hx' => nomatch h.1.excl.unique hx hx'
      rw [heq]
      dsimp only
      refine ⟨⟨by rw [bufferFrame_toFrames]; exact h.1.toSleep hx,
        h.2.buffer hnew (h.1.sleepQ_length s) htakes.2.1⟩, fun y hy hyx => ?_⟩
      rw [bufferFrame_toFrames]
      exact (mem_move (i := .sleepQ s) h.1.excl).mpr (Or.inl ⟨hyx, hy⟩)
    · rw [heq]
      exact ⟨⟨h.1, h.2.congr rfl rfl rfl (fun _ => rfl) hsame fun _ => ⟨rfl, rfl⟩⟩, fun y hy _ => hy⟩
  exact hloop.congr rfl rfl rfl fun _ => ⟨rfl, rfl⟩

theorem stopStaXmit_counted (h : SleepInv e st) (s : ℕ) : SleepInv e (stopStaXmit e st s) := by
  have hmark : SleepInv e (markAsleep e st s) :=
    (h.setSleep s (fun sl => { sl with sleepState := true }) fun _ => ⟨rfl, rfl⟩).congr
      rfl rfl rfl fun _ => ⟨rfl, rfl⟩
  have hbk := stopServq_counted (stopServq_counted (stopServq_counted (stopServq_counted hmark
    s .vo) s .vi) s .be) s .bk
  unfold stopStaXmit
  cases e.rtwGetBcmcStainfo with
  | none => exact hbk
  | some b => exact stopServq_counted hbk b .be

theorem wakeupDone_counted (h : SleepInv e st) (s : ℕ) : SleepInv e (wakeupDone e st s) := by
  unfold wakeupDone
  split_ifs
  · have hawake := h.setSleep s (fun sl =>
      { sl with
        sleepState := false
        expireTo := if sl.aliveChk then e.expireTo else sl.expireTo
        aliveChk := false }) fun _ => ⟨rfl, rfl⟩
    exact hawake.congr rfl rfl rfl fun _ => ⟨rfl, rfl⟩
  · exact h

theorem wakeupStaToXmit_counted (h : SleepInv e st)
    (hgood : ∀ x ∈ st.queue (.sleepQ s), BitsAgree e s (st.attrib x)) :
    SleepInv e (wakeupStaToXmit e st s) := by
  have hsta : SleepInv e ((st.queue (.sleepQ s)).foldl (wakeupFrame e s) st) :=
    foldl_release_counted
      (fun _ _ h hx hgood => Or.inr ⟨wakeupFrame_counted h hx hgood, _, _, _, rfl⟩) h hgood
  unfold wakeupStaToXmit
  cases hb : e.rtwGetBcmcStainfo with
  | none => exact hsta
  | some b =>
    have hbcmc := foldl_release_counted (f := wakeupBcmcFrame e b) (s := b) (G := fun _ => True)
      (fun _ _ h hx _ => Or.inr ⟨wakeupBcmcFrame_counted h hb hx, _, _, _, rfl⟩) hsta
      fun _ _ => trivial
    dsimp only
    refine wakeupDone_counted ?_ s
    split_ifs
    · exact hbcmc.congr rfl rfl rfl fun _ => ⟨rfl, rfl⟩
    · exact hbcmc
    · exact hsta

theorem xmitDeliveryEnabledFrames_counted (h : SleepInv e st)
    (hgood : ∀ x ∈ st.queue (.sleepQ s), BitsAgree e s (st.attrib x)) :
    SleepInv e (xmitDeliveryEnabledFrames e st s) := by
  refine foldl_release_counted (fun st x h hx hgood => ?_) h hgood
  have hinv := deliveryFrame_counted h hx hgood
  unfold deliveryFrame at hinv ⊢
  dsimp only at hinv ⊢
  split_ifs at hinv ⊢
  · exact Or.inl rfl
  · exact Or.inr ⟨hinv, _, _, _, rfl⟩
  · exact Or.inr ⟨hinv, _, _, _, rfl⟩

theorem answerPsPoll_counted (h : SleepInv e st)
    (hhead : ∀ x ∈ (st.queue (.sleepQ s)).head?, deliveryEnabled e st.toFrames s x = false) :
    SleepInv e (answerPsPoll e st s) := by
  unfold answerPsPoll
  cases hq : st.queue (.sleepQ s) with
  | nil =>
    have hzero : (st.sleep s).sleepqLen = 0 := by rw [h.2.len, hq]; rfl
    dsimp only
    split_ifs
    · refine h.congr rfl rfl rfl fun s' => ?_
      show (Function.update st.sleep s { st.sleep s with sleepqLen := 0 } s').sleepqLen = _ ∧
        (Function.update st.sleep s { st.sleep s with sleepqLen := 0 } s').sleepqAcLen = _
      by_cases hs : s' = s
      · rw [hs, Function.update_self]
        exact ⟨hzero.symm, rfl⟩
      · rw [Function.update_of_ne hs]
        exact ⟨rfl, rfl⟩
    · exact h
  | cons x rest =>
    have hx : x ∈ st.queue (.sleepQ s) := by rw [hq]; exact List.mem_cons_self
    have hde := hhead x (by rw [hq]; exact Option.mem_some_self x)
    have hw : ReleaseWrites e st s x (decU32 (st.sleep s).sleepqLen) (st.sleep s).sleepqAcLen
        { st.flags x with
          mdata := decide (0 < decU32 (st.sleep s).sleepqLen), triggered := true } :=
      ⟨rfl, by simp only [hde, Bool.false_eq_true, if_false], rfl,
        by simp only [hde, Bool.false_eq_true, if_false],
        by rw [hde, Bool.false_and]; exact h.eosp_clean hx⟩
    have hrel := h.release hw hx
    dsimp only
    split_ifs
    · exact hrel.congr rfl rfl rfl fun _ => ⟨rfl, rfl⟩
    · exact hrel

/-- The PS-Poll is answered for station `s`. -/
def Answers (e : Adapter) (st : XmitState) (aid priority s : ℕ) : Prop :=
  (e.sta s).aid = aid ∧ (e.sta s).wmmpsAc priority 0 = false ∧
    (st.sleep s).sleepState = true ∧ st.staDzBitmap &&& bit (e.sta s).aid ≠ 0

instance (st : XmitState) (aid priority s : ℕ) : Decidable (Answers e st aid priority s) := by
  unfold Answers; infer_instance

/-- The condition on a step: a wake-up or a delivery finds the two `uapsd` bits of its
    frames in agreement, and a PS-Poll that is answered finds no delivery-enabled frame
    at the head. -/
def SleepGuard (e : Adapter) (st : XmitState) : XmitOp → Prop
  | .wakeup s => ∀ x ∈ st.queue (.sleepQ s), BitsAgree e s (st.attrib x)
  | .delivery s => ∀ x ∈ st.queue (.sleepQ s), BitsAgree e s (st.attrib x)
  | .psPoll addr2 aid priority => ∀ s ∈ e.rtwGetStainfo addr2, Answers e st aid priority s →
      ∀ x ∈ (st.queue (.sleepQ s)).head?, deliveryEnabled e st.toFrames s x = false
  | _ => True

instance (st : XmitState) (op : XmitOp) : Decidable (SleepGuard e st op) := by
  unfold SleepGuard; split <;> infer_instance

theorem recvPsPoll_counted (h : SleepInv e st) {addr2 : Recv.MacAddr} {aid priority : ℕ}
    (hg : SleepGuard e st (.psPoll addr2 aid priority)) :
    SleepInv e (recvPsPoll e st addr2 aid priority) := by
  unfold recvPsPoll
  cases hs : e.rtwGetStainfo addr2 with
  | none => exact h
  | some s =>
    have halive := h.setSleep s (fun sl =>
      { sl with expireTo := e.expireTo, aliveChk := false }) fun _ => ⟨rfl, rfl⟩
    dsimp only
    split_ifs with haid hac hchk hsleep hsleep
    · exact h
    · exact h
    · refine answerPsPoll_counted halive (hg s hs ⟨not_not.mp haid, by simpa using hac, ?_⟩)
      have hsame : (setSleep st s fun sl =>
          { sl with expireTo := e.expireTo, aliveChk := false }).sleep s =
          { st.sleep s with expireTo := e.expireTo, aliveChk := false } := Function.update_self ..
      rw [hsame] at hsleep
      exact hsleep
    · exact halive
    · exact answerPsPoll_counted h (hg s hs ⟨not_not.mp haid, by simpa using hac, hsleep⟩)
    · exact h

/-! ## Runs -/

theorem Counted.arrive (h : Counted e st) (hinv : FrameInv e st.toFrames) (attrib : PktAttrib) :
    Counted e (arrive st attrib) := by
  have hde : ∀ s, ∀ y < st.arrived, deliveryEnabled e (Xmit.arrive st attrib).toFrames s y =
      deliveryEnabled e st.toFrames s y := fun s y hy =>
    deliveryEnabled_congr (arrive_attrib_of_lt hy)
  have hflags : ∀ y, y ≠ st.arrived → (Xmit.arrive st attrib).flags y = st.flags y :=
    fun y hy => Function.update_of_ne hy ..
  constructor
  · exact h.len
  · intro s
    rw [show ((Xmit.arrive st attrib).sleep s).sleepqAcLen = _ from h.acLen s]
    exact List.countP_congr fun y hy => by rw [hde s y (hinv.lt_arrived hy)]
  · intro y
    by_cases hy : y = st.arrived
    · intro _
      rw [hy]
      show (Function.update st.flags st.arrived _ st.arrived).eosp = false
      rw [Function.update_self]
    · rw [hflags y hy]
      exact h.clean y
  · intro s y hy
    rw [hflags y (Nat.ne_of_lt (hinv.lt_arrived hy))]
    exact h.asleep s y hy
  · intro r hr
    obtain ⟨hframe, hleft⟩ := h.old r hr
    exact ⟨Nat.lt_succ_of_lt hframe, fun y hy => Nat.lt_succ_of_lt (hleft y hy)⟩
  · intro r hr
    obtain ⟨hframe, hleft⟩ := h.old r hr
    have hok := h.ok r hr
    have hcount : r.left.countP (deliveryEnabled e (Xmit.arrive st attrib).toFrames r.psta) =
        r.left.countP (deliveryEnabled e st.toFrames r.psta) :=
      List.countP_congr fun y hy => by rw [hde _ y (hleft y hy)]
    have hany : r.left.any (deliveryEnabled e (Xmit.arrive st attrib).toFrames r.psta) =
        r.left.any (deliveryEnabled e st.toFrames r.psta) := by
      rw [← decide_countP_pos, ← decide_countP_pos, hcount]
    exact ⟨hok.len, hok.acLen.trans hcount.symm, by rw [hany, hde _ _ hframe]; exact hok.mdata,
      by rw [hany, hde _ _ hframe]; exact hok.eosp⟩

theorem xmitStep_counted (st : XmitState) (op : XmitOp) (hg : SleepGuard e st op)
    (h : SleepInv e st) : SleepInv e (xmitStep e st op) := by
  have hinv := (xmitStep_moved h.1 op).1
  cases op with
  | enqueue attrib =>
    refine ⟨hinv, ?_⟩
    have harrive := h.2.arrive h.1 attrib
    unfold xmitStep halXmitframeEnqueue
    dsimp only
    split_ifs
    · exact h.2
    · cases hc : rtwXmitClassifier e (arrive st attrib) st.arrived with
      | none =>
        refine harrive.congr rfl rfl rfl (fun s => ?_) (fun _ => ⟨rfl, rfl⟩) fun _ => ⟨rfl, rfl⟩
        exact congrFun (del_of_not_placed h.1.not_placed) _
      | some st' =>
        obtain ⟨s, -, rfl⟩ := owner_of_rtwXmitClassifier hc
        exact (harrive.enqueueServq s st.arrived).congr rfl rfl rfl (fun _ => rfl)
          (fun _ => ⟨rfl, rfl⟩) fun _ => ⟨rfl, rfl⟩
  | buffer attrib =>
    refine ⟨hinv, ?_⟩
    have harrive := h.2.arrive h.1 attrib
    unfold xmitStep
    dsimp only
    split_ifs
    · exact h.2
    · rcases enqueueForSleeping_cases (e := e) (arrive st attrib) st.arrived with
        ⟨s, -, htakes, heq⟩ | ⟨flags, hsame, heq⟩
      · rw [heq]
        have hnew : ∀ s', st.arrived ∉ st.queue (.sleepQ s') := fun s' hx =>
          h.1.not_placed ⟨_, hx⟩
        exact (harrive.buffer hnew (h.1.sleepQ_length s) htakes.2.1).congr rfl rfl rfl
          (fun _ => rfl) (fun _ => ⟨rfl, rfl⟩) fun _ => ⟨rfl, rfl⟩
      · rw [heq]
        refine harrive.congr rfl rfl rfl (fun s => ?_) hsame fun _ => ⟨rfl, rfl⟩
        exact congrFun (del_of_not_placed h.1.not_placed) _
  | dequeue =>
    refine ⟨hinv, ?_⟩
    unfold xmitStep
    dsimp only
    cases hd : rtwDequeueXframe st with
    | none => exact h.2
    | some r =>
      obtain ⟨x, st'⟩ := r
      obtain ⟨s, ac, rest, -, hq, rfl⟩ := rtwDequeueXframe_some hd
      obtain ⟨-, -, hother⟩ := move_head h.1.excl hq (i := .handed) (by simp)
      have hsleep : ∀ s, Places.move st.queue .handed x (.sleepQ s) = st.queue (.sleepQ s) :=
        fun s => hother _ (by simp) (by simp)
      dsimp only
      split_ifs
      · exact h.2.congr rfl rfl rfl hsleep (fun _ => ⟨rfl, rfl⟩) fun _ => ⟨rfl, rfl⟩
      · exact h.2.congr rfl rfl rfl hsleep (fun _ => ⟨rfl, rfl⟩) fun _ => ⟨rfl, rfl⟩
  | complete x =>
    refine ⟨hinv, ?_⟩
    unfold xmitStep
    dsimp only
    split_ifs
    · exact h.2.congr rfl rfl rfl (fun _ => rfl) (fun _ => ⟨rfl, rfl⟩) fun _ => ⟨rfl, rfl⟩
    · exact h.2
  | stop s => exact stopStaXmit_counted h s
  | wakeup s => exact wakeupStaToXmit_counted h hg
  | delivery s => exact xmitDeliveryEnabledFrames_counted h hg
  | psPoll addr2 aid priority => exact recvPsPoll_counted h hg

theorem Initial.sleepInv (h : Initial st) : SleepInv e st := by
  refine ⟨h.frameInv, fun s => ?_, fun s => ?_, fun y _ => ?_, fun s y hy => ?_, fun r hr => ?_,
    fun r hr => ?_⟩
  · rw [(h.sleepqLen s).1, h.queue]
    rfl
  · rw [(h.sleepqLen s).2, h.queue]
    rfl
  · rw [h.flags]
  · rw [h.queue] at hy
    cases hy
  · rw [h.releases] at hr
    cases hr
  · rw [h.releases] at hr
    cases hr

/-- Along every run whose steps meet the condition: `sleepq_len` is the number of
    frames in the sleep queue and `sleepq_ac_len` that of the delivery-enabled ones; and
    every frame released so far left the two lengths as they should be, without a wrap,
    and carries the More Data and EOSP bits that it should. -/
theorem sleepq_accounting (hinit : Initial st) {ops : List XmitOp}
    (hg : Run.Guarded (xmitStep e) (SleepGuard e) st ops) (n : ℕ) :
    let st' := Run.run (xmitStep e) st (ops.take n)
    (∀ s, (st'.sleep s).sleepqLen = (st'.queue (.sleepQ s)).length ∧
      (st'.sleep s).sleepqAcLen =
        (st'.queue (.sleepQ s)).countP (deliveryEnabled e st'.toFrames s)) ∧
    ∀ r ∈ st'.releases, r.Ok e st'.toFrames := by
  intro st'
  have hinv : SleepInv e st' := Run.invariant_run_take xmitStep_counted hg hinit.sleepInv n
  exact ⟨fun s => ⟨hinv.2.len s, hinv.2.acLen s⟩, hinv.2.ok⟩

/-- A voice frame to the station. -/
def voiceToPeer : PktAttrib := { ra := peer, psta := some 1, txPriority := 6 }

/-- A voice and a best-effort frame are buffered, then the voice frame is delivered and
    the other one polled. -/
theorem sleepq_accounting_onePeer :
    let ops : List XmitOp :=
      [.stop 1, .buffer voiceToPeer, .buffer toPeer, .delivery 1, .psPoll peer 1 0]
    let st' := Run.run (xmitStep onePeer) idle (ops.take 5)
    ∀ r ∈ st'.releases, r.Ok onePeer st'.toFrames := by
  intro ops
  have hg : Run.Guarded (xmitStep onePeer) (SleepGuard onePeer) idle ops := by decide +kernel
  exact (sleepq_accounting initial_idle hg 5).2

/-- The PS-Poll for best effort takes the voice frame at the head of the queue:
    `sleepq_ac_len` still counts it. -/
theorem sleepq_accounting_psPoll :
    let ops : List XmitOp := [.stop 1, .buffer voiceToPeer, .buffer toPeer, .psPoll peer 1 0]
    let st' := Run.run (xmitStep onePeer) idle ops
    Initial idle ∧ (st'.sleep 1).sleepqAcLen = 1 ∧
      (st'.queue (.sleepQ 1)).countP (deliveryEnabled onePeer st'.toFrames 1) = 0 :=
  ⟨initial_idle, by decide +kernel, by decide +kernel⟩

end Rtl8821au.Xmit
