import Mathlib.Data.Fin.Basic
import Rtl8821au.Lib.Run
import Rtl8821au.Lib.Slots
import Rtl8821au.Priv

/-!
# The PMKID cache

`rtw_wx_set_pmkid` (`ioctl_linux.c`, lines 1063–1134) and `SecIsInPMKIDList` (`rtw_mlme.c`,
lines 2184–2215) on the sixteen entries `PMKIDList` and the index `PMKIDIndex` of the entry that
the next new BSSID gets. The SSID fields of an entry are not used.

A request that would write behind the sixteen entries has no result. That happens after a PMKID
was rewritten in the last entry: the index is then `j + 1` and is not wrapped.

* `next_cases`: what a request can do.
* `consistent_iff`: the cache is the last PMKIDs that were added and not lost since, in every
  state of a run, exactly when no request rewrites the last entry.
-/

namespace Rtl8821au.Security.Pmkid

open Recv (MacAddr)

/-! ## Model -/

/-- `NUM_PMKID_CACHE`. -/
def numPmkidCache : ℕ := 16

/-- The index 15. -/
def lastEntry : Fin numPmkidCache := Fin.last 15

/-- `RT_PMKID_LIST`, as far as it is used. -/
structure PmkidEntry where
  bUsed : Bool
  bssid : MacAddr
  pmkid : Block
  deriving DecidableEq, Repr

/-- `memset` of an entry. -/
def zeroEntry : PmkidEntry := ⟨false, Vector.replicate 6 0, Vector.replicate 16 0⟩

/-- `PMKIDList` and `PMKIDIndex`. -/
structure PmkidCache where
  pmkidList : Vector PmkidEntry numPmkidCache
  pmkidIndex : UInt8

/-- Nothing is cached. -/
def PmkidCache.zero : PmkidCache := ⟨Vector.replicate numPmkidCache zeroEntry, 0⟩

/-- `IW_PMKSA_ADD`, `IW_PMKSA_REMOVE`, `IW_PMKSA_FLUSH`, and every other number. -/
inductive PmksaCmd where
  | add
  | remove
  | flush
  | other
  deriving DecidableEq, Repr

/-- `struct iw_pmksa`; the BSSID is in the first six bytes of `sa_data`. -/
structure IwPmksa where
  cmd : PmksaCmd
  bssid : MacAddr
  pmkid : Block
  deriving DecidableEq, Repr

/-- `strZeroMacAddress`. -/
def strZeroMacAddress : MacAddr := Vector.replicate 6 0

/-- The first entry with a property, in the order of the loops over `j`. -/
def firstEntry (p : PmkidEntry → Bool) (l : Vector PmkidEntry numPmkidCache) :
    Option (Fin numPmkidCache) :=
  (List.finRange numPmkidCache).find? fun j => p (l.get j)

/-- `PMKIDList[j] = ...`. -/
def PmkidCache.setEntry (s : PmkidCache) (j : Fin numPmkidCache) (e : PmkidEntry) : PmkidCache :=
  { s with pmkidList := s.pmkidList.set j.1 e j.2 }

/-- `PMKIDIndex++` and the comparison with 16. -/
def nextIndex (i : UInt8) : UInt8 := if i + 1 = 16 then 0 else i + 1

/-- `rtw_wx_set_pmkid`: the cache and `intReturn`, if nothing is written behind `PMKIDList`. -/
def rtwWxSetPmkid (s : PmkidCache) (r : IwPmksa) : Option (PmkidCache × Bool) :=
  match r.cmd with
  | .add =>
    if r.bssid = strZeroMacAddress then some (s, false)
    else
      match firstEntry (fun e => e.bssid = r.bssid) s.pmkidList with
      | some j =>
        let e := s.pmkidList.get j
        some ({ s.setEntry j { e with pmkid := r.pmkid, bUsed := true } with
                pmkidIndex := UInt8.ofNat (j.1 + 1) }, true)
      | none =>
        if h : s.pmkidIndex.toNat < numPmkidCache then
          some ({ s.setEntry ⟨s.pmkidIndex.toNat, h⟩ ⟨true, r.bssid, r.pmkid⟩ with
                  pmkidIndex := nextIndex s.pmkidIndex }, true)
        else none
  | .remove =>
    match firstEntry (fun e => e.bssid = r.bssid) s.pmkidList with
    | some j =>
      let e := s.pmkidList.get j
      some (s.setEntry j { e with bssid := strZeroMacAddress, bUsed := false }, true)
    | none => some (s, true)
  | .flush => some (PmkidCache.zero, true)
  | .other => some (s, false)

/-- `SecIsInPMKIDList`; -1 is `none`. -/
def secIsInPmkidList (s : PmkidCache) (bssid : MacAddr) : Option (Fin numPmkidCache) :=
  firstEntry (fun e => e.bUsed && e.bssid = bssid) s.pmkidList

/-- One request after the others, until one writes behind `PMKIDList`. -/
def next (s : Option PmkidCache) (r : IwPmksa) : Option PmkidCache :=
  s.bind fun s => (rtwWxSetPmkid s r).map Prod.fst

/-- The cache after the first `n` requests of a run from the zeroed cache. -/
def cacheAt (rs : List IwPmksa) (n : ℕ) : Option PmkidCache :=
  Run.run next (some PmkidCache.zero) (rs.take n)

/-! ## What it is for -/

/-- The request adds this PMKID for this BSSID. -/
def Adds (r : IwPmksa) (b : MacAddr) (p : Block) : Prop :=
  r.cmd = .add ∧ r.bssid ≠ strZeroMacAddress ∧ r.bssid = b ∧ r.pmkid = p

/-- The request takes the entry of the BSSID for another one. -/
def Evicts (s : PmkidCache) (r : IwPmksa) (b : MacAddr) : Prop :=
  r.cmd = .add ∧ r.bssid ≠ strZeroMacAddress ∧ (∀ j, (s.pmkidList.get j).bssid ≠ r.bssid) ∧
    ∃ h : s.pmkidIndex.toNat < numPmkidCache,
      (s.pmkidList.get ⟨s.pmkidIndex.toNat, h⟩).bssid = b

/-- What was known of the BSSID is not current any more: it is removed, flushed or evicted, or
    added again. -/
def Ends (s : PmkidCache) (r : IwPmksa) (b : MacAddr) : Prop :=
  r.cmd = .flush ∨ r.cmd = .remove ∧ r.bssid = b ∨ Evicts s r b ∨ ∃ p, Adds r b p

/-- Among the first `n` requests the last one that added the BSSID added this PMKID, and it was
    not removed, flushed or evicted since. -/
def Current (rs : List IwPmksa) (n : ℕ) (b : MacAddr) (p : Block) : Prop :=
  ∃ m < n, (∃ r, rs[m]? = some r ∧ Adds r b p) ∧
    ∀ k, m < k → k < n → ¬ ∃ r s, rs[k]? = some r ∧ cacheAt rs k = some s ∧ Ends s r b

/-- What is said of the cache after `n` requests. -/
structure Consistent (rs : List IwPmksa) (n : ℕ) (s : PmkidCache) : Prop where
  index : s.pmkidIndex.toNat < numPmkidCache
  distinct : ∀ i j, (s.pmkidList.get i).bUsed = true → (s.pmkidList.get j).bUsed = true →
    (s.pmkidList.get i).bssid = (s.pmkidList.get j).bssid → i = j
  found : ∀ b, (∃ j, secIsInPmkidList s b = some j) ↔ ∃ p, Current rs n b p
  holds : ∀ b j p, secIsInPmkidList s b = some j → Current rs n b p →
    (s.pmkidList.get j).pmkid = p

/-- The PMKID in the last entry is written again. -/
def RewritesLast (s : PmkidCache) (r : IwPmksa) : Prop :=
  r.cmd = .add ∧ r.bssid ≠ strZeroMacAddress ∧
    (s.pmkidList.get lastEntry).bssid = r.bssid

/-- No request of the run does that. -/
def KeepsIndex (rs : List IwPmksa) : Prop :=
  ∀ n r s, rs[n]? = some r → cacheAt rs n = some s → ¬ RewritesLast s r

/-! ## Entries -/

section entries

variable {s : PmkidCache} {r : IwPmksa} {b : MacAddr} {p : Block} {j : Fin numPmkidCache}
  {l : Vector PmkidEntry numPmkidCache} {q : PmkidEntry → Bool}

theorem firstEntry_eq_none : firstEntry q l = none ↔ ∀ j, q (l.get j) = false := by
  rw [firstEntry, List.find?_eq_none]
  constructor
  · intro h j
    exact Bool.eq_false_iff.mpr (h j (List.mem_finRange j))
  · intro h j _
    exact Bool.eq_false_iff.mp (h j)

theorem firstEntry_eq_some (h : firstEntry q l = some j) : q (l.get j) = true :=
  List.find?_some (p := fun j => q (l.get j)) h

/-- The used entries with their BSSIDs and PMKIDs. -/
def slots (s : PmkidCache) (j : Fin numPmkidCache) : Option (MacAddr × Block) :=
  if (s.pmkidList.get j).bUsed then some ((s.pmkidList.get j).bssid, (s.pmkidList.get j).pmkid)
  else none

theorem slots_eq_some :
    slots s j = some (b, p) ↔ (s.pmkidList.get j).bUsed = true ∧ (s.pmkidList.get j).bssid = b ∧
      (s.pmkidList.get j).pmkid = p := by
  unfold slots
  split_ifs with hused
  · rw [Option.some_inj, Prod.mk.injEq, and_iff_right hused]
  · exact iff_of_false (fun h => by cases h) fun h => hused h.1

theorem occupied_slots :
    Slots.Occupied (slots s) j b ↔
      (s.pmkidList.get j).bUsed = true ∧ (s.pmkidList.get j).bssid = b := by
  constructor
  · rintro ⟨p, hp⟩
    obtain ⟨hused, hbssid, -⟩ := slots_eq_some.mp hp
    exact ⟨hused, hbssid⟩
  · rintro ⟨hused, hbssid⟩
    exact ⟨_, slots_eq_some.mpr ⟨hused, hbssid, rfl⟩⟩

theorem get_setEntry (e : PmkidEntry) (i : Fin numPmkidCache) :
    (s.setEntry j e).pmkidList.get i = if i = j then e else s.pmkidList.get i := by
  show (s.pmkidList.set j.1 e j.2).get i = _
  by_cases hij : i = j
  · subst hij
    rw [if_pos rfl]
    exact Vector.getElem_set_self _
  · rw [if_neg hij]
    exact Vector.getElem_set_ne _ _ fun h => hij (Fin.ext h.symm)

theorem slots_setEntry (e : PmkidEntry) :
    slots (s.setEntry j e) =
      Function.update (slots s) j (if e.bUsed then some (e.bssid, e.pmkid) else none) := by
  funext i
  unfold slots
  rw [get_setEntry]
  by_cases hij : i = j
  · subst hij
    rw [if_pos rfl, Function.update_self]
  · rw [if_neg hij, Function.update_of_ne hij]

theorem slots_zero (j : Fin numPmkidCache) : slots PmkidCache.zero j = none := by
  have hzero : PmkidCache.zero.pmkidList.get j = zeroEntry := Vector.getElem_replicate _
  unfold slots
  rw [hzero]
  rfl

/-- The lookup finds what is held. -/
theorem secIsInPmkidList_some (h : secIsInPmkidList s b = some j) :
    slots s j = some (b, (s.pmkidList.get j).pmkid) := by
  have hj := firstEntry_eq_some h
  obtain ⟨hused, hbssid⟩ := (Bool.and_eq_true _ _).mp hj
  exact slots_eq_some.mpr ⟨hused, of_decide_eq_true hbssid, rfl⟩

theorem exists_secIsInPmkidList :
    (∃ j, secIsInPmkidList s b = some j) ↔ ∃ p, Slots.Holds (slots s) b p := by
  constructor
  · rintro ⟨j, hj⟩
    exact ⟨_, j, secIsInPmkidList_some hj⟩
  · rintro ⟨p, j, hj⟩
    obtain ⟨hused, hbssid, -⟩ := slots_eq_some.mp hj
    by_contra hnone
    have hall := firstEntry_eq_none.mp (Option.eq_none_iff_forall_ne_some.mpr fun i hi =>
      hnone ⟨i, hi⟩)
    have hj := hall j
    rw [hused, decide_eq_true hbssid] at hj
    cases hj

end entries

/-! ## One request -/

section step

variable {s : PmkidCache} {r : IwPmksa} {b : MacAddr} {p : Block}

/-- What holds between the requests: the used entries are those with a BSSID. -/
structure CacheInv (s : PmkidCache) : Prop where
  used : ∀ j, (s.pmkidList.get j).bUsed = true ↔ (s.pmkidList.get j).bssid ≠ strZeroMacAddress
  index : s.pmkidIndex.toNat < numPmkidCache
  distinct : Slots.Distinct (slots s)

theorem cacheInv_zero : CacheInv PmkidCache.zero where
  used j := by
    have hzero : PmkidCache.zero.pmkidList.get j = zeroEntry := Vector.getElem_replicate _
    rw [hzero]
    exact iff_of_false Bool.false_ne_true fun h => h rfl
  index := by decide
  distinct i _ k hi := absurd hi (Slots.not_occupied_of_none (slots_zero i) k)

theorem CacheInv.occupied (h : CacheInv s) {j : Fin numPmkidCache} :
    Slots.Occupied (slots s) j b ↔ (s.pmkidList.get j).bssid = b ∧ b ≠ strZeroMacAddress := by
  rw [occupied_slots, h.used]
  constructor
  · rintro ⟨hne, rfl⟩
    exact ⟨rfl, hne⟩
  · rintro ⟨rfl, hne⟩
    exact ⟨hne, rfl⟩

/-- An entry is written. -/
theorem CacheInv.setEntry (h : CacheInv s) {j : Fin numPmkidCache} {e : PmkidEntry} {i : UInt8}
    (he : e.bUsed = true ↔ e.bssid ≠ strZeroMacAddress) (hi : i.toNat < numPmkidCache)
    (hd : Slots.Distinct (slots (s.setEntry j e))) :
    CacheInv { s.setEntry j e with pmkidIndex := i } where
  used k := by
    show ((s.setEntry j e).pmkidList.get k).bUsed = true ↔
      ((s.setEntry j e).pmkidList.get k).bssid ≠ strZeroMacAddress
    rw [get_setEntry]
    split_ifs
    · exact he
    · exact h.used k
  index := hi
  distinct := hd

/-- What a request leaves: the invariant, what it added, and what it did not end. -/
def StepOk (s : PmkidCache) (r : IwPmksa) : Prop :=
  ∃ s', next (some s) r = some s' ∧ CacheInv s' ∧
    ∀ b p, Slots.Holds (slots s') b p ↔ Adds r b p ∨ Slots.Holds (slots s) b p ∧ ¬ Ends s r b

/-- A known BSSID gets a new PMKID. -/
theorem CacheInv.rewrite (h : CacheInv s) (hcmd : r.cmd = .add)
    (hne : r.bssid ≠ strZeroMacAddress) {j : Fin numPmkidCache}
    (hj : firstEntry (fun e => e.bssid = r.bssid) s.pmkidList = some j) (hlast : j ≠ lastEntry) :
    StepOk s r := by
  have hbssid : (s.pmkidList.get j).bssid = r.bssid := of_decide_eq_true (firstEntry_eq_some hj)
  have hlt : j.1 + 1 < numPmkidCache := by
    have hne : j.1 ≠ 15 := fun h => hlast (Fin.ext h)
    have hj := j.2
    have h16 : numPmkidCache = 16 := rfl
    omega
  have honly : ∀ i, Slots.Occupied (slots s) i r.bssid → i = j := fun i hi =>
    h.distinct i j r.bssid hi (h.occupied.mpr ⟨hbssid, hne⟩)
  have hslots : slots (s.setEntry j { s.pmkidList.get j with pmkid := r.pmkid, bUsed := true }) =
      Function.update (slots s) j (some (r.bssid, r.pmkid)) := by
    rw [slots_setEntry, if_pos rfl, hbssid]
  refine ⟨{ s.setEntry j { s.pmkidList.get j with pmkid := r.pmkid, bUsed := true } with
      pmkidIndex := UInt8.ofNat (j.1 + 1) }, ?_, h.setEntry ?_ ?_ ?_, fun b p => ?_⟩
  · rw [next, Option.bind_some, rtwWxSetPmkid, hcmd]
    dsimp only
    rw [if_neg hne, hj]
    rfl
  · exact iff_of_true rfl (hbssid ▸ hne)
  · have h16 : numPmkidCache = 16 := rfl
    have hsize : UInt8.size = 256 := rfl
    rw [UInt8.toNat_ofNat_of_lt' (by omega)]
    exact hlt
  · rw [hslots]
    exact h.distinct.put honly
  · show Slots.Holds (slots (s.setEntry j _)) b p ↔ _
    rw [hslots, Slots.holds_put h.distinct honly]
    refine or_congr ?_ (and_congr_right fun _ => not_congr ?_)
    · rw [Adds, and_iff_right hcmd, and_iff_right hne, eq_comm, @eq_comm _ p]
    · rw [h.occupied, hbssid]
      constructor
      · rintro ⟨hb, -⟩
        exact Or.inr (Or.inr (Or.inr ⟨r.pmkid, hcmd, hne, hb, rfl⟩))
      · rintro (hc | ⟨hc, -⟩ | ⟨-, -, hnew, -⟩ | ⟨-, -, -, hb, -⟩)
        · rw [hcmd] at hc
          cases hc
        · rw [hcmd] at hc
          cases hc
        · exact absurd hbssid (hnew j)
        · exact ⟨hb, hb ▸ hne⟩

theorem nextIndex_lt {i : UInt8} (h : i.toNat < numPmkidCache) :
    (nextIndex i).toNat < numPmkidCache := by
  have h16 : numPmkidCache = 16 := rfl
  unfold nextIndex
  split_ifs with hwrap
  · decide
  · have hne : (i + 1).toNat ≠ 16 := fun hc => hwrap (UInt8.toNat_inj.mp hc)
    rw [UInt8.toNat_add] at hne ⊢
    have hone : (1 : UInt8).toNat = 1 := rfl
    omega

/-- A new BSSID gets the entry at the index. -/
theorem CacheInv.insert (h : CacheInv s) (hcmd : r.cmd = .add)
    (hne : r.bssid ≠ strZeroMacAddress)
    (hnone : firstEntry (fun e => e.bssid = r.bssid) s.pmkidList = none) : StepOk s r := by
  have hnew : ∀ j, (s.pmkidList.get j).bssid ≠ r.bssid := fun j =>
    of_decide_eq_false (firstEntry_eq_none.mp hnone j)
  have hfree : ∀ i, ¬ Slots.Occupied (slots s) i r.bssid := fun i hi =>
    hnew i (h.occupied.mp hi).1
  have honly : ∀ i, Slots.Occupied (slots s) i r.bssid → i = ⟨s.pmkidIndex.toNat, h.index⟩ :=
    fun i hi => absurd hi (hfree i)
  have hslots : slots (s.setEntry ⟨s.pmkidIndex.toNat, h.index⟩ ⟨true, r.bssid, r.pmkid⟩) =
      Function.update (slots s) ⟨s.pmkidIndex.toNat, h.index⟩ (some (r.bssid, r.pmkid)) := by
    rw [slots_setEntry, if_pos rfl]
  refine ⟨{ s.setEntry ⟨s.pmkidIndex.toNat, h.index⟩ ⟨true, r.bssid, r.pmkid⟩ with
      pmkidIndex := nextIndex s.pmkidIndex }, ?_, h.setEntry ?_ (nextIndex_lt h.index) ?_,
    fun b p => ?_⟩
  · rw [next, Option.bind_some, rtwWxSetPmkid, hcmd]
    dsimp only
    rw [if_neg hne, hnone]
    dsimp only
    rw [dif_pos h.index]
    rfl
  · exact iff_of_true rfl hne
  · rw [hslots]
    exact h.distinct.put honly
  · show Slots.Holds (slots (s.setEntry _ _)) b p ↔ _
    rw [hslots, Slots.holds_put h.distinct honly]
    refine or_congr ?_ (and_congr_right fun hb => not_congr ?_)
    · rw [Adds, and_iff_right hcmd, and_iff_right hne, eq_comm, @eq_comm _ p]
    · obtain ⟨i, hi⟩ := hb
      have hb := h.occupied.mp ⟨p, hi⟩
      rw [h.occupied]
      constructor
      · rintro ⟨hev, -⟩
        exact Or.inr (Or.inr (Or.inl ⟨hcmd, hne, hnew, h.index, hev⟩))
      · rintro (hc | ⟨hc, -⟩ | ⟨-, -, -, _, hev⟩ | ⟨-, -, -, hb', -⟩)
        · rw [hcmd] at hc
          cases hc
        · rw [hcmd] at hc
          cases hc
        · exact ⟨hev, hb.2⟩
        · exact absurd (hb.1.trans hb'.symm) (hnew i)

/-- A BSSID is forgotten. -/
theorem CacheInv.remove (h : CacheInv s) (hcmd : r.cmd = .remove) : StepOk s r := by
  have hends : ∀ b, Ends s r b ↔ r.bssid = b := by
    intro b
    constructor
    · rintro (hc | ⟨-, hb⟩ | ⟨hc, -⟩ | ⟨-, hc, -⟩)
      · rw [hcmd] at hc
        cases hc
      · exact hb
      · rw [hcmd] at hc
        cases hc
      · rw [hcmd] at hc
        cases hc
    · intro hb
      exact Or.inr (Or.inl ⟨hcmd, hb⟩)
  have hadds : ∀ b p, ¬ Adds r b p := by
    rintro b p ⟨hc, -⟩
    rw [hcmd] at hc
    cases hc
  cases hj : firstEntry (fun e => e.bssid = r.bssid) s.pmkidList with
  | none =>
    refine ⟨s, ?_, h, fun b p => ?_⟩
    · rw [next, Option.bind_some, rtwWxSetPmkid, hcmd]
      dsimp only
      rw [hj]
      rfl
    · rw [or_iff_right (hadds b p), hends]
      refine (and_iff_left_of_imp ?_).symm
      rintro ⟨i, hi⟩ rfl
      exact of_decide_eq_false (firstEntry_eq_none.mp hj i) (h.occupied.mp ⟨p, hi⟩).1
  | some j =>
    have hbssid : (s.pmkidList.get j).bssid = r.bssid := of_decide_eq_true (firstEntry_eq_some hj)
    have hslots : slots (s.setEntry j
        { s.pmkidList.get j with bssid := strZeroMacAddress, bUsed := false }) =
        Function.update (slots s) j none := by
      rw [slots_setEntry, if_neg Bool.false_ne_true]
    refine ⟨s.setEntry j { s.pmkidList.get j with bssid := strZeroMacAddress, bUsed := false },
      ?_, h.setEntry (i := s.pmkidIndex) ?_ h.index ?_, fun b p => ?_⟩
    · rw [next, Option.bind_some, rtwWxSetPmkid, hcmd]
      dsimp only
      rw [hj]
      rfl
    · exact iff_of_false Bool.false_ne_true fun hc => hc rfl
    · rw [hslots]
      exact h.distinct.erase
    · rw [hslots, Slots.holds_erase h.distinct, or_iff_right (hadds b p), hends, h.occupied, hbssid]
      refine and_congr_right fun ⟨i, hi⟩ => not_congr (and_iff_left ?_)
      exact (h.occupied.mp ⟨p, hi⟩).2

/-- A request does what it is for, unless it rewrites the last entry. -/
theorem CacheInv.step (h : CacheInv s) (hlast : ¬ RewritesLast s r) : StepOk s r := by
  cases hcmd : r.cmd with
  | add =>
    by_cases hzero : r.bssid = strZeroMacAddress
    · refine ⟨s, ?_, h, fun b p => ?_⟩
      · rw [next, Option.bind_some, rtwWxSetPmkid, hcmd]
        dsimp only
        rw [if_pos hzero]
        rfl
      · rw [or_iff_right fun hc : Adds r b p => hc.2.1 hzero]
        refine (and_iff_left ?_).symm
        rintro (hc | ⟨hc, -⟩ | ⟨-, hc, -⟩ | ⟨-, -, hc, -⟩)
        · rw [hcmd] at hc
          cases hc
        · rw [hcmd] at hc
          cases hc
        · exact hc hzero
        · exact hc hzero
    · cases hj : firstEntry (fun e => e.bssid = r.bssid) s.pmkidList with
      | none => exact h.insert hcmd hzero hj
      | some j =>
        refine h.rewrite hcmd hzero hj ?_
        rintro rfl
        exact hlast ⟨hcmd, hzero, of_decide_eq_true (firstEntry_eq_some hj)⟩
  | remove => exact h.remove hcmd
  | flush =>
    refine ⟨PmkidCache.zero, ?_, cacheInv_zero, fun b p => ?_⟩
    · rw [next, Option.bind_some, rtwWxSetPmkid, hcmd]
      rfl
    · refine iff_of_false ?_ ?_
      · rintro ⟨j, hj⟩
        rw [slots_zero] at hj
        cases hj
      · rintro (⟨hc, -⟩ | ⟨-, hc⟩)
        · rw [hcmd] at hc
          cases hc
        · exact hc (Or.inl hcmd)
  | other =>
    refine ⟨s, ?_, h, fun b p => ?_⟩
    · rw [next, Option.bind_some, rtwWxSetPmkid, hcmd]
      rfl
    · have hadds : ¬ Adds r b p := by
        rintro ⟨hc, -⟩
        rw [hcmd] at hc
        cases hc
      rw [or_iff_right hadds]
      refine (and_iff_left ?_).symm
      rintro (hc | ⟨hc, -⟩ | ⟨hc, -⟩ | ⟨-, hc, -⟩) <;>
      · rw [hcmd] at hc
        cases hc

end step

/-! ## Runs -/

section run

variable {rs : List IwPmksa} {n : ℕ} {r : IwPmksa} {s : PmkidCache}

theorem cacheAt_succ (h : rs[n]? = some r) : cacheAt rs (n + 1) = next (cacheAt rs n) r :=
  Run.run_take_succ h

/-- No request before the `n`-th rewrites the last entry. -/
def KeepsIndexTo (rs : List IwPmksa) (n : ℕ) : Prop :=
  ∀ m < n, ∀ r s, rs[m]? = some r → cacheAt rs m = some s → ¬ RewritesLast s r

/-- The request at a position of the run, in the state that the run has there. -/
theorem KeepsIndexTo.step (h : KeepsIndexTo rs n) (hn : n ≤ rs.length) {m : ℕ} (hm : m < n)
    (hs : cacheAt rs m = some s) (hinv : CacheInv s) :
    ∃ r s', rs[m]? = some r ∧ cacheAt rs (m + 1) = some s' ∧ CacheInv s' ∧
      ∀ b p, Slots.Holds (slots s') b p ↔ Adds r b p ∨ Slots.Holds (slots s) b p ∧ ¬ Ends s r b := by
  have hget : rs[m]? = some rs[m] := List.getElem?_eq_getElem (Nat.lt_of_lt_of_le hm hn)
  obtain ⟨s', hnext, hinv', hholds⟩ := hinv.step (h m hm _ s hget hs)
  exact ⟨rs[m], s', hget, by rw [cacheAt_succ hget, hs, hnext], hinv', hholds⟩

theorem KeepsIndexTo.inv (h : KeepsIndexTo rs n) (hn : n ≤ rs.length) :
    ∀ m ≤ n, ∃ s, cacheAt rs m = some s ∧ CacheInv s := by
  intro m
  induction m with
  | zero => exact fun _ => ⟨PmkidCache.zero, rfl, cacheInv_zero⟩
  | succ m ih =>
    intro hm
    obtain ⟨s, hs, hinv⟩ := ih (Nat.le_of_succ_le hm)
    obtain ⟨r, s', -, hs', hinv', -⟩ := h.step hn hm hs hinv
    exact ⟨s', hs', hinv'⟩

/-- The entries are what is current. -/
theorem KeepsIndexTo.holds (h : KeepsIndexTo rs n) (hn : n ≤ rs.length) (hs : cacheAt rs n = some s)
    (b : MacAddr) (p : Block) : Slots.Holds (slots s) b p ↔ Current rs n b p := by
  have hsince := @Run.since_iff (fun m => ∃ s, cacheAt rs m = some s ∧ Slots.Holds (slots s) b p)
    (fun m => ∃ r, rs[m]? = some r ∧ Adds r b p)
    (fun m => ∃ r s, rs[m]? = some r ∧ cacheAt rs m = some s ∧ Ends s r b) n ?_ ?_ n (Nat.le_refl n)
  · refine Iff.trans ⟨fun hb => ⟨s, hs, hb⟩, ?_⟩ hsince
    rintro ⟨s', hs', hb⟩
    rw [hs] at hs'
    obtain rfl := Option.some.inj hs'
    exact hb
  · rintro ⟨s, hs, j, hj⟩
    obtain rfl := Option.some.inj hs
    rw [slots_zero] at hj
    cases hj
  · intro m hm
    obtain ⟨s, hs, hinv⟩ := h.inv hn m (Nat.le_of_lt hm)
    obtain ⟨r, s', hr, hs', -, hholds⟩ := h.step hn hm hs hinv
    have hleft : (∃ t, cacheAt rs (m + 1) = some t ∧ Slots.Holds (slots t) b p) ↔
        Slots.Holds (slots s') b p := by
      rw [hs']
      simp only [Option.some_inj, exists_eq_left']
    rw [hleft, hholds, hr, hs]
    simp only [Option.some_inj, exists_eq_left', exists_and_left]

theorem KeepsIndexTo.consistent (h : KeepsIndexTo rs n) (hn : n ≤ rs.length) :
    ∃ s, cacheAt rs n = some s ∧ Consistent rs n s := by
  obtain ⟨s, hs, hinv⟩ := h.inv hn n (Nat.le_refl n)
  have hholds := h.holds hn hs
  refine ⟨s, hs, hinv.index, fun i j hi hj hij => ?_, fun b => ?_, fun b j p hj hp => ?_⟩
  · exact hinv.distinct i j _ (occupied_slots.mpr ⟨hi, rfl⟩) (occupied_slots.mpr ⟨hj, hij.symm⟩)
  · rw [exists_secIsInPmkidList]
    exact exists_congr fun p => hholds b p
  · exact hinv.distinct.holds_inj ⟨j, secIsInPmkidList_some hj⟩ ((hholds b p).mpr hp)

/-- After the last entry was rewritten the index is behind the entries. -/
theorem RewritesLast.index (h : RewritesLast s r) (hinv : CacheInv s) :
    ∃ s', next (some s) r = some s' ∧ s'.pmkidIndex = 16 := by
  obtain ⟨hcmd, hne, hbssid⟩ := h
  cases hj : firstEntry (fun e => e.bssid = r.bssid) s.pmkidList with
  | none => exact absurd hbssid (of_decide_eq_false (firstEntry_eq_none.mp hj lastEntry))
  | some j =>
    have hfirst : (s.pmkidList.get j).bssid = r.bssid := of_decide_eq_true (firstEntry_eq_some hj)
    obtain rfl : j = lastEntry := hinv.distinct j lastEntry r.bssid
      (hinv.occupied.mpr ⟨hfirst, hne⟩) (hinv.occupied.mpr ⟨hbssid, hne⟩)
    refine ⟨{ s.setEntry lastEntry
        { s.pmkidList.get lastEntry with pmkid := r.pmkid, bUsed := true } with pmkidIndex := 16 },
      ?_, rfl⟩
    rw [next, Option.bind_some, rtwWxSetPmkid, hcmd]
    dsimp only
    rw [if_neg hne, hj]
    rfl

/-- In every state of a run the index is in the array, no two entries have the same BSSID, and
    the lookup finds the PMKID that was added last and not lost since, exactly when no request of
    the run rewrites the last entry. -/
theorem consistent_iff (rs : List IwPmksa) :
    (∀ n ≤ rs.length, ∃ s, cacheAt rs n = some s ∧ Consistent rs n s) ↔ KeepsIndex rs := by
  constructor
  · intro hall n
    induction n using Nat.strongRecOn with
    | _ n ih =>
      intro r s hr hs hlast
      have hn : n < rs.length := (List.getElem?_eq_some_iff.mp hr).1
      obtain ⟨s₀, hs₀, hinv⟩ := KeepsIndexTo.inv ih (Nat.le_of_lt hn) n (Nat.le_refl n)
      rw [hs] at hs₀
      obtain rfl := Option.some.inj hs₀
      obtain ⟨s', hnext, hindex⟩ := hlast.index hinv
      obtain ⟨t, ht, hcons⟩ := hall (n + 1) hn
      rw [cacheAt_succ hr, hs, hnext] at ht
      obtain rfl := Option.some.inj ht
      have hbound := hcons.index
      rw [hindex] at hbound
      exact absurd hbound (by decide)
  · intro hk n hn
    exact KeepsIndexTo.consistent (fun m _ => hk m) hn

end run

/-! ## The last entry rewritten -/

/-- An addition of the BSSID 02:00:00:00:00:`i`. -/
def addition (i : UInt8) : IwPmksa := ⟨.add, #v[2, 0, 0, 0, 0, i], Vector.replicate 16 i⟩

/-- Sixteen BSSIDs, the last one again, and a new one. -/
def rewriting : List IwPmksa :=
  [addition 0, addition 1, addition 2, addition 3, addition 4, addition 5, addition 6, addition 7,
    addition 8, addition 9, addition 10, addition 11, addition 12, addition 13, addition 14,
    addition 15, addition 15, addition 16]

/-- The index is 16, and the next addition writes behind the entries. -/
theorem rewriting_leaves :
    ((cacheAt rewriting 17).map PmkidCache.pmkidIndex = some 16 ∧ cacheAt rewriting 18 = none) ∧
      ¬ ∀ n ≤ rewriting.length, ∃ s, cacheAt rewriting n = some s ∧ Consistent rewriting n s := by
  have hlast : cacheAt rewriting 18 = none := by decide +kernel
  refine ⟨⟨by decide +kernel, hlast⟩, fun hall => ?_⟩
  obtain ⟨s, hs, -⟩ := hall 18 (Nat.le_refl 18)
  rw [hlast] at hs
  cases hs

end Rtl8821au.Security.Pmkid
