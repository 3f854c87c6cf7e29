import Rtl8821au.Lib.Run
import Rtl8821au.Xmit.Queues

/-!
# The station table

`rtw_alloc_stainfo`, `rtw_free_stainfo`, `rtw_free_all_stainfo` and `rtw_get_stainfo`
(`rtw_sta_mgt.c`, lines 239–627), and the lists into which the access point links a
station: the authentication and association lists, the association ids and the pending
lists of the transmit path. Stations are named by their index in `pstainfo_buf`.

Results:
* `tableInv_step`: what every operation keeps.
* `TableInv.stationTable`: every station has one place, and lookup finds it.
* `stationTable_of_run`: so it is along every run that releases stations of the table.
-/

namespace Rtl8821au.Sta

open Recv (Bytes MacAddr isMulticast)
open Xmit (Ac)
open Places Run

/-! ## Data -/

/-- `NUM_STA`. -/
def numSta : ℕ := 32

/-- The bits `WIFI_FW_*` and `_FW_LINKED` of `state` (`rtw_mlme_ext.h`, lines 298–305). -/
structure StaState where
  authNull : Bool := false
  authState : Bool := false
  authSuccess : Bool := false
  assocState : Bool := false
  assocSuccess : Bool := false
  linked : Bool := false
  deriving DecidableEq, Repr

/-- `struct sta_info`: the members that the table and the handlers of the access point
    use. `ht` is the bit `WLAN_STA_HT` of `flags`. -/
structure StaInfo where
  hwaddr : MacAddr := Vector.replicate 6 0
  aid : ℕ := 0
  state : StaState := {}
  authSeq : ℕ := 0
  expireTo : ℕ := 0
  chgTxt : Bytes := List.replicate 128 0
  ht : Bool := false
  aggEnableBitmap : ℕ := 0
  underExistChecking : Bool := false
  ieee8021xBlocked : Bool := false
  deriving DecidableEq, Repr

/-- `struct sta_priv`. `txPending` are the lists `hwxmits[ac].sta_queue`; `max_num_sta` is
    at most `NUM_STA`, as `rtw_set_beacon` (`ioctl_linux.c`, lines 2970–2973) checks. -/
structure StaPriv where
  freeStaQueue : List ℕ
  staHash : ℕ → List ℕ
  asocStaCount : ℤ
  sta : ℕ → StaInfo
  staAid : ℕ → Option ℕ
  maxNumSta : ℕ
  maxNumSta_le : maxNumSta ≤ numSta
  asocList : List ℕ
  authList : List ℕ
  asocListCnt : UInt8
  authListCnt : UInt8
  txPending : Ac → List ℕ

/-- `_rtw_init_sta_priv` (lines 86–148). -/
def rtwInitStaPriv : StaPriv where
  freeStaQueue := List.range numSta
  staHash := fun _ => []
  asocStaCount := 0
  sta := fun _ => {}
  staAid := fun _ => none
  maxNumSta := numSta
  maxNumSta_le := Nat.le_refl _
  asocList := []
  authList := []
  asocListCnt := 0
  authListCnt := 0
  txPending := fun _ => []

/-- `wifi_mac_hash` (`sta_info.h`, lines 364–379). -/
def wifiMacHash (mac : MacAddr) : ℕ :=
  let x := (mac.getD 0 0).toUInt32
  let x := (x <<< 2) ^^^ (mac.getD 1 0).toUInt32
  let x := (x <<< 2) ^^^ (mac.getD 2 0).toUInt32
  let x := (x <<< 2) ^^^ (mac.getD 3 0).toUInt32
  let x := (x <<< 2) ^^^ (mac.getD 4 0).toUInt32
  let x := (x <<< 2) ^^^ (mac.getD 5 0).toUInt32
  let x := x ^^^ (x >>> (8 : UInt32))
  (x &&& 31).toNat

/-- The broadcast address. -/
def bcAddr : MacAddr := Vector.replicate 6 0xff

namespace StaPriv

/-! ## Model of the C code -/

/-- A change of one station. -/
def setSta (s : StaPriv) (psta : ℕ) (f : StaInfo → StaInfo) : StaPriv :=
  { s with sta := Function.update s.sta psta (f (s.sta psta)) }

/-- `rtw_alloc_stainfo` (lines 239–353). The hash is below `NUM_STA` always. -/
def rtwAllocStainfo (s : StaPriv) (hwaddr : MacAddr) : StaPriv × Option ℕ :=
  match s.freeStaQueue with
  | [] => (s, none)
  | psta :: rest =>
    ({ s with
        freeStaQueue := rest
        sta := Function.update s.sta psta { hwaddr := hwaddr }
        staHash := put s.staHash (wifiMacHash hwaddr) psta
        asocStaCount := s.asocStaCount + 1 }, some psta)

/-- `list_del_init(&psta->auth_list)` with its test and counter (lines 497–501). -/
def unlistAuth (s : StaPriv) (psta : ℕ) : StaPriv :=
  if psta ∈ s.authList then
    { s with authList := s.authList.erase psta, authListCnt := s.authListCnt - 1 }
  else s

/-- The association id goes back (lines 524–527). -/
def releaseAid (s : StaPriv) (psta : ℕ) : StaPriv :=
  let aid := (s.sta psta).aid
  if 0 < aid ∧ s.staAid (aid - 1) = some psta then
    { s with staAid := Function.update s.staAid (aid - 1) none }.setSta psta
      fun i => { i with aid := 0 }
  else s

/-- A station leaves the pending lists and its bucket (lines 388–441). -/
def unlinkSta (s : StaPriv) (psta : ℕ) : StaPriv :=
  { s with
    txPending := fun ac => (s.txPending ac).erase psta
    staHash := del s.staHash psta
    asocStaCount := s.asocStaCount - 1 }

/-- `rtw_free_stainfo` (lines 357–551). The frames it releases are those of the transmit
    and reorder queues. -/
def rtwFreeStainfo (s : StaPriv) : Option ℕ → StaPriv
  | none => s
  | some psta =>
    let s := s.setSta psta fun i => { i with state := { i.state with linked := false } }
    let s := s.unlinkSta psta
    let s := s.unlistAuth psta
    let s := s.setSta psta fun i => { i with expireTo := 0, underExistChecking := false }
    let s := s.releaseAid psta
    { s with freeStaQueue := s.freeStaQueue ++ [psta] }

/-- The address that `rtw_get_stainfo` looks for (lines 600–603). -/
def lookupAddr (hwaddr : MacAddr) : MacAddr := if isMulticast hwaddr then bcAddr else hwaddr

/-- `rtw_get_stainfo` (lines 587–627). -/
def rtwGetStainfo (s : StaPriv) (hwaddr : MacAddr) : Option ℕ :=
  (s.staHash (wifiMacHash (lookupAddr hwaddr))).find? fun psta =>
    (s.sta psta).hwaddr == lookupAddr hwaddr

/-- `rtw_get_bcmc_stainfo` (lines 667–676). -/
def rtwGetBcmcStainfo (s : StaPriv) : Option ℕ := s.rtwGetStainfo bcAddr

/-- The walk of `rtw_free_all_stainfo` over one bucket (lines 569–579); the next link is
    read before a station is released. -/
def freeBucket (pbcmcStainfo : Option ℕ) (s : StaPriv) (index : ℕ) : StaPriv :=
  (s.staHash index).foldl
    (fun s psta => if pbcmcStainfo ≠ some psta then s.rtwFreeStainfo (some psta) else s) s

/-- `rtw_free_all_stainfo` (lines 555–583). -/
def rtwFreeAllStainfo (s : StaPriv) : StaPriv :=
  if s.asocStaCount = 1 then s
  else (List.range numSta).foldl (freeBucket s.rtwGetBcmcStainfo) s

/-! ### What others do with a station of the table -/

/-- A station enters the authentication list (`rtw_mlme_ext.c`, lines 940–945). -/
def listAuth (s : StaPriv) (psta : ℕ) : StaPriv :=
  if psta ∈ s.authList then s
  else { s with authList := s.authList ++ [psta], authListCnt := s.authListCnt + 1 }

/-- A station enters the association list (lines 1641–1647). -/
def listAsoc (s : StaPriv) (psta : ℕ) : StaPriv :=
  if psta ∈ s.asocList then s
  else { s with asocList := s.asocList ++ [psta], asocListCnt := s.asocListCnt + 1 }

/-- A station leaves the association list (lines 921–928). -/
def unlistAsoc (s : StaPriv) (psta : ℕ) : StaPriv :=
  if psta ∈ s.asocList then
    { s with asocList := s.asocList.erase psta, asocListCnt := s.asocListCnt - 1 }
  else s

/-- The first free entry of `sta_aid`, as an association id (lines 1605–1607). -/
def firstAid (s : StaPriv) : ℕ :=
  ((List.range numSta).find? fun i => (s.staAid i).isNone).getD numSta + 1

/-- A unique association id (lines 1601–1626); `none` without room. -/
def assignAid (s : StaPriv) (psta : ℕ) : Option StaPriv :=
  if 0 < (s.sta psta).aid then some s
  else if s.firstAid > s.maxNumSta then none
  else
    some ({ s with staAid := Function.update s.staAid (s.firstAid - 1) (some psta) }.setSta psta
      fun i => { i with aid := s.firstAid })

/-- A station with frames to send enters the list of a queue (`rtw_xmit.c`, line 2097). -/
def linkPending (s : StaPriv) (psta : ℕ) (ac : Ac) : StaPriv :=
  if psta ∈ s.txPending ac then s
  else { s with txPending := put s.txPending ac psta }

/-- A station without frames leaves it. -/
def unlinkPending (s : StaPriv) (psta : ℕ) (ac : Ac) : StaPriv :=
  { s with txPending := Function.update s.txPending ac ((s.txPending ac).erase psta) }

/-! ## What the functions leave alone -/

section fields

variable (s : StaPriv) (psta : ℕ) (f : StaInfo → StaInfo)

@[simp] theorem setSta_self : (s.setSta psta f).sta psta = f (s.sta psta) := Function.update_self ..

theorem setSta_of_ne {x : ℕ} (h : x ≠ psta) : (s.setSta psta f).sta x = s.sta x :=
  Function.update_of_ne h ..

theorem setSta_hwaddr (hf : (f (s.sta psta)).hwaddr = (s.sta psta).hwaddr) (x : ℕ) :
    ((s.setSta psta f).sta x).hwaddr = (s.sta x).hwaddr := by
  by_cases h : x = psta
  · rw [h, setSta_self, hf]
  · rw [setSta_of_ne s psta f h]

@[simp] theorem unlinkSta_sta : (s.unlinkSta psta).sta = s.sta := rfl

@[simp] theorem unlistAuth_sta : (s.unlistAuth psta).sta = s.sta := by
  unfold unlistAuth
  split <;> rfl

theorem unlistAuth_eq : s.unlistAuth psta =
    { s with
      authList := s.authList.erase psta
      authListCnt := if psta ∈ s.authList then s.authListCnt - 1 else s.authListCnt } := by
  unfold unlistAuth
  split_ifs with h
  · rfl
  · rw [List.erase_of_not_mem h]

/-- `sta_aid` after the release of `psta`. -/
def releasedAid (s : StaPriv) (psta : ℕ) : ℕ → Option ℕ :=
  if 0 < (s.sta psta).aid ∧ s.staAid ((s.sta psta).aid - 1) = some psta then
    Function.update s.staAid ((s.sta psta).aid - 1) none
  else s.staAid

theorem releaseAid_staAid : (s.releaseAid psta).staAid = s.releasedAid psta := by
  unfold releaseAid releasedAid
  dsimp only
  split_ifs <;> rfl

/-- `releaseAid` touches `sta_aid` and the `aid` of `psta` only. -/
theorem releaseAid_eq : s.releaseAid psta =
    { s with staAid := s.releasedAid psta, sta := (s.releaseAid psta).sta } := by
  unfold releaseAid releasedAid
  dsimp only
  split_ifs <;> rfl

theorem releaseAid_hwaddr (x : ℕ) : ((s.releaseAid psta).sta x).hwaddr = (s.sta x).hwaddr := by
  unfold releaseAid
  dsimp only
  split_ifs
  · exact setSta_hwaddr _ psta _ rfl x
  · rfl

theorem releaseAid_of_ne {x : ℕ} (h : x ≠ psta) : (s.releaseAid psta).sta x = s.sta x := by
  unfold releaseAid
  dsimp only
  split_ifs
  · exact setSta_of_ne _ psta _ h
  · rfl

end fields

/-- An association id within the limit is that of a free entry. -/
theorem firstAid_free (s : StaPriv) (h : s.firstAid ≤ s.maxNumSta) : s.staAid (s.firstAid - 1) = none := by
  have hle := Nat.le_trans h s.maxNumSta_le
  unfold firstAid at hle ⊢
  cases hfind : (List.range numSta).find? fun i => (s.staAid i).isNone with
  | none =>
    rw [hfind] at hle
    exact absurd hle (by decide)
  | some i =>
    have hi := List.find?_some hfind
    exact Option.isNone_iff_eq_none.mp hi

/-- What `rtw_free_stainfo` does to the lists. -/
structure Released (s : StaPriv) (psta : ℕ) (s' : StaPriv) : Prop where
  freeStaQueue : s'.freeStaQueue = s.freeStaQueue ++ [psta]
  staHash : s'.staHash = del s.staHash psta
  asocStaCount : s'.asocStaCount = s.asocStaCount - 1
  asocList : s'.asocList = s.asocList
  asocListCnt : s'.asocListCnt = s.asocListCnt
  authList : s'.authList = s.authList.erase psta
  authListCnt : s'.authListCnt =
    if psta ∈ s.authList then s.authListCnt - 1 else s.authListCnt
  txPending : s'.txPending = fun ac => (s.txPending ac).erase psta
  staAid : s'.staAid = s.releasedAid psta
  hwaddr : ∀ x, (s'.sta x).hwaddr = (s.sta x).hwaddr
  sta : ∀ x, x ≠ psta → s'.sta x = s.sta x

theorem rtwFreeStainfo_released (s : StaPriv) (psta : ℕ) :
    Released s psta (s.rtwFreeStainfo (some psta)) := by
  have hlists : (s.rtwFreeStainfo (some psta)).freeStaQueue = s.freeStaQueue ++ [psta] ∧
      (s.rtwFreeStainfo (some psta)).staHash = del s.staHash psta ∧
      (s.rtwFreeStainfo (some psta)).asocStaCount = s.asocStaCount - 1 ∧
      (s.rtwFreeStainfo (some psta)).asocList = s.asocList ∧
      (s.rtwFreeStainfo (some psta)).asocListCnt = s.asocListCnt ∧
      (s.rtwFreeStainfo (some psta)).authList = s.authList.erase psta ∧
      (s.rtwFreeStainfo (some psta)).authListCnt =
        (if psta ∈ s.authList then s.authListCnt - 1 else s.authListCnt) ∧
      (s.rtwFreeStainfo (some psta)).txPending = fun ac => (s.txPending ac).erase psta := by
    simp only [rtwFreeStainfo]
    rw [releaseAid_eq, unlistAuth_eq]
    exact ⟨rfl, rfl, rfl, rfl, rfl, rfl, rfl, rfl⟩
  obtain ⟨h1, h2, h3, h4, h5, h6, h7, h8⟩ := hlists
  refine ⟨h1, h2, h3, h4, h5, h6, h7, h8, ?_, ?_, ?_⟩
  · simp only [rtwFreeStainfo, releaseAid_staAid, releasedAid, unlistAuth_eq]
    simp [setSta, unlinkSta]
  · intro x
    simp only [rtwFreeStainfo]
    rw [releaseAid_hwaddr, setSta_hwaddr _ psta _ rfl, unlistAuth_sta, unlinkSta_sta,
      setSta_hwaddr s psta _ rfl]
  · intro x hx
    simp only [rtwFreeStainfo]
    rw [releaseAid_of_ne _ psta hx, setSta_of_ne _ psta _ hx, unlistAuth_sta, unlinkSta_sta,
      setSta_of_ne s psta _ hx]

end StaPriv

/-! ## Invariant -/

/-- `x` is linked outside its bucket. -/
def Linked (s : StaPriv) (x : ℕ) : Prop :=
  x ∈ s.asocList ∨ x ∈ s.authList ∨ (∃ i, s.staAid i = some x) ∨ ∃ ac, x ∈ s.txPending ac

/-- What holds between any two operations. -/
structure TableInv (s : StaPriv) : Prop where
  hash : Exclusive s.staHash
  free_nodup : s.freeStaQueue.Nodup
  mem_free : ∀ x, x ∈ s.freeStaQueue ↔ x < numSta ∧ ¬ Placed s.staHash x
  lt : ∀ x, Placed s.staHash x → x < numSta
  bucket : ∀ i x, x ∈ s.staHash i → i = wifiMacHash (s.sta x).hwaddr
  count : s.asocStaCount = total (Finset.range numSta) s.staHash
  asoc_nodup : s.asocList.Nodup
  auth_nodup : s.authList.Nodup
  pending_nodup : ∀ ac, (s.txPending ac).Nodup
  linked : ∀ x, Linked s x → Placed s.staHash x
  aid : ∀ i x, s.staAid i = some x → (s.sta x).aid = i + 1

theorem wifiMacHash_lt (mac : MacAddr) : wifiMacHash mac < numSta := by
  unfold wifiMacHash
  dsimp only
  rw [UInt32.toNat_and]
  exact Nat.lt_of_le_of_lt Nat.and_le_right (by decide)

theorem tableInv_init : TableInv rtwInitStaPriv where
  hash := exclusive_nil
  free_nodup := List.nodup_range
  mem_free x := by
    show x ∈ List.range numSta ↔ _
    rw [List.mem_range]
    exact ⟨fun h => ⟨h, fun ⟨_, hx⟩ => List.not_mem_nil hx⟩, And.left⟩
  lt x := fun ⟨_, hx⟩ => absurd hx List.not_mem_nil
  bucket i x hx := absurd hx List.not_mem_nil
  count := rfl
  asoc_nodup := List.nodup_nil
  auth_nodup := List.nodup_nil
  pending_nodup _ := List.nodup_nil
  linked x := by
    rintro (hx | hx | ⟨i, hx⟩ | ⟨ac, hx⟩)
    · exact absurd hx List.not_mem_nil
    · exact absurd hx List.not_mem_nil
    · cases hx
    · exact absurd hx List.not_mem_nil
  aid i x hx := by cases hx

section step

variable {s : StaPriv} {psta : ℕ}

theorem TableInv.alloc (h : TableInv s) (hwaddr : MacAddr) :
    TableInv (s.rtwAllocStainfo hwaddr).1 := by
  unfold StaPriv.rtwAllocStainfo
  cases hfree : s.freeStaQueue with
  | nil => exact h
  | cons psta rest =>
    have hnd := h.free_nodup
    rw [hfree] at hnd
    obtain ⟨hrest, hnd⟩ := List.nodup_cons.mp hnd
    obtain ⟨hlt, hout⟩ := (h.mem_free psta).mp (hfree ▸ List.mem_cons_self)
    have hne : ∀ x, Placed s.staHash x → x ≠ psta := fun x hx hxp => hout (hxp ▸ hx)
    have hsta : ∀ x, x ≠ psta →
        Function.update s.sta psta { hwaddr := hwaddr } x = s.sta x := fun x hx =>
      Function.update_of_ne hx ..
    exact {
      hash := h.hash.put hout
      free_nodup := hnd
      mem_free := by
        intro x
        have hx := h.mem_free x
        rw [hfree, List.mem_cons] at hx
        rw [placed_put, not_or]
        constructor
        · intro hmem
          have hxp : x ≠ psta := fun hxp => hrest (hxp ▸ hmem)
          obtain ⟨h1, h2⟩ := hx.mp (Or.inr hmem)
          exact ⟨h1, hxp, h2⟩
        · rintro ⟨h1, hxp, h2⟩
          exact (hx.mpr ⟨h1, h2⟩).resolve_left hxp
      lt := by
        intro x hx
        rcases placed_put.mp hx with rfl | hx
        · exact hlt
        · exact h.lt x hx
      bucket := by
        intro i x hx
        rcases mem_put.mp hx with hx | ⟨rfl, rfl⟩
        · show i = wifiMacHash (Function.update s.sta psta _ x).hwaddr
          rw [hsta x (hne x ⟨i, hx⟩)]
          exact h.bucket i x hx
        · show _ = wifiMacHash (Function.update s.sta x _ x).hwaddr
          rw [Function.update_self]
      count := by
        show s.asocStaCount + 1 = _
        rw [h.count, total_put (Finset.mem_range.mpr (wifiMacHash_lt hwaddr))]
        rfl
      asoc_nodup := h.asoc_nodup
      auth_nodup := h.auth_nodup
      pending_nodup := h.pending_nodup
      linked := fun x hx => placed_put.mpr (Or.inr (h.linked x hx))
      aid := by
        intro i x hx
        have hxp := hne x (h.linked x (Or.inr (Or.inr (Or.inl ⟨i, hx⟩))))
        show (Function.update s.sta psta _ x).aid = i + 1
        rw [hsta x hxp]
        exact h.aid i x hx }

/-- An entry of `sta_aid` after a release. -/
theorem TableInv.releasedAid (h : TableInv s) {i x : ℕ} (hx : s.releasedAid psta i = some x) :
    s.staAid i = some x ∧ x ≠ psta := by
  unfold StaPriv.releasedAid at hx
  split_ifs at hx with hc
  · by_cases hi : i = (s.sta psta).aid - 1
    · rw [hi, Function.update_self] at hx
      cases hx
    · rw [Function.update_of_ne hi] at hx
      refine ⟨hx, fun hxp => hi ?_⟩
      rw [← hxp, h.aid i x hx]
      rfl
  · refine ⟨hx, fun hxp => hc ?_⟩
    subst hxp
    rw [h.aid i x hx]
    exact ⟨Nat.succ_pos i, hx⟩

theorem TableInv.free (h : TableInv s) (hp : Placed s.staHash psta) (hasoc : psta ∉ s.asocList) :
    TableInv (s.rtwFreeStainfo (some psta)) := by
  have r := s.rtwFreeStainfo_released psta
  obtain ⟨i, hi⟩ := hp
  have hi' : i ∈ Finset.range numSta := by
    rw [Finset.mem_range, h.bucket i psta hi]
    exact wifiMacHash_lt _
  exact {
    hash := by
      rw [r.staHash]
      exact h.hash.del psta
    free_nodup := by
      rw [r.freeStaQueue]
      refine List.nodup_append.mpr ⟨h.free_nodup, List.nodup_singleton psta, ?_⟩
      intro a ha b hb hab
      rw [List.mem_singleton] at hb
      exact ((h.mem_free a).mp ha).2 ⟨i, by rwa [hab, hb]⟩
    mem_free := by
      intro x
      rw [r.freeStaQueue, r.staHash, placed_del h.hash, List.mem_append, List.mem_singleton,
        h.mem_free x]
      constructor
      · rintro (⟨h1, h2⟩ | rfl)
        · exact ⟨h1, fun h3 => h2 h3.2⟩
        · exact ⟨h.lt x ⟨i, hi⟩, fun h3 => h3.1 rfl⟩
      · rintro ⟨h1, h2⟩
        by_cases hx : x = psta
        · exact Or.inr hx
        · exact Or.inl ⟨h1, fun h3 => h2 ⟨hx, h3⟩⟩
    lt := by
      intro x hx
      rw [r.staHash, placed_del h.hash] at hx
      exact h.lt x hx.2
    bucket := by
      intro j x hx
      rw [r.staHash, mem_del h.hash] at hx
      rw [r.hwaddr]
      exact h.bucket j x hx.2
    count := by
      have hone := total_del h.hash hi' hi
      rw [r.asocStaCount, r.staHash, h.count]
      omega
    asoc_nodup := by
      rw [r.asocList]
      exact h.asoc_nodup
    auth_nodup := by
      rw [r.authList]
      exact h.auth_nodup.erase psta
    pending_nodup := by
      intro ac
      rw [r.txPending]
      exact (h.pending_nodup ac).erase psta
    linked := by
      intro x hx
      rw [r.staHash, placed_del h.hash]
      unfold Linked at hx
      rw [r.asocList, r.authList, r.txPending, r.staAid] at hx
      rcases hx with hx | hx | ⟨j, hx⟩ | ⟨ac, hx⟩
      · exact ⟨fun hxp => hasoc (hxp ▸ hx), h.linked x (Or.inl hx)⟩
      · obtain ⟨hne, hx⟩ := h.auth_nodup.mem_erase_iff.mp hx
        exact ⟨hne, h.linked x (Or.inr (Or.inl hx))⟩
      · obtain ⟨hx, hne⟩ := h.releasedAid hx
        exact ⟨hne, h.linked x (Or.inr (Or.inr (Or.inl ⟨j, hx⟩)))⟩
      · obtain ⟨hne, hx⟩ := (h.pending_nodup ac).mem_erase_iff.mp hx
        exact ⟨hne, h.linked x (Or.inr (Or.inr (Or.inr ⟨ac, hx⟩)))⟩
    aid := by
      intro j x hx
      rw [r.staAid] at hx
      obtain ⟨hx, hne⟩ := h.releasedAid hx
      rw [r.sta x hne]
      exact h.aid j x hx }

/-- `rtw_free_all_stainfo` releases stations of the table only. -/
theorem TableInv.freeAll (h : TableInv s)
    (hasoc : ∀ x ∈ s.asocList, s.rtwGetBcmcStainfo = some x) : TableInv s.rtwFreeAllStainfo := by
  unfold StaPriv.rtwFreeAllStainfo
  split_ifs
  · exact h
  · generalize s.rtwGetBcmcStainfo = bcmc at hasoc
    have hbucket : ∀ t index, TableInv t ∧ (∀ x ∈ t.asocList, bcmc = some x) →
        TableInv (StaPriv.freeBucket bcmc t index) ∧
          ∀ x ∈ (StaPriv.freeBucket bcmc t index).asocList, bcmc = some x := by
      rintro t index ⟨ht, hl⟩
      unfold StaPriv.freeBucket
      refine foldl_of_mem (P := fun t => TableInv t ∧ ∀ x ∈ t.asocList, bcmc = some x)
        (M := fun t x => x ∈ t.staHash index) ?_ (ht.hash.nodup index) (fun x hx => hx) ⟨ht, hl⟩
      rintro t x ⟨ht, hl⟩ hx
      have r := t.rtwFreeStainfo_released x
      split_ifs with hb
      · refine ⟨⟨ht.free ⟨index, hx⟩ fun hmem => hb (hl x hmem), ?_⟩, ?_⟩
        · rw [r.asocList]
          exact hl
        · intro j hj hne
          rw [r.staHash, mem_del ht.hash]
          exact ⟨hne, hj⟩
      · exact ⟨⟨ht, hl⟩, fun j hj _ => hj⟩
    have hloop : ∀ (is : List ℕ) (t : StaPriv), TableInv t ∧ (∀ x ∈ t.asocList, bcmc = some x) →
        TableInv (is.foldl (StaPriv.freeBucket bcmc) t) := by
      intro is
      induction is with
      | nil => exact fun t ht => ht.1
      | cons index is ih => exact fun t ht => ih _ (hbucket t index ht)
    exact hloop _ s ⟨h, hasoc⟩

theorem TableInv.asoc (h : TableInv s) : ∀ x ∈ s.asocList, Placed s.staHash x :=
  fun x hx => h.linked x (Or.inl hx)

theorem TableInv.auth (h : TableInv s) : ∀ x ∈ s.authList, Placed s.staHash x :=
  fun x hx => h.linked x (Or.inr (Or.inl hx))

theorem TableInv.staAid (h : TableInv s) :
    ∀ i x, s.staAid i = some x → Placed s.staHash x ∧ (s.sta x).aid = i + 1 :=
  fun i x hx => ⟨h.linked x (Or.inr (Or.inr (Or.inl ⟨i, hx⟩))), h.aid i x hx⟩

theorem TableInv.pending (h : TableInv s) : ∀ ac, ∀ x ∈ s.txPending ac, Placed s.staHash x :=
  fun ac x hx => h.linked x (Or.inr (Or.inr (Or.inr ⟨ac, hx⟩)))

/-- Stations of the table may be linked elsewhere. -/
theorem TableInv.relink (h : TableInv s) {s' : StaPriv} (hhash : s'.staHash = s.staHash)
    (hfree : s'.freeStaQueue = s.freeStaQueue) (hcount : s'.asocStaCount = s.asocStaCount)
    (haddr : ∀ x, (s'.sta x).hwaddr = (s.sta x).hwaddr)
    (hasoc : s'.asocList.Nodup ∧ ∀ x ∈ s'.asocList, Placed s.staHash x)
    (hauth : s'.authList.Nodup ∧ ∀ x ∈ s'.authList, Placed s.staHash x)
    (haid : ∀ i x, s'.staAid i = some x → Placed s.staHash x ∧ (s'.sta x).aid = i + 1)
    (hpend : ∀ ac, (s'.txPending ac).Nodup ∧ ∀ x ∈ s'.txPending ac, Placed s.staHash x) :
    TableInv s' where
  hash := hhash ▸ h.hash
  free_nodup := hfree ▸ h.free_nodup
  mem_free := by rw [hhash, hfree]; exact h.mem_free
  lt := by rw [hhash]; exact h.lt
  bucket i x hx := by
    rw [hhash] at hx
    rw [haddr]
    exact h.bucket i x hx
  count := by rw [hhash, hcount]; exact h.count
  asoc_nodup := hasoc.1
  auth_nodup := hauth.1
  pending_nodup ac := (hpend ac).1
  linked x hx := by
    rw [hhash]
    rcases hx with hx | hx | ⟨i, hx⟩ | ⟨ac, hx⟩
    · exact hasoc.2 x hx
    · exact hauth.2 x hx
    · exact (haid i x hx).1
    · exact (hpend ac).2 x hx
  aid i x hx := (haid i x hx).2

/-- Appending a station of the table to a list of such. -/
theorem nodup_placed_append {l : List ℕ} {q : ℕ → List ℕ} {x : ℕ} (hl : l.Nodup)
    (hq : ∀ y ∈ l, Placed q y) (hx : x ∉ l) (hp : Placed q x) :
    (l ++ [x]).Nodup ∧ ∀ y ∈ l ++ [x], Placed q y := by
  refine ⟨List.nodup_append.mpr ⟨hl, List.nodup_singleton x, ?_⟩, ?_⟩
  · intro a ha b hb hab
    exact hx ((List.mem_singleton.mp hb) ▸ hab ▸ ha)
  · intro y hy
    rcases List.mem_append.mp hy with hy | hy
    · exact hq y hy
    · rw [List.mem_singleton.mp hy]
      exact hp

/-- Taking a station off a list of such. -/
theorem nodup_placed_erase {l : List ℕ} {q : ℕ → List ℕ} (x : ℕ) (hl : l.Nodup)
    (hq : ∀ y ∈ l, Placed q y) : (l.erase x).Nodup ∧ ∀ y ∈ l.erase x, Placed q y :=
  ⟨hl.erase x, fun y hy => hq y (List.mem_of_mem_erase hy)⟩

theorem TableInv.listAuth (h : TableInv s) (hp : Placed s.staHash psta) :
    TableInv (s.listAuth psta) := by
  unfold StaPriv.listAuth
  split_ifs with hx
  · exact h
  · exact h.relink rfl rfl rfl (fun _ => rfl) ⟨h.asoc_nodup, h.asoc⟩
      (nodup_placed_append h.auth_nodup h.auth hx hp) h.staAid
      fun ac => ⟨h.pending_nodup ac, h.pending ac⟩

theorem TableInv.listAsoc (h : TableInv s) (hp : Placed s.staHash psta) :
    TableInv (s.listAsoc psta) := by
  unfold StaPriv.listAsoc
  split_ifs with hx
  · exact h
  · exact h.relink rfl rfl rfl (fun _ => rfl) (nodup_placed_append h.asoc_nodup h.asoc hx hp)
      ⟨h.auth_nodup, h.auth⟩ h.staAid fun ac => ⟨h.pending_nodup ac, h.pending ac⟩

theorem TableInv.unlistAuth (h : TableInv s) (psta : ℕ) : TableInv (s.unlistAuth psta) := by
  rw [StaPriv.unlistAuth_eq]
  exact h.relink rfl rfl rfl (fun _ => rfl) ⟨h.asoc_nodup, h.asoc⟩
    (nodup_placed_erase psta h.auth_nodup h.auth) h.staAid
    fun ac => ⟨h.pending_nodup ac, h.pending ac⟩

theorem TableInv.unlistAsoc (h : TableInv s) (psta : ℕ) : TableInv (s.unlistAsoc psta) := by
  unfold StaPriv.unlistAsoc
  split_ifs
  · exact h.relink rfl rfl rfl (fun _ => rfl) (nodup_placed_erase psta h.asoc_nodup h.asoc)
      ⟨h.auth_nodup, h.auth⟩ h.staAid fun ac => ⟨h.pending_nodup ac, h.pending ac⟩
  · exact h

theorem TableInv.linkPending (h : TableInv s) (hp : Placed s.staHash psta) (ac : Ac) :
    TableInv (s.linkPending psta ac) := by
  unfold StaPriv.linkPending
  split_ifs with hx
  · exact h
  · refine h.relink rfl rfl rfl (fun _ => rfl) ⟨h.asoc_nodup, h.asoc⟩ ⟨h.auth_nodup, h.auth⟩
      h.staAid fun ac' => ?_
    by_cases hac : ac' = ac
    · subst hac
      simp only [put_self]
      exact nodup_placed_append (h.pending_nodup ac') (h.pending ac') hx hp
    · simp only [put_of_ne hac]
      exact ⟨h.pending_nodup ac', h.pending ac'⟩

theorem TableInv.unlinkPending (h : TableInv s) (psta : ℕ) (ac : Ac) :
    TableInv (s.unlinkPending psta ac) := by
  refine h.relink rfl rfl rfl (fun _ => rfl) ⟨h.asoc_nodup, h.asoc⟩ ⟨h.auth_nodup, h.auth⟩
    h.staAid fun ac' => ?_
  unfold StaPriv.unlinkPending
  by_cases hac : ac' = ac
  · subst hac
    simp only [Function.update_self]
    exact nodup_placed_erase psta (h.pending_nodup ac') (h.pending ac')
  · simp only [Function.update_of_ne hac]
    exact ⟨h.pending_nodup ac', h.pending ac'⟩

/-- A fresh association id is the one of no other station. -/
theorem TableInv.assignAid (h : TableInv s) (hp : Placed s.staHash psta) {s' : StaPriv}
    (hs : s.assignAid psta = some s') : TableInv s' := by
  unfold StaPriv.assignAid at hs
  split_ifs at hs with haid hroom
  · obtain rfl := Option.some.inj hs
    exact h
  · obtain rfl := Option.some.inj hs
    refine h.relink rfl rfl rfl (fun x => StaPriv.setSta_hwaddr _ psta _ rfl x)
      ⟨h.asoc_nodup, h.asoc⟩ ⟨h.auth_nodup, h.auth⟩ ?_ fun ac => ⟨h.pending_nodup ac, h.pending ac⟩
    intro i x hx
    have hx' : Function.update s.staAid (s.firstAid - 1) (some psta) i = some x := hx
    by_cases hi : i = s.firstAid - 1
    · subst hi
      rw [Function.update_self] at hx'
      obtain rfl := Option.some.inj hx'
      refine ⟨hp, ?_⟩
      rw [StaPriv.setSta_self]
      rfl
    · rw [Function.update_of_ne hi] at hx'
      obtain ⟨hplaced, hxaid⟩ := h.staAid i x hx'
      have hne : x ≠ psta := fun hxp => haid (by rw [← hxp, hxaid]; exact Nat.succ_pos i)
      rw [StaPriv.setSta_of_ne _ psta _ hne]
      exact ⟨hplaced, hxaid⟩

end step

/-! ## Runs -/

/-- The operations on the table, and what others do with its stations. -/
inductive TableOp where
  | alloc (hwaddr : MacAddr)
  | free (psta : Option ℕ)
  | freeAll
  | listAuth (psta : ℕ)
  | unlistAuth (psta : ℕ)
  | listAsoc (psta : ℕ)
  | unlistAsoc (psta : ℕ)
  | assignAid (psta : ℕ)
  | linkPending (psta : ℕ) (ac : Ac)
  | unlinkPending (psta : ℕ) (ac : Ac)
  deriving DecidableEq, Repr

def tableStep (s : StaPriv) : TableOp → StaPriv
  | .alloc hwaddr => (s.rtwAllocStainfo hwaddr).1
  | .free psta => s.rtwFreeStainfo psta
  | .freeAll => s.rtwFreeAllStainfo
  | .listAuth psta => s.listAuth psta
  | .unlistAuth psta => s.unlistAuth psta
  | .listAsoc psta => s.listAsoc psta
  | .unlistAsoc psta => s.unlistAsoc psta
  | .assignAid psta => (s.assignAid psta).getD s
  | .linkPending psta ac => s.linkPending psta ac
  | .unlinkPending psta ac => s.unlinkPending psta ac

/-- Stations are released and linked while they are in the table, and the caller takes a
    station off the association list before its release. -/
def Proper (s : StaPriv) : TableOp → Prop
  | .free (some psta) => Placed s.staHash psta ∧ psta ∉ s.asocList
  | .freeAll => ∀ x ∈ s.asocList, s.rtwGetBcmcStainfo = some x
  | .listAuth psta | .listAsoc psta | .assignAid psta | .linkPending psta _ =>
    Placed s.staHash psta
  | .alloc _ | .free none | .unlistAuth _ | .unlistAsoc _ | .unlinkPending _ _ => True

theorem tableInv_step (s : StaPriv) (op : TableOp) (hp : Proper s op) (h : TableInv s) :
    TableInv (tableStep s op) := by
  cases op with
  | alloc hwaddr => exact h.alloc hwaddr
  | free psta =>
    cases psta with
    | none => exact h
    | some psta => exact h.free hp.1 hp.2
  | freeAll => exact h.freeAll hp
  | listAuth psta => exact h.listAuth hp
  | unlistAuth psta => exact h.unlistAuth psta
  | listAsoc psta => exact h.listAsoc hp
  | unlistAsoc psta => exact h.unlistAsoc psta
  | assignAid psta =>
    show TableInv ((s.assignAid psta).getD s)
    cases hs : s.assignAid psta with
    | none => exact h
    | some s' => exact h.assignAid hp hs
  | linkPending psta ac => exact h.linkPending hp ac
  | unlinkPending psta ac => exact h.unlinkPending psta ac

/-- The table is consistent: every station is free or in the bucket of its address, the
    counter counts, free stations are linked nowhere, and lookup finds the stations of the
    table. -/
structure StationTable (s : StaPriv) : Prop where
  place : ∀ x < numSta, (s.freeStaQueue.count x = 1 ∧ ¬ Placed s.staHash x) ∨
    (x ∉ s.freeStaQueue ∧ (∃! i, x ∈ s.staHash i) ∧
      ∀ i, x ∈ s.staHash i → i = wifiMacHash (s.sta x).hwaddr)
  count : s.asocStaCount = total (Finset.range numSta) s.staHash
  free : ∀ x ∈ s.freeStaQueue, ¬ Linked s x
  lookup : ∀ a x, s.rtwGetStainfo a = some x →
    Placed s.staHash x ∧ (s.sta x).hwaddr = StaPriv.lookupAddr a
  unicast : ∀ a, isMulticast a = false →
    ((s.rtwGetStainfo a).isSome ↔ ∃ x, Placed s.staHash x ∧ (s.sta x).hwaddr = a)
  multicast : ∀ a, isMulticast a = true → s.rtwGetStainfo a = s.rtwGetBcmcStainfo ∧
    ((s.rtwGetStainfo a).isSome ↔ ∃ x, Placed s.staHash x ∧ (s.sta x).hwaddr = bcAddr)

section lookup

variable {s : StaPriv}

/-- Lookup finds a station with the address it looks for, if the table has one. -/
theorem TableInv.rtwGetStainfo (h : TableInv s) (a : MacAddr) :
    (∀ x, s.rtwGetStainfo a = some x →
      Placed s.staHash x ∧ (s.sta x).hwaddr = StaPriv.lookupAddr a) ∧
    ((s.rtwGetStainfo a).isSome ↔
      ∃ x, Placed s.staHash x ∧ (s.sta x).hwaddr = StaPriv.lookupAddr a) := by
  have hfound : ∀ x, s.rtwGetStainfo a = some x →
      Placed s.staHash x ∧ (s.sta x).hwaddr = StaPriv.lookupAddr a := by
    intro x hx
    refine ⟨⟨_, List.mem_of_find?_eq_some hx⟩, ?_⟩
    exact beq_iff_eq.mp (List.find?_some hx :)
  refine ⟨hfound, ?_, ?_⟩
  · intro hsome
    obtain ⟨x, hx⟩ := Option.isSome_iff_exists.mp hsome
    exact ⟨x, hfound x hx⟩
  · rintro ⟨x, ⟨i, hi⟩, haddr⟩
    unfold StaPriv.rtwGetStainfo
    rw [List.find?_isSome]
    refine ⟨x, ?_, beq_iff_eq.mpr haddr⟩
    rw [← haddr, ← h.bucket i x hi]
    exact hi

theorem TableInv.stationTable (h : TableInv s) : StationTable s where
  place x hx := by
    by_cases hp : Placed s.staHash x
    · refine Or.inr ⟨fun hf => ((h.mem_free x).mp hf).2 hp, h.hash.existsUnique hp, ?_⟩
      exact fun i hi => h.bucket i x hi
    · have hf := (h.mem_free x).mpr ⟨hx, hp⟩
      exact Or.inl ⟨List.count_eq_one_of_mem h.free_nodup hf, hp⟩
  count := h.count
  free x hx hl := ((h.mem_free x).mp hx).2 (h.linked x hl)
  lookup a := (h.rtwGetStainfo a).1
  unicast a ha := by
    have hlook := (h.rtwGetStainfo a).2
    rwa [StaPriv.lookupAddr, ha, if_neg (by decide)] at hlook
  multicast a ha := by
    have hlook := (h.rtwGetStainfo a).2
    have haddr : StaPriv.lookupAddr a = bcAddr := if_pos ha
    rw [haddr] at hlook
    refine ⟨?_, hlook⟩
    rw [StaPriv.rtwGetBcmcStainfo, StaPriv.rtwGetStainfo, StaPriv.rtwGetStainfo, haddr]
    rfl

end lookup

/-- The station table along every proper run. -/
theorem stationTable_of_run (ops : List TableOp) (h : Guarded tableStep Proper rtwInitStaPriv ops)
    (n : ℕ) : StationTable (run tableStep rtwInitStaPriv (ops.take n)) :=
  (invariant_run_take tableInv_step h tableInv_init n).stationTable

/-- Two stations besides the broadcast station, one of them associated, and the release of
    all. -/
def flushRun : List TableOp :=
  [.alloc bcAddr, .alloc (Vector.replicate 6 2), .alloc (Vector.replicate 6 4), .listAuth 1,
    .assignAid 1, .unlistAuth 1, .listAsoc 1, .linkPending 1 .be, .unlistAsoc 1, .freeAll,
    .alloc (Vector.replicate 6 6)]

theorem stationTable_of_flushRun : StationTable (run tableStep rtwInitStaPriv flushRun) := by
  have hguard : Guarded tableStep Proper rtwInitStaPriv flushRun :=
    ⟨trivial, trivial, trivial, ⟨wifiMacHash (Vector.replicate 6 2), by decide⟩,
      ⟨wifiMacHash (Vector.replicate 6 2), by decide⟩, trivial,
      ⟨wifiMacHash (Vector.replicate 6 2), by decide⟩,
      ⟨wifiMacHash (Vector.replicate 6 2), by decide⟩, trivial,
      fun _ hx => absurd hx List.not_mem_nil, trivial, trivial⟩
  exact stationTable_of_run flushRun hguard 11

/-- A station released twice. -/
theorem released_twice : ¬ StationTable (run tableStep rtwInitStaPriv
    [.alloc (Vector.replicate 6 2), .free (some 0), .free (some 0)]) := by
  intro h
  exact absurd h.count (by decide)

end Rtl8821au.Sta
