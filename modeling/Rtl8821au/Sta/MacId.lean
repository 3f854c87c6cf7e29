import Mathlib.Tactic.SplitIfs
import Rtl8821au.Lib.Run
import Rtl8821au.Sta.Table

/-!
# MAC ids and key entries

The hardware knows a station by its `mac_id`, which `rtw_alloc_stainfo` takes from the
table `macid` of the device and `rtw_free_stainfo` gives back (`rtw_wlan_util.c`,
lines 2047–2134). `rtw_get_camid` turns it into an entry of the key table: that is where
`set_stakey_hdl` writes a pairwise key and what `ap_free_sta` clears.

`set_stakey_hdl` refuses, in access point mode, the ids whose entry the table does not have;
`rtw_alloc_macid` gives them out, and `ap_free_sta` does not ask.

Results:
* `macidInv_step`: no two stations share an id, and the table marks the ids in use.
* `keySlots_iff`: when the key entries of all of them exist.
* `keySlots_of_run`: both along every run.
-/

namespace Rtl8821au.Sta

open Recv (MacAddr)
open Places Run

/-! ## Model of the C code -/

/-- `TOTAL_CAM_ENTRY` (`wifi.h`, line 10). -/
def totalCamEntry : ℕ := 32

/-- `rtw_get_camid` (lines 2047–2065). -/
def rtwGetCamid (macid : ℕ) : ℕ :=
  if macid = 0 then 4 else if 2 ≤ macid then macid + 3 else 4

/-- The entry that `set_stakey_hdl` writes for a station (`rtw_mlme_ext.c`,
    lines 6262–6306); `none` if it rejects. -/
def setStakeyEntry (ap : Bool) (macId : ℕ) : Option ℕ :=
  if ap && (macId == 1 || decide (numSta - 4 < macId)) then none
  else some (rtwGetCamid macId % 256)

/-- The entry that `ap_free_sta` has cleared (`rtw_ap.c`, line 2069). -/
def clearstakeyEntry (macId : ℕ) : ℕ := rtwGetCamid macId % 256

/-- The stations, the table `macid` of the device and `mac_id` of every station;
    `macAddr` is the address of the device. -/
structure MacidPriv where
  stapriv : StaPriv
  macAddr : MacAddr
  macid : ℕ → Bool
  macId : ℕ → ℕ

namespace MacidPriv

variable (s : MacidPriv)

/-- `macid[1] = true` (`usb.c`, line 852) and the first `rtw_init_sta_priv`. -/
def init (macAddr : MacAddr) : MacidPriv where
  stapriv := rtwInitStaPriv
  macAddr := macAddr
  macid i := i == 1
  macId _ := 0

/-- The address of a station. -/
def hwaddr (psta : ℕ) : MacAddr := (s.stapriv.sta psta).hwaddr

/-- `rtw_alloc_macid` (lines 2067–2104). -/
def rtwAllocMacid (psta : ℕ) : MacidPriv :=
  if s.hwaddr psta = bcAddr then s
  else if s.hwaddr psta = s.macAddr then { s with macId := Function.update s.macId psta numSta }
  else
    match (List.range numSta).find? fun i => !s.macid i with
    | some i =>
      { s with macid := Function.update s.macid i true, macId := Function.update s.macId psta i }
    | none => { s with macId := Function.update s.macId psta numSta }

/-- `rtw_release_macid` (lines 2106–2134). -/
def rtwReleaseMacid (psta : ℕ) : MacidPriv :=
  if s.hwaddr psta = bcAddr then s
  else if s.hwaddr psta = s.macAddr then s
  else if s.macId psta < numSta ∧ s.macId psta ≠ 1 ∧ s.macid (s.macId psta) = true then
    { s with
      macid := Function.update s.macid (s.macId psta) false
      macId := Function.update s.macId psta numSta }
  else s

/-- `rtw_alloc_stainfo`: a zeroed record, and its `mac_id`. -/
def rtwAllocStainfo (hwaddr : MacAddr) : MacidPriv :=
  match s.stapriv.rtwAllocStainfo hwaddr with
  | (stapriv, none) => { s with stapriv }
  | (stapriv, some psta) =>
    { s with stapriv, macId := Function.update s.macId psta 0 }.rtwAllocMacid psta

/-- `rtw_free_stainfo`. -/
def rtwFreeStainfo : Option ℕ → MacidPriv
  | none => s
  | some psta =>
    { s.rtwReleaseMacid psta with stapriv := s.stapriv.rtwFreeStainfo (some psta) }

/-- `rtw_init_bcmc_stainfo` (`rtw_sta_mgt.c`, lines 629–660). -/
def rtwInitBcmcStainfo : MacidPriv :=
  let s' := s.rtwAllocStainfo bcAddr
  match (s.stapriv.rtwAllocStainfo bcAddr).2 with
  | none => s'
  | some psta => { s' with macId := Function.update s'.macId psta 1 }

/-- A station of the table, as its callers find it; `none` is `NULL`. -/
def find (psta : ℕ) : Option ℕ :=
  if (List.range numSta).any fun i => psta ∈ s.stapriv.staHash i then some psta else none

end MacidPriv

/-- The calls, in any order. -/
inductive MacidOp where
  | alloc (hwaddr : MacAddr)
  | free (psta : ℕ)
  | initBcmc
  deriving DecidableEq, Repr

def macidStep (s : MacidPriv) : MacidOp → MacidPriv
  | .alloc hwaddr => s.rtwAllocStainfo hwaddr
  | .free psta => s.rtwFreeStainfo (s.find psta)
  | .initBcmc => s.rtwInitBcmcStainfo

/-! ## What is asked -/

/-- A station that has an id of its own: not the broadcast station, not the device itself. -/
structure HasMacid (s : MacidPriv) (x : ℕ) : Prop where
  placed : Placed s.stapriv.staHash x
  unicast : s.hwaddr x ≠ bcAddr
  other : s.hwaddr x ≠ s.macAddr
  lt : s.macId x < numSta

/-- No id is shared, none is that of the broadcast station, and `macid` marks the ids in use. -/
structure MacidInv (s : MacidPriv) : Prop where
  table : TableInv s.stapriv
  noAsoc : s.stapriv.asocList = []
  distinct : ∀ x y, HasMacid s x → HasMacid s y → s.macId x = s.macId y → x = y
  reserved : ∀ x, HasMacid s x → s.macId x ≠ 1
  marked : ∀ i < numSta, s.macid i = true ↔ i = 1 ∨ ∃ x, HasMacid s x ∧ s.macId x = i

/-- Every station has a key entry of its own, which exists; it is the entry that
    `set_stakey_hdl` writes and `ap_free_sta` clears. -/
structure KeySlots (s : MacidPriv) : Prop where
  macids : MacidInv s
  camid : ∀ x y, HasMacid s x → HasMacid s y → x ≠ y →
    rtwGetCamid (s.macId x) ≠ rtwGetCamid (s.macId y)
  exist : ∀ x, HasMacid s x →
    4 ≤ rtwGetCamid (s.macId x) ∧ rtwGetCamid (s.macId x) < totalCamEntry
  written : ∀ ap x, HasMacid s x →
    setStakeyEntry ap (s.macId x) = some (rtwGetCamid (s.macId x))
  cleared : ∀ x, HasMacid s x → clearstakeyEntry (s.macId x) = rtwGetCamid (s.macId x)

/-- A station that needs an id and gets a record finds one that has a key entry. -/
def SlotFree (s : MacidPriv) : MacidOp → Prop
  | .alloc hwaddr =>
    hwaddr ≠ bcAddr → hwaddr ≠ s.macAddr → s.stapriv.freeStaQueue ≠ [] →
      ∃ i ≤ 28, s.macid i = false
  | .free _ | .initBcmc => True

/-! ## One step -/

section step

variable {s : MacidPriv}

theorem rtwGetCamid_inj {i j : ℕ} (hi : i ≠ 1) (hj : j ≠ 1) (h : rtwGetCamid i = rtwGetCamid j) :
    i = j := by
  unfold rtwGetCamid at h
  split_ifs at h <;> omega

theorem four_le_rtwGetCamid (i : ℕ) : 4 ≤ rtwGetCamid i := by
  unfold rtwGetCamid
  split_ifs <;> omega

theorem rtwGetCamid_lt_iff (i : ℕ) : rtwGetCamid i < totalCamEntry ↔ i ≤ 28 := by
  unfold rtwGetCamid totalCamEntry
  split_ifs <;> omega

/-- The key entries exist exactly if no id is above 28. -/
theorem MacidInv.keySlots_iff (h : MacidInv s) :
    KeySlots s ↔ ∀ x, HasMacid s x → s.macId x ≤ 28 := by
  refine ⟨fun hk x hx => (rtwGetCamid_lt_iff _).mp (hk.exist x hx).2, fun hle => ?_⟩
  have hlt := fun x hx => (rtwGetCamid_lt_iff _).mpr (hle x hx)
  have hmod : ∀ x, HasMacid s x → rtwGetCamid (s.macId x) % 256 = rtwGetCamid (s.macId x) := by
    intro x hx
    have := hlt x hx
    rw [totalCamEntry] at this
    omega
  refine ⟨h, fun x y hx hy hxy hc => ?_, fun x hx => ⟨four_le_rtwGetCamid _, hlt x hx⟩,
    fun ap x hx => ?_, hmod⟩
  · exact hxy (h.distinct x y hx hy (rtwGetCamid_inj (h.reserved x hx) (h.reserved y hy) hc))
  · have hid : (ap && (s.macId x == 1 || decide (numSta - 4 < s.macId x))) = false := by
      have h1 := h.reserved x hx
      have h2 := hle x hx
      have h3 : ¬numSta - 4 < s.macId x := by rw [numSta]; omega
      simp [h1, h3]
    rw [setStakeyEntry, hid, if_neg (by decide), hmod x hx]

theorem find_eq (h : TableInv s.stapriv) (psta : ℕ) :
    (s.find psta = none ∧ ¬Placed s.stapriv.staHash psta) ∨
      (s.find psta = some psta ∧ Placed s.stapriv.staHash psta) := by
  unfold MacidPriv.find
  split_ifs with hany
  · obtain ⟨i, -, hi⟩ := List.any_eq_true.mp hany
    exact Or.inr ⟨rfl, i, of_decide_eq_true hi⟩
  · refine Or.inl ⟨rfl, fun ⟨i, hi⟩ => hany (List.any_eq_true.mpr ⟨i, ?_, decide_eq_true hi⟩)⟩
    rw [List.mem_range, h.bucket i psta hi]
    exact wifiMacHash_lt _

theorem MacidInv.congr {s' : MacidPriv} (h : MacidInv s) (htable : TableInv s'.stapriv)
    (hasoc : s'.stapriv.asocList = []) (hhas : ∀ x, HasMacid s' x ↔ HasMacid s x)
    (hid : ∀ x, HasMacid s x → s'.macId x = s.macId x) (hmac : s'.macid = s.macid) :
    MacidInv s' where
  table := htable
  noAsoc := hasoc
  distinct x y hx hy hxy := by
    have hx := (hhas x).mp hx
    have hy := (hhas y).mp hy
    rw [hid x hx, hid y hy] at hxy
    exact h.distinct x y hx hy hxy
  reserved x hx := by
    have hx := (hhas x).mp hx
    rw [hid x hx]
    exact h.reserved x hx
  marked i hi := by
    rw [hmac, h.marked i hi]
    refine or_congr_right (exists_congr fun x => ?_)
    rw [hhas x]
    exact and_congr_right fun hx => by rw [hid x hx]

/-- A new station with a free id. -/
theorem MacidInv.newStation {s' : MacidPriv} {psta i : ℕ} (h : MacidInv s) (htable : TableInv s'.stapriv)
    (hasoc : s'.stapriv.asocList = []) (hi : i < numSta) (hfree : s.macid i = false)
    (hhas : ∀ x, HasMacid s' x ↔ x = psta ∨ HasMacid s x) (hout : ¬HasMacid s psta)
    (hid : ∀ x, HasMacid s x → s'.macId x = s.macId x) (hnew : s'.macId psta = i)
    (hmac : s'.macid = Function.update s.macid i true) : MacidInv s' := by
  have hunused : i ≠ 1 ∧ ∀ x, HasMacid s x → s.macId x ≠ i := by
    have hno : ¬(i = 1 ∨ ∃ x, HasMacid s x ∧ s.macId x = i) := by
      rw [← h.marked i hi, hfree]
      decide
    exact ⟨fun hc => hno (Or.inl hc), fun x hx hc => hno (Or.inr ⟨x, hx, hc⟩)⟩
  refine ⟨htable, hasoc, fun x y hx hy hxy => ?_, fun x hx => ?_, fun j hj => ?_⟩
  · rcases (hhas x).mp hx with rfl | hx
    · rcases (hhas y).mp hy with rfl | hy
      · rfl
      · rw [hnew, hid y hy] at hxy
        exact absurd hxy.symm (hunused.2 y hy)
    · rcases (hhas y).mp hy with rfl | hy
      · rw [hnew, hid x hx] at hxy
        exact absurd hxy (hunused.2 x hx)
      · rw [hid x hx, hid y hy] at hxy
        exact h.distinct x y hx hy hxy
  · rcases (hhas x).mp hx with rfl | hx
    · rw [hnew]
      exact hunused.1
    · rw [hid x hx]
      exact h.reserved x hx
  · rw [hmac]
    by_cases hji : j = i
    · subst hji
      rw [Function.update_self]
      exact ⟨fun _ => Or.inr ⟨psta, (hhas psta).mpr (Or.inl rfl), hnew⟩, fun _ => rfl⟩
    · rw [Function.update_of_ne hji, h.marked j hj]
      refine or_congr_right ⟨fun ⟨x, hx, hxj⟩ => ?_, fun ⟨x, hx, hxj⟩ => ?_⟩
      · exact ⟨x, (hhas x).mpr (Or.inr hx), (hid x hx).trans hxj⟩
      · rcases (hhas x).mp hx with rfl | hx
        · exact absurd (hxj.symm.trans hnew) hji
        · exact ⟨x, hx, (hid x hx).symm.trans hxj⟩

/-- What `rtw_alloc_stainfo` of the station table does, if there is a record. -/
theorem alloc_some (h : TableInv s.stapriv) {hwaddr : MacAddr} {stapriv : StaPriv} {psta : ℕ}
    (ha : s.stapriv.rtwAllocStainfo hwaddr = (stapriv, some psta)) :
    ¬Placed s.stapriv.staHash psta ∧
      (∀ x, Placed stapriv.staHash x ↔ x = psta ∨ Placed s.stapriv.staHash x) ∧
      (stapriv.sta psta).hwaddr = hwaddr ∧ (∀ x, x ≠ psta → stapriv.sta x = s.stapriv.sta x) ∧
      stapriv.asocList = s.stapriv.asocList ∧ s.stapriv.freeStaQueue ≠ [] := by
  unfold StaPriv.rtwAllocStainfo at ha
  cases hfree : s.stapriv.freeStaQueue with
  | nil =>
    rw [hfree] at ha
    simp at ha
  | cons a rest =>
    rw [hfree] at ha
    obtain ⟨rfl, hpsta⟩ := Prod.mk.inj ha
    obtain rfl := Option.some.inj hpsta
    have hout := ((h.mem_free a).mp (hfree ▸ List.mem_cons_self)).2
    refine ⟨hout, fun x => placed_put, ?_, fun x hx => Function.update_of_ne hx _ _, rfl, by simp⟩
    show (Function.update s.stapriv.sta a _ a).hwaddr = hwaddr
    rw [Function.update_self]

/-- Without a record nothing changes. -/
theorem alloc_none {hwaddr : MacAddr} {stapriv : StaPriv}
    (ha : s.stapriv.rtwAllocStainfo hwaddr = (stapriv, none)) :
    stapriv = s.stapriv ∧ s.stapriv.freeStaQueue = [] := by
  unfold StaPriv.rtwAllocStainfo at ha
  cases hfree : s.stapriv.freeStaQueue with
  | nil =>
    rw [hfree] at ha
    exact ⟨(Prod.mk.inj ha).1.symm, rfl⟩
  | cons a rest =>
    rw [hfree] at ha
    simp at ha

/-- The stations with an id after an allocation. -/
theorem hasMacid_alloc (h : TableInv s.stapriv) {hwaddr : MacAddr} {stapriv : StaPriv} {psta : ℕ}
    (ha : s.stapriv.rtwAllocStainfo hwaddr = (stapriv, some psta)) {s' : MacidPriv}
    (hs' : s'.stapriv = stapriv) (haddr : s'.macAddr = s.macAddr)
    (hid : ∀ x, x ≠ psta → s'.macId x = s.macId x) (x : ℕ) :
    HasMacid s' x ↔
      (x = psta ∧ hwaddr ≠ bcAddr ∧ hwaddr ≠ s.macAddr ∧ s'.macId psta < numSta) ∨
        HasMacid s x := by
  obtain ⟨hout, hplaced, hnew, hold, -, -⟩ := alloc_some h ha
  have hhw : ∀ y, s'.hwaddr y = (stapriv.sta y).hwaddr := fun y => by
    rw [MacidPriv.hwaddr, hs']
  by_cases hx : x = psta
  · subst hx
    constructor
    · rintro ⟨-, h2, h3, h4⟩
      rw [hhw, hnew] at h2
      rw [hhw, hnew, haddr] at h3
      exact Or.inl ⟨rfl, h2, h3, h4⟩
    · rintro (⟨-, h2, h3, h4⟩ | hh)
      · refine ⟨?_, ?_, ?_, h4⟩
        · rw [hs']
          exact (hplaced x).mpr (Or.inl rfl)
        · rw [hhw, hnew]
          exact h2
        · rw [hhw, hnew, haddr]
          exact h3
      · exact absurd hh.placed hout
  · have hsame : s'.hwaddr x = s.hwaddr x := by rw [hhw, hold x hx, MacidPriv.hwaddr]
    constructor
    · rintro ⟨h1, h2, h3, h4⟩
      rw [hs', hplaced] at h1
      exact Or.inr ⟨h1.resolve_left hx, hsame ▸ h2, haddr ▸ hsame ▸ h3, hid x hx ▸ h4⟩
    · rintro (⟨hc, -⟩ | ⟨h1, h2, h3, h4⟩)
      · exact absurd hc hx
      · refine ⟨?_, hsame ▸ h2, ?_, ?_⟩
        · rw [hs']
          exact (hplaced x).mpr (Or.inr h1)
        · rw [hsame, haddr]
          exact h3
        · rw [hid x hx]
          exact h4

/-- The id that `rtw_alloc_macid` finds. -/
theorem find_macid {i : ℕ} (hi : (List.range numSta).find? (fun i => !s.macid i) = some i) :
    i < numSta ∧ s.macid i = false ∧ ∀ j < i, s.macid j = true := by
  obtain ⟨hfree, hmin⟩ := List.find?_range_eq_some.mp hi
  refine ⟨?_, by simpa using hfree, fun j hj => by simpa using hmin.2 j hj⟩
  exact List.mem_range.mp (List.mem_of_find?_eq_some hi)

/-- `s'` has the stations of `s` with an id, and a new one with the first free id. -/
structure Admits (s s' : MacidPriv) (i : ℕ) : Prop where
  lt : i < numSta
  free : s.macid i = false
  first : ∀ j < i, s.macid j = true
  has : ∃ psta, s'.macId psta = i ∧ ∀ x, HasMacid s' x ↔ x = psta ∨ HasMacid s x
  macId : ∀ x, HasMacid s x → s'.macId x = s.macId x

/-- `s'` has no other stations with an id than `s`. -/
structure NoneNew (s s' : MacidPriv) : Prop where
  has : ∀ x, HasMacid s' x → HasMacid s x
  macId : ∀ x, HasMacid s' x → s'.macId x = s.macId x

/-- A new station that gets no id of its own: nothing is new. -/
theorem MacidInv.quiet (h : MacidInv s) {hwaddr : MacAddr} {stapriv : StaPriv} {psta : ℕ}
    (ha : s.stapriv.rtwAllocStainfo hwaddr = (stapriv, some psta)) (s' : MacidPriv)
    (hs' : s'.stapriv = stapriv) (haddr : s'.macAddr = s.macAddr)
    (hid : ∀ x, x ≠ psta → s'.macId x = s.macId x) (hmac : s'.macid = s.macid)
    (hno : ¬(hwaddr ≠ bcAddr ∧ hwaddr ≠ s.macAddr ∧ s'.macId psta < numSta)) :
    MacidInv s' ∧ NoneNew s s' := by
  have htable := h.table.alloc hwaddr
  rw [ha] at htable
  obtain ⟨hout, -, -, -, hasoc, -⟩ := alloc_some h.table ha
  have hhas : ∀ x, HasMacid s' x ↔ HasMacid s x := fun x =>
    (hasMacid_alloc h.table ha hs' haddr hid x).trans
      ⟨fun hx => hx.resolve_left fun hc => hno hc.2, Or.inr⟩
  have hids : ∀ x, HasMacid s x → s'.macId x = s.macId x := fun x hx =>
    hid x fun hc => hout (hc ▸ hx.placed)
  exact ⟨h.congr (hs' ▸ htable) (hs' ▸ hasoc.trans h.noAsoc) hhas hids hmac,
    fun x hx => (hhas x).mp hx, fun x hx => hids x ((hhas x).mp hx)⟩

/-- An allocation either gives out the first free id, or no id at all: to the broadcast
    station, to the device, without a record, or without a free id. -/
theorem MacidInv.alloc (h : MacidInv s) (hwaddr : MacAddr) :
    MacidInv (s.rtwAllocStainfo hwaddr) ∧
      ((hwaddr ≠ bcAddr ∧ hwaddr ≠ s.macAddr ∧ s.stapriv.freeStaQueue ≠ [] ∧
          ∃ i, Admits s (s.rtwAllocStainfo hwaddr) i) ∨
        ((hwaddr = bcAddr ∨ hwaddr = s.macAddr ∨ s.stapriv.freeStaQueue = [] ∨
            ∀ i < numSta, s.macid i = true) ∧
          NoneNew s (s.rtwAllocStainfo hwaddr))) := by
  have htable := h.table.alloc hwaddr
  unfold MacidPriv.rtwAllocStainfo
  cases ha : s.stapriv.rtwAllocStainfo hwaddr with
  | mk stapriv r =>
    rw [ha] at htable
    cases r with
    | none =>
      obtain ⟨rfl, hfree⟩ := alloc_none ha
      exact ⟨h, Or.inr ⟨Or.inr (Or.inr (Or.inl hfree)), fun x hx => hx, fun x _ => rfl⟩⟩
    | some psta =>
      obtain ⟨hout, -, hnew, -, hasoc, hfree⟩ := alloc_some h.table ha
      have hne : ∀ x, HasMacid s x → x ≠ psta := fun x hx hc => hout (hc ▸ hx.placed)
      have hnoAsoc : stapriv.asocList = [] := hasoc.trans h.noAsoc
      have hupd : ∀ (n : ℕ) x, x ≠ psta →
          Function.update (Function.update s.macId psta 0) psta n x = s.macId x := by
        intro n x hx
        rw [Function.update_of_ne hx, Function.update_of_ne hx]
      dsimp only
      unfold MacidPriv.rtwAllocMacid
      simp only [MacidPriv.hwaddr, hnew]
      by_cases hbc : hwaddr = bcAddr
      · rw [if_pos hbc]
        have hq := h.quiet ha { s with stapriv, macId := Function.update s.macId psta 0 } rfl rfl
          (fun x hx => Function.update_of_ne hx _ _) rfl fun hc => hc.1 hbc
        exact ⟨hq.1, Or.inr ⟨Or.inl hbc, hq.2⟩⟩
      · rw [if_neg hbc]
        by_cases hown : hwaddr = s.macAddr
        · rw [if_pos hown]
          have hq := h.quiet ha
            { s with stapriv, macId := Function.update (Function.update s.macId psta 0) psta numSta }
            rfl rfl (hupd numSta) rfl fun hc => hc.2.1 hown
          exact ⟨hq.1, Or.inr ⟨Or.inr (Or.inl hown), hq.2⟩⟩
        · rw [if_neg hown]
          cases hfind : (List.range numSta).find? fun i => !s.macid i with
          | none =>
            have hall : ∀ i < numSta, s.macid i = true := fun i hi => by
              simpa using List.find?_eq_none.mp hfind i (List.mem_range.mpr hi)
            have hq := h.quiet ha
              { s with stapriv, macId := Function.update (Function.update s.macId psta 0) psta numSta }
              rfl rfl (hupd numSta) rfl fun hc => by
                have hlt := hc.2.2
                dsimp only at hlt
                rw [Function.update_self] at hlt
                exact absurd hlt (Nat.lt_irrefl _)
            exact ⟨hq.1, Or.inr ⟨Or.inr (Or.inr (Or.inr hall)), hq.2⟩⟩
          | some i =>
            obtain ⟨hi, hifree, hfirst⟩ := find_macid hfind
            have hid := hupd i
            have hhas : ∀ s' : MacidPriv, s'.stapriv = stapriv → s'.macAddr = s.macAddr →
                s'.macId = Function.update (Function.update s.macId psta 0) psta i →
                ∀ x, HasMacid s' x ↔ x = psta ∨ HasMacid s x := by
              intro s' hs' haddr hmacId x
              have hlt : s'.macId psta < numSta := by
                rw [hmacId, Function.update_self]
                exact hi
              refine (hasMacid_alloc h.table ha hs' haddr (hmacId ▸ hid) x).trans ?_
              exact or_congr_left ⟨And.left, fun hx => ⟨hx, hbc, hown, hlt⟩⟩
            refine ⟨h.newStation htable hnoAsoc hi hifree (hhas _ rfl rfl rfl) (fun hc => hne psta hc rfl)
              (fun x hx => hid x (hne x hx)) (Function.update_self _ _ _) rfl,
              Or.inl ⟨hbc, hown, hfree, i, hi, hifree, hfirst, ⟨psta, ?_, hhas _ rfl rfl rfl⟩,
                fun x hx => hid x (hne x hx)⟩⟩
            exact Function.update_self _ _ _

theorem MacidInv.release (h : MacidInv s) {psta : ℕ} (hp : Placed s.stapriv.staHash psta) :
    (s.rtwReleaseMacid psta).macAddr = s.macAddr ∧
      (∀ x, x ≠ psta → (s.rtwReleaseMacid psta).macId x = s.macId x) ∧
      (HasMacid s psta → (s.rtwReleaseMacid psta).macid =
        Function.update s.macid (s.macId psta) false) ∧
      (¬HasMacid s psta → (s.rtwReleaseMacid psta).macid = s.macid) := by
  unfold MacidPriv.rtwReleaseMacid
  split_ifs with hbc hown hc
  · exact ⟨rfl, fun _ _ => rfl, fun hh => absurd hbc hh.unicast, fun _ => rfl⟩
  · exact ⟨rfl, fun _ _ => rfl, fun hh => absurd hown hh.other, fun _ => rfl⟩
  · exact ⟨rfl, fun x hx => Function.update_of_ne hx _ _, fun _ => rfl,
      fun hh => absurd ⟨hp, hbc, hown, hc.1⟩ hh⟩
  · refine ⟨rfl, fun _ _ => rfl, fun hh => absurd ⟨hh.lt, h.reserved psta hh, ?_⟩ hc, fun _ => rfl⟩
    exact (h.marked _ hh.lt).mpr (Or.inr ⟨psta, hh, rfl⟩)

/-- A station that goes takes its id with it. -/
theorem MacidInv.free (h : MacidInv s) {psta : ℕ} (hp : Placed s.stapriv.staHash psta) :
    MacidInv (s.rtwFreeStainfo (some psta)) ∧ NoneNew s (s.rtwFreeStainfo (some psta)) := by
  obtain ⟨haddr, hid, hmine, hnone⟩ := h.release hp
  have hrel := s.stapriv.rtwFreeStainfo_released psta
  have hhw : ∀ x, (s.rtwFreeStainfo (some psta)).hwaddr x = s.hwaddr x := hrel.hwaddr
  have hmac : (s.rtwFreeStainfo (some psta)).macAddr = s.macAddr := haddr
  have hhas : ∀ x, HasMacid (s.rtwFreeStainfo (some psta)) x ↔ x ≠ psta ∧ HasMacid s x := by
    intro x
    have hplaced : Placed (s.rtwFreeStainfo (some psta)).stapriv.staHash x ↔
        x ≠ psta ∧ Placed s.stapriv.staHash x := by
      show Placed (s.stapriv.rtwFreeStainfo (some psta)).staHash x ↔ _
      rw [hrel.staHash, placed_del h.table.hash]
    constructor
    · rintro ⟨h1, h2, h3, h4⟩
      obtain ⟨hne, h1⟩ := hplaced.mp h1
      rw [hhw] at h2
      rw [hhw, hmac] at h3
      exact ⟨hne, h1, h2, h3, hid x hne ▸ h4⟩
    · rintro ⟨hne, h1, h2, h3, h4⟩
      refine ⟨hplaced.mpr ⟨hne, h1⟩, ?_, ?_, ?_⟩
      · rw [hhw]
        exact h2
      · rw [hhw, hmac]
        exact h3
      · show (s.rtwReleaseMacid psta).macId x < numSta
        rw [hid x hne]
        exact h4
  have hids : ∀ x, HasMacid (s.rtwFreeStainfo (some psta)) x →
      (s.rtwFreeStainfo (some psta)).macId x = s.macId x := fun x hx => hid x ((hhas x).mp hx).1
  have hold := fun x (hx : HasMacid (s.rtwFreeStainfo (some psta)) x) => ((hhas x).mp hx).2
  refine ⟨⟨h.table.free hp (by rw [h.noAsoc]; exact List.not_mem_nil), hrel.asocList.trans h.noAsoc,
    fun x y hx hy hxy => ?_, fun x hx => ?_, fun i hi => ?_⟩, hold, hids⟩
  · rw [hids x hx, hids y hy] at hxy
    exact h.distinct x y (hold x hx) (hold y hy) hxy
  · rw [hids x hx]
    exact h.reserved x (hold x hx)
  · show (s.rtwReleaseMacid psta).macid i = true ↔ _
    have hexists : (∃ x, HasMacid (s.rtwFreeStainfo (some psta)) x ∧
        (s.rtwFreeStainfo (some psta)).macId x = i) ↔
        ∃ x, x ≠ psta ∧ HasMacid s x ∧ s.macId x = i := by
      refine exists_congr fun x => ?_
      rw [hhas x]
      constructor
      · rintro ⟨⟨hne, hx⟩, hi⟩
        exact ⟨hne, hx, (hid x hne).symm.trans hi⟩
      · rintro ⟨hne, hx, hi⟩
        exact ⟨⟨hne, hx⟩, (hid x hne).trans hi⟩
    rw [hexists]
    by_cases hh : HasMacid s psta
    · rw [hmine hh]
      by_cases him : i = s.macId psta
      · rw [him, Function.update_self]
        refine ⟨fun hc => absurd hc (by decide), ?_⟩
        rintro (hone | ⟨x, hne, hx, hxi⟩)
        · exact absurd hone (h.reserved psta hh)
        · exact absurd (h.distinct x psta hx hh hxi) hne
      · rw [Function.update_of_ne him, h.marked i hi]
        refine or_congr_right (exists_congr fun x => ⟨fun hx => ⟨fun hc => ?_, hx⟩, And.right⟩)
        exact him (by rw [← hx.2, hc])
    · rw [hnone hh, h.marked i hi]
      refine or_congr_right (exists_congr fun x => ⟨fun hx => ⟨fun hc => ?_, hx⟩, And.right⟩)
      exact hh (hc ▸ hx.1)

/-- The broadcast station does not count. -/
theorem MacidInv.initBcmc (h : MacidInv s) :
    MacidInv s.rtwInitBcmcStainfo ∧ NoneNew s s.rtwInitBcmcStainfo := by
  obtain ⟨hinv, hnew⟩ := h.alloc bcAddr
  have hnone : NoneNew s (s.rtwAllocStainfo bcAddr) :=
    hnew.elim (fun hc => absurd rfl hc.1) And.right
  unfold MacidPriv.rtwInitBcmcStainfo
  dsimp only
  cases hr : (s.stapriv.rtwAllocStainfo bcAddr).2 with
  | none => exact ⟨hinv, hnone⟩
  | some psta =>
    have ha : s.stapriv.rtwAllocStainfo bcAddr =
        ((s.stapriv.rtwAllocStainfo bcAddr).1, some psta) := Prod.ext rfl hr
    have haddr : (s.rtwAllocStainfo bcAddr).hwaddr psta = bcAddr := by
      obtain ⟨-, -, hnew, -⟩ := alloc_some h.table ha
      rw [MacidPriv.rtwAllocStainfo, ha]
      dsimp only
      rw [MacidPriv.rtwAllocMacid, if_pos (by rw [MacidPriv.hwaddr]; exact hnew)]
      exact hnew
    have hne : ∀ x, (s.rtwAllocStainfo bcAddr).hwaddr x ≠ bcAddr → x ≠ psta := fun x hx hc =>
      hx (hc ▸ haddr)
    have hhas : ∀ x, HasMacid { s.rtwAllocStainfo bcAddr with
        macId := Function.update (s.rtwAllocStainfo bcAddr).macId psta 1 } x ↔
        HasMacid (s.rtwAllocStainfo bcAddr) x := by
      intro x
      constructor
      · rintro ⟨h1, h2, h3, h4⟩
        dsimp only at h4
        rw [Function.update_of_ne (hne x h2)] at h4
        exact ⟨h1, h2, h3, h4⟩
      · rintro ⟨h1, h2, h3, h4⟩
        refine ⟨h1, h2, h3, ?_⟩
        dsimp only
        rw [Function.update_of_ne (hne x h2)]
        exact h4
    have hid : ∀ x, HasMacid (s.rtwAllocStainfo bcAddr) x →
        Function.update (s.rtwAllocStainfo bcAddr).macId psta 1 x =
          (s.rtwAllocStainfo bcAddr).macId x := fun x hx =>
      Function.update_of_ne (hne x hx.unicast) _ _
    refine ⟨hinv.congr hinv.table hinv.noAsoc hhas hid rfl, fun x hx => hnone.has x ((hhas x).mp hx),
      fun x hx => ?_⟩
    have hx' := (hhas x).mp hx
    exact (hid x hx').trans (hnone.macId x hx')

theorem macidInv_step (s : MacidPriv) (op : MacidOp) (h : MacidInv s) :
    MacidInv (macidStep s op) := by
  cases op with
  | alloc hwaddr => exact (h.alloc hwaddr).1
  | free psta =>
    rcases find_eq h.table psta with ⟨hnone, -⟩ | ⟨hsome, hp⟩
    · rw [macidStep, hnone]
      exact h
    · rw [macidStep, hsome]
      exact (h.free hp).1
  | initBcmc => exact h.initBcmc.1

/-- Without a new id the key entries stay what they were. -/
theorem NoneNew.keySlots {s' : MacidPriv} (hnone : NoneNew s s') (h : MacidInv s) (h' : MacidInv s')
    (hk : KeySlots s) : KeySlots s' := by
  rw [h'.keySlots_iff]
  rw [h.keySlots_iff] at hk
  intro x hx
  rw [hnone.macId x hx]
  exact hk x (hnone.has x hx)

/-- A step keeps the key entries exactly if the id it gives out has one. -/
theorem keySlots_step (h : MacidInv s) (hk : KeySlots s) (op : MacidOp) :
    KeySlots (macidStep s op) ↔ SlotFree s op := by
  have h' := macidInv_step s op h
  cases op with
  | alloc hwaddr =>
    have hle := h.keySlots_iff.mp hk
    rcases (h.alloc hwaddr).2 with ⟨hbc, hown, hfree, i, hadm⟩ | ⟨hwhy, hnone⟩
    · obtain ⟨psta, hpsta, hhas⟩ := hadm.has
      constructor
      · intro hks _ _ _
        have hbound := (h'.keySlots_iff.mp hks) psta ((hhas psta).mpr (Or.inl rfl))
        have hpsta' : (macidStep s (.alloc hwaddr)).macId psta = i := hpsta
        exact ⟨i, hpsta' ▸ hbound, hadm.free⟩
      · intro hslot
        obtain ⟨j, hj, hjfree⟩ := hslot hbc hown hfree
        have hij : i ≤ j := by
          by_contra hc
          rw [hadm.first j (Nat.lt_of_not_le hc)] at hjfree
          exact absurd hjfree (by decide)
        refine h'.keySlots_iff.mpr fun x hx => ?_
        rcases (hhas x).mp hx with rfl | hx
        · exact hpsta.le.trans (hij.trans hj)
        · exact (hadm.macId x hx).le.trans (hle x hx)
    · refine ⟨fun _ hbc hown hfree => ?_, fun _ => hnone.keySlots h h' hk⟩
      rcases hwhy with hc | hc | hc | hall
      · exact absurd hc hbc
      · exact absurd hc hown
      · exact absurd hc hfree
      · have hlast : s.macid 29 = true := hall 29 (by decide)
        rcases (h.marked 29 (by decide)).mp hlast with hc | ⟨x, hx, hxi⟩
        · exact absurd hc (by decide)
        · have := hle x hx
          omega
  | free psta =>
    refine ⟨fun _ => trivial, fun _ => ?_⟩
    rcases find_eq h.table psta with ⟨hnone, -⟩ | ⟨hsome, hp⟩
    · rw [macidStep, hnone]
      exact hk
    · rw [macidStep, hsome]
      exact (h.free hp).2.keySlots h (h.free hp).1 hk
  | initBcmc =>
    exact ⟨fun _ => trivial, fun _ => h.initBcmc.2.keySlots h h' hk⟩

end step

/-! ## Runs -/

theorem macidInv_init (macAddr : MacAddr) : MacidInv (MacidPriv.init macAddr) where
  table := tableInv_init
  noAsoc := rfl
  distinct x _ hx := by
    obtain ⟨i, hi⟩ := hx.placed
    exact absurd hi List.not_mem_nil
  reserved x hx := by
    obtain ⟨i, hi⟩ := hx.placed
    exact absurd hi List.not_mem_nil
  marked i hi := by
    show (i == 1) = true ↔ _
    rw [beq_iff_eq]
    refine ⟨Or.inl, fun h => h.resolve_right ?_⟩
    rintro ⟨x, hx, -⟩
    obtain ⟨i, hi⟩ := hx.placed
    exact absurd hi List.not_mem_nil

theorem keySlots_init (macAddr : MacAddr) : KeySlots (MacidPriv.init macAddr) := by
  rw [(macidInv_init macAddr).keySlots_iff]
  intro x hx
  obtain ⟨i, hi⟩ := hx.placed
  exact absurd hi List.not_mem_nil

/-- Along every run the ids are not shared and the table marks them; and every station has a
    key entry in every state exactly if every new station found an id up to 28. -/
theorem keySlots_of_run (macAddr : MacAddr) (ops : List MacidOp) :
    (∀ n, MacidInv (run macidStep (MacidPriv.init macAddr) (ops.take n))) ∧
      ((∀ n, KeySlots (run macidStep (MacidPriv.init macAddr) (ops.take n))) ↔
        Guarded macidStep SlotFree (MacidPriv.init macAddr) ops) := by
  have hall : Guarded macidStep (fun _ _ => True) (MacidPriv.init macAddr) ops :=
    guarded_of_forall _ fun _ _ => trivial
  refine ⟨invariant_run_take (fun s op _ h => macidInv_step s op h) hall (macidInv_init macAddr),
    fun hks => ?_, fun hg n => ?_⟩
  · exact guarded_of_prefixes macidInv_step
      (fun s op h hk hk' => (keySlots_step h hk op).mp hk') (macidInv_init macAddr) hks
  · have hstep : ∀ s op, SlotFree s op → KeySlots s → KeySlots (macidStep s op) :=
      fun s op hslot hk => (keySlots_step hk.macids hk op).mpr hslot
    exact invariant_run_take hstep hg (keySlots_init macAddr) n

/-- A full cell: the broadcast station and 29 others. -/
def fullCell : List MacidOp :=
  .initBcmc :: (List.range 29).map fun i => .alloc #v[2, 0, 0, 0, 0, UInt8.ofNat i]

def ownAddr : MacAddr := #v[0, 1, 2, 3, 4, 5]

/-- The last one gets id 29, whose key entry does not exist. -/
theorem fullCell_keySlot : ¬KeySlots (run macidStep (MacidPriv.init ownAddr) fullCell) := by
  intro hks
  have hmark : (run macidStep (MacidPriv.init ownAddr) fullCell).macid 29 = true := by
    decide +kernel
  rcases (hks.macids.marked 29 (by decide)).mp hmark with hc | ⟨x, hx, hxi⟩
  · exact absurd hc (by decide)
  · have hle := hks.macids.keySlots_iff.mp hks x hx
    omega

end Rtl8821au.Sta
