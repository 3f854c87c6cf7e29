import Rtl8821au.Lib.Census
import Rtl8821au.Sta.AuthTrace

/-!
# The capability counters of the access point

An access point counts its stations without short preamble, without short slot time,
without ERP rates, without HT, and the HT stations without greenfield or with 20 MHz only.
`bss_cap_update_on_sta_join` and `bss_cap_update_on_sta_leave` (`rtw_ap.c`, lines 1828–2039)
keep the counters by a flag in the record of the station; the ERP element of the beacon and
the HT operation mode follow from them.

The events are those of the station table: requests, authentication frames, farewells and
ticks. What a request says beside the checks of `OnAssocReq` is read by `capRequest`. The
other elements of the beacon do not depend on the counters.

Results:
* `bssInv_step`: the counters are right after every event that meets `BssOk`.
* `counters_of_run`: counters, ERP element and HT operation mode along every such run.
-/

namespace Rtl8821au.Ap

open Places Run
open Recv (Bytes RecvFrame getAddr2)
open Sta

/-! ## Data -/

/-- The counters `num_sta_*`, and the flags `*_set` of a station. -/
inductive CapCounter where
  | noShortPreamble
  | nonErp
  | noShortSlotTime
  | noHt
  | htNoGf
  | ht20mhz
  deriving DecidableEq, Repr

/-- What an association request says: the capability field, all its rates, the HT and VHT
    elements, and `cap_info` of the HT element. -/
structure CapRequest where
  capability : ℕ := 0
  rates : Bytes := []
  ht : Bool := false
  vht : Bool := false
  htCapInfo : ℕ := 0
  deriving DecidableEq, Repr

/-- The settings that the counters work on: `bstart_bss`, `ERP_enable`, and
    `IEEE80211_HT_CAP_SUP_WIDTH` of the access point. -/
structure BssConfig where
  bstartBss : Bool := true
  erpEnable : Bool := true
  supWidth : Bool := false

/-- `erpInfo` is the byte of the ERP element of the beacon. `request` is the request that
    the association of a station rests on. -/
structure BssState where
  sta : StaPriv
  census : Census ℕ CapCounter
  request : ℕ → CapRequest := fun _ => {}
  erpInfo : Option UInt8
  htOpMode : BitVec 16

/-! ## Model of the C code -/

/-- `WLAN_STA_SHORT_PREAMBLE` (`rtw_mlme_ext.c`, lines 1584–1587): bit 5 of the capability
    field. -/
def CapRequest.shortPreamble (r : CapRequest) : Bool := r.capability.testBit 5

/-- `WLAN_STA_NONERP` (lines 1574–1582): no rate above 11 Mbit/s. -/
def CapRequest.nonErp (r : CapRequest) : Bool := r.rates.all fun rate => rate &&& 0x7f ≤ 22

/-- `WLAN_CAPABILITY_SHORT_SLOT`. -/
def CapRequest.shortSlot (r : CapRequest) : Bool := r.capability.testBit 10

/-- `WLAN_STA_HT` (lines 1522–1566): set with the HT element, and cleared again without the
    VHT element. -/
def CapRequest.flagHt (r : CapRequest) : Bool := r.ht && r.vht

/-- `IEEE80211_HT_CAP_GRN_FLD` and `IEEE80211_HT_CAP_SUP_WIDTH`. -/
def CapRequest.grnFld (r : CapRequest) : Bool := r.htCapInfo.testBit 4

def CapRequest.supWidth (r : CapRequest) : Bool := r.htCapInfo.testBit 1

/-- `update_bcn_erpinfo_ie` (lines 1565–1597), behind the test of `update_beacon`. -/
def updateBcnErpinfoIe (b : BssConfig) (s : BssState) : BssState :=
  if b.bstartBss ∧ b.erpEnable then
    { s with erpInfo := s.erpInfo.map fun data =>
        let data := if s.census.num .nonErp = 1 then data ||| 3 else data &&& ~~~3
        if s.census.num .noShortPreamble > 0 then data ||| 4 else data &&& ~~~4 }
  else s

/-- A station is counted; the first one without ERP changes the beacon. -/
def countIn (b : BssConfig) (x : ℕ) (s : BssState) (c : CapCounter) : BssState :=
  if s.census.set x c then s
  else
    let s := { s with census := s.census.raise x c }
    if c = .nonErp ∧ s.census.num c = 1 then updateBcnErpinfoIe b s else s

/-- A station is counted out; the last one without ERP changes the beacon. -/
def countOut (b : BssConfig) (x : ℕ) (s : BssState) (c : CapCounter) : BssState :=
  if s.census.set x c then
    let s := { s with census := s.census.lower x c }
    if c = .nonErp ∧ s.census.num c = 0 then updateBcnErpinfoIe b s else s
  else s

/-- `olbc_ht`: `start_ap_mode` clears it, and nothing sets it. -/
def olbcHt : Bool := false

/-- `rtw_ht_operation_update` (lines 1727–1797). -/
def rtwHtOperationUpdate (htOption : Bool) (b : BssConfig) (s : BssState) : BssState :=
  if htOption then s
  else
    let m := s.htOpMode
    let m := if s.census.num .htNoGf ≠ 0 then m ||| 4 else m &&& ~~~4
    let m := if s.census.num .noHt ≠ 0 ∨ olbcHt then m ||| 16 else m &&& ~~~16
    let new : BitVec 16 :=
      if s.census.num .noHt ≠ 0 ∨ m &&& 4 ≠ 0 then 3
      else if b.supWidth ∧ s.census.num .ht20mhz ≠ 0 then 2
      else if olbcHt then 1
      else 0
    { s with htOpMode := (m &&& ~~~3) ||| new }

/-- `bss_cap_update_on_sta_join` (lines 1828–1972) after request `r` of station `x`. -/
def bssCapUpdateOnStaJoin (htOption : Bool) (b : BssConfig) (x : ℕ) (r : CapRequest)
    (s : BssState) : BssState :=
  let count (s : BssState) (c : CapCounter) (has : Bool) : BssState :=
    if has then countIn b x s c else countOut b x s c
  let s := { s with request := Function.update s.request x r }
  let s := count s .noShortPreamble !r.shortPreamble
  let s := count s .nonErp r.nonErp
  let s := count s .noShortSlotTime !r.shortSlot
  let s :=
    if r.flagHt then
      let s := countOut b x s .noHt
      let s := if r.grnFld then s else countIn b x s .htNoGf
      if r.supWidth then s else countIn b x s .ht20mhz
    else countIn b x s .noHt
  rtwHtOperationUpdate htOption b s

/-- `bss_cap_update_on_sta_leave` (lines 1974–2039). -/
def bssCapUpdateOnStaLeave (htOption : Bool) (b : BssConfig) (s : BssState) (x : ℕ) : BssState :=
  let s := [.noShortPreamble, .nonErp, .noShortSlotTime, .htNoGf, .noHt, .ht20mhz].foldl
    (countOut b x) s
  rtwHtOperationUpdate htOption b s

/-- The record that an authentication frame creates. -/
def createdSta (priv : RtlPriv) (cfg : ApConfig) (s : StaPriv) (f : RecvFrame) : Option ℕ :=
  if authAllowed priv cfg f ∧ s.rtwGetStainfo (getAddr2 f) = none then
    (authRecord s (getAddr2 f)).2
  else none

/-- The station that a request associates. -/
def joinedSta (priv : RtlPriv) (cfg : ApConfig) (s : StaPriv) (f : RecvFrame) : Option ℕ :=
  match (onAssocReq priv cfg s f).2 with
  | .success => s.rtwGetStainfo (getAddr2 f)
  | _ => none

/-- One event. The stations that a farewell or a tick takes off the association list go
    through `ap_free_sta` one after the other. -/
def bssStep (priv : RtlPriv) (cfg : ApConfig) (b : BssConfig) (capRequest : RecvFrame → CapRequest)
    (s : BssState) (e : ApEvent) : BssState :=
  let sta := apStep priv cfg s.sta e
  match e with
  | .auth f =>
    { s with
      sta := sta
      census := (createdSta priv cfg s.sta f).elim s.census s.census.clear }
  | .assocReq f =>
    match joinedSta priv cfg s.sta f with
    | some x => bssCapUpdateOnStaJoin priv.htOption b x (capRequest f) { s with sta := sta }
    | none => { s with sta := sta }
  | .deauth _ | .disassoc _ | .tick _ =>
    (s.sta.asocList.filter (· ∉ sta.asocList)).foldl (bssCapUpdateOnStaLeave priv.htOption b)
      { s with sta := sta }

/-- `start_ap_mode` (lines 2296–2322). -/
def startApMode (erpInfo : Option UInt8) : BssState where
  sta := rtwInitAp
  census := { set := fun _ _ => false, num := fun _ => 0 }
  erpInfo := erpInfo
  htOpMode := 0

/-! ## The property -/

/-- What a counter counts. -/
def CapRequest.has (r : CapRequest) : CapCounter → Bool
  | .noShortPreamble => !r.shortPreamble
  | .nonErp => r.nonErp
  | .noShortSlotTime => !r.shortSlot
  | .noHt => !r.ht
  | .htNoGf => r.ht && !r.grnFld
  | .ht20mhz => r.ht && !r.supWidth

/-- An associated station has the property. -/
def BssState.Any (s : BssState) (c : CapCounter) : Prop :=
  ∃ x ∈ s.sta.asocList, (s.request x).has c = true

/-- The rules above `rtw_ht_operation_update` (lines 1715–1726), for the lower two bits. -/
structure OpModeRules (b : BssConfig) (s : BssState) : Prop where
  mixed : s.htOpMode &&& 3 = 3 ↔ s.Any .noHt ∨ s.Any .htNoGf
  ht20mhz : s.htOpMode &&& 3 = 2 ↔
    ¬(s.Any .noHt ∨ s.Any .htNoGf) ∧ b.supWidth = true ∧ s.Any .ht20mhz
  pure : s.htOpMode &&& 3 = 0 ↔
    ¬(s.Any .noHt ∨ s.Any .htNoGf) ∧ ¬(b.supWidth = true ∧ s.Any .ht20mhz)

/-- The counters match the associated stations, the beacon announces what they say, and
    the operation mode of an HT access point is right. -/
structure CountersRight (htOption : Bool) (b : BssConfig) (s : BssState) : Prop where
  counts : ∀ c, s.census.num c = s.sta.asocList.countP fun x => (s.request x).has c
  nonneg : ∀ c, 0 ≤ s.census.num c
  erp : ∀ data, s.erpInfo = some data → (data &&& 1 ≠ 0 ↔ 0 < s.census.num .nonErp)
  opMode : htOption = true → OpModeRules b s

/-! ## Counting in and out -/

/-- The beacon has an ERP element only where the access point keeps it, and it says
    whether there are stations without ERP. -/
def ErpRight (b : BssConfig) (s : BssState) : Prop :=
  ∀ data, s.erpInfo = some data → b.bstartBss = true ∧ b.erpEnable = true ∧
    (data &&& 1 ≠ 0 ↔ 0 < s.census.num .nonErp)

/-- Counting station `x` in and out leaves this. -/
structure Counted (htOption : Bool) (b : BssConfig) (x : ℕ) (s s' : BssState) : Prop where
  sta : s'.sta = s.sta
  request : s'.request = s.request
  htOpMode : htOption = true → s'.htOpMode = s.htOpMode
  census : s.census.Balanced x s'.census
  erp : 0 ≤ s.census.rest x .nonErp → ErpRight b s → ErpRight b s'

section counting

variable {htOption : Bool} {b : BssConfig} {x y : ℕ} {s s' s'' : BssState} {c d : CapCounter}

theorem Counted.refl : Counted htOption b x s s := ⟨rfl, rfl, fun _ => rfl, .refl, fun _ h => h⟩

theorem Counted.trans (h : Counted htOption b x s s') (h' : Counted htOption b x s' s'') :
    Counted htOption b x s s'' where
  sta := h'.sta.trans h.sta
  request := h'.request.trans h.request
  htOpMode ht := (h'.htOpMode ht).trans (h.htOpMode ht)
  census := h.census.trans h'.census
  erp h0 herp := h'.erp (by rw [h.census.rest]; exact h0) (h.erp h0 herp)

theorem erp_present : ∀ data : BitVec 8,
    ((data ||| 3) ||| 4) &&& 1 ≠ 0 ∧ ((data ||| 3) &&& ~~~4) &&& 1 ≠ 0 := by
  decide +kernel

theorem erp_absent : ∀ data : BitVec 8,
    ((data &&& ~~~3) ||| 4) &&& 1 = 0 ∧ ((data &&& ~~~3) &&& ~~~4) &&& 1 = 0 := by
  decide +kernel

@[simp] theorem updateBcnErpinfoIe_keeps :
    (updateBcnErpinfoIe b s).sta = s.sta ∧ (updateBcnErpinfoIe b s).request = s.request ∧
      (updateBcnErpinfoIe b s).htOpMode = s.htOpMode ∧
        (updateBcnErpinfoIe b s).census = s.census := by
  unfold updateBcnErpinfoIe
  split_ifs <;> exact ⟨rfl, rfl, rfl, rfl⟩

/-- With one station without ERP or none, the beacon says so. -/
theorem updateBcnErpinfoIe_right (herp : ErpRight b s')
    (hinfo : s.erpInfo = s'.erpInfo) (hnum : s.census.num .nonErp = 0 ∨ s.census.num .nonErp = 1) :
    ErpRight b (updateBcnErpinfoIe b s) := by
  intro data hdata
  cases hold : s.erpInfo with
  | none =>
    unfold updateBcnErpinfoIe at hdata
    rw [hold] at hdata
    split at hdata
    · cases hdata
    · rw [hold] at hdata
      cases hdata
  | some old =>
    obtain ⟨hstart, henable, -⟩ := herp old (hinfo ▸ hold)
    refine ⟨hstart, henable, ?_⟩
    rw [updateBcnErpinfoIe_keeps.2.2.2]
    unfold updateBcnErpinfoIe at hdata
    rw [if_pos ⟨hstart, henable⟩, hold] at hdata
    obtain rfl := Option.some.inj hdata
    dsimp only
    rcases hnum with hnum | hnum
    · obtain ⟨hbarker, hplain⟩ := erp_absent old.toBitVec
      rw [hnum, if_neg (show ¬(0 : ℤ) = 1 by decide)]
      refine iff_of_false (not_not.mpr ?_) (by decide)
      split_ifs
      · exact UInt8.eq_of_toBitVec_eq hbarker
      · exact UInt8.eq_of_toBitVec_eq hplain
    · obtain ⟨hbarker, hplain⟩ := erp_present old.toBitVec
      rw [hnum, if_pos (show (1 : ℤ) = 1 from rfl)]
      refine iff_of_true ?_ (by decide)
      split_ifs
      · exact fun h => hbarker (congrArg UInt8.toBitVec h)
      · exact fun h => hplain (congrArg UInt8.toBitVec h)

theorem countIn_census : (countIn b x s c).census = s.census.raise x c := by
  unfold countIn
  by_cases hset : s.census.set x c = true
  · rw [if_pos hset, Census.raise, if_pos hset]
  · rw [if_neg hset]
    dsimp only
    split_ifs
    · rw [updateBcnErpinfoIe_keeps.2.2.2]
    · rfl

theorem countOut_census : (countOut b x s c).census = s.census.lower x c := by
  unfold countOut
  by_cases hset : s.census.set x c = true
  · rw [if_pos hset]
    dsimp only
    split_ifs
    · rw [updateBcnErpinfoIe_keeps.2.2.2]
    · rfl
  · rw [if_neg hset, Census.lower, if_neg hset]

/-- The counters of a state in which only they have changed. -/
theorem ErpRight.of_num (herp : ErpRight b s) (hinfo : s'.erpInfo = s.erpInfo)
    (hnum : 0 < s.census.num .nonErp ↔ 0 < s'.census.num .nonErp) : ErpRight b s' := by
  intro data hdata
  rw [hinfo] at hdata
  rw [← hnum]
  exact herp data hdata

theorem countIn_counted : Counted htOption b x s (countIn b x s c) := by
  have hbal := s.census.balanced_raise x c
  rw [← countIn_census (b := b)] at hbal
  unfold countIn at hbal ⊢
  by_cases hset : s.census.set x c = true
  · rw [if_pos hset]
    exact .refl
  rw [if_neg hset] at hbal ⊢
  dsimp only at hbal ⊢
  have hnum : (s.census.raise x c).num = Function.update s.census.num c (s.census.num c + 1) := by
    rw [Census.raise, if_neg hset]
  split_ifs at hbal ⊢ with hupdate
  · obtain ⟨hsta, hrequest, hmode, -⟩ :=
      updateBcnErpinfoIe_keeps (b := b) (s := { s with census := s.census.raise x c })
    refine ⟨hsta, hrequest, fun _ => hmode, hbal, fun _ herp => ?_⟩
    obtain ⟨rfl, hone⟩ := hupdate
    exact updateBcnErpinfoIe_right herp rfl (.inr hone)
  · refine ⟨rfl, rfl, fun _ => rfl, hbal, fun hrest herp => herp.of_num rfl ?_⟩
    show _ ↔ 0 < (s.census.raise x c).num .nonErp
    by_cases hc : c = .nonErp
    · subst hc
      have hne : ¬(s.census.raise x .nonErp).num .nonErp = 1 := fun h => hupdate ⟨rfl, h⟩
      rw [hnum, Function.update_self] at hne ⊢
      rw [Census.rest, if_neg hset] at hrest
      omega
    · rw [hnum, Function.update_of_ne (Ne.symm hc)]

theorem countOut_counted : Counted htOption b x s (countOut b x s c) := by
  have hbal := s.census.balanced_lower x c
  rw [← countOut_census (b := b)] at hbal
  unfold countOut at hbal ⊢
  by_cases hset : s.census.set x c = true
  · rw [if_pos hset] at hbal ⊢
    dsimp only at hbal ⊢
    have hnum : (s.census.lower x c).num =
        Function.update s.census.num c (s.census.num c - 1) := by
      rw [Census.lower, if_pos hset]
    split_ifs at hbal ⊢ with hupdate
    · obtain ⟨hsta, hrequest, hmode, -⟩ :=
        updateBcnErpinfoIe_keeps (b := b) (s := { s with census := s.census.lower x c })
      refine ⟨hsta, hrequest, fun _ => hmode, hbal, fun _ herp => ?_⟩
      obtain ⟨rfl, hzero⟩ := hupdate
      exact updateBcnErpinfoIe_right herp rfl (.inl hzero)
    · refine ⟨rfl, rfl, fun _ => rfl, hbal, fun hrest herp => herp.of_num rfl ?_⟩
      show _ ↔ 0 < (s.census.lower x c).num .nonErp
      by_cases hc : c = .nonErp
      · subst hc
        have hne : ¬(s.census.lower x .nonErp).num .nonErp = 0 := fun h => hupdate ⟨rfl, h⟩
        rw [hnum, Function.update_self] at hne ⊢
        rw [Census.rest, if_pos hset] at hrest
        omega
      · rw [hnum, Function.update_of_ne (Ne.symm hc)]
  · rw [if_neg hset]
    exact .refl

theorem rtwHtOperationUpdate_counted :
    Counted htOption b x s (rtwHtOperationUpdate htOption b s) := by
  unfold rtwHtOperationUpdate
  by_cases h : htOption = true
  · rw [if_pos h]
    exact .refl
  · rw [if_neg h]
    exact ⟨rfl, rfl, fun ht => absurd ht h, .refl, fun _ herp => herp⟩

/-- Counting a station as its request says. -/
theorem count_counted {has : Bool} :
    Counted htOption b x s (if has then countIn b x s c else countOut b x s c) := by
  cases has
  · exact countOut_counted
  · exact countIn_counted

theorem count_set {has : Bool} :
    (if has then countIn b x s c else countOut b x s c).census.set x d =
      if d = c then has else s.census.set x d := by
  cases has
  · rw [if_neg Bool.false_ne_true, countOut_census, Census.lower_set]
    simp
  · rw [if_pos rfl, countIn_census, Census.raise_set]
    simp

theorem htOperation_census : (rtwHtOperationUpdate htOption b s).census = s.census := by
  unfold rtwHtOperationUpdate
  by_cases h : htOption = true
  · rw [if_pos h]
  · rw [if_neg h]

/-- A request with the HT element has the VHT element, and has what the one before had of
    the two counters that a join does not count out. -/
structure CountsAnew (s : BssState) (x : ℕ) (r : CapRequest) : Prop where
  vht : r.ht = true → r.vht = true
  keeps : ∀ c, c = .htNoGf ∨ c = .ht20mhz → s.census.set x c = true → r.has c = true

theorem join_counted (htOption : Bool) (b : BssConfig) (x : ℕ) (r : CapRequest) (s : BssState) :
    Counted htOption b x { s with request := Function.update s.request x r }
      (bssCapUpdateOnStaJoin htOption b x r s) := by
  have hflags : ∀ t, Counted htOption b x t
      (if r.flagHt then
        let t := countOut b x t .noHt
        let t := if r.grnFld then t else countIn b x t .htNoGf
        if r.supWidth then t else countIn b x t .ht20mhz
      else countIn b x t .noHt) := by
    intro t
    cases r.flagHt
    · exact countIn_counted
    · have hout : Counted htOption b x t (countOut b x t .noHt) := countOut_counted
      refine hout.trans ?_
      cases r.grnFld <;> cases r.supWidth
      · exact countIn_counted.trans countIn_counted
      · exact countIn_counted
      · exact countIn_counted
      · exact .refl
  unfold bssCapUpdateOnStaJoin
  refine Counted.trans ?_ rtwHtOperationUpdate_counted
  refine Counted.trans ?_ (hflags _)
  refine Counted.trans ?_ count_counted
  refine Counted.trans ?_ count_counted
  exact count_counted

/-- After a join the flags say what the request says. -/
theorem join_set (htOption : Bool) (b : BssConfig) (r : CapRequest) (h : CountsAnew s x r)
    (c : CapCounter) :
    (bssCapUpdateOnStaJoin htOption b x r s).census.set x c = r.has c := by
  have hgf := h.keeps .htNoGf (.inl rfl)
  have hwidth := h.keeps .ht20mhz (.inr rfl)
  have hvht := h.vht
  unfold bssCapUpdateOnStaJoin
  rw [htOperation_census]
  unfold CapRequest.flagHt
  cases hht : r.ht
  · -- neither flag of an HT station was set
    simp only [CapRequest.has, hht, Bool.false_and, Bool.not_eq_true, Bool.false_eq_true,
      imp_false] at hgf hwidth
    simp only [Bool.false_and, Bool.false_eq_true, if_false]
    rw [countIn_census, Census.raise_set, count_set, count_set, count_set]
    cases c <;> simp [CapRequest.has, hht, hgf, hwidth]
  · rw [hvht hht]
    simp only [CapRequest.has, hht, Bool.true_and] at hgf hwidth
    have hnoHt : ∀ t, (countOut b x t .noHt).census.set x c =
        if c = .noHt then false else t.census.set x c := by
      intro t
      rw [countOut_census, Census.lower_set]
      simp
    cases hg : r.grnFld <;> cases hw : r.supWidth <;> rw [hg] at hgf <;> rw [hw] at hwidth <;>
      simp only [Bool.and_self, Bool.false_eq_true, if_true, if_false, countIn_census,
        Census.raise_set, hnoHt, count_set] <;>
      cases c <;> simp_all [CapRequest.has]

theorem leave_counted (htOption : Bool) (b : BssConfig) (s : BssState) (x : ℕ) :
    Counted htOption b x s (bssCapUpdateOnStaLeave htOption b s x) := by
  unfold bssCapUpdateOnStaLeave
  refine Counted.trans ?_ rtwHtOperationUpdate_counted
  simp only [List.foldl_cons, List.foldl_nil]
  exact ((((countOut_counted.trans countOut_counted).trans countOut_counted).trans
    countOut_counted).trans countOut_counted).trans countOut_counted

/-- A station that left is not counted. -/
theorem leave_set (htOption : Bool) (b : BssConfig) (s : BssState) (x : ℕ) (c : CapCounter) :
    (bssCapUpdateOnStaLeave htOption b s x).census.set x c = false := by
  unfold bssCapUpdateOnStaLeave
  rw [htOperation_census]
  simp only [List.foldl_cons, List.foldl_nil, countOut_census, Census.lower_set]
  cases c <;> simp

end counting

/-! ## The association list -/

section lists

variable {priv : RtlPriv} {cfg : ApConfig} {s : StaPriv} {f : RecvFrame} {x : ℕ}

theorem unlistAsoc_asocList (s : StaPriv) (x : ℕ) :
    (s.unlistAsoc x).asocList = s.asocList.erase x := by
  unfold StaPriv.unlistAsoc
  split_ifs with hx
  · rfl
  · exact (List.erase_of_not_mem hx).symm

theorem alloc_asocList {sa : Recv.MacAddr} {s' : StaPriv} {y : Option ℕ}
    (hs : s.rtwAllocStainfo sa = (s', y)) : s'.asocList = s.asocList := by
  unfold StaPriv.rtwAllocStainfo at hs
  cases hfree : s.freeStaQueue with
  | nil =>
    rw [hfree] at hs
    rw [← (Prod.mk.inj hs).1]
  | cons psta rest =>
    rw [hfree] at hs
    rw [← (Prod.mk.inj hs).1]

/-- What comes after the choice of the record does not touch the list. -/
theorem onAuth_record (hallowed : authAllowed priv cfg f = true) :
    (onAuth priv cfg s f).1.asocList = (authRecord s (getAddr2 f)).1.asocList := by
  unfold Sta.onAuth
  rw [if_pos hallowed]
  cases hrec : authRecord s (getAddr2 f) with
  | mk s1 oy =>
    cases oy with
    | none => rfl
    | some y =>
      obtain ⟨-, -, hlist⟩ := listAuth_keeps s1 y
      dsimp only
      cases authExchange (effectiveAuthMode priv) (parseAuth priv f) ((s1.listAuth y).sta y) with
      | none => exact ((s1.listAuth y).rtwFreeStainfo_released y).asocList.trans hlist
      | some i => exact hlist

/-- `OnAuth` takes at most the station of the frame off the association list. -/
theorem onAuth_asocList (priv : RtlPriv) (cfg : ApConfig) (s : StaPriv) (f : RecvFrame) :
    (onAuth priv cfg s f).1.asocList = s.asocList ∨
      ∃ x, authAllowed priv cfg f = true ∧ s.rtwGetStainfo (getAddr2 f) = some x ∧
        (onAuth priv cfg s f).1.asocList = s.asocList.erase x := by
  by_cases hallowed : authAllowed priv cfg f = true
  · rw [onAuth_record hallowed]
    unfold authRecord
    cases hfound : s.rtwGetStainfo (getAddr2 f) with
    | some y => exact .inr ⟨y, hallowed, rfl, unlistAsoc_asocList s y⟩
    | none =>
      dsimp only
      cases halloc : s.rtwAllocStainfo (getAddr2 f) with
      | mk s1 oz =>
        have hlist := alloc_asocList halloc
        cases oz with
        | none => exact .inl hlist
        | some z => exact .inl hlist
  · unfold Sta.onAuth
    rw [if_neg hallowed]
    exact .inl rfl

/-- The record that a frame creates was free. -/
theorem createdSta_free (h : ApTable s) (hx : createdSta priv cfg s f = some x) :
    ¬Places.Placed s.staHash x := by
  unfold createdSta at hx
  split_ifs at hx with hnew
  unfold authRecord StaPriv.rtwAllocStainfo at hx
  rw [hnew.2] at hx
  cases hfree : s.freeStaQueue with
  | nil =>
    rw [hfree] at hx
    cases hx
  | cons y rest =>
    rw [hfree] at hx
    obtain rfl := Option.some.inj hx
    exact ((h.mem_free y).mp (hfree ▸ List.mem_cons_self)).2

/-- A record of the table was there before, unless the frame creates it. -/
theorem onAuth_placed (h : ApTable s) (hp : Places.Placed (onAuth priv cfg s f).1.staHash x) :
    Places.Placed s.staHash x ∨ createdSta priv cfg s f = some x := by
  by_cases hans : ∃ i, authAnswer priv cfg s f = some (x, i)
  · obtain ⟨i, hans⟩ := hans
    obtain ⟨-, -, hallowed, i₀, -, ⟨hfound, -⟩ | ⟨hnone, -⟩⟩ := onAuth_answered h hans
    · exact .inl (h.found hfound).1
    · refine .inr ?_
      unfold createdSta
      rw [if_pos ⟨hallowed, hnone⟩]
      unfold authAnswer at hans
      rw [if_pos hallowed] at hans
      cases hrec : authRecord s (getAddr2 f) with
      | mk s1 oy =>
        rw [hrec] at hans
        cases oy with
        | none => cases hans
        | some y =>
          obtain ⟨_, -, hpair⟩ := Option.map_eq_some_iff.mp hans
          rw [(Prod.mk.inj hpair).1]
  · exact .inl (Inherits.onAuth h (fun i hi => hans ⟨i, hi⟩) hp).1

theorem assocAccept_asocList (priv : RtlPriv) (e : AssocElems) (s : StaPriv) (x : ℕ) :
    (assocAccept priv e s x).asocList =
      if x ∈ s.asocList then s.asocList else s.asocList ++ [x] := by
  unfold assocAccept StaPriv.listAsoc
  simp only [StaPriv.unlistAuth_eq, StaPriv.setSta]
  by_cases hmem : x ∈ s.asocList
  · simp [hmem]
  · simp [hmem]

/-- A request changes the association list by the station that it associates. -/
theorem onAssocReq_lists (priv : RtlPriv) (cfg : ApConfig) (s : StaPriv) (f : RecvFrame) :
    match joinedSta priv cfg s f with
    | some x => s.rtwGetStainfo (getAddr2 f) = some x ∧ (onAssocReq priv cfg s f).1.asocList =
        if x ∈ s.asocList then s.asocList else s.asocList ++ [x]
    | none => (onAssocReq priv cfg s f).1.asocList = s.asocList := by
  unfold joinedSta Sta.onAssocReq
  by_cases hlen : f.len < 24 + ieOffset f
  · rw [if_pos hlen]
  rw [if_neg hlen]
  cases hfound : s.rtwGetStainfo (getAddr2 f) with
  | none => rfl
  | some pstat =>
    dsimp only
    by_cases hst : !(s.sta pstat).state.authSuccess ∧ !(s.sta pstat).state.assocSuccess
    · rw [if_pos hst]
    rw [if_neg hst]
    by_cases hstatus : assocStatus priv cfg (cfg.parse f) ≠ 0
    · rw [if_pos hstatus]
      rfl
    rw [if_neg hstatus]
    cases hassign : (s.setSta pstat fun i =>
        { i with state := assocEnter i.state }).assignAid pstat with
    | none => rfl
    | some s2 =>
      have hlist : s2.asocList = s.asocList := by
        unfold StaPriv.assignAid at hassign
        split_ifs at hassign
        · rw [← Option.some.inj hassign]
          rfl
        · rw [← Option.some.inj hassign]
          rfl
      refine ⟨rfl, ?_⟩
      rw [← hlist]
      exact assocAccept_asocList priv (cfg.parse f) s2 pstat

/-- A farewell and a tick only take stations off the association list. -/
theorem leave_subset (priv : RtlPriv) (s : StaPriv) (f : RecvFrame) :
    (onDeAuth priv s f).asocList ⊆ s.asocList := by
  unfold Sta.onDeAuth
  split_ifs
  · exact List.Subset.refl _
  · cases s.rtwGetStainfo (getAddr2 f) with
    | none => exact List.Subset.refl _
    | some y =>
      dsimp only
      split_ifs
      · rw [((s.unlistAsoc y).rtwFreeStainfo_released y).asocList, unlistAsoc_asocList]
        exact List.erase_subset
      · exact List.Subset.refl _

theorem expire_subset (alive : ℕ → Bool) (s : StaPriv) :
    (expireTimeoutChk alive s).asocList ⊆ s.asocList := by
  have hasoc : ∀ (t : StaPriv) y, (expireAsoc alive t y).asocList ⊆ t.asocList := by
    intro t y
    unfold expireAsoc
    dsimp only
    split_ifs
    · rw [(StaPriv.rtwFreeStainfo_released _ y).asocList, unlistAsoc_asocList]
      exact List.erase_subset
    · exact List.Subset.refl _
  have hwalk : ∀ (l : List ℕ) (t : StaPriv),
      (l.foldl (expireAsoc alive) t).asocList ⊆ t.asocList := by
    intro l
    induction l with
    | nil => exact fun t => List.Subset.refl _
    | cons y l ih => exact fun t z hz => hasoc t y (ih _ hz)
  have hauth : ∀ (l : List ℕ) (t : StaPriv), (l.foldl expireAuth t).asocList = t.asocList := by
    intro l
    induction l with
    | nil => exact fun t => rfl
    | cons y l ih => exact fun t => (ih _).trans (expireAuth_asocList t y)
  unfold Sta.expireTimeoutChk
  intro z hz
  rw [← hauth s.authList s]
  exact hwalk _ _ hz

end lists

/-! ## Invariant -/

/-- A request that leaves the operation mode of an HT access point as it is. -/
structure PureHt (b : BssConfig) (r : CapRequest) : Prop where
  ht : r.ht = true
  grnFld : r.grnFld = true
  supWidth : b.supWidth = true → r.supWidth = true

/-- The events that the counters survive. An associated station authenticates anew only if it
    is not counted. A request with the HT element has the VHT element, and a station
    associates anew only with a request that has what the request before had of the two
    counters that a join does not count out. At an HT access point all stations are HT
    stations with greenfield, and with 40 MHz if the access point has it. -/
def BssOk (priv : RtlPriv) (cfg : ApConfig) (b : BssConfig) (capRequest : RecvFrame → CapRequest)
    (s : BssState) : ApEvent → Prop
  | .auth f => authAllowed priv cfg f = true → ∀ x ∈ s.sta.asocList,
      s.sta.rtwGetStainfo (getAddr2 f) = some x → ∀ c, (s.request x).has c = false
  | .assocReq f => ∀ x, joinedSta priv cfg s.sta f = some x →
      ((capRequest f).ht = true → (capRequest f).vht = true) ∧
      (x ∈ s.sta.asocList → ∀ c, c = .htNoGf ∨ c = .ht20mhz → (s.request x).has c = true →
        (capRequest f).has c = true) ∧
      (priv.htOption = true → PureHt b (capRequest f))
  | .deauth _ | .disassoc _ | .tick _ => True

/-- The flags of the associated stations are what their requests say, and no other record
    has one. -/
structure BssInv (htOption : Bool) (b : BssConfig) (s : BssState) : Prop where
  table : ApTable s.sta
  flags : ∀ x ∈ s.sta.asocList, ∀ c, s.census.set x c = (s.request x).has c
  clear : ∀ x, Places.Placed s.sta.staHash x → x ∉ s.sta.asocList → ∀ c, s.census.set x c = false
  counts : s.census.Counts s.sta.asocList
  erp : ErpRight b s
  pureHt : htOption = true → s.htOpMode = 0 ∧ ∀ x ∈ s.sta.asocList, PureHt b (s.request x)

section inv

variable {priv : RtlPriv} {cfg : ApConfig} {b : BssConfig} {capRequest : RecvFrame → CapRequest}
variable {htOption : Bool} {s s' : BssState} {f : RecvFrame} {x : ℕ}

theorem BssInv.any (h : BssInv htOption b s) (hht : htOption = true) :
    ¬(s.Any .noHt ∨ s.Any .htNoGf) ∧ ¬(b.supWidth = true ∧ s.Any .ht20mhz) := by
  obtain ⟨-, hpure⟩ := h.pureHt hht
  constructor
  · rintro (⟨x, hx, hhas⟩ | ⟨x, hx, hhas⟩)
    · simp [CapRequest.has, (hpure x hx).ht] at hhas
    · simp [CapRequest.has, (hpure x hx).grnFld] at hhas
  · rintro ⟨hwidth, x, hx, hhas⟩
    simp [CapRequest.has, (hpure x hx).supWidth hwidth] at hhas

theorem BssInv.right (h : BssInv htOption b s) : CountersRight htOption b s where
  counts c := by
    rw [h.counts c]
    congr 1
    exact List.countP_congr fun x hx => by rw [h.flags x hx]
  nonneg c := by
    rw [h.counts c]
    exact Int.natCast_nonneg _
  erp data hdata := (h.erp data hdata).2.2
  opMode hht := by
    obtain ⟨hmode, -⟩ := h.pureHt hht
    obtain ⟨hmixed, hwidth⟩ := h.any hht
    refine ⟨?_, ?_, ?_⟩ <;> rw [hmode]
    · exact iff_of_false (by decide) hmixed
    · exact iff_of_false (by decide) fun hno => hwidth hno.2
    · exact iff_of_true (by decide) ⟨hmixed, hwidth⟩

/-- What the others count, for a record of the table. -/
theorem BssInv.rest_nonneg (h : BssInv htOption b s) (hp : Places.Placed s.sta.staHash x) :
    0 ≤ s.census.rest x .nonErp := by
  by_cases hx : x ∈ s.sta.asocList
  · exact (h.counts.perm (List.perm_cons_erase hx)).rest_nonneg _
  · exact ((Census.counts_cons_of_clear (h.clear x hp hx)).mpr h.counts).rest_nonneg _

/-! ### One event -/

theorem BssInv.auth (h : BssInv priv.htOption b s)
    (hok : BssOk priv cfg b capRequest s (.auth f)) :
    BssInv priv.htOption b (bssStep priv cfg b capRequest s (.auth f)) := by
  have hlist := onAuth_asocList priv cfg s.sta f
  have hsub : ∀ y ∈ (onAuth priv cfg s.sta f).1.asocList, y ∈ s.sta.asocList := by
    intro y hy
    rcases hlist with heq | ⟨x, -, -, heq⟩
    · exact heq ▸ hy
    · exact List.mem_of_mem_erase (heq ▸ hy)
  have hset : ∀ y, createdSta priv cfg s.sta f ≠ some y →
      ((createdSta priv cfg s.sta f).elim s.census s.census.clear).set y = s.census.set y := by
    intro y hy
    cases hnew : createdSta priv cfg s.sta f with
    | none => rfl
    | some x => exact Census.clear_set_of_ne fun hyx => hy (hyx ▸ hnew)
  have hold : ∀ y, Places.Placed s.sta.staHash y → createdSta priv cfg s.sta f ≠ some y := by
    intro y hp hy
    exact createdSta_free h.table hy hp
  have hnum : ((createdSta priv cfg s.sta f).elim s.census s.census.clear).num = s.census.num := by
    cases createdSta priv cfg s.sta f <;> rfl
  -- a station that goes off the list was not counted
  have hgone : ∀ x, authAllowed priv cfg f = true → s.sta.rtwGetStainfo (getAddr2 f) = some x →
      ∀ c, s.census.set x c = false := by
    intro x hallowed hfound c
    by_cases hx : x ∈ s.sta.asocList
    · rw [h.flags x hx]
      exact hok hallowed x hx hfound c
    · exact h.clear x (h.table.found hfound).1 hx c
  have hcounts : s.census.Counts (onAuth priv cfg s.sta f).1.asocList := by
    rcases hlist with heq | ⟨x, hallowed, hfound, heq⟩
    · rw [heq]
      exact h.counts
    · rw [heq]
      by_cases hx : x ∈ s.sta.asocList
      · exact (Census.counts_cons_of_clear (hgone x hallowed hfound)).mp
          (h.counts.perm (List.perm_cons_erase hx))
      · rw [List.erase_of_not_mem hx]
        exact h.counts
  refine ⟨(apStep_passed priv cfg (.auth f) h.table).table, ?_, ?_, ?_, ?_, ?_⟩
  · intro y hy c
    have hy := hsub y hy
    exact (congrFun (hset y (hold y (h.table.asoc.2 y hy))) c).trans (h.flags y hy c)
  · intro y hp hy c
    rcases onAuth_placed h.table hp with hp | hnew
    · refine (congrFun (hset y (hold y hp)) c).trans ?_
      by_cases hmem : y ∈ s.sta.asocList
      · rcases hlist with heq | ⟨x, hallowed, hfound, heq⟩
        · exact absurd (heq ▸ hmem) hy
        · by_cases hyx : y = x
          · exact hyx ▸ hgone x hallowed hfound c
          · refine absurd ?_ hy
            show y ∈ (onAuth priv cfg s.sta f).1.asocList
            rw [heq]
            exact (List.mem_erase_of_ne hyx).mpr hmem
      · exact h.clear y hp hmem c
    · show ((createdSta priv cfg s.sta f).elim s.census s.census.clear).set y c = false
      rw [hnew]
      exact Census.clear_set_self
  · exact hcounts.congr hnum fun y hy => hset y (hold y (h.table.asoc.2 y (hsub y hy)))
  · refine h.erp.of_num rfl ?_
    show _ ↔ 0 < ((createdSta priv cfg s.sta f).elim s.census s.census.clear).num .nonErp
    rw [hnum]
  · intro hht
    obtain ⟨hmode, hpure⟩ := h.pureHt hht
    exact ⟨hmode, fun y hy => hpure y (hsub y hy)⟩

theorem BssInv.join (h : BssInv priv.htOption b s)
    (hok : BssOk priv cfg b capRequest s (.assocReq f))
    (hx : joinedSta priv cfg s.sta f = some x) :
    BssInv priv.htOption b (bssStep priv cfg b capRequest s (.assocReq f)) := by
  have hlists := onAssocReq_lists priv cfg s.sta f
  rw [hx] at hlists
  obtain ⟨hfound, hlist⟩ := hlists
  obtain ⟨hvht, hagain, hpure⟩ := hok x hx
  have hplaced := (h.table.found hfound).1
  have hanew : CountsAnew { s with sta := (onAssocReq priv cfg s.sta f).1 } x (capRequest f) := by
    refine ⟨hvht, fun c hc hset => ?_⟩
    replace hset : s.census.set x c = true := hset
    by_cases hmem : x ∈ s.sta.asocList
    · rw [h.flags x hmem] at hset
      exact hagain hmem c hc hset
    · rw [h.clear x hplaced hmem c] at hset
      cases hset
  have hflag := join_set priv.htOption b (capRequest f) hanew
  have hc := join_counted priv.htOption b x (capRequest f)
    { s with sta := (onAssocReq priv cfg s.sta f).1 }
  have hstep : bssStep priv cfg b capRequest s (.assocReq f) =
      bssCapUpdateOnStaJoin priv.htOption b x (capRequest f)
        { s with sta := (onAssocReq priv cfg s.sta f).1 } := by
    unfold bssStep
    dsimp only
    rw [hx]
    rfl
  rw [hstep]
  generalize bssCapUpdateOnStaJoin priv.htOption b x (capRequest f)
    { s with sta := (onAssocReq priv cfg s.sta f).1 } = s' at hflag hc ⊢
  have hsta : s'.sta = (onAssocReq priv cfg s.sta f).1 := hc.sta
  have hmem : ∀ y, y ∈ s'.sta.asocList ↔ y ∈ s.sta.asocList ∨ y = x := by
    intro y
    rw [hsta, hlist]
    split_ifs with hin
    · exact ⟨.inl, fun hy => hy.elim id fun hyx => hyx ▸ hin⟩
    · rw [List.mem_append, List.mem_singleton]
  have hrequest : ∀ y, y ≠ x → s'.request y = s.request y := by
    intro y hyx
    rw [hc.request]
    exact Function.update_of_ne hyx ..
  have hown : s'.request x = capRequest f := by
    rw [hc.request]
    exact Function.update_self ..
  refine ⟨?_, ?_, ?_, ?_, ?_, ?_⟩
  · rw [hsta]
    exact (apStep_passed priv cfg (.assocReq f) h.table).table
  · intro y hy c
    by_cases hyx : y = x
    · rw [hyx, hown, hflag]
    · rw [hrequest y hyx, congrFun (hc.census.set y hyx) c]
      exact h.flags y (((hmem y).mp hy).resolve_right hyx) c
  · intro y hp hy c
    have hyx : y ≠ x := fun hyx => hy ((hmem y).mpr (.inr hyx))
    rw [congrFun (hc.census.set y hyx) c]
    rw [hsta] at hp
    exact h.clear y (Inherits.onAssocReq hp).1 (fun hin => hy ((hmem y).mpr (.inl hin))) c
  · rw [hsta, hlist]
    split_ifs with hin
    · exact h.counts.keep h.table.asoc.1 hin hc.census
    · exact h.counts.join hin (h.clear x hplaced hin) hc.census
  · exact hc.erp (h.rest_nonneg hplaced) (h.erp.of_num rfl Iff.rfl)
  · intro hht
    obtain ⟨hmode, hall⟩ := h.pureHt hht
    refine ⟨(hc.htOpMode hht).trans hmode, fun y hy => ?_⟩
    by_cases hyx : y = x
    · rw [hyx, hown]
      exact hpure hht
    · rw [hrequest y hyx]
      exact hall y (((hmem y).mp hy).resolve_right hyx)

/-- A request that associates no station. -/
theorem BssInv.noJoin (h : BssInv priv.htOption b s) (hx : joinedSta priv cfg s.sta f = none) :
    BssInv priv.htOption b (bssStep priv cfg b capRequest s (.assocReq f)) := by
  have hlist := onAssocReq_lists priv cfg s.sta f
  rw [hx] at hlist
  have hstep : bssStep priv cfg b capRequest s (.assocReq f) =
      { s with sta := (onAssocReq priv cfg s.sta f).1 } := by
    unfold bssStep
    dsimp only
    rw [hx]
    rfl
  rw [hstep]
  refine ⟨(apStep_passed priv cfg (.assocReq f) h.table).table, ?_, ?_, ?_, ?_, ?_⟩
  · intro y hy
    exact h.flags y (hlist ▸ hy)
  · intro y hp hy
    exact h.clear y (Inherits.onAssocReq hp).1 fun hin => hy (hlist ▸ hin)
  · show s.census.Counts (onAssocReq priv cfg s.sta f).1.asocList
    rw [hlist]
    exact h.counts
  · exact h.erp.of_num rfl Iff.rfl
  · intro hht
    exact ⟨(h.pureHt hht).1, fun y hy => (h.pureHt hht).2 y (hlist ▸ hy)⟩

/-- What is left when the stations `left` have gone and `stay` are there. -/
structure Gone (htOption : Bool) (b : BssConfig) (left stay : List ℕ) (s s' : BssState) :
    Prop where
  sta : s'.sta = s.sta
  request : s'.request = s.request
  htOpMode : htOption = true → s'.htOpMode = s.htOpMode
  others : ∀ y ∉ left, s'.census.set y = s.census.set y
  clear : ∀ y ∈ left, ∀ c, s'.census.set y c = false
  counts : s'.census.Counts stay
  erp : ErpRight b s'

theorem gone_foldl (htOption : Bool) (left stay : List ℕ) (hnd : (left ++ stay).Nodup)
    (hcounts : s.census.Counts (left ++ stay)) (herp : ErpRight b s) :
    Gone htOption b left stay s (left.foldl (bssCapUpdateOnStaLeave htOption b) s) := by
  induction left generalizing s with
  | nil => exact ⟨rfl, rfl, fun _ => rfl, fun _ _ => rfl, fun _ hy => absurd hy List.not_mem_nil,
      hcounts, herp⟩
  | cons x left ih =>
    obtain ⟨hx, hnd⟩ := List.nodup_cons.mp hnd
    have hc := leave_counted htOption b s x
    have hcounts' := hcounts.leave hx hc.census (leave_set htOption b s x)
    have hrest := ih hnd hcounts' (hc.erp (hcounts.rest_nonneg _) herp)
    have hxl : x ∉ left := fun hmem => hx (List.mem_append_left _ hmem)
    refine ⟨hrest.sta.trans hc.sta, hrest.request.trans hc.request,
      fun hht => (hrest.htOpMode hht).trans (hc.htOpMode hht), ?_, ?_, hrest.counts, hrest.erp⟩
    · intro y hy
      obtain ⟨hyx, hyl⟩ := List.ne_and_not_mem_of_not_mem_cons hy
      exact (hrest.others y hyl).trans (hc.census.set y hyx)
    · intro y hy c
      rcases List.mem_cons.mp hy with rfl | hy
      · exact (congrFun (hrest.others y hxl) c).trans (leave_set htOption b s y c)
      · exact hrest.clear y hy c

/-- Stations leave the association list and are counted out. -/
theorem BssInv.leaves (h : BssInv htOption b s) {sta : StaPriv} (htable : ApTable sta)
    (hplaced : ∀ y, Places.Placed sta.staHash y → Places.Placed s.sta.staHash y)
    (hsub : sta.asocList ⊆ s.sta.asocList) :
    BssInv htOption b ((s.sta.asocList.filter (· ∉ sta.asocList)).foldl
      (bssCapUpdateOnStaLeave htOption b) { s with sta := sta }) := by
  have hperm : (s.sta.asocList.filter (· ∉ sta.asocList) ++ sta.asocList).Perm s.sta.asocList := by
    have hstay : (s.sta.asocList.filter (· ∈ sta.asocList)).Perm sta.asocList := by
      refine (List.perm_ext_iff_of_nodup (h.table.asoc.1.filter _) htable.asoc.1).mpr fun y => ?_
      rw [List.mem_filter, decide_eq_true_eq]
      exact ⟨And.right, fun hy => ⟨hsub hy, hy⟩⟩
    have hsplit := List.filter_append_perm (· ∈ sta.asocList) s.sta.asocList
    simp only [← decide_not] at hsplit
    exact ((List.Perm.append_left _ hstay.symm).trans List.perm_append_comm).trans hsplit
  have hleft : ∀ y, y ∈ s.sta.asocList.filter (· ∉ sta.asocList) ↔
      y ∈ s.sta.asocList ∧ y ∉ sta.asocList := by
    intro y
    rw [List.mem_filter, decide_eq_true_eq]
  have hgone := gone_foldl (s := { s with sta := sta }) (b := b) htOption
    (s.sta.asocList.filter (· ∉ sta.asocList)) sta.asocList (hperm.nodup_iff.mpr h.table.asoc.1)
    (h.counts.perm hperm.symm) (h.erp.of_num rfl Iff.rfl)
  generalize (s.sta.asocList.filter (· ∉ sta.asocList)).foldl (bssCapUpdateOnStaLeave htOption b)
    { s with sta := sta } = s' at hgone ⊢
  have hsta : s'.sta = sta := hgone.sta
  have hrequest : s'.request = s.request := hgone.request
  refine ⟨hsta ▸ htable, ?_, ?_, hsta ▸ hgone.counts, hgone.erp, ?_⟩
  · intro y hy c
    rw [hsta] at hy
    have hother := hgone.others y fun hl => ((hleft y).mp hl).2 hy
    rw [hrequest, hother]
    exact h.flags y (hsub hy) c
  · intro y hp hy c
    rw [hsta] at hp hy
    by_cases hmem : y ∈ s.sta.asocList
    · exact hgone.clear y ((hleft y).mpr ⟨hmem, hy⟩) c
    · rw [hgone.others y fun hl => hmem ((hleft y).mp hl).1]
      exact h.clear y (hplaced y hp) hmem c
  · intro hht
    obtain ⟨hmode, hall⟩ := h.pureHt hht
    rw [hsta, hrequest]
    exact ⟨(hgone.htOpMode hht).trans hmode, fun y hy => hall y (hsub hy)⟩

theorem bssInv_step (priv : RtlPriv) (cfg : ApConfig) (b : BssConfig)
    (capRequest : RecvFrame → CapRequest) (s : BssState) (e : ApEvent)
    (hok : BssOk priv cfg b capRequest s e) (h : BssInv priv.htOption b s) :
    BssInv priv.htOption b (bssStep priv cfg b capRequest s e) := by
  have htable := (apStep_passed priv cfg e h.table).table
  cases e with
  | auth f => exact h.auth hok
  | assocReq f =>
    cases hx : joinedSta priv cfg s.sta f with
    | none => exact h.noJoin hx
    | some x => exact h.join hok hx
  | deauth f =>
    exact h.leaves htable (fun y hp => (Inherits.onDeAuth (P := False) h.table.hash hp).1)
      (leave_subset priv s.sta f)
  | disassoc f =>
    exact h.leaves htable (fun y hp => (Inherits.onDeAuth (P := False) h.table.hash hp).1)
      (leave_subset priv s.sta f)
  | tick alive =>
    exact h.leaves htable
      (fun y hp => (Inherits.expireTimeoutChk (P := False) alive h.table.hash hp).1)
      (expire_subset alive s.sta)

end inv

/-! ## Runs -/

theorem bssInv_startApMode (htOption : Bool) {b : BssConfig} {erpInfo : Option UInt8}
    (h : ∀ data, erpInfo = some data →
      b.bstartBss = true ∧ b.erpEnable = true ∧ data &&& 1 = 0) :
    BssInv htOption b (startApMode erpInfo) where
  table := apTable_initAp
  flags x hx := absurd hx List.not_mem_nil
  clear _ _ _ _ := rfl
  counts _ := rfl
  erp data hdata := by
    obtain ⟨hstart, henable, hbit⟩ := h data hdata
    exact ⟨hstart, henable, iff_of_false (not_not.mpr hbit) (Int.lt_irrefl 0)⟩
  pureHt _ := ⟨rfl, fun x hx => absurd hx List.not_mem_nil⟩

/-- From the start of the access point, with a beacon that announces no station without ERP,
    the counters are right along every run that meets the condition. -/
theorem counters_of_run (priv : RtlPriv) (cfg : ApConfig) (b : BssConfig)
    (capRequest : RecvFrame → CapRequest) (erpInfo : Option UInt8) (events : List ApEvent)
    (hstart : ∀ data, erpInfo = some data →
      b.bstartBss = true ∧ b.erpEnable = true ∧ data &&& 1 = 0)
    (hok : Guarded (bssStep priv cfg b capRequest) (BssOk priv cfg b capRequest)
      (startApMode erpInfo) events) (n : ℕ) :
    CountersRight priv.htOption b
      (run (bssStep priv cfg b capRequest) (startApMode erpInfo) (events.take n)) :=
  (invariant_run_take (bssInv_step priv cfg b capRequest) hok
    (bssInv_startApMode priv.htOption hstart) n).right

/-! ### One station -/

/-- A VHT station with greenfield and 40 MHz, without short preamble. -/
def vhtRequest : CapRequest where
  capability := 0x0400
  rates := [0x82, 0x0c]
  ht := true
  vht := true
  htCapInfo := 0x12

theorem counters_of_visit : CountersRight true {}
    (run (bssStep { htOption := true } openAp {} fun _ => vhtRequest) (startApMode (some 0))
      (visit.take 2)) := by
  refine counters_of_run { htOption := true } openAp {} (fun _ => vhtRequest) (some 0) visit
    ?_ ?_ 2
  · rintro data hdata
    obtain rfl := Option.some.inj hdata
    exact ⟨rfl, rfl, rfl⟩
  · refine ⟨fun _ x hx => absurd hx List.not_mem_nil, fun x _ => ⟨fun _ => rfl, fun hx => ?_,
      fun _ => ⟨rfl, by decide, fun _ => by decide⟩⟩, trivial, trivial, trivial⟩
    have hnil : (bssStep { htOption := true } openAp {} (fun _ => vhtRequest) (startApMode (some 0))
        (.auth authRequest)).sta.asocList = [] := by decide +kernel
    rw [hnil] at hx
    cases hx

/-- A station without HT associates and authenticates anew. -/
def drift : List ApEvent := [.auth authRequest, .assocReq assocRequest, .auth authRequest]

/-- The station is off the list and stays counted. -/
theorem reauth_drifts : ¬ ∀ (priv : RtlPriv) (cfg : ApConfig) (b : BssConfig)
    (capRequest : RecvFrame → CapRequest) (erpInfo : Option UInt8) (events : List ApEvent) (n : ℕ),
    (∀ data, erpInfo = some data →
      b.bstartBss = true ∧ b.erpEnable = true ∧ data &&& 1 = 0) →
    CountersRight priv.htOption b
      (run (bssStep priv cfg b capRequest) (startApMode erpInfo) (events.take n)) := by
  intro h
  have hcount := (h {} openAp {} (fun _ => {}) none drift 3 (fun _ hdata => by cases hdata)).counts
    .noHt
  have hnum : (run (bssStep {} openAp {} fun _ => {}) (startApMode none)
      (drift.take 3)).census.num .noHt = 1 := by decide +kernel
  have hnil : (run (bssStep {} openAp {} fun _ => {}) (startApMode none)
      (drift.take 3)).sta.asocList = [] := by decide +kernel
  rw [hnum, hnil] at hcount
  revert hcount
  decide

end Rtl8821au.Ap
