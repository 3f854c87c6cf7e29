import Mathlib.Data.List.FinRange
import Rtl8821au.Lib.Area

/-!
# Scan requests with sections

`rtw_wx_set_scan` (`ioctl_linux.c`, lines 1410–1589) from line 1475 on, for requests that begin
with `WEXT_CSCAN_HEADER`, and the SSIDs that `rtw_sitesurvey_cmd` (`rtw_cmd.c`, lines 440–517)
puts into the survey command. The driver is up and idle and there is memory for the command;
otherwise there is no scan.

* `leads_iff`: the loop over the sections ends exactly when finitely many turns lead out of it.
* `leads_sections`: its turns, section by section.
* `requests_right_iff`: when the loop ends, stays inside and hands over the SSIDs.

**What goes wrong.** A section's length goes through a plain `char`. Where that is signed, a
length from 128 on steps backwards, to a place that may be its own section; where it is not, as
for all lengths above 32, the SSID is longer than its entry. The entries are not counted.
-/

namespace Rtl8821au.Mlme.ScanReq

open Checked

/-! ## Model -/

/-- `RTW_SSID_SCAN_AMOUNT`. -/
def ssidScanAmount : ℕ := 9

theorem ssidScanAmount_pos : 0 < ssidScanAmount := by decide

/-- `NDIS_802_11_LENGTH_SSID`, which is `IW_ESSID_MAX_SIZE` too. -/
def lengthSsid : ℕ := 32

/-- `NDIS_802_11_SSID`. -/
structure Ssid where
  ssidLength : ℕ := 0
  ssid : Area lengthSsid := .zero lengthSsid
  deriving DecidableEq, Repr

/-- `NDIS_802_11_SSID ssid[RTW_SSID_SCAN_AMOUNT]`. -/
abbrev Ssids := Vector Ssid ssidScanAmount

/-- `WEXT_CSCAN_HEADER`. -/
def cscanHeader : List UInt8 :=
  [0x43, 0x53, 0x43, 0x41, 0x4e, 0x20, 0x53, 0x01, 0x00, 0x00, 0x53, 0x00]

/-- `WEXT_CSCAN_SSID_SECTION`. -/
def ssidSection : UInt8 := 0x53

/-- The number of bytes that the other sections skip: `WEXT_CSCAN_CHANNEL_SECTION` and
    `WEXT_CSCAN_TYPE_SECTION` one, the three dwell sections two. -/
def skipOf (sec : UInt8) : Option ℕ :=
  if sec = 0x43 ∨ sec = 0x54 then some 1
  else if sec = 0x41 ∨ sec = 0x50 ∨ sec = 0x48 then some 2
  else none

/-- The value of a `char`. -/
def charVal (charSigned : Bool) (b : UInt8) : ℤ :=
  if charSigned ∧ 128 ≤ b.toNat then b.toNat - 256 else b.toNat

/-- `pos` and `len`, counted in the request, `ssid` and `ssid_index`. -/
structure ScanState where
  pos : ℤ
  len : ℤ
  ssid : Ssids
  ssidIndex : ℕ

/-- `*pos`. -/
def readAt (f : List UInt8) (pos : ℤ) : Except Fault UInt8 :=
  if 0 ≤ pos then readByte f pos.toNat else .error .beyond

/-- `n` bytes from `pos` on. -/
def readBytesAt (f : List UInt8) (pos : ℤ) (n : ℕ) : Except Fault (List UInt8) :=
  if 0 ≤ pos then readBytes f pos.toNat n else .error .beyond

/-- The next entry (lines 1530–1537). -/
def putSsid (f : List UInt8) (secLen : ℤ) (s : ScanState) : Except Fault ScanState :=
  if h : s.ssidIndex < ssidScanAmount then do
    let bytes ← readBytesAt f s.pos secLen.toNat
    let area ← (s.ssid.get ⟨s.ssidIndex, h⟩).ssid.copyIn 0 bytes
    .ok { s with
      ssid := s.ssid.set s.ssidIndex ⟨secLen.toNat, area⟩ h
      ssidIndex := s.ssidIndex + 1 }
  else .error .beyond

/-- `pos += n; len -= n;`. -/
def ScanState.advance (s : ScanState) (n : ℤ) : ScanState :=
  { s with pos := s.pos + n, len := s.len - n }

@[simp] theorem ScanState.advance_pos (s : ScanState) (n : ℤ) : (s.advance n).pos = s.pos + n := rfl

@[simp] theorem ScanState.advance_len (s : ScanState) (n : ℤ) : (s.advance n).len = s.len - n := rfl

/-- An SSID section behind its type (lines 1518–1540). -/
def ssidTurn (charSigned : Bool) (f : List UInt8) (s : ScanState) : Except Fault ScanState :=
  if s.len < 1 then .ok { s with len := 0 }
  else do
    let b ← readAt f s.pos
    let secLen := charVal charSigned b
    let s := s.advance 1
    if 0 < secLen ∧ secLen ≤ s.len then do
      let s ← putSsid f secLen s
      .ok (s.advance secLen)
    else .ok (s.advance secLen)

/-- One turn of the loop (lines 1513–1570). -/
def sectionTurn (charSigned : Bool) (f : List UInt8) (s : ScanState) : Except Fault ScanState := do
  let sec ← readAt f s.pos
  let s := s.advance 1
  if sec = ssidSection then ssidTurn charSigned f s
  else
    match skipOf sec with
    | some n => .ok (s.advance n)
    | none => .ok { s with len := 0 }

/-- `while (len >= 1)`. -/
def sectionLoop (charSigned : Bool) (f : List UInt8) : ℕ → ScanState → Except Fault ScanState
  | 0, _ => .error .timeout
  | fuel + 1, s =>
    if 1 ≤ s.len then do
      let s ← sectionTurn charSigned f s
      sectionLoop charSigned f fuel s
    else .ok s

/-- `struct sitesurvey_parm` as far as the SSIDs go. -/
structure SitesurveyParm where
  ssidNum : ℕ := 0
  ssid : Ssids := .replicate ssidScanAmount {}

/-- One turn of the loop over the SSIDs (`rtw_cmd.c`, lines 475–483). -/
def SitesurveyParm.take (ssid : Ssids) (parm : SitesurveyParm) (i : Fin ssidScanAmount) :
    SitesurveyParm :=
  if (ssid.get i).ssidLength ≠ 0 then
    { ssid := parm.ssid.set i.1 (ssid.get i) i.2, ssidNum := parm.ssidNum + 1 }
  else parm

/-- The SSIDs in `rtw_sitesurvey_cmd`; `NULL` is no SSID. -/
def rtwSitesurveyCmd (ssid : Ssids) (ssidNum : ℕ) : SitesurveyParm :=
  ((List.finRange ssidScanAmount).filter (·.1 < ssidNum)).foldl (.take ssid) {}

/-- `sizeof(struct iw_scan_req)`, with `essid` at 20. -/
def iwScanReqSize : ℕ := 316
def essidOffset : ℕ := 20

/-- `rtw_wx_set_scan` from line 1475 on. `thisEssid` is the flag `IW_SCAN_THIS_ESSID`; the result
    is the parameter of the survey command, if there is one. -/
def rtwWxSetScan (charSigned thisEssid : Bool) (extra : List UInt8) (fuel : ℕ) :
    Except Fault (Option SitesurveyParm) :=
  let ssid : Ssids := .replicate ssidScanAmount {}
  if extra.length = iwScanReqSize then
    if thisEssid then do
      let essidLen ← readByte extra 1
      let len := min essidLen.toNat lengthSsid
      let bytes ← readBytes extra essidOffset len
      let area ← (Area.zero lengthSsid).copyIn 0 bytes
      .ok (some (rtwSitesurveyCmd (ssid.set 0 ⟨len, area⟩ ssidScanAmount_pos) 1))
    else .ok none
  else if cscanHeader.length ≤ extra.length ∧ extra.take cscanHeader.length = cscanHeader then do
    let s ← sectionLoop charSigned extra fuel
      { pos := cscanHeader.length
        len := extra.length - cscanHeader.length
        ssid := ssid
        ssidIndex := 0 }
    .ok (some (rtwSitesurveyCmd s.ssid ssidScanAmount))
  else .ok (some {})

/-! ## Turns -/

/-- Finitely many turns lead from `s` out of the loop, to `s'`. -/
inductive Leads (charSigned : Bool) (f : List UInt8) : ScanState → ScanState → Prop
  | done {s : ScanState} (hlen : s.len < 1) : Leads charSigned f s s
  | next {s s₁ s' : ScanState} (hlen : 1 ≤ s.len) (hturn : sectionTurn charSigned f s = .ok s₁)
      (hrest : Leads charSigned f s₁ s') : Leads charSigned f s s'

section turns

variable {charSigned : Bool} {f rest : List UInt8} {s s₁ s' : ScanState} {p k : ℕ} {b sec : UInt8}
  {e : Fault}

theorem leads_iff :
    (∃ fuel, sectionLoop charSigned f fuel s = .ok s') ↔ Leads charSigned f s s' := by
  constructor
  · rintro ⟨fuel, h⟩
    induction fuel generalizing s with
    | zero => cases h
    | succ fuel ih =>
      rw [sectionLoop] at h
      by_cases hlen : 1 ≤ s.len
      · rw [if_pos hlen] at h
        cases hturn : sectionTurn charSigned f s with
        | error e =>
          rw [hturn] at h
          cases h
        | ok s₁ =>
          rw [hturn] at h
          exact .next hlen hturn (ih h)
      · rw [if_neg hlen] at h
        obtain rfl := Except.ok.inj h
        exact .done (by omega)
  · intro h
    induction h with
    | done hlen => exact ⟨1, if_neg (by omega)⟩
    | next hlen hturn _ ih =>
      obtain ⟨fuel, h⟩ := ih
      refine ⟨fuel + 1, ?_⟩
      rw [sectionLoop, if_pos hlen, hturn]
      exact h

/-- A turn can be taken first. -/
theorem leads_turn (hlen : 1 ≤ s.len) (hturn : sectionTurn charSigned f s = .ok s₁) :
    Leads charSigned f s s' ↔ Leads charSigned f s₁ s' := by
  constructor
  · intro h
    cases h with
    | done hno => omega
    | next _ hturn' hrest =>
      rw [hturn] at hturn'
      obtain rfl := Except.ok.inj hturn'
      exact hrest
  · exact .next hlen hturn

theorem not_leads_error (hlen : 1 ≤ s.len) (hturn : sectionTurn charSigned f s = .error e) :
    ¬ Leads charSigned f s s' := by
  intro h
  cases h with
  | done hno => omega
  | next _ hturn' _ =>
    rw [hturn] at hturn'
    cases hturn'

theorem leads_done (hlen : s.len < 1) : Leads charSigned f s s' ↔ s' = s := by
  constructor
  · intro h
    cases h with
    | done _ => rfl
    | next hno _ _ => omega
  · rintro rfl
    exact .done hlen

/-! ### What a turn does -/

theorem readAt_nat (hpos : s.pos = p) (h : f.drop p = b :: rest) : readAt f s.pos = .ok b := by
  rw [readAt, hpos, if_pos (Int.natCast_nonneg p), Int.toNat_natCast, readByte_drop h]

theorem turn_negative (hpos : s.pos < 0) : sectionTurn charSigned f s = .error .beyond := by
  rw [sectionTurn, readAt, if_neg (by omega), bind_error]

theorem turn_unknown (hpos : s.pos = p) (h : f.drop p = sec :: rest) (hsec : sec ≠ ssidSection)
    (hskip : skipOf sec = none) :
    sectionTurn charSigned f s = .ok { s.advance 1 with len := 0 } := by
  rw [sectionTurn, readAt_nat hpos h, bind_ok, if_neg hsec, hskip]

theorem turn_skip (hpos : s.pos = p) (h : f.drop p = sec :: rest) (hskip : skipOf sec = some k) :
    sectionTurn charSigned f s = .ok ((s.advance 1).advance k) := by
  have hsec : sec ≠ ssidSection := by
    rintro rfl
    cases hskip
  rw [sectionTurn, readAt_nat hpos h, bind_ok, if_neg hsec, hskip]

theorem turn_noLength (hpos : s.pos = p) (h : f.drop p = ssidSection :: rest) (hlen : s.len = 1) :
    sectionTurn charSigned f s = .ok { s.advance 1 with len := 0 } := by
  have hend : (s.advance 1).len < 1 := by
    rw [s.advance_len]
    omega
  rw [sectionTurn, readAt_nat hpos h, bind_ok, if_pos rfl, ssidTurn, if_pos hend]

theorem turn_length (hpos : s.pos = p) (h : f.drop p = ssidSection :: b :: rest)
    (hlen : 2 ≤ s.len) :
    sectionTurn charSigned f s =
      if 0 < charVal charSigned b ∧ charVal charSigned b ≤ s.len - 2 then
        (do
          let s ← putSsid f (charVal charSigned b) ((s.advance 1).advance 1)
          .ok (s.advance (charVal charSigned b)))
      else .ok (((s.advance 1).advance 1).advance (charVal charSigned b)) := by
  have hend : ¬ (s.advance 1).len < 1 := by
    rw [s.advance_len]
    omega
  have hpos' : (s.advance 1).pos = (p + 1 : ℕ) := by
    rw [s.advance_pos, hpos]
    rfl
  have hrest : s.len - 2 = ((s.advance 1).advance 1).len := by
    rw [(s.advance 1).advance_len, s.advance_len]
    omega
  rw [sectionTurn, readAt_nat hpos h, bind_ok, if_pos rfl, ssidTurn, if_neg hend,
    readAt_nat hpos' (drop_next h), bind_ok, hrest]

end turns

/-! ## Entries -/

/-- The entry of an SSID. -/
def entryOf (x : List UInt8) : Ssid := ⟨x.length, (Area.zero lengthSsid).put 0 x⟩

/-- The array with these SSIDs. -/
def entries (l : List (List UInt8)) : Ssids :=
  Vector.ofFn fun i => (l[i.1]?.map entryOf).getD {}

/-- The bytes of an entry, if it is used. -/
def Ssid.used (x : Ssid) : Option (List UInt8) :=
  if x.ssidLength ≠ 0 then some (x.ssid.bytes.take x.ssidLength) else none

/-- The SSIDs that are handed over, in their order. -/
def SitesurveyParm.handed (parm : SitesurveyParm) : List (List UInt8) :=
  (List.finRange ssidScanAmount).filterMap fun i => (parm.ssid.get i).used

/-- These are SSIDs, and there is an entry for each of them. -/
structure Ssids.Proper (l : List (List UInt8)) : Prop where
  amount : l.length ≤ ssidScanAmount
  named : ∀ x ∈ l, x ≠ []
  short : ∀ x ∈ l, x.length ≤ lengthSsid

section entries

variable {l : List (List UInt8)} {x : List UInt8} {v : Ssids} {parm : SitesurveyParm} {num : ℕ}

theorem entries_get (l : List (List UInt8)) (i : Fin ssidScanAmount) :
    (entries l).get i = (l[i.1]?.map entryOf).getD {} := Vector.getElem_ofFn i.2

theorem ssids_ext {v w : Ssids} (h : ∀ i, v.get i = w.get i) : v = w :=
  Vector.ext fun i hi => h ⟨i, hi⟩

theorem entries_nil : entries [] = .replicate ssidScanAmount {} := by
  refine ssids_ext fun i => ?_
  rw [entries_get]
  exact (Vector.getElem_replicate i.2).symm

theorem get_set (v : Ssids) (n : ℕ) (hn : n < ssidScanAmount) (e : Ssid)
    (i : Fin ssidScanAmount) : (v.set n e hn).get i = if n = i.1 then e else v.get i :=
  Vector.getElem_set hn i.2

theorem entries_snoc (l : List (List UInt8)) (x : List UInt8) (h : l.length < ssidScanAmount) :
    (entries l).set l.length (entryOf x) h = entries (l ++ [x]) := by
  refine ssids_ext fun i => ?_
  rw [get_set, entries_get, entries_get]
  by_cases hi : l.length = i.1
  · rw [if_pos hi, ← hi, List.getElem?_append_right (Nat.le_refl _), Nat.sub_self]
    rfl
  · rw [if_neg hi]
    rcases Nat.lt_or_gt_of_ne hi with hlt | hgt
    · rw [List.getElem?_eq_none (by omega), List.getElem?_eq_none (by
        rw [List.length_append, List.length_singleton]
        omega)]
    · rw [List.getElem?_append_left hgt]

theorem used_entryOf (hx : x ≠ []) (hlen : x.length ≤ lengthSsid) : (entryOf x).used = some x := by
  have hused : (entryOf x).ssidLength ≠ 0 := (List.length_pos_iff.mpr hx).ne'
  rw [Ssid.used, if_pos hused]
  exact congrArg some ((Area.zero lengthSsid).take_put_zero hlen)

theorem used_entries (h : Ssids.Proper l) (i : Fin ssidScanAmount) :
    ((entries l).get i).used = l[i.1]? := by
  rw [entries_get]
  by_cases hi : i.1 < l.length
  · rw [List.getElem?_eq_getElem hi]
    have hmem : l[i.1] ∈ l := List.getElem_mem hi
    exact used_entryOf (h.named _ hmem) (h.short _ hmem)
  · rw [List.getElem?_eq_none (by omega)]
    rfl

/-- The indices up to a bound find the list. -/
theorem filterMap_range (l : List (List UInt8)) (n : ℕ) :
    (List.range n).filterMap (fun i => l[i]?) = l.take n := by
  induction n with
  | zero => rw [List.range_zero, List.filterMap_nil, List.take_zero]
  | succ n ih =>
    rw [List.range_succ, List.filterMap_append, ih, List.take_add_one]
    rfl

theorem filterMap_entries (h : Ssids.Proper l) :
    (List.finRange ssidScanAmount).filterMap (fun i => ((entries l).get i).used) = l := by
  have hrange : (List.finRange ssidScanAmount).filterMap (fun i => ((entries l).get i).used) =
      ((List.finRange ssidScanAmount).map Fin.val).filterMap (fun i => l[i]?) := by
    rw [List.filterMap_map]
    exact List.filterMap_congr fun i _ => used_entries h i
  rw [hrange, List.map_coe_finRange_eq_range, filterMap_range, List.take_of_length_le h.amount]

/-! ### The survey command -/

theorem take_get (v : Ssids) (parm : SitesurveyParm) (i j : Fin ssidScanAmount) :
    (parm.take v j).ssid.get i =
      if j = i ∧ (v.get i).ssidLength ≠ 0 then v.get i else parm.ssid.get i := by
  rw [SitesurveyParm.take]
  by_cases hused : (v.get j).ssidLength ≠ 0
  · rw [if_pos hused, get_set]
    by_cases hj : j = i
    · subst hj
      rw [if_pos rfl, if_pos ⟨rfl, hused⟩]
    · rw [if_neg fun h => hj (Fin.ext h), if_neg fun h => hj h.1]
  · rw [if_neg hused, if_neg]
    rintro ⟨rfl, h⟩
    exact hused h

theorem take_num (v : Ssids) (parm : SitesurveyParm) (j : Fin ssidScanAmount) :
    (parm.take v j).ssidNum = parm.ssidNum + (v.get j).used.toList.length := by
  rw [SitesurveyParm.take, Ssid.used]
  by_cases hused : (v.get j).ssidLength ≠ 0
  · rw [if_pos hused, if_pos hused]
    rfl
  · rw [if_neg hused, if_neg hused]
    rfl

/-- Every entry that is used is copied to its place. -/
theorem foldl_take (v : Ssids) (is : List (Fin ssidScanAmount)) (parm : SitesurveyParm) :
    (∀ i, ((is.foldl (.take v) parm).ssid.get i) =
      if i ∈ is ∧ (v.get i).ssidLength ≠ 0 then v.get i else parm.ssid.get i) ∧
    (is.foldl (.take v) parm).ssidNum =
      parm.ssidNum + (is.filterMap fun i => (v.get i).used).length := by
  induction is generalizing parm with
  | nil => simp
  | cons j is ih =>
    obtain ⟨hget, hnum⟩ := ih (parm.take v j)
    rw [List.foldl_cons]
    refine ⟨fun i => ?_, ?_⟩
    · rw [hget i, take_get]
      by_cases hused : (v.get i).ssidLength ≠ 0
      · by_cases hi : i ∈ is
        · rw [if_pos ⟨hi, hused⟩, if_pos ⟨List.mem_cons_of_mem _ hi, hused⟩]
        · by_cases hj : j = i
          · subst hj
            rw [if_neg fun h => hi h.1, if_pos ⟨rfl, hused⟩, if_pos ⟨List.mem_cons_self, hused⟩]
          · rw [if_neg fun h => hi h.1, if_neg fun h => hj h.1,
              if_neg fun h => (List.mem_cons.mp h.1).elim (fun h => hj h.symm) hi]
      · rw [if_neg fun h => hused h.2, if_neg fun h => hused h.2, if_neg fun h => hused h.2]
    · rw [hnum, take_num, Nat.add_assoc, List.filterMap_cons]
      cases (v.get j).used with
      | none => simp
      | some x =>
        simp only [Option.toList_some, List.length_cons, List.length_nil]
        omega

/-- The survey command gets the SSIDs as they are. -/
theorem rtwSitesurveyCmd_entries (h : Ssids.Proper l) (hnum : l.length ≤ num) :
    (rtwSitesurveyCmd (entries l) num).handed = l ∧
      (rtwSitesurveyCmd (entries l) num).ssidNum = l.length := by
  obtain ⟨hget, hcount⟩ := foldl_take (entries l)
    ((List.finRange ssidScanAmount).filter (·.1 < num)) {}
  have hunused : ∀ i : Fin ssidScanAmount, ¬ i.1 < num → ((entries l).get i).used = none := by
    intro i hi
    rw [used_entries h, List.getElem?_eq_none (by omega)]
  have hempty : ∀ i : Fin ssidScanAmount,
      ((Vector.replicate ssidScanAmount ({} : Ssid)).get i).used = none := fun i => by
    have hi : (Vector.replicate ssidScanAmount ({} : Ssid)).get i = {} :=
      Vector.getElem_replicate i.2
    rw [hi]
    rfl
  constructor
  · rw [SitesurveyParm.handed]
    refine Eq.trans (List.filterMap_congr fun i _ => ?_) (filterMap_entries h)
    rw [rtwSitesurveyCmd, hget i]
    by_cases hused : ((entries l).get i).ssidLength ≠ 0
    · have hi : i.1 < num := by
        by_contra hi
        have hno := hunused i hi
        rw [Ssid.used, if_pos hused] at hno
        cases hno
      rw [if_pos ⟨List.mem_filter.mpr ⟨List.mem_finRange i, decide_eq_true hi⟩, hused⟩]
    · rw [if_neg fun h => hused h.2, hempty, Ssid.used, if_neg hused]
  · rw [rtwSitesurveyCmd, hcount, List.filterMap_filter, Nat.zero_add]
    have hall : (List.finRange ssidScanAmount).filterMap
        (fun i => if decide (i.1 < num) = true then ((entries l).get i).used else none) = l := by
      refine Eq.trans (List.filterMap_congr fun i _ => ?_) (filterMap_entries h)
      by_cases hi : i.1 < num
      · rw [if_pos (decide_eq_true hi)]
      · rw [if_neg fun hd => hi (of_decide_eq_true hd), hunused i hi]
    rw [hall]

end entries

/-! ## What the request says -/

/-- The data of the SSID sections of a string, and what it ends with where the last one is cut
    off: the number of bytes behind its length, and the length. -/
structure Sections where
  ssids : List (List UInt8)
  cut : Option (ℕ × UInt8)

/-- The sections of a string, up to the first one that is unknown or cut off. -/
def sections : List UInt8 → Sections
  | [] => ⟨[], none⟩
  | [_] => ⟨[], none⟩
  | sec :: b :: rest =>
    if sec = ssidSection then
      if b.toNat ≤ rest.length then
        ⟨rest.take b.toNat :: (sections (rest.drop b.toNat)).ssids,
          (sections (rest.drop b.toNat)).cut⟩
      else ⟨[], some (rest.length, b)⟩
    else
      match skipOf sec with
      | some k => sections ((b :: rest).drop k)
      | none => ⟨[], none⟩
  termination_by bs => bs.length
  decreasing_by all_goals simp only [List.length_drop, List.length_cons]; omega

/-- The SSIDs that a request names. An empty section names none. -/
def named (body : List UInt8) : List (List UInt8) := (sections body).ssids.filter (· ≠ [])

section request

variable {rest : List UInt8} {b sec : UInt8} {k : ℕ}

theorem sections_ssid (h : b.toNat ≤ rest.length) :
    sections (ssidSection :: b :: rest) =
      ⟨rest.take b.toNat :: (sections (rest.drop b.toNat)).ssids,
        (sections (rest.drop b.toNat)).cut⟩ := by
  rw [sections, if_pos rfl, if_pos h]

theorem sections_cut (h : ¬ b.toNat ≤ rest.length) :
    sections (ssidSection :: b :: rest) = ⟨[], some (rest.length, b)⟩ := by
  rw [sections, if_pos rfl, if_neg h]

theorem sections_skip (hskip : skipOf sec = some k) :
    sections (sec :: b :: rest) = sections ((b :: rest).drop k) := by
  have hsec : sec ≠ ssidSection := by
    rintro rfl
    cases hskip
  rw [sections, if_neg hsec, hskip]

theorem sections_unknown (hsec : sec ≠ ssidSection) (hskip : skipOf sec = none) :
    sections (sec :: b :: rest) = ⟨[], none⟩ := by
  rw [sections, if_neg hsec, hskip]

/-- A section that is cut off says more than there is. -/
theorem cut_lt (h : (sections rest).cut = some (k, b)) : k < b.toNat := by
  induction rest using sections.induct with
  | case1 =>
    rw [sections] at h
    cases h
  | case2 c =>
    rw [sections] at h
    cases h
  | case3 c rest hle ih =>
    rw [sections_ssid hle] at h
    exact ih h
  | case4 c rest hle =>
    rw [sections_cut hle] at h
    obtain ⟨rfl, rfl⟩ := Prod.mk.inj (Option.some.inj h)
    exact Nat.lt_of_not_le hle
  | case5 sec c rest hsec n hskip ih =>
    rw [sections_skip hskip] at h
    exact ih h
  | case6 sec c rest hsec hskip =>
    rw [sections_unknown hsec hskip] at h
    cases h

theorem named_skip (hskip : skipOf sec = some k) :
    named (sec :: b :: rest) = named ((b :: rest).drop k) := by
  rw [named, sections_skip hskip, named]

theorem named_cut (h : ¬ b.toNat ≤ rest.length) : named (ssidSection :: b :: rest) = [] := by
  rw [named, sections_cut h, List.filter_nil]

theorem named_empty (h : b.toNat = 0) :
    named (ssidSection :: b :: rest) = named (rest.drop b.toNat) := by
  rw [named, sections_ssid (by omega), named, List.filter_cons, h, List.take_zero]
  rfl

theorem named_ssid (hb : 0 < b.toNat) (h : b.toNat ≤ rest.length) :
    named (ssidSection :: b :: rest) = rest.take b.toNat :: named (rest.drop b.toNat) := by
  have hne : rest.take b.toNat ≠ [] := by
    intro hnil
    have hlen := congrArg List.length hnil
    rw [List.length_take, Nat.min_eq_left h, List.length_nil] at hlen
    omega
  rw [named, sections_ssid h, named, List.filter_cons, if_pos (decide_eq_true hne)]

end request

/-- Steps over sections of the request, some of them back, lead from a place to the end, and
    there is no SSID on the way. The length of a section is taken with its sign. -/
inductive LeadsOut (f : List UInt8) : ℤ → Prop
  | done {p : ℤ} (hend : f.length ≤ p) : LeadsOut f p
  | unknown {p : ℕ} {sec : UInt8} {rest : List UInt8} (h : f.drop p = sec :: rest)
      (hsec : sec ≠ ssidSection) (hskip : skipOf sec = none) : LeadsOut f p
  | skip {p k : ℕ} {sec : UInt8} {rest : List UInt8} (h : f.drop p = sec :: rest)
      (hskip : skipOf sec = some k) (hnext : LeadsOut f (p + 1 + k)) : LeadsOut f p
  | noLength {p : ℕ} (h : f.drop p = [ssidSection]) : LeadsOut f p
  | noSsid {p : ℕ} {b : UInt8} {rest : List UInt8} (h : f.drop p = ssidSection :: b :: rest)
      (hb : ¬ (0 < charVal true b ∧ charVal true b ≤ rest.length))
      (hnext : LeadsOut f (p + 2 + charVal true b)) : LeadsOut f p

/-! ## The state of the loop -/

/-- The entries have these SSIDs. -/
structure Filled (s : ScanState) (l : List (List UInt8)) : Prop where
  ssid : s.ssid = entries l
  index : s.ssidIndex = l.length
  proper : Ssids.Proper l

section filled

variable {charSigned : Bool} {f rest : List UInt8} {s s' : ScanState} {l : List (List UInt8)}
  {p k : ℕ} {b : UInt8} {n : ℤ}

theorem Filled.advance (h : Filled s l) (n : ℤ) : Filled (s.advance n) l :=
  ⟨h.ssid, h.index, h.proper⟩

theorem Ssids.Proper.snoc {x : List UInt8} (h : Ssids.Proper l) (hroom : l.length < ssidScanAmount)
    (hx : x ≠ []) (hlen : x.length ≤ lengthSsid) : Ssids.Proper (l ++ [x]) where
  amount := by
    rw [List.length_append, List.length_singleton]
    omega
  named y hy := by
    rcases List.mem_append.mp hy with hy | hy
    · exact h.named y hy
    · rw [List.mem_singleton.mp hy]
      exact hx
  short y hy := by
    rcases List.mem_append.mp hy with hy | hy
    · exact h.short y hy
    · rw [List.mem_singleton.mp hy]
      exact hlen

/-- The SSID at a place is put behind the others. -/
theorem putSsid_ok (h : Filled s l) (hpos : s.pos = p) (hrest : f.drop p = rest) (hk : 0 < k)
    (hle : k ≤ rest.length) (hshort : k ≤ lengthSsid) (hroom : l.length < ssidScanAmount) :
    ∃ s', putSsid f k s = .ok s' ∧ Filled s' (l ++ [rest.take k]) ∧ s'.pos = s.pos ∧
      s'.len = s.len := by
  have hindex : s.ssidIndex < ssidScanAmount := by rw [h.index]; exact hroom
  have hlen : (rest.take k).length = k := by rw [List.length_take, Nat.min_eq_left hle]
  have hread : readBytesAt f s.pos k = .ok (rest.take k) := by
    have hin : Inside f p k := by
      have hdrop := congrArg List.length hrest
      rw [List.length_drop] at hdrop
      right
      omega
    rw [readBytesAt, hpos, if_pos (Int.natCast_nonneg p), Int.toNat_natCast,
      readBytes_of_inside hin, bytesAt, hrest]
  have hfree : (s.ssid.get ⟨s.ssidIndex, hindex⟩).ssid = .zero lengthSsid := by
    have hnone : l[s.ssidIndex]? = none := List.getElem?_eq_none (Nat.le_of_eq h.index.symm)
    rw [h.ssid, entries_get, hnone]
    rfl
  have hentry : (⟨k, (Area.zero lengthSsid).put 0 (rest.take k)⟩ : Ssid) =
      entryOf (rest.take k) := by
    rw [entryOf, hlen]
  have hne : rest.take k ≠ [] := by
    intro hnil
    rw [hnil, List.length_nil] at hlen
    omega
  rw [putSsid, dif_pos hindex, Int.toNat_natCast, hread, bind_ok, hfree,
    Area.copyIn_of_le _ (by omega), bind_ok, hentry]
  refine ⟨_, rfl, ⟨?_, ?_, h.proper.snoc hroom hne (by omega)⟩, rfl, rfl⟩
  · simp only [h.ssid, h.index]
    exact entries_snoc l _ hroom
  · rw [List.length_append, List.length_singleton, ← h.index]

/-- There is no room for it. -/
theorem putSsid_beyond (h : Filled s l) (hpos : s.pos = p) (hrest : f.drop p = rest)
    (hle : k ≤ rest.length) (hno : ¬ (k ≤ lengthSsid ∧ l.length < ssidScanAmount)) :
    putSsid f k s = .error .beyond := by
  rw [putSsid]
  by_cases hindex : s.ssidIndex < ssidScanAmount
  · have hlong : ¬ k ≤ lengthSsid := fun hk => hno ⟨hk, by rw [← h.index]; exact hindex⟩
    have hlen : (bytesAt f p k).length = k := by
      rw [bytesAt, hrest, List.length_take, Nat.min_eq_left hle]
    have hin : Inside f p k := by
      have hdrop := congrArg List.length hrest
      rw [List.length_drop] at hdrop
      right
      omega
    rw [dif_pos hindex, readBytesAt, hpos, if_pos (Int.natCast_nonneg p), Int.toNat_natCast,
      Int.toNat_natCast, readBytes_of_inside hin, bind_ok, Area.copyIn_of_lt _ (by omega),
      bind_error]
  · rw [dif_neg hindex]

end filled

/-! ## Turns over sections -/

/-- The state is at a place of the request, and `len` counts what is left of it. -/
structure At (f : List UInt8) (p : ℕ) (rest : List UInt8) (s : ScanState) : Prop where
  pos : s.pos = p
  drop : f.drop p = rest
  total : s.pos + s.len = f.length

section sections

variable {charSigned : Bool} {f rest : List UInt8} {s s' : ScanState} {l : List (List UInt8)}
  {p k : ℕ} {b sec : UInt8}

theorem charVal_unsigned (b : UInt8) : charVal false b = b.toNat :=
  if_neg fun h => Bool.noConfusion h.1

theorem charVal_of_lt (charSigned : Bool) (h : b.toNat < 128) : charVal charSigned b = b.toNat :=
  if_neg fun hge => Nat.not_le.mpr h hge.2

theorem charVal_signed (h : 128 ≤ b.toNat) : charVal true b = (b.toNat : ℤ) - 256 :=
  if_pos ⟨rfl, h⟩

theorem At.len (h : At f p rest s) (hne : rest ≠ []) : s.len = rest.length := by
  have hdrop := congrArg List.length h.drop
  have hpos := List.length_pos_iff.mpr hne
  have htotal := h.total
  rw [List.length_drop] at hdrop
  rw [h.pos] at htotal
  omega

theorem At.advance {rest' : List UInt8} (h : At f p rest s) (hrest : rest.drop k = rest') :
    At f (p + k) rest' (s.advance k) where
  pos := by rw [s.advance_pos, h.pos, Int.natCast_add]
  drop := by rw [← List.drop_drop, h.drop, hrest]
  total := by
    have htotal := h.total
    rw [s.advance_pos, s.advance_len]
    omega

/-- Behind the type and the length of a section. -/
theorem At.header (h : At f p (sec :: b :: rest) s) :
    At f (p + 2) rest ((s.advance 1).advance 1) :=
  (h.advance (k := 1) rfl).advance (k := 1) rfl

/-- An SSID section whose data is no SSID. -/
theorem At.turn_noSsid (h : At f p (ssidSection :: b :: rest) s)
    (hb : ¬ (0 < charVal charSigned b ∧ charVal charSigned b ≤ rest.length)) :
    sectionTurn charSigned f s = .ok ((s.advance 2).advance (charVal charSigned b)) := by
  have hlen : s.len = rest.length + 2 := h.len (List.cons_ne_nil _ _)
  have htwo : (s.advance 1).advance 1 = s.advance 2 := by
    simp only [ScanState.advance, Int.add_assoc, Int.sub_sub]
    rfl
  rw [turn_length h.pos h.drop (by omega), if_neg (by omega), htwo]

/-- One whose data is. -/
theorem At.turn_ssid (h : At f p (ssidSection :: b :: rest) s) (hf : Filled s l)
    (hb : charVal charSigned b = k) (hk : 0 < k) (hle : k ≤ rest.length) (hshort : k ≤ lengthSsid)
    (hroom : l.length < ssidScanAmount) :
    ∃ s₁, sectionTurn charSigned f s = .ok s₁ ∧ Filled s₁ (l ++ [rest.take k]) ∧
      At f (p + 2 + k) (rest.drop k) s₁ := by
  have hlen : s.len = rest.length + 2 := h.len (List.cons_ne_nil _ _)
  have h2 := h.header
  obtain ⟨s₁, hput, hfill, hpos, hlen'⟩ :=
    putSsid_ok ((hf.advance 1).advance 1) h2.pos h2.drop hk hle hshort hroom
  have h3 : At f (p + 2) rest s₁ := ⟨by rw [hpos, h2.pos], h2.drop, by rw [hpos, hlen', h2.total]⟩
  refine ⟨s₁.advance k, ?_, hfill.advance k, h3.advance rfl⟩
  rw [turn_length h.pos h.drop (by omega), hb, if_pos (by omega), hput, bind_ok]

/-- There is no room for it. -/
theorem At.turn_beyond (h : At f p (ssidSection :: b :: rest) s) (hf : Filled s l)
    (hb : charVal charSigned b = k) (hk : 0 < k) (hle : k ≤ rest.length)
    (hno : ¬ (k ≤ lengthSsid ∧ l.length < ssidScanAmount)) :
    sectionTurn charSigned f s = .error .beyond := by
  have hlen : s.len = rest.length + 2 := h.len (List.cons_ne_nil _ _)
  have h2 := h.header
  rw [turn_length h.pos h.drop (by omega), hb, if_pos (by omega),
    putSsid_beyond ((hf.advance 1).advance 1) h2.pos h2.drop hle hno, bind_error]

/-- The last byte of the request. -/
theorem At.turn_last (h : At f p [sec] s) (hf : Filled s l) :
    ∃ s₁, sectionTurn charSigned f s = .ok s₁ ∧ Filled s₁ l ∧ s₁.len < 1 := by
  have hlen : s.len = 1 := h.len (List.cons_ne_nil _ _)
  by_cases hsec : sec = ssidSection
  · subst hsec
    exact ⟨_, turn_noLength h.pos h.drop hlen, ⟨hf.ssid, hf.index, hf.proper⟩, Int.zero_lt_one⟩
  · cases hskip : skipOf sec with
    | none =>
      exact ⟨_, turn_unknown h.pos h.drop hsec hskip, ⟨hf.ssid, hf.index, hf.proper⟩,
        Int.zero_lt_one⟩
    | some k =>
      refine ⟨_, turn_skip h.pos h.drop hskip, (hf.advance 1).advance k, ?_⟩
      rw [(s.advance 1).advance_len, s.advance_len]
      omega

/-- Where the loop is behind the sections of a string. -/
def Behind (charSigned : Bool) (f : List UInt8) (s : ScanState) : Option (ℕ × UInt8) → Prop
  | some (k, b) => s.pos = f.length - k + charVal charSigned b ∧ s.pos + s.len = f.length
  | none => s.len < 1

/-- The SSIDs have room in the entries behind those of `l`. -/
def Roomy (l : List (List UInt8)) (rest : List UInt8) : Prop :=
  (∀ x ∈ (sections rest).ssids, x.length ≤ lengthSsid) ∧
    l.length + (named rest).length ≤ ssidScanAmount

variable (charSigned) in
/-- The loop goes over the sections and takes the SSIDs. -/
theorem leads_sections (h : At f p rest s) (hf : Filled s l) (hroom : Roomy l rest) :
    ∃ s₁, (∀ s', Leads charSigned f s s' ↔ Leads charSigned f s₁ s') ∧
      Filled s₁ (l ++ named rest) ∧ Behind charSigned f s₁ (sections rest).cut := by
  induction rest using sections.induct generalizing s p l with
  | case1 =>
    have hlen : s.len < 1 := by
      have hdrop := List.drop_eq_nil_iff.mp h.drop
      have htotal := h.total
      rw [h.pos] at htotal
      omega
    rw [named, sections, List.filter_nil, List.append_nil]
    exact ⟨s, fun s' => Iff.rfl, hf, hlen⟩
  | case2 c =>
    have hlen : s.len = 1 := h.len (List.cons_ne_nil _ _)
    rw [named, sections, List.filter_nil, List.append_nil]
    obtain ⟨s₁, hturn, hf₁, hlen₁⟩ := h.turn_last hf
    exact ⟨s₁, fun s' => leads_turn (Int.le_of_eq hlen.symm) hturn, hf₁, hlen₁⟩
  | case3 b rest hle ih =>
    have hlen : s.len = rest.length + 2 := h.len (List.cons_ne_nil _ _)
    have hshort := hroom.1
    rw [sections_ssid hle, List.forall_mem_cons, List.length_take, Nat.min_eq_left hle] at hshort
    have hb : charVal charSigned b = b.toNat := charVal_of_lt _ (by
      have h0 := hshort.1
      rw [lengthSsid] at h0
      omega)
    have hamount := hroom.2
    rw [sections_ssid hle]
    by_cases hk : b.toNat = 0
    · have hturn := h.turn_noSsid (by rw [hb]; omega)
      have h₁ : At f (p + 2 + b.toNat) (rest.drop b.toNat)
          ((s.advance 2).advance (charVal charSigned b)) := by
        rw [hb]
        exact (h.advance (k := 2) rfl).advance rfl
      rw [named_empty hk] at hamount ⊢
      obtain ⟨s₁, hleads, hf₁, hbehind⟩ :=
        ih h₁ ((hf.advance 2).advance _) ⟨hshort.2, hamount⟩
      exact ⟨s₁, fun s' => (leads_turn (by omega) hturn).trans (hleads s'), hf₁, hbehind⟩
    · rw [named_ssid (Nat.pos_of_ne_zero hk) hle, List.length_cons] at hamount
      obtain ⟨s₂, hturn, hf₂, h₂⟩ := h.turn_ssid hf hb (Nat.pos_of_ne_zero hk) hle hshort.1
        (by omega)
      obtain ⟨s₁, hleads, hf₁, hbehind⟩ := ih h₂ hf₂ ⟨hshort.2, by
        rw [List.length_append, List.length_singleton]
        omega⟩
      rw [List.append_assoc, List.singleton_append] at hf₁
      rw [named_ssid (Nat.pos_of_ne_zero hk) hle]
      exact ⟨s₁, fun s' => (leads_turn (by omega) hturn).trans (hleads s'), hf₁, hbehind⟩
  | case4 b rest hle =>
    -- The section is cut off.
    have hlen : s.len = rest.length + 2 := h.len (List.cons_ne_nil _ _)
    have hb : ¬ (0 < charVal charSigned b ∧ charVal charSigned b ≤ rest.length) := by
      rw [charVal]
      split_ifs
      · have hlt := b.toNat_lt
        omega
      · omega
    have htotal := h.total
    rw [named_cut hle, sections_cut hle, List.append_nil]
    refine ⟨_, fun s' => leads_turn (by omega) (h.turn_noSsid hb), (hf.advance 2).advance _, ?_, ?_⟩
    · rw [(s.advance 2).advance_pos, s.advance_pos]
      omega
    · rw [(s.advance 2).advance_pos, s.advance_pos, (s.advance 2).advance_len, s.advance_len]
      omega
  | case5 sec b rest hsec k hskip ih =>
    have hlen : s.len = rest.length + 2 := h.len (List.cons_ne_nil _ _)
    rw [Roomy, sections_skip hskip, named_skip hskip] at hroom
    have h₁ : At f (p + 1 + k) ((b :: rest).drop k) ((s.advance 1).advance k) :=
      (h.advance (k := 1) rfl).advance rfl
    obtain ⟨s₁, hleads, hf₁, hbehind⟩ := ih h₁ ((hf.advance 1).advance k) hroom
    rw [named_skip hskip, sections_skip hskip]
    exact ⟨s₁, fun s' => (leads_turn (by omega) (turn_skip h.pos h.drop hskip)).trans (hleads s'),
      hf₁, hbehind⟩
  | case6 sec b rest hsec hskip =>
    have hlen : s.len = rest.length + 2 := h.len (List.cons_ne_nil _ _)
    rw [named, sections_unknown hsec hskip, List.filter_nil, List.append_nil]
    exact ⟨_, fun s' => leads_turn (by omega) (turn_unknown h.pos h.drop hsec hskip),
      ⟨hf.ssid, hf.index, hf.proper⟩, Int.zero_lt_one⟩

/-- Where there is no room for the SSIDs, a plain `char` without a sign makes it fail. -/
theorem not_leads_unsigned (h : At f p rest s) (hf : Filled s l) (hno : ¬ Roomy l rest) :
    ¬ Leads false f s s' := by
  induction rest using sections.induct generalizing s p l with
  | case1 => exact absurd ⟨by rw [sections]; exact fun x hx => absurd hx List.not_mem_nil,
      by rw [named, sections]; exact hf.proper.amount⟩ hno
  | case2 c => exact absurd ⟨by rw [sections]; exact fun x hx => absurd hx List.not_mem_nil,
      by rw [named, sections]; exact hf.proper.amount⟩ hno
  | case3 b rest hle ih =>
    have hlen : s.len = rest.length + 2 := h.len (List.cons_ne_nil _ _)
    rw [Roomy, sections_ssid hle, List.forall_mem_cons, List.length_take,
      Nat.min_eq_left hle] at hno
    by_cases hk : b.toNat = 0
    · have hturn := h.turn_noSsid (by rw [charVal_unsigned]; omega)
      have h₁ : At f (p + 2 + b.toNat) (rest.drop b.toNat)
          ((s.advance 2).advance (charVal false b)) := by
        rw [charVal_unsigned]
        exact (h.advance (k := 2) rfl).advance rfl
      rw [leads_turn (by omega) hturn]
      refine ih h₁ ((hf.advance 2).advance _) fun hroom => hno ⟨⟨by omega, hroom.1⟩, ?_⟩
      rw [named_empty hk]
      exact hroom.2
    · have hpos := Nat.pos_of_ne_zero hk
      by_cases hput : b.toNat ≤ lengthSsid ∧ l.length < ssidScanAmount
      · obtain ⟨s₂, hturn, hf₂, h₂⟩ :=
          h.turn_ssid hf (charVal_unsigned b) hpos hle hput.1 hput.2
        rw [leads_turn (by omega) hturn]
        refine ih h₂ hf₂ fun hroom => hno ⟨⟨hput.1, hroom.1⟩, ?_⟩
        have hamount := hroom.2
        rw [List.length_append, List.length_singleton] at hamount
        rw [named_ssid hpos hle, List.length_cons]
        omega
      · exact not_leads_error (by omega) (h.turn_beyond hf (charVal_unsigned b) hpos hle hput)
  | case4 b rest hle =>
    refine absurd ⟨?_, ?_⟩ hno
    · rw [sections_cut hle]
      exact fun x hx => absurd hx List.not_mem_nil
    · rw [named_cut hle]
      exact hf.proper.amount
  | case5 sec b rest hsec k hskip ih =>
    have hlen : s.len = rest.length + 2 := h.len (List.cons_ne_nil _ _)
    rw [Roomy, sections_skip hskip, named_skip hskip] at hno
    rw [leads_turn (by omega) (turn_skip h.pos h.drop hskip)]
    exact ih ((h.advance (k := 1) rfl).advance rfl) ((hf.advance 1).advance k) hno
  | case6 sec b rest hsec hskip =>
    refine absurd ⟨?_, ?_⟩ hno
    · rw [sections_unknown hsec hskip]
      exact fun x hx => absurd hx List.not_mem_nil
    · rw [named, sections_unknown hsec hskip]
      exact hf.proper.amount

end sections

/-! ## Behind a step backwards -/

section back

variable {f : List UInt8} {s s' : ScanState} {l : List (List UInt8)} {p : ℤ}

theorem exists_at (hpos : 0 ≤ s.pos) (htotal : s.pos + s.len = f.length) (hlen : 1 ≤ s.len) :
    ∃ p sec rest, At f p (sec :: rest) s := by
  have hlt : s.pos.toNat < f.length := by omega
  cases hdrop : f.drop s.pos.toNat with
  | nil => exact absurd (List.drop_eq_nil_iff.mp hdrop) (by omega)
  | cons sec rest =>
    exact ⟨s.pos.toNat, sec, rest, (Int.toNat_of_nonneg hpos).symm, hdrop, htotal⟩

/-- A loop that ends has taken further SSIDs, or its steps lead out of the request. -/
theorem leadsOut_of_leads (h : Leads true f s s') (hf : Filled s l)
    (htotal : s.pos + s.len = f.length) :
    ∃ m, Filled s' (l ++ m) ∧ (m = [] → LeadsOut f s.pos) := by
  induction h generalizing l with
  | @done s hlen =>
    refine ⟨[], ?_, fun _ => .done (by omega)⟩
    rw [List.append_nil]
    exact hf
  | @next s s₁ s' hlen hturn hrest ih =>
    by_cases hneg : s.pos < 0
    · rw [turn_negative hneg] at hturn
      cases hturn
    · obtain ⟨p, sec, rest, hat⟩ := exists_at (by omega) htotal hlen
      rw [hat.pos]
      rcases eq_or_ne sec ssidSection with rfl | hsec
      · rcases rest with _ | ⟨b, rest⟩
        · obtain ⟨s₂, hturn₂, hf₂, hlen₂⟩ := hat.turn_last hf
          obtain rfl := Except.ok.inj (hturn.symm.trans hturn₂)
          obtain rfl := (leads_done hlen₂).mp hrest
          refine ⟨[], ?_, fun _ => .noLength hat.drop⟩
          rw [List.append_nil]
          exact hf₂
        · by_cases hb : 0 < charVal true b ∧ charVal true b ≤ rest.length
          · -- There is an SSID; it has been taken.
            obtain ⟨k, hk⟩ : ∃ k : ℕ, charVal true b = k := ⟨(charVal true b).toNat, by omega⟩
            by_cases hput : k ≤ lengthSsid ∧ l.length < ssidScanAmount
            · obtain ⟨s₂, hturn₂, hf₂, hat₂⟩ :=
                hat.turn_ssid hf hk (by omega) (by omega) hput.1 hput.2
              obtain rfl := Except.ok.inj (hturn.symm.trans hturn₂)
              obtain ⟨m, hf', -⟩ := ih hf₂ hat₂.total
              rw [List.append_assoc, List.singleton_append] at hf'
              exact ⟨_, hf', fun hnil => by cases hnil⟩
            · rw [hat.turn_beyond hf hk (by omega) (by omega) hput] at hturn
              cases hturn
          · obtain rfl := Except.ok.inj (hturn.symm.trans (hat.turn_noSsid hb))
            obtain ⟨m, hf', hout⟩ := ih ((hf.advance 2).advance _)
              (by rw [(s.advance 2).advance_pos, (s.advance 2).advance_len, s.advance_pos,
                s.advance_len]; omega)
            rw [(s.advance 2).advance_pos, s.advance_pos, hat.pos] at hout
            exact ⟨m, hf', fun hm => .noSsid hat.drop hb (hout hm)⟩
      · cases hskip : skipOf sec with
        | none =>
          obtain rfl := Except.ok.inj (hturn.symm.trans (turn_unknown hat.pos hat.drop hsec hskip))
          obtain rfl := (leads_done Int.zero_lt_one).mp hrest
          refine ⟨[], ?_, fun _ => .unknown hat.drop hsec hskip⟩
          rw [List.append_nil]
          exact ⟨hf.ssid, hf.index, hf.proper⟩
        | some k =>
          obtain rfl := Except.ok.inj (hturn.symm.trans (turn_skip hat.pos hat.drop hskip))
          have hat₁ : At f (p + 1 + k) (rest.drop k) ((s.advance 1).advance k) :=
            (hat.advance (k := 1) rfl).advance rfl
          obtain ⟨m, hf', hout⟩ := ih ((hf.advance 1).advance k) hat₁.total
          rw [hat₁.pos] at hout
          exact ⟨m, hf', fun hm => .skip hat.drop hskip (by simpa using hout hm)⟩

/-- Steps that lead out of the request end the loop, and the entries stay. -/
theorem leads_of_leadsOut (h : LeadsOut f p) (hpos : s.pos = p) (hf : Filled s l)
    (htotal : s.pos + s.len = f.length) : ∃ s', Leads true f s s' ∧ Filled s' l := by
  induction h generalizing s with
  | done hend => exact ⟨s, .done (by omega), hf⟩
  | @unknown p sec rest h hsec hskip =>
    have hat : At f p (sec :: rest) s := ⟨hpos, h, htotal⟩
    have hlen := hat.len (List.cons_ne_nil _ _)
    rw [List.length_cons] at hlen
    exact ⟨_, .next (by omega) (turn_unknown hpos h hsec hskip) (.done Int.zero_lt_one),
      hf.ssid, hf.index, hf.proper⟩
  | @skip p k sec rest h hskip _ ih =>
    have hat : At f p (sec :: rest) s := ⟨hpos, h, htotal⟩
    have hlen := hat.len (List.cons_ne_nil _ _)
    rw [List.length_cons] at hlen
    have hat₁ : At f (p + 1 + k) (rest.drop k) ((s.advance 1).advance k) :=
      (hat.advance (k := 1) rfl).advance rfl
    obtain ⟨s', hleads, hf'⟩ := ih (by rw [hat₁.pos]; omega) ((hf.advance 1).advance k) hat₁.total
    exact ⟨s', .next (by omega) (turn_skip hpos h hskip) hleads, hf'⟩
  | @noLength p h =>
    have hat : At f p [ssidSection] s := ⟨hpos, h, htotal⟩
    obtain ⟨s₁, hturn, hf₁, hlen₁⟩ := hat.turn_last hf
    have hlen := hat.len (List.cons_ne_nil _ _)
    rw [List.length_singleton] at hlen
    exact ⟨s₁, .next (by omega) hturn (.done hlen₁), hf₁⟩
  | @noSsid p b rest h hb _ ih =>
    have hat : At f p (ssidSection :: b :: rest) s := ⟨hpos, h, htotal⟩
    have hlen := hat.len (List.cons_ne_nil _ _)
    rw [List.length_cons, List.length_cons] at hlen
    obtain ⟨s', hleads, hf'⟩ := ih (by rw [(s.advance 2).advance_pos, s.advance_pos, hpos])
      ((hf.advance 2).advance _)
      (by rw [(s.advance 2).advance_pos, (s.advance 2).advance_len, s.advance_pos,
        s.advance_len]; omega)
    exact ⟨s', .next (by omega) (hat.turn_noSsid hb) hleads, hf'⟩

end back

/-! ## When a request is handled right -/

/-- The request is over, nothing was read or written outside, and the survey command has these
    SSIDs. -/
def Right (charSigned thisEssid : Bool) (extra : List UInt8) (ssids : List (List UInt8)) : Prop :=
  ∃ fuel parm, rtwWxSetScan charSigned thisEssid extra fuel = .ok (some parm) ∧
    parm.handed = ssids ∧ parm.ssidNum = ssids.length

/-- The SSIDs have room in the entries, and where the last section is cut off and its length has
    a sign, the step back leads out of the request. -/
structure SectionsFit (body : List UInt8) : Prop where
  short : ∀ x ∈ (sections body).ssids, x.length ≤ lengthSsid
  amount : (named body).length ≤ ssidScanAmount
  back : ∀ k b, (sections body).cut = some (k, b) → 128 ≤ b.toNat →
    LeadsOut (cscanHeader ++ body)
      (((cscanHeader ++ body).length : ℤ) - k + ((b.toNat : ℤ) - 256))

/-- The sections fit, or the request is as long as a `struct iw_scan_req` and its SSID is what
    stands at the place of `essid`. -/
def Fits (thisEssid : Bool) (body : List UInt8) : Prop :=
  if (cscanHeader ++ body).length = iwScanReqSize then
    thisEssid = true ∧
      named body = [bytesAt (cscanHeader ++ body) essidOffset lengthSsid]
  else SectionsFit body

section requests

variable {charSigned thisEssid : Bool} {body : List UInt8}

/-- The loop's first state. -/
def start (body : List UInt8) : ScanState where
  pos := cscanHeader.length
  len := (cscanHeader ++ body).length - cscanHeader.length
  ssid := .replicate ssidScanAmount {}
  ssidIndex := 0

theorem start_at (body : List UInt8) : At (cscanHeader ++ body) cscanHeader.length body (start body)
    where
  pos := rfl
  drop := List.drop_left
  total := by
    show (cscanHeader.length : ℤ) + ((cscanHeader ++ body).length - cscanHeader.length) = _
    omega

theorem start_filled (body : List UInt8) : Filled (start body) [] where
  ssid := entries_nil.symm
  index := rfl
  proper := ⟨Nat.zero_le _, fun _ hx => absurd hx List.not_mem_nil,
    fun _ hx => absurd hx List.not_mem_nil⟩

theorem rtwWxSetScan_sections (hlen : (cscanHeader ++ body).length ≠ iwScanReqSize) (fuel : ℕ) :
    rtwWxSetScan charSigned thisEssid (cscanHeader ++ body) fuel =
      (do
        let s ← sectionLoop charSigned (cscanHeader ++ body) fuel (start body)
        .ok (some (rtwSitesurveyCmd s.ssid ssidScanAmount))) := by
  have hheader : cscanHeader.length ≤ (cscanHeader ++ body).length ∧
      (cscanHeader ++ body).take cscanHeader.length = cscanHeader :=
    ⟨by rw [List.length_append]; exact Nat.le_add_right _ _, List.take_left⟩
  rw [rtwWxSetScan]
  simp only [if_neg hlen, if_pos hheader]
  rfl

theorem right_sections (hlen : (cscanHeader ++ body).length ≠ iwScanReqSize)
    (ssids : List (List UInt8)) :
    Right charSigned thisEssid (cscanHeader ++ body) ssids ↔
      ∃ s', Leads charSigned (cscanHeader ++ body) (start body) s' ∧
        (rtwSitesurveyCmd s'.ssid ssidScanAmount).handed = ssids ∧
        (rtwSitesurveyCmd s'.ssid ssidScanAmount).ssidNum = ssids.length := by
  constructor
  · rintro ⟨fuel, parm, hrun, hhanded, hnum⟩
    rw [rtwWxSetScan_sections hlen] at hrun
    cases hloop : sectionLoop charSigned (cscanHeader ++ body) fuel (start body) with
    | error e =>
      rw [hloop] at hrun
      cases hrun
    | ok s' =>
      rw [hloop] at hrun
      obtain rfl := Option.some.inj (Except.ok.inj hrun)
      exact ⟨s', leads_iff.mp ⟨fuel, hloop⟩, hhanded, hnum⟩
  · rintro ⟨s', hleads, hhanded, hnum⟩
    obtain ⟨fuel, hloop⟩ := leads_iff.mpr hleads
    refine ⟨fuel, _, ?_, hhanded, hnum⟩
    rw [rtwWxSetScan_sections hlen, hloop]
    rfl

/-- The SSIDs of a state. -/
theorem Filled.handed {s : ScanState} {l : List (List UInt8)} (h : Filled s l) :
    (rtwSitesurveyCmd s.ssid ssidScanAmount).handed = l ∧
      (rtwSitesurveyCmd s.ssid ssidScanAmount).ssidNum = l.length := by
  rw [h.ssid]
  exact rtwSitesurveyCmd_entries h.proper h.proper.amount

/-- A request that goes through the loop. -/
theorem right_sections_iff (hlen : (cscanHeader ++ body).length ≠ iwScanReqSize) :
    (∀ charSigned, Right charSigned thisEssid (cscanHeader ++ body) (named body)) ↔
      SectionsFit body := by
  constructor
  · intro hright
    obtain ⟨s₀, hleads₀, -⟩ := (right_sections hlen _).mp (hright false)
    have hroom : Roomy [] body := by
      by_contra hno
      exact not_leads_unsigned (start_at body) (start_filled body) hno hleads₀
    refine ⟨hroom.1, by simpa using hroom.2, fun k b hcut hb => ?_⟩
    obtain ⟨s', hleads, hhanded, -⟩ := (right_sections hlen _).mp (hright true)
    obtain ⟨s₁, hiff, hf₁, hbehind⟩ :=
      leads_sections true (start_at body) (start_filled body) hroom
    rw [hcut] at hbehind
    obtain ⟨m, hf', hout⟩ := leadsOut_of_leads ((hiff s').mp hleads) hf₁ hbehind.2
    have hm : m = [] := by
      rw [hf'.handed.1, List.nil_append] at hhanded
      exact List.append_right_eq_self.mp hhanded
    have hpos := hbehind.1
    rw [charVal_signed hb] at hpos
    rw [← hpos]
    exact hout hm
  · intro hfit charSigned
    rw [right_sections hlen]
    have hroom : Roomy [] body := ⟨hfit.short, by simpa using hfit.amount⟩
    obtain ⟨s₁, hiff, hf₁, hbehind⟩ :=
      leads_sections charSigned (start_at body) (start_filled body) hroom
    rw [List.nil_append] at hf₁
    obtain ⟨s', hleads, hf'⟩ : ∃ s', Leads charSigned (cscanHeader ++ body) s₁ s' ∧
        Filled s' (named body) := by
      cases hcut : (sections body).cut with
      | none =>
        rw [hcut] at hbehind
        exact ⟨s₁, .done hbehind, hf₁⟩
      | some r =>
        obtain ⟨k, b⟩ := r
        rw [hcut] at hbehind
        obtain ⟨hpos, htotal⟩ := hbehind
        by_cases hb : charSigned = true ∧ 128 ≤ b.toNat
        · obtain ⟨rfl, hb⟩ := hb
          rw [charVal_signed hb] at hpos
          exact leads_of_leadsOut (hfit.back k b hcut hb) hpos hf₁ htotal
        · -- The step forwards is behind the end.
          have hlt := cut_lt hcut
          rw [charVal, if_neg hb] at hpos
          exact ⟨s₁, .done (by omega), hf₁⟩
    exact ⟨s', (hiff s').mpr hleads, hf'.handed⟩

/-- A request as long as a `struct iw_scan_req`. Its second byte is above 32. -/
theorem rtwWxSetScan_essid (hlen : (cscanHeader ++ body).length = iwScanReqSize) (fuel : ℕ) :
    rtwWxSetScan charSigned true (cscanHeader ++ body) fuel =
      .ok (some (rtwSitesurveyCmd
        (entries [bytesAt (cscanHeader ++ body) essidOffset lengthSsid]) 1)) := by
  have hbyte : readByte (cscanHeader ++ body) 1 = .ok 0x53 := by
    rw [readByte_of_lt (by rw [hlen]; decide)]
    rfl
  have hmin : min (0x53 : UInt8).toNat lengthSsid = lengthSsid := by decide
  have hin : Inside (cscanHeader ++ body) essidOffset lengthSsid := by
    right
    rw [hlen]
    decide
  have hbytes : (bytesAt (cscanHeader ++ body) essidOffset lengthSsid).length = lengthSsid := by
    rw [bytesAt, List.length_take, List.length_drop, hlen]
    rfl
  have hset := entries_snoc [] (bytesAt (cscanHeader ++ body) essidOffset lengthSsid)
    ssidScanAmount_pos
  rw [entryOf, hbytes, entries_nil, List.nil_append] at hset
  rw [rtwWxSetScan]
  simp only [if_pos hlen, if_true, hbyte, bind_ok, hmin, readBytes_of_inside hin]
  rw [Area.copyIn_of_le _ (by rw [hbytes]; decide), bind_ok, ← hset]
  rfl

theorem right_essid_iff (hlen : (cscanHeader ++ body).length = iwScanReqSize) :
    (∀ charSigned, Right charSigned thisEssid (cscanHeader ++ body) (named body)) ↔
      thisEssid = true ∧
        named body = [bytesAt (cscanHeader ++ body) essidOffset lengthSsid] := by
  have hbytes : (bytesAt (cscanHeader ++ body) essidOffset lengthSsid).length = lengthSsid := by
    rw [bytesAt, List.length_take, List.length_drop, hlen]
    rfl
  have hproper : Ssids.Proper [bytesAt (cscanHeader ++ body) essidOffset lengthSsid] := by
    refine ⟨Nat.succ_le_succ (Nat.zero_le _), fun x hx => ?_, fun x hx => ?_⟩
    · rw [List.mem_singleton.mp hx]
      intro hnil
      rw [hnil] at hbytes
      cases hbytes
    · rw [List.mem_singleton.mp hx, hbytes]
  have hhanded := rtwSitesurveyCmd_entries hproper (Nat.le_refl 1)
  cases thisEssid with
  | false =>
    refine iff_of_false (fun hright => ?_) fun h => Bool.noConfusion h.1
    obtain ⟨fuel, parm, hrun, -⟩ := hright false
    rw [rtwWxSetScan] at hrun
    simp only [if_pos hlen] at hrun
    cases hrun
  | true =>
    rw [and_iff_right rfl]
    constructor
    · intro hright
      obtain ⟨fuel, parm, hrun, hssids, -⟩ := hright false
      rw [rtwWxSetScan_essid hlen] at hrun
      obtain rfl := Option.some.inj (Except.ok.inj hrun)
      rw [← hssids, hhanded.1]
    · intro hnamed charSigned
      rw [hnamed]
      exact ⟨0, _, rtwWxSetScan_essid hlen 0, hhanded⟩

/-- The combined scan request is handled right, whether plain `char` has a sign or not, exactly
    when it fits. -/
theorem requests_right_iff (thisEssid : Bool) (body : List UInt8) :
    (∀ charSigned, Right charSigned thisEssid (cscanHeader ++ body) (named body)) ↔
      Fits thisEssid body := by
  rw [Fits]
  by_cases hlen : (cscanHeader ++ body).length = iwScanReqSize
  · rw [if_pos hlen]
    exact right_essid_iff hlen
  · rw [if_neg hlen]
    exact right_sections_iff hlen

end requests

/-- An SSID section whose length is -2 where plain `char` has a sign. -/
def backToItself : List UInt8 := [ssidSection, 0xfe]

/-- An SSID of 33 bytes. -/
def longSsid : List UInt8 := ssidSection :: 33 :: List.replicate 33 65

/-- Ten SSIDs of one byte. -/
def tenSsids : List UInt8 := (List.replicate 10 [ssidSection, 1, 65]).flatten

/-- The step goes back to the section itself, over and over. A longer SSID is written behind its
    entry, a tenth one behind the entries. -/
theorem backToItself_never_ends :
    (∀ fuel, rtwWxSetScan true false (cscanHeader ++ backToItself) fuel = .error .timeout) ∧
      ¬ Right true false (cscanHeader ++ backToItself) (named backToItself) ∧
      (∀ charSigned, rtwWxSetScan charSigned false (cscanHeader ++ longSsid) 2 =
        .error .beyond) ∧
      ∀ charSigned, rtwWxSetScan charSigned false (cscanHeader ++ tenSsids) 10 =
        .error .beyond := by
  have hturn : sectionTurn true (cscanHeader ++ backToItself) (start backToItself) =
      .ok (start backToItself) := by rfl
  have hloop : ∀ fuel, sectionLoop true (cscanHeader ++ backToItself) fuel (start backToItself) =
      .error .timeout := by
    intro fuel
    induction fuel with
    | zero => rfl
    | succ fuel ih =>
      rw [sectionLoop, if_pos (by decide), hturn, bind_ok]
      exact ih
  have hrun : ∀ fuel, rtwWxSetScan true false (cscanHeader ++ backToItself) fuel =
      .error .timeout := by
    intro fuel
    rw [rtwWxSetScan_sections (by decide), hloop, bind_error]
  refine ⟨hrun, ?_, ?_, ?_⟩
  · rintro ⟨fuel, parm, hok, -⟩
    rw [hrun] at hok
    cases hok
  · intro charSigned
    cases charSigned <;> rfl
  · intro charSigned
    cases charSigned <;> rfl

end Rtl8821au.Mlme.ScanReq
