import Rtl8821au.Lib.HeaderScan
import Rtl8821au.Mlme.ElemWalk
import Rtl8821au.Mlme.WpaIn

/-!
# Searches for WPA and RSN elements

`rtw_get_sec_ie` without buffers, `rtw_get_wpa_ie` and `rtw_get_wpa2_ie` (`rtw_ieee80211.c`,
lines 496–549 and 743–799) and `rtw_get_ie` on the elements from a place on, up to a bound that is
given and may be wrong. Which bytes they read, and what they find, is said of the headers they
come to.

* `endsWhen_getIe`, `endsWhen_rtwGetWpaIe`, `endsWhen_rtwGetSecIe`: the searches.
* `endsWhen_parseIn`: a parser at a header that may be cut off.
* `endsWhen_cipherInfo`: the first WPA element of version 1, else the first RSN element, parsed.

`_rtw_memcmp` is counted as reading all its bytes.
-/

namespace Rtl8821au.Mlme.SecSearch

open Checked HeaderScan Elements WpaIe

/-! ## Model -/

/-- `wpa_oui`. -/
def wpaOui : List UInt8 := [0x00, 0x50, 0xf2, 0x01]

section model

variable (f : List UInt8)

/-- `(authmode == _WPA_IE_ID_) && _rtw_memcmp(&in_ie[cnt+2], &wpa_oui[0], 4)`. -/
def wpaAt (authmode : UInt8) (cnt : ℕ) : Except Fault Bool :=
  if authmode = 0xdd then do
    let oui ← readBytes f (cnt + 2) 4
    .ok (oui == wpaOui)
  else .ok false

/-- The loop of `rtw_get_sec_ie` (lines 755–793): `*rsn_len` and `*wpa_len`. The bytes end before
    `cnt` could wrap. -/
def secLoop (inLen : ℕ) : ℕ → ℕ → ℕ × ℕ → Except Fault (ℕ × ℕ)
  | 0, _, _ => .error .timeout
  | fuel + 1, cnt, lens =>
    if cnt < inLen then do
      let authmode ← readByte f cnt
      let isWpa ← wpaAt f authmode cnt
      let len ← readByte f (cnt + 1)
      secLoop inLen fuel (cnt + (len.toNat + 2))
        (if isWpa then (lens.1, len.toNat + 2)
        else if authmode = 0x30 then (len.toNat + 2, lens.2) else lens)
    else .ok lens

/-- `rtw_get_sec_ie(in_ie, in_len, NULL, &rsn_len, NULL, &wpa_len)` with both lengths 0. -/
def rtwGetSecIe (inLen : ℕ) : Except Fault (ℕ × ℕ) := secLoop f inLen (f.length + 1) 12 (0, 0)

/-- The OUI and the version of a WPA element (lines 510–521). -/
def isVersion1 (q : ℕ) : Except Fault Bool := do
  let oui ← readBytes f (q + 2) 4
  if oui = wpaOui then do
    let val16 ← readLe16 f (q + 6)
    .ok (val16 == 1)
  else .ok false

/-- The loop of `rtw_get_wpa_ie` from `pbuf`, at `p`, on. -/
def wpaLoop (pie limit : ℕ) : ℕ → ℕ → ℕ → Except Fault (Option (ℕ × ℕ))
  | 0, _, _ => .error .timeout
  | fuel + 1, p, limitNew => do
    let found ← getIe f 0xdd limitNew p
    match found with
    | none => .ok none
    | some (q, len) => do
      let yes ← isVersion1 f q
      if yes then .ok (some (q, len))
      else if limit - (q - pie) - 2 - len = 0 then .ok none
      else wpaLoop pie limit fuel (q + (len + 2)) (limit - (q - pie) - 2 - len)

/-- `rtw_get_wpa_ie`: the place and the length of the element. -/
def rtwGetWpaIe (limit pie : ℕ) : Except Fault (Option (ℕ × ℕ)) :=
  wpaLoop f pie limit (f.length + 1) pie limit

/-- `rtw_get_wpa2_ie`. -/
def rtwGetWpa2Ie (limit pie : ℕ) : Except Fault (Option (ℕ × ℕ)) := getIe f 0x30 limit pie

/-- An element that was found and is not empty, with its format. -/
def nonEmpty (fmt : Format) : Option (ℕ × ℕ) → Option (Format × ℕ × ℕ)
  | some (p, len) => if 0 < len then some (fmt, p, len) else none
  | none => none

/-- The element with the ciphers: the WPA element, else the RSN element. -/
def secElement (limit : ℕ) : Except Fault (Option (Format × ℕ × ℕ)) := do
  let wpaIe ← rtwGetWpaIe f limit 12
  match nonEmpty wpa wpaIe with
  | some e => .ok (some e)
  | none => do
    let rsnIe ← rtwGetWpa2Ie f limit 12
    .ok (nonEmpty rsn rsnIe)

/-- What its parser makes of it. -/
def cipherInfo (limit : ℕ) : Except Fault (Option Out) := do
  let e ← secElement f limit
  match e with
  | none => .ok none
  | some (fmt, p, len) => do
    let o ← parseIn fmt (f.drop p) (len + 2) (start true)
    .ok (some o)

end model

/-! ## Headers -/

/-- The header of a vendor specific element with the OUI and the type of WPA. -/
def isWpa (h : List UInt8) : Bool := hasId 0xdd h && (h.drop 2).take 4 == wpaOui

/-- One with version 1. -/
def isWpa1 (h : List UInt8) : Bool :=
  isWpa h && (h.getD 6 0).toNat + 256 * (h.getD 7 0).toNat == 1

/-- What `rtw_get_sec_ie` reads at a header. -/
def secNeed (h : List UInt8) : ℕ := if hasId 0xdd h then 6 else 2

/-- What `rtw_get_wpa_ie` reads. -/
def wpaNeed (h : List UInt8) : ℕ := if isWpa h then 8 else secNeed h

/-- A header that was found and whose length is not 0, with its format. -/
def filled (fmt : Format) (r : Option (List UInt8)) : Option (Format × List UInt8) :=
  (r.filter fun h => 0 < lenOf h).map (fmt, ·)

/-- The element with the ciphers among the headers. -/
def consulted (hs : List (List UInt8)) : Option (Format × List UInt8) :=
  (filled wpa (hs.find? isWpa1)).or (filled rsn (hs.find? (hasId 0x30)))

/-! ## A search for an id -/

/-- A search has found the header at `q`, and none before it. -/
structure FoundAt (f : List UInt8) (index : UInt8) (bound p q : ℕ) : Prop where
  le : p ≤ q
  lt : q - p < bound
  long : 2 ≤ (f.drop q).length
  id : hasId index (f.drop q) = true
  before : ∃ hs, headers bound (f.drop p) = hs ++ headers (bound - (q - p)) (f.drop q) ∧
    ∀ x ∈ hs, hasId index x = false

/-- The result of a search. -/
def Answer (f : List UInt8) (index : UInt8) (bound p : ℕ) : Option (ℕ × ℕ) → Prop
  | none => ∀ x ∈ headers bound (f.drop p), hasId index x = false
  | some (q, len) => FoundAt f index bound p q ∧ len = lenOf (f.drop q)

section search

variable {f : List UInt8} {index : UInt8} {bound p q i limit fuel : ℕ}

theorem FoundAt.headers (h : FoundAt f index bound p q) :
    ∃ hs, headers bound (f.drop p) = hs ++ f.drop q ::
        headers (bound - (q - p) - (lenOf (f.drop q) + 2))
          (f.drop (q + (lenOf (f.drop q) + 2))) ∧
      ∀ x ∈ hs, hasId index x = false := by
  obtain ⟨hs, hsplit, hno⟩ := h.before
  have hlt := h.lt
  rw [headers_next (by omega) h.long, List.drop_drop] at hsplit
  exact ⟨hs, hsplit, hno⟩

theorem FoundAt.find (h : FoundAt f index bound p q) :
    (HeaderScan.headers bound (f.drop p)).find? (hasId index) = some (f.drop q) := by
  obtain ⟨hs, hsplit, hno⟩ := h.headers
  rw [hsplit, find?_append_of_none hno]
  exact List.find?_cons_of_pos h.id

theorem hasId_of_long {h : List UInt8} (hlong : 2 ≤ h.length) :
    hasId index h = true ↔ h.getD 0 0 = index := by
  rcases h with _ | ⟨b, d⟩
  · exact absurd hlong (by decide)
  · exact hasId_cons

/-- One header further. -/
theorem FoundAt.next (hb : 0 < bound) (hlong : 2 ≤ (f.drop p).length)
    (hid : hasId index (f.drop p) = false)
    (h : FoundAt f index (bound - (lenOf (f.drop p) + 2)) (p + (lenOf (f.drop p) + 2)) q) :
    FoundAt f index bound p q := by
  obtain ⟨hle, hlt, hq, hqid, hs, hsplit, hno⟩ := h
  refine ⟨by omega, by omega, hq, hqid, f.drop p :: hs, ?_, List.forall_mem_cons.mpr ⟨hid, hno⟩⟩
  have hbound : bound - (q - p) =
      bound - (lenOf (f.drop p) + 2) - (q - (p + (lenOf (f.drop p) + 2))) := by omega
  rw [headers_next hb hlong, List.drop_drop, hsplit, hbound, List.cons_append]

theorem endsWhen_getIeLoop (hi : i < limit) (hfuel : f.length < fuel + p) (hpos : 0 < fuel) :
    EndsWhen (ScanFits (fun _ => 2) (hasId index) (headers (limit - i) (f.drop p)))
      (Answer f index (limit - i) p) (getIeLoop f index limit fuel p i) := by
  induction fuel generalizing p i with
  | zero => exact absurd hpos (Nat.lt_irrefl 0)
  | succ fuel ih =>
    have hb : 0 < limit - i := by omega
    rw [getIeLoop]
    by_cases hlong : 2 ≤ (f.drop p).length
    · have hdrop : (f.drop p).length = f.length - p := List.length_drop
      have hread : readByte f p = .ok ((f.drop p).getD 0 0) :=
        readByte_at (k := 0) (Nat.lt_of_lt_of_le Nat.zero_lt_two hlong)
      have hlen : readByte f (p + 1) = .ok ((f.drop p).getD 1 0) := readByte_at hlong
      rw [hread, bind_ok, hlen, bind_ok]
      by_cases hid : (f.drop p).getD 0 0 = index
      · have hhit := (hasId_of_long hlong).mpr hid
        have hfits : ScanFits (fun _ => 2) (hasId index) (headers (limit - i) (f.drop p)) := by
          rw [headers_next hb hlong]
          exact (scanFits_hit hhit).mpr hlong
        rw [if_pos hid]
        refine .ok_of hfits ⟨⟨Nat.le_refl p, by omega, hlong, hhit, [], ?_, ?_⟩, rfl⟩
        · rw [Nat.sub_self, Nat.sub_zero, List.nil_append]
        · exact fun x hx => absurd hx List.not_mem_nil
      · have hno : hasId index (f.drop p) = false :=
          eq_false_of_ne_true (mt (hasId_of_long hlong).mp hid)
        have hsub : limit - i - (lenOf (f.drop p) + 2) = limit - (i + (lenOf (f.drop p) + 2)) := by
          omega
        have hiff : ScanFits (fun _ => 2) (hasId index) (headers (limit - i) (f.drop p)) ↔
            ScanFits (fun _ => 2) (hasId index) (headers (limit - (i + (lenOf (f.drop p) + 2)))
              (f.drop (p + (lenOf (f.drop p) + 2)))) := by
          rw [headers_next hb hlong, List.drop_drop, ScanFits, hno, ← hsub, and_iff_right hlong]
          simp only [Bool.false_eq_true, false_or]
        rw [if_neg hid, hiff]
        by_cases hend : limit ≤ i + (lenOf (f.drop p) + 2)
        · have hzero : limit - (i + (lenOf (f.drop p) + 2)) = 0 := by omega
          have hnone : Answer f index (limit - i) p none := by
            rw [Answer, headers_next hb hlong, hsub, hzero, headers_zero]
            exact List.forall_mem_singleton.mpr hno
          rw [hzero, headers_zero]
          have hstop : limit ≤ i + (((f.drop p).getD 1 0).toNat + 2) := hend
          rw [if_pos hstop]
          exact .ok_of trivial hnone
        · have hgo : ¬ limit ≤ i + (((f.drop p).getD 1 0).toNat + 2) := hend
          rw [if_neg hgo]
          refine (ih (by omega) (by omega) (by omega)).weaken fun r hr => ?_
          rw [← hsub] at hr
          rcases r with _ | ⟨q, len⟩
          · rw [Answer, headers_next hb hlong, List.drop_drop]
            exact List.forall_mem_cons.mpr ⟨hno, hr⟩
          · exact ⟨hr.1.next hb hlong hno, hr.2⟩
    · have hshort : (f.drop p).length < 2 := Nat.lt_of_not_le hlong
      have hno : ¬ ScanFits (fun _ => 2) (hasId index) (headers (limit - i) (f.drop p)) := by
        rw [headers_short hb hshort]
        exact fun h => hlong h.1
      rcases hd : f.drop p with _ | ⟨b, _ | ⟨c, d⟩⟩
      · rw [hd] at hno
        rw [readByte_of_le (List.drop_eq_nil_iff.mp hd), bind_error]
        exact .error hno
      · rw [hd] at hno
        rw [readByte_drop hd, bind_ok, readByte_of_le (List.drop_eq_nil_iff.mp (drop_next hd)),
          bind_error]
        exact .error hno
      · rw [hd] at hshort
        exact absurd hshort (by simp)

/-- `rtw_get_ie` reads nothing behind the end exactly when the headers up to the first one with
    the id are there. -/
theorem endsWhen_getIe (f : List UInt8) (index : UInt8) (bound p : ℕ) :
    EndsWhen (ScanFits (fun _ => 2) (hasId index) (headers bound (f.drop p)))
      (Answer f index bound p) (getIe f index bound p) := by
  rw [getIe]
  by_cases hb : bound < 1
  · obtain rfl : bound = 0 := by omega
    rw [if_pos hb]
    refine .ok_of ?_ ?_
    · rw [headers_zero]
      trivial
    · rw [Answer, headers_zero]
      exact fun x hx => absurd hx List.not_mem_nil
  · rw [if_neg hb]
    exact endsWhen_getIeLoop (i := 0) (by omega) (by omega) (Nat.succ_pos _)

end search

/-! ## The search for a WPA element -/

section wpa

variable {f h : List UInt8} {bound p q pie limit fuel : ℕ}

theorem isWpa_iff : isWpa h = true ↔ hasId 0xdd h = true ∧ (h.drop 2).take 4 = wpaOui := by
  rw [isWpa, Bool.and_eq_true, beq_iff_eq]

theorem isWpa1_iff : isWpa1 h = true ↔
    isWpa h = true ∧ (h.getD 6 0).toNat + 256 * (h.getD 7 0).toNat = 1 := by
  rw [isWpa1, Bool.and_eq_true, beq_iff_eq]

theorem isWpa_of_id (hid : hasId 0xdd h = false) : isWpa h = false := by
  rw [isWpa, hid, Bool.false_and]

theorem isWpa1_of_id (hid : hasId 0xdd h = false) : isWpa1 h = false := by
  rw [isWpa1, isWpa_of_id hid, Bool.false_and]

theorem wpaNeed_of_id (hid : hasId 0xdd h = false) : wpaNeed h = 2 := by
  rw [wpaNeed, isWpa_of_id hid, secNeed, hid, if_neg Bool.false_ne_true, if_neg Bool.false_ne_true]

theorem two_le_wpaNeed (h : List UInt8) : 2 ≤ wpaNeed h := by
  rw [wpaNeed, secNeed]
  split_ifs <;> omega

theorem endsWhen_readLe16 (hp : f.drop p = h) (k : ℕ) :
    EndsWhen (k + 1 < h.length) (· = (h.getD k 0).toNat + 256 * (h.getD (k + 1) 0).toNat)
      (readLe16 f (p + k)) := by
  have hlo := endsWhen_byte hp k
  have hhi := endsWhen_byte hp (k + 1)
  rw [readLe16, Nat.add_assoc]
  refine (hlo.bind fun lo hl => hhi.bind_ok fun hi hh => .ok ?_).iff
    (and_iff_right_of_imp Nat.lt_of_succ_lt)
  rw [hl, hh]

theorem endsWhen_isVersion1 (hq : f.drop q = h) (hid : hasId 0xdd h = true) :
    EndsWhen (wpaNeed h ≤ h.length) (· = isWpa1 h) (isVersion1 f q) := by
  have hoff : (h.drop 2).take 4 = wpaOui ↔ isWpa h = true := by
    rw [isWpa_iff, and_iff_right hid]
  have hsec : secNeed h = 6 := by rw [secNeed, if_pos hid]
  rw [isVersion1]
  refine (endsWhen_bytes hq 2 3).bind_of_imp ?_ fun oui h6 ho => ?_
  · rw [wpaNeed, hsec]
    split_ifs <;> omega
  · subst ho
    by_cases hw : isWpa h = true
    · rw [if_pos (hoff.mpr hw)]
      refine ((endsWhen_readLe16 hq 6).bind_ok fun v hv => .ok ?_).iff ?_
      · rw [hv, isWpa1, hw, Bool.true_and]
      · rw [wpaNeed, if_pos hw]
        exact Iff.rfl
    · have hno : isWpa h = false := eq_false_of_ne_true hw
      rw [if_neg (mt hoff.mp hw)]
      refine .ok_of ?_ ?_
      · rw [wpaNeed, if_neg hw, hsec]
        exact h6
      · rw [isWpa1, hno, Bool.false_and]

/-- What the search is for among the headers. -/
def Located (f : List UInt8) (found : Option (List UInt8)) : Option (ℕ × ℕ) → Prop
  | none => found = none
  | some (q, len) => found = some (f.drop q) ∧ len = lenOf (f.drop q)

/-- The scan up to a header of version 1, from the first vendor specific header on. -/
theorem scanFits_wpa (hfound : FoundAt f 0xdd bound p q) (hfit : ScanFits (fun _ => 2)
    (hasId 0xdd) (headers bound (f.drop p))) :
    (ScanFits wpaNeed isWpa1 (headers bound (f.drop p)) ↔
      wpaNeed (f.drop q) ≤ (f.drop q).length ∧ (isWpa1 (f.drop q) = true ∨
        ScanFits wpaNeed isWpa1 (headers (bound - (q - p) - (lenOf (f.drop q) + 2))
          (f.drop (q + (lenOf (f.drop q) + 2)))))) ∧
    (headers bound (f.drop p)).find? isWpa1 =
      if isWpa1 (f.drop q) = true then some (f.drop q)
      else (headers (bound - (q - p) - (lenOf (f.drop q) + 2))
        (f.drop (q + (lenOf (f.drop q) + 2)))).find? isWpa1 := by
  obtain ⟨hs, hsplit, hno⟩ := hfound.headers
  have hno1 : ∀ x ∈ hs, isWpa1 x = false := fun x hx => isWpa1_of_id (hno x hx)
  rw [hsplit] at hfit ⊢
  have hneed : ∀ x ∈ hs, wpaNeed x ≤ x.length := fun x hx => by
    rw [wpaNeed_of_id (hno x hx)]
    exact ((scanFits_append hno).mp hfit).1 x hx
  constructor
  · rw [scanFits_append hno1, and_iff_right hneed, ScanFits]
  · rw [find?_append_of_none hno1, List.find?_cons]
    cases isWpa1 (f.drop q) with
    | true => rfl
    | false => rfl

theorem endsWhen_wpaLoop (hpie : pie ≤ p) (hpos : 0 < fuel) (hfuel : f.length < fuel + p) :
    EndsWhen (ScanFits wpaNeed isWpa1 (headers (limit - (p - pie)) (f.drop p)))
      (Located f ((headers (limit - (p - pie)) (f.drop p)).find? isWpa1))
      (wpaLoop f pie limit fuel p (limit - (p - pie))) := by
  induction fuel generalizing p with
  | zero => exact absurd hpos (Nat.lt_irrefl 0)
  | succ fuel ih =>
    rw [wpaLoop]
    refine (endsWhen_getIe f 0xdd (limit - (p - pie)) p).bind_of_imp ?_ fun r hfit hr => ?_
    · -- The search for the id reads no more, and ends no later.
      exact fun h => h.mono two_le_wpaNeed fun x hx => (isWpa_iff.mp (isWpa1_iff.mp hx).1).1
    · rcases r with _ | ⟨q, len⟩
      · have hno1 : ∀ x ∈ headers (limit - (p - pie)) (f.drop p), isWpa1 x = false :=
          fun x hx => isWpa1_of_id (hr x hx)
        refine .ok_of ?_ (List.find?_eq_none.mpr fun x hx => ?_)
        · refine (scanFits_congr (fun x hx => ?_) fun x hx => ?_).mp hfit
          · exact (wpaNeed_of_id (hr x hx)).symm
          · rw [hr x hx, hno1 x hx]
        · rw [hno1 x hx]
          exact Bool.false_ne_true
      · obtain ⟨hfound, rfl⟩ := hr
        obtain ⟨hiff, hfind⟩ := scanFits_wpa hfound hfit
        have hle := hfound.le
        have hlong := hfound.long
        rw [List.length_drop] at hlong
        dsimp only
        rw [hiff, hfind]
        refine (endsWhen_isVersion1 rfl hfound.id).bind_of_imp And.left fun yes hneed hyes => ?_
        rw [hyes, and_iff_right hneed]
        by_cases h1 : isWpa1 (f.drop q) = true
        · rw [if_pos h1, if_pos h1]
          exact .ok_of (.inl h1) ⟨rfl, rfl⟩
        · have hrest : limit - (p - pie) - (q - p) - (lenOf (f.drop q) + 2) =
              limit - (q - pie) - 2 - lenOf (f.drop q) := by omega
          have hnext : limit - (q - pie) - 2 - lenOf (f.drop q) =
              limit - (q + (lenOf (f.drop q) + 2) - pie) := by omega
          rw [if_neg h1, if_neg h1, or_iff_right h1, hrest, hnext]
          by_cases hend : limit - (q + (lenOf (f.drop q) + 2) - pie) = 0
          · rw [if_pos hend, hend, headers_zero]
            exact .ok_of trivial rfl
          · rw [if_neg hend]
            exact ih (by omega) (by omega) (by omega)

/-- `rtw_get_wpa_ie` finds the first header of version 1. -/
theorem endsWhen_rtwGetWpaIe (f : List UInt8) (limit pie : ℕ) :
    EndsWhen (ScanFits wpaNeed isWpa1 (headers limit (f.drop pie)))
      (Located f ((headers limit (f.drop pie)).find? isWpa1)) (rtwGetWpaIe f limit pie) := by
  have hloop := @endsWhen_wpaLoop f pie pie limit (f.length + 1) (Nat.le_refl pie)
    (Nat.succ_pos _) (by omega)
  rw [Nat.sub_self, Nat.sub_zero] at hloop
  exact hloop

end wpa

/-! ## The lengths of both elements -/

section lengths

variable {f h : List UInt8} {p cnt inLen fuel : ℕ} {authmode : UInt8} {lens : ℕ × ℕ}

theorem endsWhen_wpaAt (hp : f.drop cnt = h) (hlong : h ≠ []) :
    EndsWhen (hasId 0xdd h = true → 6 ≤ h.length) (· = isWpa h) (wpaAt f (h.getD 0 0) cnt) := by
  obtain ⟨b, d, rfl⟩ := List.exists_cons_of_ne_nil hlong
  rw [wpaAt, List.getD_cons_zero]
  by_cases hid : b = 0xdd
  · have hhas : hasId 0xdd (b :: d) = true := hasId_cons.mpr hid
    rw [if_pos hid]
    refine ((endsWhen_bytes hp 2 3).bind_ok fun oui ho => .ok ?_).iff
      ⟨fun hle _ => hle, fun hle => hle hhas⟩
    rw [ho, isWpa, hhas, Bool.true_and]
  · have hno : hasId 0xdd (b :: d) = false := eq_false_of_ne_true (mt hasId_cons.mp hid)
    rw [if_neg hid]
    refine .ok_of (fun hyes => absurd hyes ?_) (isWpa_of_id hno).symm
    rw [hno]
    exact Bool.false_ne_true

/-- The lengths of the elements of a list of headers, not 0 if there is one. -/
def Lengths (hs : List (List UInt8)) (lens r : ℕ × ℕ) : Prop :=
  (0 < r.1 ↔ 0 < lens.1 ∨ ∃ x ∈ hs, hasId 0x30 x = true) ∧
    (0 < r.2 ↔ 0 < lens.2 ∨ ∃ x ∈ hs, isWpa x = true)

theorem Lengths.cons {hs : List (List UInt8)} {n : ℕ} {r : ℕ × ℕ}
    (hl : Lengths hs (if isWpa h = true then (lens.1, n + 2)
      else if hasId 0x30 h = true then (n + 2, lens.2) else lens) r) :
    Lengths (h :: hs) lens r := by
  obtain ⟨hrsn, hwpa⟩ := hl
  refine ⟨hrsn.trans ?_, hwpa.trans ?_⟩
  · rw [List.exists_mem_cons_iff]
    by_cases hw : isWpa h = true
    · have hid : ¬ hasId 0x30 h = true := fun hr => by
        have hd := hasId_iff.mp (isWpa_iff.mp hw).1
        rw [hasId_iff.mp hr] at hd
        exact absurd (Option.some.inj hd) (by decide)
      rw [if_pos hw, or_iff_right hid]
    · rw [if_neg hw]
      by_cases hr : hasId 0x30 h = true
      · rw [if_pos hr]
        exact iff_of_true (.inl (Nat.succ_pos _)) (.inr (.inl hr))
      · rw [if_neg hr, or_iff_right hr]
  · rw [List.exists_mem_cons_iff]
    by_cases hw : isWpa h = true
    · rw [if_pos hw]
      exact iff_of_true (.inl (Nat.succ_pos _)) (.inr (.inl hw))
    · rw [if_neg hw, or_iff_right hw]
      by_cases hr : hasId 0x30 h = true
      · rw [if_pos hr]
      · rw [if_neg hr]

theorem endsWhen_secLoop (hpos : 0 < fuel) (hfuel : f.length < fuel + cnt) :
    EndsWhen (∀ x ∈ headers (inLen - cnt) (f.drop cnt), secNeed x ≤ x.length)
      (Lengths (headers (inLen - cnt) (f.drop cnt)) lens) (secLoop f inLen fuel cnt lens) := by
  induction fuel generalizing cnt lens with
  | zero => exact absurd hpos (Nat.lt_irrefl 0)
  | succ fuel ih =>
    rw [secLoop]
    by_cases hcnt : cnt < inLen
    · have hb : 0 < inLen - cnt := by omega
      rw [if_pos hcnt]
      by_cases hlong : 2 ≤ (f.drop cnt).length
      · have hdrop : (f.drop cnt).length = f.length - cnt := List.length_drop
        have hread : readByte f cnt = .ok ((f.drop cnt).getD 0 0) :=
          readByte_at (k := 0) (Nat.lt_of_lt_of_le Nat.zero_lt_two hlong)
        have hlen : readByte f (cnt + 1) = .ok ((f.drop cnt).getD 1 0) := readByte_at hlong
        have hne : f.drop cnt ≠ [] := fun hnil => by
          rw [hnil] at hlong
          exact absurd hlong (by decide)
        have hneed : secNeed (f.drop cnt) ≤ (f.drop cnt).length ↔
            (hasId 0xdd (f.drop cnt) = true → 6 ≤ (f.drop cnt).length) := by
          rw [secNeed]
          split_ifs with hid
          · exact ⟨fun hle _ => hle, fun hle => hle hid⟩
          · exact iff_of_true hlong fun hyes => absurd hyes hid
        have hsub : inLen - cnt - (lenOf (f.drop cnt) + 2) =
            inLen - (cnt + (lenOf (f.drop cnt) + 2)) := by omega
        rw [hread, bind_ok, headers_next hb hlong, List.drop_drop, hsub, List.forall_mem_cons,
          hneed]
        refine (endsWhen_wpaAt rfl hne).bind fun yes hyes => ?_
        rw [hlen, bind_ok, hyes]
        refine (ih (by omega) (by omega)).weaken fun r hr => ?_
        have hid : (f.drop cnt).getD 0 0 = 0x30 ↔ hasId 0x30 (f.drop cnt) = true :=
          (hasId_of_long hlong).symm
        simp only [hid] at hr
        exact Lengths.cons hr
      · have hshort : (f.drop cnt).length < 2 := Nat.lt_of_not_le hlong
        have hno : ¬ ∀ x ∈ headers (inLen - cnt) (f.drop cnt), secNeed x ≤ x.length := by
          rw [headers_short hb hshort, List.forall_mem_singleton, secNeed]
          split_ifs <;> omega
        rcases hd : f.drop cnt with _ | ⟨b, _ | ⟨c, d⟩⟩
        · rw [hd] at hno
          rw [readByte_of_le (List.drop_eq_nil_iff.mp hd), bind_error]
          exact .error hno
        · have hwpa := endsWhen_wpaAt hd (List.cons_ne_nil b [])
          rw [hd] at hno
          rw [readByte_drop hd, bind_ok]
          refine hwpa.bind_of_imp (fun h => absurd h hno) fun _ _ _ => ?_
          rw [readByte_of_le (List.drop_eq_nil_iff.mp (drop_next hd)), bind_error]
          exact .error hno
        · rw [hd] at hshort
          exact absurd hshort (by simp)
    · have hzero : inLen - cnt = 0 := by omega
      rw [if_neg hcnt, hzero, headers_zero]
      have hnone : ∀ p : List UInt8 → Bool, ¬ ∃ x ∈ ([] : List (List UInt8)), p x = true :=
        fun p ⟨x, hx, _⟩ => absurd hx List.not_mem_nil
      refine .ok_of (fun x hx => absurd hx List.not_mem_nil) ⟨?_, ?_⟩
      · exact (or_iff_left (hnone (hasId 0x30))).symm
      · exact (or_iff_left (hnone isWpa)).symm

/-- `rtw_get_sec_ie` looks at every header. -/
theorem endsWhen_rtwGetSecIe (f : List UInt8) (inLen : ℕ) :
    EndsWhen (∀ x ∈ headers (inLen - 12) (f.drop 12), secNeed x ≤ x.length)
      (fun r => (0 < r.1 ↔ ∃ x ∈ headers (inLen - 12) (f.drop 12), hasId 0x30 x = true) ∧
        (0 < r.2 ↔ ∃ x ∈ headers (inLen - 12) (f.drop 12), isWpa x = true))
      (rtwGetSecIe f inLen) := by
  have hzero : ¬ 0 < (0, 0).1 := Nat.lt_irrefl 0
  refine (endsWhen_secLoop (Nat.succ_pos _) (by omega)).weaken fun r hr => ?_
  exact ⟨hr.1.trans (or_iff_right hzero), hr.2.trans (or_iff_right hzero)⟩

end lengths

/-! ## A parser at a header -/

/-- The number of pairwise suites. -/
def suiteCount (rest : List UInt8) : ℕ := (rest.getD 0 0).toNat + 256 * (rest.getD 1 0).toNat

/-- `left` bytes are said to be left, and these are there: those that are read are. -/
def AkmFits (left : ℤ) (rest : List UInt8) : Prop := 6 ≤ left → 6 ≤ rest.length

/-- The same from the number of pairwise suites on. -/
def PairwiseFits (left : ℤ) (rest : List UInt8) : Prop :=
  2 ≤ left → 2 ≤ rest.length ∧ (suiteCount rest ≠ 0 → suiteCount rest * 4 ≤ left - 2 →
    2 + suiteCount rest * 4 ≤ rest.length ∧
      AkmFits (left - 2 - suiteCount rest * 4) (rest.drop (2 + suiteCount rest * 4)))

/-- The same from the group suite on. -/
def GroupFits (left : ℤ) (rest : List UInt8) : Prop :=
  4 ≤ left → 4 ≤ rest.length ∧ PairwiseFits (left - 4) (rest.drop 4)

section parser

variable {fmt : Format} {ie : List UInt8} {pos : ℕ} {left : ℤ} {o : Out}

theorem endsWhen_parse8021x (ho : o.is8021x.isSome) :
    EndsWhen (AkmFits left (ie.drop pos)) (fun _ => True) (parse8021x fmt ie pos left o) := by
  obtain ⟨b, hb⟩ := Option.isSome_iff_exists.mp ho
  unfold parse8021x
  rw [hb]
  dsimp only
  by_cases hleft : left ≥ 6
  · rw [if_pos hleft]
    refine ((endsWhen_bytes rfl 2 3).bind_ok fun s _ => ?_).iff ⟨fun h _ => h, fun h => h hleft⟩
    exact .ite (fun _ => .ok trivial) fun _ => .ok trivial
  · rw [if_neg hleft]
    exact .ok_of (fun h => absurd h hleft) trivial

theorem endsWhen_pairwiseLoop (count acc : ℕ) :
    EndsWhen (count * 4 ≤ (ie.drop pos).length) (fun _ => True)
      (pairwiseLoop fmt ie count pos acc) := by
  induction count generalizing pos acc with
  | zero => exact .ok_of (by omega) trivial
  | succ count ih =>
    rw [pairwiseLoop]
    refine ((endsWhen_bytes (k := 0) rfl 3).bind fun s _ => @ih (pos + 4) _).iff ?_
    rw [List.length_drop, List.length_drop]
    omega

theorem endsWhen_parsePairwise (ho : o.is8021x.isSome) :
    EndsWhen (PairwiseFits left (ie.drop pos)) (fun _ => True)
      (parsePairwise fmt ie pos left o) := by
  unfold parsePairwise
  by_cases hleft : left ≥ 2
  · rw [if_pos hleft]
    refine (endsWhen_readLe16 rfl 0).bind_of_imp (fun h => (h hleft).1) fun count htwo hcount => ?_
    obtain rfl : count = suiteCount (ie.drop pos) := hcount
    rw [PairwiseFits, forall_prop_of_true hleft, and_iff_right (show 2 ≤ _ from htwo)]
    by_cases hbad : suiteCount (ie.drop pos) = 0 ∨ left - 2 < suiteCount (ie.drop pos) * 4
    · rw [if_pos hbad]
      refine .ok_of (fun h0 hle => ?_) trivial
      rcases hbad with h | h
      · exact absurd h h0
      · omega
    · obtain ⟨h0, hle⟩ := not_or.mp hbad
      have hrest : ie.drop (pos + 2 + suiteCount (ie.drop pos) * 4) =
          (ie.drop pos).drop (2 + suiteCount (ie.drop pos) * 4) := by
        rw [List.drop_drop, Nat.add_assoc]
      rw [if_neg hbad, forall_prop_of_true h0, forall_prop_of_true (Int.not_lt.mp hle), ← hrest]
      refine ((@endsWhen_pairwiseLoop fmt ie (pos + 2) _ _).bind fun pairwise _ =>
        endsWhen_parse8021x ?_).iff (and_congr_left' ?_)
      · exact ho
      · rw [List.length_drop, List.length_drop]
        omega
  · rw [if_neg hleft]
    refine .iff (C := True) ?_ (iff_of_true trivial fun h => absurd h hleft)
    by_cases hone : left = 1
    · rw [if_pos hone]
      exact .ok trivial
    · rw [if_neg hone]
      exact (endsWhen_parse8021x ho).iff (iff_of_true (fun h => absurd h (by omega)) trivial)

theorem endsWhen_parseGroup (ho : o.is8021x.isSome) :
    EndsWhen (GroupFits left (ie.drop pos)) (fun _ => True) (parseGroup fmt ie pos left o) := by
  unfold parseGroup
  by_cases hleft : left ≥ 4
  · have hrest : ie.drop (pos + 4) = (ie.drop pos).drop 4 := by rw [List.drop_drop]
    rw [if_pos hleft, GroupFits, forall_prop_of_true hleft, ← hrest]
    exact (endsWhen_bytes rfl 0 3).bind fun s _ => endsWhen_parsePairwise ho
  · rw [if_neg hleft]
    refine .iff (C := True) ?_ (iff_of_true trivial fun h => absurd h hleft)
    by_cases hpos : left > 0
    · rw [if_pos hpos]
      exact .ok trivial
    · rw [if_neg hpos]
      exact (endsWhen_parsePairwise ho).iff (iff_of_true (fun h => absurd h (by omega)) trivial)

/-- The number of bytes that a parser takes to be left behind the version. -/
def leftOf (fmt : Format) (h : List UInt8) : ℤ :=
  ((lenOf h + 2 : ℕ) : ℤ) - (4 + fmt.ouiType.length)

/-- The element of a header, which may be cut off, is there as far as its parser reads it. -/
def ParseFits (fmt : Format) (h : List UInt8) : Prop :=
  GroupFits (leftOf fmt h) (h.drop (4 + fmt.ouiType.length))

/-- The header is one that the parser of the format takes. -/
def IsFor (fmt : Format) (h : List UInt8) : Prop :=
  2 + fmt.ouiType.length ≤ h.length ∧ hasId fmt.id h = true ∧
    (h.drop 2).take fmt.ouiType.length = fmt.ouiType

/-- The reads of a parser at a header of its own. -/
theorem parseIn_eq {h : List UInt8} (hfor : IsFor fmt h) (o : Out) :
    parseIn fmt h (lenOf h + 2) o =
      parseGroup fmt h (4 + fmt.ouiType.length) (leftOf fmt h) o := by
  obtain ⟨hlong, hid, houi⟩ := hfor
  rcases h with _ | ⟨b, _ | ⟨len, d⟩⟩
  · exact absurd hlong (by rw [List.length_nil]; omega)
  · exact absurd hlong (by rw [List.length_singleton]; omega)
  · obtain rfl := hasId_cons.mp hid
    have hread0 : readByte (fmt.id :: len :: d) 0 = .ok fmt.id := rfl
    have hbuf : fmt.id :: len :: d = [] ++ fmt.id :: len :: d := rfl
    have hread1 : readByte (fmt.id :: len :: d) 1 = .ok len := readByte_length hbuf
    have hread : readBytes (fmt.id :: len :: d) 2 fmt.ouiType.length = .ok fmt.ouiType := by
      have hin : Inside (fmt.id :: len :: d) 2 fmt.ouiType.length := .inr hlong
      rw [readBytes_of_inside hin, bytesAt, houi]
    have hlen : lenOf (fmt.id :: len :: d) = len.toNat := rfl
    have hbyte : len = UInt8.ofInt (((len.toNat + 2 : ℕ) : ℤ) - 2) := by
      have hint : ((len.toNat + 2 : ℕ) : ℤ) - 2 = (len.toNat : ℤ) := by omega
      have hlt := len.toNat_lt
      apply UInt8.toNat.inj
      rw [hint, UInt8.ofInt, UInt8.toNat_ofNat']
      omega
    rw [parseIn, if_neg (Nat.succ_ne_zero _), hread0, bind_ok, if_neg (not_not.mpr rfl), hread1,
      bind_ok, hlen, if_neg (not_not.mpr hbyte), hread, bind_ok, if_neg (not_not.mpr rfl)]
    rfl

theorem endsWhen_parseIn {h : List UInt8} (hfor : IsFor fmt h) :
    EndsWhen (ParseFits fmt h) (parseIn fmt h (lenOf h + 2) (start true) = .ok ·)
      (parseIn fmt h (lenOf h + 2) (start true)) := by
  have hgroup : EndsWhen (ParseFits fmt h) (fun _ => True)
      (parseIn fmt h (lenOf h + 2) (start true)) := by
    rw [parseIn_eq hfor]
    exact endsWhen_parseGroup rfl
  exact (EndsWhen.self _).iff hgroup.fine_iff

end parser

/-! ## The element with the ciphers -/

/-- What is read to find it and to parse it is there. -/
structure CipherFits (hs : List (List UInt8)) : Prop where
  wpaScan : ScanFits wpaNeed isWpa1 hs
  rsnScan : filled wpa (hs.find? isWpa1) = none → ScanFits (fun _ => 2) (hasId 0x30) hs
  parse : ∀ fmt h, consulted hs = some (fmt, h) → ParseFits fmt h

/-- The element is at its header. -/
def Placed (f : List UInt8) : Option (Format × List UInt8) → Option (Format × ℕ × ℕ) → Prop
  | none, r => r = none
  | some (fmt, h), r => ∃ q, r = some (fmt, q, lenOf h) ∧ f.drop q = h

/-- What its parser makes of the element. -/
def Parsed : Option (Format × List UInt8) → Option Out → Prop
  | none, r => r = none
  | some (fmt, h), r => ∃ o, parseIn fmt h (lenOf h + 2) (start true) = .ok o ∧ r = some o

section ciphers

variable {f h : List UInt8} {fmt : Format} {hs : List (List UInt8)}
  {found : Option (List UInt8)} {r : Option (ℕ × ℕ)} {limit : ℕ}

theorem Answer.located {index : UInt8} {bound p : ℕ} (h : Answer f index bound p r) :
    Located f ((headers bound (f.drop p)).find? (hasId index)) r := by
  rcases r with _ | ⟨q, len⟩
  · refine List.find?_eq_none.mpr fun x hx => ?_
    rw [h x hx]
    exact Bool.false_ne_true
  · exact ⟨h.1.find, h.2⟩

theorem filled_some (hpos : 0 < lenOf h) : filled fmt (some h) = some (fmt, h) := by
  rw [filled, Option.filter_some, if_pos (decide_eq_true hpos), Option.map_some]

theorem filled_empty (hzero : ¬ 0 < lenOf h) : filled fmt (some h) = none := by
  rw [filled, Option.filter_some, if_neg (by simpa using hzero), Option.map_none]

theorem filled_eq_some {fmt' : Format} (hf : filled fmt found = some (fmt', h)) :
    fmt' = fmt ∧ found = some h ∧ 0 < lenOf h := by
  obtain ⟨x, hx, heq⟩ := Option.map_eq_some_iff.mp hf
  obtain ⟨rfl, rfl⟩ := Prod.mk.inj heq
  obtain ⟨hfound, hpos⟩ := Option.filter_eq_some_iff.mp hx
  exact ⟨rfl, hfound, of_decide_eq_true hpos⟩

theorem placed_nonEmpty (hl : Located f found r) :
    Placed f (filled fmt found) (nonEmpty fmt r) := by
  rcases r with _ | ⟨q, len⟩
  · rw [show found = none from hl]
    rfl
  · obtain ⟨rfl, rfl⟩ := hl
    by_cases hpos : 0 < lenOf (f.drop q)
    · rw [filled_some hpos, nonEmpty, if_pos hpos]
      exact ⟨q, rfl, rfl⟩
    · rw [filled_empty hpos, nonEmpty, if_neg hpos]
      rfl

/-- The element that is found is one for its parser. -/
theorem isFor_consulted (hwpa : ScanFits wpaNeed isWpa1 hs)
    (hrsn : filled wpa (hs.find? isWpa1) = none → ScanFits (fun _ => 2) (hasId 0x30) hs)
    (hc : consulted hs = some (fmt, h)) : IsFor fmt h := by
  rcases Option.or_eq_some_iff.mp hc with hw | ⟨hnone, hr⟩
  · obtain ⟨rfl, hfound, -⟩ := filled_eq_some hw
    obtain ⟨l₁, l₂, -, hhit, -⟩ := find?_split hfound
    obtain ⟨hw, -⟩ := isWpa1_iff.mp hhit
    obtain ⟨hid, houi⟩ := isWpa_iff.mp hw
    have hlong := hwpa.found hfound
    rw [wpaNeed, if_pos hw] at hlong
    exact ⟨Nat.le_trans (by decide) hlong, hid, houi⟩
  · obtain ⟨rfl, hfound, -⟩ := filled_eq_some hr
    obtain ⟨l₁, l₂, -, hid, -⟩ := find?_split hfound
    exact ⟨(hrsn hnone).found hfound, hid, rfl⟩

theorem endsWhen_secElement (f : List UInt8) (limit : ℕ) :
    EndsWhen (ScanFits wpaNeed isWpa1 (headers limit (f.drop 12)) ∧
        (filled wpa ((headers limit (f.drop 12)).find? isWpa1) = none →
          ScanFits (fun _ => 2) (hasId 0x30) (headers limit (f.drop 12))))
      (Placed f (consulted (headers limit (f.drop 12)))) (secElement f limit) := by
  rw [secElement]
  refine (endsWhen_rtwGetWpaIe f limit 12).bind fun r hr => ?_
  have hplaced : Placed f (filled wpa ((headers limit (f.drop 12)).find? isWpa1))
      (nonEmpty wpa r) := placed_nonEmpty hr
  rw [consulted]
  cases hw : filled wpa ((headers limit (f.drop 12)).find? isWpa1) with
  | some e =>
    obtain ⟨fmt, h⟩ := e
    rw [hw] at hplaced
    obtain ⟨q, hq, hdrop⟩ := hplaced
    rw [hq, Option.some_or]
    refine .ok_of (fun hno => ?_) ⟨q, rfl, hdrop⟩
    cases hno
  | none =>
    rw [hw] at hplaced
    rw [show nonEmpty wpa r = none from hplaced, Option.none_or, forall_prop_of_true rfl]
    exact (endsWhen_getIe f 0x30 limit 12).bind_ok fun r' hr' => .ok (placed_nonEmpty hr'.located)

/-- The ciphers are read from the first WPA element of version 1, unless there is none or it is
    empty, and else from the first RSN element, unless it is. -/
theorem endsWhen_cipherInfo (f : List UInt8) (limit : ℕ) :
    EndsWhen (CipherFits (headers limit (f.drop 12)))
      (Parsed (consulted (headers limit (f.drop 12)))) (cipherInfo f limit) := by
  rw [cipherInfo]
  refine (endsWhen_secElement f limit).bind_of_imp (fun h => ⟨h.wpaScan, h.rsnScan⟩)
    fun e hfit he => ?_
  cases hc : consulted (headers limit (f.drop 12)) with
  | none =>
    rw [hc] at he
    rw [show e = none from he]
    refine .ok_of ⟨hfit.1, hfit.2, fun fmt h hno => ?_⟩ rfl
    rw [hc] at hno
    cases hno
  | some c =>
    obtain ⟨fmt, h⟩ := c
    rw [hc] at he
    obtain ⟨q, rfl, rfl⟩ := he
    refine ((endsWhen_parseIn (isFor_consulted hfit.1 hfit.2 hc)).bind_ok fun o ho => .ok ?_).iff
      ⟨fun hp => ⟨hfit.1, hfit.2, fun fmt' h' hc' => ?_⟩, fun h => h.parse _ _ hc⟩
    · exact ⟨o, ho, rfl⟩
    · rw [hc] at hc'
      obtain ⟨rfl, rfl⟩ := Prod.mk.inj (Option.some.inj hc')
      exact hp

end ciphers

end Rtl8821au.Mlme.SecSearch
