import Rtl8821au.Mlme.IeLookup

/-!
# Searching WPS attributes

`rtw_get_wps_attr` and `rtw_get_wps_attr_content` (`rtw_ieee80211.c`, lines 880–960) on an element
that is as long as `wps_ielen` says; a read behind it is a fault. The length of an attribute with
its header is an `u16`.

* `loop_of_sees`, `sees_of_loop`: a run of the loop by the headers that it comes to.
* `fits_iff_sees`: when these are the headers of the attributes.
* `attr_iff`: both functions.
-/

namespace Rtl8821au.Mlme.WpsAttr

open Checked

/-! ## Model -/

/-- The outputs that are not NULL: the buffer and the length. -/
structure Wanted where
  buf : Bool
  len : Bool
  deriving DecidableEq, Repr

/-- The pointer that is returned, as an offset, the bytes in the buffer, and the length. -/
structure Found where
  ptr : ℕ
  buf : List UInt8
  len : ℕ
  deriving DecidableEq, Repr

/-- `u16 attr_len = attr_data_len + 4`. -/
def attrLen (dataLen : ℕ) : ℕ := (dataLen + 4) % 2 ^ 16

/-- `if (buf) memcpy(buf, src, n)`. -/
def copy (f : List UInt8) (want : Bool) (src n : ℕ) : Except Fault (List UInt8) :=
  if want then readBytes f src n else .ok []

/-- What is done at the attribute that was looked for (lines 907–917). -/
def takeAttr (f : List UInt8) (w : Wanted) (p n : ℕ) : Except Fault Found := do
  let buf ← copy f w.buf p n
  .ok ⟨p, buf, if w.len then n else 0⟩

/-- The loop; `wps_ie` is at 0, `readBe16` is `RTW_GET_BE16`. -/
def attrLoop (f : List UInt8) (ielen target : ℕ) (w : Wanted) :
    ℕ → ℕ → Except Fault (Option Found)
  | 0, _ => .error .timeout
  | fuel + 1, p =>
    if p < ielen then do
      let attrId ← readBe16 f p
      let dataLen ← readBe16 f (p + 2)
      if attrId = target then do
        let r ← takeAttr f w p (attrLen dataLen)
        .ok (some r)
      else attrLoop f ielen target w fuel (p + attrLen dataLen)
    else .ok none

/-- `rtw_get_wps_attr`. -/
def rtwGetWpsAttr (f : List UInt8) (ielen target : ℕ) (w : Wanted) :
    Except Fault (Option Found) := do
  let id ← readByte f 0
  if id ≠ 221 then .ok none
  else do
    let oui ← readBytes f 2 4
    if oui ≠ IeLookup.wpsOui then .ok none
    else attrLoop f ielen target w (ielen + 1) 6

/-- What is done with the attribute (lines 945–956). -/
def takeContent (f : List UInt8) (w : Wanted) : Option Found → Except Fault (Option Found)
  | none => .ok none
  | some attr =>
    if attr.len = 0 then .ok none
    else do
      let buf ← copy f w.buf (attr.ptr + 4) (wrapSub attr.len 4)
      .ok (some ⟨attr.ptr + 4, buf, if w.len then wrapSub attr.len 4 else 0⟩)

/-- `rtw_get_wps_attr_content`. -/
def rtwGetWpsAttrContent (f : List UInt8) (ielen target : ℕ) (w : Wanted) :
    Except Fault (Option Found) := do
  let attr ← rtwGetWpsAttr f ielen target ⟨false, true⟩
  takeContent f w attr

/-! ## What they are for -/

/-- The first attribute with the id, of those that lie wholly in the bytes from the place `p` on:
    its place and its data. -/
def firstAttr (target : ℕ) : ℕ → List UInt8 → Option (ℕ × List UInt8)
  | p, i₁ :: i₀ :: l₁ :: l₀ :: d =>
    if be16 l₁ l₀ ≤ d.length then
      if be16 i₁ i₀ = target then some (p, d.take (be16 l₁ l₀))
      else firstAttr target (p + (be16 l₁ l₀ + 4)) (d.drop (be16 l₁ l₀))
    else none
  | _, _ => none
  termination_by _ bytes => bytes.length
  decreasing_by simp only [List.length_drop, List.length_cons]; omega

/-- The element is one of WPS. -/
def IsWps (f : List UInt8) : Prop := f.getD 0 0 = 221 ∧ bytesAt f 2 4 = IeLookup.wpsOui

instance (f : List UInt8) : Decidable (IsWps f) := inferInstanceAs (Decidable (_ ∧ _))

/-- The attribute to be found. -/
def wpsAttr (f : List UInt8) (target : ℕ) : Option (ℕ × List UInt8) :=
  if IsWps f then firstAttr target 6 (f.drop 6) else none

/-- The result for an attribute. -/
def found (f : List UInt8) (w : Wanted) (a : ℕ × List UInt8) : Found where
  ptr := a.1
  buf := if w.buf then bytesAt f a.1 (a.2.length + 4) else []
  len := if w.len then a.2.length + 4 else 0

/-- The result for its content. -/
def content (w : Wanted) (a : ℕ × List UInt8) : Found where
  ptr := a.1 + 4
  buf := if w.buf then a.2 else []
  len := if w.len then a.2.length else 0

/-- Both functions find it, whatever is asked for. -/
def SearchOk (f : List UInt8) (target : ℕ) : Prop :=
  ∀ w, rtwGetWpsAttr f f.length target w = .ok ((wpsAttr f target).map (found f w)) ∧
    rtwGetWpsAttrContent f f.length target w = .ok ((wpsAttr f target).map (content w))

/-! ## When they are right -/

/-- The headers that lie one after the other in steps of 16 bits, from the place `p` on, end at
    the end or with `r`. -/
def Sees (target : ℕ) (r : Option (ℕ × List UInt8)) : ℕ → List UInt8 → Prop
  | _, [] => r = none
  | p, i₁ :: i₀ :: l₁ :: l₀ :: d =>
    if be16 i₁ i₀ = target then
      r.map (fun a => (a.1, a.2.length + 4)) = some (p, attrLen (be16 l₁ l₀))
    else if attrLen (be16 l₁ l₀) = 0 then False
    else Sees target r (p + attrLen (be16 l₁ l₀))
      ((i₁ :: i₀ :: l₁ :: l₀ :: d).drop (attrLen (be16 l₁ l₀)))
  | _, _ => False
  termination_by _ bytes => bytes.length
  decreasing_by simp only [List.length_drop, List.length_cons]; omega

/-- Every header is in the element. The attribute with the id is too, and its length does not
    wrap. Where another length wraps, the headers that are seen instead lead to the same result. -/
def Fits (target : ℕ) : ℕ → List UInt8 → Prop
  | _, [] => True
  | p, i₁ :: i₀ :: l₁ :: l₀ :: d =>
    if be16 i₁ i₀ = target then be16 l₁ l₀ ≤ d.length ∧ be16 l₁ l₀ < 65532
    else if be16 l₁ l₀ < 65532 then
      be16 l₁ l₀ ≤ d.length → Fits target (p + (be16 l₁ l₀ + 4)) (d.drop (be16 l₁ l₀))
    else be16 l₁ l₀ ≠ 65532 ∧
      Sees target (firstAttr target p (i₁ :: i₀ :: l₁ :: l₀ :: d)) (p + attrLen (be16 l₁ l₀))
        ((i₁ :: i₀ :: l₁ :: l₀ :: d).drop (attrLen (be16 l₁ l₀)))
  | _, _ => False
  termination_by _ bytes => bytes.length
  decreasing_by simp only [List.length_drop, List.length_cons]; omega

/-- The element has an id, and the OUI if it is vendor specific. -/
def HeaderFits (f : List UInt8) : Prop := f ≠ [] ∧ (f.getD 0 0 = 221 → 6 ≤ f.length)

/-! ## The loop -/

section loop

variable {f : List UInt8} {p target fuel : ℕ} {w : Wanted} {i₁ i₀ l₁ l₀ : UInt8} {d : List UInt8}
  {r : Option (ℕ × List UInt8)}

theorem attrLoop_end (h : f.drop p = []) :
    attrLoop f f.length target w (fuel + 1) p = .ok none :=
  if_neg (Nat.not_lt.mpr (List.drop_eq_nil_iff.mp h))

/-- One turn of the loop at a header. -/
theorem attrLoop_turn (h : f.drop p = i₁ :: i₀ :: l₁ :: l₀ :: d) :
    attrLoop f f.length target w (fuel + 1) p =
      if be16 i₁ i₀ = target then
        takeAttr f w p (attrLen (be16 l₁ l₀)) >>= fun r => .ok (some r)
      else attrLoop f f.length target w fuel (p + attrLen (be16 l₁ l₀)) := by
  have hlen : f.drop (p + 2) = l₁ :: l₀ :: d := drop_next (drop_next h)
  rw [attrLoop, if_pos (lt_length_of_drop h), readBe16_drop h, bind_ok, readBe16_drop hlen,
    bind_ok]

/-- A header that is cut off. -/
theorem attrLoop_short (hne : f.drop p ≠ []) (h : (f.drop p).length < 4) :
    attrLoop f f.length target w (fuel + 1) p = .error .beyond := by
  rw [attrLoop]
  rcases hd : f.drop p with _ | ⟨a, _ | ⟨b, _ | ⟨c, _ | ⟨e, d⟩⟩⟩⟩
  · exact absurd hd hne
  · rw [if_pos (lt_length_of_drop hd), readBe16_short hd, bind_error]
  · have hlen : f.drop (p + 2) = [] := drop_next (drop_next hd)
    rw [if_pos (lt_length_of_drop hd), readBe16_drop hd, bind_ok, readBe16_end hlen,
      bind_error]
  · have hlen : f.drop (p + 2) = [c] := drop_next (drop_next hd)
    rw [if_pos (lt_length_of_drop hd), readBe16_drop hd, bind_ok, readBe16_short hlen,
      bind_error]
  · rw [hd] at h
    exact absurd h (Nat.not_lt.mpr (Nat.le_add_left 4 _))

/-- Where the length wraps to nothing the loop stays for ever. -/
theorem attrLoop_stuck (h : f.drop p = i₁ :: i₀ :: l₁ :: l₀ :: d) (hid : be16 i₁ i₀ ≠ target)
    (hlen : attrLen (be16 l₁ l₀) = 0) (fuel : ℕ) :
    attrLoop f f.length target w fuel p = .error .timeout := by
  induction fuel with
  | zero => rfl
  | succ fuel ih => rw [attrLoop_turn h, if_neg hid, hlen, Nat.add_zero, ih]

theorem takeAttr_length (f : List UInt8) (p n : ℕ) :
    takeAttr f ⟨false, true⟩ p n = .ok ⟨p, [], n⟩ := rfl

/-- A string is empty, too short for a header, or begins with one. -/
theorem header_cases (bytes : List UInt8) :
    bytes = [] ∨ (bytes ≠ [] ∧ bytes.length < 4) ∨
      ∃ i₁ i₀ l₁ l₀ d, bytes = i₁ :: i₀ :: l₁ :: l₀ :: d := by
  rcases bytes with _ | ⟨a, _ | ⟨b, _ | ⟨c, _ | ⟨e, d⟩⟩⟩⟩
  · exact .inl rfl
  · exact .inr (.inl ⟨List.cons_ne_nil _ _, Nat.lt_of_sub_eq_succ rfl⟩)
  · exact .inr (.inl ⟨List.cons_ne_nil _ _, Nat.lt_of_sub_eq_succ rfl⟩)
  · exact .inr (.inl ⟨List.cons_ne_nil _ _, Nat.lt_succ_self _⟩)
  · exact .inr (.inr ⟨a, b, c, e, d, rfl⟩)

/-- Those too short for a header. -/
theorem short_cases {bytes : List UInt8} (hne : bytes ≠ []) (h : bytes.length < 4) :
    (∃ a, bytes = [a]) ∨ (∃ a b, bytes = [a, b]) ∨ ∃ a b c, bytes = [a, b, c] := by
  rcases bytes with _ | ⟨a, _ | ⟨b, _ | ⟨c, _ | ⟨e, d⟩⟩⟩⟩
  · exact absurd rfl hne
  · exact .inl ⟨a, rfl⟩
  · exact .inr (.inl ⟨a, b, rfl⟩)
  · exact .inr (.inr ⟨a, b, c, rfl⟩)
  · exact absurd h (Nat.not_lt.mpr (Nat.le_add_left 4 _))

theorem sees_short {bytes : List UInt8} (hne : bytes ≠ []) (h : bytes.length < 4) :
    ¬ Sees target r p bytes := by
  rcases short_cases hne h with ⟨a, rfl⟩ | ⟨a, b, rfl⟩ | ⟨a, b, c, rfl⟩
  · simp [Sees]
  · simp [Sees]
  · simp [Sees]

/-- The loop finds what the headers lead to. -/
theorem loop_of_sees (hr : ∀ a, r = some a → a.1 + (a.2.length + 4) ≤ f.length)
    (h : Sees target r p (f.drop p)) (hfuel : (f.drop p).length < fuel) :
    attrLoop f f.length target w fuel p = .ok (r.map (found f w)) := by
  induction fuel generalizing p with
  | zero => exact absurd hfuel (Nat.not_lt_zero _)
  | succ fuel ih =>
    rcases header_cases (f.drop p) with hd | ⟨hne, hshort⟩ | ⟨i₁, i₀, l₁, l₀, d, hd⟩
    · rw [hd, Sees] at h
      rw [attrLoop_end hd, h]
      rfl
    · exact absurd h (sees_short hne hshort)
    · rw [hd, Sees] at h
      rw [attrLoop_turn hd]
      split_ifs at h with hid hzero
      · rw [if_pos hid]
        obtain ⟨a, rfl, ha⟩ := Option.map_eq_some_iff.mp h
        obtain ⟨rfl, hlen⟩ := Prod.mk.inj ha
        have hcopy : copy f w.buf a.1 (a.2.length + 4) = .ok (found f w a).buf := by
          rw [copy, found]
          by_cases hw : w.buf = true
          · rw [if_pos hw, readBytes_of_inside (.inr (hr a rfl)), if_pos hw]
          · rw [if_neg hw, if_neg hw]
        rw [← hlen, takeAttr, hcopy, bind_ok, bind_ok]
        rfl
      · have hpos : 0 < attrLen (be16 l₁ l₀) := Nat.pos_of_ne_zero hzero
        rw [if_neg hid]
        rw [← hd, List.drop_drop] at h
        refine ih h ?_
        rw [List.length_drop] at hfuel ⊢
        have hlt := lt_length_of_drop hd
        omega

/-- When it does with the length, the headers do. -/
theorem sees_of_loop
    (h : attrLoop f f.length target ⟨false, true⟩ fuel p =
      .ok (r.map (found f ⟨false, true⟩))) : Sees target r p (f.drop p) := by
  induction fuel generalizing p with
  | zero => cases h
  | succ fuel ih =>
    rcases header_cases (f.drop p) with hd | ⟨hne, hshort⟩ | ⟨i₁, i₀, l₁, l₀, d, hd⟩
    · rw [attrLoop_end hd] at h
      rw [hd, Sees]
      exact Option.map_eq_none_iff.mp (Except.ok.inj h).symm
    · rw [attrLoop_short hne hshort] at h
      cases h
    · rw [hd, Sees]
      by_cases hid : be16 i₁ i₀ = target
      · rw [attrLoop_turn hd, if_pos hid, takeAttr_length, bind_ok] at h
        obtain ⟨a, rfl, ha⟩ := Option.map_eq_some_iff.mp (Except.ok.inj h).symm
        have hptr : a.1 = p := congrArg Found.ptr ha
        have hlen : a.2.length + 4 = attrLen (be16 l₁ l₀) := congrArg Found.len ha
        rw [if_pos hid, Option.map_some, hptr, hlen]
      · rw [if_neg hid]
        by_cases hzero : attrLen (be16 l₁ l₀) = 0
        · rw [attrLoop_stuck hd hid hzero] at h
          cases h
        · rw [attrLoop_turn hd, if_neg hid] at h
          rw [if_neg hzero, ← hd, List.drop_drop]
          exact ih h

end loop

/-! ## Attributes and headers -/

section attrs

variable {f : List UInt8} {p target : ℕ} {bytes : List UInt8}

theorem firstAttr_short (h : bytes.length < 4) : firstAttr target p bytes = none := by
  by_cases hne : bytes = []
  · rw [hne, firstAttr]
    exact fun _ _ _ _ _ h => by cases h
  · rcases short_cases hne h with ⟨a, rfl⟩ | ⟨a, b, rfl⟩ | ⟨a, b, c, rfl⟩
    · simp [firstAttr]
    · simp [firstAttr]
    · simp [firstAttr]

theorem fits_short (hne : bytes ≠ []) (h : bytes.length < 4) : ¬ Fits target p bytes := by
  rcases short_cases hne h with ⟨a, rfl⟩ | ⟨a, b, rfl⟩ | ⟨a, b, c, rfl⟩
  · simp [Fits]
  · simp [Fits]
  · simp [Fits]

theorem attrLen_of_lt {n : ℕ} (h : n < 65532) : attrLen n = n + 4 :=
  Nat.mod_eq_of_lt (by omega)

/-- The headers that are seen are those of the attributes exactly when the element fits. -/
theorem fits_iff_sees :
    Fits target p bytes ↔ Sees target (firstAttr target p bytes) p bytes := by
  induction hn : bytes.length using Nat.strongRecOn generalizing bytes p with
  | _ n ih =>
    rcases header_cases bytes with rfl | ⟨hne, hshort⟩ | ⟨i₁, i₀, l₁, l₀, d, rfl⟩
    · rw [Fits, Sees, firstAttr_short (by decide)]
      exact iff_of_true trivial rfl
    · exact iff_of_false (fits_short hne hshort) (sees_short hne hshort)
    · have hlt := be16_lt l₁ l₀
      rw [Fits, Sees]
      by_cases hid : be16 i₁ i₀ = target
      · rw [if_pos hid, if_pos hid, firstAttr, if_pos hid]
        by_cases hin : be16 l₁ l₀ ≤ d.length
        · rw [if_pos hin, and_iff_right hin, Option.map_some, List.length_take,
            Nat.min_eq_left hin, Option.some.injEq, Prod.mk.injEq, and_iff_right rfl,
            attrLen]
          omega
        · rw [if_neg hin]
          exact iff_of_false (fun h => hin h.1) nofun
      · rw [if_neg hid, if_neg hid]
        by_cases hwrap : be16 l₁ l₀ < 65532
        · have hlen := attrLen_of_lt hwrap
          have hdrop : (i₁ :: i₀ :: l₁ :: l₀ :: d).drop (be16 l₁ l₀ + 4) =
              d.drop (be16 l₁ l₀) := by simp only [List.drop_succ_cons]
          rw [if_pos hwrap, hlen, if_neg (Nat.succ_ne_zero _), hdrop, firstAttr, if_neg hid]
          by_cases hin : be16 l₁ l₀ ≤ d.length
          · rw [if_pos hin, imp_iff_right hin]
            refine ih _ ?_ rfl
            rw [← hn, List.length_drop]
            simp only [List.length_cons]
            omega
          · rw [if_neg hin, List.drop_eq_nil_of_le (by omega), Sees]
            exact iff_of_true (fun h => absurd h hin) rfl
        · rw [if_neg hwrap]
          have hzero : attrLen (be16 l₁ l₀) = 0 ↔ be16 l₁ l₀ = 65532 := by
            rw [attrLen]
            omega
          by_cases h0 : be16 l₁ l₀ = 65532
          · rw [if_pos (hzero.mpr h0)]
            exact iff_of_false (fun h => h.1 h0) fun h => h
          · rw [if_neg fun h => h0 (hzero.mp h), and_iff_right h0]

/-- An attribute that is found is in the element, with its data. -/
theorem firstAttr_inside {a : ℕ × List UInt8} (h : firstAttr target p (f.drop p) = some a) :
    a.1 + (a.2.length + 4) ≤ f.length ∧ bytesAt f (a.1 + 4) a.2.length = a.2 := by
  induction hn : (f.drop p).length using Nat.strongRecOn generalizing p with
  | _ n ih =>
    rcases header_cases (f.drop p) with hd | ⟨-, hshort⟩ | ⟨i₁, i₀, l₁, l₀, d, hd⟩
    · have hnil : ([] : List UInt8).length < 4 := Nat.succ_pos 3
      rw [hd, firstAttr_short hnil] at h
      cases h
    · rw [firstAttr_short hshort] at h
      cases h
    · have hdata : f.drop (p + 4) = d := drop_next (drop_next (drop_next (drop_next hd)))
      have hlen : f.length = p + (d.length + 4) := by
        have hp := lt_length_of_drop hd
        have htotal := congrArg List.length hd
        rw [List.length_drop] at htotal
        simp only [List.length_cons] at htotal
        omega
      rw [hd, firstAttr] at h
      split_ifs at h with hin hid
      · obtain rfl := Option.some.inj h
        rw [List.length_take, Nat.min_eq_left hin, bytesAt, hdata]
        exact ⟨by omega, rfl⟩
      · have hrest : d.drop (be16 l₁ l₀) = f.drop (p + (be16 l₁ l₀ + 4)) := by
          rw [← hdata, List.drop_drop, Nat.add_comm (be16 l₁ l₀), Nat.add_assoc]
        rw [hrest] at h
        refine ih _ ?_ h rfl
        rw [← hn, List.length_drop, List.length_drop]
        omega

end attrs

/-! ## Both functions -/

section functions

variable {f : List UInt8} {target : ℕ}

theorem wpsAttr_inside {a : ℕ × List UInt8} (h : wpsAttr f target = some a) :
    a.1 + (a.2.length + 4) ≤ f.length ∧ bytesAt f (a.1 + 4) a.2.length = a.2 := by
  rw [wpsAttr] at h
  split_ifs at h
  exact firstAttr_inside h

/-- The content follows from the attribute. -/
theorem takeContent_eq (w : Wanted) :
    takeContent f w ((wpsAttr f target).map (found f ⟨false, true⟩)) =
      .ok ((wpsAttr f target).map (content w)) := by
  cases ha : wpsAttr f target with
  | none => rfl
  | some a =>
    obtain ⟨hin, hdata⟩ := wpsAttr_inside ha
    have hlen : (found f ⟨false, true⟩ a).len = a.2.length + 4 := rfl
    have hptr : (found f ⟨false, true⟩ a).ptr = a.1 := rfl
    have hsub : wrapSub (a.2.length + 4) 4 = a.2.length := if_neg (by omega)
    have hcopy : copy f w.buf (a.1 + 4) a.2.length = .ok (content w a).buf := by
      rw [copy, content]
      by_cases hw : w.buf = true
      · rw [if_pos hw, readBytes_of_inside (.inr (by omega)), hdata, if_pos hw]
      · rw [if_neg hw, if_neg hw]
    rw [Option.map_some, takeContent, if_neg (by rw [hlen]; exact Nat.succ_ne_zero _), hlen, hptr,
      hsub, hcopy, bind_ok]
    rfl

/-- The search when the header is in the element. -/
theorem rtwGetWpsAttr_eq (h : HeaderFits f) (w : Wanted) :
    rtwGetWpsAttr f f.length target w =
      if IsWps f then attrLoop f f.length target w (f.length + 1) 6 else .ok none := by
  obtain ⟨hne, hlen⟩ := h
  rw [rtwGetWpsAttr, readByte_of_lt (List.length_pos_iff.mpr hne), bind_ok]
  by_cases hid : f.getD 0 0 = 221
  · rw [if_neg (not_not.mpr hid), readBytes_of_inside (.inr (hlen hid)), bind_ok]
    by_cases houi : bytesAt f 2 4 = IeLookup.wpsOui
    · have hwps : IsWps f := ⟨hid, houi⟩
      rw [if_neg (not_not.mpr houi), if_pos hwps]
    · have hwps : ¬ IsWps f := fun hc => houi hc.2
      rw [if_pos houi, if_neg hwps]
  · have hwps : ¬ IsWps f := fun hc => hid hc.1
    rw [if_pos hid, if_neg hwps]

/-- Otherwise it reads behind the element. -/
theorem rtwGetWpsAttr_beyond (h : ¬ HeaderFits f) (w : Wanted) :
    rtwGetWpsAttr f f.length target w = .error .beyond := by
  rw [rtwGetWpsAttr]
  by_cases hne : f = []
  · rw [hne]
    rfl
  · obtain ⟨hid, hlen⟩ := Classical.not_imp.mp fun himp => h ⟨hne, himp⟩
    have hout : ¬ Inside f 2 4 := by
      rw [Inside]
      omega
    rw [readByte_of_lt (List.length_pos_iff.mpr hne), bind_ok, if_neg (not_not.mpr hid),
      readBytes_of_not_inside hout, bind_error]

variable (f target) in
/-- The two searches end in the element, with the first attribute that has the id, exactly when
    the headers are in it and no length leads them astray. -/
theorem attr_iff :
    SearchOk f target ↔ HeaderFits f ∧ (IsWps f → Fits target 6 (f.drop 6)) := by
  constructor
  · intro h
    have hattr := (h ⟨false, true⟩).1
    have hheader : HeaderFits f := by
      by_contra hno
      rw [rtwGetWpsAttr_beyond hno] at hattr
      cases hattr
    refine ⟨hheader, fun hwps => ?_⟩
    rw [rtwGetWpsAttr_eq hheader, if_pos hwps, wpsAttr, if_pos hwps] at hattr
    exact fits_iff_sees.mpr (sees_of_loop hattr)
  · rintro ⟨hheader, hfits⟩
    have hattr : ∀ w, rtwGetWpsAttr f f.length target w =
        .ok ((wpsAttr f target).map (found f w)) := by
      intro w
      rw [rtwGetWpsAttr_eq hheader, wpsAttr]
      by_cases hwps : IsWps f
      · rw [if_pos hwps, if_pos hwps]
        refine loop_of_sees (fun a ha => (firstAttr_inside ha).1)
          (fits_iff_sees.mp (hfits hwps)) ?_
        rw [List.length_drop]
        omega
      · rw [if_neg hwps, if_neg hwps]
        rfl
    refine fun w => ⟨hattr w, ?_⟩
    rw [rtwGetWpsAttrContent, hattr, bind_ok, takeContent_eq]

end functions

/-- A WPS element with one attribute, whose length field is 65532. -/
def stuckWps : List UInt8 := [221, 8, 0x00, 0x50, 0xf2, 0x04, 0x10, 0x44, 0xff, 0xfc]

/-- The search for another attribute stays at it; the search for this one returns it, although its
    data is not in the element. -/
theorem stuckWps_never_ends :
    (∀ fuel, attrLoop stuckWps 10 0x104a ⟨false, true⟩ fuel 6 = .error .timeout) ∧
      ¬ SearchOk stuckWps 0x104a ∧
      rtwGetWpsAttr stuckWps 10 0x1044 ⟨false, true⟩ = .ok (some ⟨6, [], 0⟩) ∧
      ¬ SearchOk stuckWps 0x1044 := by
  have hdrop : stuckWps.drop 6 = 0x10 :: 0x44 :: 0xff :: 0xfc :: [] := rfl
  have hlen : attrLen (be16 0xff 0xfc) = 0 := by decide
  have hstuck : ∀ fuel, attrLoop stuckWps 10 0x104a ⟨false, true⟩ fuel 6 = .error .timeout :=
    fun fuel => attrLoop_stuck hdrop (by decide) hlen fuel
  have hrun : ∀ target, rtwGetWpsAttr stuckWps 10 target ⟨false, true⟩ =
      attrLoop stuckWps 10 target ⟨false, true⟩ 11 6 := by
    have hheader : HeaderFits stuckWps := ⟨List.cons_ne_nil _ _, fun _ => by decide⟩
    have hwps : IsWps stuckWps := by decide
    exact fun target => (rtwGetWpsAttr_eq hheader _).trans (if_pos hwps)
  have hfound : rtwGetWpsAttr stuckWps 10 0x1044 ⟨false, true⟩ = .ok (some ⟨6, [], 0⟩) := by
    rw [hrun]
    refine (attrLoop_turn hdrop).trans ?_
    rw [if_pos (by decide), takeAttr_length, hlen, bind_ok]
  have hnone : ∀ target, wpsAttr stuckWps target = none := by
    intro target
    simp [wpsAttr, stuckWps, firstAttr, be16]
  refine ⟨hstuck, fun h => ?_, hfound, fun h => ?_⟩
  · have hattr := (h ⟨false, true⟩).1
    cases (hstuck 11).symm.trans ((hrun _).symm.trans hattr)
  · have hattr := (h ⟨false, true⟩).1
    rw [hnone] at hattr
    cases hfound.symm.trans hattr

end Rtl8821au.Mlme.WpsAttr
