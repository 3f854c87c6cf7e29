import Rtl8821au.Lib.ElementWalk

/-!
# Parsing elements into `rtw_ieee802_11_elems`

`rtw_ieee802_11_parse_elems` and `rtw_ieee802_11_parse_vendor_specific` (`rtw_ieee80211.c`, lines
962–1204). The pointers and the lengths of the structure are one map from the fields to places;
`NULL` is `none`. `show_errors` decides about messages only.

* `parseVendorSpecific_eq`, `parseElement_eq`: what one element does, and that it reads its own
  bytes only.
* `parseLoop_eq`: what all of them do.
* `parseElems_spec`: strings of whole elements are accepted, no others, and every field has the
  last element of its kind.
-/

namespace Rtl8821au.Mlme.ParseElems

open Checked Elements

/-! ## Model -/

/-- The pointers of `struct rtw_ieee802_11_elems`. -/
inductive Field where
  | ssid
  | suppRates
  | fhParams
  | dsParams
  | cfParams
  | tim
  | ibssParams
  | challenge
  | erpInfo
  | extSuppRates
  | wpaIe
  | rsnIe
  | wme
  | wmeTspec
  | wpsIe
  | powerCap
  | suppChannels
  | mdie
  | ftie
  | timeoutInt
  | htCapabilities
  | htOperation
  | vendorHtCap
  | vhtCapabilities
  | vhtOperation
  | vhtOpModeNotify
  deriving DecidableEq, Repr

/-- Each pointer, as an offset, with its length. -/
abbrev Elems := Field → Option (ℕ × ℕ)

/-- `elems->k = pos; elems->k_len = elen;`. -/
def Elems.set (elems : Elems) (k : Field) (pos elen : ℕ) : Elems := fun k' =>
  if k' = k then some (pos, elen) else elems k'

/-- `ParseRes`. -/
inductive ParseRes where
  | parseOk
  | parseUnknown
  | parseFailed
  deriving DecidableEq, Repr

/-- `OUI_MICROSOFT`. -/
def ouiMicrosoft : List UInt8 := [0x00, 0x50, 0xf2]

/-- `OUI_BROADCOM`. -/
def ouiBroadcom : List UInt8 := [0x00, 0x90, 0x4c]

/-- The WME element with this subtype (lines 997–1020). -/
def wmeSubtype (elems : Elems) (pos elen : ℕ) (subtype : UInt8) : Elems × Bool :=
  if subtype = 0 ∨ subtype = 1 then (elems.set .wme pos elen, false)
  else if subtype = 2 then (elems.set .wmeTspec pos elen, false)
  else (elems, true)

/-- The Microsoft element with this type (lines 983–1033). -/
def microsoft (f : List UInt8) (pos elen : ℕ) (elems : Elems) : Except Fault (Elems × Bool) := do
  let type ← readByte f (pos + 3)
  if type = 1 then .ok (elems.set .wpaIe pos elen, false)
  else if type = 2 then
    if elen < 5 then .ok (elems, true)
    else do
      let subtype ← readByte f (pos + 4)
      .ok (wmeSubtype elems pos elen subtype)
  else if type = 4 then .ok (elems.set .wpsIe pos elen, false)
  else .ok (elems, true)

/-- The Broadcom element with this type (lines 1035–1047). -/
def broadcom (f : List UInt8) (pos elen : ℕ) (elems : Elems) : Except Fault (Elems × Bool) := do
  let type ← readByte f (pos + 3)
  if type = 0x33 then .ok (elems.set .vendorHtCap pos elen, false)
  else .ok (elems, true)

/-- `rtw_ieee802_11_parse_vendor_specific`; the flag is set when it returns -1. -/
def parseVendorSpecific (f : List UInt8) (pos elen : ℕ) (elems : Elems) :
    Except Fault (Elems × Bool) :=
  if elen < 4 then .ok (elems, true)
  else do
    let oui ← readBytes f pos 3
    if oui = ouiMicrosoft then microsoft f pos elen elems
    else if oui = ouiBroadcom then broadcom f pos elen elems
    else .ok (elems, true)

/-- The cases of `switch (id)` but the vendor specific one. -/
def plainCases : List (UInt8 × Field) :=
  [(0, .ssid), (1, .suppRates), (2, .fhParams), (3, .dsParams), (4, .cfParams), (5, .tim),
    (6, .ibssParams), (16, .challenge), (42, .erpInfo), (50, .extSuppRates), (48, .rsnIe),
    (33, .powerCap), (36, .suppChannels), (54, .mdie), (55, .ftie), (56, .timeoutInt),
    (45, .htCapabilities), (61, .htOperation), (191, .vhtCapabilities), (192, .vhtOperation),
    (193, .vhtOpModeNotify)]

/-- The pointer that is set in such a case. -/
def plainField (id : UInt8) : Option Field := plainCases.lookup id

/-- What is done at an element whose data is at `pos`; the flag is set for `unknown++`. -/
def parseElement (f : List UInt8) (id : UInt8) (pos elen : ℕ) (elems : Elems) :
    Except Fault (Elems × Bool) :=
  if id = 221 then parseVendorSpecific f pos elen elems
  else
    match plainField id with
    | some k => .ok (elems.set k pos elen, false)
    | none => .ok (elems, true)

/-- The loop (lines 1077–1197). -/
def parseLoop (f : List UInt8) : ℕ → ℕ → ℕ → Elems → ℕ → Except Fault (ParseRes × Elems)
  | 0, _, _, _, _ => .error .timeout
  | fuel + 1, left, pos, elems, unknown =>
    if 2 ≤ left then do
      let id ← readByte f pos
      let elen ← readByte f (pos + 1)
      if left - 2 < elen.toNat then .ok (.parseFailed, elems)
      else do
        let r ← parseElement f id (pos + 2) elen.toNat elems
        parseLoop f fuel (left - 2 - elen.toNat) (pos + 2 + elen.toNat) r.1
          (unknown + r.2.toNat)
    else if left ≠ 0 then .ok (.parseFailed, elems)
    else .ok (if unknown ≠ 0 then .parseUnknown else .parseOk, elems)

/-- `rtw_ieee802_11_parse_elems`. -/
def rtwParseElems (f : List UInt8) (len : ℕ) : Except Fault (ParseRes × Elems) :=
  parseLoop f (len + 1) len 0 (fun _ => none) 0

/-! ## What the fields are for -/

/-- The id of the elements in a field. -/
def Field.id : Field → UInt8
  | .ssid => 0
  | .suppRates => 1
  | .fhParams => 2
  | .dsParams => 3
  | .cfParams => 4
  | .tim => 5
  | .ibssParams => 6
  | .challenge => 16
  | .erpInfo => 42
  | .extSuppRates => 50
  | .rsnIe => 48
  | .powerCap => 33
  | .suppChannels => 36
  | .mdie => 54
  | .ftie => 55
  | .timeoutInt => 56
  | .htCapabilities => 45
  | .htOperation => 61
  | .vhtCapabilities => 191
  | .vhtOperation => 192
  | .vhtOpModeNotify => 193
  | .wpaIe | .wme | .wmeTspec | .wpsIe | .vendorHtCap => 221

/-- How their data begins: OUI, type and subtype. -/
def Field.types : Field → List (List UInt8)
  | .wpaIe => [[0x00, 0x50, 0xf2, 1]]
  | .wme => [[0x00, 0x50, 0xf2, 2, 0], [0x00, 0x50, 0xf2, 2, 1]]
  | .wmeTspec => [[0x00, 0x50, 0xf2, 2, 2]]
  | .wpsIe => [[0x00, 0x50, 0xf2, 4]]
  | .vendorHtCap => [[0x00, 0x90, 0x4c, 0x33]]
  | _ => [[]]

/-- The element is one for the field. -/
def Field.Has (k : Field) (x : Elem) : Prop := x.id = k.id ∧ ∃ ty ∈ k.types, ty <+: x.data

instance (k : Field) (x : Elem) : Decidable (k.Has x) := inferInstanceAs (Decidable (_ ∧ _))

/-! ## One element -/

/-- The field in which a WME element with this subtype is recorded. -/
def wmeField : List UInt8 → Option Field
  | [] => none
  | sub :: _ => if sub = 0 ∨ sub = 1 then some .wme else if sub = 2 then some .wmeTspec else none

/-- The field in which a vendor specific element is recorded. -/
def vendorField : List UInt8 → Option Field
  | a :: b :: c :: ty :: d =>
    if [a, b, c] = ouiMicrosoft then
      if ty = 1 then some .wpaIe
      else if ty = 2 then wmeField d
      else if ty = 4 then some .wpsIe
      else none
    else if [a, b, c] = ouiBroadcom then
      if ty = 0x33 then some .vendorHtCap else none
    else none
  | _ => none

/-- The field in which an element is recorded. -/
def fieldOf (x : Elem) : Option Field :=
  if x.id = 221 then vendorField x.data else plainField x.id

/-- An element is recorded, or counted as unknown. -/
def record (elems : Elems) (pos elen : ℕ) : Option Field → Elems × Bool
  | some k => (elems.set k pos elen, false)
  | none => (elems, true)

section element

variable {f pre r : List UInt8} {x : Elem} {elems : Elems}

theorem readData (hf : f = pre ++ (x.encode ++ r)) {k : ℕ} (hk : k < x.data.length) :
    readByte f (pre.length + 2 + k) = .ok (x.data.getD k 0) := by
  have hf' : f = (pre ++ [x.id, UInt8.ofNat x.data.length]) ++ (x.data ++ r) := by
    rw [hf, List.append_assoc]
    rfl
  have hlen : (pre ++ [x.id, UInt8.ofNat x.data.length]).length = pre.length + 2 := by
    rw [List.length_append]
    rfl
  have hlt : pre.length + 2 + k < f.length := by
    rw [hf', List.length_append, hlen, List.length_append]
    omega
  rw [readByte_of_lt hlt, hf', ← hlen, List.getD_append_right _ _ _ _ (Nat.le_add_right _ _),
    Nat.add_sub_cancel_left, List.getD_append _ _ _ _ hk]

theorem readOui (hf : f = pre ++ (x.encode ++ r)) {n : ℕ} (hn : n ≤ x.data.length) :
    readBytes f (pre.length + 2) n = .ok (x.data.take n) := by
  have hbytes : f = pre ++ x.id :: UInt8.ofNat x.data.length :: (x.data ++ r) := hf
  have hle : n ≤ (x.data ++ r).length := by
    rw [List.length_append]
    omega
  rw [readBytes_after hbytes, if_pos hle, List.take_append_of_le_length hn]

theorem wmeSubtype_eq (pos elen : ℕ) (sub : UInt8) (d : List UInt8) :
    wmeSubtype elems pos elen sub = record elems pos elen (wmeField (sub :: d)) := by
  rw [wmeSubtype, wmeField]
  split_ifs
  · rfl
  · rfl
  · rfl

/-- The vendor specific element reads its own bytes only. -/
theorem parseVendorSpecific_eq (hf : f = pre ++ (x.encode ++ r)) :
    parseVendorSpecific f (pre.length + 2) x.data.length elems =
      .ok (record elems (pre.length + 2) x.data.length (vendorField x.data)) := by
  have hdata := fun k => readData (k := k) hf
  have houi := fun n => readOui (n := n) hf
  obtain ⟨id, data, hlt⟩ := x
  rw [parseVendorSpecific]
  rcases data with _ | ⟨a, _ | ⟨b, _ | ⟨c, _ | ⟨ty, d⟩⟩⟩⟩
  · rfl
  · rfl
  · rfl
  · rfl
  · have hlong : ¬ (a :: b :: c :: ty :: d).length < 4 := Nat.not_lt.mpr (Nat.le_add_left 4 _)
    have h3 := houi 3 (Nat.le_add_left 3 _)
    have hty := hdata 3 (Nat.le_add_left 4 _)
    change readByte f (pre.length + 2 + 3) = .ok ty at hty
    change readBytes f (pre.length + 2) 3 = .ok [a, b, c] at h3
    rw [if_neg hlong, h3, bind_ok, vendorField]
    by_cases hms : [a, b, c] = ouiMicrosoft
    · rw [if_pos hms, if_pos hms, microsoft, hty, bind_ok]
      by_cases h1 : ty = 1
      · rw [if_pos h1, if_pos h1]
        rfl
      · rw [if_neg h1, if_neg h1]
        by_cases h2 : ty = 2
        · rw [if_pos h2, if_pos h2]
          rcases d with _ | ⟨sub, d⟩
          · rfl
          · have hsub := hdata 4 (Nat.le_add_left 5 _)
            change readByte f (pre.length + 2 + 4) = .ok sub at hsub
            have hlong : ¬ (a :: b :: c :: ty :: sub :: d).length < 5 :=
              Nat.not_lt.mpr (Nat.le_add_left 5 _)
            rw [if_neg hlong, hsub, bind_ok, wmeSubtype_eq _ _ _ d]
        · rw [if_neg h2, if_neg h2]
          split_ifs
          · rfl
          · rfl
    · rw [if_neg hms, if_neg hms]
      by_cases hbc : [a, b, c] = ouiBroadcom
      · rw [if_pos hbc, if_pos hbc, broadcom, hty, bind_ok]
        split_ifs
        · rfl
        · rfl
      · rw [if_neg hbc, if_neg hbc]
        rfl

theorem parseElement_eq (hf : f = pre ++ (x.encode ++ r)) :
    parseElement f x.id (pre.length + 2) x.data.length elems =
      .ok (record elems (pre.length + 2) x.data.length (fieldOf x)) := by
  rw [parseElement, fieldOf]
  by_cases hid : x.id = 221
  · rw [if_pos hid, if_pos hid, parseVendorSpecific_eq hf]
  · rw [if_neg hid, if_neg hid]
    cases plainField x.id with
    | none => rfl
    | some k => rfl

theorem vendorField_iff {d : List UInt8} {k : Field} :
    vendorField d = some k ↔ k.id = 221 ∧ ∃ ty ∈ k.types, ty <+: d := by
  constructor
  · intro h
    rcases d with _ | ⟨a, _ | ⟨b, _ | ⟨c, _ | ⟨ty, d⟩⟩⟩⟩
    · cases h
    · cases h
    · cases h
    · cases h
    · have hbytes : a :: b :: c :: ty :: d = [a, b, c] ++ ([ty] ++ d) := rfl
      rw [vendorField] at h
      rw [hbytes]
      split_ifs at h with hms h1 h2 h4 hbc h33
      · cases h
        exact ⟨rfl, _, List.mem_singleton_self _, d, by rw [hms, h1]; rfl⟩
      · rcases d with _ | ⟨sub, d⟩
        · cases h
        · rw [wmeField] at h
          split_ifs at h with hs hs2
          · cases h
            rcases hs with rfl | rfl
            · exact ⟨rfl, _, List.mem_cons_self, d, by rw [hms, h2]; rfl⟩
            · exact ⟨rfl, _, List.mem_cons_of_mem _ (List.mem_singleton_self _), d,
                by rw [hms, h2]; rfl⟩
          · cases h
            exact ⟨rfl, _, List.mem_singleton_self _, d, by rw [hms, h2, hs2]; rfl⟩
      · cases h
        exact ⟨rfl, _, List.mem_singleton_self _, d, by rw [hms, h4]; rfl⟩
      · cases h
        exact ⟨rfl, _, List.mem_singleton_self _, d, by rw [hbc, h33]; rfl⟩
  · rintro ⟨hid, ty, hty, rest, rfl⟩
    cases k with
    | wpaIe =>
      rw [List.mem_singleton.mp hty]
      rfl
    | wme =>
      rcases List.mem_cons.mp hty with rfl | hty
      · rfl
      · rw [List.mem_singleton.mp hty]
        rfl
    | wmeTspec =>
      rw [List.mem_singleton.mp hty]
      rfl
    | wpsIe =>
      rw [List.mem_singleton.mp hty]
      rfl
    | vendorHtCap =>
      rw [List.mem_singleton.mp hty]
      rfl
    | _ => exact absurd hid (by decide)

theorem plainField_iff {id : UInt8} {k : Field} (h : id ≠ 221) :
    plainField id = some k ↔ id = k.id := by
  constructor
  · intro hk
    obtain ⟨l₁, l₂, hl, -⟩ := List.lookup_eq_some_iff.mp hk
    have hall : plainCases.all (fun p => p.1 == p.2.id) = true := by rfl
    have hmem : (id, k) ∈ plainCases := hl ▸ List.mem_append_right l₁ List.mem_cons_self
    exact eq_of_beq (List.all_eq_true.mp hall _ hmem)
  · intro hk
    cases k with
    | wpaIe | wme | wmeTspec | wpsIe | vendorHtCap => exact absurd hk h
    | _ =>
      rw [hk]
      rfl

/-- Where an element is recorded it belongs. -/
theorem fieldOf_iff {k : Field} : fieldOf x = some k ↔ k.Has x := by
  rw [fieldOf, Field.Has]
  by_cases hid : x.id = 221
  · rw [if_pos hid, vendorField_iff, hid, eq_comm]
  · rw [if_neg hid, plainField_iff hid]
    refine (and_iff_left_of_imp fun hk => ?_).symm
    cases k with
    | wpaIe | wme | wmeTspec | wpsIe | vendorHtCap => exact absurd hk hid
    | _ => exact ⟨[], List.mem_singleton_self _, List.nil_prefix⟩

end element

/-! ## All elements -/

/-- The places of the elements from `pos` on are recorded. -/
def recordAll (pos : ℕ) : List Elem → Elems → Elems
  | [], elems => elems
  | x :: es, elems =>
    recordAll (pos + (x.data.length + 2)) es
      (record elems (pos + 2) x.data.length (fieldOf x)).1

/-- The number of elements that are not recorded. -/
def unknowns (es : List Elem) : ℕ := es.countP fun x => fieldOf x = none

/-- The result for so many unknown elements, where `t` is left. -/
def resultOf (t : List UInt8) (unknown : ℕ) : ParseRes :=
  if t ≠ [] then .parseFailed else if unknown ≠ 0 then .parseUnknown else .parseOk

section loop

variable {f pre t : List UInt8} {es : List Elem} {elems : Elems}

theorem record_snd (elems : Elems) (pos elen : ℕ) (k : Option Field) :
    (record elems pos elen k).2.toNat = if k = none then 1 else 0 := by
  cases k with
  | none => rfl
  | some k => rfl

variable (elems) in
theorem parseLoop_eq (hf : f = pre ++ (encodeAll es ++ t)) (ht : Stump t) {fuel : ℕ}
    (unknown : ℕ) (hfuel : (encodeAll es ++ t).length < fuel) :
    parseLoop f fuel (encodeAll es ++ t).length pre.length elems unknown =
      .ok (resultOf t (unknown + unknowns es), recordAll pre.length es elems) := by
  obtain ⟨fuel, rfl⟩ : ∃ n, fuel = n + 1 := ⟨fuel - 1, by omega⟩
  induction es generalizing pre elems fuel unknown with
  | nil =>
    rw [encodeAll_nil, List.nil_append] at hf ⊢
    rw [parseLoop, unknowns, List.countP_nil, Nat.add_zero, recordAll, resultOf]
    rcases t with _ | ⟨id, _ | ⟨len, rest⟩⟩
    · rfl
    · rfl
    · have hshort : (id :: len :: rest).length - 2 < len.toNat := ht
      have htwo : 2 ≤ (id :: len :: rest).length := Nat.le_add_left 2 _
      rw [if_pos htwo, readByte_id hf, bind_ok, readByte_length hf, bind_ok,
        if_pos hshort, if_pos (List.cons_ne_nil _ _)]
  | cons x es ih =>
    have hx : f = pre ++ (x.encode ++ (encodeAll es ++ t)) := by
      rw [hf, encodeAll_cons, List.append_assoc]
    have hid : readByte f pre.length = .ok x.id := readByte_id hx
    have hlen : readByte f (pre.length + 1) = .ok (UInt8.ofNat x.data.length) := readByte_length hx
    have hrest : f = (pre ++ x.encode) ++ (encodeAll es ++ t) := by rw [hx, List.append_assoc]
    have hnext : pre.length + 2 + x.data.length = (pre ++ x.encode).length := by
      rw [List.length_append, Elem.encode_length]
      omega
    have hpos : pre.length + (x.data.length + 2) = (pre ++ x.encode).length := by
      rw [List.length_append, Elem.encode_length]
    obtain ⟨n, hn⟩ : ∃ n, n = (encodeAll es ++ t).length := ⟨_, rfl⟩
    have hleft : (encodeAll (x :: es) ++ t).length = x.data.length + 2 + n := by
      rw [encodeAll_cons, List.append_assoc, List.length_append, Elem.encode_length, hn]
    rw [hleft] at hfuel ⊢
    rw [parseLoop, if_pos (by omega), hid, bind_ok, hlen, bind_ok, x.toNat_length,
      if_neg (by omega), parseElement_eq hx, bind_ok, record_snd]
    have hcount : unknowns (x :: es) = unknowns es + if fieldOf x = none then 1 else 0 := by
      rw [unknowns, List.countP_cons]
      simp only [decide_eq_true_eq]
      rfl
    have hsub : x.data.length + 2 + n - 2 - x.data.length = (encodeAll es ++ t).length := by omega
    obtain ⟨fuel, rfl⟩ : ∃ k, fuel = k + 1 := ⟨fuel - 1, by omega⟩
    rw [hsub, hnext, ih _ hrest _ fuel (by omega), recordAll, hpos, hcount, Nat.add_assoc,
      Nat.add_comm (unknowns es)]

theorem record_of_has {k : Field} {x : Elem} (h : k.Has x) (pos elen : ℕ) :
    (record elems pos elen (fieldOf x)).1 k = some (pos, elen) := by
  rw [fieldOf_iff.mpr h]
  exact if_pos rfl

theorem record_of_not_has {k : Field} {x : Elem} (h : ¬ k.Has x) (pos elen : ℕ) :
    (record elems pos elen (fieldOf x)).1 k = elems k := by
  cases hx : fieldOf x with
  | none => rfl
  | some k' =>
    have hne : k ≠ k' := fun heq => h (fieldOf_iff.mp (heq ▸ hx))
    exact if_neg hne

/-- A field that is not set is as it was, and no element is one for it. -/
theorem recordAll_eq_none {k : Field} {pos : ℕ} (h : recordAll pos es elems k = none) :
    elems k = none ∧ ∀ x ∈ es, ¬ k.Has x := by
  induction es generalizing pos elems with
  | nil => exact ⟨h, fun x hx => absurd hx List.not_mem_nil⟩
  | cons x es ih =>
    obtain ⟨hnone, hes⟩ := ih h
    by_cases hx : k.Has x
    · rw [record_of_has hx] at hnone
      cases hnone
    · rw [record_of_not_has hx] at hnone
      exact ⟨hnone, List.forall_mem_cons.mpr ⟨hx, hes⟩⟩

/-- A field that is set is as it was, or it has the last element for it. -/
theorem recordAll_eq_some {k : Field} {pos p n : ℕ}
    (h : recordAll pos es elems k = some (p, n)) :
    (elems k = some (p, n) ∧ ∀ x ∈ es, ¬ k.Has x) ∨
      ∃ es₁ x es₂, es = es₁ ++ x :: es₂ ∧ k.Has x ∧ (∀ y ∈ es₂, ¬ k.Has y) ∧
        p = pos + (encodeAll es₁).length + 2 ∧ n = x.data.length := by
  induction es generalizing pos elems with
  | nil => exact .inl ⟨h, fun x hx => absurd hx List.not_mem_nil⟩
  | cons x es ih =>
    rcases ih h with ⟨hset, hes⟩ | ⟨es₁, y, es₂, rfl, hy, hes₂, hp, hn⟩
    · by_cases hx : k.Has x
      · rw [record_of_has hx] at hset
        obtain ⟨rfl, rfl⟩ := Prod.mk.inj (Option.some.inj hset)
        exact .inr ⟨[], x, es, rfl, hx, hes, rfl, rfl⟩
      · rw [record_of_not_has hx] at hset
        exact .inl ⟨hset, List.forall_mem_cons.mpr ⟨hx, hes⟩⟩
    · refine .inr ⟨x :: es₁, y, es₂, rfl, hy, hes₂, ?_, hn⟩
      rw [hp, encodeAll_cons, List.length_append, Elem.encode_length]
      omega

end loop

theorem resultOf_failed {t : List UInt8} {unknown : ℕ} :
    resultOf t unknown = .parseFailed ↔ t ≠ [] := by
  rw [resultOf]
  by_cases ht : t = []
  · rw [if_neg (not_not.mpr ht)]
    refine iff_of_false ?_ (not_not.mpr ht)
    split_ifs
    · exact nofun
    · exact nofun
  · rw [if_pos ht]
    exact iff_of_true rfl ht

/-- The parser reads the string only, fails for the strings that are no lists of elements, and
    leaves in every field the last element that is one for it. -/
theorem parseElems_spec (f : List UInt8) :
    ∃ res elems, rtwParseElems f f.length = .ok (res, elems) ∧
      (res = .parseFailed ↔ ¬ ∃ es, f = encodeAll es) ∧
      (∀ k p n, elems k = some (p, n) →
        ∃ es₁ x es₂, (parse f).1 = es₁ ++ x :: es₂ ∧ k.Has x ∧ (∀ y ∈ es₂, ¬ k.Has y) ∧
          p = (encodeAll es₁).length + 2 ∧ n = x.data.length ∧ p + n ≤ f.length ∧
          bytesAt f p n = x.data) ∧
      ∀ k, elems k = none → ∀ x ∈ (parse f).1, ¬ k.Has x := by
  obtain ⟨es, t, hf, ht⟩ := exists_parse f
  have hparse : parse f = (es, t) := by rw [hf, parse_append es ht]
  have hf' : f = [] ++ (encodeAll es ++ t) := hf
  have hrun := parseLoop_eq (fun _ => none) hf' ht 0 (Nat.lt_succ_self _)
  rw [← hf] at hrun
  rw [hparse]
  refine ⟨_, _, hrun, ?_, fun k p n h => ?_, fun k h => (recordAll_eq_none h).2⟩
  · rw [resultOf_failed, not_iff_not]
    constructor
    · rintro rfl
      exact ⟨es, by rw [hf, List.append_nil]⟩
    · rintro ⟨es', hes'⟩
      have hdec : decodeAll (encodeAll es ++ t) = if t = [] then some es else none :=
        decodeAll_append ht
      rw [← hf, hes', decodeAll_encodeAll] at hdec
      by_contra hne
      rw [if_neg hne] at hdec
      cases hdec
  · rcases recordAll_eq_some h with ⟨hnone, -⟩ | ⟨es₁, x, es₂, rfl, hx, hes₂, rfl, rfl⟩
    · cases hnone
    · have hbytes : f = encodeAll es₁ ++ (x.encode ++ (encodeAll es₂ ++ t)) := by
        rw [hf, encodeAll_append, encodeAll_cons, List.append_assoc, List.append_assoc]
      have hdata := readOui hbytes (Nat.le_refl _)
      have hin : (encodeAll es₁).length + 2 + x.data.length ≤ f.length := by
        rw [hbytes, List.length_append, List.length_append, Elem.encode_length]
        omega
      rw [readBytes_of_inside (.inr hin), List.take_length] at hdata
      rw [List.length_nil, Nat.zero_add]
      exact ⟨es₁, x, es₂, rfl, hx, hes₂, rfl, rfl, hin, Except.ok.inj hdata⟩

end Rtl8821au.Mlme.ParseElems
