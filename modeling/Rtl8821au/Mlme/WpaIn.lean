import Rtl8821au.Lib.EndsWhen
import Rtl8821au.Mlme.WpaIe

/-!
# A WPA or an RSN element among others

The parsers of `WpaIe` where they are called with a pointer into a list of elements: the string
goes on behind the element, and the length that is passed may say more than is there.

* `parse_eq_parseIn`: on the bytes of an element alone it is the same parser.
* `parseIn_whole`: at a whole element what follows is never looked at, once the vendor's bytes are
  the right ones.
-/

namespace Rtl8821au.Mlme.WpaIe

open Checked Elements

/-- Either parser, called with a pointer to `buf` and the length `ieLen`. -/
def parseIn (fmt : Format) (buf : List UInt8) (ieLen : ℕ) (o : Out) : Except Fault Out :=
  if ieLen = 0 then .ok o.fail
  else do
    let id ← readByte buf 0
    if id ≠ fmt.id then .ok o.fail
    else do
      let len ← readByte buf 1
      if len ≠ UInt8.ofInt ((ieLen : ℤ) - 2) then .ok o.fail
      else do
        let oui ← readBytes buf 2 fmt.ouiType.length
        if oui ≠ fmt.ouiType then .ok o.fail
        else parseGroup fmt buf (4 + fmt.ouiType.length) (ieLen - (4 + fmt.ouiType.length)) o

section parseIn

variable {fmt : Format} {ie : List UInt8}

theorem parse_eq_parseIn (fmt : Format) (ie : List UInt8) (o : Out) :
    parse fmt ie o = parseIn fmt ie ie.length o := by
  rw [parse, parseIn]
  by_cases hnil : ie = []
  · rw [if_pos hnil, if_pos (List.length_eq_zero_iff.mpr hnil)]
  · rw [if_neg hnil, if_neg (mt List.length_eq_zero_iff.mp hnil), lenByte]

/-! ## What is behind the bytes that are read -/

theorem readByte_append {pos : ℕ} {b : UInt8} (h : readByte ie pos = .ok b) (r : List UInt8) :
    readByte (ie ++ r) pos = .ok b := by
  by_cases hpos : pos < ie.length
  · rw [readByte_of_lt hpos] at h
    rw [readByte_of_lt (by rw [List.length_append]; omega), List.getD_append _ _ _ _ hpos]
    exact h
  · rw [readByte_of_le (Nat.not_lt.mp hpos)] at h
    cases h

theorem readBytes_append {pos n : ℕ} {bs : List UInt8} (h : readBytes ie pos n = .ok bs)
    (r : List UInt8) : readBytes (ie ++ r) pos n = .ok bs := by
  by_cases hin : Inside ie pos n
  · rw [readBytes_of_inside hin] at h
    rw [← Except.ok.inj h]
    rcases hin with rfl | hle
    · rw [readBytes_of_inside inside_zero, bytesAt, bytesAt, List.take_zero, List.take_zero]
    · have hin' : Inside (ie ++ r) pos n := .inr (by rw [List.length_append]; omega)
      have hbytes : bytesAt (ie ++ r) pos n = bytesAt ie pos n := by
        rw [bytesAt, bytesAt, List.drop_append_of_le_length (by omega),
          List.take_append_of_le_length (by rw [List.length_drop]; omega)]
      rw [readBytes_of_inside hin', hbytes]
  · rw [readBytes_of_not_inside hin] at h
    cases h

variable {pos : ℕ} {left : ℤ} {o o' : Out}

theorem readLe16_append {v : ℕ} (h : readLe16 ie pos = .ok v) (r : List UInt8) :
    readLe16 (ie ++ r) pos = .ok v := by
  rw [readLe16] at h ⊢
  obtain ⟨lo, hlo, h⟩ := bind_eq_ok h
  obtain ⟨hi, hhi, h⟩ := bind_eq_ok h
  rw [readByte_append hlo, bind_ok, readByte_append hhi, bind_ok]
  exact h

theorem pairwiseLoop_append {count acc v : ℕ} (h : pairwiseLoop fmt ie count pos acc = .ok v)
    (r : List UInt8) : pairwiseLoop fmt (ie ++ r) count pos acc = .ok v := by
  induction count generalizing pos acc with
  | zero => exact h
  | succ count ih =>
    rw [pairwiseLoop] at h ⊢
    obtain ⟨s, hs, h⟩ := bind_eq_ok h
    rw [readBytes_append hs, bind_ok]
    exact ih h

theorem parse8021x_append (h : parse8021x fmt ie pos left o = .ok o') (r : List UInt8) :
    parse8021x fmt (ie ++ r) pos left o = .ok o' := by
  unfold parse8021x at h ⊢
  cases ho : o.is8021x with
  | none =>
    rw [ho] at h
    exact h
  | some b =>
    rw [ho] at h
    dsimp only at h ⊢
    by_cases hleft : left ≥ 6
    · rw [if_pos hleft] at h ⊢
      obtain ⟨s, hs, h⟩ := bind_eq_ok h
      rw [readBytes_append hs, bind_ok]
      exact h
    · rw [if_neg hleft] at h ⊢
      exact h

theorem parsePairwise_append (h : parsePairwise fmt ie pos left o = .ok o') (r : List UInt8) :
    parsePairwise fmt (ie ++ r) pos left o = .ok o' := by
  unfold parsePairwise at h ⊢
  by_cases hleft : left ≥ 2
  · rw [if_pos hleft] at h ⊢
    obtain ⟨count, hcount, h⟩ := bind_eq_ok h
    rw [readLe16_append hcount, bind_ok]
    by_cases hbad : count = 0 ∨ left - 2 < count * 4
    · rw [if_pos hbad] at h ⊢
      exact h
    · rw [if_neg hbad] at h ⊢
      obtain ⟨v, hv, h⟩ := bind_eq_ok h
      rw [pairwiseLoop_append hv, bind_ok]
      exact parse8021x_append h r
  · rw [if_neg hleft] at h ⊢
    by_cases hone : left = 1
    · rw [if_pos hone] at h ⊢
      exact h
    · rw [if_neg hone] at h ⊢
      exact parse8021x_append h r

theorem parseGroup_append (h : parseGroup fmt ie pos left o = .ok o') (r : List UInt8) :
    parseGroup fmt (ie ++ r) pos left o = .ok o' := by
  unfold parseGroup at h ⊢
  by_cases hleft : left ≥ 4
  · rw [if_pos hleft] at h ⊢
    obtain ⟨s, hs, h⟩ := bind_eq_ok h
    rw [readBytes_append hs, bind_ok]
    exact parsePairwise_append h r
  · rw [if_neg hleft] at h ⊢
    by_cases hpos : left > 0
    · rw [if_pos hpos] at h ⊢
      exact h
    · rw [if_neg hpos] at h ⊢
      exact parsePairwise_append h r

/-! ## A whole element -/

theorem toNat_sub_two (x : Elem) :
    UInt8.ofNat x.data.length = UInt8.ofInt (((x.data.length + 2 : ℕ) : ℤ) - 2) := by
  have hlen : ((x.data.length + 2 : ℕ) : ℤ) - 2 = (x.data.length : ℤ) := by omega
  rw [hlen]
  apply UInt8.toNat.inj
  rw [UInt8.ofInt, UInt8.toNat_ofNat', UInt8.toNat_ofNat']
  omega

/-- The parser at a whole element. The vendor's bytes may be those of an element that follows. -/
theorem parseIn_whole {x : Elem} (r : List UInt8) (o : Out) (hid : x.id = fmt.id)
    (houi : (x.data ++ r).take fmt.ouiType.length = fmt.ouiType) :
    parseIn fmt (x.encode ++ r) (x.data.length + 2) o =
      .ok (afterVersion fmt (x.data.drop (2 + fmt.ouiType.length)) o) := by
  have hbuf : x.encode ++ r = [] ++ x.id :: UInt8.ofNat x.data.length :: (x.data ++ r) := rfl
  have hlen : fmt.ouiType.length ≤ (x.data ++ r).length := by
    have hle := congrArg List.length houi
    rw [List.length_take] at hle
    omega
  have hdrop : x.encode.drop (4 + fmt.ouiType.length) = x.data.drop (2 + fmt.ouiType.length) := by
    rw [show 4 + fmt.ouiType.length = 2 + fmt.ouiType.length + 2 by omega]
    rfl
  have hgroup : parseGroup fmt x.encode (4 + fmt.ouiType.length)
      (((x.data.length + 2 : ℕ) : ℤ) - (4 + fmt.ouiType.length)) o =
        .ok (afterVersion fmt (x.data.drop (2 + fmt.ouiType.length)) o) := by
    apply parseGroup_eq hdrop
    rw [List.length_drop]
    omega
  have hread := readBytes_after hbuf fmt.ouiType.length
  rw [List.length_nil, Nat.zero_add, if_pos hlen, houi] at hread
  have hread0 : readByte (x.encode ++ r) 0 = .ok x.id := readByte_id hbuf
  have hread1 : readByte (x.encode ++ r) 1 = .ok (UInt8.ofNat x.data.length) :=
    readByte_length hbuf
  rw [parseIn, if_neg (Nat.succ_ne_zero _), hread0, bind_ok, if_neg (not_not.mpr hid), hread1,
    bind_ok, if_neg (not_not.mpr (toNat_sub_two x)), hread, bind_ok, if_neg (not_not.mpr rfl)]
  exact parseGroup_append hgroup r

end parseIn

end Rtl8821au.Mlme.WpaIe
