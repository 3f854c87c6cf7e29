import Mathlib.Algebra.Group.Nat.Defs
import Mathlib.Data.List.Basic

/-!
# The search for the WPA and the RSN element

`rtw_get_sec_ie` (`rtw_ieee80211.c`, lines 743–799) on any memory: `in_ie` is a function, since
the bytes are not compared with `in_len` before they are read. `cnt` is an `uint`, the counter `i`
of the loops that once printed the element is a `uint8_t`.

* `dumpLoop_iff`: such a loop ends for the lengths up to 246.
* `walk_ends`: `cnt` comes to `in_len`, unless it can wrap.
* `getSecIe_iff`: the search ends, with the elements copied, if no element that is found is
  longer.
-/

namespace Rtl8821au.Mlme.SecIe

/-! ## Model -/

/-- `sec_ie` if it is not NULL, and `*sec_len`. -/
structure Out where
  ie : Option (ℕ → UInt8)
  len : ℕ

/-- `wpa_oui`. -/
def wpaOui : List UInt8 := [0x00, 0x50, 0xf2, 0x01]

section model

variable (inIe : ℕ → UInt8)

/-- `in_ie[cnt+1]+2`. -/
def sizeAt (cnt : UInt32) : ℕ := (inIe (cnt + 1).toNat).toNat + 2

/-- `n` bytes from an address on. -/
def bytesFrom (k n : ℕ) : List UInt8 := (List.range n).map fun j => inIe (k + j)

/-- The condition for a WPA element. -/
def IsWpa (cnt : UInt32) : Prop :=
  inIe cnt.toNat = 0xdd ∧ bytesFrom inIe (cnt + 2).toNat 4 = wpaOui

/-- The condition for an RSN element. -/
def IsRsn (cnt : UInt32) : Prop := inIe cnt.toNat = 0x30

instance (cnt : UInt32) : Decidable (IsWpa inIe cnt) := inferInstanceAs (Decidable (_ ∧ _))

instance (cnt : UInt32) : Decidable (IsRsn inIe cnt) := inferInstanceAs (Decidable (_ = _))

/-- `memcpy`. -/
def memcpy (buf : ℕ → UInt8) (bytes : List UInt8) : ℕ → UInt8 := fun j =>
  if j < bytes.length then bytes.getD j 0 else buf j

/-- `for(i=0;i<(in_ie[cnt+1]+2);i=i+8){ }`. -/
def dumpLoop (size : ℕ) : ℕ → UInt8 → Option Unit
  | 0, _ => none
  | fuel + 1, i => if i.toNat < size then dumpLoop size fuel (i + 8) else some ()

/-- An element that was found (lines 761–769 and 775–783). -/
def takeElement (fuel : ℕ) (cnt : UInt32) (out : Out) : Option Out :=
  match out.ie with
  | none => some ⟨none, sizeAt inIe cnt⟩
  | some buf => do
    dumpLoop (sizeAt inIe cnt) fuel 0
    some ⟨some (memcpy buf (bytesFrom inIe cnt.toNat (sizeAt inIe cnt))), sizeAt inIe cnt⟩

/-- `cnt+=in_ie[cnt+1]+2`. -/
def next (cnt : UInt32) : UInt32 := cnt + UInt32.ofNat (sizeAt inIe cnt)

/-- `while(cnt<in_len)`; no more than `fuel` iterations are followed. -/
def scan (inLen : UInt32) : ℕ → UInt32 → Out → Out → Option (Out × Out)
  | 0, _, _, _ => none
  | fuel + 1, cnt, rsn, wpa =>
    if cnt < inLen then
      if IsWpa inIe cnt then do
        let wpa ← takeElement inIe fuel cnt wpa
        scan inLen fuel (next inIe cnt) rsn wpa
      else if IsRsn inIe cnt then do
        let rsn ← takeElement inIe fuel cnt rsn
        scan inLen fuel (next inIe cnt) rsn wpa
      else scan inLen fuel (next inIe cnt) rsn wpa
    else some (rsn, wpa)

/-- `_TIMESTAMP_ + _BEACON_ITERVAL_ + _CAPABILITY_`. -/
def fixedSize : UInt32 := 12

/-- `rtw_get_sec_ie`; the last component is what it returns. -/
def rtwGetSecIe (inLen : UInt32) (fuel : ℕ) (rsn wpa : Out) : Option (Out × Out × ℕ) := do
  let s ← scan inIe inLen fuel fixedSize rsn wpa
  some (s.1, s.2, s.1.len + s.2.len)

end model

/-! ## What it is for -/

/-- An element is copied whole, and its size reported. -/
def Out.store (out : Out) (element : List UInt8) : Out :=
  ⟨out.ie.map (memcpy · element), element.length⟩

section spec

variable (inIe : ℕ → UInt8)

/-- The element at a place, with its header. -/
def elementAt (cnt : UInt32) : List UInt8 := bytesFrom inIe cnt.toNat (sizeAt inIe cnt)

/-- Where the walk from `cnt` on is after so many elements. -/
def place : UInt32 → ℕ → UInt32
  | cnt, 0 => cnt
  | cnt, n + 1 => place (next inIe cnt) n

/-- The walk from `cnt` on reaches `in_len` after `n` elements. -/
def Reaches (inLen cnt : UInt32) (n : ℕ) : Prop :=
  ¬ place inIe cnt n < inLen ∧ ∀ k < n, place inIe cnt k < inLen

/-- The elements of a kind among the first `n` from `cnt` on. -/
def found (p : UInt32 → Prop) [DecidablePred p] : UInt32 → ℕ → List (List UInt8)
  | _, 0 => []
  | cnt, n + 1 =>
    if p cnt then elementAt inIe cnt :: found p (next inIe cnt) n else found p (next inIe cnt) n

/-- The search ends, and it has copied each RSN element and each WPA element of the walk. -/
def SecIeOk (inLen : UInt32) (rsn wpa : Out) : Prop :=
  ∃ fuel n, Reaches inIe inLen fixedSize n ∧
    rtwGetSecIe inIe inLen fuel rsn wpa =
      some ((found inIe (IsRsn inIe) fixedSize n).foldl Out.store rsn,
        (found inIe (IsWpa inIe) fixedSize n).foldl Out.store wpa,
        ((found inIe (IsRsn inIe) fixedSize n).foldl Out.store rsn).len +
          ((found inIe (IsWpa inIe) fixedSize n).foldl Out.store wpa).len)

/-- The walk reaches `in_len`, and no RSN or WPA element on it has more than 248 bytes. -/
def SecIeFits (inLen cnt : UInt32) : Prop :=
  ∃ n, Reaches inIe inLen cnt n ∧
    ∀ k < n, IsWpa inIe (place inIe cnt k) ∨ IsRsn inIe (place inIe cnt k) →
      sizeAt inIe (place inIe cnt k) ≤ 248

end spec

/-! ## The loops over an element -/

section dump

variable {size fuel : ℕ} {i : UInt8}

theorem dumpLoop_some (hsize : size ≤ 248) (hi : 256 ≤ i.toNat + 8 * fuel) :
    dumpLoop size fuel i = some () := by
  induction fuel generalizing i with
  | zero =>
    have hlt := i.toNat_lt
    omega
  | succ fuel ih =>
    rw [dumpLoop]
    by_cases hlt : i.toNat < size
    · have hnext : (i + 8).toNat = (i.toNat + 8) % 256 := UInt8.toNat_add _ _
      rw [if_pos hlt, ih (by omega)]
    · rw [if_neg hlt]

/-- `i` goes from 248 to 0. -/
theorem dumpLoop_none (hsize : 248 < size) (hi : i.toNat % 8 = 0) :
    dumpLoop size fuel i = none := by
  induction fuel generalizing i with
  | zero => rfl
  | succ fuel ih =>
    have hlt := i.toNat_lt
    have hnext : (i + 8).toNat % 8 = 0 := by
      have hadd : (i + 8).toNat = (i.toNat + 8) % 256 := UInt8.toNat_add _ _
      omega
    rw [dumpLoop, if_pos (by omega), ih hnext]

/-- The loop ends for the elements of up to 248 bytes. -/
theorem dumpLoop_iff : (∃ fuel, dumpLoop size fuel 0 = some ()) ↔ size ≤ 248 := by
  constructor
  · rintro ⟨fuel, h⟩
    by_contra hsize
    rw [dumpLoop_none (Nat.lt_of_not_le hsize) rfl] at h
    cases h
  · exact fun hsize => ⟨32, dumpLoop_some hsize (Nat.le_refl _)⟩

end dump

/-! ## The walk -/

section walk

variable {inIe : ℕ → UInt8} {inLen cnt : UInt32} {rsn wpa : Out} {n : ℕ}

theorem reaches_zero (h : ¬ cnt < inLen) : Reaches inIe inLen cnt 0 :=
  ⟨h, fun _ hk => absurd hk (Nat.not_lt_zero _)⟩

theorem reaches_succ (h : cnt < inLen) :
    Reaches inIe inLen cnt (n + 1) ↔ Reaches inIe inLen (next inIe cnt) n := by
  refine and_congr_right fun _ => ⟨fun hk k hlt => hk (k + 1) (Nat.succ_lt_succ hlt), ?_⟩
  intro hk k hlt
  cases k with
  | zero => exact h
  | succ k => exact hk k (Nat.lt_of_succ_lt_succ hlt)

/-- The walk reaches `in_len`, unless `cnt` can wrap. -/
theorem walk_ends (hlen : inLen.toNat + 257 ≤ 2 ^ 32) (cnt : UInt32) :
    ∃ n, Reaches inIe inLen cnt n := by
  induction hd : inLen.toNat - cnt.toNat using Nat.strongRecOn generalizing cnt with
  | _ d ih =>
    by_cases h : cnt < inLen
    · have hlt : cnt.toNat < inLen.toNat := h
      have hsize : sizeAt inIe cnt ≤ 257 := by
        have hbyte := (inIe (cnt + 1).toNat).toNat_lt
        rw [sizeAt]
        omega
      have hpos : 2 ≤ sizeAt inIe cnt := Nat.le_add_left 2 _
      have hnext : (next inIe cnt).toNat = cnt.toNat + sizeAt inIe cnt := by
        have hlt32 : sizeAt inIe cnt < UInt32.size := Nat.lt_of_le_of_lt hsize (by decide)
        rw [next, UInt32.toNat_add, UInt32.toNat_ofNat_of_lt' hlt32]
        exact Nat.mod_eq_of_lt (by omega)
      obtain ⟨n, hn⟩ := ih _ (by omega) (next inIe cnt) rfl
      exact ⟨n + 1, (reaches_succ h).mpr hn⟩
    · exact ⟨0, reaches_zero h⟩

theorem fits_end (h : ¬ cnt < inLen) : SecIeFits inIe inLen cnt :=
  ⟨0, reaches_zero h, fun _ hk => absurd hk (Nat.not_lt_zero _)⟩

theorem fits_next (h : cnt < inLen) (hfits : SecIeFits inIe inLen (next inIe cnt))
    (hsize : IsWpa inIe cnt ∨ IsRsn inIe cnt → sizeAt inIe cnt ≤ 248) :
    SecIeFits inIe inLen cnt := by
  obtain ⟨n, hn, hall⟩ := hfits
  refine ⟨n + 1, (reaches_succ h).mpr hn, fun k hk => ?_⟩
  cases k with
  | zero => exact hsize
  | succ k => exact hall k (Nat.lt_of_succ_lt_succ hk)

theorem not_isRsn (h : IsWpa inIe cnt) : ¬ IsRsn inIe cnt := by
  intro hrsn
  have hids : (0xdd : UInt8) = 0x30 := h.1.symm.trans hrsn
  revert hids
  decide

end walk

/-! ## The search -/

section search

variable {inIe : ℕ → UInt8} {inLen cnt : UInt32} {rsn wpa out : Out} {n fuel : ℕ}

theorem Out.store_isSome (h : out.ie.isSome) (element : List UInt8) :
    (out.store element).ie.isSome := by
  rw [Out.store, Option.isSome_map]
  exact h

theorem elementAt_length (inIe : ℕ → UInt8) (cnt : UInt32) :
    (elementAt inIe cnt).length = sizeAt inIe cnt := by
  rw [elementAt, bytesFrom, List.length_map, List.length_range]

theorem takeElement_some (hie : out.ie.isSome) (hsize : sizeAt inIe cnt ≤ 248)
    (hfuel : 32 ≤ fuel) :
    takeElement inIe fuel cnt out = some (out.store (elementAt inIe cnt)) := by
  obtain ⟨buf, hbuf⟩ := Option.isSome_iff_exists.mp hie
  have hdump : dumpLoop (sizeAt inIe cnt) fuel 0 = some () := dumpLoop_some hsize (by
    have hzero : (0 : UInt8).toNat = 0 := rfl
    omega)
  rw [takeElement, hbuf, Out.store, hbuf, elementAt_length]
  simp only [hdump]
  rfl

theorem takeElement_none (hie : out.ie.isSome) (hsize : 248 < sizeAt inIe cnt) :
    takeElement inIe fuel cnt out = none := by
  obtain ⟨buf, hbuf⟩ := Option.isSome_iff_exists.mp hie
  rw [takeElement, hbuf]
  simp only [dumpLoop_none hsize (show (0 : UInt8).toNat % 8 = 0 from rfl)]
  rfl

theorem takeElement_isSome {out' : Out} (hie : out.ie.isSome)
    (h : takeElement inIe fuel cnt out = some out') : out'.ie.isSome := by
  obtain ⟨buf, hbuf⟩ := Option.isSome_iff_exists.mp hie
  rw [takeElement, hbuf] at h
  obtain ⟨_, -, hout⟩ := Option.bind_eq_some_iff.mp h
  rw [← Option.some.inj hout]
  rfl

/-- A search that ends has met no element that is too long. -/
theorem fits_of_scan {s : Out × Out} (hrsn : rsn.ie.isSome) (hwpa : wpa.ie.isSome)
    (h : scan inIe inLen fuel cnt rsn wpa = some s) : SecIeFits inIe inLen cnt := by
  induction fuel generalizing cnt rsn wpa with
  | zero => cases h
  | succ fuel ih =>
    rw [scan] at h
    by_cases hcnt : cnt < inLen
    · rw [if_pos hcnt] at h
      by_cases hsize : sizeAt inIe cnt ≤ 248
      · refine fits_next hcnt ?_ fun _ => hsize
        split_ifs at h with hw hr
        · obtain ⟨wpa', hwpa', hgo⟩ := Option.bind_eq_some_iff.mp h
          exact ih hrsn (takeElement_isSome hwpa hwpa') hgo
        · obtain ⟨rsn', hrsn', hgo⟩ := Option.bind_eq_some_iff.mp h
          exact ih (takeElement_isSome hrsn hrsn') hwpa hgo
        · exact ih hrsn hwpa h
      · have hlong : 248 < sizeAt inIe cnt := Nat.lt_of_not_le hsize
        split_ifs at h with hw hr
        · rw [takeElement_none hwpa hlong] at h
          cases h
        · rw [takeElement_none hrsn hlong] at h
          cases h
        · refine fits_next hcnt (ih hrsn hwpa h) ?_
          rintro (hw' | hr')
          · exact absurd hw' hw
          · exact absurd hr' hr
    · exact fits_end hcnt

/-- A search that meets none ends, and has copied what it found. -/
theorem scan_eq (hn : Reaches inIe inLen cnt n)
    (hsize : ∀ k < n, IsWpa inIe (place inIe cnt k) ∨ IsRsn inIe (place inIe cnt k) →
      sizeAt inIe (place inIe cnt k) ≤ 248)
    (hrsn : rsn.ie.isSome) (hwpa : wpa.ie.isSome) (hfuel : n + 33 ≤ fuel) :
    scan inIe inLen fuel cnt rsn wpa =
      some ((found inIe (IsRsn inIe) cnt n).foldl Out.store rsn,
        (found inIe (IsWpa inIe) cnt n).foldl Out.store wpa) := by
  obtain ⟨fuel, rfl⟩ : ∃ m, fuel = m + 1 := ⟨fuel - 1, by omega⟩
  induction n generalizing cnt rsn wpa fuel with
  | zero =>
    have hend : ¬ cnt < inLen := hn.1
    rw [scan, if_neg hend]
    rfl
  | succ n ih =>
    have hcnt : cnt < inLen := hn.2 0 (Nat.succ_pos n)
    have hnext := (reaches_succ hcnt).mp hn
    have hsize' := fun k (hk : k < n) => hsize (k + 1) (Nat.succ_lt_succ hk)
    have h0 : IsWpa inIe cnt ∨ IsRsn inIe cnt → sizeAt inIe cnt ≤ 248 := hsize 0 (Nat.succ_pos n)
    obtain ⟨m, rfl⟩ : ∃ m, fuel = m + 1 := ⟨fuel - 1, by omega⟩
    rw [scan, if_pos hcnt, found, found]
    by_cases hw : IsWpa inIe cnt
    · rw [if_pos hw, if_pos hw, if_neg (not_isRsn hw),
        takeElement_some hwpa (h0 (.inl hw)) (by omega)]
      exact ih hnext hsize' hrsn (Out.store_isSome hwpa _) m (by omega)
    · rw [if_neg hw, if_neg hw]
      by_cases hr : IsRsn inIe cnt
      · rw [if_pos hr, if_pos hr, takeElement_some hrsn (h0 (.inr hr)) (by omega)]
        exact ih hnext hsize' (Out.store_isSome hrsn _) hwpa m (by omega)
      · rw [if_neg hr, if_neg hr]
        exact ih hnext hsize' hrsn hwpa m (by omega)

end search

/-- With buffers for both elements the search ends and copies them exactly when `cnt` comes to
    `in_len` over no RSN or WPA element of more than 248 bytes. -/
theorem getSecIe_iff (inIe : ℕ → UInt8) (inLen : UInt32) (rsnIe wpaIe : ℕ → UInt8)
    (rsnLen wpaLen : ℕ) :
    SecIeOk inIe inLen ⟨some rsnIe, rsnLen⟩ ⟨some wpaIe, wpaLen⟩ ↔
      SecIeFits inIe inLen fixedSize := by
  constructor
  · rintro ⟨fuel, n, -, h⟩
    obtain ⟨s, hs, -⟩ := Option.bind_eq_some_iff.mp h
    exact fits_of_scan rfl rfl hs
  · rintro ⟨n, hn, hsize⟩
    refine ⟨n + 33, n, hn, ?_⟩
    rw [rtwGetSecIe, scan_eq hn hsize rfl rfl (Nat.le_refl _)]
    rfl

/-- Twelve bytes, and a WPA element whose length byte is 247. -/
def longWpaBytes : List UInt8 := List.replicate 12 0 ++ [0xdd, 247, 0x00, 0x50, 0xf2, 0x01]

/-- The memory that begins with them. -/
def longWpa (k : ℕ) : UInt8 := longWpaBytes.getD k 0

/-- The loop over the element does not end; it is the last one before `in_len`. -/
theorem longWpa_never_ends :
    Reaches longWpa 261 fixedSize 1 ∧
      (∀ fuel, rtwGetSecIe longWpa 261 fuel ⟨some fun _ => 0, 0⟩ ⟨some fun _ => 0, 0⟩ = none) ∧
      ¬ SecIeOk longWpa 261 ⟨some fun _ => 0, 0⟩ ⟨some fun _ => 0, 0⟩ := by
  have hwpa : IsWpa longWpa fixedSize := by decide
  have hlong : 248 < sizeAt longWpa fixedSize := by decide
  have hlt : fixedSize < 261 := by decide
  have hscan : ∀ fuel, rtwGetSecIe longWpa 261 fuel ⟨some fun _ => 0, 0⟩ ⟨some fun _ => 0, 0⟩ =
      none := by
    intro fuel
    cases fuel with
    | zero => rfl
    | succ fuel =>
      rw [rtwGetSecIe, scan, if_pos hlt, if_pos hwpa, takeElement_none rfl hlong]
      rfl
  refine ⟨(reaches_succ hlt).mpr (reaches_zero (by decide)), hscan, ?_⟩
  rintro ⟨fuel, n, -, h⟩
  rw [hscan] at h
  cases h

end Rtl8821au.Mlme.SecIe
