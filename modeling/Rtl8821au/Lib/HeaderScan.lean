import Mathlib.Data.List.Forall2
import Rtl8821au.Lib.EndsWhen

/-!
# Scans over headers

A scan over elements reads an id and a length at a place and goes on so many bytes later, as long
as it has not passed a bound, which may be wrong. What it comes to is a list of strings: what is
left of the buffer at each header.

* `headers`: that list; the last string may be too short for a header.
* `ScanFits`: a scan that ends at a hit reads only bytes that are there.
* `scanFits_append`, `find?_split`: a scan that is taken up again behind a header.
* `forall_found`: what is said of a header that is found.
* `headers_encode`, `find?_headers`: the headers of elements; `forall₂_headers`: of elements that
  begin alike.
* `find?_forall₂`: searches in lists that are related.
-/

namespace HeaderScan

open Checked Elements

/-! ## Reads behind a place -/

section reads

variable {f h : List UInt8} {p : ℕ}

theorem endsWhen_byte (hp : f.drop p = h) (k : ℕ) :
    EndsWhen (k < h.length) (· = h.getD k 0) (readByte f (p + k)) := by
  have hlen : h.length = f.length - p := by rw [← hp, List.length_drop]
  have hbyte : f.getD (p + k) 0 = h.getD k 0 := by rw [← hp, getD_drop]
  have hread := endsWhen_readByte f (p + k)
  rw [hbyte] at hread
  exact hread.iff (by omega)

theorem endsWhen_bytes (hp : f.drop p = h) (k n : ℕ) :
    EndsWhen (k + (n + 1) ≤ h.length) (· = (h.drop k).take (n + 1))
      (readBytes f (p + k) (n + 1)) := by
  have hlen : h.length = f.length - p := by rw [← hp, List.length_drop]
  have hbytes : bytesAt f (p + k) (n + 1) = (h.drop k).take (n + 1) := by
    rw [bytesAt, ← hp, List.drop_drop]
  have hread := endsWhen_readBytes f (p + k) (n + 1)
  rw [hbytes] at hread
  refine hread.iff ?_
  rw [Inside]
  omega

end reads

/-! ## Headers -/

/-- The length that a header says. -/
def lenOf (h : List UInt8) : ℕ := (h.getD 1 0).toNat

/-- The id. -/
def hasId (i : UInt8) (h : List UInt8) : Bool := h.head? == some i

/-- What is left of the string at each header that a scan over `bound` bytes comes to. -/
def headers (bound : ℕ) (h : List UInt8) : List (List UInt8) :=
  if bound = 0 then []
  else
    h :: if h.length < 2 then [] else headers (bound - (lenOf h + 2)) (h.drop (lenOf h + 2))
  termination_by bound

section headers

variable {bound i : ℕ} {id : UInt8} {h d : List UInt8} {es : List Elem}

theorem hasId_iff : hasId id h = true ↔ h.head? = some id := beq_iff_eq

theorem hasId_cons {b : UInt8} : hasId id (b :: d) = true ↔ b = id := by
  rw [hasId_iff, List.head?_cons, Option.some_inj]

@[simp] theorem headers_zero (h : List UInt8) : headers 0 h = [] := by
  rw [headers, if_pos rfl]

theorem headers_short (hb : 0 < bound) (hh : h.length < 2) : headers bound h = [h] := by
  rw [headers, if_neg (Nat.ne_of_gt hb), if_pos hh]

theorem headers_next (hb : 0 < bound) (hh : 2 ≤ h.length) :
    headers bound h = h :: headers (bound - (lenOf h + 2)) (h.drop (lenOf h + 2)) := by
  rw [headers, if_neg (Nat.ne_of_gt hb), if_neg (Nat.not_lt.mpr hh)]

theorem lenOf_encode (x : Elem) (r : List UInt8) : lenOf (x.encode ++ r) = x.data.length :=
  x.toNat_length

theorem drop_encode (x : Elem) (r : List UInt8) :
    (x.encode ++ r).drop (x.data.length + 2) = r := List.drop_left

/-- The headers of a string that begins with an element, up to its end. -/
theorem headers_encode (x : Elem) (r : List UInt8) :
    headers (x.encode ++ r).length (x.encode ++ r) = (x.encode ++ r) :: headers r.length r := by
  have hlen : (x.encode ++ r).length = x.data.length + 2 + r.length := by
    rw [List.length_append, Elem.encode_length]
  rw [headers_next (by omega) (by omega), lenOf_encode, drop_encode, hlen, Nat.add_sub_cancel_left]

theorem hasId_encode (x : Elem) (r : List UInt8) :
    hasId id (x.encode ++ r) = true ↔ x.id = id := hasId_cons

/-- The first header with an id is that of the first element with it. -/
theorem find?_headers {e : Elem} {t : List UInt8} (es₁ es₂ : List Elem)
    (hno : ∀ x ∈ es₁, x.id ≠ id) (he : e.id = id) :
    (headers (encodeAll (es₁ ++ e :: es₂) ++ t).length
        (encodeAll (es₁ ++ e :: es₂) ++ t)).find? (hasId id) =
      some (e.encode ++ (encodeAll es₂ ++ t)) := by
  induction es₁ with
  | nil =>
    rw [List.nil_append, encodeAll_cons, List.append_assoc, headers_encode]
    exact List.find?_cons_of_pos ((hasId_encode e _).mpr he)
  | cons x es₁ ih =>
    obtain ⟨hx, hrest⟩ := List.forall_mem_cons.mp hno
    rw [List.cons_append, encodeAll_cons, List.append_assoc, headers_encode,
      List.find?_cons_of_neg (mt (hasId_encode x _).mp hx)]
    exact ih hrest

/-- The headers of two strings that begin with the same elements. -/
theorem forall₂_headers {R : List UInt8 → List UInt8 → Prop} {u v : List UInt8} (es : List Elem)
    (hes : ∀ es₁ x es₂, es = es₁ ++ x :: es₂ →
      R (x.encode ++ (encodeAll es₂ ++ u)) (x.encode ++ (encodeAll es₂ ++ v)))
    (huv : List.Forall₂ R (headers u.length u) (headers v.length v)) :
    List.Forall₂ R (headers (encodeAll es ++ u).length (encodeAll es ++ u))
      (headers (encodeAll es ++ v).length (encodeAll es ++ v)) := by
  induction es with
  | nil => exact huv
  | cons x es ih =>
    rw [encodeAll_cons, List.append_assoc, List.append_assoc, headers_encode, headers_encode]
    refine .cons (hes [] x es rfl) (ih fun es₁ y es₂ heq => ?_)
    exact hes (x :: es₁) y es₂ (congrArg (List.cons x) heq)

end headers

/-! ## What a scan reads -/

/-- A scan that ends at a hit finds as many bytes at each header as it reads there. -/
def ScanFits (need : List UInt8 → ℕ) (hit : List UInt8 → Bool) : List (List UInt8) → Prop
  | [] => True
  | h :: hs => need h ≤ h.length ∧ (hit h = true ∨ ScanFits need hit hs)

section fits

variable {need need' : List UInt8 → ℕ} {hit hit' : List UInt8 → Bool} {hs hs' : List (List UInt8)}
  {h : List UInt8}

/-- A scan that goes on behind headers none of which is a hit. -/
theorem scanFits_append (hno : ∀ x ∈ hs, hit x = false) :
    ScanFits need hit (hs ++ hs') ↔ (∀ x ∈ hs, need x ≤ x.length) ∧ ScanFits need hit hs' := by
  induction hs with
  | nil => exact (and_iff_right fun x hx => absurd hx List.not_mem_nil).symm
  | cons x hs ih =>
    obtain ⟨hx, hrest⟩ := List.forall_mem_cons.mp hno
    rw [List.cons_append, ScanFits, hx, ih hrest, List.forall_mem_cons, and_assoc]
    simp only [Bool.false_eq_true, false_or]

theorem scanFits_hit (hh : hit h = true) :
    ScanFits need hit (h :: hs) ↔ need h ≤ h.length := by
  rw [ScanFits, hh]
  exact and_iff_left (.inl rfl)

/-- Two scans that read the same up to where they end. -/
theorem scanFits_congr (hneed : ∀ x ∈ hs, need x = need' x) (hhit : ∀ x ∈ hs, hit x = hit' x) :
    ScanFits need hit hs ↔ ScanFits need' hit' hs := by
  induction hs with
  | nil => exact Iff.rfl
  | cons x hs ih =>
    obtain ⟨hx, hrest⟩ := List.forall_mem_cons.mp hneed
    obtain ⟨hx', hrest'⟩ := List.forall_mem_cons.mp hhit
    rw [ScanFits, ScanFits, hx, hx', ih hrest hrest']

/-- A scan that reads less and ends earlier. -/
theorem ScanFits.mono (h : ScanFits need hit hs) (hneed : ∀ x, need' x ≤ need x)
    (hhit : ∀ x, hit x = true → hit' x = true) : ScanFits need' hit' hs := by
  induction hs with
  | nil => trivial
  | cons x hs ih => exact ⟨Nat.le_trans (hneed x) h.1, h.2.imp (hhit x) ih⟩

/-- The list in front of the first hit and from there on. -/
theorem find?_split {α : Type} {p : α → Bool} {l : List α} {a : α} (h : l.find? p = some a) :
    ∃ l₁ l₂, l = l₁ ++ a :: l₂ ∧ p a = true ∧ ∀ x ∈ l₁, p x = false := by
  obtain ⟨ha, l₁, l₂, rfl, hno⟩ := List.find?_eq_some_iff_append.mp h
  exact ⟨l₁, l₂, rfl, ha, fun x hx => by simpa using hno x hx⟩

theorem find?_append_of_none {α : Type} {p : α → Bool} {l l' : List α}
    (hno : ∀ x ∈ l, p x = false) : (l ++ l').find? p = l'.find? p := by
  have hnone : l.find? p = none := List.find?_eq_none.mpr fun x hx => by
    rw [hno x hx]
    exact Bool.false_ne_true
  rw [List.find?_append, hnone, Option.none_or]

/-- What is said of a result that there is, and of one that there is not. -/
theorem forall_found {α : Type} {P : α → Prop} {r : Option α} {a : α} (hr : r = some a) :
    (∀ x, r = some x → P x) ↔ P a := by
  rw [hr]
  exact ⟨fun h => h a rfl, fun h x hx => Option.some.inj hx ▸ h⟩

theorem forall_notFound {α : Type} {P : α → Prop} {r : Option α} (hr : r = none) :
    ∀ x, r = some x → P x := fun x hx => by
  rw [hr] at hx
  cases hx

/-- A header that is found is there. -/
theorem ScanFits.found (h : ScanFits need hit hs) {x : List UInt8} (hx : hs.find? hit = some x) :
    need x ≤ x.length := by
  obtain ⟨l₁, l₂, rfl, hhit, hno⟩ := find?_split hx
  exact (scanFits_hit hhit).mp ((scanFits_append hno).mp h).2

end fits

/-! ## Related lists -/

section related

variable {α : Type} {R : α → α → Prop} {l l' : List α} {p : α → Bool}

/-- Searches that the relation does not tell apart. -/
theorem find?_forall₂ (h : List.Forall₂ R l l') (hp : ∀ a b, R a b → p a = p b) :
    l.find? p = none ∧ l'.find? p = none ∨
      ∃ a b, l.find? p = some a ∧ l'.find? p = some b ∧ R a b := by
  induction h with
  | nil => exact .inl ⟨rfl, rfl⟩
  | @cons a b l l' hab _ ih =>
    rw [List.find?_cons, List.find?_cons, ← hp a b hab]
    cases hpa : p a with
    | true => exact .inr ⟨a, b, rfl, rfl, hab⟩
    | false => exact ih

theorem exists_forall₂ (h : List.Forall₂ R l l') (hp : ∀ a b, R a b → p a = p b) :
    (∃ a ∈ l, p a = true) ↔ ∃ b ∈ l', p b = true := by
  rw [← List.find?_isSome, ← List.find?_isSome]
  rcases find?_forall₂ h hp with ⟨hl, hl'⟩ | ⟨a, b, hl, hl', -⟩
  · rw [hl, hl']
  · rw [hl, hl']
    rfl

end related

end HeaderScan
