import Mathlib.Data.List.Basic
import Mathlib.Tactic.SplitIfs

/-!
# Lists of elements

An element is an id, a length of one byte and the data. A list of elements is the
elements one after the other; nothing separates them, every element says where the next
one begins.

* `encodeAll_injective`: a string is at most one list of elements.
* `decodeAll_encodeAll`, `encodeAll_of_decodeAll`: `decodeAll` finds it.
* `exists_first`: the first element with an id, and what precedes it.
* `insert_eq_insert_iff`, `rotation_of_append`: when a word inserted at one place could as well have been inserted
  at another.
-/

namespace Elements

/-- An information element. -/
structure Elem where
  id : UInt8
  data : List UInt8
  length_lt : data.length < 256
  deriving DecidableEq, Repr

/-- The bytes of an element. -/
def Elem.encode (e : Elem) : List UInt8 := e.id :: UInt8.ofNat e.data.length :: e.data

/-- The bytes of a list of elements. -/
def encodeAll (es : List Elem) : List UInt8 := es.flatMap Elem.encode

variable {e e' : Elem} {es es' : List Elem}

@[simp] theorem Elem.encode_length (e : Elem) : e.encode.length = e.data.length + 2 := rfl

@[simp] theorem encodeAll_nil : encodeAll [] = [] := rfl

@[simp] theorem encodeAll_cons (e : Elem) (es : List Elem) :
    encodeAll (e :: es) = e.encode ++ encodeAll es := rfl

@[simp] theorem encodeAll_append (es es' : List Elem) :
    encodeAll (es ++ es') = encodeAll es ++ encodeAll es' := List.flatMap_append

/-- The length byte is the length. -/
theorem Elem.toNat_length (e : Elem) : (UInt8.ofNat e.data.length).toNat = e.data.length :=
  Nat.mod_eq_of_lt e.length_lt

theorem Elem.encode_append_inj {r r' : List UInt8} (h : e.encode ++ r = e'.encode ++ r') :
    e = e' ∧ r = r' := by
  obtain ⟨i, d, hd⟩ := e
  obtain ⟨i', d', hd'⟩ := e'
  simp only [Elem.encode, List.cons_append, List.cons.injEq] at h
  obtain ⟨rfl, hl, h⟩ := h
  have hlen : d.length = d'.length := by
    have := congrArg UInt8.toNat hl
    rwa [UInt8.toNat_ofNat_of_lt' hd, UInt8.toNat_ofNat_of_lt' hd'] at this
  obtain ⟨rfl, rfl⟩ := List.append_inj h hlen
  exact ⟨rfl, rfl⟩

theorem encodeAll_injective {es es' : List Elem} (h : encodeAll es = encodeAll es') :
    es = es' := by
  induction es generalizing es' with
  | nil =>
    rcases es' with _ | ⟨e', es'⟩
    · rfl
    · simp [Elem.encode] at h
  | cons e es ih =>
    rcases es' with _ | ⟨e', es'⟩
    · simp [Elem.encode] at h
    · obtain ⟨rfl, htail⟩ := Elem.encode_append_inj h
      rw [ih htail]

/-- The elements of a string, if it is a list of whole elements. -/
def decodeAll : List UInt8 → Option (List Elem)
  | [] => some []
  | [_] => none
  | id :: len :: rest =>
    if len.toNat ≤ rest.length then
      (decodeAll (rest.drop len.toNat)).map
        (⟨id, rest.take len.toNat, Nat.lt_of_le_of_lt (List.length_take_le _ _) len.toNat_lt⟩ :: ·)
    else none
  termination_by bs => bs.length
  decreasing_by simp only [List.length_drop, List.length_cons]; omega

theorem decodeAll_encodeAll (es : List Elem) : decodeAll (encodeAll es) = some es := by
  induction es with
  | nil => rw [encodeAll_nil, decodeAll]
  | cons e es ih =>
    have hlen : e.data.length ≤ (e.data ++ encodeAll es).length := by
      rw [List.length_append]
      exact Nat.le_add_right _ _
    rw [encodeAll_cons, Elem.encode, List.cons_append, List.cons_append, decodeAll]
    simp only [Elem.toNat_length, if_pos hlen, List.drop_left, List.take_left, ih, Option.map_some]

theorem encodeAll_of_decodeAll {bs : List UInt8} {es : List Elem} (h : decodeAll bs = some es) :
    bs = encodeAll es := by
  induction hn : bs.length using Nat.strongRecOn generalizing bs es with
  | _ n ih =>
    rcases bs with _ | ⟨i, _ | ⟨l, rest⟩⟩
    · rw [decodeAll] at h
      rw [← Option.some.inj h, encodeAll_nil]
    · rw [decodeAll] at h
      cases h
    · rw [decodeAll] at h
      split_ifs at h with hl
      obtain ⟨es', hes, rfl⟩ := Option.map_eq_some_iff.mp h
      have hdrop := ih _ (by rw [List.length_drop, ← hn, List.length_cons, List.length_cons]; omega)
        hes rfl
      have htake : (rest.take l.toNat).length = l.toNat := by
        rw [List.length_take, Nat.min_eq_left hl]
      rw [encodeAll_cons, Elem.encode, ← hdrop]
      simp only [htake, UInt8.ofNat_toNat, List.cons_append, List.take_append_drop]

theorem encodeAll_length_le (es : List Elem) : 2 * es.length ≤ (encodeAll es).length := by
  induction es with
  | nil => exact Nat.le_refl 0
  | cons e es ih =>
    rw [encodeAll_cons, List.length_append, Elem.encode_length, List.length_cons]
    omega

/-- Either no element has the id, or there is a first one. -/
theorem exists_first (i : UInt8) (es : List Elem) :
    (∀ e ∈ es, e.id ≠ i) ∨
      ∃ es₁ e es₂, es = es₁ ++ e :: es₂ ∧ e.id = i ∧ ∀ x ∈ es₁, x.id ≠ i := by
  induction es with
  | nil => exact .inl fun _ he => absurd he List.not_mem_nil
  | cons e es ih =>
    by_cases he : e.id = i
    · exact .inr ⟨[], e, es, rfl, he, fun _ hx => absurd hx List.not_mem_nil⟩
    · rcases ih with hnone | ⟨es₁, e', es₂, rfl, he', hes⟩
      · exact .inl fun x hx => (List.mem_cons.mp hx).elim (· ▸ he) (hnone x)
      · exact .inr ⟨e :: es₁, e', es₂, rfl, he',
          fun x hx => (List.mem_cons.mp hx).elim (· ▸ he) (hes x)⟩

/-- A word `t` inserted at `off` is a word `m` inserted behind `a`, where `off` is in `a`. -/
theorem insert_eq_insert_iff {α : Type*} {a b t m : List α} {off : ℕ} (h : off ≤ a.length) :
    (a ++ b).take off ++ t ++ (a ++ b).drop off = a ++ m ++ b ↔
      a.drop off ++ m = t ++ a.drop off := by
  have hleft : (a ++ b).take off ++ t ++ (a ++ b).drop off =
      a.take off ++ (t ++ a.drop off) ++ b := by
    rw [List.take_append_of_le_length h, List.drop_append_of_le_length h]
    simp only [List.append_assoc]
  have hright : a ++ m ++ b = a.take off ++ (a.drop off ++ m) ++ b := by
    rw [← List.append_assoc, List.take_append_drop]
  rw [hleft, hright, List.append_left_inj, List.append_right_inj, eq_comm]

/-- If `t` before `w` reads as `m` after it, then `m` is a rotation of `t`: `w` is copies
    of `t` and a prefix of it. -/
theorem rotation_of_append {α : Type*} {w t m : List α} (h : w ++ m = t ++ w) (ht : t ≠ []) :
    ∃ r < t.length, m = t.drop r ++ t.take r := by
  induction hn : w.length using Nat.strongRecOn generalizing w with
  | _ n ih =>
    rcases Nat.lt_or_ge w.length t.length with hlt | hle
    · -- `w` is a proper prefix of `t`
      obtain ⟨v, rfl⟩ : w <+: t :=
        List.prefix_of_prefix_length_le ⟨m, h⟩ ⟨w, rfl⟩ (Nat.le_of_lt hlt)
      refine ⟨w.length, hlt, ?_⟩
      rw [List.append_assoc] at h
      rw [List.drop_left, List.take_left]
      exact List.append_cancel_left h
    · -- one copy of `t` is taken off
      obtain ⟨w', rfl⟩ : t <+: w := List.prefix_of_prefix_length_le ⟨w, rfl⟩ ⟨m, h⟩ hle
      have hpos : 0 < t.length := List.length_pos_iff.mpr ht
      rw [List.length_append] at hn
      refine ih w'.length (by omega) ?_ rfl
      rw [List.append_assoc] at h
      exact List.append_cancel_left h

end Elements
