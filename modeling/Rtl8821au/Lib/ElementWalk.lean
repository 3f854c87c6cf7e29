import Rtl8821au.Lib.Checked
import Rtl8821au.Lib.Elements

/-!
# Strings that begin with elements

Every string is a list of whole elements and a stump, which is nothing, one byte, or an element
that is cut off.

* `parse_append`: there is one way to see it so.
* `exists_parse`: there is one.
* `firstElem_eq_some`: the first element with a property, and its place.
* `readByte_id`, `readByte_length`, `readBytes_after`: checked reads at an element.
-/

namespace Elements

open Checked

variable {e : Elem} {es : List Elem} {t : List UInt8}

/-! ## Stumps -/

/-- What is left behind the last whole element. -/
def Stump : List UInt8 → Prop
  | [] => True
  | [_] => True
  | _ :: len :: rest => rest.length < len.toNat

instance : (t : List UInt8) → Decidable (Stump t)
  | [] => isTrue trivial
  | [_] => isTrue trivial
  | _ :: len :: rest => inferInstanceAs (Decidable (rest.length < len.toNat))

/-- The whole elements at the beginning of a string, and the rest. -/
def parse : List UInt8 → List Elem × List UInt8
  | [] => ([], [])
  | [b] => ([], [b])
  | id :: len :: rest =>
    if len.toNat ≤ rest.length then
      (⟨id, rest.take len.toNat, Nat.lt_of_le_of_lt (List.length_take_le _ _) len.toNat_lt⟩ ::
        (parse (rest.drop len.toNat)).1, (parse (rest.drop len.toNat)).2)
    else ([], id :: len :: rest)
  termination_by bs => bs.length
  decreasing_by all_goals simp only [List.length_drop, List.length_cons]; omega

theorem parse_stump (h : Stump t) : parse t = ([], t) := by
  rcases t with _ | ⟨b, _ | ⟨len, rest⟩⟩
  · rw [parse]
  · rw [parse]
  · rw [parse, if_neg (Nat.not_le.mpr h)]

theorem parse_append (es : List Elem) (h : Stump t) : parse (encodeAll es ++ t) = (es, t) := by
  induction es with
  | nil => exact parse_stump h
  | cons e es ih =>
    have hbytes : encodeAll (e :: es) ++ t =
        e.id :: UInt8.ofNat e.data.length :: (e.data ++ (encodeAll es ++ t)) := by
      rw [encodeAll_cons, List.append_assoc]
      rfl
    have hlen : e.data.length ≤ (e.data ++ (encodeAll es ++ t)).length := by
      rw [List.length_append]
      exact Nat.le_add_right _ _
    rw [hbytes, parse]
    simp only [Elem.toNat_length, if_pos hlen, List.drop_left, List.take_left, ih]

theorem exists_parse (bs : List UInt8) : ∃ es t, bs = encodeAll es ++ t ∧ Stump t := by
  induction hn : bs.length using Nat.strongRecOn generalizing bs with
  | _ n ih =>
    rcases bs with _ | ⟨i, _ | ⟨l, rest⟩⟩
    · exact ⟨[], [], rfl, trivial⟩
    · exact ⟨[], [i], rfl, trivial⟩
    · by_cases hl : l.toNat ≤ rest.length
      · obtain ⟨es, t, hdrop, ht⟩ := ih _ (by
          rw [← hn, List.length_drop, List.length_cons, List.length_cons]
          omega) (rest.drop l.toNat) rfl
        have htake : (rest.take l.toNat).length = l.toNat := by
          rw [List.length_take, Nat.min_eq_left hl]
        refine ⟨⟨i, rest.take l.toNat, by rw [htake]; exact l.toNat_lt⟩ :: es, t, ?_, ht⟩
        rw [encodeAll_cons, List.append_assoc, ← hdrop, Elem.encode]
        simp only [htake, UInt8.ofNat_toNat, List.cons_append, List.take_append_drop]
      · exact ⟨[], _, rfl, Nat.lt_of_not_le hl⟩

/-- A string with elements is a list of elements when nothing is left. -/
theorem decodeAll_append (h : Stump t) :
    decodeAll (encodeAll es ++ t) = if t = [] then some es else none := by
  by_cases ht : t = []
  · rw [if_pos ht, ht, List.append_nil, decodeAll_encodeAll]
  · rw [if_neg ht]
    cases hdec : decodeAll (encodeAll es ++ t) with
    | none => rfl
    | some es' =>
      have heq := encodeAll_of_decodeAll hdec
      have hp := parse_append es h
      rw [heq, ← List.append_nil (encodeAll es'), parse_append (t := []) es' trivial] at hp
      exact absurd (congrArg Prod.snd hp).symm ht

/-! ## The first element with a property -/

/-- The first of the elements with the property and its place, counted from `i`. -/
def firstElem (p : Elem → Prop) [DecidablePred p] : ℕ → List Elem → Option (ℕ × Elem)
  | _, [] => none
  | i, e :: es => if p e then some (i, e) else firstElem p (i + (e.data.length + 2)) es

section first

variable {p : Elem → Prop} [DecidablePred p] {i k : ℕ}

/-- It is in the list, and no element before it has the property. -/
theorem firstElem_eq_some (h : firstElem p i es = some (k, e)) :
    ∃ es₁ es₂, es = es₁ ++ e :: es₂ ∧ p e ∧ (∀ x ∈ es₁, ¬ p x) ∧ k = i + (encodeAll es₁).length := by
  induction es generalizing i with
  | nil => cases h
  | cons x es ih =>
    rw [firstElem] at h
    by_cases hx : p x
    · rw [if_pos hx] at h
      obtain ⟨rfl, rfl⟩ := Prod.mk.inj (Option.some.inj h)
      exact ⟨[], es, rfl, hx, fun y hy => absurd hy List.not_mem_nil, rfl⟩
    · rw [if_neg hx] at h
      obtain ⟨es₁, es₂, rfl, he, hes, hk⟩ := ih h
      refine ⟨x :: es₁, es₂, rfl, he, List.forall_mem_cons.mpr ⟨hx, hes⟩, ?_⟩
      rw [hk, encodeAll_cons, List.length_append, Elem.encode_length, Nat.add_assoc]

end first

/-! ## Reads at an element -/

section reads

variable {f pre d : List UInt8} {id len : UInt8}

theorem readByte_id (hf : f = pre ++ id :: d) : readByte f pre.length = .ok id := by
  rw [hf, readByte_of_lt (by rw [List.length_append, List.length_cons]; omega),
    List.getD_append_right _ _ _ _ (Nat.le_refl _), Nat.sub_self, List.getD_cons_zero]

theorem readByte_length (hf : f = pre ++ id :: len :: d) :
    readByte f (pre.length + 1) = .ok len := by
  have hf' : f = (pre ++ [id]) ++ len :: d := by rw [hf, List.append_assoc]; rfl
  have hlen : (pre ++ [id]).length = pre.length + 1 := by rw [List.length_append]; rfl
  rw [← hlen]
  exact readByte_id hf'

/-- There is no length byte. -/
theorem readByte_length_short (hf : f = pre ++ [id]) :
    readByte f (pre.length + 1) = .error .beyond :=
  readByte_of_le (Nat.le_of_eq (by rw [hf, List.length_append, List.length_singleton]))

/-- Bytes behind the header. -/
theorem readBytes_after (hf : f = pre ++ id :: len :: d) (n : ℕ) :
    readBytes f (pre.length + 2) n = if n ≤ d.length then .ok (d.take n) else .error .beyond := by
  have hf' : f = (pre ++ [id, len]) ++ d := by rw [hf, List.append_assoc]; rfl
  have hlen : (pre ++ [id, len]).length = pre.length + 2 := by rw [List.length_append]; rfl
  have htotal : f.length = pre.length + 2 + d.length := by rw [hf', List.length_append, hlen]
  by_cases hn : n ≤ d.length
  · have hin : Inside f (pre.length + 2) n := Or.inr (by omega)
    have hbytes : bytesAt f (pre.length + 2) n = d.take n := by
      rw [bytesAt, hf', ← hlen, List.drop_left]
    rw [if_pos hn, readBytes_of_inside hin, hbytes]
  · have hout : ¬ Inside f (pre.length + 2) n := by
      rw [Inside]
      omega
    rw [if_neg hn, readBytes_of_not_inside hout]

end reads

end Elements
