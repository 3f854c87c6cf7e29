import Mathlib.Data.List.Basic
import Mathlib.Data.List.GetD

/-!
# Buffers

A buffer is a list read by `getD`. `overwrite` copies a string into it, within
its bounds; the lemmas say what every later read returns.

* `overwrite_getD`: the copied string inside, the old content outside.
* `ext_getD`: buffers of one length with the same reads are equal.
* `overwrite_append`: a copy over a part of equal length replaces it.
-/

namespace Buffer

variable {α : Type*}

/-- `bs` copied over `mem` from `off` on, as far as `mem` reaches. -/
def overwrite (mem : List α) (off : ℕ) (bs : List α) : List α :=
  mem.take off ++ (bs.take (mem.length - off) ++ mem.drop (off + bs.length))

@[simp] theorem overwrite_length (mem : List α) (off : ℕ) (bs : List α) :
    (overwrite mem off bs).length = mem.length := by
  simp only [overwrite, List.length_append, List.length_take, List.length_drop]
  omega

theorem overwrite_getD (mem : List α) (off : ℕ) (bs : List α) (k : ℕ) (z : α) :
    (overwrite mem off bs).getD k z =
      if off ≤ k ∧ k < off + bs.length ∧ k < mem.length then bs.getD (k - off) z
      else mem.getD k z := by
  simp only [overwrite, List.getD_eq_getElem?_getD]
  rcases Nat.lt_or_ge k mem.length with h2 | h2
  · rcases Nat.lt_or_ge k off with h1 | h1
    · rw [if_neg (by omega), List.getElem?_append_left (by rw [List.length_take]; omega),
        List.getElem?_take_of_lt h1]
    · rw [List.getElem?_append_right (by rw [List.length_take]; omega), List.length_take,
        Nat.min_eq_left (by omega : off ≤ mem.length)]
      rcases Nat.lt_or_ge k (off + bs.length) with h3 | h3
      · rw [if_pos ⟨h1, h3, h2⟩, List.getElem?_append_left (by rw [List.length_take]; omega),
          List.getElem?_take_of_lt (by omega)]
      · rw [if_neg (by omega), List.getElem?_append_right (by rw [List.length_take]; omega),
          List.length_take, List.getElem?_drop]
        congr 2
        omega
  · rw [if_neg (by omega), List.getElem?_eq_none h2, List.getElem?_eq_none (by
      simp only [List.length_append, List.length_take, List.length_drop]; omega)]

theorem ext_getD {x y : List α} (z : α) (hl : x.length = y.length)
    (h : ∀ k < x.length, x.getD k z = y.getD k z) : x = y := by
  refine List.ext_getElem hl fun k h1 h2 => ?_
  have := h k h1
  rwa [List.getD_eq_getElem _ _ h1, List.getD_eq_getElem _ _ h2] at this

theorem getD_append_left {x y : List α} {z : α} {k : ℕ} (h : k < x.length) :
    (x ++ y).getD k z = x.getD k z := by
  rw [List.getD_eq_getElem?_getD, List.getElem?_append_left h, ← List.getD_eq_getElem?_getD]

theorem getD_append_right {x y : List α} {z : α} {k : ℕ} (h : x.length ≤ k) :
    (x ++ y).getD k z = y.getD (k - x.length) z := by
  rw [List.getD_eq_getElem?_getD, List.getElem?_append_right h, ← List.getD_eq_getElem?_getD]

/-- A copy over a part of equal length replaces it. -/
theorem overwrite_append {x y bs : List α} (w : List α) {off : ℕ} (hoff : x.length = off)
    (hy : y.length = bs.length) : overwrite (x ++ y ++ w) off bs = x ++ bs ++ w := by
  subst hoff
  rw [overwrite, List.append_assoc, List.take_left, List.drop_append, List.length_append,
    List.take_of_length_le (by simp only [List.length_append]; omega),
    List.drop_eq_nil_of_le (by omega), List.nil_append, Nat.add_sub_cancel_left, ← hy,
    List.drop_left, List.append_assoc]

end Buffer
