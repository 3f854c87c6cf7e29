import Mathlib.Algebra.Group.Nat.Defs
import Mathlib.Data.Nat.Init

/-!
# Fields of a register

A field is a run of bits of a register of `w` bits; its mask has ones there. The words with which
registers are read and written may be wider.

* `getLsbD_mask`, `getLsbD_extract`: the mask and the value of a field, bit by bit.
* `insert_inside`, `insert_outside`: a write that masks the data.
* `overlay_inside`, `overlay_above`, `overlay_below`: one that does not.
* `extract_of_inside`: a field that has the bits of a word has its value modulo `2 ^ width`.
-/

namespace BitField

/-- A run of bits, at least one, of a register of `w` bits. -/
structure Field (w : ℕ) where
  shift : ℕ
  width : ℕ
  pos : 0 < width
  fits : shift + width ≤ w
  deriving DecidableEq, Repr

variable {v w : ℕ} (f : Field w)

/-- The bits of the field. -/
def Field.Has (i : ℕ) : Prop := f.shift ≤ i ∧ i < f.shift + f.width

instance (i : ℕ) : Decidable (f.Has i) := inferInstanceAs (Decidable (_ ∧ _))

def Field.mask (v : ℕ) : BitVec v := (BitVec.allOnes f.width).setWidth v <<< f.shift

/-- The value of the field in a word. -/
def extract (x : BitVec v) : BitVec v := (x &&& f.mask v) >>> f.shift

/-- The field in `x` replaced by `d`. -/
def insert (x d : BitVec v) : BitVec v := (x &&& ~~~ f.mask v) ||| ((d <<< f.shift) &&& f.mask v)

/-- The field in `x` cleared, and all of `d` laid over it. -/
def overlay (x d : BitVec v) : BitVec v := (x &&& ~~~ f.mask v) ||| (d <<< f.shift)

variable {f}

theorem getLsbD_mask (h : w ≤ v) (i : ℕ) : (f.mask v).getLsbD i = decide (f.Has i) := by
  have hfits := f.fits
  simp only [Field.mask, Field.Has, BitVec.getLsbD_shiftLeft, BitVec.getLsbD_setWidth,
    BitVec.getLsbD_allOnes]
  by_cases hlow : i < f.shift
  · simp [hlow, Nat.not_le.mpr hlow]
  · by_cases hhigh : i < f.shift + f.width
    · simp [hlow, hhigh, Nat.not_lt.mp hlow, show i < v by omega, show i - f.shift < v by omega,
        show i - f.shift < f.width by omega]
    · simp [hhigh, show ¬ i - f.shift < f.width by omega]

theorem getLsbD_extract (h : w ≤ v) (x : BitVec v) (i : ℕ) :
    (extract f x).getLsbD i = (decide (i < f.width) && x.getLsbD (f.shift + i)) := by
  rw [extract, BitVec.getLsbD_ushiftRight, BitVec.getLsbD_and, getLsbD_mask h, Bool.and_comm]
  congr 1
  refine decide_eq_decide.mpr ⟨fun hhas => ?_, fun hlt => ⟨Nat.le_add_right _ _, ?_⟩⟩
  · exact Nat.lt_of_add_lt_add_left hhas.2
  · exact Nat.add_lt_add_left hlt _

/-- A field that has the bits of `d` has its value, as far as the field is wide. -/
theorem extract_of_inside {u : ℕ} (h : w ≤ v) {x : BitVec v} {d : BitVec u}
    (hin : ∀ i < f.width, x.getLsbD (f.shift + i) = d.getLsbD i) :
    (extract f x).toNat = d.toNat % 2 ^ f.width := by
  refine Nat.eq_of_testBit_eq fun i => ?_
  rw [Nat.testBit_mod_two_pow, BitVec.testBit_toNat, BitVec.testBit_toNat, getLsbD_extract h]
  by_cases hlt : i < f.width
  · rw [hin i hlt]
  · rw [decide_eq_false hlt, Bool.false_and, Bool.false_and]

/-! ## Writes -/

section writes

variable (h : w ≤ v) (x d : BitVec v) {i : ℕ}
include h

theorem getLsbD_insert (hv : i < v) : (insert f x d).getLsbD i =
    if f.Has i then d.getLsbD (i - f.shift) else x.getLsbD i := by
  simp only [insert, BitVec.getLsbD_or, BitVec.getLsbD_and, BitVec.getLsbD_not,
    BitVec.getLsbD_shiftLeft, getLsbD_mask h, decide_eq_true hv, Bool.true_and]
  by_cases hhas : f.Has i
  · rw [if_pos hhas, decide_eq_true hhas, decide_eq_false (Nat.not_lt.mpr hhas.1)]
    simp
  · rw [if_neg hhas, decide_eq_false hhas]
    simp

theorem getLsbD_overlay (hv : i < v) : (overlay f x d).getLsbD i =
    (!decide (f.Has i) && x.getLsbD i || !decide (i < f.shift) && d.getLsbD (i - f.shift)) := by
  simp only [overlay, BitVec.getLsbD_or, BitVec.getLsbD_and, BitVec.getLsbD_not,
    BitVec.getLsbD_shiftLeft, getLsbD_mask h, decide_eq_true hv, Bool.true_and]
  rw [Bool.and_comm]

theorem insert_inside (hi : i < f.width) :
    (insert f x d).getLsbD (f.shift + i) = d.getLsbD i := by
  have hfits := f.fits
  rw [getLsbD_insert h x d (by omega), if_pos ⟨Nat.le_add_right _ _, Nat.add_lt_add_left hi _⟩,
    Nat.add_sub_cancel_left]

theorem insert_outside (hi : ¬ f.Has i) : (insert f x d).getLsbD i = x.getLsbD i := by
  by_cases hv : i < v
  · rw [getLsbD_insert h x d hv, if_neg hi]
  · rw [BitVec.getLsbD_of_ge _ _ (Nat.not_lt.mp hv), BitVec.getLsbD_of_ge _ _ (Nat.not_lt.mp hv)]

theorem overlay_inside (hi : i < f.width) :
    (overlay f x d).getLsbD (f.shift + i) = d.getLsbD i := by
  have hfits := f.fits
  have hhas : f.Has (f.shift + i) := ⟨Nat.le_add_right _ _, Nat.add_lt_add_left hi _⟩
  rw [getLsbD_overlay h x d (by omega), decide_eq_true hhas,
    decide_eq_false (Nat.not_lt.mpr hhas.1), Nat.add_sub_cancel_left]
  rfl

/-- Above the field the rest of `d` is laid over `x`. -/
theorem overlay_above (hi : f.shift + f.width ≤ i) (hv : i < v) :
    (overlay f x d).getLsbD i = (x.getLsbD i || d.getLsbD (i - f.shift)) := by
  have hhas : ¬ f.Has i := fun hhas => absurd hhas.2 (Nat.not_lt.mpr hi)
  rw [getLsbD_overlay h x d hv, decide_eq_false hhas,
    decide_eq_false (Nat.not_lt.mpr (Nat.le_trans (Nat.le_add_right _ _) hi))]
  rfl

theorem overlay_below (hi : i < f.shift) : (overlay f x d).getLsbD i = x.getLsbD i := by
  have hfits := f.fits
  have hhas : ¬ f.Has i := fun hhas => absurd hhas.1 (Nat.not_le.mpr hi)
  rw [getLsbD_overlay h x d (by omega), decide_eq_false hhas, decide_eq_true hi]
  exact Bool.or_false _

end writes

end BitField
