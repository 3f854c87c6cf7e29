import Mathlib.Data.List.Basic

/-!
# Shift registers

A register of `w` bits takes one bit at a time at its low end. It holds the last `w` of them,
the latest first.

* `tracks_push`: the register keeps up with the bits.
* `countP_range_of_tracks`: a count over its low end counts the last bits.
-/

namespace ShiftRegister

variable {w : ℕ}

/-- The bits of the register are the bits of `hist`, the latest first. -/
def Tracks (m : BitVec w) (hist : List Bool) : Prop := ∀ i < w, m.getLsbD i = hist.getD i false

def push (m : BitVec w) (b : Bool) : BitVec w := m <<< 1 ||| (BitVec.ofBool b).setWidth w

theorem getLsbD_push (m : BitVec w) (b : Bool) {i : ℕ} (hi : i < w) :
    (push m b).getLsbD i = if i = 0 then b else m.getLsbD (i - 1) := by
  unfold push
  rw [BitVec.getLsbD_or, BitVec.getLsbD_shiftLeft, BitVec.getLsbD_setWidth]
  split
  case isTrue h => simp [h, show 0 < w by omega]
  case isFalse h => simp [h, hi, BitVec.getLsbD_ofBool]

theorem tracks_zero : Tracks (0 : BitVec w) [] := fun i _ => by simp

theorem tracks_push {m : BitVec w} {hist : List Bool} (h : Tracks m hist) (b : Bool) :
    Tracks (push m b) (b :: hist) := by
  intro i hi
  rw [getLsbD_push m b hi]
  cases i with
  | zero => rfl
  | succ i => exact h i (by omega)

theorem countP_range_getD (hist : List Bool) {k : ℕ} (hk : k ≤ hist.length) :
    (List.range k).countP (fun i => hist.getD i false) = (hist.take k).count true := by
  induction k with
  | zero => rfl
  | succ k ih =>
    have hlt : k < hist.length := by omega
    rw [List.range_succ, List.countP_append, ih (by omega), List.take_succ_eq_append_getElem hlt,
      List.count_append]
    simp [List.getD_eq_getElem?_getD, hlt, List.count_singleton, List.countP_singleton]

theorem countP_range_of_tracks {m : BitVec w} {hist : List Bool} (h : Tracks m hist) {k : ℕ}
    (hw : k ≤ w) (hk : k ≤ hist.length) :
    (List.range k).countP (fun i => m.getLsbD i) = (hist.take k).count true := by
  rw [← countP_range_getD hist hk]
  apply List.countP_congr
  intro i hi
  rw [h i (by have := List.mem_range.mp hi; omega)]

end ShiftRegister
