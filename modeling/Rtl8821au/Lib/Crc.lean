import Mathlib.Data.List.Basic

/-!
# Cyclic redundancy checks, low bit first

A reflected CRC of width `w` shifts its register right by one bit for every message bit and
adds the polynomial when the bit that leaves differs from the message bit. A table-driven
one takes `n` message bits in one step.

* `serial_bits`: `n` message bits may be added to the register first and shifted out
  together.
* `shifts_split`: what the low `n` bits do to the register and what the high ones do are
  independent.
* `tableFold_eq_serial`: a table of the `2 ^ n` low parts computes the bit-serial CRC.
-/

namespace Crc

variable {w n : ℕ} (poly : BitVec w)

/-- One message bit. -/
def bitStep (r : BitVec w) (b : Bool) : BitVec w :=
  if r.getLsbD 0 != b then r >>> 1 ^^^ poly else r >>> 1

/-- A string of message bits. -/
def serial (r : BitVec w) (bits : List Bool) : BitVec w :=
  bits.foldl (bitStep poly) r

/-- The low `n` bits of `x`, from the lowest on. -/
def bits : ℕ → BitVec w → List Bool
  | 0, _ => []
  | n + 1, x => x.getLsbD 0 :: bits n (x >>> 1)

/-- `n` message bits that are zero. -/
def shifts : ℕ → BitVec w → BitVec w
  | 0, r => r
  | n + 1, r => shifts n (bitStep poly r false)

/-- One step of the table-driven CRC. -/
def tableStep (table : BitVec n → BitVec w) (r : BitVec w) (p : BitVec n) : BitVec w :=
  table (r.setWidth n ^^^ p) ^^^ r >>> n

variable {poly} {r x : BitVec w}

/-- A message bit that is set changes the register by the polynomial. -/
theorem bitStep_eq (r : BitVec w) (b : Bool) :
    bitStep poly r b = bitStep poly r false ^^^ if b then poly else 0#w := by
  unfold bitStep
  have hcancel : r >>> 1 = r >>> 1 ^^^ poly ^^^ poly := by
    rw [BitVec.xor_assoc, BitVec.xor_self, BitVec.xor_zero]
  cases b <;> cases r.getLsbD 0 <;> simp [← hcancel]

/-- The step without message is linear. -/
theorem bitStep_xor (r s : BitVec w) :
    bitStep poly (r ^^^ s) false = bitStep poly r false ^^^ bitStep poly s false := by
  unfold bitStep
  rw [BitVec.getLsbD_xor, BitVec.ushiftRight_xor_distrib]
  have hcancel : r >>> 1 ^^^ s >>> 1 = r >>> 1 ^^^ poly ^^^ (s >>> 1 ^^^ poly) := by
    rw [BitVec.xor_assoc, BitVec.xor_comm (s >>> 1), ← BitVec.xor_assoc poly, BitVec.xor_self,
      BitVec.zero_xor]
  cases r.getLsbD 0 <;> cases s.getLsbD 0 <;>
    simp [← hcancel, BitVec.xor_assoc, BitVec.xor_comm poly]

theorem shifts_xor (n : ℕ) (r s : BitVec w) :
    shifts poly n (r ^^^ s) = shifts poly n r ^^^ shifts poly n s := by
  induction n generalizing r s with
  | zero => rfl
  | succ n ih => simp only [shifts, bitStep_xor, ih]

/-- A register without low bits only shifts. -/
theorem shifts_high (h : ∀ i < n, r.getLsbD i = false) : shifts poly n r = r >>> n := by
  induction n generalizing r with
  | zero => exact (BitVec.ushiftRight_zero r).symm
  | succ n ih =>
    have hstep : bitStep poly r false = r >>> 1 := by
      unfold bitStep
      rw [h 0 (Nat.succ_pos n)]
      rfl
    have hlow : ∀ i < n, (r >>> 1).getLsbD i = false := by
      intro i hi
      rw [BitVec.getLsbD_ushiftRight]
      exact h (1 + i) (by omega)
    rw [shifts, hstep, ih hlow, ← BitVec.shiftRight_add, Nat.add_comm]

/-- The low part and the high part of a register. -/
theorem low_xor_high (n : ℕ) (r : BitVec w) :
    (r.setWidth n).setWidth w ^^^ r >>> n <<< n = r := by
  apply BitVec.eq_of_getLsbD_eq
  intro i hi
  simp only [BitVec.getLsbD_xor, BitVec.getLsbD_setWidth, BitVec.getLsbD_shiftLeft,
    BitVec.getLsbD_ushiftRight]
  by_cases h : i < n
  · simp [h, hi]
  · simp [h, hi, Nat.add_sub_cancel' (Nat.le_of_not_lt h)]

theorem shifts_split (n : ℕ) (r : BitVec w) :
    shifts poly n r = shifts poly n ((r.setWidth n).setWidth w) ^^^ r >>> n := by
  have hlow : ∀ i < n, (r >>> n <<< n).getLsbD i = false := by
    intro i hi
    simp [BitVec.getLsbD_shiftLeft, hi]
  have hhigh : r >>> n <<< n >>> n = r >>> n := by
    apply BitVec.eq_of_getLsbD_eq
    intro i hi
    simp only [BitVec.getLsbD_ushiftRight, BitVec.getLsbD_shiftLeft]
    by_cases h : n + i < w
    · simp [h]
    · simp [h, BitVec.getLsbD_of_ge r (n + i) (by omega)]
  conv => lhs; rw [← low_xor_high n r]
  rw [shifts_xor, shifts_high hlow, hhigh]

/-- Message bits may be added to the register before it is shifted. -/
theorem serial_bits (h : ∀ i, n ≤ i → x.getLsbD i = false) :
    serial poly r (bits n x) = shifts poly n (r ^^^ x) := by
  induction n generalizing r x with
  | zero =>
    have hx : x = 0#w := by
      apply BitVec.eq_of_getLsbD_eq
      intro i _
      rw [h i (Nat.zero_le i), BitVec.getLsbD_zero]
    rw [hx, BitVec.xor_zero]
    rfl
  | succ n ih =>
    have hx : ∀ i, n ≤ i → (x >>> 1).getLsbD i = false := by
      intro i hi
      rw [BitVec.getLsbD_ushiftRight]
      exact h (1 + i) (by omega)
    have hstep : bitStep poly (r ^^^ x) false = bitStep poly r (x.getLsbD 0) ^^^ x >>> 1 := by
      rw [bitStep_xor, bitStep_eq r (x.getLsbD 0), BitVec.xor_assoc]
      congr 1
      unfold bitStep
      cases x.getLsbD 0 <;> simp [BitVec.xor_comm]
    rw [shifts, hstep, ← ih hx]
    rfl

/-- The bits of a string of `n`-bit digits. -/
def bitsOf (w : ℕ) (ps : List (BitVec n)) : List Bool :=
  ps.flatMap fun p => bits n (p.setWidth w)

/-- One step of the table-driven CRC takes `n` bits. -/
theorem tableStep_eq {table : BitVec n → BitVec w} (hn : n ≤ w)
    (htable : ∀ i, table i = shifts poly n (i.setWidth w)) (r : BitVec w) (p : BitVec n) :
    tableStep table r p = serial poly r (bits n (p.setWidth w)) := by
  have hp : ∀ i, n ≤ i → (p.setWidth w).getLsbD i = false := by
    intro i hi
    rw [BitVec.getLsbD_setWidth, BitVec.getLsbD_of_ge p i hi, Bool.and_false]
  have hlow : (r ^^^ p.setWidth w).setWidth n = r.setWidth n ^^^ p := by
    rw [BitVec.setWidth_xor, BitVec.setWidth_setWidth_of_le p hn, BitVec.setWidth_eq]
  have hhigh : (p.setWidth w) >>> n = 0#w := by
    apply BitVec.eq_of_getLsbD_eq
    intro i _
    rw [BitVec.getLsbD_ushiftRight, hp (n + i) (by omega), BitVec.getLsbD_zero]
  rw [serial_bits hp, shifts_split, hlow, BitVec.ushiftRight_xor_distrib, hhigh, BitVec.xor_zero,
    ← htable]
  rfl

/-- A table of the shifted digits computes the bit-serial CRC. -/
theorem tableFold_eq_serial {table : BitVec n → BitVec w} (hn : n ≤ w)
    (htable : ∀ i, table i = shifts poly n (i.setWidth w)) (r : BitVec w) (ps : List (BitVec n)) :
    ps.foldl (tableStep table) r = serial poly r (bitsOf w ps) := by
  induction ps generalizing r with
  | nil => rfl
  | cons p ps ih =>
    rw [List.foldl_cons, ih, tableStep_eq hn htable]
    exact List.foldl_append.symm

end Crc
