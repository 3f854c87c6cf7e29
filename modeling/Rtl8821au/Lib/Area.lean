import Rtl8821au.Lib.Buffer
import Rtl8821au.Lib.Checked

/-!
# Fields of a fixed size

A field is a list of its size. A copy that would leave it is a fault.

* `copyIn_of_le`, `copyIn_of_lt`: when it does not, and when it does.
* `take_put_zero`: what was copied to the beginning is there.
* `zero_put_put`: two copies into zeros, one behind the other.
* `copyIn_middle`, `copyIn_over`: a copy over a part of its length.
-/

namespace Checked

open Buffer

/-- `n` bytes of memory. -/
structure Area (n : ℕ) where
  bytes : List UInt8
  length_eq : bytes.length = n
  deriving DecidableEq, Repr

namespace Area

variable {n off : ℕ} {src : List UInt8}

theorem length_overwrite (a : Area n) (off : ℕ) (src : List UInt8) :
    (overwrite a.bytes off src).length = n := by
  rw [overwrite_length, a.length_eq]

/-- `memset(a, 0, n)`. -/
def zero (n : ℕ) : Area n := ⟨List.replicate n 0, List.length_replicate⟩

/-- What is there after `src` has been copied to `off`. -/
def put (a : Area n) (off : ℕ) (src : List UInt8) : Area n :=
  ⟨overwrite a.bytes off src, a.length_overwrite off src⟩

/-- `memcpy(a + off, src, length)`. -/
def copyIn (a : Area n) (off : ℕ) (src : List UInt8) : Except Fault (Area n) :=
  if off + src.length ≤ n then .ok (a.put off src) else .error .beyond

theorem copyIn_of_le (a : Area n) (h : off + src.length ≤ n) :
    a.copyIn off src = .ok (a.put off src) := if_pos h

theorem copyIn_of_lt (a : Area n) (h : n < off + src.length) :
    a.copyIn off src = .error .beyond := if_neg (Nat.not_le.mpr h)

theorem put_bytes (a : Area n) (off : ℕ) (src : List UInt8) :
    (a.put off src).bytes = overwrite a.bytes off src := rfl

@[simp] theorem put_nil (a : Area n) (off : ℕ) : a.put off [] = a := by
  have hsame : overwrite a.bytes off [] = a.bytes := by
    rw [overwrite, List.take_nil, List.nil_append, List.length_nil, Nat.add_zero,
      List.take_append_drop]
  rw [put]
  simp only [hsame]

/-- The beginning of a field that was written there. -/
theorem take_put_zero (a : Area n) (h : src.length ≤ n) :
    (a.put 0 src).bytes.take src.length = src := by
  rw [put_bytes, overwrite, List.take_zero, List.nil_append, Nat.sub_zero, a.length_eq,
    List.take_of_length_le h, List.take_left]

/-- Bytes at the beginning of a field of zeros. -/
theorem zero_put (h : src.length ≤ n) :
    ((zero n).put 0 src).bytes = src ++ List.replicate (n - src.length) 0 := by
  rw [put_bytes, overwrite, List.take_zero, List.nil_append, Nat.sub_zero, (zero n).length_eq,
    List.take_of_length_le h, Nat.zero_add, zero, List.drop_replicate]

/-- Two strings, the second one behind the first. -/
theorem zero_put_put {a b : List UInt8} (h : a.length + b.length ≤ n) :
    (((zero n).put 0 a).put a.length b).bytes =
      a ++ b ++ List.replicate (n - (a.length + b.length)) 0 := by
  have hb : b.length ≤ n - a.length := by omega
  rw [put_bytes, zero_put (by omega), overwrite, List.take_left, List.length_append,
    List.length_replicate, List.take_of_length_le (by omega), ← List.drop_drop, List.drop_left,
    List.drop_replicate, Nat.sub_sub, List.append_assoc]

/-- The part between two others is replaced. -/
theorem copyIn_middle {a : Area n} {x y z : List UInt8} (ha : a.bytes = x ++ (y ++ z))
    (hoff : x.length = off) (hlen : y.length = src.length) :
    ∃ b, a.copyIn off src = .ok b ∧ b.bytes = x ++ (src ++ z) := by
  have hroom : off + src.length ≤ n := by
    rw [← a.length_eq, ha, List.length_append, List.length_append]
    omega
  refine ⟨a.put off src, copyIn_of_le a hroom, ?_⟩
  rw [put_bytes, ha, ← List.append_assoc, overwrite_append z hoff hlen, List.append_assoc]

/-- What follows is overwritten, as far as the copy goes. -/
theorem copyIn_over {a : Area n} {x y : List UInt8} (ha : a.bytes = x ++ y)
    (hoff : x.length = off) (hroom : off + src.length ≤ n) :
    ∃ b, a.copyIn off src = .ok b ∧ b.bytes = x ++ (src ++ y.drop src.length) := by
  have hlen := a.length_eq
  rw [ha, List.length_append] at hlen
  have hy : (y.take src.length).length = src.length := by
    rw [List.length_take]
    omega
  exact copyIn_middle (by rw [ha, List.take_append_drop]) hoff hy

end Area

end Checked
