import Mathlib.Data.List.Basic
import Mathlib.Tactic.SplitIfs

/-!
# Fields of fixed size and what is stored to them

A field has a size, and there is memory behind it. A log lists the bytes that were stored, the
last one first, each with its field and its index; what a field holds follows from the log and
from what it held before.

* `safe_put`, `safe_fill`, `safe_copy`: when stores stay inside their fields.
* `load_of_safe`: then nothing behind a field has changed.
* `visit_iff`: a property of the state that a loop over elements keeps.
-/

namespace Stores

/-- What was stored: the field, the index and the byte. -/
abbrev Log (δ : Type) := List (δ × ℕ × UInt8)

section log

variable {δ : Type} (size : δ → ℕ)

/-- What a field holds at an index; `old` is what it held before. -/
def Log.load [DecidableEq δ] (l : Log δ) (old : δ → ℕ → UInt8) (d : δ) (i : ℕ) : UInt8 :=
  match l.find? fun w => w.1 = d ∧ w.2.1 = i with
  | some w => w.2.2
  | none => old d i

/-- `d[i] = v`. -/
def Log.put (l : Log δ) (d : δ) (i : ℕ) (v : UInt8) : Log δ := (d, i, v) :: l

/-- `for (k = 0; k < n; k++) d[off + k] = v(k)`, where `v` looks at what has been stored. -/
def Log.fill (l : Log δ) (d : δ) (off : ℕ) (v : Log δ → ℕ → UInt8) : ℕ → Log δ
  | 0 => l
  | n + 1 =>
    let l' := l.fill d off v n
    l'.put d (off + n) (v l' n)

/-- `memcpy(d + off, src, n)`. -/
def Log.copy (l : Log δ) (d : δ) (off : ℕ) (src : ℕ → UInt8) (n : ℕ) : Log δ :=
  l.fill d off (fun _ => src) n

/-- Every index is inside its field. -/
def Log.Safe (l : Log δ) : Prop := ∀ w ∈ l, w.2.1 < size w.1

instance (l : Log δ) : Decidable (l.Safe size) := inferInstanceAs (Decidable (∀ w ∈ l, _))

/-- `n` bytes from `off` on are inside the field. -/
def Room (d : δ) (off n : ℕ) : Prop := n = 0 ∨ off + n ≤ size d

instance (d : δ) (off n : ℕ) : Decidable (Room size d off n) :=
  inferInstanceAs (Decidable (_ ∨ _))

variable {size} {l : Log δ} {d : δ} {off n : ℕ}

@[simp] theorem safe_nil : Log.Safe size ([] : Log δ) := fun _ h => absurd h List.not_mem_nil

theorem safe_put {i : ℕ} {v : UInt8} : (l.put d i v).Safe size ↔ l.Safe size ∧ i < size d := by
  rw [Log.Safe, Log.put, List.forall_mem_cons, and_comm]
  rfl

@[simp] theorem room_zero : Room size d off 0 := Or.inl rfl

theorem room_succ : Room size d off (n + 1) ↔ Room size d off n ∧ off + n < size d := by
  rw [Room, Room]
  omega

theorem room_of_le (h : off + n ≤ size d) : Room size d off n := Or.inr h

theorem room_start : Room size d 0 n ↔ n ≤ size d := by
  rw [Room]
  omega

theorem safe_fill {v : Log δ → ℕ → UInt8} :
    (l.fill d off v n).Safe size ↔ l.Safe size ∧ Room size d off n := by
  induction n with
  | zero => exact (and_iff_left room_zero).symm
  | succ n ih =>
    rw [Log.fill, safe_put, ih, room_succ, and_assoc]

theorem safe_copy {src : ℕ → UInt8} :
    (l.copy d off src n).Safe size ↔ l.Safe size ∧ Room size d off n := safe_fill

/-- Stores inside the fields leave the memory behind them as it was. -/
theorem load_of_safe [DecidableEq δ] {old : δ → ℕ → UInt8} {i : ℕ} (h : l.Safe size) (hi : size d ≤ i) :
    l.load old d i = old d i := by
  have hnone : l.find? (fun w => w.1 = d ∧ w.2.1 = i) = none := by
    rw [List.find?_eq_none]
    intro w hw heq
    obtain ⟨rfl, rfl⟩ := of_decide_eq_true heq
    exact absurd (h w hw) (Nat.not_lt.mpr hi)
  rw [Log.load, hnone]

end log

/-! ## Loops over elements in memory -/

section visit

variable {σ : Type} (step : σ → ℕ → σ) (m : ℕ → UInt8) (bound : ℕ)

/-- `for (i = ...; i < bound;) { step; i += length + 2; }`; the length is behind the id. -/
def visit : ℕ → σ → ℕ → σ
  | 0, s, _ => s
  | fuel + 1, s, i =>
    if i < bound then visit fuel (step s i) (i + ((m (i + 1)).toNat + 2)) else s

/-- The places of the elements that the loop comes to. -/
def places : ℕ → ℕ → List ℕ
  | 0, _ => []
  | fuel + 1, i => if i < bound then i :: places fuel (i + ((m (i + 1)).toNat + 2)) else []

variable {step m bound}

/-- A property that a step keeps under a condition on the place. -/
theorem visit_iff {p : σ → Prop} {q : ℕ → Prop} (hstep : ∀ s i, p (step s i) ↔ p s ∧ q i)
    {fuel i : ℕ} {s : σ} :
    p (visit step m bound fuel s i) ↔ p s ∧ ∀ j ∈ places m bound fuel i, q j := by
  induction fuel generalizing s i with
  | zero =>
    exact (and_iff_left fun j hj => absurd hj List.not_mem_nil).symm
  | succ fuel ih =>
    rw [visit, places]
    split_ifs
    · rw [ih, hstep, List.forall_mem_cons, and_assoc]
    · exact (and_iff_left fun j hj => absurd hj List.not_mem_nil).symm

/-- The loop ends: as many rounds as the bound are enough. -/
theorem visit_enough {fuel fuel' i : ℕ} {s : σ} (h : bound ≤ fuel + i) (h' : bound ≤ fuel' + i) :
    visit step m bound fuel s i = visit step m bound fuel' s i := by
  induction fuel generalizing fuel' s i with
  | zero =>
    cases fuel' with
    | zero => rfl
    | succ fuel' => rw [visit, visit, if_neg (by omega)]
  | succ fuel ih =>
    cases fuel' with
    | zero => rw [visit, visit, if_neg (by omega)]
    | succ fuel' =>
      rw [visit, visit]
      split_ifs
      · exact ih (by omega) (by omega)
      · rfl

end visit

end Stores
