import Mathlib.Data.Nat.ModEq
import Mathlib.Data.List.Pairwise

/-!
# Serial numbers modulo `N`

Sequence numbers that wrap at a modulus are not ordered, but seen from a base
they are: `fwd N a b` is the number of increments that lead from `a` to `b`.
Every statement about a window of serial numbers is a statement about forward
distances from its base, and the lemmas here turn it into linear arithmetic.

* `fwd_unique`: the forward distance is the only number below `N` that leads
  from `a` to `b`.
* `fwd_trans`, `fwd_rebase`: moving the target or the base along the circle.
* `Sorted.rebase`: a list in increasing distance from one base is in increasing
  distance from every base it has not yet passed.
-/

namespace SerialNum

/-- The number of increments modulo `N` that lead from `a` to `b`. -/
def fwd (N a b : ℕ) : ℕ := (b + (N - a % N)) % N

variable {N a b c : ℕ}

theorem fwd_lt (hN : 0 < N) (a b : ℕ) : fwd N a b < N := Nat.mod_lt _ hN

theorem add_fwd (hN : 0 < N) (a b : ℕ) : (a + fwd N a b) % N = b % N := by
  unfold fwd
  have ha := Nat.mod_lt a hN
  have hd := Nat.mod_add_div a N
  rw [Nat.add_mod_mod, show a + (b + (N - a % N)) = b + N * (a / N) + N by omega,
    Nat.add_mod_right, Nat.add_mul_mod_self_left]

theorem fwd_unique {d : ℕ} (hd : d < N) (h : (a + d) % N = b % N) : fwd N a b = d := by
  have hN : 0 < N := by omega
  have h1 : (a + fwd N a b) ≡ (a + d) [MOD N] := (add_fwd hN a b).trans h.symm
  have h2 : fwd N a b ≡ d [MOD N] := Nat.ModEq.add_left_cancel' a h1
  exact Nat.ModEq.eq_of_lt_of_lt h2 (fwd_lt hN a b) hd

theorem fwd_self (hN : 0 < N) (a : ℕ) : fwd N a a = 0 := fwd_unique hN (by simp)

theorem eq_of_fwd_eq_zero (ha : a < N) (hb : b < N) (h : fwd N a b = 0) : a = b := by
  have := add_fwd (by omega : 0 < N) a b
  rw [h, Nat.add_zero, Nat.mod_eq_of_lt ha, Nat.mod_eq_of_lt hb] at this
  exact this

theorem fwd_eq_zero_iff (ha : a < N) (hb : b < N) : fwd N a b = 0 ↔ a = b :=
  ⟨eq_of_fwd_eq_zero ha hb, fun h => by rw [h, fwd_self (by omega)]⟩

/-- Two targets at the same distance from one base are equal. -/
theorem eq_of_fwd_eq (hb : b < N) (hc : c < N) (h : fwd N a b = fwd N a c) : b = c := by
  have h1 := add_fwd (by omega : 0 < N) a b
  have h2 := add_fwd (by omega : 0 < N) a c
  rw [h] at h1
  rw [h1, Nat.mod_eq_of_lt hb, Nat.mod_eq_of_lt hc] at h2
  exact h2

theorem fwd_trans (h : fwd N a b + fwd N b c < N) : fwd N a c = fwd N a b + fwd N b c := by
  have hN : 0 < N := by omega
  apply fwd_unique h
  calc (a + (fwd N a b + fwd N b c)) % N = ((a + fwd N a b) % N + fwd N b c) % N := by
        rw [Nat.mod_add_mod, Nat.add_assoc]
    _ = (b + fwd N b c) % N := by rw [add_fwd hN, Nat.mod_add_mod]
    _ = c % N := add_fwd hN b c

/-- Moving the base forward to a point not past the target. -/
theorem fwd_rebase (hN : 0 < N) (h : fwd N a b ≤ fwd N a c) :
    fwd N b c = fwd N a c - fwd N a b := by
  have hc := fwd_lt hN a c
  apply fwd_unique (by omega)
  calc (b + (fwd N a c - fwd N a b)) % N
      = (b % N + (fwd N a c - fwd N a b)) % N := by rw [Nat.mod_add_mod]
    _ = ((a + fwd N a b) + (fwd N a c - fwd N a b)) % N := by
        rw [← add_fwd hN a b, Nat.mod_add_mod]
    _ = (a + fwd N a c) % N := by
        rw [Nat.add_assoc, Nat.add_sub_cancel' h]
    _ = c % N := add_fwd hN a c

/-- The way back is the rest of the circle. -/
theorem fwd_swap (hN : 0 < N) (h : fwd N a b ≠ 0) : fwd N b a = N - fwd N a b := by
  have hb := fwd_lt hN a b
  apply fwd_unique (by omega)
  calc (b + (N - fwd N a b)) % N = (b % N + (N - fwd N a b)) % N := by rw [Nat.mod_add_mod]
    _ = ((a + fwd N a b) + (N - fwd N a b)) % N := by
        rw [← add_fwd hN a b, Nat.mod_add_mod]
    _ = (a + N) % N := by rw [Nat.add_assoc, Nat.add_sub_cancel' hb.le]
    _ = a % N := Nat.add_mod_right a N

theorem fwd_add_mod {k : ℕ} (hk : k < N) (a : ℕ) : fwd N a ((a + k) % N) = k :=
  fwd_unique hk (by simp)

/-- Distances from a base that was moved forward by `k`. -/
theorem fwd_advance (hN : 0 < N) {k : ℕ} (h : k ≤ fwd N a b) :
    fwd N ((a + k) % N) b = fwd N a b - k := by
  have hb := fwd_lt hN a b
  have hk := fwd_add_mod (show k < N by omega) a
  rw [fwd_rebase (a := a) hN (by omega), hk]

/-- Seen from `b`, a target `c` that lies before `b` is almost a full circle
    away. -/
theorem fwd_behind (hN : 0 < N) (h : fwd N a c < fwd N a b) :
    fwd N b c = N - (fwd N a b - fwd N a c) := by
  have h1 : fwd N c b = fwd N a b - fwd N a c := fwd_rebase hN h.le
  have hb := fwd_lt hN a b
  rw [fwd_swap hN (by omega), h1]

/-! ## Lists in increasing distance from a base -/

/-- The serial numbers of `l` lie in strictly increasing distance from `a`. -/
def Sorted (N a : ℕ) (l : List ℕ) : Prop := l.Pairwise fun x y => fwd N a x < fwd N a y

theorem Sorted.nil (N a : ℕ) : Sorted N a [] := List.Pairwise.nil

theorem sorted_cons {x : ℕ} {l : List ℕ} :
    Sorted N a (x :: l) ↔ (∀ y ∈ l, fwd N a x < fwd N a y) ∧ Sorted N a l :=
  List.pairwise_cons

theorem Sorted.sublist {l l' : List ℕ} (h : Sorted N a l) (hs : l'.Sublist l) :
    Sorted N a l' := List.Pairwise.sublist hs h

/-- Sortedness is kept by every base that the list has not yet passed. -/
theorem Sorted.rebase {l : List ℕ} (hN : 0 < N) (h : Sorted N a l)
    (hb : ∀ x ∈ l, fwd N a b ≤ fwd N a x) : Sorted N b l := by
  induction l with
  | nil => exact Sorted.nil N b
  | cons x l ih =>
    rw [sorted_cons] at h ⊢
    refine ⟨fun y hy => ?_, ih h.2 fun y hy => hb y (List.mem_cons_of_mem x hy)⟩
    have h1 := h.1 y hy
    have h2 := hb x List.mem_cons_self
    have h3 := hb y (List.mem_cons_of_mem x hy)
    rw [fwd_rebase hN h2, fwd_rebase hN h3]
    omega

theorem Sorted.nodup {l : List ℕ} (h : Sorted N a l) : l.Nodup :=
  List.Pairwise.imp (fun h' => fun e => by subst e; exact absurd h' (lt_irrefl _)) h

end SerialNum
