import Mathlib.Data.List.Basic

/-!
# Absorbing a message block by block

A machine that consumes blocks of `n` elements is fed single elements: they collect in a
buffer, and a full buffer is consumed. How the message is cut into pieces does not matter.

* `feed_blocks`: a message of whole blocks is consumed block by block.
* `feed_buffer_length`: the buffer holds what does not fill a block.
-/

namespace Absorb

variable {σ α : Type*} (n : ℕ) (step : σ → List α → σ)

/-- One element. -/
def push (s : σ × List α) (a : α) : σ × List α :=
  if s.2.length + 1 < n then (s.1, s.2 ++ [a]) else (step s.1 (s.2 ++ [a]), [])

/-- A piece of the message. -/
def feed (s : σ × List α) (xs : List α) : σ × List α := xs.foldl (push n step) s

/-- The first `k` blocks of a message. -/
def blocks (n : ℕ) : ℕ → List α → List (List α)
  | 0, _ => []
  | k + 1, xs => xs.take n :: blocks n k (xs.drop n)

variable {n step} {s : σ} {buf xs : List α}

theorem feed_append (t : σ × List α) (xs ys : List α) :
    feed n step t (xs ++ ys) = feed n step (feed n step t xs) ys := List.foldl_append

/-- What does not fill the buffer stays in it. -/
theorem feed_short (h : buf.length + xs.length < n) :
    feed n step (s, buf) xs = (s, buf ++ xs) := by
  induction xs generalizing buf with
  | nil => rw [List.append_nil]; rfl
  | cons a xs ih =>
    rw [List.length_cons] at h
    have hpush : push n step (s, buf) a = (s, buf ++ [a]) := by
      unfold push
      rw [if_pos (by show buf.length + 1 < n; omega)]
    have hrest : (buf ++ [a]).length + xs.length < n := by
      rw [List.length_append, List.length_singleton]
      omega
    show feed n step (push n step (s, buf) a) xs = _
    rw [hpush, ih hrest, List.append_assoc, List.singleton_append]

/-- What fills the buffer is consumed with it. -/
theorem feed_full (h : buf.length + xs.length = n) (hxs : xs ≠ []) :
    feed n step (s, buf) xs = (step s (buf ++ xs), []) := by
  obtain ⟨ys, a, rfl⟩ : ∃ ys a, xs = ys ++ [a] :=
    ⟨xs.dropLast, xs.getLast hxs, (List.dropLast_append_getLast hxs).symm⟩
  rw [List.length_append, List.length_singleton] at h
  have hlast : ¬ (buf ++ ys).length + 1 < n := by
    rw [List.length_append]
    omega
  have hys : feed n step (s, buf) ys = (s, buf ++ ys) := feed_short (by omega)
  rw [feed_append, hys]
  show push n step (s, buf ++ ys) a = _
  unfold push
  rw [if_neg hlast, List.append_assoc]

theorem feed_blocks (hn : 0 < n) {k : ℕ} (h : xs.length = n * k) :
    feed n step (s, []) xs = ((blocks n k xs).foldl step s, []) := by
  induction k generalizing s xs with
  | zero =>
    rw [List.length_eq_zero_iff.mp h]
    rfl
  | succ k ih =>
    rw [Nat.mul_succ] at h
    have htake : (xs.take n).length = n := by
      rw [List.length_take]
      omega
    have hne : xs.take n ≠ [] := by
      intro hnil
      rw [hnil, List.length_nil] at htake
      omega
    have hdrop : (xs.drop n).length = n * k := by
      rw [List.length_drop]
      omega
    conv => lhs; rw [← List.take_append_drop n xs]
    rw [feed_append, feed_full (by rw [htake, List.length_nil, Nat.zero_add]) hne, ih hdrop]
    rfl

variable (step) in
theorem push_buffer_length (t : σ × List α) (ht : t.2.length < n) (a : α) :
    (push n step t a).2.length = (t.2.length + 1) % n := by
  unfold push
  split
  · rename_i h
    rw [List.length_append, List.length_singleton, Nat.mod_eq_of_lt h]
  · rw [show t.2.length + 1 = n by omega, Nat.mod_self]
    rfl

theorem feed_buffer_length (hn : 0 < n) (t : σ × List α) (ht : t.2.length < n) (xs : List α) :
    (feed n step t xs).2.length = (t.2.length + xs.length) % n := by
  induction xs generalizing t with
  | nil => exact (Nat.mod_eq_of_lt ht).symm
  | cons a xs ih =>
    have hpush := push_buffer_length step t ht a
    have hlt : (push n step t a).2.length < n := by
      rw [hpush]
      exact Nat.mod_lt _ hn
    show (feed n step (push n step t a) xs).2.length = _
    rw [ih _ hlt, hpush, Nat.mod_add_mod, List.length_cons]
    congr 1
    omega

end Absorb
