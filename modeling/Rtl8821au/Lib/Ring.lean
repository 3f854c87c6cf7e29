import Mathlib.Data.List.Basic
import Mathlib.Data.Nat.ModEq
import Mathlib.Logic.Function.Basic

/-!
# Rings of slots with valid bits

A producer fills the slots of a ring in rotation, a consumer empties them in rotation.
They share no index: a slot is handed over by its valid bit. What a slot holds is a
relation, so that a slot may be filled in several steps before its bit is set.

* `Holds`: the valid slots hold a queue, from the index of the consumer on.
* `Holds.put`, `Holds.scratch`: the producer hands over a slot, or works on a free one.
* `Holds.head`, `Holds.take`: the consumer finds the oldest item, and gives its slot back.
-/

namespace Ring

variable {β : Type*} {n r w : ℕ} {full : ℕ → Bool} {C C' : ℕ → β → Prop} {q : List β} {x : β}

/-- The valid slots of a ring of `n` are the `q.length` slots from `r` on; slot `r + k`
    holds item `k` of `q`, and the next slot to fill is `w`. -/
structure Holds (n r w : ℕ) (full : ℕ → Bool) (C : ℕ → β → Prop) (q : List β) : Prop where
  read_lt : r < n
  length_le : q.length ≤ n
  write_eq : w = (r + q.length) % n
  full_eq : ∀ k < n, full ((r + k) % n) = decide (k < q.length)
  slot : ∀ k (h : k < q.length), C ((r + k) % n) q[k]

/-- Different distances from `r` lead to different slots. -/
theorem slot_inj {k j : ℕ} (hk : k < n) (hj : j < n) (h : (r + k) % n = (r + j) % n) : k = j :=
  Nat.ModEq.eq_of_lt_of_lt (Nat.ModEq.add_left_cancel' r h) hk hj

theorem slot_succ (k : ℕ) : ((r + 1) % n + k) % n = (r + (k + 1)) % n := by
  rw [Nat.mod_add_mod, Nat.add_assoc, Nat.add_comm 1 k]

theorem holds_nil (hr : r < n) (hfull : ∀ i < n, full i = false) : Holds n r r full C [] where
  read_lt := hr
  length_le := Nat.zero_le n
  write_eq := (Nat.mod_eq_of_lt hr).symm
  full_eq _ _ := hfull _ (Nat.mod_lt _ (Nat.zero_lt_of_lt hr))
  slot _ hk := absurd hk (Nat.not_lt_zero _)

theorem Holds.full_read (h : Holds n r w full C q) : full r = decide (0 < q.length) := by
  have hfull := h.full_eq 0 (Nat.zero_lt_of_lt h.read_lt)
  rwa [Nat.add_zero, Nat.mod_eq_of_lt h.read_lt] at hfull

theorem Holds.eq_nil (h : Holds n r w full C q) (hfree : full r = false) : q = [] := by
  rw [h.full_read] at hfree
  apply List.eq_nil_of_length_eq_zero
  simpa using hfree

/-- A free slot at the index of the producer means that there is room. -/
theorem Holds.length_lt (h : Holds n r w full C q) (hfree : full w = false) : q.length < n := by
  apply Nat.lt_of_le_of_ne h.length_le
  intro hlen
  have hw : w = r := by
    rw [h.write_eq, hlen, Nat.add_mod_right, Nat.mod_eq_of_lt h.read_lt]
  rw [hw, h.full_read, hlen] at hfree
  have hpos := Nat.zero_lt_of_lt h.read_lt
  simp [hpos] at hfree

/-- No queued item is in the slot of the producer while that slot is free. -/
theorem Holds.slot_ne (h : Holds n r w full C q) (hfree : full w = false) {k : ℕ}
    (hk : k < q.length) : (r + k) % n ≠ w := by
  intro hkw
  have hroom := h.length_lt hfree
  rw [h.write_eq] at hkw
  have := slot_inj (by omega) hroom hkw
  omega

/-- The producer works on its free slot. -/
theorem Holds.scratch (h : Holds n r w full C q) (hfree : full w = false)
    (hC : ∀ i < n, i ≠ w → ∀ y, C i y → C' i y) : Holds n r w full C' q where
  read_lt := h.read_lt
  length_le := h.length_le
  write_eq := h.write_eq
  full_eq := h.full_eq
  slot k hk := hC _ (Nat.mod_lt _ (Nat.zero_lt_of_lt h.read_lt)) (h.slot_ne hfree hk) _
    (h.slot k hk)

/-- The producer hands its slot over. -/
theorem Holds.put (h : Holds n r w full C q) (hfree : full w = false) (hx : C w x) :
    Holds n r ((w + 1) % n) (Function.update full w true) C (q ++ [x]) where
  read_lt := h.read_lt
  length_le := by
    have hroom := h.length_lt hfree
    rw [List.length_append, List.length_singleton]
    omega
  write_eq := by
    rw [List.length_append, List.length_singleton, h.write_eq, Nat.mod_add_mod, Nat.add_assoc]
  full_eq k hk := by
    have hroom := h.length_lt hfree
    rw [List.length_append, List.length_singleton]
    by_cases hkq : k = q.length
    · rw [hkq, ← h.write_eq, Function.update_self]
      simp
    · have hne : (r + k) % n ≠ w := by
        rw [h.write_eq]
        exact fun heq => hkq (slot_inj hk hroom heq)
      rw [Function.update_of_ne hne, h.full_eq k hk]
      have hiff : k < q.length ↔ k < q.length + 1 := by omega
      simp only [hiff]
  slot k hk := by
    rw [List.length_append, List.length_singleton] at hk
    by_cases hkq : k < q.length
    · rw [List.getElem_append_left hkq]
      exact h.slot k hkq
    · have hlast : k = q.length := by omega
      subst hlast
      rw [List.getElem_concat_length rfl, ← h.write_eq]
      exact hx

/-- The consumer finds the oldest item in its slot. -/
theorem Holds.head (h : Holds n r w full C q) (hfull : full r = true) :
    ∃ x rest, q = x :: rest ∧ C r x := by
  cases q with
  | nil =>
    rw [h.full_read] at hfull
    simp at hfull
  | cons x rest =>
    have hslot := h.slot 0 (Nat.zero_lt_succ _)
    rw [Nat.add_zero, Nat.mod_eq_of_lt h.read_lt] at hslot
    exact ⟨x, rest, rfl, hslot⟩

/-- The consumer gives its slot back. -/
theorem Holds.take (h : Holds n r w full C (x :: q)) :
    Holds n ((r + 1) % n) w (Function.update full r false) C q where
  read_lt := Nat.mod_lt _ (Nat.zero_lt_of_lt h.read_lt)
  length_le := Nat.le_of_succ_le h.length_le
  write_eq := by
    rw [slot_succ]
    exact h.write_eq
  full_eq k hk := by
    have hlen : q.length + 1 ≤ n := h.length_le
    rw [slot_succ]
    by_cases hkn : k + 1 < n
    · have hne : (r + (k + 1)) % n ≠ r := by
        intro heq
        have h0 : (r + (k + 1)) % n = (r + 0) % n := by
          rw [heq, Nat.add_zero, Nat.mod_eq_of_lt h.read_lt]
        exact absurd (slot_inj hkn (Nat.zero_lt_of_lt h.read_lt) h0) (Nat.succ_ne_zero k)
      rw [Function.update_of_ne hne, h.full_eq (k + 1) hkn, List.length_cons]
      simp
    · -- the slot behind the others is the one given back
      have hkn' : k + 1 = n := by omega
      rw [hkn', Nat.add_mod_right, Nat.mod_eq_of_lt h.read_lt, Function.update_self]
      have hnot : ¬ k < q.length := by omega
      simp [hnot]
  slot k hk := by
    rw [slot_succ]
    exact h.slot (k + 1) (Nat.succ_lt_succ hk)

end Ring
