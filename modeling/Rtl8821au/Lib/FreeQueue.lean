import Mathlib.Data.List.Nodup
import Mathlib.Data.List.Perm.Lattice

/-!
# Free queues

A pool whose free members wait in a queue with a counter: the first one is taken, and one
that comes back goes to the end.

* `alloc`, `free`: one member is taken and given back.
* `Keeps`: in the queue is what is not out, once, and the counter is its length.
* `Keeps.alloc`, `Keeps.free`: a member goes out and comes back.
* `Keeps.drained`: when nothing is out the queue holds the whole pool.
-/

/-- The free members of a pool and their counter. -/
structure FreeQueue (α : Type*) where
  queue : List α
  cnt : ℕ
  deriving DecidableEq, Repr

namespace FreeQueue

variable {α : Type*} {q q' : FreeQueue α} {dom out out' : α → Prop} {x y : α}

/-- The first free member. -/
def alloc (q : FreeQueue α) : Option (α × FreeQueue α) :=
  match q.queue with
  | [] => none
  | x :: rest => some (x, ⟨rest, q.cnt - 1⟩)

/-- The pool `dom` with the members `out` in use. -/
structure Keeps (q : FreeQueue α) (dom out : α → Prop) : Prop where
  nodup : q.queue.Nodup
  mem : ∀ x, x ∈ q.queue ↔ dom x ∧ ¬out x
  dom : ∀ x, out x → dom x
  cnt : q.cnt = q.queue.length

theorem alloc_none : q.alloc = none ↔ q.queue = [] := by
  unfold alloc
  split
  · exact iff_of_true rfl ‹_›
  · rename_i h
    rw [h]
    exact iff_of_false (by simp) (by simp)

theorem alloc_some (h : q.alloc = some (x, q')) :
    q.queue = x :: q'.queue ∧ q'.cnt = q.cnt - 1 := by
  unfold alloc at h
  split at h
  · cases h
  · obtain ⟨rfl, rfl⟩ := Prod.mk.inj (Option.some.inj h)
    exact ⟨‹_›, rfl⟩

theorem Keeps.congr (h : Keeps q dom out) (hout : ∀ x, out x ↔ out' x) : Keeps q dom out' where
  nodup := h.nodup
  mem x := by rw [h.mem, hout]
  dom x hx := h.dom x ((hout x).mpr hx)
  cnt := h.cnt

/-- A member goes out. -/
theorem Keeps.alloc (h : Keeps q dom out) (hx : q.alloc = some (x, q')) :
    Keeps q' dom (fun y => out y ∨ y = x) ∧ dom x ∧ ¬out x := by
  obtain ⟨hq, hcnt⟩ := alloc_some hx
  have hfirst : dom x ∧ ¬out x := (h.mem x).mp (hq ▸ List.mem_cons_self)
  have hnd := h.nodup
  rw [hq] at hnd
  obtain ⟨hnotin, hnd⟩ := List.nodup_cons.mp hnd
  refine ⟨⟨hnd, fun y => ?_, fun y hy => ?_, ?_⟩, hfirst⟩
  · have hy := h.mem y
    rw [hq, List.mem_cons] at hy
    by_cases hyx : y = x
    · subst hyx
      exact iff_of_false hnotin fun hno => hno.2 (.inr rfl)
    · rw [or_iff_right hyx] at hy
      rw [hy, not_or, and_iff_left hyx]
  · exact hy.elim (h.dom y) fun hyx => hyx ▸ hfirst.1
  · rw [hcnt, h.cnt, hq, List.length_cons, Nat.add_sub_cancel]

/-- With nothing out the whole pool is free. -/
theorem Keeps.drained {l : List α} (h : Keeps q dom out) (hl : l.Nodup) (hdom : ∀ x, dom x ↔ x ∈ l)
    (hnone : ∀ x, ¬out x) : q.queue.Perm l := by
  refine (List.perm_ext_iff_of_nodup h.nodup hl).mpr fun x => ?_
  rw [h.mem, ← hdom]
  exact and_iff_left (hnone x)

/-- A pool of which nothing is out. -/
theorem keeps_full {l : List α} (hl : l.Nodup) (hnone : ∀ x, ¬out x) :
    Keeps ⟨l, l.length⟩ (· ∈ l) out :=
  ⟨hl, fun x => (and_iff_left (hnone x)).symm, fun x hx => absurd hx (hnone x), rfl⟩

variable [DecidableEq α]

/-- A member comes back: it is unlinked and appended. -/
def free (q : FreeQueue α) (x : α) : FreeQueue α := ⟨q.queue.erase x ++ [x], q.cnt + 1⟩

theorem Keeps.free (h : Keeps q dom out) (hx : out x) :
    Keeps (q.free x) dom fun y => out y ∧ y ≠ x := by
  have hnotin : x ∉ q.queue := fun hmem => ((h.mem x).mp hmem).2 hx
  have hqueue : (q.free x).queue = q.queue ++ [x] := by
    show q.queue.erase x ++ [x] = q.queue ++ [x]
    rw [List.erase_of_not_mem hnotin]
  refine ⟨?_, fun y => ?_, fun y hy => h.dom y hy.1, ?_⟩
  · rw [hqueue, List.nodup_append]
    refine ⟨h.nodup, List.nodup_singleton x, fun y hy z hz hyz => ?_⟩
    rw [List.mem_singleton.mp hz] at hyz
    exact hnotin (hyz ▸ hy)
  · rw [hqueue, List.mem_append, List.mem_singleton, h.mem]
    by_cases hyx : y = x
    · subst hyx
      exact iff_of_true (.inr rfl) ⟨h.dom y hx, fun hno => hno.2 rfl⟩
    · rw [or_iff_left hyx, and_iff_left hyx]
  · rw [hqueue, List.length_append, List.length_singleton]
    exact congrArg (· + 1) h.cnt

end FreeQueue
