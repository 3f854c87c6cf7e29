import Mathlib.Data.List.Basic

/-!
# Replacing the first element of a kind

`List.replaceF` for a property and what is put in the place.

* `replaceFirst_append`: none of the kind stands before.
* `replaceFirst_hit`: the first of the kind.
* `replaceFirst_first`: what is in front of it and what is behind.
* `exists_first_of`, `first_unique`: there is one first of the kind, if there is one at all.
-/

namespace List

variable {α : Type*}

/-- The list with `g x` for its first element `x` that is `p`. -/
def replaceFirst (p : α → Prop) [DecidablePred p] (g : α → α) (l : List α) : List α :=
  l.replaceF fun x => if p x then some (g x) else none

section lemmas

variable {p : α → Prop} [DecidablePred p] {g : α → α} {x : α} {a l : List α}

@[simp] theorem replaceFirst_nil : replaceFirst p g [] = [] := rfl

theorem replaceFirst_hit (h : p x) : replaceFirst p g (x :: l) = g x :: l :=
  replaceF_cons_of_some _ (if_pos h)

theorem replaceFirst_pass (h : ¬ p x) : replaceFirst p g (x :: l) = x :: replaceFirst p g l :=
  replaceF_cons_of_none _ (if_neg h)

theorem replaceFirst_append (h : ∀ y ∈ a, ¬ p y) :
    replaceFirst p g (a ++ l) = a ++ replaceFirst p g l := by
  induction a with
  | nil => rfl
  | cons y a ih =>
    obtain ⟨hy, ha⟩ := forall_mem_cons.mp h
    rw [cons_append, replaceFirst_pass hy, ih ha, cons_append]

theorem replaceFirst_of_not (h : ∀ y ∈ l, ¬ p y) : replaceFirst p g l = l :=
  replaceF_of_forall_none fun y hy => if_neg (h y hy)

theorem replaceFirst_first (h : ∀ y ∈ a, ¬ p y) (hx : p x) :
    replaceFirst p g (a ++ x :: l) = a ++ g x :: l := by
  rw [replaceFirst_append h, replaceFirst_hit hx]

/-- One of the kind is in front of what follows. -/
theorem replaceFirst_append_of_mem (h : ∃ y ∈ a, p y) :
    replaceFirst p g (a ++ l) = replaceFirst p g a ++ l := by
  induction a with
  | nil =>
    obtain ⟨y, hy, -⟩ := h
    exact absurd hy not_mem_nil
  | cons y a ih =>
    rw [cons_append]
    by_cases hy : p y
    · rw [replaceFirst_hit hy, replaceFirst_hit hy, cons_append]
    · rw [replaceFirst_pass hy, replaceFirst_pass hy, cons_append,
        ih ((exists_mem_cons_iff _ _ _).mp h |>.resolve_left hy)]

/-- There is only one first of the kind. -/
theorem first_unique {p : α → Prop} {y : α} {a' b b' : List α} (h : a ++ x :: b = a' ++ y :: b')
    (hx : p x) (ha : ∀ z ∈ a, ¬ p z) (hy : p y) (ha' : ∀ z ∈ a', ¬ p z) :
    a = a' ∧ x = y ∧ b = b' := by
  induction a generalizing a' with
  | nil =>
    cases a' with
    | nil => exact ⟨rfl, cons.inj h⟩
    | cons z a' =>
      obtain rfl := (cons.inj h).1
      exact absurd hx (ha' x mem_cons_self)
  | cons z a ih =>
    cases a' with
    | nil =>
      obtain rfl := (cons.inj h).1
      exact absurd hy (ha z mem_cons_self)
    | cons z' a' =>
      obtain ⟨rfl, hrest⟩ := cons.inj h
      obtain ⟨rfl, rest⟩ := ih hrest (fun w hw => ha w (mem_cons_of_mem _ hw))
        (fun w hw => ha' w (mem_cons_of_mem _ hw))
      exact ⟨rfl, rest⟩

/-- Either none is of the kind, or there is a first one. -/
theorem exists_first_of (p : α → Prop) (l : List α) :
    (∀ y ∈ l, ¬ p y) ∨ ∃ a x b, l = a ++ x :: b ∧ p x ∧ ∀ y ∈ a, ¬ p y := by
  induction l with
  | nil => exact .inl fun y hy => absurd hy not_mem_nil
  | cons x l ih =>
    by_cases hx : p x
    · exact .inr ⟨[], x, l, rfl, hx, fun y hy => absurd hy not_mem_nil⟩
    · rcases ih with hnone | ⟨a, y, b, rfl, hy, ha⟩
      · exact .inl (forall_mem_cons.mpr ⟨hx, hnone⟩)
      · exact .inr ⟨x :: a, y, b, rfl, hy, forall_mem_cons.mpr ⟨hx, ha⟩⟩

end lemmas

end List
