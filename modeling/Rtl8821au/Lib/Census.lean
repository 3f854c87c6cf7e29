import Mathlib.Data.Int.Basic
import Mathlib.Data.List.Basic
import Mathlib.Data.List.Nodup
import Mathlib.Data.List.Count
import Mathlib.Logic.Function.Basic

/-!
# Counters with flags

For every property there is a counter, and for every member a flag that says whether it is
counted, so that a member is counted once and counted out once.

* `Counts`: the counters are the numbers of flagged members.
* `Balanced`: what counting a member in and out leaves of the counters.
* `Counts.keep`, `Counts.join`, `Counts.leave`: members stay, come and go.
-/

/-- Flags and counters. -/
structure Census (α κ : Type*) where
  set : α → κ → Bool
  num : κ → ℤ

namespace Census

variable {α κ : Type*} {s s' s'' : Census α κ} {x y : α} {c d : κ} {l l' : List α}

/-- A counter without the share of `x`. -/
def rest (s : Census α κ) (x : α) (c : κ) : ℤ := s.num c - if s.set x c then 1 else 0

/-- Only `x` is counted in or out. -/
structure Balanced (x : α) (s s' : Census α κ) : Prop where
  set : ∀ y, y ≠ x → s'.set y = s.set y
  rest : ∀ c, s'.rest x c = s.rest x c

theorem Balanced.refl : Balanced x s s := ⟨fun _ _ => rfl, fun _ => rfl⟩

theorem Balanced.trans (h : Balanced x s s') (h' : Balanced x s' s'') : Balanced x s s'' :=
  ⟨fun y hy => (h'.set y hy).trans (h.set y hy), fun c => (h'.rest c).trans (h.rest c)⟩

/-- Every counter is the number of members with the flag. -/
def Counts (s : Census α κ) (l : List α) : Prop := ∀ c, s.num c = l.countP (s.set · c)

theorem Counts.perm (h : Counts s l) (hp : l.Perm l') : Counts s l' := fun c => by
  rw [h c, hp.countP_eq]

theorem counts_cons : Counts s (x :: l) ↔ ∀ c, s.rest x c = l.countP (s.set · c) := by
  refine forall_congr' fun c => ?_
  rw [rest, List.countP_cons]
  cases s.set x c
  · simp
  · simp only [if_true]
    omega

/-- The others do not notice. -/
theorem Balanced.countP (h : Balanced x s s') (hx : x ∉ l) (c : κ) :
    l.countP (s'.set · c) = l.countP (s.set · c) :=
  List.countP_congr fun y hy => by
    rw [h.set y fun hyx => hx (hyx ▸ hy)]

theorem Counts.balanced_cons (h : Counts s (x :: l)) (hx : x ∉ l) (hb : Balanced x s s') :
    Counts s' (x :: l) := by
  rw [counts_cons] at h ⊢
  intro c
  rw [hb.rest, h, hb.countP hx]

/-- A member that is not counted is none of the counted. -/
theorem counts_cons_of_clear (hclear : ∀ c, s.set x c = false) :
    Counts s (x :: l) ↔ Counts s l := by
  rw [counts_cons]
  refine forall_congr' fun c => ?_
  rw [rest, hclear c]
  simp

/-- A new member is counted. -/
theorem Counts.join (h : Counts s l) (hx : x ∉ l) (hclear : ∀ c, s.set x c = false)
    (hb : Balanced x s s') : Counts s' (l ++ [x]) :=
  (((counts_cons_of_clear hclear).mpr h).balanced_cons hx hb).perm
    (List.perm_append_singleton x l).symm

/-- A member goes that was counted out. -/
theorem Counts.leave (h : Counts s (x :: l)) (hx : x ∉ l) (hb : Balanced x s s')
    (hclear : ∀ c, s'.set x c = false) : Counts s' l :=
  (counts_cons_of_clear hclear).mp (h.balanced_cons hx hb)

/-- What the others count is not negative. -/
theorem Counts.rest_nonneg (h : Counts s (x :: l)) (c : κ) : 0 ≤ s.rest x c := by
  rw [counts_cons.mp h c]
  exact Int.natCast_nonneg _

/-- The members only are looked at. -/
theorem Counts.congr (h : Counts s l) (hnum : s'.num = s.num)
    (hset : ∀ y ∈ l, s'.set y = s.set y) : Counts s' l := fun c => by
  rw [hnum, h c]
  congr 1
  exact List.countP_congr fun y hy => by rw [hset y hy]

variable [DecidableEq α]

/-- A member is counted in and out. -/
theorem Counts.keep (h : Counts s l) (hnd : l.Nodup) (hx : x ∈ l) (hb : Balanced x s s') :
    Counts s' l := by
  have hp := List.perm_cons_erase hx
  exact ((h.perm hp).balanced_cons hnd.not_mem_erase hb).perm hp.symm

/-! ## The operations -/

/-- The flags of a new member. -/
def clear (s : Census α κ) (x : α) : Census α κ :=
  { s with set := Function.update s.set x fun _ => false }

theorem clear_set_self : (s.clear x).set x c = false := by
  show Function.update s.set x (fun _ => false) x c = false
  rw [Function.update_self]

theorem clear_set_of_ne (h : y ≠ x) : (s.clear x).set y = s.set y := Function.update_of_ne h ..

variable [DecidableEq κ]

/-- The member is counted, if it is not yet. -/
def raise (s : Census α κ) (x : α) (c : κ) : Census α κ :=
  if s.set x c then s
  else
    { set := Function.update s.set x (Function.update (s.set x) c true)
      num := Function.update s.num c (s.num c + 1) }

/-- The member is counted out, if it is counted. -/
def lower (s : Census α κ) (x : α) (c : κ) : Census α κ :=
  if s.set x c then
    { set := Function.update s.set x (Function.update (s.set x) c false)
      num := Function.update s.num c (s.num c - 1) }
  else s

theorem update_flag (f : α → κ → Bool) (b : Bool) :
    Function.update f x (Function.update (f x) c b) y d = if y = x ∧ d = c then b else f y d := by
  by_cases hy : y = x
  · subst hy
    by_cases hd : d = c
    · subst hd
      simp
    · simp [hd]
  · simp [hy]

theorem raise_set : (s.raise x c).set y d = if y = x ∧ d = c then true else s.set y d := by
  unfold raise
  by_cases h : s.set x c = true
  · rw [if_pos h]
    split_ifs with hyd
    · rw [hyd.1, hyd.2, h]
    · rfl
  · rw [if_neg h]
    exact update_flag s.set true

theorem lower_set : (s.lower x c).set y d = if y = x ∧ d = c then false else s.set y d := by
  unfold lower
  by_cases h : s.set x c = true
  · rw [if_pos h]
    exact update_flag s.set false
  · rw [if_neg h]
    split_ifs with hyd
    · rw [hyd.1, hyd.2]
      simpa using h
    · rfl

theorem balanced_raise (s : Census α κ) (x : α) (c : κ) : Balanced x s (s.raise x c) := by
  refine ⟨fun y hy => ?_, fun d => ?_⟩
  · funext d
    rw [raise_set, if_neg fun h => hy h.1]
  · unfold Census.rest
    rw [raise_set]
    unfold raise
    by_cases hd : d = c
    · subst hd
      cases s.set x d <;> simp
    · cases s.set x c <;> simp [hd]

theorem balanced_lower (s : Census α κ) (x : α) (c : κ) : Balanced x s (s.lower x c) := by
  refine ⟨fun y hy => ?_, fun d => ?_⟩
  · funext d
    rw [lower_set, if_neg fun h => hy h.1]
  · unfold Census.rest
    rw [lower_set]
    unfold lower
    by_cases hd : d = c
    · subst hd
      cases s.set x d <;> simp
    · cases s.set x c <;> simp [hd]

end Census
