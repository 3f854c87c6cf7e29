import Mathlib.Logic.Function.Basic

/-!
# Slots that hold keys with their values

A table of slots, each empty or holding a key with its value. Keys are put into a slot that is
chosen from outside; what was there is lost.

* `holds_put`: what the table holds after a key was put into a slot.
* `holds_erase`: the same for a slot that was emptied.
* `Distinct.put`, `Distinct.erase`: no key is held twice.
-/

namespace Slots

variable {ι κ ν : Type*} {c : ι → Option (κ × ν)} {i j : ι} {k k' : κ} {v v' : ν}

/-- The key is in some slot, with this value. -/
def Holds (c : ι → Option (κ × ν)) (k : κ) (v : ν) : Prop := ∃ i, c i = some (k, v)

/-- The slot has this key. -/
def Occupied (c : ι → Option (κ × ν)) (i : ι) (k : κ) : Prop := ∃ v, c i = some (k, v)

/-- No key is in two slots. -/
def Distinct (c : ι → Option (κ × ν)) : Prop := ∀ i j k, Occupied c i k → Occupied c j k → i = j

theorem not_occupied_of_none (h : c i = none) (k : κ) : ¬ Occupied c i k := by
  rintro ⟨v, hv⟩
  rw [h] at hv
  cases hv

theorem Distinct.holds_inj (h : Distinct c) (hv : Holds c k v) (hv' : Holds c k v') : v = v' := by
  obtain ⟨i, hi⟩ := hv
  obtain ⟨j, hj⟩ := hv'
  obtain rfl := h i j k ⟨v, hi⟩ ⟨v', hj⟩
  rw [hi] at hj
  exact (Prod.mk.inj (Option.some.inj hj)).2

/-! ## Putting a key into a slot -/

variable [DecidableEq ι]

theorem occupied_put :
    Occupied (Function.update c i (some (k, v))) j k' ↔
      if j = i then k' = k else Occupied c j k' := by
  by_cases hj : j = i
  · subst hj
    rw [if_pos rfl, Occupied, Function.update_self]
    constructor
    · rintro ⟨w, hw⟩
      exact (Prod.mk.inj (Option.some.inj hw)).1.symm
    · rintro rfl
      exact ⟨v, rfl⟩
  · rw [if_neg hj, Occupied, Function.update_of_ne hj]
    rfl

/-- The key is in no other slot. -/
theorem Distinct.put (h : Distinct c) (hk : ∀ j, Occupied c j k → j = i) :
    Distinct (Function.update c i (some (k, v))) := by
  intro a b x ha hb
  rw [occupied_put] at ha hb
  by_cases hai : a = i
  · rw [if_pos hai] at ha
    by_cases hbi : b = i
    · rw [hai, hbi]
    · rw [if_neg hbi, ha] at hb
      rw [hai, hk b hb]
  · rw [if_neg hai] at ha
    by_cases hbi : b = i
    · rw [if_pos hbi] at hb
      rw [hbi, hk a (hb ▸ ha)]
    · rw [if_neg hbi] at hb
      exact h a b x ha hb

/-- A key is held afterwards if it was put, or was there before in another slot. -/
theorem holds_put (h : Distinct c) (hk : ∀ j, Occupied c j k → j = i) :
    Holds (Function.update c i (some (k, v))) k' v' ↔
      k' = k ∧ v' = v ∨ Holds c k' v' ∧ ¬ Occupied c i k' := by
  constructor
  · rintro ⟨j, hj⟩
    by_cases hji : j = i
    · rw [hji, Function.update_self] at hj
      obtain ⟨rfl, rfl⟩ := Prod.mk.inj (Option.some.inj hj)
      exact Or.inl ⟨rfl, rfl⟩
    · rw [Function.update_of_ne hji] at hj
      exact Or.inr ⟨⟨j, hj⟩, fun hi => hji (h j i k' ⟨v', hj⟩ hi)⟩
  · rintro (⟨rfl, rfl⟩ | ⟨⟨j, hj⟩, hi⟩)
    · exact ⟨i, Function.update_self ..⟩
    · have hji : j ≠ i := by
        rintro rfl
        exact hi ⟨v', hj⟩
      exact ⟨j, (Function.update_of_ne hji ..).trans hj⟩

/-! ## Emptying a slot -/

theorem occupied_erase :
    Occupied (Function.update c i none) j k' ↔ j ≠ i ∧ Occupied c j k' := by
  by_cases hj : j = i
  · subst hj
    refine iff_of_false ?_ fun h => h.1 rfl
    exact not_occupied_of_none (Function.update_self ..) k'
  · rw [Occupied, Function.update_of_ne hj]
    exact (and_iff_right hj).symm

theorem Distinct.erase (h : Distinct c) : Distinct (Function.update c i none) := by
  intro a b x ha hb
  exact h a b x (occupied_erase.mp ha).2 (occupied_erase.mp hb).2

theorem holds_erase (h : Distinct c) :
    Holds (Function.update c i none) k' v' ↔ Holds c k' v' ∧ ¬ Occupied c i k' := by
  constructor
  · rintro ⟨j, hj⟩
    obtain ⟨hji, hocc⟩ := occupied_erase.mp ⟨v', hj⟩
    rw [Function.update_of_ne hji] at hj
    exact ⟨⟨j, hj⟩, fun hi => hji (h j i k' hocc hi)⟩
  · rintro ⟨⟨j, hj⟩, hi⟩
    have hji : j ≠ i := by
      rintro rfl
      exact hi ⟨v', hj⟩
    exact ⟨j, (Function.update_of_ne hji ..).trans hj⟩

end Slots
