import Mathlib.Algebra.Group.Defs
import Mathlib.Logic.Function.Basic

/-!
# Unbalanced Feistel networks

A register of words is changed one word at a time: the word at one position gains a value
that the words at the other positions determine. The gain may be any function; the network
loses nothing all the same.

* `Step.apply_injective`: one step can be taken back.
* `run_injective`: so can a sequence of steps.
-/

namespace Feistel

variable {ι α : Type*}

/-- The word at `pos` gains `gain`, which does not look at that word. -/
structure Step (ι α : Type*) where
  pos : ι
  gain : (ι → α) → α
  gain_congr : ∀ x y : ι → α, (∀ j, j ≠ pos → x j = y j) → gain x = gain y

variable [DecidableEq ι] [Add α]

def Step.apply (s : Step ι α) (x : ι → α) : ι → α :=
  Function.update x s.pos (x s.pos + s.gain x)

/-- A sequence of steps. -/
def run (ss : List (Step ι α)) (x : ι → α) : ι → α :=
  ss.foldl (fun x s => s.apply x) x

@[simp] theorem run_nil (x : ι → α) : run [] x = x := rfl

@[simp] theorem run_cons (s : Step ι α) (ss : List (Step ι α)) (x : ι → α) :
    run (s :: ss) x = run ss (s.apply x) := rfl

theorem run_append (ss ts : List (Step ι α)) (x : ι → α) :
    run (ss ++ ts) x = run ts (run ss x) := List.foldl_append

theorem Step.apply_injective [IsRightCancelAdd α] (s : Step ι α) : Function.Injective s.apply := by
  intro x y h
  have hother : ∀ j, j ≠ s.pos → x j = y j := by
    intro j hj
    have hj' := congrFun h j
    simpa only [apply, Function.update_of_ne hj] using hj'
  have hpos := congrFun h s.pos
  simp only [apply, Function.update_self, s.gain_congr x y hother] at hpos
  funext j
  by_cases hj : j = s.pos
  · rw [hj]
    exact add_right_cancel hpos
  · exact hother j hj

theorem run_injective [IsRightCancelAdd α] (ss : List (Step ι α)) :
    Function.Injective (run ss) := by
  induction ss with
  | nil => exact Function.injective_id
  | cons s ss ih =>
    intro x y h
    exact s.apply_injective (ih h)

end Feistel
