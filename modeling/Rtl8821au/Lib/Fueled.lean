import Mathlib.Data.Nat.Init

/-!
# Programs that may not end

A program with state `σ` runs for a given fuel, the greatest number of turns that any loop in
it may make. More fuel changes no result, which a program carries with it, so a program ends
when it has a result for some fuel. `wp` is total correctness.

* `wp_bind`, `wp_whileLoop`: sequence and one turn of a loop.
* `wp_while_of_variant`: a loop whose variant falls ends.
* `not_wp_while`: a loop whose invariant lets no turn leave it does not.
-/

/-- A program that returns an `α`. -/
structure Fueled (σ α : Type*) where
  run : ℕ → σ → Option (α × σ)
  mono : ∀ {n s r}, run n s = some r → run (n + 1) s = some r

namespace Fueled

universe u v

variable {σ : Type v} {α β : Type u}

theorem run_le (p : Fueled σ α) {n m : ℕ} (h : n ≤ m) {s : σ} {r : α × σ}
    (hr : p.run n s = some r) : p.run m s = some r := by
  induction h with
  | refl => exact hr
  | step _ ih => exact p.mono ih

/-! ## Programs -/

/-- A step that always ends. -/
def lift (f : σ → α × σ) : Fueled σ α where
  run _ s := some (f s)
  mono h := h

def ret (a : α) : Fueled σ α := lift fun s => (a, s)

def bind (p : Fueled σ α) (f : α → Fueled σ β) : Fueled σ β where
  run n s := (p.run n s).bind fun r => (f r.1).run n r.2
  mono {n s r} h := by
    obtain ⟨q, hq, hr⟩ := Option.bind_eq_some_iff.mp h
    exact Option.bind_eq_some_iff.mpr ⟨q, p.mono hq, (f q.1).mono hr⟩

instance : Monad (Fueled σ) where
  pure := ret
  bind := bind

/-- At most `n` turns. -/
def turns (body : β → Fueled σ (β ⊕ α)) : ℕ → ℕ → β → σ → Option (α × σ)
  | 0, _, _, _ => none
  | n + 1, fuel, b, s =>
    ((body b).run fuel s).bind fun r =>
      match r.1 with
      | .inl b' => turns body n fuel b' r.2
      | .inr a => some (a, r.2)

theorem turns_mono {body : β → Fueled σ (β ⊕ α)} {n m fuel : ℕ} (hnm : n ≤ m) {b : β} {s : σ}
    {r : α × σ} (h : turns body n fuel b s = some r) : turns body m (fuel + 1) b s = some r := by
  induction n generalizing m b s with
  | zero => cases h
  | succ n ih =>
    obtain ⟨m, rfl⟩ : ∃ k, m = k + 1 := ⟨m - 1, by omega⟩
    obtain ⟨⟨e, t⟩, hq, hr⟩ := Option.bind_eq_some_iff.mp h
    refine Option.bind_eq_some_iff.mpr ⟨(e, t), (body b).mono hq, ?_⟩
    cases e with
    | inl b' => exact ih (by omega) hr
    | inr a => exact hr

/-- `body` until it returns `.inr`. -/
def whileLoop (body : β → Fueled σ (β ⊕ α)) (b : β) : Fueled σ α where
  run n s := turns body n n b s
  mono h := turns_mono (Nat.le_succ _) h

/-! ## Total correctness -/

/-- `p` ends from `s` with a result that meets `Q`. -/
def wp (p : Fueled σ α) (Q : α → σ → Prop) (s : σ) : Prop :=
  ∃ n r, p.run n s = some r ∧ Q r.1 r.2

/-- `p` ends. -/
def Ends (p : Fueled σ α) (s : σ) : Prop := p.wp (fun _ _ => True) s

variable {p : Fueled σ α} {Q R : α → σ → Prop} {s : σ}

theorem wp.weaken (h : p.wp Q s) (hQ : ∀ a t, Q a t → R a t) : p.wp R s := by
  obtain ⟨n, r, hr, hq⟩ := h
  exact ⟨n, r, hr, hQ _ _ hq⟩

@[simp] theorem wp_lift {f : σ → α × σ} : (lift f).wp Q s ↔ Q (f s).1 (f s).2 := by
  constructor
  · rintro ⟨n, r, hr, hq⟩
    obtain rfl := Option.some_inj.mp hr
    exact hq
  · intro h
    exact ⟨0, f s, rfl, h⟩

@[simp] theorem wp_pure {a : α} : (pure a : Fueled σ α).wp Q s ↔ Q a s := wp_lift

@[simp] theorem wp_bind {f : α → Fueled σ β} {Q : β → σ → Prop} :
    (p >>= f).wp Q s ↔ p.wp (fun a t => (f a).wp Q t) s := by
  constructor
  · rintro ⟨n, r, hr, hq⟩
    obtain ⟨q, hp, hf⟩ := Option.bind_eq_some_iff.mp hr
    exact ⟨n, q, hp, n, r, hf, hq⟩
  · rintro ⟨n, q, hp, m, r, hf, hq⟩
    refine ⟨max n m, r, ?_, hq⟩
    exact Option.bind_eq_some_iff.mpr
      ⟨q, p.run_le (Nat.le_max_left n m) hp, (f q.1).run_le (Nat.le_max_right n m) hf⟩

/-- The state after a turn that goes on, or the result. -/
def afterTurn (body : β → Fueled σ (β ⊕ α)) (Q : α → σ → Prop) : β ⊕ α → σ → Prop
  | .inl b, t => (whileLoop body b).wp Q t
  | .inr a, t => Q a t

/-- The first turn of a loop. -/
theorem wp_whileLoop {body : β → Fueled σ (β ⊕ α)} {b : β} :
    (whileLoop body b).wp Q s ↔ (body b).wp (afterTurn body Q) s := by
  constructor
  · rintro ⟨n, r, hr, hq⟩
    cases n with
    | zero => cases hr
    | succ n =>
      obtain ⟨⟨e, t⟩, hp, hf⟩ := Option.bind_eq_some_iff.mp hr
      refine ⟨n + 1, (e, t), hp, ?_⟩
      cases e with
      | inl b' => exact ⟨n + 1 + 1, r, turns_mono (by omega) hf, hq⟩
      | inr a =>
        obtain rfl := Option.some_inj.mp hf
        exact hq
  · rintro ⟨n, ⟨e, t⟩, hp, h⟩
    cases e with
    | inl b' =>
      obtain ⟨m, r, hr, hq⟩ := h
      refine ⟨max n m + 1, r, ?_, hq⟩
      refine Option.bind_eq_some_iff.mpr ⟨(.inl b', t), (body b).run_le (by omega) hp, ?_⟩
      have hmore : turns body (max n m) (max n m) b' t = some r :=
        (whileLoop body b').run_le (Nat.le_max_right n m) hr
      exact turns_mono (Nat.le_refl _) hmore
    | inr a =>
      exact ⟨n + 1, (a, t), Option.bind_eq_some_iff.mpr ⟨(.inr a, t), (body b).mono hp, rfl⟩, h⟩

/-- A turn keeps the invariant and lowers the variant, or ends the loop as it should. -/
def Turn (I : β → σ → Prop) (μ : β → σ → ℕ) (Q : α → σ → Prop) (k : ℕ) : β ⊕ α → σ → Prop
  | .inl b, t => I b t ∧ μ b t < k
  | .inr a, t => Q a t

theorem wp_while_of_variant {body : β → Fueled σ (β ⊕ α)} (I : β → σ → Prop) (μ : β → σ → ℕ)
    (hbody : ∀ b s, I b s → (body b).wp (Turn I μ Q (μ b s)) s) {b : β} (h : I b s) :
    (whileLoop body b).wp Q s := by
  induction hk : μ b s using Nat.strong_induction_on generalizing b s with
  | _ k ih =>
    rw [wp_whileLoop]
    refine (hbody b s h).weaken fun r t hr => ?_
    cases r with
    | inl b' => exact ih (μ b' t) (hk ▸ hr.2) hr.1 rfl
    | inr a => exact hr

/-- Every turn goes on. -/
def GoesOn (I : β → σ → Prop) : β ⊕ α → σ → Prop
  | .inl b, t => I b t
  | .inr _, _ => False

theorem not_wp_while {body : β → Fueled σ (β ⊕ α)} (I : β → σ → Prop)
    (hbody : ∀ b s, I b s → (body b).wp (GoesOn I) s) {b : β} (h : I b s) :
    ¬ (whileLoop body b).wp Q s := by
  rintro ⟨n, r, hr, -⟩
  have hnone : ∀ k fuel b s, I b s → turns body k fuel b s = none := by
    intro k
    induction k with
    | zero => intro fuel b s _; rfl
    | succ k ih =>
      intro fuel b s hI
      obtain ⟨m, ⟨e, t⟩, hm, hgo⟩ := hbody b s hI
      rw [turns]
      cases hrun : (body b).run fuel s with
      | none => rfl
      | some q =>
        have hq : q = (e, t) := by
          have h1 := (body b).run_le (Nat.le_max_left fuel m) hrun
          have h2 := (body b).run_le (Nat.le_max_right fuel m) hm
          exact Option.some_inj.mp (h1.symm.trans h2)
        rw [hq]
        cases e with
        | inl b' => exact ih fuel b' t hgo
        | inr a => exact hgo.elim
  cases (hnone n n b s h).symm.trans hr

end Fueled
