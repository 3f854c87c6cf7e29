import Mathlib.Data.List.Nodup

/-!
# Runs of a step function

A component that consumes a list of inputs one at a time is a fold. A run is
`Guarded` by a condition when every input meets it in the state in which it is
consumed; an invariant that every guarded step keeps holds along every guarded
run.

* `invariant_run`: the induction over a guarded run.
* `invariant_run_take`: the same for every state passed on the way.
* `Guarded.take_induction`: the same for what is said of the history.
* `Guarded.of_invariant`: what the invariant says of every step of the run.
* `since_iff`: what lasts from a step that sets it to the next that ends it.
* `guarded_of_prefixes`: what a property of all states passed says of every step.
* `run_spends`: what a run can still do while a condition lasts.
* `Accepts`: the logs of an abstract machine.
* `guarded_congr`: conditions that an invariant makes equal guard the same runs.
* `misses_cons_iff`, `misses_hit_iff`: when `n` misses came in a row.
* `foldl_of_mem`, `foldl_consume`: loops over what they take apart.
* `foldl_keeps`, `foldl_once`: loops that touch a place never or once.
-/

namespace Run

variable {σ ι : Type*} {step : σ → ι → σ} {C D : σ → ι → Prop} {Inv : σ → Prop}

/-- The state after the inputs `is`, consumed from left to right. -/
def run (step : σ → ι → σ) (s : σ) (is : List ι) : σ := is.foldl step s

@[simp] theorem run_nil (s : σ) : run step s [] = s := rfl

@[simp] theorem run_cons (s : σ) (i : ι) (is : List ι) :
    run step s (i :: is) = run step (step s i) is := rfl

theorem run_append (s : σ) (is js : List ι) :
    run step s (is ++ js) = run step (run step s is) js := List.foldl_append

/-- Every input of the run meets `C` in the state in which it is consumed. -/
def Guarded (step : σ → ι → σ) (C : σ → ι → Prop) : σ → List ι → Prop
  | _, [] => True
  | s, i :: is => C s i ∧ Guarded step C (step s i) is

@[simp] theorem guarded_nil (s : σ) : Guarded step C s [] := trivial

@[simp] theorem guarded_cons (s : σ) (i : ι) (is : List ι) :
    Guarded step C s (i :: is) ↔ C s i ∧ Guarded step C (step s i) is := Iff.rfl

instance decidableGuarded [∀ s i, Decidable (C s i)] :
    (s : σ) → (is : List ι) → Decidable (Guarded step C s is)
  | _, [] => isTrue trivial
  | s, i :: is =>
    have := decidableGuarded (step s i) is
    inferInstanceAs (Decidable (C s i ∧ Guarded step C (step s i) is))

theorem guarded_append (s : σ) (is js : List ι) :
    Guarded step C s (is ++ js) ↔ Guarded step C s is ∧ Guarded step C (run step s is) js := by
  induction is generalizing s with
  | nil => simp
  | cons i is ih => simp [ih, and_assoc]

theorem Guarded.mono {s : σ} {is : List ι} (h : Guarded step C s is)
    (hCD : ∀ s i, C s i → D s i) : Guarded step D s is := by
  induction is generalizing s with
  | nil => trivial
  | cons i is ih => exact ⟨hCD s i h.1, ih h.2⟩

theorem Guarded.and {s : σ} {is : List ι} (h : Guarded step C s is) (h' : Guarded step D s is) :
    Guarded step (fun s i => C s i ∧ D s i) s is := by
  induction is generalizing s with
  | nil => trivial
  | cons i is ih => exact ⟨⟨h.1, h'.1⟩, ih h.2 h'.2⟩

/-- A condition on the inputs alone guards every run over such inputs. -/
theorem guarded_of_forall {P : ι → Prop} (s : σ) {is : List ι} (h : ∀ i ∈ is, P i) :
    Guarded step (fun _ i => P i) s is := by
  induction is generalizing s with
  | nil => trivial
  | cons i is ih =>
    exact ⟨h i List.mem_cons_self, ih (step s i) fun j hj => h j (List.mem_cons_of_mem i hj)⟩

theorem guarded_forall_iff {P : ι → Prop} {s : σ} {is : List ι} :
    Guarded step (fun _ i => P i) s is ↔ ∀ i ∈ is, P i := by
  refine ⟨fun h => ?_, guarded_of_forall s⟩
  induction is generalizing s with
  | nil => exact fun i hi => absurd hi List.not_mem_nil
  | cons i is ih => exact List.forall_mem_cons.mpr ⟨h.1, ih h.2⟩

theorem invariant_run (hstep : ∀ s i, C s i → Inv s → Inv (step s i)) {s : σ} {is : List ι}
    (hg : Guarded step C s is) (h : Inv s) : Inv (run step s is) := by
  induction is generalizing s with
  | nil => exact h
  | cons i is ih => exact ih hg.2 (hstep s i hg.1 h)

theorem Guarded.take {s : σ} {is : List ι} (h : Guarded step C s is) (n : ℕ) :
    Guarded step C s (is.take n) := by
  rw [← List.take_append_drop n is, guarded_append] at h
  exact h.1

theorem invariant_run_take (hstep : ∀ s i, C s i → Inv s → Inv (step s i)) {s : σ}
    {is : List ι} (hg : Guarded step C s is) (h : Inv s) (n : ℕ) :
    Inv (run step s (is.take n)) :=
  invariant_run hstep (hg.take n) h

theorem run_take_succ {s : σ} {is : List ι} {n : ℕ} {i : ι} (h : is[n]? = some i) :
    run step s (is.take (n + 1)) = step (run step s (is.take n)) i := by
  rw [List.take_add_one, h, Option.toList_some, run_append]
  rfl

/-- The condition of the input at a position. -/
theorem Guarded.at {s : σ} {is : List ι} (hg : Guarded step C s is) {n : ℕ} {i : ι}
    (h : is[n]? = some i) : C (run step s (is.take n)) i := by
  obtain ⟨hn, rfl⟩ := List.getElem?_eq_some_iff.mp h
  have hsplit : is = is.take n ++ is[n] :: is.drop (n + 1) := by
    rw [List.getElem_cons_drop, List.take_append_drop]
  rw [hsplit, guarded_append, guarded_cons] at hg
  exact hg.2.1

/-- An induction over the positions of a guarded run, for what is said of the history. -/
theorem Guarded.take_induction {s : σ} {is : List ι} (hg : Guarded step C s is) {P : ℕ → Prop}
    (h0 : P 0)
    (hstep : ∀ n i, is[n]? = some i → C (run step s (is.take n)) i → P n → P (n + 1)) :
    ∀ n ≤ is.length, P n := by
  intro n
  induction n with
  | zero => exact fun _ => h0
  | succ n ih =>
    intro hn
    have hget : is[n]? = some is[n] := List.getElem?_eq_getElem hn
    exact hstep n is[n] hget (hg.at hget) (ih (Nat.le_of_succ_le hn))

/-- What a step sets or leaves, unless it ends it, holds since the last step that set it. -/
theorem since_iff {P S U : ℕ → Prop} {N : ℕ} (h0 : ¬ P 0)
    (hstep : ∀ n < N, (P (n + 1) ↔ S n ∨ P n ∧ ¬ U n)) :
    ∀ n ≤ N, (P n ↔ ∃ m < n, S m ∧ ∀ k, m < k → k < n → ¬ U k) := by
  intro n
  induction n with
  | zero => exact fun _ => iff_of_false h0 fun ⟨m, hm, _⟩ => Nat.not_lt_zero m hm
  | succ n ih =>
    intro hn
    rw [hstep n hn, ih (Nat.le_of_succ_le hn)]
    constructor
    · rintro (hs | ⟨⟨m, hm, hs, hu⟩, hn'⟩)
      · exact ⟨n, Nat.lt_succ_self n, hs, fun k hk hk' => absurd hk (by omega)⟩
      · refine ⟨m, Nat.lt_succ_of_lt hm, hs, fun k hk hk' => ?_⟩
        rcases Nat.lt_or_ge k n with hlt | hge
        · exact hu k hk hlt
        · obtain rfl : k = n := by omega
          exact hn'
    · rintro ⟨m, hm, hs, hu⟩
      rcases Nat.lt_or_ge m n with hlt | hge
      · exact Or.inr ⟨⟨m, hlt, hs, fun k hk hk' => hu k hk (Nat.lt_succ_of_lt hk')⟩,
          hu n hlt (Nat.lt_succ_self n)⟩
      · obtain rfl : m = n := by omega
        exact Or.inl hs

/-- What the invariant makes of the guard. -/
theorem Guarded.of_invariant {s : σ} {is : List ι} (hg : Guarded step C s is)
    (hstep : ∀ s i, C s i → Inv s → Inv (step s i)) (hD : ∀ s i, C s i → Inv s → D s i)
    (h : Inv s) : Guarded step D s is := by
  induction is generalizing s with
  | nil => trivial
  | cons i is ih => exact ⟨hD s i hg.1 h, ih hg.2 (hstep s i hg.1 h)⟩

/-- A condition that is needed for `P` to survive a step holds of every step of a run in which
    `P` always holds. -/
theorem guarded_of_prefixes {P : σ → Prop} (hinv : ∀ s i, Inv s → Inv (step s i))
    (hC : ∀ s i, Inv s → P s → P (step s i) → C s i) {s : σ} {is : List ι} (h : Inv s)
    (hP : ∀ n, P (run step s (is.take n))) : Guarded step C s is := by
  induction is generalizing s with
  | nil => trivial
  | cons i is ih =>
    exact ⟨hC s i h (hP 0) (hP 1), ih (hinv s i h) fun n => hP (n + 1)⟩

/-- While `Q` lasts, every input that `p` counts uses up some of `f`. -/
theorem run_spends {f : σ → ℕ} {p : ι → Bool} {Q : σ → Prop}
    (hstep : ∀ s i, Inv s → Inv (step s i) ∧
      (Q (step s i) → Q s ∧ f (step s i) + (if p i then 1 else 0) ≤ f s)) {s : σ} {is : List ι}
    (h : Inv s) :
    Inv (run step s is) ∧ (Q (run step s is) → Q s ∧ f (run step s is) + is.countP p ≤ f s) := by
  induction is generalizing s with
  | nil => exact ⟨h, fun hQ => ⟨hQ, Nat.le_refl _⟩⟩
  | cons i is ih =>
    obtain ⟨hinv, hspend⟩ := hstep s i h
    obtain ⟨hrun, hrest⟩ := ih hinv
    refine ⟨hrun, fun hQ => ?_⟩
    obtain ⟨hQ, hle⟩ := hrest hQ
    obtain ⟨hQ, hle'⟩ := hspend hQ
    rw [List.countP_cons, run_cons]
    exact ⟨hQ, by omega⟩

/-- Two conditions that an invariant makes equal guard the same runs. -/
theorem guarded_congr (hCD : ∀ s i, Inv s → (C s i ↔ D s i))
    (hstep : ∀ s i, Inv s → C s i → Inv (step s i)) {s : σ} {is : List ι} (h : Inv s) :
    Guarded step C s is ↔ Guarded step D s is := by
  induction is generalizing s with
  | nil => exact Iff.rfl
  | cons i is ih =>
    rw [guarded_cons, guarded_cons, ← hCD s i h]
    exact and_congr_right fun hC => ih (hstep s i h hC)

/-- The machine `next` writes the log on its way from `p₀` to the last state. -/
inductive Accepts {π ο : Type*} (next : π → ο → π → Prop) (p₀ : π) : List ο → π → Prop
  | nil : Accepts next p₀ [] p₀
  | snoc {l : List ο} {o : ο} {p p' : π} (h : Accepts next p₀ l p) (hnext : next p o p') :
      Accepts next p₀ (l ++ [o]) p'

/-! ## Misses in a row -/

theorem replicate_prefix_iff {n : ℕ} {l : List Bool} :
    List.replicate n false <+: l ↔ n ≤ (l.takeWhile (!·)).length := by
  induction l generalizing n with
  | nil => simp
  | cons b l ih =>
    cases n with
    | zero => simp
    | succ n =>
      rw [List.replicate_succ, List.cons_prefix_cons, ih]
      cases b <;> simp

/-- A counter that a hit clears stands at the misses since the last: that `n` of them came in a row
    shows at the end of the row. -/
theorem misses_cons_iff {n : ℕ} {b : Bool} {l : List Bool} :
    List.replicate n false <:+: b :: l ↔
      n ≤ ((b :: l).takeWhile (!·)).length ∨ List.replicate n false <:+: l := by
  rw [List.infix_cons_iff, replicate_prefix_iff]

/-- A hit ends a row that is too short. -/
theorem misses_hit_iff {n r : ℕ} (hr : r < n) (l : List Bool) :
    List.replicate n false <:+: List.replicate r false ++ true :: l ↔
      List.replicate n false <:+: l := by
  induction r with
  | zero => exact misses_cons_iff.trans (or_iff_right (Nat.not_le_of_lt hr))
  | succ r ih =>
    have hlen : ((false :: (List.replicate r false ++ true :: l)).takeWhile (!·)).length = r + 1 := by
      rw [← List.cons_append, ← List.replicate_succ, List.takeWhile_append_of_pos (by simp)]
      simp
    rw [List.replicate_succ, List.cons_append, misses_cons_iff, hlen,
      or_iff_right (Nat.not_le_of_lt hr), ih (Nat.lt_of_succ_lt hr)]

/-! ## Loops over a list that they consume -/

section loop

variable {f : σ → ι → σ} {P : σ → Prop} {M : σ → ι → Prop} {q : σ → List ι}

/-- A loop over members of a collection each of which removes at most itself. -/
theorem foldl_of_mem
    (hf : ∀ s i, P s → M s i → P (f s i) ∧ ∀ j, M s j → j ≠ i → M (f s i) j) {s : σ}
    {is : List ι} (hnd : is.Nodup) (hin : ∀ i ∈ is, M s i) (h : P s) : P (is.foldl f s) := by
  induction is generalizing s with
  | nil => exact h
  | cons i is ih =>
    obtain ⟨hi, hnd⟩ := List.nodup_cons.mp hnd
    obtain ⟨hinv, hkeep⟩ := hf s i h (hin i List.mem_cons_self)
    refine ih hnd (fun j hj => hkeep j (hin j (List.mem_cons_of_mem i hj)) ?_) hinv
    exact fun hji => hi (hji ▸ hj)

/-- A loop over a list each of whose steps removes the head. -/
theorem foldl_consume
    (hf : ∀ s i is, P s → q s = i :: is → P (f s i) ∧ q (f s i) = is) {s : σ} (h : P s) :
    P ((q s).foldl f s) ∧ q ((q s).foldl f s) = [] := by
  generalize hq : q s = is
  induction is generalizing s with
  | nil => exact ⟨h, hq⟩
  | cons i is ih =>
    obtain ⟨hinv, hrest⟩ := hf s i is h hq
    exact ih hinv hrest

/-- A loop none of whose steps touches what is looked at. -/
theorem foldl_keeps {α : Type*} {g : σ → α} {is : List ι} (hf : ∀ s, ∀ i ∈ is, g (f s i) = g s)
    (s : σ) : g (is.foldl f s) = g s := by
  induction is generalizing s with
  | nil => rfl
  | cons i is ih =>
    rw [List.foldl_cons, ih fun s j hj => hf s j (List.mem_cons_of_mem i hj)]
    exact hf s i List.mem_cons_self

/-- A loop one of whose steps touches what is looked at, once. -/
theorem foldl_once {α : Type*} {g : σ → α} {is : List ι} {i : ι} (hnd : is.Nodup) (hi : i ∈ is)
    (hf : ∀ s, ∀ j ∈ is, j ≠ i → g (f s j) = g s) {c : α → α} (hc : ∀ s, g (f s i) = c (g s))
    (s : σ) : g (is.foldl f s) = c (g s) := by
  obtain ⟨js, ks, rfl⟩ := List.append_of_mem hi
  have hi' : i ∉ js ++ ks := (List.nodup_cons.mp (List.nodup_middle.mp hnd)).1
  rw [List.foldl_append, List.foldl_cons, foldl_keeps (g := g), hc, foldl_keeps (g := g)]
  · intro s j hj
    refine hf s j (List.mem_append_left _ hj) fun hji => hi' ?_
    exact hji ▸ List.mem_append_left ks hj
  · intro s j hj
    refine hf s j (List.mem_append_right _ (List.mem_cons_of_mem i hj)) fun hji => hi' ?_
    exact hji ▸ List.mem_append_right js hj

/-- An invariant of every step of a loop. -/
theorem foldl_keep {is : List ι} (hf : ∀ s, ∀ i ∈ is, P s → P (f s i)) {s : σ} (h : P s) :
    P (is.foldl f s) :=
  List.foldlRecOn is f h fun s hs i hi => hf s i hi hs

end loop

end Run
