import Mathlib.Data.List.Basic
import Mathlib.Data.List.GetD
import Mathlib.Tactic.SplitIfs

/-!
# Checked reads

A reader of a buffer ends with a fault at its first read behind the buffer. `walk` goes over
elements, each an id, a length of one byte and so many bytes of data, and calls a handler for
each of them; the bound up to which it goes is given to it and may be wrong.

* `readByte_at`, `readBe16_at`: reads behind a cursor, whose rest of the buffer is `f.drop p`.
* `readBytes_middle`: bytes between others are read as they are.
* `fine_bind`: a sequence of readers comes to its end when its parts do.
* `walk_fine_iff`: a walk does when every element it comes to has its two bytes in the buffer
  and as many behind them as the handler reads.
* `walk_ne_timeout`: it ends in any case.
-/

namespace Checked

/-- Why a reader has no result: the bound on its iterations, or a read behind the buffer. -/
inductive Fault where
  | timeout
  | beyond
  deriving DecidableEq, Repr

/-- The reader comes to its end. -/
def Fine {α : Type} (x : Except Fault α) : Prop := ∃ a, x = .ok a

/-- `n` bytes from `d` on are in the buffer. -/
def Inside (f : List UInt8) (d n : ℕ) : Prop := n = 0 ∨ d + n ≤ f.length

instance (f : List UInt8) (d n : ℕ) : Decidable (Inside f d n) :=
  inferInstanceAs (Decidable (_ ∨ _))

/-- One byte. -/
def readByte (f : List UInt8) (k : ℕ) : Except Fault UInt8 :=
  if k < f.length then .ok (f.getD k 0) else .error .beyond

/-- The bytes from `d` on, as they are. -/
def bytesAt (f : List UInt8) (d n : ℕ) : List UInt8 := (f.drop d).take n

/-- `n` bytes. -/
def readBytes (f : List UInt8) (d n : ℕ) : Except Fault (List UInt8) :=
  if Inside f d n then .ok (bytesAt f d n) else .error .beyond

section reads

variable {α β : Type} {f : List UInt8} {d n k : ℕ}

@[simp] theorem fine_ok (a : α) : Fine (.ok a : Except Fault α) := ⟨a, rfl⟩

@[simp] theorem not_fine_error (e : Fault) : ¬ Fine (.error e : Except Fault α) := fun ⟨_, h⟩ => by
  cases h

theorem fine_bind {x : Except Fault α} {g : α → Except Fault β} :
    Fine (x >>= g) ↔ ∃ a, x = .ok a ∧ Fine (g a) := by
  cases x with
  | error e =>
    refine iff_of_false (not_fine_error e) fun ⟨a, ha, _⟩ => ?_
    cases ha
  | ok a =>
    constructor
    · intro h
      exact ⟨a, rfl, h⟩
    · rintro ⟨b, hb, h⟩
      obtain rfl := Except.ok.inj hb
      exact h

theorem readByte_of_lt (h : k < f.length) : readByte f k = .ok (f.getD k 0) := if_pos h

theorem readByte_of_le (h : f.length ≤ k) : readByte f k = .error .beyond :=
  if_neg (Nat.not_lt.mpr h)

theorem readBytes_of_inside (h : Inside f d n) : readBytes f d n = .ok (bytesAt f d n) := if_pos h

theorem readBytes_of_not_inside (h : ¬ Inside f d n) : readBytes f d n = .error .beyond :=
  if_neg h

/-- Bytes between others. -/
theorem readBytes_middle (a b c : List UInt8) :
    readBytes (a ++ (b ++ c)) a.length b.length = .ok b := by
  have hin : Inside (a ++ (b ++ c)) a.length b.length := by
    right
    rw [List.length_append, List.length_append]
    omega
  rw [readBytes_of_inside hin, bytesAt, List.drop_left, List.take_left]

theorem inside_zero : Inside f d 0 := Or.inl rfl

theorem inside_succ : Inside f d (n + 1) ↔ d + n < f.length := by
  rw [Inside]
  omega

theorem Inside.mono {n' : ℕ} (h : Inside f d n) (hle : n' ≤ n) : Inside f d n' := by
  rw [Inside] at h ⊢
  omega

theorem inside_max (m : ℕ) : Inside f d (max n m) ↔ Inside f d n ∧ Inside f d m := by
  rw [Inside, Inside, Inside]
  omega

/-- Reading on from where the last read ended. -/
theorem inside_add (hd : d ≤ f.length) (k : ℕ) :
    Inside f d n ∧ Inside f (d + n) k ↔ Inside f d (n + k) := by
  rw [Inside, Inside, Inside]
  omega

@[simp] theorem bind_ok (a : α) (g : α → Except Fault β) :
    ((.ok a : Except Fault α) >>= g) = g a := rfl

@[simp] theorem bind_error (e : Fault) (g : α → Except Fault β) :
    ((.error e : Except Fault α) >>= g) = .error e := rfl

/-- The parts of a sequence that has a result. -/
theorem bind_eq_ok {x : Except Fault α} {g : α → Except Fault β} {b : β}
    (h : (x >>= g) = .ok b) : ∃ a, x = .ok a ∧ g a = .ok b := by
  cases x with
  | error e => cases h
  | ok a => exact ⟨a, rfl, h⟩

/-- An invariant that every turn of a loop keeps, under which none of them ends with a fault. -/
theorem foldlM_fine {σ ι : Type} {P : σ → Prop} {f : σ → ι → Except Fault σ}
    (hf : ∀ s i, P s → ∃ s', f s i = .ok s' ∧ P s') (is : List ι) {s : σ} (h : P s) :
    ∃ s', is.foldlM f s = .ok s' ∧ P s' := by
  induction is generalizing s with
  | nil => exact ⟨s, rfl, h⟩
  | cons i is ih =>
    obtain ⟨s₁, hrun, h₁⟩ := hf s i h
    obtain ⟨s₂, hrest, h₂⟩ := ih h₁
    refine ⟨s₂, ?_, h₂⟩
    rw [List.foldlM_cons, hrun, bind_ok, hrest]

end reads

/-! ## Cursors -/

/-- The number in two bytes, the high one first. -/
def be16 (hi lo : UInt8) : ℕ := hi.toNat * 256 + lo.toNat

/-- Such a number. -/
def readBe16 (f : List UInt8) (k : ℕ) : Except Fault ℕ := do
  let hi ← readByte f k
  let lo ← readByte f (k + 1)
  .ok (be16 hi lo)

section cursor

variable {f d : List UInt8} {p k n : ℕ} {b c : UInt8}

theorem be16_lt (hi lo : UInt8) : be16 hi lo < 65536 := by
  have hhi := hi.toNat_lt
  have hlo := lo.toNat_lt
  rw [be16]
  omega

theorem getD_drop (f : List UInt8) (p k : ℕ) : (f.drop p).getD k 0 = f.getD (p + k) 0 := by
  rw [List.getD_eq_getElem?_getD, List.getD_eq_getElem?_getD, List.getElem?_drop]

theorem lt_length_of_drop (h : f.drop p = b :: d) : p < f.length := by
  by_contra hno
  rw [List.drop_eq_nil_of_le (Nat.not_lt.mp hno)] at h
  cases h

theorem drop_next (h : f.drop p = b :: d) : f.drop (p + 1) = d := by
  rw [← List.drop_drop, h]
  rfl

/-- The byte at a distance. -/
theorem readByte_at (h : k < (f.drop p).length) :
    readByte f (p + k) = .ok ((f.drop p).getD k 0) := by
  rw [List.length_drop] at h
  rw [readByte_of_lt (by omega), getD_drop]

theorem readByte_drop (h : f.drop p = b :: d) : readByte f p = .ok b := by
  have hat := readByte_at (f := f) (p := p) (k := 0) (by rw [h]; exact Nat.succ_pos _)
  rw [h] at hat
  exact hat

theorem readBe16_at (h : k + 1 < (f.drop p).length) :
    readBe16 f (p + k) = .ok (be16 ((f.drop p).getD k 0) ((f.drop p).getD (k + 1) 0)) := by
  rw [readBe16, readByte_at (Nat.lt_of_succ_lt h), bind_ok, Nat.add_assoc, readByte_at h, bind_ok]

theorem readBe16_drop (h : f.drop p = b :: c :: d) : readBe16 f p = .ok (be16 b c) := by
  rw [readBe16, readByte_drop h, bind_ok, readByte_drop (drop_next h), bind_ok]

theorem readBe16_short (h : f.drop p = [b]) : readBe16 f p = .error .beyond := by
  have hend : f.length ≤ p + 1 := List.drop_eq_nil_iff.mp (drop_next h)
  rw [readBe16, readByte_drop h, bind_ok, readByte_of_le hend, bind_error]

theorem readBe16_end (h : f.drop p = []) : readBe16 f p = .error .beyond := by
  rw [readBe16, readByte_of_le (List.drop_eq_nil_iff.mp h), bind_error]

/-- Bytes at a distance. -/
theorem readBytes_at (h : k + n ≤ (f.drop p).length) :
    readBytes f (p + k) n = .ok (((f.drop p).drop k).take n) := by
  rw [List.length_drop] at h
  by_cases hn : n = 0
  · rw [hn, readBytes_of_inside inside_zero, bytesAt, List.take_zero, List.take_zero]
  · rw [readBytes_of_inside (.inr (by omega)), bytesAt, List.drop_drop]

end cursor

/-! ## Walks over elements -/

/-- What is done at an element: the next state, and whether the walk ends here. The element is
    given by its place: the id is there, the length behind it, then the data. `need` is the number
    of bytes of data that are read. -/
structure Handler (σ : Type) where
  run : List UInt8 → σ → ℕ → Except Fault (σ × Bool)
  need : List UInt8 → σ → ℕ → ℕ
  next : List UInt8 → σ → ℕ → σ × Bool
  run_eq : ∀ f s i, i + 1 < f.length →
    run f s i = if Inside f (i + 2) (need f s i) then .ok (next f s i) else .error .beyond
  run_short : ∀ f s i, f.length ≤ i + 1 →
    run f s i = .error .beyond ∨ ∃ s', run f s i = .ok (s', false)

/-- Nothing is read. -/
def Handler.skip {σ : Type} : Handler σ where
  run _ s _ := .ok (s, false)
  need _ _ _ := 0
  next _ s _ := (s, false)
  run_eq _ _ _ _ := (if_pos inside_zero).symm
  run_short _ s _ _ := Or.inr ⟨s, rfl⟩

section walk

variable {σ : Type} (h : UInt8 → Handler σ) (f : List UInt8) (bound : ℕ)

/-- `for (i = ...; i < bound;) { ...; i += length + 2; }`. -/
def walk : ℕ → σ → ℕ → Except Fault σ
  | 0, _, _ => .error .timeout
  | fuel + 1, s, i =>
    if i < bound then do
      let id ← readByte f i
      let r ← (h id).run f s i
      if r.2 then .ok r.1
      else do
        let len ← readByte f (i + 1)
        walk fuel r.1 (i + (len.toNat + 2))
    else .ok s

/-- The handler of the element at a place. -/
def handlerAt (i : ℕ) : Handler σ := h (f.getD i 0)

/-- The elements that the walk comes to, with the states in which it does. -/
def trail : ℕ → σ → ℕ → List (σ × ℕ)
  | 0, _, _ => []
  | fuel + 1, s, i =>
    if i < bound then
      (s, i) ::
        if ((handlerAt h f i).next f s i).2 then []
        else trail fuel ((handlerAt h f i).next f s i).1 (i + ((f.getD (i + 1) 0).toNat + 2))
    else []

/-- The element's header and what is read of its data are in the buffer. -/
def ElementInside (p : σ × ℕ) : Prop :=
  p.2 + 1 < f.length ∧ Inside f (p.2 + 2) ((handlerAt h f p.2).need f p.1 p.2)

instance (p : σ × ℕ) : Decidable (ElementInside h f p) := inferInstanceAs (Decidable (_ ∧ _))

variable {h f bound}

/-- One step of the walk inside the buffer. -/
theorem walk_step {fuel i : ℕ} {s : σ} (hi : i < bound) (hin : ElementInside h f (s, i)) :
    walk h f bound (fuel + 1) s i =
      if ((handlerAt h f i).next f s i).2 then .ok ((handlerAt h f i).next f s i).1
      else walk h f bound fuel ((handlerAt h f i).next f s i).1
        (i + ((f.getD (i + 1) 0).toNat + 2)) := by
  have hlen : i + 1 < f.length := hin.1
  have hrun : (h (f.getD i 0)).run f s i = .ok ((handlerAt h f i).next f s i) := by
    rw [(h (f.getD i 0)).run_eq f s i hlen]
    exact if_pos hin.2
  rw [walk, if_pos hi, readByte_of_lt (by omega), bind_ok, hrun, bind_ok, readByte_of_lt hlen,
    bind_ok]

/-- One step that leaves it. -/
theorem walk_leaves {fuel i : ℕ} {s : σ} (hi : i < bound) (hout : ¬ ElementInside h f (s, i)) :
    walk h f bound (fuel + 1) s i = .error .beyond := by
  rw [walk, if_pos hi]
  rcases Nat.lt_or_ge i f.length with hlt | hge
  · rw [readByte_of_lt hlt, bind_ok]
    rcases Nat.lt_or_ge (i + 1) f.length with hlt' | hge'
    · have hrun : (h (f.getD i 0)).run f s i = .error .beyond := by
        rw [(h (f.getD i 0)).run_eq f s i hlt']
        exact if_neg fun hin => hout ⟨hlt', hin⟩
      rw [hrun, bind_error]
    · rcases (h (f.getD i 0)).run_short f s i hge' with herr | ⟨s', hok⟩
      · rw [herr, bind_error]
      · rw [hok, bind_ok, readByte_of_le hge', bind_error]
        rfl
  · rw [readByte_of_le hge, bind_error]

/-- The walk comes to its end exactly when everything it reads is in the buffer. -/
theorem walk_fine_iff {fuel i : ℕ} {s : σ} (hpos : 0 < fuel) (hfuel : f.length < fuel + i) :
    Fine (walk h f bound fuel s i) ↔ ∀ p ∈ trail h f bound fuel s i, ElementInside h f p := by
  induction fuel generalizing s i with
  | zero => exact absurd hpos (Nat.lt_irrefl 0)
  | succ fuel ih =>
    rw [trail]
    by_cases hi : i < bound
    · rw [if_pos hi]
      by_cases hin : ElementInside h f (s, i)
      · have hlen : i + 1 < f.length := hin.1
        rw [walk_step hi hin, List.forall_mem_cons, and_iff_right hin]
        split_ifs
        · exact iff_of_true (fine_ok _) fun p hp => absurd hp List.not_mem_nil
        · exact ih (by omega) (by omega)
      · rw [walk_leaves hi hin, List.forall_mem_cons]
        exact iff_of_false (not_fine_error _) fun hc => hin hc.1
    · rw [walk, if_neg hi, if_neg hi]
      exact iff_of_true (fine_ok _) fun p hp => absurd hp List.not_mem_nil

/-- Every walk ends. -/
theorem walk_ne_timeout {fuel i : ℕ} {s : σ} (hpos : 0 < fuel) (hfuel : f.length < fuel + i) :
    walk h f bound fuel s i ≠ .error .timeout := by
  induction fuel generalizing s i with
  | zero => exact absurd hpos (Nat.lt_irrefl 0)
  | succ fuel ih =>
    by_cases hi : i < bound
    · by_cases hin : ElementInside h f (s, i)
      · have hlen : i + 1 < f.length := hin.1
        rw [walk_step hi hin]
        split_ifs
        · exact nofun
        · exact ih (by omega) (by omega)
      · rw [walk_leaves hi hin]
        exact nofun
    · rw [walk, if_neg hi]
      exact nofun

end walk

end Checked
