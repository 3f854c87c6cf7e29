import Rtl8821au.Lib.Area
import Rtl8821au.Lib.ElementWalk

/-!
# When a reader comes to its end

A triple for readers that says both when there is no fault and what holds of the result.

* `EndsWhen.bind`: a sequence; `EndsWhen.ite`: a choice.
* `EndsWhen.iff`, `EndsWhen.weaken`: another form of the condition, a weaker property.
* `endsWhen_readByte`, `endsWhen_readBytes`, `endsWhen_copyIn`: the reads and the copies.
* `endsWhen_dataByte`, `endsWhen_data`: reads in the data of an element.
-/

namespace Checked

/-- The reader comes to its end exactly under the condition, and its result has the property. -/
structure EndsWhen {α : Type} (C : Prop) (Q : α → Prop) (x : Except Fault α) : Prop where
  ends : C → ∃ a, x = .ok a ∧ Q a
  only : Fine x → C

namespace EndsWhen

variable {α β : Type} {C D p : Prop} {Q R : α → Prop} {S : β → Prop} {x y : Except Fault α}
  {a : α} {g : α → Except Fault β}

theorem fine_iff (h : EndsWhen C Q x) : Fine x ↔ C := by
  refine ⟨h.only, fun hc => ?_⟩
  obtain ⟨a, ha, -⟩ := h.ends hc
  exact ⟨a, ha⟩

/-- A reader of which nothing more is said. -/
theorem self (x : Except Fault α) : EndsWhen (Fine x) (x = .ok ·) x := by
  refine ⟨fun h => ?_, id⟩
  obtain ⟨a, ha⟩ := h
  exact ⟨a, ha, ha⟩

theorem of_eq (hx : x = .ok a) (ha : Q a) : EndsWhen True Q x :=
  ⟨fun _ => ⟨a, hx, ha⟩, fun _ => trivial⟩

theorem ok (ha : Q a) : EndsWhen True Q (.ok a) := of_eq rfl ha

/-- A result where the condition holds. -/
theorem ok_of (hc : C) (ha : Q a) : EndsWhen C Q (.ok a) :=
  ⟨fun _ => ⟨a, rfl, ha⟩, fun _ => hc⟩

theorem error {e : Fault} (hc : ¬ C) : EndsWhen C Q (.error e) :=
  ⟨fun h => absurd h hc, fun h => absurd h (not_fine_error e)⟩

/-- A result that there is has the property. -/
theorem of_ok (h : EndsWhen C Q x) (hx : x = .ok a) : Q a := by
  obtain ⟨b, hb, hq⟩ := h.ends (h.only ⟨a, hx⟩)
  rw [hx] at hb
  rw [Except.ok.inj hb]
  exact hq

theorem iff (h : EndsWhen C Q x) (hcd : C ↔ D) : EndsWhen D Q x :=
  ⟨fun hd => h.ends (hcd.mpr hd), fun hx => hcd.mp (h.only hx)⟩

theorem weaken (h : EndsWhen C Q x) (hqr : ∀ a, Q a → R a) : EndsWhen C R x := by
  refine ⟨fun hc => ?_, h.only⟩
  obtain ⟨a, ha, hq⟩ := h.ends hc
  exact ⟨a, ha, hqr a hq⟩

/-- What holds under the condition may be used for the property. -/
theorem strengthen (h : EndsWhen C Q x) : EndsWhen C (fun a => C ∧ Q a) x := by
  refine ⟨fun hc => ?_, h.only⟩
  obtain ⟨a, ha, hq⟩ := h.ends hc
  exact ⟨a, ha, hc, hq⟩

theorem bind (hx : EndsWhen C Q x) (hg : ∀ a, Q a → EndsWhen D S (g a)) :
    EndsWhen (C ∧ D) S (x >>= g) := by
  constructor
  · rintro ⟨hc, hd⟩
    obtain ⟨a, rfl, hq⟩ := hx.ends hc
    exact (hg a hq).ends hd
  · intro hfine
    obtain ⟨a, rfl, hrest⟩ := fine_bind.mp hfine
    have hc := hx.only (fine_ok a)
    obtain ⟨b, hb, hq⟩ := hx.ends hc
    obtain rfl := Except.ok.inj hb
    exact ⟨hc, (hg a hq).only hrest⟩

/-- A sequence of which only the first part may leave the buffer. -/
theorem bind_ok (hx : EndsWhen C Q x) (hg : ∀ a, Q a → EndsWhen True S (g a)) :
    EndsWhen C S (x >>= g) := (hx.bind hg).iff (and_iff_left trivial)

/-- A sequence of which only the second part may. -/
theorem ok_bind (hx : EndsWhen True Q x) (hg : ∀ a, Q a → EndsWhen D S (g a)) :
    EndsWhen D S (x >>= g) := (hx.bind hg).iff (and_iff_right trivial)

/-- A sequence whose condition says of the first part that it ends. -/
theorem bind_of_imp (hx : EndsWhen C Q x) (hdc : D → C)
    (hg : ∀ a, C → Q a → EndsWhen D S (g a)) : EndsWhen D S (x >>= g) :=
  (hx.strengthen.bind fun a h => hg a h.1 h.2).iff (and_iff_right_of_imp hdc)

theorem ite [Decidable p] (hx : p → EndsWhen C Q x) (hy : ¬ p → EndsWhen C Q y) :
    EndsWhen C Q (if p then x else y) := by
  by_cases hp : p
  · rw [if_pos hp]
    exact hx hp
  · rw [if_neg hp]
    exact hy hp

end EndsWhen

/-! ## Reads and copies -/

section reads

variable {f : List UInt8} {d n k : ℕ}

theorem endsWhen_readByte (f : List UInt8) (k : ℕ) :
    EndsWhen (k < f.length) (· = f.getD k 0) (readByte f k) := by
  refine ⟨fun h => ⟨_, readByte_of_lt h, rfl⟩, fun h => ?_⟩
  by_contra hno
  rw [readByte_of_le (Nat.not_lt.mp hno)] at h
  exact not_fine_error _ h

theorem endsWhen_readBytes (f : List UInt8) (d n : ℕ) :
    EndsWhen (Inside f d n) (· = bytesAt f d n) (readBytes f d n) := by
  refine ⟨fun h => ⟨_, readBytes_of_inside h, rfl⟩, fun h => ?_⟩
  by_contra hno
  rw [readBytes_of_not_inside hno] at h
  exact not_fine_error _ h

theorem endsWhen_copyIn {n : ℕ} (a : Area n) (off : ℕ) (src : List UInt8) :
    EndsWhen (off + src.length ≤ n) (· = a.put off src) (a.copyIn off src) := by
  refine ⟨fun h => ⟨_, a.copyIn_of_le h, rfl⟩, fun h => ?_⟩
  by_contra hno
  rw [a.copyIn_of_lt (Nat.not_le.mp hno)] at h
  exact not_fine_error _ h

end reads

section element

open Elements

variable {f pre d : List UInt8} {id len : UInt8}

/-- Data of an element, which may go on behind it. -/
theorem endsWhen_data (hf : f = pre ++ id :: len :: d) (n : ℕ) :
    EndsWhen (n ≤ d.length) (· = d.take n) (readBytes f (pre.length + 2) n) := by
  rw [readBytes_after hf]
  by_cases hn : n ≤ d.length
  · rw [if_pos hn]
    exact .ok_of hn rfl
  · rw [if_neg hn]
    exact .error hn

/-- A byte of the data. -/
theorem endsWhen_dataByte (hf : f = pre ++ id :: len :: d) (k : ℕ) :
    EndsWhen (k < d.length) (· = d.getD k 0) (readByte f (pre.length + 2 + k)) := by
  have hf' : f = (pre ++ [id, len]) ++ d := by rw [hf, List.append_assoc]; rfl
  have hlen : (pre ++ [id, len]).length = pre.length + 2 := by rw [List.length_append]; rfl
  have htotal : f.length = pre.length + 2 + d.length := by rw [hf', List.length_append, hlen]
  have hbyte : f.getD (pre.length + 2 + k) 0 = d.getD k 0 := by
    rw [hf', ← hlen, List.getD_append_right _ _ _ _ (Nat.le_add_right _ _), Nat.add_sub_cancel_left]
  have hread := endsWhen_readByte f (pre.length + 2 + k)
  rw [hbyte] at hread
  exact hread.iff (by omega)

end element

end Checked
