import Mathlib.Data.List.Basic
import Mathlib.Tactic.SplitIfs

/-!
# Records with an optional tail

A record is fields one after the other, each a word of fixed size or a counted list of such
words. It may stop in front of any field, and then has none of those that follow.

* `decode_append`: what follows a record is its next fields.
* `decode_cons_some`: the first field of a record.
-/

namespace OptionalTail

/-- A field takes words off a string. -/
abbrev Field := List UInt8 → Option (List (List UInt8) × List UInt8)

/-- The first `c` words of `n` bytes. -/
def words (n : ℕ) : ℕ → List UInt8 → List (List UInt8)
  | 0, _ => []
  | c + 1, bs => bs.take n :: words n c (bs.drop n)

/-- One word. -/
def word (n : ℕ) : Field := fun bs =>
  if n ≤ bs.length then some ([bs.take n], bs.drop n) else none

/-- A count of two bytes, the lower one first, and as many words. -/
def counted (n : ℕ) : Field
  | lo :: hi :: bs =>
    let c := lo.toNat + 256 * hi.toNat
    if c * n ≤ bs.length then some (words n c bs, bs.drop (c * n)) else none
  | _ => none

/-- The fields of a record, in their order, each with its words. -/
def decode : List Field → List UInt8 → Option (List (List (List UInt8)))
  | _, [] => some []
  | [], _ :: _ => none
  | f :: fs, b :: bs => (f (b :: bs)).bind fun x => (decode fs x.2).map (x.1 :: ·)

variable {f : Field} {fs : List Field} {bs t : List UInt8} {n c : ℕ}

/-- A field does not look behind its words. -/
def Local (f : Field) : Prop :=
  ∀ bs ws rest, f bs = some (ws, rest) → ∀ t, f (bs ++ t) = some (ws, rest ++ t)

theorem words_append (h : c * n ≤ bs.length) (t : List UInt8) :
    words n c (bs ++ t) = words n c bs := by
  induction c generalizing bs with
  | zero => rfl
  | succ c ih =>
    have hn : n ≤ bs.length := by
      rw [Nat.succ_mul] at h
      omega
    have hrest : c * n ≤ (bs.drop n).length := by
      rw [Nat.succ_mul] at h
      rw [List.length_drop]
      omega
    rw [words, words, List.take_append_of_le_length hn, List.drop_append_of_le_length hn, ih hrest]

theorem length_flatten_words {ws : List (List UInt8)} (h : ∀ w ∈ ws, w.length = n) :
    ws.flatten.length = ws.length * n := by
  induction ws with
  | nil => rw [List.flatten_nil, List.length_nil, List.length_nil, Nat.zero_mul]
  | cons w ws ih =>
    rw [List.flatten_cons, List.length_append, h w List.mem_cons_self,
      ih fun v hv => h v (List.mem_cons_of_mem w hv), List.length_cons, Nat.succ_mul, Nat.add_comm]

/-- Words are found again. -/
theorem words_flatten {ws : List (List UInt8)} (h : ∀ w ∈ ws, w.length = n) (t : List UInt8) :
    words n ws.length (ws.flatten ++ t) = ws := by
  induction ws with
  | nil => rfl
  | cons w ws ih =>
    have hw : w.length = n := h w List.mem_cons_self
    rw [List.length_cons, words, List.flatten_cons, List.append_assoc, ← hw, List.take_left,
      List.drop_left, hw, ih fun v hv => h v (List.mem_cons_of_mem w hv)]

theorem local_word (n : ℕ) : Local (word n) := by
  intro bs ws rest h t
  unfold word at h ⊢
  split_ifs at h with hn
  obtain ⟨rfl, rfl⟩ := Prod.mk.inj (Option.some.inj h)
  rw [if_pos (by rw [List.length_append]; omega), List.take_append_of_le_length hn,
    List.drop_append_of_le_length hn]

theorem local_counted (n : ℕ) : Local (counted n) := by
  intro bs ws rest h t
  rcases bs with _ | ⟨lo, _ | ⟨hi, bs⟩⟩
  · exact absurd h (by simp [counted])
  · exact absurd h (by simp [counted])
  · unfold counted at h
    dsimp only at h
    split_ifs at h with hc
    obtain ⟨rfl, rfl⟩ := Prod.mk.inj (Option.some.inj h)
    show (if (lo.toNat + 256 * hi.toNat) * n ≤ (bs ++ t).length then
      some (words n (lo.toNat + 256 * hi.toNat) (bs ++ t),
        (bs ++ t).drop ((lo.toNat + 256 * hi.toNat) * n)) else none) = _
    rw [if_pos (by rw [List.length_append]; omega), words_append hc,
      List.drop_append_of_le_length hc]

theorem decode_nil (fs : List Field) : decode fs [] = some [] := by cases fs <;> rfl

/-- The first field of a record. -/
theorem decode_cons_some {ws : List (List (List UInt8))} (hbs : bs ≠ [])
    (h : decode (f :: fs) bs = some ws) :
    ∃ w rest ws', f bs = some (w, rest) ∧ decode fs rest = some ws' ∧ ws = w :: ws' := by
  obtain ⟨b, bs, rfl⟩ := List.exists_cons_of_ne_nil hbs
  obtain ⟨⟨w, rest⟩, hf, hrest⟩ := Option.bind_eq_some_iff.mp h
  obtain ⟨ws', hws', rfl⟩ := Option.map_eq_some_iff.mp hrest
  exact ⟨w, rest, ws', hf, hws', rfl⟩

theorem decode_cons {w : List (List UInt8)} {rest : List UInt8} (hbs : bs ≠ [])
    (h : f bs = some (w, rest)) : decode (f :: fs) bs = (decode fs rest).map (w :: ·) := by
  obtain ⟨b, bs, rfl⟩ := List.exists_cons_of_ne_nil hbs
  rw [decode, h, Option.bind_some]

/-- What follows a record is its next fields. -/
theorem decode_append {ws : List (List (List UInt8))} (hlocal : ∀ f ∈ fs, Local f)
    (h : decode fs bs = some ws) :
    decode fs (bs ++ t) = (decode (fs.drop ws.length) t).map (ws ++ ·) := by
  induction fs generalizing bs ws with
  | nil =>
    cases bs with
    | nil =>
      obtain rfl := Option.some.inj h
      exact Option.map_id'.symm
    | cons b bs => exact absurd h (by simp [decode])
  | cons f fs ih =>
    by_cases hbs : bs = []
    · subst hbs
      obtain rfl := Option.some.inj (h.symm.trans (decode_nil _))
      exact Option.map_id'.symm
    · obtain ⟨w, rest, ws', hf, hws', rfl⟩ := decode_cons_some hbs h
      have hf' := hlocal f List.mem_cons_self bs w rest hf t
      rw [decode_cons (List.append_ne_nil_of_left_ne_nil hbs t) hf',
        ih (fun g hg => hlocal g (List.mem_cons_of_mem f hg)) hws', Option.map_map]
      rfl

end OptionalTail
