import Mathlib.Algebra.BigOperators.Group.Finset.Basic
import Mathlib.Data.List.Nodup
import Mathlib.Logic.Function.Basic

/-!
# Lists that share their nodes

A family of lists whose elements are nodes with one link each, as in an intrusive
list: a node is in at most one of the lists, and unlinking it does not name the list
it is in.

* `Exclusive`: no node is twice in a list or in two lists.
* `Exclusive.del`, `Exclusive.put`, `Exclusive.move`: unlinking, appending and moving
  keep it.
* `mem_del`, `mem_put`, `mem_move`: where every node is afterwards.
* `eq_move`: moving the first node of a list.
* `Exclusive.redistribute`: nodes that change places among some of the lists keep it.
* `total_put`, `total_del`: how the number of nodes changes.
* `first`, `next`: where the links of a head and of a node lead.
-/

namespace Places

variable {ι α : Type*}

/-- Every node is in at most one place. -/
structure Exclusive (q : ι → List α) : Prop where
  nodup : ∀ i, (q i).Nodup
  unique : ∀ {i j x}, x ∈ q i → x ∈ q j → i = j

/-- `x` is in one of the lists. -/
def Placed (q : ι → List α) (x : α) : Prop := ∃ i, x ∈ q i

theorem exclusive_nil : Exclusive fun _ : ι => ([] : List α) :=
  ⟨fun _ => List.nodup_nil, fun h => absurd h List.not_mem_nil⟩

variable {q : ι → List α} {i j : ι} {x y : α}

/-- In an exclusive family every placed node has exactly one place. -/
theorem Exclusive.existsUnique (hq : Exclusive q) (h : Placed q x) : ∃! i, x ∈ q i := by
  obtain ⟨i, hi⟩ := h
  exact ⟨i, hi, fun j hj => hq.unique hj hi⟩

/-! ## Unlinking -/

section del

variable [DecidableEq α]

/-- `x` unlinked from the list it is in. -/
def del (q : ι → List α) (x : α) : ι → List α := fun i => (q i).erase x

theorem mem_del (hq : Exclusive q) : y ∈ del q x j ↔ y ≠ x ∧ y ∈ q j :=
  (hq.nodup j).mem_erase_iff

theorem del_eq_self (h : x ∉ q j) : del q x j = q j := List.erase_of_not_mem h

theorem del_of_not_placed (h : ¬Placed q x) : del q x = q :=
  funext fun j => del_eq_self fun hj => h ⟨j, hj⟩

theorem not_placed_del (hq : Exclusive q) : ¬Placed (del q x) x := by
  rintro ⟨j, hj⟩
  exact ((mem_del hq).mp hj).1 rfl

theorem placed_del (hq : Exclusive q) : Placed (del q x) y ↔ y ≠ x ∧ Placed q y := by
  constructor
  · rintro ⟨j, hj⟩
    obtain ⟨hy, hj⟩ := (mem_del hq).mp hj
    exact ⟨hy, j, hj⟩
  · rintro ⟨hy, j, hj⟩
    exact ⟨j, (mem_del hq).mpr ⟨hy, hj⟩⟩

theorem Exclusive.del (hq : Exclusive q) (x : α) : Exclusive (del q x) where
  nodup j := (hq.nodup j).erase x
  unique hi hj := hq.unique (List.mem_of_mem_erase hi) (List.mem_of_mem_erase hj)

end del

/-! ## Appending -/

section put

variable [DecidableEq ι]

/-- `x` appended to list `i`. -/
def put (q : ι → List α) (i : ι) (x : α) : ι → List α := Function.update q i (q i ++ [x])

@[simp] theorem put_self : put q i x i = q i ++ [x] := Function.update_self ..

theorem put_of_ne (h : j ≠ i) : put q i x j = q j := Function.update_of_ne h ..

theorem mem_put : y ∈ put q i x j ↔ y ∈ q j ∨ y = x ∧ j = i := by
  by_cases h : j = i
  · subst h
    simp
  · simp [put_of_ne h, h]

theorem placed_put : Placed (put q i x) y ↔ y = x ∨ Placed q y := by
  constructor
  · rintro ⟨j, hj⟩
    rcases mem_put.mp hj with hj | ⟨hy, -⟩
    · exact Or.inr ⟨j, hj⟩
    · exact Or.inl hy
  · intro h
    by_cases hy : y = x
    · exact ⟨i, mem_put.mpr (Or.inr ⟨hy, rfl⟩)⟩
    · obtain ⟨j, hj⟩ := h.resolve_left hy
      exact ⟨j, mem_put.mpr (Or.inl hj)⟩

theorem Exclusive.put (hq : Exclusive q) (hx : ¬Placed q x) : Exclusive (put q i x) where
  nodup j := by
    by_cases h : j = i
    · subst h
      rw [put_self]
      exact List.nodup_append.mpr ⟨hq.nodup j, List.nodup_singleton x, fun a ha b hb hab =>
        hx ⟨j, (List.mem_singleton.mp hb) ▸ hab ▸ ha⟩⟩
    · rw [put_of_ne h]
      exact hq.nodup j
  unique {a b y} ha hb := by
    rcases mem_put.mp ha with ha | ⟨hy, hai⟩
    · rcases mem_put.mp hb with hb | ⟨hy, -⟩
      · exact hq.unique ha hb
      · exact absurd ⟨a, hy ▸ ha⟩ hx
    · rcases mem_put.mp hb with hb | ⟨-, hbi⟩
      · exact absurd ⟨b, hy ▸ hb⟩ hx
      · rw [hai, hbi]

end put

/-! ## Moving -/

section move

variable [DecidableEq ι] [DecidableEq α]

/-- `x` unlinked and appended to list `i`. -/
def move (q : ι → List α) (i : ι) (x : α) : ι → List α := put (del q x) i x

theorem Exclusive.move (hq : Exclusive q) (i : ι) (x : α) : Exclusive (move q i x) :=
  (hq.del x).put (not_placed_del hq)

theorem mem_move (hq : Exclusive q) :
    y ∈ move q i x j ↔ (y ≠ x ∧ y ∈ q j) ∨ (y = x ∧ j = i) := by
  rw [move, mem_put, mem_del hq]

theorem placed_move (hq : Exclusive q) : Placed (move q i x) y ↔ y = x ∨ Placed q y := by
  rw [move, placed_put, placed_del hq]
  by_cases hy : y = x
  · simp [hy]
  · simp [hy]

/-- Moving the first node of a list to another one. -/
theorem move_head {rest : List α} (hq : Exclusive q) (hj : q j = x :: rest) (hij : j ≠ i) :
    move q i x j = rest ∧ move q i x i = q i ++ [x] ∧
      ∀ k, k ≠ i → k ≠ j → move q i x k = q k := by
  have hx : x ∈ q j := by rw [hj]; exact List.mem_cons_self
  have hout : ∀ k, k ≠ j → x ∉ q k := fun k hk hmem => hk (hq.unique hmem hx)
  refine ⟨?_, ?_, fun k hki hkj => ?_⟩
  · rw [move, put_of_ne hij, del, hj, List.erase_cons_head]
  · rw [move, put_self, del_eq_self (hout i hij.symm)]
  · rw [move, put_of_ne hki, del_eq_self (hout k hkj)]

/-- What takes the first node of a list and appends it to another one is `move`. -/
theorem eq_move {q' : ι → List α} {rest : List α} (hq : Exclusive q) (hj : q j = x :: rest)
    (hij : j ≠ i) (htake : q' j = rest) (hput : q' i = q i ++ [x])
    (hout : ∀ k, k ≠ i → k ≠ j → q' k = q k) : q' = move q i x := by
  obtain ⟨hj', hi', hout'⟩ := move_head hq hj hij
  funext k
  by_cases hki : k = i
  · rw [hki, hput, hi']
  · by_cases hkj : k = j
    · rw [hkj, htake, hj']
    · rw [hout k hki hkj, hout' k hki hkj]

end move

/-! ## Redistributing -/

section redistribute

variable {q' : ι → List α} {I : List ι}

/-- What moves between the lists of `I` stays in one of them. -/
theorem placed_redistribute (hperm : (I.flatMap q').Perm (I.flatMap q))
    (hout : ∀ j, j ∉ I → q' j = q j) : Placed q' x ↔ Placed q x := by
  have himp : ∀ {r r' : ι → List α}, (I.flatMap r').Perm (I.flatMap r) →
      (∀ j, j ∉ I → r' j = r j) → Placed r' x → Placed r x := by
    rintro r r' hperm hout ⟨j, hj⟩
    by_cases hI : j ∈ I
    · obtain ⟨i, -, hi⟩ := List.mem_flatMap.mp
        (hperm.mem_iff.mp (List.mem_flatMap.mpr ⟨j, hI, hj⟩))
      exact ⟨i, hi⟩
    · exact ⟨j, by rwa [← hout j hI]⟩
  exact ⟨himp hperm hout, himp hperm.symm fun j hj => (hout j hj).symm⟩

theorem Exclusive.redistribute (hq : Exclusive q) (hI : I.Nodup)
    (hperm : (I.flatMap q').Perm (I.flatMap q)) (hout : ∀ j, j ∉ I → q' j = q j) :
    Exclusive q' := by
  have hnd : (I.flatMap q').Nodup := by
    rw [hperm.nodup_iff, List.nodup_flatMap]
    refine ⟨fun i _ => hq.nodup i, hI.imp ?_⟩
    intro i j hij x hi hj
    exact hij (hq.unique hi hj)
  have hsep := (List.nodup_flatMap.mp hnd).2
  -- a list outside `I` shares nothing with those of `I`
  have hcross : ∀ {i j x}, i ∈ I → j ∉ I → x ∈ q' i → x ∈ q' j → False := by
    intro i j x hi hj hxi hxj
    obtain ⟨k, hk, hxk⟩ := List.mem_flatMap.mp
      (hperm.mem_iff.mp (List.mem_flatMap.mpr ⟨i, hi, hxi⟩))
    rw [hout j hj] at hxj
    exact hj (hq.unique hxk hxj ▸ hk)
  constructor
  · intro i
    by_cases hi : i ∈ I
    · exact (List.nodup_flatMap.mp hnd).1 i hi
    · rw [hout i hi]
      exact hq.nodup i
  · intro i j x hxi hxj
    by_cases hi : i ∈ I
    · by_cases hj : j ∈ I
      · by_contra hne
        have : Std.Symm (Function.onFun List.Disjoint q') := ⟨fun _ _ h => List.Disjoint.symm h⟩
        exact hsep.forall hi hj hne hxi hxj
      · exact (hcross hi hj hxi hxj).elim
    · by_cases hj : j ∈ I
      · exact (hcross hj hi hxj hxi).elim
      · rw [hout i hi] at hxi
        rw [hout j hj] at hxj
        exact hq.unique hxi hxj

end redistribute

/-! ## Counting -/

section total

/-- The number of nodes in the lists of `I`. -/
def total (I : Finset ι) (q : ι → List α) : ℕ := ∑ i ∈ I, (q i).length

variable [DecidableEq ι] {I : Finset ι}

theorem total_put (hi : i ∈ I) : total I (put q i x) = total I q + 1 := by
  have hrest : ∑ j ∈ I.erase i, (put q i x j).length = ∑ j ∈ I.erase i, (q j).length := by
    apply Finset.sum_congr rfl
    intro j hj
    rw [put_of_ne (Finset.ne_of_mem_erase hj)]
  rw [total, total, ← Finset.add_sum_erase I _ hi, ← Finset.add_sum_erase I _ hi, hrest, put_self,
    List.length_append, List.length_singleton]
  omega

theorem total_del [DecidableEq α] (hq : Exclusive q) (hi : i ∈ I) (hx : x ∈ q i) :
    total I (del q x) + 1 = total I q := by
  have hrest : ∑ j ∈ I.erase i, (del q x j).length = ∑ j ∈ I.erase i, (q j).length := by
    apply Finset.sum_congr rfl
    intro j hj
    rw [del_eq_self fun hxj => Finset.ne_of_mem_erase hj (hq.unique hxj hx)]
  have hone : (del q x i).length + 1 = (q i).length := by
    rw [del, List.length_erase_of_mem hx]
    exact Nat.sub_add_cancel (List.length_pos_of_mem hx)
  rw [total, total, ← Finset.add_sum_erase I _ hi, ← Finset.add_sum_erase I _ hi, hrest]
  omega

end total

/-! ## Links -/

section link

/-- What a link leads to: the head of a list or a node. -/
inductive Link (ι α : Type*) where
  | head (i : ι)
  | node (x : α)
  deriving DecidableEq

/-- The link of the last node leads back to the head. -/
def linkOf (i : ι) : List α → Link ι α
  | [] => .head i
  | x :: _ => .node x

/-- The link of the head of list `i`. -/
def first (q : ι → List α) (i : ι) : Link ι α := linkOf i (q i)

variable [DecidableEq α]

/-- The link of node `x` while it is in list `i`. -/
def next (q : ι → List α) (i : ι) (x : α) : Link ι α := linkOf i ((q i).dropWhile (· ≠ x)).tail

/-- The last node of a list leads back to its head. -/
theorem next_of_last {l : List α} (h : q i = l ++ [x]) (hx : x ∉ l) : next q i x = .head i := by
  have hdrop : (l ++ [x]).dropWhile (· ≠ x) = [x] := by
    rw [List.dropWhile_append_of_pos]
    · simp
    · intro y hy
      exact decide_eq_true fun hyx => hx (hyx ▸ hy)
  rw [next, h, hdrop]
  rfl

end link

end Places
