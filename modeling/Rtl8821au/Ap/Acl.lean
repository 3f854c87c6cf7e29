import Mathlib.Data.Finset.Card
import Mathlib.Data.Fintype.Basic
import Mathlib.Data.List.FinRange
import Mathlib.Data.List.Nodup
import Rtl8821au.Lib.Run
import Rtl8821au.Recv.Frame

/-!
# The access control list

`rtw_acl_add_sta`, `rtw_acl_remove_sta` (`rtw_ap.c`, lines 1329–1433), `rtw_access_ctrl`
(`rtw_sta_mgt.c`, lines 678–717), from the state that `start_ap_mode` sets up. An address is
on the list three times: by the `valid` flag of a node, by the node's place in the queue, and
in the counter.

* `aclInv_step`: the three agree after every call.
* `Refines`: the addresses on the list are those of a set with room for `numAcl`.
* `acl_consistent`: both along every sequence of calls, with the decision and what a remove does.
-/

namespace Rtl8821au.Ap

open Recv (MacAddr)
open Run

/-! ## Model -/

/-- `NUM_ACL` (`sta_info.h`, line 26). -/
def numAcl : ℕ := 16

/-- `struct rtw_wlan_acl_node`. -/
structure AclNode where
  addr : MacAddr
  valid : Bool
  deriving DecidableEq, Repr

/-- `struct wlan_acl_pool`; `aclNodeQ` holds the indices of the nodes. -/
structure WlanAclPool where
  mode : ℤ
  num : ℤ
  aclnode : Fin numAcl → AclNode
  aclNodeQ : List (Fin numAcl)

/-- `start_ap_mode` (`rtw_ap.c`, lines 2335–2342) leaves the addresses of the nodes. -/
def aclStartApMode (s : WlanAclPool) : WlanAclPool where
  mode := 0
  num := 0
  aclnode i := { s.aclnode i with valid := false }
  aclNodeQ := []

/-- `rtw_set_macaddr_acl` (lines 1319–1327). -/
def rtwSetMacaddrAcl (s : WlanAclPool) (mode : ℤ) : WlanAclPool := { s with mode }

/-- The node has this address and is valid. -/
def AclNode.hit (n : AclNode) (addr : MacAddr) : Bool := n.addr == addr && n.valid

/-- The search through the queue in `rtw_acl_add_sta` and `rtw_access_ctrl`. -/
def WlanAclPool.search (s : WlanAclPool) (addr : MacAddr) : Bool :=
  s.aclNodeQ.any fun i => (s.aclnode i).hit addr

/-- The first node that is not valid (lines 1365–1368). -/
def WlanAclPool.freeNode (s : WlanAclPool) : Option (Fin numAcl) :=
  (List.finRange numAcl).find? fun i => !(s.aclnode i).valid

/-- `rtw_acl_add_sta` (lines 1329–1391) with its return value. -/
def rtwAclAddSta (s : WlanAclPool) (addr : MacAddr) : WlanAclPool × ℤ :=
  if (numAcl : ℤ) - 1 < s.num then (s, -1)
  else if s.search addr then (s, 0)
  else match s.freeNode with
    | none => (s, 0)
    | some i =>
      ({ s with
          aclnode := Function.update s.aclnode i ⟨addr, true⟩
          aclNodeQ := s.aclNodeQ ++ [i]
          num := s.num + 1 }, 0)

/-- One turn of the loop in `rtw_acl_remove_sta` (lines 1409–1423). -/
def aclRemoveNode (addr : MacAddr) (s : WlanAclPool) (i : Fin numAcl) : WlanAclPool :=
  if (s.aclnode i).hit addr then
    { s with
        aclnode := Function.update s.aclnode i { s.aclnode i with valid := false }
        aclNodeQ := s.aclNodeQ.erase i
        num := s.num - 1 }
  else s

/-- `rtw_acl_remove_sta`; the next node is fetched before a node is taken off. -/
def rtwAclRemoveSta (s : WlanAclPool) (addr : MacAddr) : WlanAclPool :=
  s.aclNodeQ.foldl (aclRemoveNode addr) s

/-- `rtw_access_ctrl`. -/
def rtwAccessCtrl (s : WlanAclPool) (macAddr : MacAddr) : Bool :=
  let isMatch := s.search macAddr
  if s.mode = 1 then !isMatch else if s.mode = 2 then isMatch else true

/-- The calls that change the list. -/
inductive AclCall where
  | add (addr : MacAddr)
  | remove (addr : MacAddr)
  | setMode (mode : ℤ)
  deriving DecidableEq, Repr

def aclStep (s : WlanAclPool) : AclCall → WlanAclPool
  | .add addr => (rtwAclAddSta s addr).1
  | .remove addr => rtwAclRemoveSta s addr
  | .setMode mode => rtwSetMacaddrAcl s mode

/-! ## The set of addresses -/

/-- What the list is for: a mode and a set of addresses. -/
structure AccessList where
  mode : ℤ
  members : Finset MacAddr

/-- A set that is full refuses. -/
def AccessList.step (l : AccessList) : AclCall → AccessList
  | .add addr => if l.members.card < numAcl then { l with members := insert addr l.members } else l
  | .remove addr => { l with members := l.members.erase addr }
  | .setMode mode => { l with mode }

/-- Mode 1 denies the members, mode 2 all others. -/
def AccessList.accepts (l : AccessList) (addr : MacAddr) : Prop :=
  (l.mode = 1 → addr ∉ l.members) ∧ (l.mode = 2 → addr ∈ l.members)

def AccessList.init : AccessList := ⟨0, ∅⟩

/-! ## The invariant -/

/-- The queue, the flags and the counter agree, and no address is in two nodes of the queue. -/
structure AclInv (s : WlanAclPool) : Prop where
  mem_iff : ∀ i, i ∈ s.aclNodeQ ↔ (s.aclnode i).valid = true
  nodup : s.aclNodeQ.Nodup
  num_eq : s.num = s.aclNodeQ.length
  addr_inj : ∀ i ∈ s.aclNodeQ, ∀ j ∈ s.aclNodeQ, (s.aclnode i).addr = (s.aclnode j).addr → i = j

section inv

variable {s : WlanAclPool} {addr b : MacAddr} {i j : Fin numAcl}

theorem hit_iff {n : AclNode} : n.hit addr = true ↔ n.addr = addr ∧ n.valid = true := by
  rw [AclNode.hit, Bool.and_eq_true, beq_iff_eq]

theorem search_iff :
    s.search addr = true ↔ ∃ i ∈ s.aclNodeQ, (s.aclnode i).hit addr = true := List.any_eq_true

theorem AclInv.search_iff (h : AclInv s) :
    s.search addr = true ↔ ∃ i ∈ s.aclNodeQ, (s.aclnode i).addr = addr := by
  rw [Ap.search_iff]
  refine exists_congr fun i => and_congr_right fun hi => ?_
  rw [hit_iff, and_iff_left ((h.mem_iff i).mp hi)]

theorem AclInv.length_le (h : AclInv s) : s.aclNodeQ.length ≤ numAcl := by
  have hsub : s.aclNodeQ ⊆ List.finRange numAcl := fun i _ => List.mem_finRange i
  have hle := h.nodup.length_le_of_subset hsub
  rwa [List.length_finRange] at hle

theorem AclInv.num_le (h : AclInv s) : s.num ≤ numAcl := by
  rw [h.num_eq]
  exact Int.ofNat_le.mpr h.length_le

/-- The number of valid nodes. -/
theorem AclInv.card_valid (h : AclInv s) :
    s.num = (Finset.univ.filter fun i => (s.aclnode i).valid = true).card := by
  have hset : (Finset.univ.filter fun i => (s.aclnode i).valid = true) = s.aclNodeQ.toFinset := by
    apply Finset.ext
    intro i
    rw [Finset.mem_filter, List.mem_toFinset, h.mem_iff, and_iff_right (Finset.mem_univ i)]
  rw [hset, List.toFinset_card_of_nodup h.nodup, h.num_eq]

theorem aclInv_start (s : WlanAclPool) : AclInv (aclStartApMode s) where
  mem_iff _ := iff_of_false List.not_mem_nil Bool.false_ne_true
  nodup := List.nodup_nil
  num_eq := rfl
  addr_inj _ hi := absurd hi List.not_mem_nil

/-! ### Add -/

/-- There is a node for an address while the counter is below `numAcl`. -/
theorem AclInv.exists_free (h : AclInv s) (hnum : ¬ (numAcl : ℤ) - 1 < s.num) :
    ∃ i, s.freeNode = some i := by
  cases hfree : s.freeNode with
  | some i => exact ⟨i, rfl⟩
  | none =>
    have hall : ∀ i, i ∈ s.aclNodeQ := by
      intro i
      have hi := List.find?_eq_none.mp hfree i (List.mem_finRange i)
      rw [h.mem_iff]
      simpa using hi
    have hsub : List.finRange numAcl ⊆ s.aclNodeQ := fun i _ => hall i
    have hle := (List.nodup_finRange numAcl).length_le_of_subset hsub
    rw [List.length_finRange] at hle
    rw [h.num_eq] at hnum
    omega

theorem freeNode_not_valid (h : s.freeNode = some i) : (s.aclnode i).valid = false := by
  have hi := List.find?_some h
  simpa using hi

/-- What an add does. -/
theorem AclInv.add_cases (h : AclInv s) (addr : MacAddr) :
    (rtwAclAddSta s addr = (s, -1) ∧ s.num = numAcl) ∨
    (rtwAclAddSta s addr = (s, 0) ∧ s.num < numAcl ∧ s.search addr = true) ∨
    ∃ i, i ∉ s.aclNodeQ ∧ s.num < numAcl ∧ s.search addr = false ∧
      rtwAclAddSta s addr =
        ({ s with
            aclnode := Function.update s.aclnode i ⟨addr, true⟩
            aclNodeQ := s.aclNodeQ ++ [i]
            num := s.num + 1 }, 0) := by
  have hle := h.num_le
  unfold rtwAclAddSta
  by_cases hfull : (numAcl : ℤ) - 1 < s.num
  · left
    rw [if_pos hfull]
    exact ⟨rfl, by omega⟩
  · right
    rw [if_neg hfull]
    by_cases hsearch : s.search addr = true
    · left
      rw [if_pos hsearch]
      exact ⟨rfl, by omega, hsearch⟩
    · right
      obtain ⟨i, hi⟩ := h.exists_free hfull
      rw [if_neg hsearch, hi]
      refine ⟨i, ?_, by omega, Bool.eq_false_iff.mpr hsearch, rfl⟩
      rw [h.mem_iff, freeNode_not_valid hi]
      exact Bool.false_ne_true

theorem AclInv.insertNode (h : AclInv s) (hi : i ∉ s.aclNodeQ) (hs : s.search addr = false) :
    AclInv { s with
      aclnode := Function.update s.aclnode i ⟨addr, true⟩
      aclNodeQ := s.aclNodeQ ++ [i]
      num := s.num + 1 } where
  mem_iff j := by
    show j ∈ s.aclNodeQ ++ [i] ↔ (Function.update s.aclnode i ⟨addr, true⟩ j).valid = true
    rw [List.mem_append, List.mem_singleton]
    by_cases hj : j = i
    · subst hj
      rw [Function.update_self]
      exact iff_of_true (.inr rfl) rfl
    · rw [Function.update_of_ne hj, or_iff_left hj, h.mem_iff]
  nodup := List.nodup_append.mpr ⟨h.nodup, List.nodup_singleton i, by
    intro a ha b hb hab
    rw [List.mem_singleton] at hb
    exact hi (hb ▸ hab ▸ ha)⟩
  num_eq := by
    show s.num + 1 = ((s.aclNodeQ ++ [i]).length : ℤ)
    rw [List.length_append, h.num_eq]
    rfl
  addr_inj := by
    have hnew : ∀ j ∈ s.aclNodeQ, (s.aclnode j).addr ≠ addr := by
      intro j hj heq
      rw [h.search_iff.mpr ⟨j, hj, heq⟩] at hs
      cases hs
    have hold : ∀ j ∈ s.aclNodeQ,
        Function.update s.aclnode i ⟨addr, true⟩ j = s.aclnode j := by
      intro j hj
      have hne : j ≠ i := fun heq => hi (heq ▸ hj)
      rw [Function.update_of_ne hne]
    intro j hj k hk heq
    change (Function.update s.aclnode i ⟨addr, true⟩ j).addr =
      (Function.update s.aclnode i ⟨addr, true⟩ k).addr at heq
    rcases List.mem_append.mp hj with hj | hj <;> rcases List.mem_append.mp hk with hk | hk
    · rw [hold j hj, hold k hk] at heq
      exact h.addr_inj j hj k hk heq
    · rw [List.mem_singleton.mp hk, hold j hj, Function.update_self] at heq
      exact absurd heq (hnew j hj)
    · rw [List.mem_singleton.mp hj, hold k hk, Function.update_self] at heq
      exact absurd heq.symm (hnew k hk)
    · rw [List.mem_singleton.mp hj, List.mem_singleton.mp hk]

/-! ### Remove -/

theorem foldl_no_hit {l : List (Fin numAcl)} (h : ∀ j ∈ l, (s.aclnode j).hit addr = false) :
    l.foldl (aclRemoveNode addr) s = s := by
  induction l with
  | nil => rfl
  | cons i l ih =>
    have hi : ¬ (s.aclnode i).hit addr = true := by
      rw [h i List.mem_cons_self]
      exact Bool.false_ne_true
    rw [List.foldl_cons, aclRemoveNode, if_neg hi]
    exact ih fun j hj => h j (List.mem_cons_of_mem i hj)

theorem remove_absent (h : s.search addr = false) : rtwAclRemoveSta s addr = s :=
  foldl_no_hit fun j hj => by
    by_contra hhit
    rw [search_iff.mpr ⟨j, hj, Bool.not_eq_false _ ▸ hhit⟩] at h
    cases h

/-- The state without the node `i`. -/
def WlanAclPool.clearNode (s : WlanAclPool) (i : Fin numAcl) : WlanAclPool :=
  { s with
      aclnode := Function.update s.aclnode i { s.aclnode i with valid := false }
      aclNodeQ := s.aclNodeQ.erase i
      num := s.num - 1 }

theorem clearNode_self (s : WlanAclPool) (i : Fin numAcl) :
    (s.clearNode i).aclnode i = { s.aclnode i with valid := false } := Function.update_self i _ _

theorem clearNode_of_ne (s : WlanAclPool) (h : j ≠ i) :
    (s.clearNode i).aclnode j = s.aclnode j := Function.update_of_ne h _ _

theorem AclInv.remove_present (h : AclInv s) (hi : i ∈ s.aclNodeQ) (ha : (s.aclnode i).addr = addr) :
    rtwAclRemoveSta s addr = s.clearNode i := by
  have hhit : (s.aclnode i).hit addr = true := hit_iff.mpr ⟨ha, (h.mem_iff i).mp hi⟩
  obtain ⟨js, ks, hq⟩ := List.append_of_mem hi
  have hnd := h.nodup
  rw [hq] at hnd
  have hrest : i ∉ js ++ ks := (List.nodup_cons.mp (List.nodup_middle.mp hnd)).1
  have hmiss : ∀ j ∈ js ++ ks, (s.aclnode j).hit addr = false := by
    intro j hj
    have hj' : j ∈ s.aclNodeQ := by
      rw [hq, List.mem_append, List.mem_cons]
      exact (List.mem_append.mp hj).imp id .inr
    refine Bool.eq_false_iff.mpr fun hjh => hrest ?_
    rw [← h.addr_inj j hj' i hi ((hit_iff.mp hjh).1.trans ha.symm)]
    exact hj
  unfold rtwAclRemoveSta
  rw [hq, List.foldl_append, foldl_no_hit fun j hj => hmiss j (List.mem_append_left ks hj),
    List.foldl_cons, aclRemoveNode, if_pos hhit]
  apply foldl_no_hit
  intro j hj
  have hne : j ≠ i := fun heq => hrest (List.mem_append_right js (heq ▸ hj))
  show (Function.update s.aclnode i _ j).hit addr = false
  rw [Function.update_of_ne hne]
  exact hmiss j (List.mem_append_right js hj)

theorem AclInv.clear (h : AclInv s) (hi : i ∈ s.aclNodeQ) : AclInv (s.clearNode i) := by
  have hpos : 0 < s.aclNodeQ.length := List.length_pos_of_mem hi
  have hold : ∀ j ∈ s.aclNodeQ.erase i, (s.clearNode i).aclnode j = s.aclnode j := fun j hj =>
    clearNode_of_ne s (h.nodup.mem_erase_iff.mp hj).1
  refine ⟨fun j => ?_, h.nodup.erase i, ?_, fun j hj k hk heq => ?_⟩
  · show j ∈ s.aclNodeQ.erase i ↔ (Function.update s.aclnode i _ j).valid = true
    rw [h.nodup.mem_erase_iff]
    by_cases hj : j = i
    · subst hj
      rw [Function.update_self]
      exact iff_of_false (fun hc => hc.1 rfl) Bool.false_ne_true
    · rw [Function.update_of_ne hj, and_iff_right hj, h.mem_iff]
  · show s.num - 1 = ((s.aclNodeQ.erase i).length : ℤ)
    rw [List.length_erase_of_mem hi, h.num_eq]
    omega
  · rw [hold j hj, hold k hk] at heq
    exact h.addr_inj j (List.mem_of_mem_erase hj) k (List.mem_of_mem_erase hk) heq

/-- What a remove does. -/
theorem AclInv.remove_cases (h : AclInv s) (addr : MacAddr) :
    (s.search addr = false ∧ rtwAclRemoveSta s addr = s) ∨
    ∃ i ∈ s.aclNodeQ, (s.aclnode i).addr = addr ∧ rtwAclRemoveSta s addr = s.clearNode i := by
  cases hs : s.search addr with
  | false => exact .inl ⟨rfl, remove_absent hs⟩
  | true =>
    obtain ⟨i, hi, ha⟩ := h.search_iff.mp hs
    exact .inr ⟨i, hi, ha, h.remove_present hi ha⟩

theorem aclInv_step (h : AclInv s) (c : AclCall) : AclInv (aclStep s c) := by
  cases c with
  | add addr =>
    rcases h.add_cases addr with ⟨heq, -⟩ | ⟨heq, -⟩ | ⟨i, hi, -, hs, heq⟩
    · rwa [aclStep, heq]
    · rwa [aclStep, heq]
    · rw [aclStep, heq]
      exact h.insertNode hi hs
  | remove addr =>
    rcases h.remove_cases addr with ⟨-, heq⟩ | ⟨i, hi, -, heq⟩
    · rwa [aclStep, heq]
    · rw [aclStep, heq]
      exact h.clear hi
  | setMode mode => exact ⟨h.mem_iff, h.nodup, h.num_eq, h.addr_inj⟩

/-! ## The list is the set -/

/-- The addresses on the list. -/
theorem AclInv.search_add (h : AclInv s) (addr : MacAddr) :
    (rtwAclAddSta s addr).1.search b = true ↔
      s.search b = true ∨ s.num < numAcl ∧ b = addr := by
  rcases h.add_cases addr with ⟨heq, hnum⟩ | ⟨heq, -, hs⟩ | ⟨i, hi, hnum, hs, heq⟩
  · rw [heq]
    exact (or_iff_left fun hc => absurd hc.1 (by omega)).symm
  · rw [heq]
    exact (or_iff_left_of_imp fun hc => hc.2 ▸ hs).symm
  · rw [heq, (h.insertNode hi hs).search_iff, h.search_iff, and_iff_right hnum]
    show (∃ j ∈ s.aclNodeQ ++ [i], (Function.update s.aclnode i ⟨addr, true⟩ j).addr = b) ↔ _
    constructor
    · rintro ⟨j, hj, hb⟩
      rcases List.mem_append.mp hj with hj | hj
      · have hne : j ≠ i := fun he => hi (he ▸ hj)
        rw [Function.update_of_ne hne] at hb
        exact .inl ⟨j, hj, hb⟩
      · rw [List.mem_singleton.mp hj, Function.update_self] at hb
        exact .inr hb.symm
    · rintro (⟨j, hj, hb⟩ | rfl)
      · have hne : j ≠ i := fun he => hi (he ▸ hj)
        refine ⟨j, List.mem_append_left _ hj, ?_⟩
        rw [Function.update_of_ne hne, hb]
      · refine ⟨i, List.mem_append_right _ (List.mem_singleton_self i), ?_⟩
        rw [Function.update_self]

theorem AclInv.search_remove (h : AclInv s) (addr : MacAddr) :
    (rtwAclRemoveSta s addr).search b = true ↔ b ≠ addr ∧ s.search b = true := by
  rcases h.remove_cases addr with ⟨hs, heq⟩ | ⟨i, hi, ha, heq⟩
  · rw [heq]
    refine (and_iff_right_of_imp fun hb hba => ?_).symm
    rw [hba, hs] at hb
    cases hb
  · rw [heq, (h.clear hi).search_iff, h.search_iff]
    have hold : ∀ j ∈ s.aclNodeQ.erase i, (s.clearNode i).aclnode j = s.aclnode j := fun j hj =>
      clearNode_of_ne s (h.nodup.mem_erase_iff.mp hj).1
    constructor
    · rintro ⟨j, hj, hb⟩
      rw [hold j hj] at hb
      obtain ⟨hji, hj'⟩ := h.nodup.mem_erase_iff.mp hj
      refine ⟨fun hba => hji ?_, j, hj', hb⟩
      exact h.addr_inj j hj' i hi (hb.trans (hba.trans ha.symm))
    · rintro ⟨hba, j, hj, hb⟩
      have hji : j ≠ i := fun he => hba (hb.symm.trans (he ▸ ha))
      have hj' : j ∈ s.aclNodeQ.erase i := h.nodup.mem_erase_iff.mpr ⟨hji, hj⟩
      refine ⟨j, hj', ?_⟩
      rw [hold j hj', hb]

end inv

/-- The pool holds the addresses of the set. -/
structure Refines (s : WlanAclPool) (l : AccessList) : Prop where
  mode_eq : s.mode = l.mode
  search_iff : ∀ addr, s.search addr = true ↔ addr ∈ l.members

section refines

variable {s : WlanAclPool} {l : AccessList}

theorem Refines.num_eq (hr : Refines s l) (h : AclInv s) : s.num = l.members.card := by
  have hset : l.members = (s.aclNodeQ.map fun i => (s.aclnode i).addr).toFinset := by
    apply Finset.ext
    intro addr
    rw [← hr.search_iff, h.search_iff, List.mem_toFinset, List.mem_map]
  have hnd : (s.aclNodeQ.map fun i => (s.aclnode i).addr).Nodup :=
    List.Nodup.map_on h.addr_inj h.nodup
  rw [hset, List.toFinset_card_of_nodup hnd, List.length_map, h.num_eq]

theorem refines_step (h : AclInv s) (hr : Refines s l) (c : AclCall) :
    Refines (aclStep s c) (l.step c) := by
  have hnum := hr.num_eq h
  cases c with
  | add addr =>
    have hmode : (rtwAclAddSta s addr).1.mode = s.mode := by
      rcases h.add_cases addr with ⟨heq, -⟩ | ⟨heq, -⟩ | ⟨i, -, -, -, heq⟩ <;> rw [heq]
    show Refines _ (if _ then _ else _)
    by_cases hcard : l.members.card < numAcl
    · rw [if_pos hcard]
      refine ⟨hmode.trans hr.mode_eq, fun b => ?_⟩
      rw [aclStep, h.search_add, hr.search_iff, Finset.mem_insert, or_comm]
      exact or_congr (and_iff_right (by omega)) Iff.rfl
    · rw [if_neg hcard]
      refine ⟨hmode.trans hr.mode_eq, fun b => ?_⟩
      rw [aclStep, h.search_add, hr.search_iff]
      exact or_iff_left fun hc => absurd hc.1 (by omega)
  | remove addr =>
    have hmode : (rtwAclRemoveSta s addr).mode = s.mode := by
      rcases h.remove_cases addr with ⟨-, heq⟩ | ⟨i, -, -, heq⟩ <;> rw [heq]
      rfl
    refine ⟨hmode.trans hr.mode_eq, fun b => ?_⟩
    rw [aclStep, h.search_remove, hr.search_iff]
    exact Finset.mem_erase.symm
  | setMode mode => exact ⟨rfl, hr.search_iff⟩

theorem Refines.accessCtrl (hr : Refines s l) (addr : MacAddr) :
    rtwAccessCtrl s addr = true ↔ l.accepts addr := by
  unfold rtwAccessCtrl AccessList.accepts
  rw [hr.mode_eq, ← hr.search_iff]
  dsimp only
  by_cases h1 : l.mode = 1
  · rw [if_pos h1]
    simp [h1]
  · rw [if_neg h1]
    by_cases h2 : l.mode = 2
    · rw [if_pos h2]
      simp [h2]
    · rw [if_neg h2]
      simp [h1, h2]

end refines

/-- The pool is consistent, decides as the set does, and a remove takes off its address only. -/
structure AclConsistent (s : WlanAclPool) (l : AccessList) : Prop where
  num_length : s.num = s.aclNodeQ.length
  num_valid : s.num = (Finset.univ.filter fun i => (s.aclnode i).valid = true).card
  num_le : s.num ≤ numAcl
  distinct : (s.aclNodeQ.map fun i => (s.aclnode i).addr).Nodup
  access : ∀ addr, rtwAccessCtrl s addr = true ↔ l.accepts addr
  remove_gone : ∀ addr, (rtwAclRemoveSta s addr).search addr = false
  remove_other : ∀ addr, ∀ i ∈ s.aclNodeQ, (s.aclnode i).addr ≠ addr →
    i ∈ (rtwAclRemoveSta s addr).aclNodeQ ∧ (rtwAclRemoveSta s addr).aclnode i = s.aclnode i
  remove_add : ∀ addr, s.search addr = false →
    let t := rtwAclRemoveSta (rtwAclAddSta s addr).1 addr
    t.mode = s.mode ∧ t.num = s.num ∧ t.aclNodeQ = s.aclNodeQ ∧
      (∀ i, (t.aclnode i).valid = (s.aclnode i).valid) ∧
      ∀ i ∈ s.aclNodeQ, t.aclnode i = s.aclnode i

section consistent

variable {s : WlanAclPool} {addr : MacAddr}

theorem AclInv.remove_other (h : AclInv s) {i : Fin numAcl} (hi : i ∈ s.aclNodeQ)
    (hne : (s.aclnode i).addr ≠ addr) :
    i ∈ (rtwAclRemoveSta s addr).aclNodeQ ∧ (rtwAclRemoveSta s addr).aclnode i = s.aclnode i := by
  rcases h.remove_cases addr with ⟨-, heq⟩ | ⟨j, -, ha, heq⟩
  · rw [heq]
    exact ⟨hi, rfl⟩
  · have hij : i ≠ j := fun he => hne (he ▸ ha)
    rw [heq]
    exact ⟨h.nodup.mem_erase_iff.mpr ⟨hij, hi⟩, clearNode_of_ne s hij⟩

/-- A remove behind its add. -/
theorem AclInv.remove_add (h : AclInv s) (hs : s.search addr = false) :
    let t := rtwAclRemoveSta (rtwAclAddSta s addr).1 addr
    t.mode = s.mode ∧ t.num = s.num ∧ t.aclNodeQ = s.aclNodeQ ∧
      (∀ i, (t.aclnode i).valid = (s.aclnode i).valid) ∧
      ∀ i ∈ s.aclNodeQ, t.aclnode i = s.aclnode i := by
  intro t
  rcases h.add_cases addr with ⟨heq, -⟩ | ⟨-, -, hs'⟩ | ⟨i, hi, -, -, heq⟩
  · have ht : t = s := by rw [show t = rtwAclRemoveSta _ _ from rfl, heq, remove_absent hs]
    rw [ht]
    exact ⟨rfl, rfl, rfl, fun _ => rfl, fun _ _ => rfl⟩
  · rw [hs] at hs'
    cases hs'
  · have hinv := h.insertNode hi hs
    have hmem : i ∈ s.aclNodeQ ++ [i] := List.mem_append_right _ (List.mem_singleton_self i)
    have hvalid : (s.aclnode i).valid = false := by
      refine Bool.eq_false_iff.mpr fun hv => hi ?_
      exact (h.mem_iff i).mpr hv
    have ht : t = WlanAclPool.clearNode { s with
        aclnode := Function.update s.aclnode i ⟨addr, true⟩
        aclNodeQ := s.aclNodeQ ++ [i]
        num := s.num + 1 } i := by
      rw [show t = rtwAclRemoveSta _ _ from rfl, heq]
      refine hinv.remove_present hmem ?_
      show (Function.update s.aclnode i ⟨addr, true⟩ i).addr = addr
      rw [Function.update_self]
    have hnode : ∀ j, j ≠ i → t.aclnode j = s.aclnode j := by
      intro j hj
      rw [ht]
      show Function.update (Function.update s.aclnode i _) i _ j = _
      rw [Function.update_of_ne hj, Function.update_of_ne hj]
    refine ⟨by rw [ht]; rfl, ?_, ?_, fun j => ?_, fun j hj => hnode j fun he => hi (he ▸ hj)⟩
    · rw [ht]
      exact Int.add_sub_cancel s.num 1
    · rw [ht]
      show (s.aclNodeQ ++ [i]).erase i = s.aclNodeQ
      rw [List.erase_append_right _ hi, List.erase_cons_head, List.append_nil]
    · by_cases hj : j = i
      · subst hj
        rw [hvalid, ht, clearNode_self]
      · rw [hnode j hj]

end consistent

/-- Along every sequence of calls. -/
theorem acl_consistent (old : WlanAclPool) (calls : List AclCall) :
    AclConsistent (run aclStep (aclStartApMode old) calls)
      (run AccessList.step AccessList.init calls) := by
  have hboth : ∀ (s : WlanAclPool) (l : AccessList), AclInv s → Refines s l →
      AclInv (run aclStep s calls) ∧
        Refines (run aclStep s calls) (run AccessList.step l calls) := by
    induction calls with
    | nil => exact fun s l h hr => ⟨h, hr⟩
    | cons c calls ih => exact fun s l h hr => ih _ _ (aclInv_step h c) (refines_step h hr c)
  obtain ⟨h, hr⟩ := hboth (aclStartApMode old) AccessList.init (aclInv_start old)
    ⟨rfl, fun addr => iff_of_false Bool.false_ne_true (Finset.notMem_empty addr)⟩
  exact {
    num_length := h.num_eq
    num_valid := h.card_valid
    num_le := h.num_le
    distinct := List.Nodup.map_on h.addr_inj h.nodup
    access := hr.accessCtrl
    remove_gone := fun addr => Bool.eq_false_iff.mpr fun hs => ((h.search_remove addr).mp hs).1 rfl
    remove_other := fun addr i hi hne => h.remove_other hi hne
    remove_add := fun addr hs => h.remove_add hs }

end Rtl8821au.Ap
