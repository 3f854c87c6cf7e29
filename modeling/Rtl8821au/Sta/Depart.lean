import Rtl8821au.Sta.Assoc

/-!
# The end of an association

What the events at the access point leave of the records in the table, in any order:
also where a frame restarts the authentication of an associated station, or a request of
one is refused.

Results:
* `ApTable`: lookup is unambiguous, also where association ids are lost.
* `apStep_passed`: a record keeps its address; it stays in the table unless it `Departs`,
  and keeps its association unless a request of it is `Refused`.
* `ApTable.mem_released`: what leaves the table was released.
-/

namespace Rtl8821au.Sta

open Recv Places Run

/-! ## The table -/

/-- The table without its association ids, which a refused request leaves behind. -/
def StaPriv.withoutAids (s : StaPriv) : StaPriv := { s with staAid := fun _ => none }

/-- What every event keeps of the table. No two records have one address. -/
structure ApTable (s : StaPriv) : Prop where
  table : TableInv s.withoutAids
  disjoint : ∀ x ∈ s.asocList, x ∉ s.authList
  unique : ∀ a x y, Placed s.staHash x → Placed s.staHash y →
    (s.sta x).hwaddr = StaPriv.lookupAddr a → (s.sta y).hwaddr = StaPriv.lookupAddr a → x = y

theorem lookupAddr_lookupAddr (a : MacAddr) :
    StaPriv.lookupAddr (StaPriv.lookupAddr a) = StaPriv.lookupAddr a := by
  unfold StaPriv.lookupAddr
  split_ifs with hm hbc
  · rfl
  · exact absurd (by decide) hbc
  · rfl

theorem rtwGetStainfo_congr {s : StaPriv} {a b : MacAddr}
    (h : StaPriv.lookupAddr a = StaPriv.lookupAddr b) :
    s.rtwGetStainfo a = s.rtwGetStainfo b := by
  unfold StaPriv.rtwGetStainfo
  rw [h]

section table

variable {s s' : StaPriv} {x : ℕ}

/-- Lookup finds the record that has the address. -/
theorem ApTable.lookup (h : ApTable s) {a : MacAddr} (hp : Placed s.staHash x)
    (haddr : (s.sta x).hwaddr = StaPriv.lookupAddr a) : s.rtwGetStainfo a = some x := by
  obtain ⟨hfound, hsome⟩ := h.table.rtwGetStainfo a
  obtain ⟨y, hy⟩ := Option.isSome_iff_exists.mp (hsome.mpr ⟨x, hp, haddr⟩)
  obtain ⟨hpy, haddry⟩ := hfound y hy
  rw [← h.unique a y x hpy hp haddry haddr]
  exact hy

theorem ApTable.found (h : ApTable s) {a : MacAddr} (hx : s.rtwGetStainfo a = some x) :
    Placed s.staHash x ∧ (s.sta x).hwaddr = StaPriv.lookupAddr a :=
  (h.table.rtwGetStainfo a).1 x hx

theorem ApTable.hash (h : ApTable s) : Exclusive s.staHash := h.table.hash

theorem ApTable.mem_free (h : ApTable s) (x : ℕ) :
    x ∈ s.freeStaQueue ↔ x < numSta ∧ ¬Placed s.staHash x := h.table.mem_free x

/-- Records of the table may change their lists and what they hold besides the address. -/
theorem ApTable.relink (h : ApTable s) (hhash : s'.staHash = s.staHash)
    (hfree : s'.freeStaQueue = s.freeStaQueue) (hcount : s'.asocStaCount = s.asocStaCount)
    (hpend : s'.txPending = s.txPending) (haddr : ∀ x, (s'.sta x).hwaddr = (s.sta x).hwaddr)
    (hasoc : s'.asocList.Nodup ∧ ∀ x ∈ s'.asocList, Placed s.staHash x)
    (hauth : s'.authList.Nodup ∧ ∀ x ∈ s'.authList, Placed s.staHash x)
    (hdis : ∀ x ∈ s'.asocList, x ∉ s'.authList) : ApTable s' where
  table := by
    refine h.table.relink hhash hfree hcount haddr hasoc hauth ?_ ?_
    · intro i y hy
      cases hy
    · intro ac
      show (s'.txPending ac).Nodup ∧ ∀ y ∈ s'.txPending ac, Placed s.staHash y
      rw [hpend]
      exact ⟨h.table.pending_nodup ac, h.table.pending ac⟩
  disjoint := hdis
  unique a y z hy hz := by
    rw [hhash] at hy hz
    rw [haddr, haddr]
    exact h.unique a y z hy hz

theorem ApTable.asoc (h : ApTable s) :
    s.asocList.Nodup ∧ ∀ y ∈ s.asocList, Placed s.staHash y :=
  ⟨h.table.asoc_nodup, h.table.asoc⟩

theorem ApTable.auth (h : ApTable s) :
    s.authList.Nodup ∧ ∀ y ∈ s.authList, Placed s.staHash y :=
  ⟨h.table.auth_nodup, h.table.auth⟩

theorem ApTable.setSta (h : ApTable s) (f : StaInfo → StaInfo)
    (hf : (f (s.sta x)).hwaddr = (s.sta x).hwaddr) : ApTable (s.setSta x f) :=
  h.relink rfl rfl rfl rfl (fun y => StaPriv.setSta_hwaddr s x f hf y) h.asoc h.auth h.disjoint

theorem ApTable.unlistAuth (h : ApTable s) (x : ℕ) : ApTable (s.unlistAuth x) := by
  rw [StaPriv.unlistAuth_eq]
  exact h.relink rfl rfl rfl rfl (fun _ => rfl) h.asoc (nodup_placed_erase x h.auth.1 h.auth.2)
    fun y hy hmem => h.disjoint y hy (List.mem_of_mem_erase hmem)

theorem ApTable.unlistAsoc (h : ApTable s) (x : ℕ) :
    ApTable (s.unlistAsoc x) ∧ x ∉ (s.unlistAsoc x).asocList := by
  unfold StaPriv.unlistAsoc
  split_ifs with hx
  · refine ⟨h.relink rfl rfl rfl rfl (fun _ => rfl)
      (nodup_placed_erase x h.asoc.1 h.asoc.2) h.auth fun y hy => ?_, ?_⟩
    · exact h.disjoint y (List.mem_of_mem_erase hy)
    · exact fun hmem => (h.asoc.1.mem_erase_iff.mp hmem).1 rfl
  · exact ⟨h, hx⟩

theorem ApTable.listAuth (h : ApTable s) (hp : Placed s.staHash x) (hx : x ∉ s.asocList) :
    ApTable (s.listAuth x) := by
  unfold StaPriv.listAuth
  split_ifs with hmem
  · exact h
  · refine h.relink rfl rfl rfl rfl (fun _ => rfl) h.asoc
      (nodup_placed_append h.auth.1 h.auth.2 hmem hp) fun y hy hauth => ?_
    rcases List.mem_append.mp hauth with hauth | hauth
    · exact h.disjoint y hy hauth
    · rw [List.mem_singleton.mp hauth] at hy
      exact hx hy

theorem ApTable.listAsoc (h : ApTable s) (hp : Placed s.staHash x) (hx : x ∉ s.authList) :
    ApTable (s.listAsoc x) := by
  unfold StaPriv.listAsoc
  split_ifs with hmem
  · exact h
  · refine h.relink rfl rfl rfl rfl (fun _ => rfl)
      (nodup_placed_append h.asoc.1 h.asoc.2 hmem hp) h.auth fun y hy hauth => ?_
    rcases List.mem_append.mp hy with hy | hy
    · exact h.disjoint y hy hauth
    · rw [List.mem_singleton.mp hy] at hauth
      exact hx hauth

/-- A record off the association list is released. -/
theorem ApTable.free (h : ApTable s) (hp : Placed s.staHash x) (hx : x ∉ s.asocList) :
    ApTable (s.rtwFreeStainfo (some x)) := by
  have r := s.rtwFreeStainfo_released x
  have r' := s.withoutAids.rtwFreeStainfo_released x
  have ht : TableInv (s.withoutAids.rtwFreeStainfo (some x)) := h.table.free hp hx
  refine ⟨ht.relink ?_ ?_ ?_ ?_ ?_ ?_ ?_ ?_, ?_, ?_⟩
  · exact r.staHash.trans r'.staHash.symm
  · exact r.freeStaQueue.trans r'.freeStaQueue.symm
  · exact r.asocStaCount.trans r'.asocStaCount.symm
  · exact fun y => (r.hwaddr y).trans (r'.hwaddr y).symm
  · rw [show (s.rtwFreeStainfo (some x)).withoutAids.asocList =
      (s.withoutAids.rtwFreeStainfo (some x)).asocList from r.asocList.trans r'.asocList.symm]
    exact ⟨ht.asoc_nodup, ht.asoc⟩
  · rw [show (s.rtwFreeStainfo (some x)).withoutAids.authList =
      (s.withoutAids.rtwFreeStainfo (some x)).authList from r.authList.trans r'.authList.symm]
    exact ⟨ht.auth_nodup, ht.auth⟩
  · intro i y hy
    cases hy
  · intro ac
    rw [show (s.rtwFreeStainfo (some x)).withoutAids.txPending =
      (s.withoutAids.rtwFreeStainfo (some x)).txPending from r.txPending.trans r'.txPending.symm]
    exact ⟨ht.pending_nodup ac, ht.pending ac⟩
  · intro y hy
    rw [r.asocList] at hy
    rw [r.authList]
    exact fun hmem => h.disjoint y hy (List.mem_of_mem_erase hmem)
  · intro a y z hy hz
    rw [r.staHash, placed_del h.hash] at hy hz
    rw [r.hwaddr, r.hwaddr]
    exact h.unique a y z hy.2 hz.2

/-- A new record has an address that the table did not find. -/
theorem ApTable.alloc (h : ApTable s) {sa : MacAddr} (hnone : s.rtwGetStainfo sa = none)
    (hs : s.rtwAllocStainfo sa = (s', some x)) :
    ApTable s' ∧ Placed s'.staHash x ∧ x ∉ s'.asocList := by
  have ht := h.table.alloc sa
  unfold StaPriv.rtwAllocStainfo at hs ht
  cases hfree : s.freeStaQueue with
  | nil =>
    rw [hfree] at hs
    cases hs
  | cons psta rest =>
    rw [hfree] at hs
    rw [show s.withoutAids.freeStaQueue = psta :: rest from hfree] at ht
    obtain ⟨hst, hx⟩ := Prod.mk.inj hs
    obtain rfl := Option.some.inj hx
    subst hst
    have hout : ¬Placed s.staHash psta :=
      ((h.mem_free psta).mp (hfree ▸ List.mem_cons_self)).2
    refine ⟨⟨ht, h.disjoint, ?_⟩, placed_put.mpr (Or.inl rfl), fun hmem => ?_⟩
    · have hold : ∀ a y, y ≠ psta → Placed (put s.staHash (wifiMacHash sa) psta) y →
          (Function.update s.sta psta { hwaddr := sa } y).hwaddr = StaPriv.lookupAddr a →
            s.rtwGetStainfo a = some y := by
        intro a y hne hp haddr
        rw [Function.update_of_ne hne] at haddr
        exact h.lookup ((placed_put.mp hp).resolve_left hne) haddr
      have hnew : ∀ a, (Function.update s.sta psta { hwaddr := sa } psta).hwaddr =
          StaPriv.lookupAddr a → s.rtwGetStainfo a = none := by
        intro a haddr
        rw [Function.update_self] at haddr
        rw [← hnone]
        apply rtwGetStainfo_congr
        rw [show sa = StaPriv.lookupAddr a from haddr, lookupAddr_lookupAddr]
      intro a y z hy hz haddry haddrz
      by_cases hyp : y = psta
      · by_cases hzp : z = psta
        · rw [hyp, hzp]
        · subst hyp
          have hfound := hold a z hzp hz haddrz
          rw [hnew a haddry] at hfound
          cases hfound
      · have hfound := hold a y hyp hy haddry
        by_cases hzp : z = psta
        · subst hzp
          rw [hnew a haddrz] at hfound
          cases hfound
        · rw [hold a z hzp hz haddrz] at hfound
          exact (Option.some.inj hfound).symm
    · exact hout (h.table.asoc psta hmem)

end table

/-! ## What an operation leaves of the records -/

/-- From `s` to `s'` the records `new` are taken from the free queue; of the others, those
    with `gone` may leave the table, and those with `cut` may lose their association. -/
structure Passed (s s' : StaPriv) (new : List ℕ) (gone cut : ℕ → Prop) : Prop where
  table : ApTable s'
  hwaddr : ∀ x ∉ new, (s'.sta x).hwaddr = (s.sta x).hwaddr
  assocSuccess : ∀ x ∉ new, ¬cut x → (s.sta x).state.assocSuccess = true →
    (s'.sta x).state.assocSuccess = true
  placed : ∀ x ∉ new, ¬gone x → Placed s.staHash x → Placed s'.staHash x
  free : ∃ back, s'.freeStaQueue = s.freeStaQueue.drop new.length ++ back

section passed

variable {s s' s'' : StaPriv} {x : ℕ} {new : List ℕ} {gone gone' cut cut' : ℕ → Prop}

theorem Passed.refl (h : ApTable s) : Passed s s [] gone cut :=
  ⟨h, fun _ _ => rfl, fun _ _ _ h => h, fun _ _ _ h => h, [], (List.append_nil _).symm⟩

theorem Passed.trans (h : Passed s s' new gone cut) (h' : Passed s' s'' [] gone' cut')
    (hgone : ∀ x ∉ new, gone' x → gone x) (hcut : ∀ x ∉ new, cut' x → cut x) :
    Passed s s'' new gone cut where
  table := h'.table
  hwaddr x hx := (h'.hwaddr x List.not_mem_nil).trans (h.hwaddr x hx)
  assocSuccess x hx hc hs :=
    h'.assocSuccess x List.not_mem_nil (fun hc' => hc (hcut x hx hc')) (h.assocSuccess x hx hc hs)
  placed x hx hg hp :=
    h'.placed x List.not_mem_nil (fun hg' => hg (hgone x hx hg')) (h.placed x hx hg hp)
  free := by
    obtain ⟨back, hback⟩ := h.free
    obtain ⟨back', hback'⟩ := h'.free
    refine ⟨back ++ back', ?_⟩
    rw [hback', hback, List.length_nil, List.drop_zero, List.append_assoc]

theorem Passed.mono (h : Passed s s' new gone cut) (hgone : ∀ x, gone x → gone' x)
    (hcut : ∀ x, cut x → cut' x) : Passed s s' new gone' cut' :=
  ⟨h.table, h.hwaddr, fun x hx hc => h.assocSuccess x hx fun hc' => hc (hcut x hc'),
    fun x hx hg => h.placed x hx fun hg' => hg (hgone x hg'), h.free⟩

/-- The records and their places stay as they are. -/
theorem Passed.of_sta (h : ApTable s') (hsta : s'.sta = s.sta) (hhash : s'.staHash = s.staHash)
    (hfree : s'.freeStaQueue = s.freeStaQueue) : Passed s s' [] gone cut := by
  refine ⟨h, fun x _ => by rw [hsta], fun x _ _ hs => by rw [hsta]; exact hs,
    fun x _ _ hp => by rw [hhash]; exact hp, [], ?_⟩
  rw [hfree]
  exact (List.append_nil _).symm

theorem Passed.setSta (h : ApTable s) (f : StaInfo → StaInfo)
    (haddr : (f (s.sta x)).hwaddr = (s.sta x).hwaddr)
    (hcut : ¬cut x → (s.sta x).state.assocSuccess = true →
      (f (s.sta x)).state.assocSuccess = true) : Passed s (s.setSta x f) [] gone cut := by
  refine ⟨h.setSta f haddr, fun y _ => StaPriv.setSta_hwaddr s x f haddr y, fun y _ hc hs => ?_,
    fun y _ _ hp => hp, [], (List.append_nil _).symm⟩
  by_cases hy : y = x
  · subst hy
    rw [StaPriv.setSta_self]
    exact hcut hc hs
  · rw [StaPriv.setSta_of_ne s x f hy]
    exact hs

theorem Passed.listAuth (h : ApTable s) (hp : Placed s.staHash x) (hx : x ∉ s.asocList) :
    Passed s (s.listAuth x) [] gone cut := by
  refine .of_sta (h.listAuth hp hx) ?_ ?_ ?_ <;> unfold StaPriv.listAuth <;> split_ifs <;> rfl

theorem Passed.listAsoc (h : ApTable s) (hp : Placed s.staHash x) (hx : x ∉ s.authList) :
    Passed s (s.listAsoc x) [] gone cut := by
  refine .of_sta (h.listAsoc hp hx) ?_ ?_ ?_ <;> unfold StaPriv.listAsoc <;> split_ifs <;> rfl

theorem Passed.unlistAuth (h : ApTable s) (x : ℕ) : Passed s (s.unlistAuth x) [] gone cut := by
  refine .of_sta (h.unlistAuth x) ?_ ?_ ?_ <;> rw [StaPriv.unlistAuth_eq]

theorem Passed.unlistAsoc (h : ApTable s) (x : ℕ) : Passed s (s.unlistAsoc x) [] gone cut := by
  refine .of_sta (h.unlistAsoc x).1 ?_ ?_ ?_ <;> unfold StaPriv.unlistAsoc <;> split_ifs <;> rfl

/-- A release leaves the association in the record. -/
theorem rtwFreeStainfo_assocSuccess (s : StaPriv) (x y : ℕ) :
    ((s.rtwFreeStainfo (some x)).sta y).state.assocSuccess =
      (s.sta y).state.assocSuccess := by
  have hset : ∀ (t : StaPriv) (f : StaInfo → StaInfo),
      (f (t.sta x)).state.assocSuccess = (t.sta x).state.assocSuccess →
        ((t.setSta x f).sta y).state.assocSuccess = (t.sta y).state.assocSuccess := by
    intro t f hf
    by_cases hy : y = x
    · rw [hy, StaPriv.setSta_self, hf]
    · rw [StaPriv.setSta_of_ne t x f hy]
  have hrelease : ∀ t : StaPriv, ((t.releaseAid x).sta y).state.assocSuccess =
      (t.sta y).state.assocSuccess := by
    intro t
    unfold StaPriv.releaseAid
    dsimp only
    split_ifs
    · exact hset _ _ rfl
    · rfl
  simp only [StaPriv.rtwFreeStainfo]
  rw [hrelease, hset _ _ rfl, StaPriv.unlistAuth_sta, StaPriv.unlinkSta_sta, hset s _ rfl]

theorem Passed.free_sta (h : ApTable s) (hp : Placed s.staHash x) (hx : x ∉ s.asocList)
    (hgone : gone x) : Passed s (s.rtwFreeStainfo (some x)) [] gone cut := by
  have r := s.rtwFreeStainfo_released x
  refine ⟨h.free hp hx, fun y _ => r.hwaddr y, fun y _ _ hs => ?_, fun y _ hg hy => ?_, [x],
    r.freeStaQueue⟩
  · rw [rtwFreeStainfo_assocSuccess]
    exact hs
  · rw [r.staHash, placed_del h.hash]
    exact ⟨fun hyx => hg (hyx ▸ hgone), hy⟩

/-- A record is taken from the free queue. -/
theorem Passed.alloc (h : ApTable s) {sa : MacAddr} (hnone : s.rtwGetStainfo sa = none)
    (hs : s.rtwAllocStainfo sa = (s', some x)) :
    s.freeStaQueue.take 1 = [x] ∧ Passed s s' [x] gone cut := by
  have h' := (h.alloc hnone hs).1
  unfold StaPriv.rtwAllocStainfo at hs
  cases hfree : s.freeStaQueue with
  | nil =>
    rw [hfree] at hs
    cases hs
  | cons psta rest =>
    rw [hfree] at hs
    obtain ⟨hst, hx⟩ := Prod.mk.inj hs
    obtain rfl := Option.some.inj hx
    subst hst
    have hsta : ∀ y ∉ [psta], Function.update s.sta psta { hwaddr := sa } y = s.sta y :=
      fun y hy => Function.update_of_ne (fun hyp => hy (List.mem_singleton.mpr hyp)) ..
    refine ⟨rfl, h', fun y hy => ?_, fun y hy _ hs => ?_, fun y _ _ hp => ?_, [], ?_⟩
    · show (Function.update s.sta psta _ y).hwaddr = _
      rw [hsta y hy]
    · show (Function.update s.sta psta _ y).state.assocSuccess = true
      rw [hsta y hy]
      exact hs
    · exact placed_put.mpr (Or.inr hp)
    · rw [hfree]
      exact (List.append_nil rest).symm

end passed

/-! ## What an event does -/

/-- The record that an event takes from the free queue (`authRecord`). -/
def allocated (priv : RtlPriv) (cfg : ApConfig) (s : StaPriv) : ApEvent → List ℕ
  | .auth f =>
    if authAllowed priv cfg f ∧ s.rtwGetStainfo (getAddr2 f) = none then s.freeStaQueue.take 1
    else []
  | .assocReq _ | .deauth _ | .disassoc _ | .tick _ => []

/-- The event releases the station: a failed authentication, a farewell of an associated
    station, or an expiry. -/
def Departs (priv : RtlPriv) (cfg : ApConfig) (s : StaPriv) : ApEvent → ℕ → Prop
  | .auth f, x => authAllowed priv cfg f = true ∧ s.rtwGetStainfo (getAddr2 f) = some x ∧
      authExchange (effectiveAuthMode priv) (parseAuth priv f) (s.sta x) = none
  | .assocReq _, _ => False
  | .deauth f, x | .disassoc f, x =>
    getAddr3 f = priv.mybssid ∧ s.rtwGetStainfo (getAddr2 f) = some x ∧ x ∈ s.asocList
  | .tick alive, x => x ∈ s.authList ∧ (s.sta x).expireTo = 1 ∨
      x ∈ s.asocList ∧ (ageAsoc (alive x) (s.sta x)).expireTo = 0

/-- A request of the station is refused that did not authenticate anew. -/
def Refused (priv : RtlPriv) (cfg : ApConfig) (s : StaPriv) : ApEvent → ℕ → Prop
  | .assocReq f, x => 24 + ieOffset f ≤ f.len ∧ s.rtwGetStainfo (getAddr2 f) = some x ∧
      (s.sta x).state.authSuccess = false ∧ (assocStatus priv cfg (cfg.parse f) ≠ 0 ∨
        (s.sta x).aid = 0 ∧ s.maxNumSta < s.firstAid)
  | .auth _, _ | .deauth _, _ | .disassoc _, _ | .tick _, _ => False

section handlers

variable {s : StaPriv} {priv : RtlPriv} {cfg : ApConfig}

theorem allocated_of_found {f : RecvFrame} {x : ℕ} (h : s.rtwGetStainfo (getAddr2 f) = some x) :
    allocated priv cfg s (.auth f) = [] := if_neg fun hc => by
  rw [h] at hc
  cases hc.2

theorem allocated_of_none {f : RecvFrame} (hallowed : authAllowed priv cfg f = true)
    (h : s.rtwGetStainfo (getAddr2 f) = none) :
    allocated priv cfg s (.auth f) = s.freeStaQueue.take 1 := if_pos ⟨hallowed, h⟩

/-- The record on which `OnAuth` works. -/
theorem authRecord_passed (h : ApTable s) {f : RecvFrame} (hallowed : authAllowed priv cfg f = true)
    {s' : StaPriv} {x : ℕ} (hs : authRecord s (getAddr2 f) = (s', some x)) :
    Passed s s' (allocated priv cfg s (.auth f)) (fun _ => False) (fun _ => False) ∧
      Placed s'.staHash x ∧
      x ∉ s'.asocList ∧ (x ∉ allocated priv cfg s (.auth f) →
        s.rtwGetStainfo (getAddr2 f) = some x ∧ s'.sta x = s.sta x) := by
  unfold Sta.authRecord at hs
  cases hfound : s.rtwGetStainfo (getAddr2 f) with
  | some pstat =>
    rw [hfound] at hs
    rw [allocated_of_found hfound]
    obtain ⟨hst, hx⟩ := Prod.mk.inj hs
    obtain rfl := Option.some.inj hx
    subst hst
    have hsame : (s.unlistAsoc pstat).sta = s.sta ∧ (s.unlistAsoc pstat).staHash = s.staHash := by
      unfold StaPriv.unlistAsoc
      split_ifs <;> exact ⟨rfl, rfl⟩
    refine ⟨.unlistAsoc h pstat, ?_, (h.unlistAsoc pstat).2, fun _ => ⟨rfl, ?_⟩⟩
    · rw [hsame.2]
      exact (h.found hfound).1
    · rw [hsame.1]
  | none =>
    rw [hfound] at hs
    rw [allocated_of_none hallowed hfound]
    dsimp only at hs
    cases halloc : s.rtwAllocStainfo (getAddr2 f) with
    | mk s1 ox =>
      cases ox with
      | none =>
        rw [halloc] at hs
        cases hs
      | some pstat =>
        rw [halloc] at hs
        obtain ⟨hst, hx⟩ := Prod.mk.inj hs
        obtain rfl := Option.some.inj hx
        subst hst
        obtain ⟨-, hp, hout⟩ := h.alloc hfound halloc
        obtain ⟨hnew, hpass⟩ : _ ∧ Passed s s1 [pstat] (fun _ => False) (fun _ => False) :=
          Passed.alloc h hfound halloc
        rw [hnew]
        refine ⟨⟨hpass.table.setSta _ rfl, fun y hy => ?_, fun y hy hc hs => ?_, hpass.placed,
          hpass.free⟩, hp, hout, fun hno => absurd (List.mem_singleton_self pstat) hno⟩
        · rw [StaPriv.setSta_hwaddr _ pstat _ rfl]
          exact hpass.hwaddr y hy
        · have hne : y ≠ pstat := fun hyp => hy (List.mem_singleton.mpr hyp)
          rw [StaPriv.setSta_of_ne _ pstat _ hne]
          exact hpass.assocSuccess y hy hc hs

theorem Passed.onAuth (h : ApTable s) (f : RecvFrame) :
    Passed s (onAuth priv cfg s f).1 (allocated priv cfg s (.auth f))
      (Departs priv cfg s (.auth f)) (Refused priv cfg s (.auth f)) := by
  unfold Sta.onAuth
  split_ifs with hallowed
  · cases hrec : authRecord s (getAddr2 f) with
    | mk s' ox =>
      cases ox with
      | none =>
        obtain rfl := authRecord_none hrec
        have hnew : allocated priv cfg s' (.auth f) = [] := by
          cases hfound : s'.rtwGetStainfo (getAddr2 f) with
          | some x => exact allocated_of_found hfound
          | none =>
            rw [allocated_of_none hallowed hfound]
            unfold authRecord StaPriv.rtwAllocStainfo at hrec
            rw [hfound] at hrec
            cases hfree : s'.freeStaQueue with
            | nil => rfl
            | cons psta rest =>
              rw [hfree] at hrec
              exact absurd (Prod.mk.inj hrec).2 (by nofun)
        rw [hnew]
        exact .refl h
      | some x =>
        obtain ⟨hpass, hp, hout, hold⟩ := authRecord_passed h hallowed hrec
        have hlist : Passed s (s'.listAuth x) (allocated priv cfg s (.auth f))
            (Departs priv cfg s (.auth f)) (Refused priv cfg s (.auth f)) :=
          (hpass.mono (fun _ => False.elim) fun _ => False.elim).trans
            (.listAuth hpass.table hp hout) (fun _ _ hg => hg) fun _ _ hc => hc
        obtain ⟨hsta, hhash, hasoc⟩ := listAuth_keeps s' x
        rw [← hhash] at hp
        rw [← hasoc] at hout
        dsimp only
        cases hex : authExchange (effectiveAuthMode priv) (parseAuth priv f)
            ((s'.listAuth x).sta x) with
        | none =>
          have hfree : Passed (s'.listAuth x) _ [] (fun y => y = x) (fun _ => False) :=
            .free_sta hlist.table hp hout rfl
          refine hlist.trans hfree ?_ fun _ _ => False.elim
          rintro y hy rfl
          obtain ⟨hfound, hsame⟩ := hold hy
          rw [hsta, hsame] at hex
          exact ⟨hallowed, hfound, hex⟩
        | some i =>
          obtain ⟨haddr, -, hsucc⟩ := authExchange_keeps hex
          refine hlist.trans (.setSta hlist.table (fun _ => i) haddr ?_) (fun _ _ hg => hg)
            fun _ _ hc => hc
          intro _ hs
          exact hsucc.trans hs
  · have hnew : allocated priv cfg s (.auth f) = [] := if_neg fun hc => hallowed hc.1
    rw [hnew]
    exact .refl h

theorem Passed.assignAid (h : ApTable s) {x : ℕ} {s' : StaPriv} (hs : s.assignAid x = some s') :
    Passed s s' [] (fun _ => False) (fun _ => False) ∧ s'.staHash = s.staHash := by
  unfold StaPriv.assignAid at hs
  split_ifs at hs
  · obtain rfl := Option.some.inj hs
    exact ⟨.refl h, rfl⟩
  · obtain rfl := Option.some.inj hs
    have haid : ApTable { s with
        staAid := Function.update s.staAid (s.firstAid - 1) (some x) } :=
      h.relink rfl rfl rfl rfl (fun _ => rfl) h.asoc h.auth h.disjoint
    have hset : Passed _ _ [] (fun _ => False) (fun _ => False) := Passed.setSta (x := x) haid
      (fun i => { i with aid := s.firstAid }) rfl fun _ hs => hs
    have hsame : Passed s { s with
        staAid := Function.update s.staAid (s.firstAid - 1) (some x) } [] (fun _ => False)
        (fun _ => False) :=
      .of_sta haid rfl rfl rfl
    exact ⟨hsame.trans hset (fun _ _ hg => hg) fun _ _ hc => hc, rfl⟩

/-- An accepted request: the station is associated. -/
theorem Passed.assocAccept (h : ApTable s) {x : ℕ} (hp : Placed s.staHash x)
    (priv : RtlPriv) (e : AssocElems) :
    Passed s (assocAccept priv e s x) [] (fun _ => False) (fun _ => False) ∧
      ((assocAccept priv e s x).sta x).state.assocSuccess = true := by
  let t := s.setSta x fun i =>
    { i with state := { i.state with assocState := false, assocSuccess := true } }
  have ht : Passed s t [] (fun _ => False) (fun _ => False) := .setSta h _ rfl fun _ _ => rfl
  have htx : (t.sta x).state.assocSuccess = true := by rw [StaPriv.setSta_self]
  let u := t.unlistAuth x
  have hu : Passed t u [] (fun _ => False) (fun _ => False) := .unlistAuth ht.table x
  have hux : x ∉ u.authList := by
    show x ∉ (t.unlistAuth x).authList
    rw [StaPriv.unlistAuth_eq]
    exact fun hmem => (ht.table.auth.1.mem_erase_iff.mp hmem).1 rfl
  let v := if x ∈ u.asocList then u else u.setSta x fun i => { i with expireTo := expireTo }
  have hv : Passed u v [] (fun _ => False) (fun _ => False) ∧ v.authList = u.authList := by
    show Passed u (if _ then _ else _) _ _ _ ∧ (if _ then _ else _ : StaPriv).authList = _
    split_ifs
    · exact ⟨.refl hu.table, rfl⟩
    · exact ⟨.setSta hu.table _ rfl fun _ hs => hs, rfl⟩
  have htv := hu.trans hv.1 (fun _ _ hg => hg) fun _ _ hc => hc
  have hsv := ht.trans htv (fun _ _ hg => hg) fun _ _ hc => hc
  have hw : Passed v (v.listAsoc x) [] (fun _ => False) (fun _ => False) :=
    .listAsoc hsv.table (hsv.placed x List.not_mem_nil id hp) (hv.2 ▸ hux)
  have hz : Passed (v.listAsoc x) (Sta.assocAccept priv e s x) [] (fun _ => False)
      (fun _ => False) :=
    Passed.setSta (x := x) hw.table (fun i =>
      { i with
        ht := e.ht && e.vht
        aggEnableBitmap := 0
        ieee8021xBlocked := priv.dot11AuthAlgrthm == .ieee8021X
        state := { i.state with linked := true } }) rfl fun _ hs => hs
  have htz := (htv.trans hw (fun _ _ hg => hg) fun _ _ hc => hc).trans hz (fun _ _ hg => hg)
    fun _ _ hc => hc
  exact ⟨ht.trans htz (fun _ _ hg => hg) fun _ _ hc => hc,
    htz.assocSuccess x List.not_mem_nil id htx⟩

/-- A request that is not refused keeps the association; so does one after a new
    authentication. -/
theorem Passed.onAssocReq (h : ApTable s) (f : RecvFrame) :
    Passed s (onAssocReq priv cfg s f).1 [] (Departs priv cfg s (.assocReq f))
      (Refused priv cfg s (.assocReq f)) := by
  unfold Sta.onAssocReq
  by_cases hlen : f.len < 24 + ieOffset f
  · rw [if_pos hlen]
    exact .refl h
  rw [if_neg hlen]
  cases hfound : s.rtwGetStainfo (getAddr2 f) with
  | none => exact .refl h
  | some x =>
    have hp := (h.found hfound).1
    dsimp only
    by_cases hst : !(s.sta x).state.authSuccess ∧ !(s.sta x).state.assocSuccess
    · rw [if_pos hst]
      exact .refl h
    rw [if_neg hst]
    have hkeep : (s.sta x).state.authSuccess = true → (s.sta x).state.assocSuccess = true →
        (assocEnter (s.sta x).state).assocSuccess = true := by
      intro hauth hs
      rw [assocEnter, if_pos hauth]
      exact hs
    have hfail : (assocStatus priv cfg (cfg.parse f) ≠ 0 ∨
        (s.sta x).aid = 0 ∧ s.maxNumSta < s.firstAid) →
        Passed s (assocReqFail (s.setSta x fun i => { i with state := assocEnter i.state }) x) []
          (Departs priv cfg s (.assocReq f)) (Refused priv cfg s (.assocReq f)) := by
      intro hrefused
      have henter : Passed s (s.setSta x fun i => { i with state := assocEnter i.state }) []
          (Departs priv cfg s (.assocReq f)) (Refused priv cfg s (.assocReq f)) := by
        refine .setSta h _ rfl fun hno hs => ?_
        cases hauth : (s.sta x).state.authSuccess with
        | true => exact hkeep hauth hs
        | false => exact absurd ⟨Nat.le_of_not_lt hlen, hfound, hauth, hrefused⟩ hno
      exact henter.trans (.setSta henter.table _ rfl fun _ hs => hs) (fun _ _ hg => hg)
        fun _ _ hc => hc
    by_cases hstatus : assocStatus priv cfg (cfg.parse f) ≠ 0
    · rw [if_pos hstatus]
      exact hfail (Or.inl hstatus)
    rw [if_neg hstatus]
    cases hassign : (s.setSta x fun i => { i with state := assocEnter i.state }).assignAid x with
    | none =>
      apply hfail
      unfold StaPriv.assignAid at hassign
      split_ifs at hassign with haid hroom
      rw [StaPriv.setSta_self] at haid
      exact Or.inr ⟨Nat.eq_zero_of_not_pos haid, hroom⟩
    | some s2 =>
      have henter : Passed s (s.setSta x fun i => { i with state := assocEnter i.state }) []
          (Departs priv cfg s (.assocReq f)) (fun y => y = x) :=
        .setSta h _ rfl fun hno => absurd rfl hno
      obtain ⟨haid, hhash⟩ := Passed.assignAid henter.table hassign
      have hs2 := henter.trans haid (fun _ _ hg => hg.elim) fun _ _ hc => hc.elim
      obtain ⟨haccept, hx⟩ := Passed.assocAccept hs2.table (hhash.symm ▸ hp) priv
        (cfg.parse f)
      have hall := hs2.trans haccept (fun _ _ hg => hg.elim) fun _ _ hc => hc.elim
      refine ⟨hall.table, hall.hwaddr, fun y hy _ hs => ?_, hall.placed, hall.free⟩
      by_cases hyx : y = x
      · rw [hyx]
        exact hx
      · exact hall.assocSuccess y hy hyx hs

/-- An associated station leaves. -/
theorem Passed.leave (h : ApTable s) {x : ℕ} (hx : x ∈ s.asocList) :
    Passed s ((s.unlistAsoc x).rtwFreeStainfo (some x)) [] (fun y => y = x)
      (fun _ => False) := by
  have hout : Passed s (s.unlistAsoc x) [] (fun y => y = x) (fun _ => False) := .unlistAsoc h x
  have hp : Placed (s.unlistAsoc x).staHash x := by
    rw [(unlistAsoc_keeps s x).1]
    exact h.asoc.2 x hx
  have hfree : Passed (s.unlistAsoc x) _ [] (fun y => y = x) (fun _ => False) :=
    .free_sta hout.table hp (h.unlistAsoc x).2 rfl
  exact hout.trans hfree (fun _ _ hg => hg) fun _ _ hc => hc

theorem Passed.onDeAuth (cfg : ApConfig) (h : ApTable s) (f : RecvFrame) :
    Passed s (onDeAuth priv s f) [] (Departs priv cfg s (.deauth f)) (fun _ => False) := by
  unfold Sta.onDeAuth
  split_ifs with hbssid
  · exact .refl h
  · cases hfound : s.rtwGetStainfo (getAddr2 f) with
    | none => exact .refl h
    | some x =>
      dsimp only
      split_ifs with hx
      · refine (Passed.leave h hx).mono ?_ fun _ hc => hc
        rintro y rfl
        exact ⟨not_not.mp hbssid, hfound, hx⟩
      · exact .refl h

/-! ### The tick -/

/-- A walk over a list each of whose steps works on one station: it releases the stations
    that meet `R` when it begins. -/
theorem foldl_passed {g : StaPriv → ℕ → StaPriv} {M : StaPriv → ℕ → Prop}
    {R : ℕ → StaInfo → Prop}
    (hg : ∀ t x, ApTable t → M t x →
      Passed t (g t x) [] (fun y => y = x ∧ R y (t.sta y)) (fun _ => False) ∧
        ∀ y, y ≠ x → (g t x).sta y = t.sta y ∧ (M t y → M (g t x) y))
    {l : List ℕ} (hnd : l.Nodup) (hl : ∀ x ∈ l, M s x) (h : ApTable s) :
    Passed s (l.foldl g s) [] (fun y => y ∈ l ∧ R y (s.sta y)) (fun _ => False) ∧
      ∀ y ∉ l, (l.foldl g s).sta y = s.sta y := by
  induction l generalizing s with
  | nil => exact ⟨.refl h, fun _ _ => rfl⟩
  | cons x l ih =>
    obtain ⟨hx, hnd⟩ := List.nodup_cons.mp hnd
    obtain ⟨hhead, hother⟩ := hg s x h (hl x List.mem_cons_self)
    have hne : ∀ y ∈ l, y ≠ x := fun y hy hyx => hx (hyx ▸ hy)
    obtain ⟨htail, hrest⟩ := ih hnd
      (fun y hy => (hother y (hne y hy)).2 (hl y (List.mem_cons_of_mem x hy))) hhead.table
    refine ⟨(hhead.mono ?_ fun _ hc => hc).trans htail ?_ fun _ _ hc => hc, ?_⟩
    · rintro y ⟨rfl, hy⟩
      exact ⟨List.mem_cons_self, hy⟩
    · rintro y - ⟨hy, hR⟩
      rw [(hother y (hne y hy)).1] at hR
      exact ⟨List.mem_cons_of_mem x hy, hR⟩
    · intro y hy
      rw [List.mem_cons, not_or] at hy
      show (l.foldl g (g s x)).sta y = _
      rw [hrest y hy.2, (hother y hy.1).1]

/-- The first walk leaves the association list alone. -/
theorem expireAuth_passed (h : ApTable s) {x : ℕ} (hx : x ∈ s.authList) :
    Passed s (expireAuth s x) [] (fun y => y = x ∧ (s.sta y).expireTo = 1) (fun _ => False) ∧
      ∀ y, y ≠ x → (expireAuth s x).sta y = s.sta y ∧
        (y ∈ s.authList → y ∈ (expireAuth s x).authList) := by
  unfold expireAuth
  by_cases hpos : (s.sta x).expireTo > 0
  · rw [if_pos hpos]
    dsimp only
    have hset : Passed s (s.setSta x fun i => { i with expireTo := i.expireTo - 1 }) []
        (fun y => y = x ∧ (s.sta y).expireTo = 1) (fun _ => False) :=
      .setSta h _ rfl fun _ hs => hs
    have hother : ∀ y, y ≠ x →
        (s.setSta x fun i => { i with expireTo := i.expireTo - 1 }).sta y = s.sta y :=
      fun y hy => StaPriv.setSta_of_ne s x _ hy
    by_cases hzero : ((s.setSta x fun i => { i with expireTo := i.expireTo - 1 }).sta x).expireTo = 0
    · rw [if_pos hzero]
      generalize hs1 : (s.setSta x fun i => { i with expireTo := i.expireTo - 1 }) = s1
        at hset hother hzero ⊢
      have hlists : s1.authList = s.authList ∧ s1.asocList = s.asocList ∧
          s1.staHash = s.staHash := by
        rw [← hs1]
        exact ⟨rfl, rfl, rfl⟩
      have hone : (s.sta x).expireTo = 1 := by
        rw [← hs1, StaPriv.setSta_self] at hzero
        have hle := Nat.sub_eq_zero_iff_le.mp hzero
        omega
      have hunlist : Passed s1 (s1.unlistAuth x) [] (fun y => y = x ∧ (s.sta y).expireTo = 1)
          (fun _ => False) := .unlistAuth hset.table x
      have hp : Placed (s1.unlistAuth x).staHash x := by
        rw [StaPriv.unlistAuth_eq]
        exact hlists.2.2 ▸ h.auth.2 x hx
      have hout : x ∉ (s1.unlistAuth x).asocList := by
        rw [StaPriv.unlistAuth_eq]
        exact fun hmem => h.disjoint x (hlists.2.1 ▸ hmem) hx
      refine ⟨(hset.trans hunlist (fun _ _ hg => hg) fun _ _ hc => hc).trans
        (.free_sta hunlist.table hp hout ⟨rfl, hone⟩) (fun _ _ hg => hg) fun _ _ hc => hc,
        fun y hy => ⟨?_, fun hmem => ?_⟩⟩
      · have r := (s1.unlistAuth x).rtwFreeStainfo_released x
        rw [r.sta y hy, StaPriv.unlistAuth_sta, hother y hy]
      · have r := (s1.unlistAuth x).rtwFreeStainfo_released x
        rw [r.authList, StaPriv.unlistAuth_eq, hlists.1]
        exact (List.mem_erase_of_ne hy).mpr ((List.mem_erase_of_ne hy).mpr hmem)
    · rw [if_neg hzero]
      exact ⟨hset, fun y hy => ⟨hother y hy, fun hmem => hmem⟩⟩
  · rw [if_neg hpos]
    exact ⟨.refl h, fun y _ => ⟨rfl, fun hmem => hmem⟩⟩

theorem expireAsoc_passed (alive : ℕ → Bool) (h : ApTable s) {x : ℕ} (hx : x ∈ s.asocList) :
    Passed s (expireAsoc alive s x) []
        (fun y => y = x ∧ (ageAsoc (alive y) (s.sta y)).expireTo = 0) (fun _ => False) ∧
      ∀ y, y ≠ x → (expireAsoc alive s x).sta y = s.sta y ∧
        (y ∈ s.asocList → y ∈ (expireAsoc alive s x).asocList) := by
  obtain ⟨haddr, -, hsucc⟩ := ageAsoc_keeps (alive x) (s.sta x)
  have hset : Passed s (s.setSta x (ageAsoc (alive x))) []
      (fun y => y = x ∧ (ageAsoc (alive y) (s.sta y)).expireTo = 0) (fun _ => False) :=
    .setSta h _ haddr fun _ hs => hsucc.trans hs
  have hother : ∀ y, y ≠ x → (s.setSta x (ageAsoc (alive x))).sta y = s.sta y :=
    fun y hy => StaPriv.setSta_of_ne s x _ hy
  unfold expireAsoc
  dsimp only
  split_ifs with hzero
  · rw [StaPriv.setSta_self] at hzero
    have hleave := Passed.leave (x := x) hset.table hx
    have r := ((s.setSta x (ageAsoc (alive x))).unlistAsoc x).rtwFreeStainfo_released x
    refine ⟨hset.trans hleave ?_ fun _ _ hc => hc, fun y hy => ⟨?_, fun hmem => ?_⟩⟩
    · rintro y - rfl
      exact ⟨rfl, hzero⟩
    · have hsta : ((s.setSta x (ageAsoc (alive x))).unlistAsoc x).sta =
          (s.setSta x (ageAsoc (alive x))).sta := by
        unfold StaPriv.unlistAsoc
        split_ifs <;> rfl
      rw [r.sta y hy, hsta, hother y hy]
    · rw [r.asocList]
      exact (unlistAsoc_keeps _ x).2 y hmem hy
  · exact ⟨hset, fun y hy => ⟨hother y hy, fun hmem => hmem⟩⟩

theorem expireAuth_asocList (t : StaPriv) (x : ℕ) : (expireAuth t x).asocList = t.asocList := by
  unfold expireAuth
  dsimp only
  split_ifs
  · rw [(StaPriv.rtwFreeStainfo_released _ x).asocList, StaPriv.unlistAuth_eq]
    rfl
  · rfl
  · rfl

theorem Passed.expireTimeoutChk (h : ApTable s) (alive : ℕ → Bool) :
    Passed s (expireTimeoutChk alive s) [] (Departs priv cfg s (.tick alive))
      (fun _ => False) := by
  obtain ⟨hauth, hsame⟩ := foldl_passed (M := fun t y => y ∈ t.authList)
    (R := fun _ i => i.expireTo = 1) (fun t x ht hx => expireAuth_passed ht hx) h.auth.1
    (fun _ hy => hy) h
  have hlist : ∀ (l : List ℕ) (t : StaPriv), (l.foldl expireAuth t).asocList = t.asocList := by
    intro l
    induction l with
    | nil => exact fun t => rfl
    | cons x l ih => exact fun t => (ih _).trans (expireAuth_asocList t x)
  obtain ⟨hasoc, -⟩ := foldl_passed (M := fun t y => y ∈ t.asocList)
    (R := fun y i => (ageAsoc (alive y) i).expireTo = 0)
    (fun t x ht hx => expireAsoc_passed alive ht hx) hauth.table.asoc.1 (fun _ hy => hy)
    hauth.table
  unfold Sta.expireTimeoutChk
  refine (hauth.mono ?_ fun _ hc => hc).trans hasoc ?_ fun _ _ hc => hc
  · exact fun y hy => Or.inl hy
  · rintro y - ⟨hy, hzero⟩
    rw [hlist] at hy
    rw [hsame y (h.disjoint y hy)] at hzero
    exact Or.inr ⟨hy, hzero⟩

end handlers

/-! ## Steps -/

section step

variable {priv : RtlPriv} {cfg : ApConfig} {s : StaPriv} {e : ApEvent} {x : ℕ}

theorem apStep_passed (priv : RtlPriv) (cfg : ApConfig) (e : ApEvent) (h : ApTable s) :
    Passed s (apStep priv cfg s e) (allocated priv cfg s e) (Departs priv cfg s e)
      (Refused priv cfg s e) := by
  cases e with
  | auth f => exact .onAuth h f
  | assocReq f => exact .onAssocReq h f
  | deauth f => exact .onDeAuth cfg h f
  | disassoc f => exact .onDeAuth cfg h f
  | tick alive => exact .expireTimeoutChk h alive

/-- The records that an event gives back: they are appended to the free queue. -/
def released (priv : RtlPriv) (cfg : ApConfig) (s : StaPriv) (e : ApEvent) : List ℕ :=
  (apStep priv cfg s e).freeStaQueue.drop
    (s.freeStaQueue.length - (allocated priv cfg s e).length)

/-- A record that leaves the table is released. -/
theorem ApTable.mem_released (h : ApTable s) (hp : Placed s.staHash x)
    (hout : ¬Placed (apStep priv cfg s e).staHash x) : x ∈ released priv cfg s e := by
  have hpass := apStep_passed priv cfg e h
  obtain ⟨back, hback⟩ := hpass.free
  have hmem := (hpass.table.mem_free x).mpr ⟨h.table.lt x hp, hout⟩
  rw [hback] at hmem
  unfold released
  rw [hback, List.drop_append_of_le_length (by rw [List.length_drop]), List.drop_eq_nil_of_le
    (by rw [List.length_drop]), List.nil_append]
  rcases List.mem_append.mp hmem with hmem | hmem
  · exact absurd hp ((h.mem_free x).mp (List.mem_of_mem_drop hmem)).2
  · exact hmem

/-- A record of the table is not allocated. -/
theorem ApTable.not_mem_allocated (h : ApTable s) (hp : Placed s.staHash x) :
    x ∉ allocated priv cfg s e := by
  intro hmem
  have hfree : x ∈ s.freeStaQueue := by
    cases e with
    | auth f =>
      unfold allocated at hmem
      dsimp only at hmem
      split_ifs at hmem
      · exact List.mem_of_mem_take hmem
      · exact absurd hmem List.not_mem_nil
    | assocReq f => exact absurd hmem List.not_mem_nil
    | deauth f => exact absurd hmem List.not_mem_nil
    | disassoc f => exact absurd hmem List.not_mem_nil
    | tick alive => exact absurd hmem List.not_mem_nil
  exact ((h.mem_free x).mp hfree).2 hp

theorem apTable_initAp : ApTable rtwInitAp where
  table := by
    have h := (assocInv_initAp.but 0).table
    exact h.relink rfl rfl rfl (fun _ => rfl) ⟨h.asoc_nodup, h.asoc⟩ ⟨h.auth_nodup, h.auth⟩
      (fun i y hy => by cases hy) fun ac => ⟨h.pending_nodup ac, h.pending ac⟩
  disjoint x hx := absurd hx List.not_mem_nil
  unique a x y hx hy _ _ := by
    have hone : ∀ z, Placed rtwInitAp.staHash z → z = 0 := by
      intro z hz
      exact (placed_put.mp hz).resolve_right fun ⟨_, hmem⟩ => List.not_mem_nil hmem
    rw [hone x hx, hone y hy]

end step

end Rtl8821au.Sta
