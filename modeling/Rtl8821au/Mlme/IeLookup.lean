import Rtl8821au.Lib.ElementWalk
import Rtl8821au.Mlme.ElemWalk

/-!
# Looking up an element

`rtw_get_ie`, `rtw_get_ie_ex` and `rtw_get_wps_ie` (`rtw_ieee80211.c`, lines 227–309 and
828–868) on a buffer whose length is the limit: every read is checked against it.

* `searchLoop_iff`, `getIeLoop_iff`: when a search from an element on ends before the limit with
  the first element that has the id and the OUI.
* `lookups_iff`: the three functions.

`_rtw_memcmp` is counted as reading all its bytes. Offsets do not wrap: a buffer is shorter than
2^32 - 257 bytes.
-/

namespace Rtl8821au.Mlme.IeLookup

open Checked Elements

/-! ## Model -/

/-- The outputs that a caller asks for: `ie` and `ielen` are not NULL. -/
structure Wanted where
  ie : Bool
  ielen : Bool
  deriving DecidableEq, Repr

/-- The place of the element, the copy in `ie`, and `*ielen`. -/
structure Found where
  place : ℕ
  ie : List UInt8
  ielen : ℕ
  deriving DecidableEq, Repr

/-- `!oui || _rtw_memcmp(&in_ie[cnt+2], oui, oui_len) == true`, where `in_ie[cnt]` is at `k`. -/
def ouiMatch (f : List UInt8) (oui : Option (List UInt8)) (k : ℕ) : Except Fault Bool :=
  match oui with
  | none => .ok true
  | some o => do
    let bytes ← readBytes f (k + 2) o.length
    .ok (bytes == o)

/-- The condition at an element with this id. -/
def matchAt (f : List UInt8) (eid : UInt8) (oui : Option (List UInt8)) (id : UInt8) (k : ℕ) :
    Except Fault Bool := if eid = id then ouiMatch f oui k else .ok false

/-- `memcpy(ie, &in_ie[cnt], in_ie[cnt+1]+2)`. -/
def copyIe (f : List UInt8) (want : Bool) (k : ℕ) : Except Fault (List UInt8) :=
  if want then do
    let len ← readByte f (k + 1)
    readBytes f k (len.toNat + 2)
  else .ok []

/-- `*ielen = in_ie[cnt+1]+2`. -/
def storeLen (f : List UInt8) (want : Bool) (k : ℕ) : Except Fault ℕ :=
  if want then do
    let len ← readByte f (k + 1)
    .ok (len.toNat + 2)
  else .ok 0

/-- What `rtw_get_ie_ex` does at the element that it was looking for (lines 291–299). -/
def takeIe (f : List UInt8) (w : Wanted) (k : ℕ) : Except Fault Found := do
  let ie ← copyIe f w.ie k
  let ielen ← storeLen f w.ielen k
  .ok ⟨k, ie, ielen⟩

/-- What `rtw_get_wps_ie` does: `cnt` goes on before the loop is left (lines 846–856). -/
def takeWpsIe (f : List UInt8) (w : Wanted) (k : ℕ) : Except Fault Found := do
  let r ← takeIe f w k
  let _ ← readByte f (k + 1)
  .ok r

/-- The loop of both; `in_ie` is at `base`. -/
def searchLoop (f : List UInt8) (take : ℕ → Except Fault Found) (base inLen : ℕ) (eid : UInt8)
    (oui : Option (List UInt8)) : ℕ → ℕ → Except Fault (Option Found)
  | 0, _ => .error .timeout
  | fuel + 1, cnt =>
    if cnt < inLen then do
      let id ← readByte f (base + cnt)
      let hit ← matchAt f eid oui id (base + cnt)
      if hit then do
        let r ← take (base + cnt)
        .ok (some r)
      else do
        let len ← readByte f (base + cnt + 1)
        searchLoop f take base inLen eid oui fuel (cnt + (len.toNat + 2))
    else .ok none

/-- `rtw_get_ie_ex` (lines 272–309). -/
def rtwGetIeEx (f : List UInt8) (base inLen : ℕ) (eid : UInt8) (oui : Option (List UInt8))
    (w : Wanted) : Except Fault (Option Found) :=
  if inLen = 0 then .ok none else searchLoop f (takeIe f w) base inLen eid oui (inLen + 1) 0

/-- `wps_oui`. -/
def wpsOui : List UInt8 := [0x00, 0x50, 0xf2, 0x04]

/-- `rtw_get_wps_ie` (lines 828–868). -/
def rtwGetWpsIe (f : List UInt8) (base inLen : ℕ) (w : Wanted) : Except Fault (Option Found) :=
  if inLen = 0 then .ok none
  else searchLoop f (takeWpsIe f w) base inLen 221 (some wpsOui) (inLen + 1) 0

/-! ## What the searches are for -/

/-- The element has the id, and its data begins with the OUI. -/
def Matches (eid : UInt8) (oui : Option (List UInt8)) (x : Elem) : Prop :=
  x.id = eid ∧ ∀ o ∈ oui, x.data.take o.length = o

instance (eid : UInt8) (oui : Option (List UInt8)) (x : Elem) : Decidable (Matches eid oui x) :=
  inferInstanceAs (Decidable (_ ∧ _))

/-- What is found at an element. -/
def found (w : Wanted) (p : ℕ × Elem) : Found where
  place := p.1
  ie := if w.ie then p.2.encode else []
  ielen := if w.ielen then p.2.encode.length else 0

/-- The search stays before the limit and has the first element that matches. -/
def SearchOk (f : List UInt8) (eid : UInt8) (oui : Option (List UInt8)) (w : Wanted)
    (r : Except Fault (Option Found)) : Prop :=
  r = .ok ((firstElem (Matches eid oui) 0 (parse f).1).map (found w))

/-- The same for `rtw_get_ie`, which returns the place and `*len`. -/
def GetIeOk (f : List UInt8) (index : UInt8) : Prop :=
  getIe f index f.length 0 =
    .ok ((firstElem (fun x => x.id = index) 0 (parse f).1).map fun p => (p.1, p.2.data.length))

/-! ## When they are right -/

/-- The comparison stays among the bytes `d` behind the header. -/
def OuiInside (oui : Option (List UInt8)) (d : List UInt8) : Prop :=
  ∀ o ∈ oui, o.length ≤ d.length

/-- The bytes begin with the OUI. -/
def OuiSame (oui : Option (List UInt8)) (d : List UInt8) : Prop :=
  ∀ o ∈ oui, d.take o.length = o

/-- An element with the id whose comparison ends inside and fails, or one with another id. -/
def Passes (eid : UInt8) (oui : Option (List UInt8)) (id : UInt8) (d : List UInt8) : Prop :=
  id = eid → OuiInside oui d ∧ ¬ OuiSame oui d

/-- Up to the first element that matches, every element passes, whatever follows it; if none
    matches, nothing is left behind the elements, or a header that passes. -/
def SearchFits (eid : UInt8) (oui : Option (List UInt8)) : List Elem → List UInt8 → Prop
  | [], [] => True
  | [], [_] => False
  | [], id :: _ :: rest => Passes eid oui id rest
  | x :: es, t =>
    Matches eid oui x ∨ Passes eid oui x.id (x.data ++ (encodeAll es ++ t)) ∧
      SearchFits eid oui es t

/-- Some element has the id, or nothing is left behind the elements, or a header with another. -/
def GetIeFits (index : UInt8) (es : List Elem) (t : List UInt8) : Prop :=
  (∃ x ∈ es, x.id = index) ∨ t = [] ∨ ∃ id len rest, t = id :: len :: rest ∧ id ≠ index

/-! ## One turn of the loop -/

section step

variable {f pre d : List UInt8} {id len : UInt8} {eid : UInt8} {oui : Option (List UInt8)}
  {take : ℕ → Except Fault Found} {base inLen cnt fuel : ℕ}

theorem ouiMatch_eq (hf : f = pre ++ id :: len :: d) :
    (OuiInside oui d → ouiMatch f oui pre.length = .ok true ∧ OuiSame oui d ∨
      ouiMatch f oui pre.length = .ok false ∧ ¬ OuiSame oui d) ∧
    (¬ OuiInside oui d → ouiMatch f oui pre.length = .error .beyond) := by
  cases oui with
  | none => exact ⟨fun _ => .inl ⟨rfl, nofun⟩, fun h => absurd nofun h⟩
  | some o =>
    have hin : OuiInside (some o) d ↔ o.length ≤ d.length :=
      ⟨fun h => h o rfl, fun h o' ho' => Option.some.inj ho' ▸ h⟩
    have hsame : OuiSame (some o) d ↔ d.take o.length = o :=
      ⟨fun h => h o rfl, fun h o' ho' => Option.some.inj ho' ▸ h⟩
    rw [hin, hsame, ouiMatch, readBytes_after hf]
    constructor
    · intro hle
      rw [if_pos hle, bind_ok]
      by_cases heq : d.take o.length = o
      · exact .inl ⟨by rw [heq, beq_self_eq_true], heq⟩
      · exact .inr ⟨by rw [beq_eq_false_iff_ne.mpr heq], heq⟩
    · intro hnot
      rw [if_neg hnot, bind_error]

theorem OuiSame.inside (h : OuiSame oui d) : OuiInside oui d := by
  intro o ho
  have hlen := congrArg List.length (h o ho)
  rw [List.length_take] at hlen
  omega

/-- The condition at an element that passes, at one that is taken, and at one whose comparison
    leaves the buffer. -/
theorem matchAt_pass (hf : f = pre ++ id :: len :: d) (hpass : Passes eid oui id d) :
    matchAt f eid oui id pre.length = .ok false := by
  rw [matchAt]
  by_cases hid : eid = id
  · obtain ⟨hin, hne⟩ := hpass hid.symm
    rw [if_pos hid]
    rcases (ouiMatch_eq hf).1 hin with ⟨-, hsame⟩ | ⟨heq, -⟩
    · exact absurd hsame hne
    · exact heq
  · exact if_neg hid

theorem matchAt_hit (hf : f = pre ++ id :: len :: d) (hid : id = eid) (hsame : OuiSame oui d) :
    matchAt f eid oui id pre.length = .ok true := by
  rw [matchAt, if_pos hid.symm]
  rcases (ouiMatch_eq hf).1 hsame.inside with ⟨heq, -⟩ | ⟨-, hne⟩
  · exact heq
  · exact absurd hsame hne

theorem matchAt_beyond (hf : f = pre ++ id :: len :: d) (hid : id = eid)
    (hout : ¬ OuiInside oui d) : matchAt f eid oui id pre.length = .error .beyond := by
  rw [matchAt, if_pos hid.symm, (ouiMatch_eq hf).2 hout]

/-- An element that passes. -/
theorem searchLoop_pass (hf : f = pre ++ id :: len :: d) (hpre : base + cnt = pre.length)
    (hcnt : cnt < inLen) (hpass : Passes eid oui id d) :
    searchLoop f take base inLen eid oui (fuel + 1) cnt =
      searchLoop f take base inLen eid oui fuel (cnt + (len.toNat + 2)) := by
  rw [searchLoop, if_pos hcnt, hpre, readByte_id hf, bind_ok, matchAt_pass hf hpass, bind_ok,
    if_neg Bool.false_ne_true, readByte_length hf, bind_ok]

/-- An element that is taken. -/
theorem searchLoop_hit (hf : f = pre ++ id :: len :: d) (hpre : base + cnt = pre.length)
    (hcnt : cnt < inLen) (hid : id = eid) (hsame : OuiSame oui d) :
    searchLoop f take base inLen eid oui (fuel + 1) cnt =
      take pre.length >>= fun r => .ok (some r) := by
  rw [searchLoop, if_pos hcnt, hpre, readByte_id hf, bind_ok, matchAt_hit hf hid hsame, bind_ok,
    if_pos rfl]

/-- A comparison that leaves the buffer. -/
theorem searchLoop_beyond (hf : f = pre ++ id :: len :: d) (hpre : base + cnt = pre.length)
    (hcnt : cnt < inLen) (hid : id = eid) (hout : ¬ OuiInside oui d) :
    searchLoop f take base inLen eid oui (fuel + 1) cnt = .error .beyond := by
  rw [searchLoop, if_pos hcnt, hpre, readByte_id hf, bind_ok, matchAt_beyond hf hid hout,
    bind_error]

theorem bind_some_ne_none (x : Except Fault Found) :
    (x >>= fun r => .ok (some r)) ≠ .ok none := by
  intro h
  cases x with
  | error e => cases h
  | ok r => cases h

theorem searchLoop_end (hcnt : inLen ≤ cnt) :
    searchLoop f take base inLen eid oui (fuel + 1) cnt = .ok none :=
  if_neg (Nat.not_lt.mpr hcnt)

/-- At a single byte no search ends without an element. -/
theorem searchLoop_stump {b : UInt8} (hf : f = pre ++ [b]) (hpre : base + cnt = pre.length)
    (hcnt : cnt < inLen) : searchLoop f take base inLen eid oui (fuel + 1) cnt ≠ .ok none := by
  rw [searchLoop, if_pos hcnt, hpre, readByte_id hf, bind_ok]
  cases matchAt f eid oui b pre.length with
  | error e =>
    rw [bind_error]
    intro hok
    cases hok
  | ok hit =>
    rw [bind_ok]
    cases hit with
    | true => exact bind_some_ne_none _
    | false =>
      rw [if_neg Bool.false_ne_true, readByte_length_short hf, bind_error]
      intro hok
      cases hok

end step

/-! ## The whole search -/

section search

variable {f pre t r : List UInt8} {x : Elem} {es : List Elem} {w : Wanted} {eid : UInt8}
  {oui : Option (List UInt8)} {take : ℕ → Except Fault Found}

theorem readBytes_encode (hf : f = pre ++ (x.encode ++ r)) :
    readBytes f pre.length (x.data.length + 2) = .ok x.encode := by
  rw [hf, ← Elem.encode_length]
  exact readBytes_middle pre x.encode r

theorem takeIe_eq (hf : f = pre ++ (x.encode ++ r)) :
    takeIe f w pre.length = .ok (found w (pre.length, x)) := by
  have hlen : readByte f (pre.length + 1) = .ok (UInt8.ofNat x.data.length) := readByte_length hf
  have hcopy : copyIe f w.ie pre.length = .ok (if w.ie then x.encode else []) := by
    rw [copyIe]
    split_ifs
    · rw [hlen, bind_ok, x.toNat_length, readBytes_encode hf]
    · rfl
  have hstore : storeLen f w.ielen pre.length =
      .ok (if w.ielen then x.encode.length else 0) := by
    rw [storeLen]
    split_ifs
    · rw [hlen, bind_ok, x.toNat_length, Elem.encode_length]
    · rfl
  rw [takeIe, hcopy, bind_ok, hstore, bind_ok, found]

theorem takeWpsIe_eq (hf : f = pre ++ (x.encode ++ r)) :
    takeWpsIe f w pre.length = .ok (found w (pre.length, x)) := by
  have hlen : readByte f (pre.length + 1) = .ok (UInt8.ofNat x.data.length) := readByte_length hf
  rw [takeWpsIe, takeIe_eq hf, bind_ok, hlen, bind_ok]

theorem Matches.same (h : Matches eid oui x) : OuiSame oui (x.data ++ r) := by
  intro o ho
  have htake := h.2 o ho
  have hlen := congrArg List.length htake
  rw [List.length_take] at hlen
  rw [List.take_append_of_le_length (by omega), htake]

theorem not_passes {id : UInt8} {d : List UInt8} (h : ¬ Passes eid oui id d) :
    id = eid ∧ (¬ OuiInside oui d ∨ OuiSame oui d) := by
  unfold Passes at h
  by_contra hc
  refine h fun hid => ?_
  by_contra hnot
  refine hc ⟨hid, ?_⟩
  by_contra hor
  rw [not_or, not_not] at hor
  exact hnot hor

variable (eid oui) in
/-- The search from an element on. -/
theorem searchLoop_iff
    (htake : ∀ pre x r, f = pre ++ (Elem.encode x ++ r) →
      take pre.length = .ok (found w (pre.length, x)))
    (hf : f = pre ++ (encodeAll es ++ t)) (ht : Stump t) {fuel : ℕ}
    (hfuel : (encodeAll es ++ t).length < fuel) :
    searchLoop f take 0 f.length eid oui fuel pre.length =
        .ok ((firstElem (Matches eid oui) pre.length es).map (found w)) ↔
      SearchFits eid oui es t := by
  obtain ⟨fuel, rfl⟩ : ∃ n, fuel = n + 1 := ⟨fuel - 1, by omega⟩
  induction es generalizing pre fuel with
  | nil =>
    rw [encodeAll_nil, List.nil_append] at hf hfuel
    rcases t with _ | ⟨id, _ | ⟨len, rest⟩⟩
    · have hend : f.length ≤ pre.length := Nat.le_of_eq (by rw [hf, List.append_nil])
      rw [searchLoop_end hend]
      exact iff_of_true rfl trivial
    · have hlt : pre.length < f.length := by
        rw [hf, List.length_append, List.length_singleton]
        exact Nat.lt_succ_self _
      exact iff_of_false (searchLoop_stump hf (Nat.zero_add _) hlt) fun hc => hc
    · have hlen : f.length = pre.length + (rest.length + 2) := by rw [hf, List.length_append]; rfl
      have hlt : pre.length < f.length := by omega
      change rest.length < len.toNat at ht
      rw [List.length_cons, List.length_cons] at hfuel
      by_cases hpass : Passes eid oui id rest
      · obtain ⟨fuel, rfl⟩ : ∃ n, fuel = n + 1 := ⟨fuel - 1, by omega⟩
        rw [searchLoop_pass hf (Nat.zero_add _) hlt hpass, searchLoop_end (by omega)]
        exact iff_of_true rfl hpass
      · refine iff_of_false ?_ hpass
        obtain ⟨hid, hout | hsame⟩ := not_passes hpass
        · rw [searchLoop_beyond hf (Nat.zero_add _) hlt hid hout]
          intro hok
          cases hok
        · rw [searchLoop_hit hf (Nat.zero_add _) hlt hid hsame]
          exact bind_some_ne_none _
  | cons x es ih =>
    have hx : f = pre ++ (x.encode ++ (encodeAll es ++ t)) := by
      rw [hf, encodeAll_cons, List.append_assoc]
    have hbytes : f = pre ++ x.id :: UInt8.ofNat x.data.length ::
        (x.data ++ (encodeAll es ++ t)) := hx
    have hrest : f = (pre ++ x.encode) ++ (encodeAll es ++ t) := by rw [hx, List.append_assoc]
    have hnext : (pre ++ x.encode).length = pre.length + (x.data.length + 2) := by
      rw [List.length_append, Elem.encode_length]
    have hlt : pre.length < f.length := by
      rw [hrest, List.length_append, hnext]
      omega
    rw [encodeAll_cons, List.append_assoc, List.length_append, Elem.encode_length] at hfuel
    rw [firstElem, SearchFits]
    by_cases hm : Matches eid oui x
    · rw [if_pos hm, searchLoop_hit hbytes (Nat.zero_add _) hlt hm.1 hm.same, htake _ _ _ hx]
      exact iff_of_true rfl (.inl hm)
    · rw [if_neg hm, or_iff_right hm]
      by_cases hpass : Passes eid oui x.id (x.data ++ (encodeAll es ++ t))
      · rw [searchLoop_pass hbytes (Nat.zero_add _) hlt hpass, and_iff_right hpass, ← hnext,
          x.toNat_length, ← hnext]
        obtain ⟨fuel, rfl⟩ : ∃ n, fuel = n + 1 := ⟨fuel - 1, by omega⟩
        exact ih hrest fuel (by omega)
      · refine iff_of_false ?_ fun hc => hpass hc.1
        obtain ⟨hid, hout | hsame⟩ := not_passes hpass
        · rw [searchLoop_beyond hbytes (Nat.zero_add _) hlt hid hout]
          intro hok
          cases hok
        · -- an element that does not match is taken
          rw [searchLoop_hit hbytes (Nat.zero_add _) hlt hid hsame, htake _ _ _ hx, bind_ok]
          intro heq
          have hsome := (Except.ok.inj heq).symm
          obtain ⟨⟨k, y⟩, hfirst, hfound⟩ := Option.map_eq_some_iff.mp hsome
          obtain ⟨es₁, es₂, -, -, -, hk⟩ := firstElem_eq_some hfirst
          have hplace : k = pre.length := congrArg Found.place hfound
          omega

end search

/-! ## The search of `rtw_get_ie` -/

section getIe

variable {f pre t d : List UInt8} {id len index : UInt8} {es : List Elem} {fuel : ℕ}

theorem getIeLoop_turn (hf : f = pre ++ id :: len :: d) :
    getIeLoop f index f.length (fuel + 1) pre.length pre.length =
      if id = index then .ok (some (pre.length, len.toNat))
      else if d.length ≤ len.toNat then .ok none
      else getIeLoop f index f.length fuel (pre.length + (len.toNat + 2))
        (pre.length + (len.toNat + 2)) := by
  have hlen : f.length = pre.length + (d.length + 2) := by rw [hf, List.length_append]; rfl
  have hend : f.length ≤ pre.length + (len.toNat + 2) ↔ d.length ≤ len.toNat := by omega
  rw [getIeLoop, readByte_id hf, bind_ok, readByte_length hf, bind_ok]
  simp only [hend]

variable (index) in
theorem getIeLoop_iff (hf : f = pre ++ (encodeAll es ++ t)) (ht : Stump t)
    (hne : encodeAll es ++ t ≠ []) (hfuel : (encodeAll es ++ t).length < fuel) :
    getIeLoop f index f.length fuel pre.length pre.length =
        .ok ((firstElem (fun x => x.id = index) pre.length es).map
          fun p => (p.1, p.2.data.length)) ↔
      GetIeFits index es t := by
  obtain ⟨fuel, rfl⟩ : ∃ n, fuel = n + 1 := ⟨fuel - 1, by omega⟩
  induction es generalizing pre fuel with
  | nil =>
    rw [encodeAll_nil, List.nil_append] at hf hne
    rcases t with _ | ⟨id, _ | ⟨len, rest⟩⟩
    · exact absurd rfl hne
    · refine iff_of_false ?_ ?_
      · rw [getIeLoop, readByte_id hf, bind_ok, readByte_length_short hf, bind_error]
        intro hok
        cases hok
      · rintro (⟨x, hx, -⟩ | ht | ⟨i, l, r, ht, -⟩)
        · cases hx
        · cases ht
        · cases ht
    · rw [getIeLoop_turn hf]
      by_cases hid : id = index
      · rw [if_pos hid]
        refine iff_of_false (fun hok => by cases hok) ?_
        rintro (⟨x, hx, -⟩ | ht | ⟨i, l, r, ht, hne⟩)
        · cases hx
        · cases ht
        · exact hne ((List.cons.inj ht).1 ▸ hid)
      · rw [if_neg hid, if_pos (Nat.le_of_lt ht)]
        exact iff_of_true rfl (.inr (.inr ⟨id, len, rest, rfl, hid⟩))
  | cons x es ih =>
    have hx : f = pre ++ x.id :: UInt8.ofNat x.data.length ::
        (x.data ++ (encodeAll es ++ t)) := by
      rw [hf, encodeAll_cons, List.append_assoc]
      rfl
    have hrest : f = (pre ++ x.encode) ++ (encodeAll es ++ t) := by
      rw [hf, encodeAll_cons, List.append_assoc, List.append_assoc]
    rw [encodeAll_cons, List.append_assoc, List.length_append, Elem.encode_length] at hfuel
    rw [getIeLoop_turn hx, firstElem, x.toNat_length, encode_next]
    by_cases hid : x.id = index
    · rw [if_pos hid, if_pos hid]
      exact iff_of_true rfl (.inl ⟨x, List.mem_cons_self, hid⟩)
    · have hfits : GetIeFits index (x :: es) t ↔ GetIeFits index es t := by
        rw [GetIeFits, GetIeFits, List.exists_mem_cons_iff, or_iff_right hid]
      rw [if_neg hid, if_neg hid, List.length_append, hfits]
      by_cases hlast : encodeAll es ++ t = []
      · obtain ⟨hes, ht⟩ := List.append_eq_nil_iff.mp hlast
        obtain rfl : es = [] := encodeAll_injective hes
        rw [hlast, List.length_nil, if_pos (Nat.le_of_eq (Nat.add_zero _))]
        exact iff_of_true rfl (.inr (.inl ht))
      · have hpos := List.length_pos_iff.mpr hlast
        obtain ⟨fuel, rfl⟩ : ∃ n, fuel = n + 1 := ⟨fuel - 1, by omega⟩
        rw [if_neg (by omega)]
        exact ih hrest hlast fuel (by omega)

end getIe

/-! ## The three functions -/

theorem search_iff {f : List UInt8} {eid : UInt8} {oui : Option (List UInt8)} {w : Wanted}
    {take : ℕ → Except Fault Found}
    (htake : ∀ pre x r, f = pre ++ (Elem.encode x ++ r) →
      take pre.length = .ok (found w (pre.length, x))) :
    SearchOk f eid oui w
        (if f.length = 0 then .ok none
          else searchLoop f take 0 f.length eid oui (f.length + 1) 0) ↔
      SearchFits eid oui (parse f).1 (parse f).2 := by
  obtain ⟨es, t, hf, ht⟩ := exists_parse f
  have hparse : parse f = (es, t) := by rw [hf, parse_append es ht]
  rw [SearchOk, hparse]
  have hf' : f = [] ++ (encodeAll es ++ t) := hf
  have hiff := searchLoop_iff eid oui htake hf' ht (Nat.lt_succ_self _)
  rw [← hf] at hiff
  by_cases hlen : f.length = 0
  · obtain rfl : f = [] := List.length_eq_zero_iff.mp hlen
    obtain ⟨hes, rfl⟩ := List.append_eq_nil_iff.mp hf.symm
    obtain rfl : es = [] := encodeAll_injective hes
    exact iff_of_true rfl trivial
  · rw [if_neg hlen]
    exact hiff

theorem getIe_iff {f : List UInt8} {index : UInt8} :
    GetIeOk f index ↔ GetIeFits index (parse f).1 (parse f).2 := by
  obtain ⟨es, t, hf, ht⟩ := exists_parse f
  have hparse : parse f = (es, t) := by rw [hf, parse_append es ht]
  rw [GetIeOk, hparse, getIe]
  by_cases hnil : encodeAll es ++ t = []
  · obtain ⟨hes, rfl⟩ := List.append_eq_nil_iff.mp hnil
    obtain rfl : es = [] := encodeAll_injective hes
    rw [hf]
    exact iff_of_true rfl (.inr (.inl rfl))
  · have hpos := List.length_pos_iff.mpr hnil
    have hf' : f = [] ++ (encodeAll es ++ t) := hf
    have hiff := getIeLoop_iff index hf' ht hnil (Nat.lt_succ_self _)
    rw [← hf] at hiff hpos
    rw [if_neg (by omega)]
    exact hiff

/-- `rtw_get_ie`, `rtw_get_ie_ex` and `rtw_get_wps_ie` find the first element that matches and
    read nothing behind the limit exactly for the strings that fit. -/
theorem lookups_iff (f : List UInt8) :
    (∀ index, GetIeOk f index ↔ GetIeFits index (parse f).1 (parse f).2) ∧
    (∀ eid oui w, SearchOk f eid oui w (rtwGetIeEx f 0 f.length eid oui w) ↔
      SearchFits eid oui (parse f).1 (parse f).2) ∧
    ∀ w, SearchOk f 221 (some wpsOui) w (rtwGetWpsIe f 0 f.length w) ↔
      SearchFits 221 (some wpsOui) (parse f).1 (parse f).2 :=
  ⟨fun _ => getIe_iff, fun _ _ _ => search_iff fun _ _ _ => takeIe_eq,
    fun _ => search_iff fun _ _ _ => takeWpsIe_eq⟩

/-- An empty SSID and one byte behind it. -/
def tailByte : List UInt8 := [0, 0, 3]

/-- The search for an element that is not there reads the byte behind the limit. -/
theorem tailByte_read_beyond :
    getIe tailByte 48 tailByte.length 0 = .error .beyond ∧
      rtwGetIeEx tailByte 0 tailByte.length 48 none ⟨false, false⟩ = .error .beyond ∧
      rtwGetWpsIe tailByte 0 tailByte.length ⟨false, false⟩ = .error .beyond ∧
      ¬ GetIeOk tailByte 48 ∧
      ¬ SearchOk tailByte 48 none ⟨false, false⟩
        (rtwGetIeEx tailByte 0 tailByte.length 48 none ⟨false, false⟩) := by
  have hget : getIe tailByte 48 tailByte.length 0 = .error .beyond := by rfl
  have hsearch : rtwGetIeEx tailByte 0 tailByte.length 48 none ⟨false, false⟩ =
      .error .beyond := by rfl
  refine ⟨hget, hsearch, by rfl, ?_, ?_⟩
  · rw [GetIeOk, hget]
    intro hok
    cases hok
  · rw [SearchOk, hsearch]
    intro hok
    cases hok

end Rtl8821au.Mlme.IeLookup
