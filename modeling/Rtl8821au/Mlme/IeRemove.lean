import Rtl8821au.Mlme.IeLookup

/-!
# Removing elements

`rtw_ies_remove_ie` (`rtw_ieee80211.c`, lines 311–356) on a buffer that is as long as `*ies_len`
says: a read, a write or a copy behind its end, or behind the end of the array `buf`, is a fault.

* `removeLoop_spec`: a run by the elements that it takes for matches.
* `filtered_iff`: when the elements that do not match are left, and nothing else happens.
* `remove_iff`: both kinds of buffers, those of whole elements and those with a rest.

Bytes behind the new end stay in the buffer. They are compared with the OUI where the last element
is shorter than the OUI.
-/

namespace Rtl8821au.Mlme.IeRemove

open Checked Elements IeLookup

/-! ## Model -/

/-- `MAX_IE_SZ`, the size of `buf`. -/
def maxIeSz : ℕ := 768

/-- `memcpy(buf, remain_ies, remain_len)`. -/
def copyOut (f : List UInt8) (d n : ℕ) : Except Fault (List UInt8) :=
  if n ≤ maxIeSz then readBytes f d n else .error .beyond

/-- `memcpy(target_ie, buf, remain_len)`. -/
def copyIn (f : List UInt8) (d : ℕ) (bytes : List UInt8) : Except Fault (List UInt8) :=
  if Inside f d bytes.length then .ok (f.take d ++ (bytes ++ f.drop (d + bytes.length)))
  else .error .beyond

/-- What is done with the result of a search; `next` is the next turn of the loop. The result is
    the buffer, `*ies_len`, and whether something was removed. -/
def removeTarget (next : List UInt8 → ℕ → ℕ → ℕ → Except Fault (List UInt8 × ℕ × Bool))
    (f : List UInt8) (iesLen start searchLen : ℕ) (ret : Bool) :
    Option Found → Except Fault (List UInt8 × ℕ × Bool)
  | none => .ok (f, iesLen, ret)
  | some target =>
    if target.ielen = 0 then .ok (f, iesLen, ret)
    else do
      let remainIes := target.place + target.ielen
      let remainLen := wrapSub searchLen (remainIes - start)
      let buf ← copyOut f remainIes remainLen
      let f' ← copyIn f target.place buf
      next f' (wrapSub iesLen target.ielen) target.place remainLen

/-- The address is not asked for to be copied, the length is. -/
def lengthOnly : Wanted := ⟨false, true⟩

/-- The loop. -/
def removeLoop (eid : UInt8) (oui : Option (List UInt8)) :
    ℕ → Bool → List UInt8 → ℕ → ℕ → ℕ → Except Fault (List UInt8 × ℕ × Bool)
  | 0, _, _, _, _, _ => .error .timeout
  | fuel + 1, ret, f, iesLen, start, searchLen => do
    let target ← rtwGetIeEx f start searchLen eid oui lengthOnly
    removeTarget (removeLoop eid oui fuel true) f iesLen start searchLen ret target

/-- `rtw_ies_remove_ie`. -/
def rtwIesRemoveIe (f : List UInt8) (iesLen offset : ℕ) (eid : UInt8)
    (oui : Option (List UInt8)) : Except Fault (List UInt8 × ℕ × Bool) :=
  if iesLen ≤ offset then .ok (f, iesLen, false)
  else removeLoop eid oui (iesLen + 1) false f iesLen offset (iesLen - offset)

/-! ## What it is for -/

/-- The elements that do not match. -/
def kept (eid : UInt8) (oui : Option (List UInt8)) (es : List Elem) : List Elem :=
  es.filter fun x => ¬ Matches eid oui x

/-- The bytes before the offset and the elements that do not match are left, and doing it again
    changes nothing. -/
def Filtered (f : List UInt8) (offset : ℕ) (eid : UInt8) (oui : Option (List UInt8)) : Prop :=
  ∃ g n r, rtwIesRemoveIe f f.length offset eid oui = .ok (g, n, r) ∧ g.length = f.length ∧
    g.take n = f.take offset ++ encodeAll (kept eid oui (parse (f.drop offset)).1) ∧
    n = (f.take offset ++ encodeAll (kept eid oui (parse (f.drop offset)).1)).length ∧
    ∃ r', rtwIesRemoveIe g n offset eid oui = .ok (g, n, r')

/-! ## When it is right -/

/-- What lies behind the new end when `x` before `rest` was removed, where `s` lay behind it. -/
def behind (x : Elem) (rest s : List UInt8) : List UInt8 :=
  (x.encode ++ rest).drop rest.length ++ s

/-- What lies behind the elements after all. -/
def behindAll (eid : UInt8) (oui : Option (List UInt8)) : List Elem → List UInt8 → List UInt8
  | [], s => s
  | x :: es, s =>
    if Matches eid oui x then behindAll eid oui es (behind x (encodeAll es) s)
    else behindAll eid oui es s

/-- Not more than `buf` holds follows an element that matches, and every other one passes,
    whatever follows it at the time. -/
def Fits (eid : UInt8) (oui : Option (List UInt8)) : List Elem → List UInt8 → Prop
  | [], _ => True
  | x :: es, s =>
    if Matches eid oui x then
      (encodeAll es).length ≤ maxIeSz ∧ Fits eid oui es (behind x (encodeAll es) s)
    else Passes eid oui x.id (x.data ++ (encodeAll es ++ s)) ∧ Fits eid oui es s

/-- The element is taken for a match, where `d` follows it. -/
def Hit (eid : UInt8) (oui : Option (List UInt8)) (x : Elem) (d : List UInt8) : Prop :=
  x.id = eid ∧ ∀ o ∈ oui, (x.data ++ d).take o.length = o

instance (eid : UInt8) (oui : Option (List UInt8)) (x : Elem) (d : List UInt8) :
    Decidable (Hit eid oui x d) := inferInstanceAs (Decidable (_ ∧ _))

/-- The rest `t` is passed, where `s` lies behind it. -/
def TailPasses (eid : UInt8) (oui : Option (List UInt8)) (t s : List UInt8) : Prop :=
  t = [] ∨ ∃ id len d, t ++ s = id :: len :: d ∧ Passes eid oui id d

/-- The comparisons end in the buffer, not more than `buf` holds follows what is taken for a
    match, and the rest `t` is passed. -/
def Stays (eid : UInt8) (oui : Option (List UInt8)) (t : List UInt8) :
    List Elem → List UInt8 → Prop
  | [], s => TailPasses eid oui t s
  | x :: es, s =>
    if Hit eid oui x (encodeAll es ++ (t ++ s)) then
      (encodeAll es ++ t).length ≤ maxIeSz ∧ Stays eid oui t es (behind x (encodeAll es ++ t) s)
    else (x.id = eid → OuiInside oui (x.data ++ (encodeAll es ++ (t ++ s)))) ∧
      Stays eid oui t es s

/-! ## What a run leaves -/

/-- The elements that are left, and what lies behind them. -/
def leaves (eid : UInt8) (oui : Option (List UInt8)) (t : List UInt8) :
    List Elem → List UInt8 → List Elem × List UInt8
  | [], s => ([], s)
  | x :: es, s =>
    if Hit eid oui x (encodeAll es ++ (t ++ s)) then
      leaves eid oui t es (behind x (encodeAll es ++ t) s)
    else (x :: (leaves eid oui t es s).1, (leaves eid oui t es s).2)

section run

variable {f pre d t s : List UInt8} {id len : UInt8} {x : Elem} {es : List Elem} {eid : UInt8}
  {oui : Option (List UInt8)}

theorem copyIn_eq (a b c : List UInt8) (h : b.length ≤ c.length) :
    copyIn (a ++ c) a.length b = .ok (a ++ (b ++ c.drop b.length)) := by
  have hin : Inside (a ++ c) a.length b.length := by
    right
    rw [List.length_append]
    omega
  rw [copyIn, if_pos hin, List.take_left, List.drop_append, List.drop_eq_nil_of_le (by omega),
    List.nil_append, Nat.add_sub_cancel_left]

theorem takeIe_length (hf : f = pre ++ id :: len :: d) :
    takeIe f lengthOnly pre.length = .ok ⟨pre.length, [], len.toNat + 2⟩ := by
  have hcopy : copyIe f lengthOnly.ie pre.length = .ok [] := rfl
  have hstore : storeLen f true pre.length = .ok (len.toNat + 2) := by
    rw [storeLen, if_pos rfl, readByte_length hf, bind_ok]
  rw [takeIe, hcopy, bind_ok, lengthOnly, hstore, bind_ok]

theorem rtwGetIeEx_eq (f : List UInt8) (base inLen : ℕ) (w : Wanted) :
    rtwGetIeEx f base inLen eid oui w =
      searchLoop f (takeIe f w) base inLen eid oui (inLen + 1) 0 := by
  rw [rtwGetIeEx]
  split_ifs with h
  · rw [searchLoop_end (Nat.le_of_eq h)]
  · rfl

/-- An element that is taken for a match is taken out. -/
theorem removeTarget_some
    {next : List UInt8 → ℕ → ℕ → ℕ → Except Fault (List UInt8 × ℕ × Bool)}
    {start cnt searchLen iesLen : ℕ} {ret : Bool} {w : List UInt8}
    (hf : f = pre ++ (x.encode ++ (w ++ s))) (hstart : start + cnt = pre.length)
    (hsearch : searchLen = cnt + (x.data.length + 2) + w.length)
    (hies : iesLen = pre.length + (x.data.length + 2) + w.length) :
    removeTarget next f iesLen start searchLen ret (some ⟨pre.length, [], x.data.length + 2⟩) =
      if w.length ≤ maxIeSz then
        next (pre ++ (w ++ behind x w s)) (pre.length + w.length) pre.length w.length
      else .error .beyond := by
  have hremain : wrapSub searchLen (pre.length + (x.data.length + 2) - start) = w.length := by
    rw [wrapSub, if_neg (by omega)]
    omega
  have hnew : wrapSub iesLen (x.data.length + 2) = pre.length + w.length := by
    rw [wrapSub, if_neg (by omega)]
    omega
  have hread : readBytes f (pre.length + (x.data.length + 2)) w.length = .ok w := by
    rw [hf, ← List.append_assoc, encode_next]
    exact readBytes_middle _ _ _
  have hwrite : copyIn f pre.length w = .ok (pre ++ (w ++ behind x w s)) := by
    have hle : w.length ≤ (x.encode ++ w).length := by
      rw [List.length_append]
      exact Nat.le_add_left _ _
    have hle' : w.length ≤ (x.encode ++ w ++ s).length := by
      rw [@List.length_append _ (x.encode ++ w)]
      omega
    rw [hf, ← List.append_assoc x.encode, copyIn_eq _ _ _ hle', behind,
      List.drop_append_of_le_length hle]
  have hpos : x.data.length + 2 ≠ 0 := Nat.succ_ne_zero _
  rw [removeTarget, if_neg hpos]
  simp only [hremain, hnew]
  rw [copyOut]
  by_cases hw : w.length ≤ maxIeSz
  · rw [if_pos hw, if_pos hw, hread, bind_ok, hwrite, bind_ok]
  · rw [if_neg hw, if_neg hw, bind_error]

/-- What is taken for a match and ends behind the window is too long for `buf`. -/
theorem removeTarget_wraps
    {next : List UInt8 → ℕ → ℕ → ℕ → Except Fault (List UInt8 × ℕ × Bool)}
    {start cnt searchLen iesLen n : ℕ} {ret : Bool} (hstart : start + cnt = pre.length)
    (hsearch : searchLen < cnt + (n + 2)) (hn : n < 256)
    (hbound : searchLen < 2 ^ 32) (hcnt : cnt ≤ searchLen) :
    removeTarget next f iesLen start searchLen ret (some ⟨pre.length, [], n + 2⟩) =
      .error .beyond := by
  have hremain : wrapSub searchLen (pre.length + (n + 2) - start) =
      searchLen + 2 ^ 32 - (cnt + (n + 2)) := by
    rw [wrapSub, if_pos (by omega)]
    omega
  have hlong : ¬ searchLen + 2 ^ 32 - (cnt + (n + 2)) ≤ maxIeSz := by
    rw [maxIeSz]
    omega
  rw [removeTarget, if_neg (Nat.succ_ne_zero _)]
  simp only [hremain]
  rw [copyOut, if_neg hlong, bind_error]

/-- A last byte without a length byte, whatever it is. -/
theorem searchLoop_no_length {base cnt inLen fuel : ℕ} (hf : f = pre ++ [id])
    (hpre : base + cnt = pre.length) (hcnt : cnt < inLen) :
    searchLoop f (takeIe f lengthOnly) base inLen eid oui (fuel + 1) cnt = .error .beyond := by
  have hlen : readByte f (pre.length + 1) = .error .beyond := readByte_length_short hf
  have hcopy : copyIe f lengthOnly.ie pre.length = .ok [] := rfl
  have hstore : storeLen f true pre.length = .error .beyond := by
    rw [storeLen, if_pos rfl, hlen, bind_error]
  have htake : takeIe f lengthOnly pre.length = .error .beyond := by
    rw [takeIe, hcopy, bind_ok, lengthOnly, hstore, bind_error]
  rw [searchLoop, if_pos hcnt, hpre, readByte_id hf, bind_ok, htake, hlen]
  cases hhit : matchAt f eid oui id pre.length with
  | ok hit =>
    rw [bind_ok, bind_error, bind_error]
    split_ifs
    · rfl
    · rfl
  | error e =>
    -- only a read that leaves the buffer can fail
    rw [bind_error]
    rw [matchAt] at hhit
    split_ifs at hhit
    cases oui with
    | none => cases hhit
    | some o =>
      rw [ouiMatch, readBytes] at hhit
      split_ifs at hhit
      · cases hhit
      · rw [bind_error] at hhit
        rw [Except.error.inj hhit]

/-- The rest behind the elements. -/
theorem removeTail
    {next : List UInt8 → ℕ → ℕ → ℕ → Except Fault (List UInt8 × ℕ × Bool)}
    {start cnt searchLen iesLen fuel : ℕ} {ret : Bool}
    (hf : f = pre ++ (t ++ s)) (ht : Stump t) (hbound : f.length < 2 ^ 32)
    (hstart : start + cnt = pre.length) (hsearch : searchLen = cnt + t.length)
    (hfuel : t.length < fuel) :
    (TailPasses eid oui t s →
      (searchLoop f (takeIe f lengthOnly) start searchLen eid oui fuel cnt >>=
        removeTarget next f iesLen start searchLen ret) = .ok (f, iesLen, ret)) ∧
    (¬ TailPasses eid oui t s →
      (searchLoop f (takeIe f lengthOnly) start searchLen eid oui fuel cnt >>=
        removeTarget next f iesLen start searchLen ret) = .error .beyond) := by
  obtain ⟨fuel, rfl⟩ : ∃ n, fuel = n + 1 := ⟨fuel - 1, by omega⟩
  by_cases hnil : t = []
  · rw [hnil, List.length_nil] at hsearch
    rw [searchLoop_end (by omega), bind_ok, removeTarget]
    exact ⟨fun _ => rfl, fun hno => absurd (.inl hnil) hno⟩
  · have hpos := List.length_pos_iff.mpr hnil
    have hlt : cnt < searchLen := by omega
    have hlen : f.length = pre.length + (t.length + s.length) := by
      rw [hf, List.length_append, List.length_append]
    rcases hts : t ++ s with _ | ⟨id, _ | ⟨len, d⟩⟩
    · exact absurd (List.append_eq_nil_iff.mp hts).1 hnil
    · -- there is no length byte
      have hno : ¬ TailPasses eid oui t s := by
        rintro (h | ⟨i, l, d, h, -⟩)
        · exact hnil h
        · rw [hts] at h
          cases h
      refine ⟨fun h => absurd h hno, fun _ => ?_⟩
      rw [hts] at hf
      rw [searchLoop_no_length hf hstart hlt, bind_error]
    · rw [hts] at hf
      have hshort : t.length < len.toNat + 2 := by
        rcases t with _ | ⟨a, _ | ⟨b, r⟩⟩
        · exact absurd rfl hnil
        · rw [List.length_singleton]
          omega
        · obtain ⟨-, hbr⟩ := List.cons.inj hts
          obtain ⟨rfl, -⟩ := List.cons.inj hbr
          exact Nat.succ_lt_succ (Nat.succ_lt_succ ht)
      have hiff : TailPasses eid oui t s ↔ Passes eid oui id d := by
        constructor
        · rintro (h | ⟨i, l, d', h, hp⟩)
          · exact absurd h hnil
          · rw [hts] at h
            obtain ⟨rfl, hl⟩ := List.cons.inj h
            obtain ⟨-, rfl⟩ := List.cons.inj hl
            exact hp
        · exact fun hp => .inr ⟨id, len, d, hts, hp⟩
      rw [hiff]
      constructor
      · intro hp
        obtain ⟨fuel, rfl⟩ : ∃ n, fuel = n + 1 := ⟨fuel - 1, by omega⟩
        rw [searchLoop_pass hf hstart hlt hp, searchLoop_end (by omega), bind_ok, removeTarget]
      · intro hp
        obtain ⟨hid, hout | hsame⟩ := not_passes hp
        · rw [searchLoop_beyond hf hstart hlt hid hout, bind_error]
        · rw [searchLoop_hit hf hstart hlt hid hsame, takeIe_length hf, bind_ok, bind_ok]
          exact removeTarget_wraps hstart (by omega) len.toNat_lt (by omega) (by omega)

theorem behind_length (x : Elem) (w s : List UInt8) :
    (behind x w s).length = x.data.length + 2 + s.length := by
  rw [behind, List.length_append, List.length_drop, List.length_append, Elem.encode_length]
  omega

/-- A run from a place in the elements on. -/
theorem removeLoop_spec {start cnt searchLen iesLen fuel n : ℕ} (ret : Bool)
    (hf : f = pre ++ (encodeAll es ++ (t ++ s))) (ht : Stump t) (hbound : f.length < 2 ^ 32)
    (hstart : start + cnt = pre.length) (hsearch : searchLen = cnt + (encodeAll es ++ t).length)
    (hies : iesLen = pre.length + (encodeAll es ++ t).length)
    (hfuel : (encodeAll es ++ t).length < fuel) (hn : (encodeAll es ++ t).length ≤ n) :
    (Stays eid oui t es s →
      ∃ r, (searchLoop f (takeIe f lengthOnly) start searchLen eid oui fuel cnt >>=
        removeTarget (removeLoop eid oui n true) f iesLen start searchLen ret) =
          .ok (pre ++ (encodeAll (leaves eid oui t es s).1 ++ (t ++ (leaves eid oui t es s).2)),
            pre.length + (encodeAll (leaves eid oui t es s).1 ++ t).length, r)) ∧
    (¬ Stays eid oui t es s →
      (searchLoop f (takeIe f lengthOnly) start searchLen eid oui fuel cnt >>=
        removeTarget (removeLoop eid oui n true) f iesLen start searchLen ret) =
          .error .beyond) := by
  induction es generalizing f pre s start cnt searchLen iesLen fuel n ret with
  | nil =>
    rw [encodeAll_nil, List.nil_append] at hf hsearch hies hfuel
    refine ⟨fun h => ⟨ret, ?_⟩, (removeTail hf ht hbound hstart hsearch hfuel).2⟩
    rw [(removeTail hf ht hbound hstart hsearch hfuel).1 h, hf, hies]
    rfl
  | cons x es ih =>
    obtain ⟨w, hw⟩ : ∃ w, w = encodeAll es ++ t := ⟨_, rfl⟩
    have hlen : (encodeAll (x :: es) ++ t).length = x.data.length + 2 + w.length := by
      rw [encodeAll_cons, List.append_assoc, ← hw, List.length_append, Elem.encode_length]
    have hx : f = pre ++ (x.encode ++ (w ++ s)) := by
      rw [hf, encodeAll_cons, hw, List.append_assoc, List.append_assoc]
    have hbytes : f = pre ++ x.id :: UInt8.ofNat x.data.length ::
        (x.data ++ (encodeAll es ++ (t ++ s))) := by
      rw [hf, encodeAll_cons, List.append_assoc]
      rfl
    have hflen : f.length = pre.length + (x.data.length + 2 + (w.length + s.length)) := by
      rw [hx, List.length_append, List.length_append, List.length_append, Elem.encode_length]
    rw [hlen] at hsearch hies hfuel hn
    obtain ⟨fuel, rfl⟩ : ∃ k, fuel = k + 1 := ⟨fuel - 1, by omega⟩
    rw [Stays, leaves]
    by_cases hhit : Hit eid oui x (encodeAll es ++ (t ++ s))
    · rw [if_pos hhit, if_pos hhit, ← hw, searchLoop_hit hbytes hstart (by omega) hhit.1 hhit.2,
        takeIe_length hbytes, bind_ok, bind_ok, x.toNat_length,
        removeTarget_some hx hstart (by omega) (by omega)]
      by_cases hle : w.length ≤ maxIeSz
      · obtain ⟨n, rfl⟩ : ∃ k, n = k + 1 := ⟨n - 1, by omega⟩
        have hf' : pre ++ (w ++ behind x w s) =
            pre ++ (encodeAll es ++ (t ++ behind x w s)) := by
          rw [hw, List.append_assoc]
        have hlen' : (pre ++ (w ++ behind x w s)).length < 2 ^ 32 := by
          rw [List.length_append, List.length_append, behind_length]
          omega
        rw [if_pos hle, and_iff_right hle, removeLoop, rtwGetIeEx_eq]
        exact ih true hf' hlen' (Nat.add_zero _) (by rw [hw, Nat.zero_add]) (by rw [hw])
          (by rw [hw]; exact Nat.lt_succ_self _) (by rw [← hw]; omega)
      · rw [if_neg hle]
        exact ⟨fun h => absurd h.1 hle, fun _ => rfl⟩
    · rw [if_neg hhit, if_neg hhit]
      by_cases hin : x.id = eid → OuiInside oui (x.data ++ (encodeAll es ++ (t ++ s)))
      · have hpass : Passes eid oui x.id (x.data ++ (encodeAll es ++ (t ++ s))) :=
          fun hid => ⟨hin hid, fun hsame => hhit ⟨hid, hsame⟩⟩
        have hrest : f = (pre ++ x.encode) ++ (encodeAll es ++ (t ++ s)) := by
          rw [hx, hw, List.append_assoc, List.append_assoc]
        have hnext := encode_next pre x
        have hstart' : start + (cnt + (x.data.length + 2)) = (pre ++ x.encode).length := by omega
        have hsearch' : searchLen =
            cnt + (x.data.length + 2) + (encodeAll es ++ t).length := by rw [← hw]; omega
        have hies' : iesLen = (pre ++ x.encode).length + (encodeAll es ++ t).length := by
          rw [← hw]
          omega
        have hfuel' : (encodeAll es ++ t).length < fuel := by rw [← hw]; omega
        have hn' : (encodeAll es ++ t).length ≤ n := by rw [← hw]; omega
        obtain ⟨hok, herr⟩ := ih ret hrest hbound hstart' hsearch' hies' hfuel' hn'
        rw [searchLoop_pass hbytes hstart (by omega) hpass, x.toNat_length, and_iff_right hin]
        refine ⟨fun h => ?_, herr⟩
        obtain ⟨r, hr⟩ := hok h
        refine ⟨r, ?_⟩
        rw [hr, encodeAll_cons, ← hnext]
        simp only [List.append_assoc, List.length_append, Elem.encode_length, Nat.add_assoc]
      · obtain ⟨hid, hout⟩ := Classical.not_imp.mp hin
        rw [searchLoop_beyond hbytes hstart (by omega) hid hout, bind_error]
        exact ⟨fun h => absurd h.1 hin, fun _ => rfl⟩

variable (eid oui) in
/-- A run. -/
theorem rtwIesRemoveIe_spec (hf : f = pre ++ (encodeAll es ++ (t ++ s))) (ht : Stump t)
    (hbound : f.length < 2 ^ 32) :
    (Stays eid oui t es s →
      ∃ r, rtwIesRemoveIe f (pre.length + (encodeAll es ++ t).length) pre.length eid oui =
        .ok (pre ++ (encodeAll (leaves eid oui t es s).1 ++ (t ++ (leaves eid oui t es s).2)),
          pre.length + (encodeAll (leaves eid oui t es s).1 ++ t).length, r)) ∧
    (¬ Stays eid oui t es s →
      rtwIesRemoveIe f (pre.length + (encodeAll es ++ t).length) pre.length eid oui =
        .error .beyond) := by
  rw [rtwIesRemoveIe]
  by_cases hnil : encodeAll es ++ t = []
  · obtain ⟨hes, rfl⟩ := List.append_eq_nil_iff.mp hnil
    obtain rfl : es = [] := encodeAll_injective hes
    have hend : pre.length + (encodeAll ([] : List Elem) ++ []).length ≤ pre.length :=
      Nat.le_refl _
    rw [if_pos hend, hf]
    exact ⟨fun _ => ⟨false, rfl⟩, fun h => absurd (.inl rfl) h⟩
  · have hpos := List.length_pos_iff.mpr hnil
    rw [if_neg (by omega), removeLoop, rtwGetIeEx_eq, Nat.add_sub_cancel_left]
    exact removeLoop_spec false hf ht hbound (Nat.add_zero _) (Nat.zero_add _).symm rfl
      (Nat.lt_succ_self _) (Nat.le_add_left _ _)

/-- Nothing is lost: what is removed lies behind the new end. -/
theorem leaves_length (es : List Elem) (s : List UInt8) :
    (encodeAll (leaves eid oui t es s).1).length + (leaves eid oui t es s).2.length =
      (encodeAll es).length + s.length := by
  induction es generalizing s with
  | nil => rfl
  | cons x es ih =>
    rw [leaves, encodeAll_cons, List.length_append, Elem.encode_length]
    split_ifs
    · rw [ih, behind_length]
      omega
    · have hrest := ih s
      change (encodeAll (x :: (leaves eid oui t es s).1)).length +
        (leaves eid oui t es s).2.length = _
      rw [encodeAll_cons, List.length_append, Elem.encode_length]
      omega

/-- What matches is taken for a match. -/
theorem Matches.hit (h : Matches eid oui x) (d : List UInt8) : Hit eid oui x d :=
  ⟨h.1, Matches.same h⟩

theorem kept_cons (x : Elem) (es : List Elem) :
    kept eid oui (x :: es) =
      if Matches eid oui x then kept eid oui es else x :: kept eid oui es := by
  rw [kept, List.filter_cons]
  by_cases hm : Matches eid oui x
  · rw [if_pos hm, if_neg (by simpa using hm), kept]
  · rw [if_neg hm, if_pos (by simpa using hm), kept]

variable (eid oui t) in
theorem leaves_length_le (es : List Elem) (s : List UInt8) :
    (leaves eid oui t es s).1.length ≤ (kept eid oui es).length := by
  induction es generalizing s with
  | nil => exact Nat.le_refl 0
  | cons x es ih =>
    rw [leaves, kept_cons]
    by_cases hm : Matches eid oui x
    · rw [if_pos (Matches.hit hm _), if_pos hm]
      exact ih _
    · rw [if_neg hm, List.length_cons]
      split_ifs
      · exact Nat.le_succ_of_le (ih _)
      · rw [List.length_cons]
        exact Nat.succ_le_succ (ih _)

/-- Exactly the elements that match are taken for matches. -/
theorem fits_iff (es : List Elem) (s : List UInt8) :
    Fits eid oui es s ↔
      Stays eid oui [] es s ∧ (leaves eid oui [] es s).1 = kept eid oui es := by
  induction es generalizing s with
  | nil => exact iff_of_true trivial ⟨.inl rfl, rfl⟩
  | cons x es ih =>
    rw [Fits, Stays, leaves, kept_cons, List.append_nil, List.nil_append]
    by_cases hm : Matches eid oui x
    · rw [if_pos hm, if_pos (Matches.hit hm _), if_pos (Matches.hit hm _), if_pos hm, ih,
        and_assoc]
    · rw [if_neg hm, if_neg hm, ih]
      by_cases hhit : Hit eid oui x (encodeAll es ++ s)
      · rw [if_pos hhit, if_pos hhit]
        refine iff_of_false (fun h => (h.1 hhit.1).2 hhit.2) fun h => ?_
        -- one element less is left
        have hlen := congrArg List.length h.2
        have hle := leaves_length_le [] eid oui es
          (behind x (encodeAll es) s)
        rw [List.length_cons] at hlen
        omega
      · rw [if_neg hhit, if_neg hhit]
        have hpass : Passes eid oui x.id (x.data ++ (encodeAll es ++ s)) ↔
            (x.id = eid → OuiInside oui (x.data ++ (encodeAll es ++ s))) :=
          ⟨fun h hid => (h hid).1, fun h hid => ⟨h hid, fun hsame => hhit ⟨hid, hsame⟩⟩⟩
        rw [hpass, and_assoc, List.cons_eq_cons, and_iff_right rfl]

theorem Fits.leaves_snd (h : Fits eid oui es s) :
    (leaves eid oui [] es s).2 = behindAll eid oui es s := by
  induction es generalizing s with
  | nil => rfl
  | cons x es ih =>
    rw [Fits] at h
    rw [leaves, behindAll, List.append_nil, List.nil_append]
    by_cases hm : Matches eid oui x
    · rw [if_pos hm] at h
      rw [if_pos hm, if_pos (Matches.hit hm _)]
      exact ih h.2
    · rw [if_neg hm] at h
      have hhit : ¬ Hit eid oui x (encodeAll es ++ s) := fun hhit => (h.1 hhit.1).2 hhit.2
      rw [if_neg hm, if_neg hhit]
      exact ih h.2

end run

/-! ## Both kinds of buffers -/

section buffers

variable {eid : UInt8} {oui : Option (List UInt8)}

theorem kept_kept (es : List Elem) : kept eid oui (kept eid oui es) = kept eid oui es := by
  rw [kept, kept, List.filter_filter]
  simp only [Bool.and_self]

variable (eid oui) in
/-- A run over whole elements leaves those that do not match. -/
theorem run_kept_iff {f pre s : List UInt8} {es : List Elem} (hf : f = pre ++ (encodeAll es ++ s))
    (hbound : f.length < 2 ^ 32) :
    (∃ g n r, rtwIesRemoveIe f (pre.length + (encodeAll es).length) pre.length eid oui =
        .ok (g, n, r) ∧ g.take n = pre ++ encodeAll (kept eid oui es) ∧
        n = (pre ++ encodeAll (kept eid oui es)).length) ↔ Fits eid oui es s := by
  have hf' : f = pre ++ (encodeAll es ++ ([] ++ s)) := hf
  have hspec := rtwIesRemoveIe_spec eid oui hf' trivial hbound
  rw [List.append_nil] at hspec
  rw [fits_iff]
  by_cases hstays : Stays eid oui [] es s
  · obtain ⟨r, hr⟩ := hspec.1 hstays
    have htake : (pre ++ (encodeAll (leaves eid oui [] es s).1 ++
        ([] ++ (leaves eid oui [] es s).2))).take
          (pre.length + (encodeAll (leaves eid oui [] es s).1 ++ []).length) =
        pre ++ encodeAll (leaves eid oui [] es s).1 := by
      rw [List.append_nil, ← List.append_assoc, ← List.length_append, List.take_left]
    rw [hr, and_iff_right hstays]
    constructor
    · rintro ⟨g, n, r', heq, hg, -⟩
      obtain ⟨rfl, hrest⟩ := Prod.mk.inj (Except.ok.inj heq)
      obtain ⟨rfl, -⟩ := Prod.mk.inj hrest
      rw [htake] at hg
      exact encodeAll_injective (List.append_cancel_left hg)
    · intro hleaves
      refine ⟨_, _, r, rfl, ?_, ?_⟩
      · rw [htake, hleaves]
      · rw [hleaves, List.append_nil, List.length_append]
  · rw [hspec.2 hstays]
    refine iff_of_false ?_ fun h => hstays h.1
    rintro ⟨g, n, r, heq, -⟩
    cases heq

theorem Fits.run {f pre s : List UInt8} {es : List Elem} (hf : f = pre ++ (encodeAll es ++ s))
    (hbound : f.length < 2 ^ 32) (h : Fits eid oui es s) :
    ∃ r, rtwIesRemoveIe f (pre.length + (encodeAll es).length) pre.length eid oui =
      .ok (pre ++ (encodeAll (kept eid oui es) ++ behindAll eid oui es s),
        pre.length + (encodeAll (kept eid oui es)).length, r) := by
  have hf' : f = pre ++ (encodeAll es ++ ([] ++ s)) := hf
  have hspec := rtwIesRemoveIe_spec eid oui hf' trivial hbound
  obtain ⟨hstays, hleaves⟩ := (fits_iff es s).mp h
  obtain ⟨r, hr⟩ := hspec.1 hstays
  rw [List.append_nil, List.append_nil, List.nil_append, hleaves, h.leaves_snd] at hr
  exact ⟨r, hr⟩

theorem Fits.length {s : List UInt8} {es : List Elem} (h : Fits eid oui es s) :
    (encodeAll (kept eid oui es)).length + (behindAll eid oui es s).length =
      (encodeAll es).length + s.length := by
  obtain ⟨-, hleaves⟩ := (fits_iff es s).mp h
  rw [← hleaves, ← h.leaves_snd]
  exact leaves_length es s

/-- Where nothing matches nothing moves. -/
theorem behindAll_kept (es : List Elem) (s : List UInt8) :
    behindAll eid oui (kept eid oui es) s = s := by
  induction es with
  | nil => rfl
  | cons x es ih =>
    rw [kept_cons]
    by_cases hm : Matches eid oui x
    · rw [if_pos hm]
      exact ih
    · rw [if_neg hm, behindAll, if_neg hm]
      exact ih

/-- The elements that do not match are left, and stay, exactly when both runs fit. -/
theorem filtered_iff {f : List UInt8} (hbound : f.length < 2 ^ 32) (offset : ℕ)
    (hwhole : (parse (f.drop offset)).2 = []) :
    Filtered f offset eid oui ↔
      Fits eid oui (parse (f.drop offset)).1 [] ∧
        Fits eid oui (kept eid oui (parse (f.drop offset)).1)
          (behindAll eid oui (parse (f.drop offset)).1 []) := by
  obtain ⟨es, t, hes, ht⟩ := exists_parse (f.drop offset)
  have hparse : parse (f.drop offset) = (es, t) := by rw [hes, parse_append es ht]
  rw [hparse] at hwhole
  obtain rfl : t = [] := hwhole
  rw [Filtered, hparse]
  by_cases hoff : f.length ≤ offset
  · -- there is nothing behind the offset
    rw [List.drop_eq_nil_of_le hoff, List.append_nil] at hes
    obtain rfl : es = [] := encodeAll_injective hes.symm
    refine iff_of_true ⟨f, f.length, false, if_pos hoff, rfl, ?_, ?_, false, if_pos hoff⟩
      ⟨trivial, trivial⟩
    · rw [List.take_of_length_le (Nat.le_refl _), List.take_of_length_le hoff]
      exact (List.append_nil f).symm
    · rw [List.take_of_length_le hoff]
      exact congrArg List.length (List.append_nil f).symm
  · obtain ⟨pre, hpre⟩ : ∃ pre, pre = f.take offset := ⟨_, rfl⟩
    have hoffset : offset = pre.length := by
      rw [hpre, List.length_take]
      omega
    have hf : f = pre ++ (encodeAll es ++ []) := by
      rw [hpre, ← hes, List.take_append_drop]
    have hflen : f.length = pre.length + (encodeAll es).length := by
      rw [hf, List.append_nil, List.length_append]
    rw [← hpre, hoffset, hflen]
    have hfirst := run_kept_iff eid oui hf hbound
    constructor
    · rintro ⟨g, n, r, hrun, -, htake, hn, r', hagain⟩
      have hfits := hfirst.mp ⟨g, n, r, hrun, htake, hn⟩
      obtain ⟨r₁, hrun₁⟩ := hfits.run hf hbound
      rw [hrun] at hrun₁
      obtain ⟨hg, -⟩ := Prod.mk.inj (Except.ok.inj hrun₁)
      rw [List.length_append] at hn
      refine ⟨hfits, (run_kept_iff eid oui hg ?_).mp ⟨g, n, r', ?_, ?_, ?_⟩⟩
      · rw [hg, List.length_append, List.length_append, hfits.length]
        rw [hflen] at hbound
        exact hbound
      · rw [← hn]
        exact hagain
      · rw [kept_kept]
        exact htake
      · rw [kept_kept, List.length_append]
        exact hn
    · rintro ⟨hfits, hfits'⟩
      obtain ⟨r, hrun⟩ := hfits.run hf hbound
      have hglen : (pre ++ (encodeAll (kept eid oui es) ++ behindAll eid oui es [])).length =
          pre.length + (encodeAll es).length := by
        rw [List.length_append, List.length_append, hfits.length]
        rfl
      obtain ⟨r', hagain⟩ := hfits'.run rfl (by rw [hglen, ← hflen]; exact hbound)
      rw [kept_kept, behindAll_kept] at hagain
      refine ⟨_, _, r, hrun, hglen, ?_, ?_, r', hagain⟩
      · rw [← List.append_assoc, ← List.length_append, List.take_left]
      · rw [List.length_append]

variable (eid oui) in
/-- On whole elements the elements that do not match are left, and stay; on other buffers no
    access leaves the buffer or `buf`. Each holds exactly under its condition. -/
theorem remove_iff (f : List UInt8) (hbound : f.length < 2 ^ 32) (offset : ℕ) :
    ((parse (f.drop offset)).2 = [] →
      (Filtered f offset eid oui ↔
        Fits eid oui (parse (f.drop offset)).1 [] ∧
          Fits eid oui (kept eid oui (parse (f.drop offset)).1)
            (behindAll eid oui (parse (f.drop offset)).1 []))) ∧
    ((parse (f.drop offset)).2 ≠ [] →
      (Fine (rtwIesRemoveIe f f.length offset eid oui) ↔
        Stays eid oui (parse (f.drop offset)).2 (parse (f.drop offset)).1 [])) := by
  refine ⟨filtered_iff hbound offset, fun hrest => ?_⟩
  obtain ⟨es, t, hes, ht⟩ := exists_parse (f.drop offset)
  have hparse : parse (f.drop offset) = (es, t) := by rw [hes, parse_append es ht]
  rw [hparse] at hrest ⊢
  obtain ⟨pre, hpre⟩ : ∃ pre, pre = f.take offset := ⟨_, rfl⟩
  have hoff : offset < f.length := by
    by_contra hno
    rw [List.drop_eq_nil_of_le (Nat.not_lt.mp hno)] at hes
    exact hrest (List.append_eq_nil_iff.mp hes.symm).2
  have hoffset : offset = pre.length := by
    rw [hpre, List.length_take]
    omega
  have hf : f = pre ++ (encodeAll es ++ (t ++ [])) := by
    rw [hpre, List.append_nil, ← hes, List.take_append_drop]
  have hflen : f.length = pre.length + (encodeAll es ++ t).length := by
    rw [hf, List.append_nil, List.length_append]
  have hspec := rtwIesRemoveIe_spec eid oui hf ht hbound
  rw [← hflen, ← hoffset] at hspec
  constructor
  · intro hfine
    by_contra hno
    rw [hspec.2 hno] at hfine
    exact not_fine_error _ hfine
  · intro hstays
    obtain ⟨r, hr⟩ := hspec.1 hstays
    rw [hr]
    exact fine_ok _

end buffers

/-- An SSID and a vendor specific element. -/
def ssidVendor : List UInt8 := [0, 1, 7, 221, 0]

theorem ssidVendor_filtered : Filtered ssidVendor 0 221 none := by
  have hparse : (parse (ssidVendor.drop 0)).2 = [] := by simp [ssidVendor, parse]
  refine ((remove_iff 221 none ssidVendor (by decide) 0).1 hparse).mpr ?_
  simp [ssidVendor, parse, Fits, kept, behindAll, Matches, Passes, encodeAll, maxIeSz]

/-- A vendor specific element that is shorter than the OUI, one with the OUI, and one that begins
    like the rest of the OUI. -/
def shortElement : List UInt8 := [221, 1, 1, 221, 2, 1, 2, 2, 0]

/-- What the removal leaves of it. -/
def shortElementLeft : List UInt8 := [221, 1, 1, 2, 0, 1, 2, 2, 0]

/-- The second removal takes away what the first has left; a rest with the id is read behind the
    buffer. -/
theorem shortElement_removed_next :
    (parse (shortElement.drop 0)).2 = [] ∧
      rtwIesRemoveIe shortElement 9 0 221 (some [1, 2]) = .ok (shortElementLeft, 5, true) ∧
      (∃ g, rtwIesRemoveIe shortElementLeft 5 0 221 (some [1, 2]) = .ok (g, 2, true)) ∧
      ¬ Filtered shortElement 0 221 (some [1, 2]) ∧
      rtwIesRemoveIe [221, 5, 0] 3 0 221 none = .error .beyond := by
  have hfirst : rtwIesRemoveIe shortElement 9 0 221 (some [1, 2]) =
      .ok (shortElementLeft, 5, true) := by rfl
  have hsecond : ∃ g, rtwIesRemoveIe shortElementLeft 5 0 221 (some [1, 2]) =
      .ok (g, 2, true) := ⟨_, by rfl⟩
  refine ⟨by simp [shortElement, parse], hfirst, hsecond, ?_, by rfl⟩
  rintro ⟨g, n, r, hrun, -, -, -, r', hagain⟩
  obtain ⟨g', hg'⟩ := hsecond
  have heq := Except.ok.inj (hrun.symm.trans hfirst)
  obtain ⟨rfl, hrest⟩ := Prod.mk.inj heq
  obtain ⟨rfl, -⟩ := Prod.mk.inj hrest
  have hlen : 2 = 5 := congrArg (fun p => p.2.1) (Except.ok.inj (hg'.symm.trans hagain))
  omega

end Rtl8821au.Mlme.IeRemove
