import Rtl8821au.Ap.BcnBody

/-!
# The WPS element of the beacon

`update_bcn_wps_ie` (`rtw_ap.c`, lines 1599–1653), which puts the WPS element that user space has
given for beacons in the place of the one among the elements of the network.

* `putBack_bytes`: the element and what is put back behind it.
* `update_right_iff`: when the elements are the wanted ones, or as they were, and the copy is freed.

**What goes wrong.** Without memory for a copy of what follows the element it is not put back
behind the new one; without an element for beacons the copy is not freed. The search compares four
bytes of a vendor element, however short it is.

`rtw_malloc` is a parameter. `memcpy` on ranges that overlap is taken for `memmove`.
-/

namespace Rtl8821au.Ap.BcnWps

open Checked Elements BcnBody
open Mlme (wrapSub)
open Mlme.IeLookup (rtwGetWpsIe)

/-! ## Model -/

/-- The network, and whether the copy is still allocated at the end. -/
structure Update where
  network : Network
  leaked : Bool

/-- `pbackup_remainder_ie` (lines 1626–1630). -/
def backupRemainder (rtwMalloc : ℕ → Bool) (f : List UInt8) (off n : ℕ) :
    Except Fault (Option (List UInt8)) :=
  if 0 < n ∧ rtwMalloc n then do
    let bytes ← readBytes f off n
    .ok (some bytes)
  else .ok none

/-- The new element at `off`, and the copy behind it (lines 1639–1643). -/
def putBack (ies : Area maxIeSz) (off : ℕ) (wps : List UInt8) (backup : Option (List UInt8)) :
    Except Fault (Area maxIeSz) := do
  let ies ← ies.copyIn off wps
  match backup with
  | none => .ok ies
  | some bytes => ies.copyIn (off + wps.length) bytes

/-- From line 1633 on. -/
def replaceWps (wps : Option (List UInt8)) (n : Network) (wpsOffset remainder : ℕ)
    (backup : Option (List UInt8)) : Except Fault Update :=
  match wps with
  | none => .ok ⟨n, backup.isSome⟩
  | some src => do
    let len ← readByte src 1
    if wpsOffset + len.toNat + 2 + remainder ≤ maxIeSz then do
      let bytes ← readBytes src 0 (len.toNat + 2)
      let ies ← putBack n.ies wpsOffset bytes backup
      .ok ⟨{ n with ies := ies, ieLength := wpsOffset + (len.toNat + 2) + remainder }, false⟩
    else .ok ⟨n, false⟩

/-- `update_bcn_wps_ie`, where `wps` is `wps_beacon_ie`. -/
def updateBcnWpsIe (rtwMalloc : ℕ → Bool) (wps : Option (List UInt8)) (n : Network) :
    Except Fault Update := do
  let found ← rtwGetWpsIe (n.ies.bytes.drop fixedIeLength) 0 (wrapSub n.ieLength fixedIeLength)
    ⟨false, true⟩
  match found with
  | none => .ok ⟨n, false⟩
  | some r =>
    if r.ielen = 0 then .ok ⟨n, false⟩
    else do
      let wpsOffset := fixedIeLength + r.place
      let remainder := wrapSub (wrapSub n.ieLength wpsOffset) r.ielen
      let backup ← backupRemainder rtwMalloc n.ies.bytes (wpsOffset + r.ielen) remainder
      replaceWps wps n wpsOffset remainder backup

/-! ## What it should do -/

/-- A network, the element that is configured for beacons, and what memory there is. -/
structure Beacon where
  bss : Bss
  wps : Option {x : Elem // IsWps x}
  rtwMalloc : ℕ → Bool

def Beacon.update (a : Beacon) : Except Fault Update :=
  updateBcnWpsIe a.rtwMalloc (a.wps.map fun w => w.val.encode) a.bss.network

/-- The network has the elements, and there was room for them. -/
def Has (n : Network) (fixed : List UInt8) (es : List Elem) : Prop :=
  n.ieLength = fixedIeLength + (encodeAll es).length ∧ n.ieLength ≤ maxIeSz ∧
    n.ies.bytes.take n.ieLength = fixed ++ encodeAll es

/-- The WPS element is replaced, and no other changed, or the network is as it was; the copy is
    freed. -/
def Right (a : Beacon) : Prop :=
  ∃ u, a.update = .ok u ∧ u.leaked = false ∧
    (a.wps.isSome ∧ Has u.network a.bss.fixed (withWps a.wps a.bss.elements) ∨
      u.network = a.bss.network)

/-! ## When it does -/

/-- The bytes that end up behind the new element, when what followed the old one is not put
    back, are those that followed the old one. -/
def StaysBehind (w x : Elem) (remainder behind : List UInt8) : Prop :=
  ((x.encode ++ (remainder ++ behind)).drop w.encode.length).take remainder.length = remainder

/-- What follows the element that is found, without what is behind all of them. -/
def Beacon.remainder (a : Beacon) (rest : List UInt8) : List UInt8 :=
  rest.take (rest.length - a.bss.behind.length)

/-- There is room for the new element in the place of `x`. -/
def Beacon.Room (a : Beacon) (w x : Elem) : Prop :=
  fixedIeLength + (encodeAll a.bss.elements).length + w.encode.length ≤
    maxIeSz + x.encode.length

/-- The search ends at this element. Nothing is copied if none is configured; otherwise there is no
    room, or it is a WPS element, and what follows it is put back. -/
def TakenFits (a : Beacon) (x : Elem) (rest : List UInt8) : Prop :=
  Seen x rest ∧
    match a.wps with
    | none => a.remainder rest = [] ∨ a.rtwMalloc (a.remainder rest).length = false
    | some w => a.Room w.val x → IsWps x ∧
        (a.rtwMalloc (a.remainder rest).length = true ∨
          StaysBehind w.val x (a.remainder rest) a.bss.behind)

/-- The search stays in the array up to such an element. -/
def Fits (a : Beacon) : Prop := Reaches (TakenFits a) a.bss.behind a.bss.elements

/-! ## The parts -/

section parts

variable {ies : Area maxIeSz} {front r behind : List UInt8} {w x : Elem} {off : ℕ}

/-- With a copy of what followed, it is behind the new element. -/
theorem putBack_bytes (hies : ies.bytes = front ++ (x.encode ++ (r ++ behind)))
    (hoff : front.length = off) (hroom : off + w.encode.length + r.length ≤ maxIeSz) :
    ∃ ies' tail, putBack ies off w.encode (some r) = .ok ies' ∧
      ies'.bytes = front ++ (w.encode ++ (r ++ tail)) := by
  have hfirst : off + w.encode.length ≤ maxIeSz := by omega
  obtain ⟨ies₁, hcopy₁, hbytes₁⟩ := Area.copyIn_over hies hoff hfirst
  rw [← List.append_assoc] at hbytes₁
  have hoff₁ : (front ++ w.encode).length = off + w.encode.length := by
    rw [List.length_append, hoff]
  obtain ⟨ies₂, hcopy₂, hbytes₂⟩ := Area.copyIn_over hbytes₁ hoff₁ hroom
  refine ⟨ies₂, _, ?_, hbytes₂.trans (List.append_assoc _ _ _)⟩
  rw [putBack, hcopy₁, bind_ok]
  exact hcopy₂

/-- Without one it stays where it was. -/
theorem putBack_none (hies : ies.bytes = front ++ (x.encode ++ (r ++ behind)))
    (hoff : front.length = off) (hroom : off + w.encode.length ≤ maxIeSz) :
    ∃ ies', putBack ies off w.encode none = .ok ies' ∧
      ies'.bytes = front ++ (w.encode ++ (x.encode ++ (r ++ behind)).drop w.encode.length) := by
  obtain ⟨ies₁, hcopy₁, hbytes₁⟩ := Area.copyIn_over hies hoff hroom
  refine ⟨ies₁, ?_, hbytes₁⟩
  rw [putBack, hcopy₁, bind_ok]

/-- A configured element, of which there is room. -/
theorem replaceWps_some (n : Network) (w : Elem) {remainder : ℕ} {backup : Option (List UInt8)} :
    replaceWps (some w.encode) n off remainder backup =
      if off + w.encode.length + remainder ≤ maxIeSz then do
        let ies ← putBack n.ies off w.encode backup
        .ok ⟨{ n with ies := ies, ieLength := off + w.encode.length + remainder }, false⟩
      else .ok ⟨n, false⟩ := by
  have hlen : readByte w.encode 1 = .ok (UInt8.ofNat w.data.length) := rfl
  have hall : readBytes w.encode 0 (w.data.length + 2) = .ok w.encode := by
    have hmid := readBytes_middle [] w.encode []
    rw [List.append_nil, List.nil_append] at hmid
    exact hmid
  simp only [replaceWps, hlen, bind_ok, w.toNat_length, hall, Elem.encode_length, Nat.add_assoc]

end parts

/-! ## The element that is found -/

section found

variable {a : Beacon} {es₁ es₂ : List Elem} {x : Elem}

/-- The array of the network, cut at the element. -/
theorem ies_split (hes : a.bss.elements = es₁ ++ x :: es₂) :
    a.bss.network.ies.bytes = (a.bss.fixed ++ encodeAll es₁) ++
      (x.encode ++ (encodeAll es₂ ++ a.bss.behind)) := by
  change a.bss.fixed ++ (encodeAll a.bss.elements ++ a.bss.behind) = _
  rw [hes, encodeAll_append, encodeAll_cons]
  simp only [List.append_assoc]

theorem remainder_eq (a : Beacon) (es₂ : List Elem) :
    a.remainder (encodeAll es₂ ++ a.bss.behind) = encodeAll es₂ := by
  rw [Beacon.remainder, List.length_append, Nat.add_sub_cancel, List.take_left]

/-- The elements with another in the place of the one that is found: they are the wanted ones only
    if that is a WPS element. -/
theorem spliced_wanted {w : {x : Elem // IsWps x}} (hes : a.bss.elements = es₁ ++ x :: es₂)
    (hes₁ : ∀ y ∈ es₁, ¬ IsWps y) {l : List UInt8} :
    encodeAll es₁ ++ (w.val.encode ++ l) = encodeAll (withWps (some w) a.bss.elements) ↔
      IsWps x ∧ l = encodeAll es₂ := by
  rw [withWps, hes, List.replaceFirst_append hes₁, encodeAll_append, List.append_right_inj]
  by_cases hx : IsWps x
  · rw [List.replaceFirst_hit hx, encodeAll_cons, List.append_right_inj, and_iff_right hx]
  · rw [List.replaceFirst_pass hx, encodeAll_cons]
    refine iff_of_false (fun h => hx ?_) fun h => hx h.1
    rw [← (Elem.encode_append_inj h).1]
    exact w.property

/-- What `update_bcn_wps_ie` does with it. -/
theorem update_found (hes : a.bss.elements = es₁ ++ x :: es₂)
    (hfound : rtwGetWpsIe (a.bss.network.ies.bytes.drop fixedIeLength) 0
      (wrapSub a.bss.network.ieLength fixedIeLength) ⟨false, true⟩ =
        .ok (some ⟨(encodeAll es₁).length, [], x.encode.length⟩)) :
    a.update = replaceWps (a.wps.map fun w => w.val.encode) a.bss.network
      (fixedIeLength + (encodeAll es₁).length) (encodeAll es₂).length
      (if 0 < (encodeAll es₂).length ∧ a.rtwMalloc (encodeAll es₂).length then
        some (encodeAll es₂) else none) := by
  have hpos : ¬ x.encode.length = 0 := Nat.succ_ne_zero _
  have hlen : a.bss.network.ieLength = fixedIeLength + (encodeAll es₁).length +
      (x.encode.length + (encodeAll es₂).length) := by
    change fixedIeLength + (encodeAll a.bss.elements).length = _
    rw [hes, encodeAll_append, encodeAll_cons, List.length_append, List.length_append]
    omega
  have hread : readBytes a.bss.network.ies.bytes
      (fixedIeLength + (encodeAll es₁).length + x.encode.length) (encodeAll es₂).length =
        .ok (encodeAll es₂) := by
    have hmid := readBytes_middle (a.bss.fixed ++ encodeAll es₁ ++ x.encode) (encodeAll es₂)
      a.bss.behind
    rw [List.length_append, List.length_append, a.bss.fixed_length, List.append_assoc,
      ← ies_split hes] at hmid
    exact hmid
  rw [Beacon.update, updateBcnWpsIe, hfound, bind_ok]
  simp only [if_neg hpos, hlen, wrapSub_add, backupRemainder, hread, bind_ok]
  split_ifs
  · rw [bind_ok]
  · rw [bind_ok]

end found

/-! ## When it is right -/

section right

variable {a : Beacon} {es₁ es₂ : List Elem} {x : Elem} {w : {x : Elem // IsWps x}}

/-- The new element was written, and there are `l` bytes behind it. -/
theorem right_iff_behind {ies : Area maxIeSz} {l tail : List UInt8} (hw : a.wps = some w)
    (hes : a.bss.elements = es₁ ++ x :: es₂) (hes₁ : ∀ y ∈ es₁, ¬ IsWps y)
    (hroom : fixedIeLength + (encodeAll es₁).length + w.val.encode.length +
      (encodeAll es₂).length ≤ maxIeSz)
    (hies : ies.bytes = (a.bss.fixed ++ encodeAll es₁) ++ (w.val.encode ++ (l ++ tail)))
    (hl : l.length = (encodeAll es₂).length)
    (hupdate : a.update = .ok ⟨{ a.bss.network with
      ies := ies
      ieLength := fixedIeLength + (encodeAll es₁).length + w.val.encode.length +
        (encodeAll es₂).length }, false⟩) :
    Right a ↔ IsWps x ∧ l = encodeAll es₂ := by
  have htake : ies.bytes.take (fixedIeLength + (encodeAll es₁).length + w.val.encode.length +
      (encodeAll es₂).length) = a.bss.fixed ++ (encodeAll es₁ ++ (w.val.encode ++ l)) := by
    have hsplit : ies.bytes = (a.bss.fixed ++ (encodeAll es₁ ++ (w.val.encode ++ l))) ++ tail := by
      rw [hies]
      simp only [List.append_assoc]
    have hlen : (a.bss.fixed ++ (encodeAll es₁ ++ (w.val.encode ++ l))).length =
        fixedIeLength + (encodeAll es₁).length + w.val.encode.length + (encodeAll es₂).length := by
      rw [List.length_append, List.length_append, List.length_append, a.bss.fixed_length, hl]
      omega
    rw [hsplit, ← hlen, List.take_left]
  constructor
  · rintro ⟨u, hu, -, ⟨-, -, -, hbytes⟩ | hsame⟩
    · obtain rfl := Except.ok.inj (hupdate.symm.trans hu)
      rw [← spliced_wanted hes hes₁, ← hw]
      exact List.append_cancel_left (htake.symm.trans hbytes)
    · obtain rfl := Except.ok.inj (hupdate.symm.trans hu)
      have hsame' : ies.bytes = a.bss.network.ies.bytes :=
        congrArg (fun n => (Network.ies n).bytes) hsame
      rw [hies, ies_split hes, List.append_right_inj] at hsame'
      obtain ⟨heq, hrest⟩ := Elem.encode_append_inj hsame'
      exact ⟨heq ▸ w.property, (List.append_inj hrest hl).1⟩
  · intro h
    have hwant := (spliced_wanted (w := w) hes hes₁).mpr h
    rw [← hw] at hwant
    refine ⟨_, hupdate, rfl, .inl ⟨by rw [hw]; rfl, ?_, hroom, ?_⟩⟩
    · rw [← hwant, List.length_append, List.length_append, hl]
      dsimp only
      omega
    · exact htake.trans (congrArg _ hwant)

/-- At the element that the search ends at. -/
theorem taken_iff (hes : a.bss.elements = es₁ ++ x :: es₂) (hes₁ : ∀ y ∈ es₁, ¬ IsWps y)
    (hseen : Seen x (encodeAll es₂ ++ a.bss.behind))
    (hfound : rtwGetWpsIe (a.bss.network.ies.bytes.drop fixedIeLength) 0
      (wrapSub a.bss.network.ieLength fixedIeLength) ⟨false, true⟩ =
        .ok (some ⟨(encodeAll es₁).length, [], x.encode.length⟩)) :
    Right a ↔ TakenFits a x (encodeAll es₂ ++ a.bss.behind) := by
  have hupdate := update_found hes hfound
  have hfront : (a.bss.fixed ++ encodeAll es₁).length =
      fixedIeLength + (encodeAll es₁).length := by rw [List.length_append, a.bss.fixed_length]
  rw [TakenFits, and_iff_right hseen, remainder_eq]
  cases hw : a.wps with
  | none =>
    rw [hw] at hupdate
    rw [Right, hupdate]
    have hleak : (if 0 < (encodeAll es₂).length ∧ a.rtwMalloc (encodeAll es₂).length then
        some (encodeAll es₂) else none).isSome = false ↔
          encodeAll es₂ = [] ∨ a.rtwMalloc (encodeAll es₂).length = false := by
      rw [← List.length_eq_zero_iff]
      split_ifs with h
      · refine iff_of_false Bool.noConfusion ?_
        rw [h.2]
        rintro (h0 | hno)
        · omega
        · cases hno
      · refine iff_of_true rfl ?_
        by_contra hc
        rw [not_or, Bool.not_eq_false] at hc
        exact h ⟨Nat.pos_of_ne_zero hc.1, hc.2⟩
    refine Iff.trans ⟨?_, fun h => ⟨_, rfl, h, .inr rfl⟩⟩ hleak
    rintro ⟨u, hu, hleaked, -⟩
    obtain rfl := Except.ok.inj hu
    exact hleaked
  | some w =>
    rw [hw] at hupdate
    have hlen : (encodeAll a.bss.elements).length =
        (encodeAll es₁).length + x.encode.length + (encodeAll es₂).length := by
      rw [hes, encodeAll_append, encodeAll_cons, List.length_append, List.length_append]
      omega
    have hroom : fixedIeLength + (encodeAll es₁).length + w.val.encode.length +
        (encodeAll es₂).length ≤ maxIeSz ↔ a.Room w.val x := by
      rw [Beacon.Room, hlen]
      omega
    change a.update = replaceWps (some w.val.encode) _ _ _ _ at hupdate
    rw [replaceWps_some] at hupdate
    by_cases hfits : a.Room w.val x
    · have hle := hroom.mpr hfits
      have hsplit := ies_split hes
      rw [if_pos hle] at hupdate
      simp only [hfits, forall_const]
      by_cases hcopy : 0 < (encodeAll es₂).length ∧ a.rtwMalloc (encodeAll es₂).length
      · obtain ⟨ies, tail, hput, hbytes⟩ := putBack_bytes hsplit hfront hle
        rw [if_pos hcopy, hput, bind_ok] at hupdate
        rw [right_iff_behind hw hes hes₁ hle hbytes rfl hupdate]
        exact and_congr_right fun _ => iff_of_true rfl (.inl hcopy.2)
      · have hle' : fixedIeLength + (encodeAll es₁).length + w.val.encode.length ≤ maxIeSz := by
          omega
        obtain ⟨ies, hput, hbytes⟩ := putBack_none hsplit hfront hle'
        rw [if_neg hcopy, hput, bind_ok] at hupdate
        rw [← List.take_append_drop (encodeAll es₂).length (List.drop _ _)] at hbytes
        have hl : (((x.encode ++ (encodeAll es₂ ++ a.bss.behind)).drop
            w.val.encode.length).take (encodeAll es₂).length).length =
              (encodeAll es₂).length := by
          have htotal := a.bss.length_elements
          rw [List.length_take, List.length_drop, List.length_append, List.length_append]
          omega
        rw [right_iff_behind hw hes hes₁ hle hbytes hl hupdate]
        refine and_congr_right fun _ => ⟨.inr, fun h => ?_⟩
        rcases h with hmalloc | hstays
        · have hzero : (encodeAll es₂).length = 0 := by
            by_contra hne
            exact hcopy ⟨Nat.pos_of_ne_zero hne, hmalloc⟩
          rw [List.length_eq_zero_iff.mp hzero]
          exact List.take_zero
        · exact hstays
    · rw [if_neg fun hle => hfits (hroom.mp hle)] at hupdate
      exact iff_of_true ⟨_, hupdate, rfl, .inr rfl⟩ fun h => absurd h hfits

end right

/-- `update_bcn_wps_ie` replaces the WPS element of the beacon and nothing else, or leaves the
    beacon as it was, and frees the copy it has made, exactly if it fits. -/
theorem update_right_iff (a : Beacon) : Right a ↔ Fits a := by
  have hright : ∀ y rest, TakenFits a y rest → Seen y rest := fun y rest h => h.1
  have hdrop : a.bss.network.ies.bytes.drop fixedIeLength =
      encodeAll a.bss.elements ++ a.bss.behind := by
    rw [← a.bss.fixed_length]
    exact List.drop_left
  have hlimit : wrapSub a.bss.network.ieLength fixedIeLength = (encodeAll a.bss.elements).length :=
    wrapSub_add _ _
  have hends := rtwGetWpsIe_ends hdrop hlimit
  cases hr : rtwGetWpsIe (a.bss.network.ies.bytes.drop fixedIeLength) 0
      (wrapSub a.bss.network.ieLength fixedIeLength) ⟨false, true⟩ with
  | error e =>
    refine iff_of_false ?_ (hends.error hr hright)
    rintro ⟨u, hu, -⟩
    rw [Beacon.update, updateBcnWpsIe, hr, bind_error] at hu
    cases hu
  | ok r =>
    cases r with
    | none =>
      refine iff_of_true ⟨⟨a.bss.network, false⟩, ?_, rfl, .inr rfl⟩ ((hends.none hr).2 _)
      rw [Beacon.update, updateBcnWpsIe, hr, bind_ok]
    | some r =>
      obtain ⟨es₁, x, es₂, hes, rfl, hseen, hes₁, hreach⟩ := hends.found hr
      rw [Nat.zero_add] at hr
      rw [Fits, hreach _ hright]
      exact taken_iff hes hes₁ hseen hr

/-! ## No memory -/

theorem fourBytes_lt : [(0x00 : UInt8), 0x50, 0xF2, 0x04].length < 256 := by decide

theorem fiveBytes_lt : [(0x00 : UInt8), 0x50, 0xF2, 0x04, 0x10].length < 256 := by decide

theorem oneRate_lt : [(0x82 : UInt8)].length < 256 := by decide

def shortWps : Elem := ⟨221, [0x00, 0x50, 0xF2, 0x04], fourBytes_lt⟩

theorem shortWps_is : IsWps shortWps := by decide

/-- The configured element is a byte longer. -/
def longerWps : Elem := ⟨221, [0x00, 0x50, 0xF2, 0x04, 0x10], fiveBytes_lt⟩

theorem longerWps_is : IsWps longerWps := by decide

/-- A WPS element, and one more element behind it. -/
def plainElements : List Elem := [shortWps, ⟨1, [0x82], oneRate_lt⟩]

def plainFixed : List UInt8 := List.replicate fixedIeLength 0

theorem plainFixed_length : plainFixed.length = fixedIeLength := List.length_replicate

def plainBehind : List UInt8 := List.replicate 747 0

theorem plain_length :
    (plainFixed ++ (encodeAll plainElements ++ plainBehind)).length = maxIeSz := by
  rw [List.length_append, List.length_append, plainFixed, plainBehind, List.length_replicate,
    List.length_replicate]
  rfl

def plainBss : Bss where
  macAddress := Vector.replicate 6 2
  fixed := plainFixed
  elements := plainElements
  behind := plainBehind
  ssidLength := 0
  ssidField := .zero lengthSsid
  fixed_length := plainFixed_length
  ies_length := plain_length
  ssidLength_le := Nat.zero_le _

def starved : Beacon where
  bss := plainBss
  wps := some ⟨longerWps, longerWps_is⟩
  rtwMalloc := fun _ => false

/-- The element behind has lost its first byte to the new one, and has one byte from behind all
    elements. -/
theorem starved_cut : ¬ Right starved := by
  have hes : starved.bss.elements = [] ++ shortWps :: [⟨1, [0x82], oneRate_lt⟩] := rfl
  have hfound : rtwGetWpsIe (starved.bss.network.ies.bytes.drop fixedIeLength) 0
      (wrapSub starved.bss.network.ieLength fixedIeLength) ⟨false, true⟩ =
        .ok (some ⟨0, [], shortWps.encode.length⟩) := by decide +kernel
  rw [taken_iff hes (fun y hy => absurd hy List.not_mem_nil) (shortWps_is.seen _) hfound]
  rintro ⟨-, htaken⟩
  have hroom : starved.Room longerWps shortWps := by
    unfold Beacon.Room
    decide +kernel
  obtain ⟨-, hmalloc | hstays⟩ := htaken hroom
  · cases hmalloc
  · exact absurd hstays (by unfold StaysBehind; decide +kernel)

end Rtl8821au.Ap.BcnWps
