import Rtl8821au.Lib.Area
import Rtl8821au.Lib.ElementWalk
import Rtl8821au.Lib.EndsWhen
import Rtl8821au.Mlme.ElemWalk
import Rtl8821au.Mlme.IeLookup

/-!
# From a beacon to a BSS record

`collect_bss_info` (`rtw_mlme_ext.c`, lines 4577–4730), which fills a `WLAN_BSSID_EX` from a
beacon or a probe response, with the search in `rtw_get_ie` (`rtw_ieee80211.c`, lines 227–258).
The frame is any string. A read is checked against the bytes of the frame, in the frame and in
their copy in `IEs`; a write is checked against the field.

* `getIe_found`: a search, by what the frame consists of; `getIe_lookup`: and what is done with its
  result.
* `collectBssInfo_right_iff`: when the record stays inside and says what the frame says.

**What goes wrong.** A search that comes to a single byte reads a length behind it, the length
of the last element is not compared with what is left of the frame, and the channel is taken
from an element without looking whether it is empty.
-/

namespace Rtl8821au.Mlme.BssInfo

open Checked Elements

/-! ## Model -/

/-- What is looked at of `struct recv_frame`: the data, whose length is an `unsigned int`, and
    `attrib.phy_info`. -/
structure RecvFrame where
  rxData : List UInt8
  recvSignalPower : ℤ
  signalQuality : UInt8
  signalStrength : UInt8
  length_lt : rxData.length < 2 ^ 32

/-- `NDIS_802_11_NETWORK_TYPE` and `NDIS_802_11_NETWORK_INFRASTRUCTURE` as far as they occur;
    the first is `Ndis802_11FH`, the other `Ndis802_11IBSS`, in a record of zeros. -/
inductive NetworkType where
  | fh
  | ofdm24
  deriving DecidableEq, Repr

inductive NetworkInfrastructure where
  | ibss
  | infrastructure
  deriving DecidableEq, Repr

/-- `MAX_IE_SZ`, `NDIS_802_11_LENGTH_SSID` and `NDIS_802_11_LENGTH_RATES_EX`. -/
def maxIeSz : ℕ := 768
def lengthSsid : ℕ := 32
def lengthRatesEx : ℕ := 16

/-- `sizeof(WLAN_BSSID_EX) - MAX_IE_SZ`, where a `long` has eight bytes. -/
def fixedSz : ℕ := 124

/-- `WLAN_BSSID_EX` without the fields that stay zero; `Configuration` and `PhyInfo` are
    unfolded. -/
structure WlanBssidEx where
  length : ℕ := 0
  macAddress : Area 6 := .zero 6
  reserved0 : UInt8 := 0
  ssidLength : ℕ := 0
  ssid : Area lengthSsid := .zero lengthSsid
  privacy : ℕ := 0
  rssi : ℤ := 0
  networkTypeInUse : NetworkType := .fh
  beaconPeriod : ℕ := 0
  dsConfig : ℕ := 0
  infrastructureMode : NetworkInfrastructure := .ibss
  supportedRates : Area lengthRatesEx := .zero lengthRatesEx
  signalStrength : UInt8 := 0
  signalQuality : UInt8 := 0
  ieLength : ℕ := 0
  ies : Area maxIeSz := .zero maxIeSz
  deriving DecidableEq, Repr

/-- `sizeof(struct rtw_ieee80211_hdr_3addr)`. -/
def hdrLen : ℕ := 24

/-- `_FIXED_IE_LENGTH_`. -/
def fixedIeLength : ℕ := 12

/-- `packet_len - sizeof(struct rtw_ieee80211_hdr_3addr)`, which wraps. -/
def bodyLen (packetLen : ℕ) : ℕ := (packetLen + 2 ^ 32 - hdrLen) % 2 ^ 32

/-- Two bytes, the lower one first. -/
def readLe16 (f : List UInt8) (k : ℕ) : Except Fault ℕ := do
  let lo ← readByte f k
  let hi ← readByte f (k + 1)
  .ok (lo.toNat + 256 * hi.toNat)

/-- The bytes of the frame in `IEs`. -/
def WlanBssidEx.body (b : WlanBssidEx) : List UInt8 := b.ies.bytes.take b.ieLength

/-- Those behind the fixed fields. -/
def WlanBssidEx.elements (b : WlanBssidEx) : List UInt8 := b.body.drop fixedIeLength

/-- `rtw_get_ie(bssid->IEs + _FIXED_IE_LENGTH_, index, &len, bssid->IELength - ...)`. -/
def WlanBssidEx.getIe (b : WlanBssidEx) (index : UInt8) : Except Fault (Option (ℕ × ℕ)) :=
  Mlme.getIe b.elements index (b.ieLength - fixedIeLength) 0

/-- Up to line 4616: the record with the body of the frame. -/
def collectBody (f : RecvFrame) : Except Fault (Option WlanBssidEx) :=
  let len := bodyLen f.rxData.length
  if maxIeSz < len then .ok none
  else do
    let fc ← readLe16 f.rxData 0
    let body ← readBytes f.rxData hdrLen len
    let ies ← (Area.zero maxIeSz).copyIn 0 body
    .ok (some
      { reserved0 := if fc &&& 0xfc = 0x80 then 1 else 0
        length := fixedSz + len
        ieLength := len
        ies := ies
        rssi := f.recvSignalPower
        signalQuality := f.signalQuality
        signalStrength := f.signalStrength })

/-- The SSID (lines 4618–4638). -/
def collectSsid (b : WlanBssidEx) : Except Fault (Option WlanBssidEx) := do
  let found ← b.getIe 0
  match found with
  | none => .ok none
  | some (p, len) => do
    let n ← readByte b.elements (p + 1)
    if n = 0 then .ok (some { b with ssidLength := 0 })
    else if lengthSsid < len then .ok none
    else do
      let bytes ← readBytes b.elements (p + 2) n.toNat
      let ssid ← b.ssid.copyIn 0 bytes
      .ok (some { b with ssid := ssid, ssidLength := n.toNat })

/-- An element with rates, copied behind the `i` rates that are there (lines 4642–4666). The
    result is the new number of rates. -/
def collectRates (index : UInt8) (i : ℕ) (b : WlanBssidEx) :
    Except Fault (Option (WlanBssidEx × ℕ)) := do
  let found ← b.getIe index
  match found with
  | none => .ok (some (b, i))
  | some (p, len) =>
    if lengthRatesEx - i < len then .ok none
    else do
      let bytes ← readBytes b.elements (p + 2) len
      let rates ← b.supportedRates.copyIn i bytes
      .ok (some ({ b with supportedRates := rates }, i + len))

/-- The channel (lines 4676–4698). `operCh` is what `rtw_get_oper_ch` returns. -/
def collectChannel (operCh : UInt8) (b : WlanBssidEx) : Except Fault WlanBssidEx := do
  let found ← b.getIe 3
  match found with
  | some (p, _) => do
    let c ← readByte b.elements (p + 2)
    .ok { b with dsConfig := c.toNat }
  | none => do
    let found ← b.getIe 61
    match found with
    | some (p, _) => do
      let c ← readByte b.elements (p + 2)
      .ok { b with dsConfig := c.toNat }
    | none => .ok { b with dsConfig := operCh.toNat }

/-- The rest (lines 4700–4727). -/
def collectFixed (f : RecvFrame) (operCh : UInt8) (b : WlanBssidEx) :
    Except Fault WlanBssidEx := do
  let period ← readLe16 b.body 8
  let cap ← readLe16 b.body 10
  let addr ← readBytes f.rxData (if cap.testBit 0 then 10 else 16) 6
  let mac ← b.macAddress.copyIn 0 addr
  .ok { b with
    beaconPeriod := period
    infrastructureMode := if cap.testBit 0 then .infrastructure else .ibss
    macAddress := mac
    privacy := if cap.testBit 4 then 1 else 0
    signalQuality := if b.dsConfig ≠ operCh.toNat then 101 else b.signalQuality }

/-- `return _FAIL` ends the function, otherwise it goes on. -/
def orFail {α β : Type} (x : Except Fault (Option α)) (g : α → Except Fault (Option β)) :
    Except Fault (Option β) := do
  let r ← x
  match r with
  | none => .ok none
  | some a => g a

/-- From line 4668 on. -/
def collectRest (f : RecvFrame) (operCh : UInt8) (b : WlanBssidEx) :
    Except Fault (Option WlanBssidEx) :=
  let b := { b with networkTypeInUse := .ofdm24 }
  if b.ieLength < 12 then .ok none
  else do
    let b ← collectChannel operCh b
    let b ← collectFixed f operCh b
    .ok (some b)

/-- From line 4618 on. -/
def collectElements (f : RecvFrame) (operCh : UInt8) (b : WlanBssidEx) :
    Except Fault (Option WlanBssidEx) :=
  orFail (collectSsid b) fun b =>
    orFail (collectRates 1 0 b) fun r =>
      orFail (collectRates 50 r.2 r.1) fun r =>
        collectRest f operCh r.1

/-- `collect_bss_info`: `none` is `_FAIL`. -/
def collectBssInfo (f : RecvFrame) (operCh : UInt8) : Except Fault (Option WlanBssidEx) :=
  orFail (collectBody f) (collectElements f operCh)

/-! ## Searches -/

/-- Where a search for an id ends in elements and a stump behind them: the length that is given
    there, and the bytes behind it. -/
def hit (index : UInt8) : List Elem → List UInt8 → Option (ℕ × List UInt8)
  | [], i :: len :: rest => if i = index then some (len.toNat, rest) else none
  | [], _ => none
  | x :: es, t =>
    if x.id = index then some (x.data.length, x.data ++ (encodeAll es ++ t)) else hit index es t

/-- No search for the id comes to a single byte. -/
def LookFits (index : UInt8) (es : List Elem) (t : List UInt8) : Prop :=
  t.length = 1 → ∃ x ∈ es, x.id = index

/-- The search has this result. -/
def FoundAt (f : List UInt8) (r : Except Fault (Option (ℕ × ℕ))) :
    Option (ℕ × List UInt8) → Prop
  | none => r = .ok none
  | some (n, d) => ∃ pre id len,
      f = pre ++ id :: len :: d ∧ len.toNat = n ∧ r = .ok (some (pre.length, n))

section search

variable {f pre t : List UInt8} {index : UInt8} {es : List Elem} {x : Elem} {fuel : ℕ}

theorem lookFits_cons (hid : x.id ≠ index) : LookFits index (x :: es) t ↔ LookFits index es t := by
  rw [LookFits, LookFits, List.exists_mem_cons_iff, or_iff_right hid]

variable (index) in
theorem getIeLoop_found (hf : f = pre ++ (encodeAll es ++ t)) (ht : Stump t)
    (hne : encodeAll es ++ t ≠ []) (hfuel : (encodeAll es ++ t).length < fuel) :
    (LookFits index es t →
      FoundAt f (getIeLoop f index f.length fuel pre.length pre.length) (hit index es t)) ∧
    (¬ LookFits index es t →
      getIeLoop f index f.length fuel pre.length pre.length = .error .beyond) := by
  obtain ⟨fuel, rfl⟩ : ∃ n, fuel = n + 1 := ⟨fuel - 1, by omega⟩
  induction es generalizing pre fuel with
  | nil =>
    rw [encodeAll_nil, List.nil_append] at hf hne
    rcases t with _ | ⟨id, _ | ⟨len, rest⟩⟩
    · exact absurd rfl hne
    · have hno : ¬ LookFits index [] [id] := fun h => by
        obtain ⟨x, hx, -⟩ := h rfl
        cases hx
      refine ⟨fun h => absurd h hno, fun _ => ?_⟩
      rw [getIeLoop, readByte_id hf, bind_ok, readByte_length_short hf, bind_error]
    · have hlook : LookFits index [] (id :: len :: rest) := fun h => by
        rw [List.length_cons, List.length_cons] at h
        omega
      refine ⟨fun _ => ?_, fun h => absurd hlook h⟩
      rw [IeLookup.getIeLoop_turn hf, hit]
      by_cases hid : id = index
      · rw [if_pos hid, if_pos hid]
        exact ⟨pre, id, len, hf, rfl, rfl⟩
      · rw [if_neg hid, if_neg hid, if_pos (Nat.le_of_lt ht)]
        rfl
  | cons x es ih =>
    have hx : f = pre ++ x.id :: UInt8.ofNat x.data.length ::
        (x.data ++ (encodeAll es ++ t)) := by
      rw [hf, encodeAll_cons, List.append_assoc]
      rfl
    have hrest : f = (pre ++ x.encode) ++ (encodeAll es ++ t) := by
      rw [hf, encodeAll_cons, List.append_assoc, List.append_assoc]
    rw [encodeAll_cons, List.append_assoc, List.length_append, Elem.encode_length] at hfuel
    rw [IeLookup.getIeLoop_turn hx, hit, x.toNat_length, encode_next]
    by_cases hid : x.id = index
    · rw [if_pos hid, if_pos hid]
      exact ⟨fun _ => ⟨pre, x.id, _, hx, x.toNat_length, rfl⟩,
        fun h => absurd (fun _ => ⟨x, List.mem_cons_self, hid⟩) h⟩
    · rw [if_neg hid, if_neg hid, List.length_append, lookFits_cons hid]
      by_cases hlast : encodeAll es ++ t = []
      · obtain ⟨hes, rfl⟩ := List.append_eq_nil_iff.mp hlast
        obtain rfl : es = [] := encodeAll_injective hes
        rw [hlast, List.length_nil, if_pos (Nat.le_of_eq (Nat.add_zero _))]
        exact ⟨fun _ => rfl, fun h => absurd (fun h0 : 0 = 1 => absurd h0 (by omega)) h⟩
      · have hpos := List.length_pos_iff.mpr hlast
        obtain ⟨fuel, rfl⟩ : ∃ n, fuel = n + 1 := ⟨fuel - 1, by omega⟩
        rw [if_neg (by omega)]
        exact ih hrest hlast fuel (by omega)

theorem getIe_found (hf : f = encodeAll es ++ t) (ht : Stump t) :
    (LookFits index es t → FoundAt f (getIe f index f.length 0) (hit index es t)) ∧
    (¬ LookFits index es t → getIe f index f.length 0 = .error .beyond) := by
  by_cases hnil : encodeAll es ++ t = []
  · obtain ⟨hes, rfl⟩ := List.append_eq_nil_iff.mp hnil
    obtain rfl : es = [] := encodeAll_injective hes
    obtain rfl : f = [] := hf
    exact ⟨fun _ => rfl, fun h => absurd (fun h0 : 0 = 1 => absurd h0 (by omega)) h⟩
  · have hpos := List.length_pos_iff.mpr hnil
    have hf' : f = [] ++ (encodeAll es ++ t) := hf
    have hloop := getIeLoop_found index hf' ht hnil (Nat.lt_succ_self _)
    rw [← hf] at hloop hpos
    rw [getIe, if_neg (by omega)]
    exact hloop

/-- In whole elements a search finds the first one with the id. -/
theorem hit_whole (index : UInt8) (es : List Elem) :
    hit index es [] = none ∧ (es.find? (·.id = index)) = none ∨
      ∃ e d, hit index es [] = some (e.data.length, e.data ++ d) ∧
        es.find? (·.id = index) = some e := by
  induction es with
  | nil => exact .inl ⟨rfl, rfl⟩
  | cons x es ih =>
    rw [hit, List.find?_cons]
    by_cases hid : x.id = index
    · simp only [hid, if_true, decide_true]
      exact .inr ⟨x, _, rfl, rfl⟩
    · simp only [hid, if_false, decide_false]
      exact ih

end search

section lookup

variable {β : Type} {f t d : List UInt8} {es : List Elem} {index : UInt8} {n : ℕ}
  {P : ℕ → List UInt8 → Prop} {Q : β → Prop} {g : Option (ℕ × ℕ) → Except Fault β}

/-- What is found has the id, and the bytes behind its header go on to the end. -/
theorem hit_split (h : hit index es t = some (n, d)) :
    ∃ pre len, encodeAll es ++ t = pre ++ index :: len :: d ∧ len.toNat = n := by
  induction es with
  | nil =>
    rcases t with _ | ⟨i, _ | ⟨len, rest⟩⟩
    · cases h
    · cases h
    · rw [hit] at h
      by_cases hid : i = index
      · rw [if_pos hid] at h
        obtain ⟨rfl, rfl⟩ := Prod.mk.inj (Option.some.inj h)
        exact ⟨[], len, by rw [hid]; rfl, rfl⟩
      · rw [if_neg hid] at h
        cases h
  | cons x es ih =>
    rw [hit] at h
    by_cases hid : x.id = index
    · rw [if_pos hid] at h
      obtain ⟨rfl, rfl⟩ := Prod.mk.inj (Option.some.inj h)
      refine ⟨[], UInt8.ofNat x.data.length, ?_, x.toNat_length⟩
      rw [encodeAll_cons, List.append_assoc, ← hid]
      rfl
    · rw [if_neg hid] at h
      obtain ⟨pre, len, heq, hlen⟩ := ih h
      refine ⟨x.encode ++ pre, len, ?_, hlen⟩
      rw [encodeAll_cons, List.append_assoc, heq, List.append_assoc]

/-- Two ways to see the same bytes with the same end. -/
theorem header_unique {pre pre' : List UInt8} {i i' len len' : UInt8}
    (h : pre ++ i :: len :: d = pre' ++ i' :: len' :: d) : pre = pre' ∧ i = i' ∧ len = len' := by
  obtain ⟨rfl, htail⟩ := List.append_inj' h rfl
  obtain ⟨hi, hrest⟩ := List.cons.inj htail
  exact ⟨rfl, hi, (List.cons.inj hrest).1⟩

/-- A search and what is done with its result. -/
theorem getIe_lookup (hf : f = encodeAll es ++ t) (ht : Stump t)
    (hnone : hit index es t = none → EndsWhen True Q (g none))
    (hsome : ∀ pre len d, f = pre ++ index :: len :: d →
      hit index es t = some (len.toNat, d) →
        EndsWhen (P len.toNat d) Q (g (some (pre.length, len.toNat)))) :
    EndsWhen (LookFits index es t ∧ ∀ n d, hit index es t = some (n, d) → P n d) Q
      (getIe f index f.length 0 >>= g) := by
  have hfound : (LookFits index es t → FoundAt f (getIe f index f.length 0) (hit index es t)) ∧
      (¬ LookFits index es t → getIe f index f.length 0 = .error .beyond) := getIe_found hf ht
  by_cases hlook : LookFits index es t
  · have hat := hfound.1 hlook
    cases hhit : hit index es t with
    | none =>
      rw [hhit] at hat
      rw [hat, bind_ok]
      refine (hnone hhit).iff (iff_of_true trivial ⟨hlook, fun n d hno => ?_⟩)
      cases hno
    | some r =>
      obtain ⟨n, d⟩ := r
      rw [hhit] at hat
      obtain ⟨pre, i, len, hf', rfl, hat⟩ := hat
      obtain ⟨pre', len', hsplit, -⟩ := hit_split hhit
      rw [← hf, hf'] at hsplit
      obtain ⟨-, rfl, -⟩ := header_unique hsplit
      rw [hat, bind_ok]
      refine (hsome pre len d hf' hhit).iff ⟨fun hp => ⟨hlook, fun n' d' heq => ?_⟩,
        fun hfit => hfit.2 _ _ rfl⟩
      obtain ⟨rfl, rfl⟩ := Prod.mk.inj (Option.some.inj heq)
      exact hp
  · rw [hfound.2 hlook, bind_error]
    exact .error fun hfit => hlook hfit.1

end lookup

/-! ## Bodies of elements -/

/-- The search comes to its end, and the element that is found is too long for the room or all
    there. -/
def CopyFits (index : UInt8) (room : ℕ) (es : List Elem) (t : List UInt8) : Prop :=
  LookFits index es t ∧ ∀ n d, hit index es t = some (n, d) → n ≤ room → n ≤ d.length

/-- The search comes to its end, and there is a byte behind the header that is found. -/
def ByteFits (index : UInt8) (es : List Elem) (t : List UInt8) : Prop :=
  LookFits index es t ∧ ∀ n d, hit index es t = some (n, d) → d ≠ []

/-- The length in the header that is found, none if there is none, and so many bytes behind it. -/
def claimed (index : UInt8) (es : List Elem) (t : List UInt8) : ℕ :=
  ((hit index es t).map Prod.fst).getD 0

def copied (index : UInt8) (es : List Elem) (t : List UInt8) : List UInt8 :=
  ((hit index es t).map fun r => r.2.take r.1).getD []

/-- There is an SSID, and it has room in its field. -/
def SsidOk (es : List Elem) (t : List UInt8) : Prop :=
  ∃ n d, hit 0 es t = some (n, d) ∧ n ≤ lengthSsid

/-- The record has the frame's bytes, which are elements and a stump behind the fixed fields. -/
structure Holds (b : WlanBssidEx) (es : List Elem) (t : List UInt8) : Prop where
  elements : b.elements = encodeAll es ++ t
  limit : b.ieLength - fixedIeLength = b.elements.length
  stump : Stump t

section bodies

variable {b : WlanBssidEx} {es : List Elem} {t : List UInt8} {index : UInt8} {i room : ℕ}

theorem Holds.getIe (h : Holds b es t) (index : UInt8) :
    (LookFits index es t → FoundAt b.elements (b.getIe index) (hit index es t)) ∧
    (¬ LookFits index es t → b.getIe index = .error .beyond) := by
  rw [WlanBssidEx.getIe, h.limit]
  exact getIe_found h.elements h.stump

/-- A search that comes to a single byte. -/
theorem Holds.getIe_beyond (h : Holds b es t) (hlook : ¬ LookFits index es t) :
    b.getIe index = .error .beyond := (h.getIe index).2 hlook

theorem Holds.getIe_none (h : Holds b es t) (hlook : LookFits index es t)
    (hhit : hit index es t = none) : b.getIe index = .ok none := by
  have hfound := (h.getIe index).1 hlook
  rw [hhit] at hfound
  exact hfound

theorem Holds.getIe_some {n : ℕ} {d : List UInt8} (h : Holds b es t)
    (hlook : LookFits index es t) (hhit : hit index es t = some (n, d)) :
    ∃ pre id len, b.elements = pre ++ id :: len :: d ∧ len.toNat = n ∧
      b.getIe index = .ok (some (pre.length, n)) := by
  have hfound := (h.getIe index).1 hlook
  rw [hhit] at hfound
  exact hfound

theorem copyFits_none (hhit : hit index es t = none) :
    CopyFits index room es t ↔ LookFits index es t :=
  and_iff_left fun n d h => by rw [hhit] at h; cases h

theorem copyFits_some {n : ℕ} {d : List UInt8} (hhit : hit index es t = some (n, d)) :
    CopyFits index room es t ↔ LookFits index es t ∧ (n ≤ room → n ≤ d.length) := by
  refine and_congr_right fun _ => ⟨fun h => h n d hhit, fun h n' d' h' => ?_⟩
  rw [hhit] at h'
  obtain ⟨rfl, rfl⟩ := Prod.mk.inj (Option.some.inj h')
  exact h

theorem byteFits_some {n : ℕ} {d : List UInt8} (hhit : hit index es t = some (n, d)) :
    ByteFits index es t ↔ LookFits index es t ∧ d ≠ [] := by
  refine and_congr_right fun _ => ⟨fun h => h n d hhit, fun h n' d' h' => ?_⟩
  rw [hhit] at h'
  obtain ⟨rfl, rfl⟩ := Prod.mk.inj (Option.some.inj h')
  exact h

theorem byteFits_none (hhit : hit index es t = none) :
    ByteFits index es t ↔ LookFits index es t :=
  and_iff_left fun n d h => by rw [hhit] at h; cases h

theorem claimed_none (hhit : hit index es t = none) : claimed index es t = 0 := by
  rw [claimed, hhit]
  rfl

theorem copied_none (hhit : hit index es t = none) : copied index es t = [] := by
  rw [copied, hhit]
  rfl

theorem claimed_some {n : ℕ} {d : List UInt8} (hhit : hit index es t = some (n, d)) :
    claimed index es t = n := by
  rw [claimed, hhit]
  rfl

theorem copied_some {n : ℕ} {d : List UInt8} (hhit : hit index es t = some (n, d)) :
    copied index es t = d.take n := by
  rw [copied, hhit]
  rfl

/-! ## The parts of the record -/

/-- The record with an SSID. -/
def WlanBssidEx.withSsid (b : WlanBssidEx) (s : List UInt8) : WlanBssidEx :=
  { b with ssid := b.ssid.put 0 s, ssidLength := s.length }

/-- The record with rates from `i` on. -/
def WlanBssidEx.withRates (b : WlanBssidEx) (i : ℕ) (s : List UInt8) : WlanBssidEx :=
  { b with supportedRates := b.supportedRates.put i s }

theorem collectSsid_beyond (h : Holds b es t) (hfit : ¬ CopyFits 0 lengthSsid es t) :
    collectSsid b = .error .beyond := by
  rw [collectSsid]
  by_cases hlook : LookFits 0 es t
  · cases hhit : hit 0 es t with
    | none => exact absurd ((copyFits_none hhit).mpr hlook) hfit
    | some r =>
      obtain ⟨n, d⟩ := r
      obtain ⟨pre, id, len, hf, rfl, hget⟩ := h.getIe_some hlook hhit
      rw [copyFits_some hhit, and_iff_right hlook, Classical.not_imp, Nat.not_le] at hfit
      have hpos : len ≠ 0 := fun h0 => by
        rw [h0] at hfit
        exact absurd hfit.2 (Nat.not_lt_zero _)
      rw [hget, bind_ok]
      simp only [readByte_length hf, bind_ok, if_neg hpos, if_neg (Nat.not_lt.mpr hfit.1),
        readBytes_after hf, if_neg (Nat.not_le.mpr hfit.2), bind_error]
  · rw [h.getIe_beyond hlook, bind_error]

theorem collectSsid_ok (h : Holds b es t) (hfit : CopyFits 0 lengthSsid es t)
    (hok : SsidOk es t) : collectSsid b = .ok (some (b.withSsid (copied 0 es t))) := by
  obtain ⟨n, d, hhit, hroom⟩ := hok
  obtain ⟨pre, id, len, hf, rfl, hget⟩ := h.getIe_some hfit.1 hhit
  have hle := hfit.2 _ _ hhit hroom
  have hlen : (d.take len.toNat).length = len.toNat := by
    rw [List.length_take, Nat.min_eq_left hle]
  rw [collectSsid, hget, bind_ok, copied_some hhit, WlanBssidEx.withSsid, hlen]
  simp only [readByte_length hf, bind_ok]
  by_cases h0 : len = 0
  · subst h0
    rw [if_pos rfl, UInt8.toNat_zero, List.take_zero, Area.put_nil]
  · rw [if_neg h0, if_neg (Nat.not_lt.mpr hroom), readBytes_after hf, if_pos hle, bind_ok,
      Area.copyIn_of_le _ (by omega), bind_ok]

theorem collectSsid_fail (h : Holds b es t) (hfit : CopyFits 0 lengthSsid es t)
    (hno : ¬ SsidOk es t) : collectSsid b = .ok none := by
  cases hhit : hit 0 es t with
  | none => rw [collectSsid, h.getIe_none hfit.1 hhit, bind_ok]
  | some r =>
    obtain ⟨n, d⟩ := r
    have hlong : lengthSsid < n := Nat.lt_of_not_le fun hle => hno ⟨n, d, hhit, hle⟩
    obtain ⟨pre, id, len, hf, rfl, hget⟩ := h.getIe_some hfit.1 hhit
    have h0 : len ≠ 0 := fun h0 => by
      rw [h0] at hlong
      exact absurd hlong (Nat.not_lt_zero _)
    rw [collectSsid, hget, bind_ok]
    simp only [readByte_length hf, bind_ok, if_neg h0, if_pos hlong]

theorem collectRates_beyond (h : Holds b es t)
    (hfit : ¬ CopyFits index (lengthRatesEx - i) es t) :
    collectRates index i b = .error .beyond := by
  rw [collectRates]
  by_cases hlook : LookFits index es t
  · cases hhit : hit index es t with
    | none => exact absurd ((copyFits_none hhit).mpr hlook) hfit
    | some r =>
      obtain ⟨n, d⟩ := r
      obtain ⟨pre, id, len, hf, rfl, hget⟩ := h.getIe_some hlook hhit
      rw [copyFits_some hhit, and_iff_right hlook, Classical.not_imp, Nat.not_le] at hfit
      rw [hget, bind_ok]
      simp only [if_neg (Nat.not_lt.mpr hfit.1), readBytes_after hf,
        if_neg (Nat.not_le.mpr hfit.2), bind_error]
  · rw [h.getIe_beyond hlook, bind_error]

theorem collectRates_ok (hi : i ≤ lengthRatesEx) (h : Holds b es t)
    (hfit : CopyFits index (lengthRatesEx - i) es t)
    (hroom : claimed index es t ≤ lengthRatesEx - i) :
    collectRates index i b =
      .ok (some (b.withRates i (copied index es t), i + claimed index es t)) := by
  cases hhit : hit index es t with
  | none =>
    rw [collectRates, h.getIe_none hfit.1 hhit, bind_ok, copied_none hhit, claimed_none hhit,
      WlanBssidEx.withRates, Area.put_nil, Nat.add_zero]
  | some r =>
    obtain ⟨n, d⟩ := r
    obtain ⟨pre, id, len, hf, rfl, hget⟩ := h.getIe_some hfit.1 hhit
    rw [claimed_some hhit] at hroom
    have hle := hfit.2 _ _ hhit hroom
    have hlen : (d.take len.toNat).length = len.toNat := by
      rw [List.length_take, Nat.min_eq_left hle]
    rw [collectRates, hget, bind_ok, copied_some hhit, claimed_some hhit]
    simp only [if_neg (Nat.not_lt.mpr hroom), readBytes_after hf, if_pos hle, bind_ok]
    rw [Area.copyIn_of_le _ (by omega), bind_ok, WlanBssidEx.withRates]

theorem collectRates_fail (h : Holds b es t) (hfit : CopyFits index (lengthRatesEx - i) es t)
    (hno : ¬ claimed index es t ≤ lengthRatesEx - i) : collectRates index i b = .ok none := by
  cases hhit : hit index es t with
  | none =>
    rw [claimed_none hhit] at hno
    exact absurd (Nat.zero_le _) hno
  | some r =>
    obtain ⟨n, d⟩ := r
    obtain ⟨pre, id, len, hf, rfl, hget⟩ := h.getIe_some hfit.1 hhit
    rw [claimed_some hhit] at hno
    rw [collectRates, hget, bind_ok]
    simp only [if_pos (Nat.lt_of_not_le hno)]

end bodies

/-! ## The channel -/

/-- The byte behind the header of the channel element, or the channel in use. -/
def channelByte (operCh : UInt8) (es : List Elem) (t : List UInt8) : UInt8 :=
  match hit 3 es t, hit 61 es t with
  | some (_, d), _ => d.headD 0
  | none, some (_, d) => d.headD 0
  | none, none => operCh

/-- There is one. -/
def ChannelInside (es : List Elem) (t : List UInt8) : Prop :=
  ByteFits 3 es t ∧ (hit 3 es t = none → ByteFits 61 es t)

section channel

variable {b : WlanBssidEx} {es : List Elem} {t d pre : List UInt8} {operCh id len : UInt8}

theorem readByte_after (hf : b.elements = pre ++ id :: len :: d) :
    readByte b.elements (pre.length + 2) = if d = [] then .error .beyond else .ok (d.headD 0) := by
  have hf' : b.elements = (pre ++ [id, len]) ++ d := by rw [hf, List.append_assoc]; rfl
  have hlen : (pre ++ [id, len]).length = pre.length + 2 := by rw [List.length_append]; rfl
  rcases d with _ | ⟨c, d⟩
  · rw [if_pos rfl, ← hlen]
    exact readByte_of_le (Nat.le_of_eq (by rw [hf', List.append_nil]))
  · rw [if_neg (List.cons_ne_nil c d), ← hlen]
    exact readByte_id hf'

theorem collectChannel_eq (h : Holds b es t) (hin : ChannelInside es t) :
    collectChannel operCh b =
      .ok { b with dsConfig := (channelByte operCh es t).toNat } := by
  rw [collectChannel, channelByte]
  cases hds : hit 3 es t with
  | some r =>
    obtain ⟨n, d⟩ := r
    obtain ⟨hlook, hd⟩ := (byteFits_some hds).mp hin.1
    obtain ⟨pre, id, len, hf, rfl, hget⟩ := h.getIe_some hlook hds
    rw [hget, bind_ok]
    simp only [readByte_after hf, if_neg hd, bind_ok]
  | none =>
    rw [h.getIe_none ((byteFits_none hds).mp hin.1) hds, bind_ok]
    cases hht : hit 61 es t with
    | some r =>
      obtain ⟨n, d⟩ := r
      obtain ⟨hlook, hd⟩ := (byteFits_some hht).mp (hin.2 hds)
      obtain ⟨pre, id, len, hf, rfl, hget⟩ := h.getIe_some hlook hht
      simp only [hget, readByte_after hf, if_neg hd, bind_ok]
    | none =>
      simp only [h.getIe_none ((byteFits_none hht).mp (hin.2 hds)) hht, bind_ok]

theorem collectChannel_beyond (h : Holds b es t) (hin : ¬ ChannelInside es t) :
    collectChannel operCh b = .error .beyond := by
  rw [collectChannel]
  by_cases hlook : LookFits 3 es t
  · cases hds : hit 3 es t with
    | some r =>
      obtain ⟨n, d⟩ := r
      obtain ⟨pre, id, len, hf, rfl, hget⟩ := h.getIe_some hlook hds
      have hd : d = [] := by
        by_contra hd
        refine hin ⟨(byteFits_some hds).mpr ⟨hlook, hd⟩, fun hno => ?_⟩
        rw [hds] at hno
        cases hno
      rw [hget, bind_ok]
      simp only [readByte_after hf, if_pos hd, bind_error]
    | none =>
      rw [h.getIe_none hlook hds, bind_ok]
      have hht : ¬ ByteFits 61 es t := fun hfit =>
        hin ⟨(byteFits_none hds).mpr hlook, fun _ => hfit⟩
      by_cases hlook' : LookFits 61 es t
      · cases hht' : hit 61 es t with
        | some r =>
          obtain ⟨n, d⟩ := r
          obtain ⟨pre, id, len, hf, rfl, hget⟩ := h.getIe_some hlook' hht'
          have hd : d = [] := by
            by_contra hd
            exact hht ((byteFits_some hht').mpr ⟨hlook', hd⟩)
          simp only [hget, bind_ok, readByte_after hf, if_pos hd, bind_error]
        | none => exact absurd ((byteFits_none hht').mpr hlook') hht
      · simp only [h.getIe_beyond hlook', bind_error]
  · rw [h.getIe_beyond hlook, bind_error]

end channel

/-! ## The fixed fields -/

section fixed

variable {f : RecvFrame} {b : WlanBssidEx} {operCh : UInt8}

theorem readLe16_of_lt {f : List UInt8} {k : ℕ} (h : k + 1 < f.length) :
    ∃ v, readLe16 f k = .ok v := by
  rw [readLe16, readByte_of_lt (Nat.lt_of_succ_lt h), bind_ok, readByte_of_lt h, bind_ok]
  exact ⟨_, rfl⟩

/-- They are there, and the other fields stay. -/
theorem collectFixed_eq (hbody : fixedIeLength ≤ b.body.length) (hf : hdrLen ≤ f.rxData.length) :
    ∃ period mode mac privacy quality, collectFixed f operCh b = .ok { b with
      beaconPeriod := period
      infrastructureMode := mode
      macAddress := mac
      privacy := privacy
      signalQuality := quality } := by
  rw [fixedIeLength] at hbody
  rw [hdrLen] at hf
  obtain ⟨period, hperiod⟩ := readLe16_of_lt (f := b.body) (k := 8) (by omega)
  obtain ⟨cap, hcap⟩ := readLe16_of_lt (f := b.body) (k := 10) (by omega)
  have hin : Inside f.rxData (if cap.testBit 0 then 10 else 16) 6 := by
    right
    split_ifs
    · omega
    · omega
  have hlen : (bytesAt f.rxData (if cap.testBit 0 then 10 else 16) 6).length ≤ 6 :=
    List.length_take_le _ _
  rw [collectFixed, hperiod, bind_ok, hcap, bind_ok, readBytes_of_inside hin, bind_ok,
    Area.copyIn_of_le _ (by omega), bind_ok]
  exact ⟨_, _, _, _, _, rfl⟩

end fixed

/-! ## The elements of a record -/

/-- What is found has room in the fields. -/
def Roomy (es : List Elem) (t : List UInt8) : Prop :=
  SsidOk es t ∧ claimed 1 es t ≤ lengthRatesEx ∧
    claimed 50 es t ≤ lengthRatesEx - claimed 1 es t

/-- What is read on the way is there. -/
structure ReadsInside (es : List Elem) (t : List UInt8) : Prop where
  ssid : CopyFits 0 lengthSsid es t
  rates : SsidOk es t → CopyFits 1 lengthRatesEx es t
  extRates : SsidOk es t → claimed 1 es t ≤ lengthRatesEx →
    CopyFits 50 (lengthRatesEx - claimed 1 es t) es t
  channel : Roomy es t → ChannelInside es t

/-- What `collectElements` makes of a record. -/
structure Collected (operCh : UInt8) (es : List Elem) (t : List UInt8) (b b' : WlanBssidEx) :
    Prop where
  ies : b'.ies = b.ies
  ieLength : b'.ieLength = b.ieLength
  ssid : b'.ssid = b.ssid.put 0 (copied 0 es t)
  ssidLength : b'.ssidLength = (copied 0 es t).length
  rates : b'.supportedRates =
    (b.supportedRates.put 0 (copied 1 es t)).put (claimed 1 es t) (copied 50 es t)
  dsConfig : b'.dsConfig = (channelByte operCh es t).toNat

section elements

variable {f : RecvFrame} {b : WlanBssidEx} {es : List Elem} {t : List UInt8} {operCh : UInt8}
  {α β : Type}

@[simp] theorem orFail_some (a : α) (g : α → Except Fault (Option β)) :
    orFail (.ok (some a)) g = g a := rfl

@[simp] theorem orFail_none (g : α → Except Fault (Option β)) :
    orFail (.ok none) g = .ok none := rfl

@[simp] theorem orFail_error (e : Fault) (g : α → Except Fault (Option β)) :
    orFail (.error e) g = .error e := rfl

/-- A record in which something is found has its fixed fields. -/
theorem Holds.fixed (h : Holds b es t) (hok : SsidOk es t) :
    fixedIeLength ≤ b.ieLength ∧ fixedIeLength ≤ b.body.length := by
  obtain ⟨n, d, hhit, -⟩ := hok
  have hpos : 0 < b.elements.length := by
    rw [h.elements]
    rcases es with _ | ⟨x, es⟩
    · rcases t with _ | ⟨i, t⟩
      · cases hhit
      · exact Nat.succ_pos _
    · rw [encodeAll_cons, List.length_append, List.length_append, Elem.encode_length]
      omega
  have hlim := h.limit
  have hbody : b.elements.length = b.body.length - fixedIeLength := List.length_drop
  omega

theorem collectRest_ok (hf : hdrLen ≤ f.rxData.length) (h : Holds b es t) (hok : SsidOk es t)
    (hin : ChannelInside es t) :
    ∃ b', collectRest f operCh b = .ok (some b') ∧ b'.ies = b.ies ∧ b'.ieLength = b.ieLength ∧
      b'.ssid = b.ssid ∧ b'.ssidLength = b.ssidLength ∧ b'.supportedRates = b.supportedRates ∧
      b'.dsConfig = (channelByte operCh es t).toNat := by
  have h' : Holds { b with networkTypeInUse := .ofdm24 } es t := ⟨h.elements, h.limit, h.stump⟩
  obtain ⟨hlen, hbody⟩ := h.fixed hok
  obtain ⟨period, mode, mac, privacy, quality, hfixed⟩ := @collectFixed_eq f
    { b with networkTypeInUse := .ofdm24, dsConfig := (channelByte operCh es t).toNat } operCh
    hbody hf
  have hlen' : ¬ b.ieLength < 12 := Nat.not_lt.mpr hlen
  rw [collectRest]
  simp only [if_neg hlen', collectChannel_eq h' hin, bind_ok, hfixed]
  exact ⟨_, rfl, rfl, rfl, rfl, rfl, rfl, rfl⟩

theorem collectRest_beyond (h : Holds b es t) (hok : SsidOk es t) (hin : ¬ ChannelInside es t) :
    collectRest f operCh b = .error .beyond := by
  have h' : Holds { b with networkTypeInUse := .ofdm24 } es t := ⟨h.elements, h.limit, h.stump⟩
  have hlen : ¬ b.ieLength < 12 := Nat.not_lt.mpr (h.fixed hok).1
  rw [collectRest]
  simp only [if_neg hlen, collectChannel_beyond h' hin, bind_error]

theorem Holds.withSsid (h : Holds b es t) (s : List UInt8) : Holds (b.withSsid s) es t :=
  ⟨h.elements, h.limit, h.stump⟩

theorem Holds.withRates (h : Holds b es t) (i : ℕ) (s : List UInt8) :
    Holds (b.withRates i s) es t := ⟨h.elements, h.limit, h.stump⟩

theorem collectElements_ok (hf : hdrLen ≤ f.rxData.length) (h : Holds b es t)
    (hin : ReadsInside es t) (hroom : Roomy es t) :
    ∃ b', collectElements f operCh b = .ok (some b') ∧ Collected operCh es t b b' := by
  obtain ⟨hok, h1, h50⟩ := hroom
  obtain ⟨b', hrest, hies, hlen, hssid, hssidLen, hrates, hds⟩ := collectRest_ok hf
    (((h.withSsid (copied 0 es t)).withRates 0 (copied 1 es t)).withRates
      (0 + claimed 1 es t) (copied 50 es t)) hok (hin.channel ⟨hok, h1, h50⟩)
  refine ⟨b', ?_, hies, hlen, hssid, hssidLen, ?_, hds⟩
  · rw [collectElements, collectSsid_ok h hin.ssid hok, orFail_some,
      collectRates_ok (Nat.zero_le _) (h.withSsid _) (hin.rates hok) h1, orFail_some,
      collectRates_ok (by omega) ((h.withSsid _).withRates _ _)
        (by rw [Nat.zero_add]; exact hin.extRates hok h1) (by omega), orFail_some]
    exact hrest
  · rw [hrates, Nat.zero_add]
    rfl

theorem collectElements_fail (h : Holds b es t) (hin : ReadsInside es t) (hno : ¬ Roomy es t) :
    collectElements f operCh b = .ok none := by
  rw [collectElements]
  by_cases hok : SsidOk es t
  · rw [collectSsid_ok h hin.ssid hok, orFail_some]
    by_cases h1 : claimed 1 es t ≤ lengthRatesEx
    · rw [collectRates_ok (Nat.zero_le _) (h.withSsid _) (hin.rates hok) h1, orFail_some,
        Nat.zero_add, collectRates_fail ((h.withSsid _).withRates _ _) (hin.extRates hok h1)
          fun h50 => hno ⟨hok, h1, h50⟩, orFail_none]
    · rw [collectRates_fail (h.withSsid _) (hin.rates hok) h1, orFail_none]
  · rw [collectSsid_fail h hin.ssid hok, orFail_none]

theorem collectElements_beyond (h : Holds b es t) (hout : ¬ ReadsInside es t) :
    collectElements f operCh b = .error .beyond := by
  rw [collectElements]
  by_cases hssid : CopyFits 0 lengthSsid es t
  · by_cases hok : SsidOk es t
    · rw [collectSsid_ok h hssid hok, orFail_some]
      by_cases hrates : CopyFits 1 lengthRatesEx es t
      · by_cases h1 : claimed 1 es t ≤ lengthRatesEx
        · rw [collectRates_ok (Nat.zero_le _) (h.withSsid _) hrates h1, orFail_some,
            Nat.zero_add]
          by_cases hext : CopyFits 50 (lengthRatesEx - claimed 1 es t) es t
          · -- What is left is the channel.
            have hroom : Roomy es t := by
              by_contra hno
              exact hout ⟨hssid, fun _ => hrates, fun _ _ => hext, fun hroom => absurd hroom hno⟩
            have hch : ¬ ChannelInside es t := fun hch =>
              hout ⟨hssid, fun _ => hrates, fun _ _ => hext, fun _ => hch⟩
            rw [collectRates_ok h1 ((h.withSsid _).withRates _ _) hext hroom.2.2, orFail_some,
              collectRest_beyond (((h.withSsid _).withRates _ _).withRates _ _) hok hch]
          · rw [collectRates_beyond ((h.withSsid _).withRates _ _) hext, orFail_error]
        · exact absurd ⟨hssid, fun _ => hrates, fun _ hle => absurd hle h1,
            fun hroom => absurd hroom.2.1 h1⟩ hout
      · rw [collectRates_beyond (h.withSsid _) hrates, orFail_error]
    · exact absurd ⟨hssid, fun h0 => absurd h0 hok, fun h0 => absurd h0 hok,
        fun hroom => absurd hroom.1 hok⟩ hout
  · rw [collectSsid_beyond h hssid, orFail_error]

end elements

/-! ## The body of a frame -/

/-- The record after `collectBody`. -/
def bodyRecord (f : RecvFrame) (fc : ℕ) : WlanBssidEx where
  reserved0 := if fc &&& 0xfc = 0x80 then 1 else 0
  length := fixedSz + (f.rxData.length - hdrLen)
  ieLength := f.rxData.length - hdrLen
  ies := (Area.zero maxIeSz).put 0 (f.rxData.drop hdrLen)
  rssi := f.recvSignalPower
  signalQuality := f.signalQuality
  signalStrength := f.signalStrength

section body

variable {f : RecvFrame} {operCh : UInt8} {fc : ℕ}

/-- The frame has a header, and its body has room in `IEs`. -/
def Sized (f : RecvFrame) : Prop :=
  hdrLen ≤ f.rxData.length ∧ f.rxData.length - hdrLen ≤ maxIeSz

theorem bodyLen_of_le (h : hdrLen ≤ f.rxData.length) :
    bodyLen f.rxData.length = f.rxData.length - hdrLen := by
  have hlt := f.length_lt
  rw [bodyLen, hdrLen] at *
  omega

theorem lt_bodyLen (h : f.rxData.length < hdrLen) : maxIeSz < bodyLen f.rxData.length := by
  rw [bodyLen, hdrLen, maxIeSz] at *
  omega

theorem collectBody_fail (h : ¬ Sized f) : collectBody f = .ok none := by
  have hlong : maxIeSz < bodyLen f.rxData.length := by
    by_cases hlen : hdrLen ≤ f.rxData.length
    · rw [bodyLen_of_le hlen]
      exact Nat.lt_of_not_le fun hle => h ⟨hlen, hle⟩
    · exact lt_bodyLen (Nat.lt_of_not_le hlen)
  rw [collectBody]
  exact if_pos hlong

theorem collectBody_ok (h : Sized f) : ∃ fc, collectBody f = .ok (some (bodyRecord f fc)) := by
  obtain ⟨hlen, hmax⟩ := h
  obtain ⟨fc, hfc⟩ := readLe16_of_lt (f := f.rxData) (k := 0) (by rw [hdrLen] at hlen; omega)
  have hin : Inside f.rxData hdrLen (f.rxData.length - hdrLen) := .inr (by omega)
  have hbytes : bytesAt f.rxData hdrLen (f.rxData.length - hdrLen) = f.rxData.drop hdrLen :=
    List.take_of_length_le (Nat.le_of_eq List.length_drop)
  rw [collectBody]
  simp only [bodyLen_of_le hlen, if_neg (Nat.not_lt.mpr hmax), hfc, bind_ok,
    readBytes_of_inside hin, hbytes]
  rw [Area.copyIn_of_le _ (by rw [List.length_drop]; omega), bind_ok]
  exact ⟨fc, rfl⟩

theorem bodyRecord_body (h : Sized f) : (bodyRecord f fc).body = f.rxData.drop hdrLen := by
  have hlen : (f.rxData.drop hdrLen).length = f.rxData.length - hdrLen := List.length_drop
  have htake := @Area.take_put_zero maxIeSz (f.rxData.drop hdrLen) (Area.zero maxIeSz)
    (by rw [hlen]; exact h.2)
  rw [hlen] at htake
  exact htake

theorem bodyRecord_holds (h : Sized f) {es : List Elem} {t : List UInt8}
    (hf : f.rxData.drop (hdrLen + fixedIeLength) = encodeAll es ++ t) (ht : Stump t) :
    Holds (bodyRecord f fc) es t := by
  have hbody : (bodyRecord f fc).elements = f.rxData.drop (hdrLen + fixedIeLength) := by
    rw [WlanBssidEx.elements, bodyRecord_body h, List.drop_drop]
  refine ⟨hbody.trans hf, ?_, ht⟩
  rw [hbody, List.length_drop, bodyRecord, Nat.sub_sub]

end body

/-! ## What the record is for -/

/-- The data of the first element with an id, nothing if there is none. -/
def dataOf (index : UInt8) (es : List Elem) : List UInt8 :=
  ((es.find? (·.id = index)).map Elem.data).getD []

/-- The channel in the DS parameter element, else in the HT operation element, else the one in
    use. -/
def announced (operCh : UInt8) (es : List Elem) : UInt8 :=
  ((dataOf 3 es).head?.or (dataOf 61 es).head?).getD operCh

/-- The record says what a frame with these elements says. -/
structure Faithful (f : RecvFrame) (operCh : UInt8) (es : List Elem) (b : WlanBssidEx) :
    Prop where
  ieLength : b.ieLength = f.rxData.length - hdrLen
  ies : b.ies.bytes.take b.ieLength = f.rxData.drop hdrLen
  ssid : ∃ e, es.find? (·.id = 0) = some e ∧ b.ssidLength = e.data.length ∧
    b.ssid.bytes.take b.ssidLength = e.data
  rates : b.supportedRates.bytes = dataOf 1 es ++ dataOf 50 es ++
    List.replicate (lengthRatesEx - ((dataOf 1 es).length + (dataOf 50 es).length)) 0
  dsConfig : b.dsConfig = (announced operCh es).toNat

/-- Nothing is read or written outside, and of a frame with a list of whole elements the record
    says what it says. -/
def Right (f : RecvFrame) (operCh : UInt8) : Prop :=
  ∃ r, collectBssInfo f operCh = .ok r ∧
    ∀ b, r = some b → ∀ es, decodeAll (f.rxData.drop (hdrLen + fixedIeLength)) = some es →
      Faithful f operCh es b

/-- An empty channel element is found, with these bytes behind its header. -/
def EmptyChannel (es : List Elem) (t d : List UInt8) : Prop :=
  hit 3 es t = some (0, d) ∨ hit 3 es t = none ∧ hit 61 es t = some (0, d)

/-- What is read is there, and an empty channel element among whole elements is followed by the
    byte that is the channel anyway. -/
structure Fits (operCh : UInt8) (es : List Elem) (t : List UInt8) : Prop
    extends ReadsInside es t where
  announced : Roomy es t → t = [] → ∀ d, EmptyChannel es t d → d.head? = some (announced operCh es)

section spec

variable {f : RecvFrame} {operCh index : UInt8} {es : List Elem} {t : List UInt8}
  {b b' : WlanBssidEx}

theorem copied_whole (index : UInt8) (es : List Elem) : copied index es [] = dataOf index es := by
  rw [dataOf]
  rcases hit_whole index es with ⟨hhit, hfind⟩ | ⟨e, d, hhit, hfind⟩
  · rw [copied_none hhit, hfind]
    rfl
  · rw [copied_some hhit, hfind, List.take_left]
    rfl

theorem claimed_whole (index : UInt8) (es : List Elem) :
    claimed index es [] = (dataOf index es).length := by
  rw [dataOf]
  rcases hit_whole index es with ⟨hhit, hfind⟩ | ⟨e, d, hhit, hfind⟩
  · rw [claimed_none hhit, hfind]
    rfl
  · rw [claimed_some hhit, hfind]
    rfl

theorem dataOf_none (h : es.find? (·.id = index) = none) : dataOf index es = [] := by
  rw [dataOf, h]
  rfl

theorem dataOf_some {e : Elem} (h : es.find? (·.id = index) = some e) :
    dataOf index es = e.data := by
  rw [dataOf, h]
  rfl

/-- The first byte of an element and of what follows it is the element's, or the element is
    empty. -/
theorem headD_eq_iff {a r : List UInt8} {c : UInt8} (hne : a ++ r ≠ []) :
    (a ++ r).headD 0 = a.head?.getD c ↔
      ∀ d, some (a.length, a ++ r) = some (0, d) → d.head? = some (a.head?.getD c) := by
  rcases a with _ | ⟨x, a⟩
  · rcases r with _ | ⟨y, r⟩
    · exact absurd rfl hne
    · constructor
      · rintro h d hd
        obtain ⟨-, rfl⟩ := Prod.mk.inj (Option.some.inj hd)
        exact congrArg some h
      · exact fun h => Option.some.inj (h _ rfl)
  · refine iff_of_true rfl fun d hd => ?_
    exact absurd (Prod.mk.inj (Option.some.inj hd)).1 (Nat.succ_ne_zero _)

theorem channelByte_iff (hin : ChannelInside es []) :
    channelByte operCh es [] = announced operCh es ↔
      ∀ d, EmptyChannel es [] d → d.head? = some (announced operCh es) := by
  rcases hit_whole 3 es with ⟨hds, hfind⟩ | ⟨e, r, hds, hfind⟩
  · rcases hit_whole 61 es with ⟨hht, hfind'⟩ | ⟨e, r, hht, hfind'⟩
    · refine iff_of_true ?_ fun d hd => ?_
      · rw [channelByte, announced, hds, hht, dataOf_none hfind, dataOf_none hfind']
        rfl
      · rw [EmptyChannel, hds, hht] at hd
        rcases hd with hd | ⟨-, hd⟩
        · cases hd
        · cases hd
    · have hann : announced operCh es = e.data.head?.getD operCh := by
        rw [announced, dataOf_none hfind, dataOf_some hfind']
        rfl
      simp only [hann, channelByte, EmptyChannel, hds, hht, reduceCtorEq, false_or, true_and]
      exact headD_eq_iff ((hin.2 hds).2 _ _ hht)
  · have hann : announced operCh es =
        e.data.head?.getD ((dataOf 61 es).head?.getD operCh) := by
      rw [announced, dataOf_some hfind, Option.getD_or]
    simp only [hann, channelByte, EmptyChannel, hds, reduceCtorEq, or_false, false_and]
    exact headD_eq_iff (hin.1.2 _ _ hds)

/-- What was collected of whole elements. -/
theorem faithful_iff (hsz : Sized f) {fc : ℕ} (hin : ReadsInside es []) (hroom : Roomy es [])
    (h : Collected operCh es [] (bodyRecord f fc) b) :
    Faithful f operCh es b ↔
      ∀ d, EmptyChannel es [] d → d.head? = some (announced operCh es) := by
  rw [← channelByte_iff (hin.channel hroom)]
  obtain ⟨hok, h1, h50⟩ := hroom
  have hies : b.ies.bytes.take b.ieLength = f.rxData.drop hdrLen := by
    rw [h.ies, h.ieLength]
    exact bodyRecord_body hsz
  have hssid : ∃ e, es.find? (·.id = 0) = some e ∧ b.ssidLength = e.data.length ∧
      b.ssid.bytes.take b.ssidLength = e.data := by
    obtain ⟨n, d, hhit, hle⟩ := hok
    rcases hit_whole 0 es with ⟨hno, -⟩ | ⟨e, r, hhit', hfind⟩
    · rw [hno] at hhit
      cases hhit
    · rw [hhit] at hhit'
      obtain ⟨rfl, rfl⟩ := Prod.mk.inj (Option.some.inj hhit')
      have hdata : copied 0 es [] = e.data := by rw [copied_whole, dataOf_some hfind]
      refine ⟨e, hfind, by rw [h.ssidLength, hdata], ?_⟩
      rw [h.ssid, h.ssidLength, hdata]
      exact (Area.zero lengthSsid).take_put_zero hle
  have hrates : b.supportedRates.bytes = dataOf 1 es ++ dataOf 50 es ++
      List.replicate (lengthRatesEx - ((dataOf 1 es).length + (dataOf 50 es).length)) 0 := by
    rw [claimed_whole] at h1 h50
    rw [claimed_whole] at h50
    rw [h.rates, claimed_whole, copied_whole, copied_whole]
    exact Area.zero_put_put (by omega)
  constructor
  · intro hf
    have hds := hf.dsConfig
    rw [h.dsConfig] at hds
    exact UInt8.toNat_inj.mp hds
  · exact fun heq => ⟨h.ieLength, hies, hssid, hrates, by rw [h.dsConfig, heq]⟩

/-- A frame that has room in a record. -/
theorem right_sized_iff (hsz : Sized f)
    (hf : f.rxData.drop (hdrLen + fixedIeLength) = encodeAll es ++ t) (ht : Stump t) :
    Right f operCh ↔ Fits operCh es t := by
  obtain ⟨fc, hbody⟩ := collectBody_ok hsz
  have hholds : Holds (bodyRecord f fc) es t := bodyRecord_holds hsz hf ht
  rw [Right, collectBssInfo, hbody, orFail_some, hf, decodeAll_append ht]
  by_cases hin : ReadsInside es t
  · by_cases hroom : Roomy es t
    · obtain ⟨b, hcollect, hb⟩ :
          ∃ b, collectElements f operCh (bodyRecord f fc) = .ok (some b) ∧
            Collected operCh es t (bodyRecord f fc) b :=
        collectElements_ok hsz.1 hholds hin hroom
      rw [hcollect]
      by_cases hwhole : t = []
      · subst hwhole
        have hiff := faithful_iff hsz hin hroom hb
        rw [if_pos rfl]
        constructor
        · rintro ⟨r, hr, hfaith⟩
          obtain rfl := Except.ok.inj hr
          exact ⟨hin, fun _ _ => hiff.mp (hfaith b rfl es rfl)⟩
        · intro hfits
          refine ⟨some b, rfl, fun b' hb' es' hes' => ?_⟩
          obtain rfl := Option.some.inj hb'
          obtain rfl := Option.some.inj hes'
          exact hiff.mpr (hfits.announced hroom rfl)
      · -- The elements are not whole, so the record may say anything.
        rw [if_neg hwhole]
        exact iff_of_true ⟨some b, rfl, fun _ _ _ hno => by cases hno⟩
          ⟨hin, fun _ h0 => absurd h0 hwhole⟩
    · rw [collectElements_fail hholds hin hroom]
      exact iff_of_true ⟨none, rfl, fun _ hno => by cases hno⟩
        ⟨hin, fun hyes => absurd hyes hroom⟩
  · rw [collectElements_beyond hholds hin]
    refine iff_of_false ?_ fun hfits => hin hfits.toReadsInside
    rintro ⟨r, hr, -⟩
    cases hr

/-- The frame of a record that is returned. -/
theorem collectBssInfo_collected (h : collectBssInfo f operCh = .ok (some b)) :
    Sized f ∧ ∃ es t fc, f.rxData.drop (hdrLen + fixedIeLength) = encodeAll es ++ t ∧ Stump t ∧
      Holds (bodyRecord f fc) es t ∧ ReadsInside es t ∧ Roomy es t ∧
      Collected operCh es t (bodyRecord f fc) b := by
  obtain ⟨es, t, hf, ht⟩ := exists_parse (f.rxData.drop (hdrLen + fixedIeLength))
  by_cases hsz : Sized f
  · obtain ⟨fc, hbody⟩ := collectBody_ok hsz
    have hholds : Holds (bodyRecord f fc) es t := bodyRecord_holds hsz hf ht
    rw [collectBssInfo, hbody, orFail_some] at h
    by_cases hin : ReadsInside es t
    · by_cases hroom : Roomy es t
      · obtain ⟨b', hcollect, hb⟩ :
            ∃ b', collectElements f operCh (bodyRecord f fc) = .ok (some b') ∧
              Collected operCh es t (bodyRecord f fc) b' :=
          collectElements_ok hsz.1 hholds hin hroom
        rw [hcollect] at h
        obtain rfl := Option.some.inj (Except.ok.inj h)
        exact ⟨hsz, es, t, fc, hf, ht, hholds, hin, hroom, hb⟩
      · rw [collectElements_fail hholds hin hroom] at h
        cases h
    · rw [collectElements_beyond hholds hin] at h
      cases h
  · rw [collectBssInfo, collectBody_fail hsz, orFail_none] at h
    cases h

/-- It has its fixed fields, and no more than there is room for. -/
theorem collectBssInfo_sized (h : collectBssInfo f operCh = .ok (some b)) :
    fixedIeLength ≤ b.ieLength ∧ b.ieLength ≤ maxIeSz := by
  obtain ⟨hsz, es, t, fc, -, -, hholds, -, hroom, hb⟩ := collectBssInfo_collected h
  rw [hb.ieLength]
  exact ⟨(hholds.fixed hroom.1).1, hsz.2⟩

/-- An element that is found and all there is a whole one. -/
theorem find?_of_hit {n : ℕ} {d : List UInt8} (ht : Stump t) (hhit : hit index es t = some (n, d))
    (hle : n ≤ d.length) : ∃ e, es.find? (·.id = index) = some e ∧ d.take n = e.data := by
  induction es with
  | nil =>
    rcases t with _ | ⟨i, _ | ⟨len, rest⟩⟩
    · cases hhit
    · cases hhit
    · rw [hit] at hhit
      split_ifs at hhit with hid
      obtain ⟨rfl, rfl⟩ := Prod.mk.inj (Option.some.inj hhit)
      exact absurd hle (Nat.not_le.mpr ht)
  | cons x es ih =>
    rw [hit] at hhit
    rw [List.find?_cons]
    by_cases hid : x.id = index
    · rw [if_pos hid] at hhit
      obtain ⟨rfl, rfl⟩ := Prod.mk.inj (Option.some.inj hhit)
      refine ⟨x, ?_, List.take_left⟩
      rw [decide_eq_true hid]
    · rw [if_neg hid] at hhit
      rw [decide_eq_false hid]
      exact ih hhit

/-- The SSID of a record is that of a whole element. -/
theorem collectBssInfo_ssid (h : collectBssInfo f operCh = .ok (some b)) :
    ∃ es t e, f.rxData.drop (hdrLen + fixedIeLength) = encodeAll es ++ t ∧ Stump t ∧
      es.find? (·.id = 0) = some e ∧ e.data.length ≤ lengthSsid ∧
      b.ssid.bytes = e.data ++ List.replicate (lengthSsid - e.data.length) 0 ∧
      b.ssidLength = e.data.length := by
  obtain ⟨-, es, t, fc, hf, ht, -, hin, hroom, hb⟩ := collectBssInfo_collected h
  obtain ⟨n, d, hhit, hle⟩ := hroom.1
  have hlen : n ≤ d.length := hin.ssid.2 n d hhit hle
  obtain ⟨e, hfind, hdata⟩ := find?_of_hit ht hhit hlen
  have hn : e.data.length ≤ lengthSsid := by
    rw [← hdata, List.length_take]
    omega
  have hcopied : copied 0 es t = e.data := by rw [copied_some hhit, hdata]
  refine ⟨es, t, e, hf, ht, hfind, hn, ?_, ?_⟩
  · rw [hb.ssid, hcopied]
    exact Area.zero_put hn
  · rw [hb.ssidLength, hcopied]

/-- The body of a record is the frame's. -/
theorem collectBssInfo_body (h : collectBssInfo f operCh = .ok (some b)) :
    b.ieLength = (f.rxData.drop hdrLen).length ∧ b.body = f.rxData.drop hdrLen := by
  obtain ⟨hsz, es, t, fc, -, -, -, -, -, hb⟩ := collectBssInfo_collected h
  have hlen : b.ieLength = (f.rxData.drop hdrLen).length := by
    rw [hb.ieLength, List.length_drop]
    rfl
  refine ⟨hlen, ?_⟩
  rw [WlanBssidEx.body, hb.ies, hb.ieLength]
  exact bodyRecord_body hsz

theorem orFail_eq_some {α β : Type} {x : Except Fault (Option α)}
    {g : α → Except Fault (Option β)} {c : β} (h : orFail x g = .ok (some c)) :
    ∃ a, x = .ok (some a) ∧ g a = .ok (some c) := by
  obtain ⟨r, rfl, hr⟩ := bind_eq_ok h
  rcases r with _ | a
  · cases hr
  · exact ⟨a, rfl, hr⟩

/-- The privacy of a record is bit 4 of its capability field. -/
theorem collectBssInfo_privacy (h : collectBssInfo f operCh = .ok (some b)) :
    ∃ cap, readLe16 b.body 10 = .ok cap ∧ b.privacy = if cap.testBit 4 then 1 else 0 := by
  obtain ⟨b₀, -, h⟩ := orFail_eq_some h
  obtain ⟨b₁, -, h⟩ := orFail_eq_some h
  obtain ⟨r₁, -, h⟩ := orFail_eq_some h
  obtain ⟨r₂, -, h⟩ := orFail_eq_some h
  rw [collectRest] at h
  split_ifs at h
  · cases h
  · obtain ⟨b₂, -, h⟩ := bind_eq_ok h
    obtain ⟨b₃, hfixed, h⟩ := bind_eq_ok h
    obtain rfl := Option.some.inj (Except.ok.inj h)
    obtain ⟨period, -, hfixed⟩ := bind_eq_ok hfixed
    obtain ⟨cap, hcap, hfixed⟩ := bind_eq_ok hfixed
    obtain ⟨addr, -, hfixed⟩ := bind_eq_ok hfixed
    obtain ⟨mac, -, hfixed⟩ := bind_eq_ok hfixed
    obtain rfl := Except.ok.inj hfixed
    exact ⟨cap, hcap, rfl⟩

end spec

/-! ## When the record is right -/

/-- `collect_bss_info` reads only bytes of the frame, writes only inside the record and, of a
    frame with whole elements, has its elements, SSID, rates and channel, exactly for the frames
    that are too short or too long for a record, and those whose elements fit. -/
theorem collectBssInfo_right_iff (f : RecvFrame) (operCh : UInt8) :
    Right f operCh ↔
      f.rxData.length < hdrLen ∨ hdrLen + maxIeSz < f.rxData.length ∨
        Fits operCh (parse (f.rxData.drop (hdrLen + fixedIeLength))).1
          (parse (f.rxData.drop (hdrLen + fixedIeLength))).2 := by
  obtain ⟨es, t, hf, ht⟩ := exists_parse (f.rxData.drop (hdrLen + fixedIeLength))
  have hparse : parse (f.rxData.drop (hdrLen + fixedIeLength)) = (es, t) := by
    rw [hf, parse_append es ht]
  rw [hparse]
  by_cases hsz : Sized f
  · have hshort : ¬ f.rxData.length < hdrLen := Nat.not_lt.mpr hsz.1
    have hlong : ¬ hdrLen + maxIeSz < f.rxData.length := by
      have hmax := hsz.2
      omega
    rw [right_sized_iff hsz hf ht, or_iff_right hshort, or_iff_right hlong]
  · refine iff_of_true ?_ ?_
    · refine ⟨none, ?_, fun _ hno => by cases hno⟩
      rw [collectBssInfo, collectBody_fail hsz, orFail_none]
    · by_contra hno
      rw [not_or, not_or] at hno
      exact hsz ⟨Nat.not_lt.mp hno.1, by have := hno.2.1; omega⟩

/-- A beacon with an empty DS parameter element in front of an HT operation element for
    channel 6, and one whose elements end in a single byte. -/
def emptyDs : RecvFrame where
  rxData := 0x80 :: List.replicate 35 0 ++ [0, 1, 65, 3, 0, 61, 1, 6]
  recvSignalPower := -40
  signalQuality := 80
  signalStrength := 60
  length_lt := by decide

def loneByte : RecvFrame where
  rxData := 0x80 :: List.replicate 35 0 ++ [0, 1, 65, 1]
  recvSignalPower := -40
  signalQuality := 80
  signalStrength := 60
  length_lt := by decide

theorem singleByte_lt {b : UInt8} : [b].length < 256 := of_decide_eq_true rfl

theorem noByte_lt : ([] : List UInt8).length < 256 := of_decide_eq_true rfl

/-- The elements of the first one. -/
def emptyDsElems : List Elem :=
  [⟨0, [65], singleByte_lt⟩, ⟨3, [], noByte_lt⟩, ⟨61, [6], singleByte_lt⟩]

/-- The id of the next element is taken for the channel; a length behind the frame is read. -/
theorem emptyDs_channel :
    (∃ b, collectBssInfo emptyDs 6 = .ok (some b) ∧ b.dsConfig = 61) ∧ ¬ Right emptyDs 6 ∧
      collectBssInfo loneByte 6 = .error .beyond ∧ ¬ Right loneByte 6 := by
  have hread : collectBssInfo loneByte 6 = .error .beyond := by decide +kernel
  have hchannel : (collectBssInfo emptyDs 6).map (·.map WlanBssidEx.dsConfig) = .ok (some 61) := by
    decide +kernel
  obtain ⟨b, hb, hds⟩ : ∃ b, collectBssInfo emptyDs 6 = .ok (some b) ∧ b.dsConfig = 61 := by
    rcases hrun : collectBssInfo emptyDs 6 with e | _ | b
    · rw [hrun] at hchannel
      cases hchannel
    · rw [hrun] at hchannel
      cases hchannel
    · rw [hrun] at hchannel
      exact ⟨b, rfl, Option.some.inj (Except.ok.inj hchannel)⟩
  have helems : decodeAll (emptyDs.rxData.drop (hdrLen + fixedIeLength)) = some emptyDsElems :=
    decodeAll_encodeAll emptyDsElems
  refine ⟨⟨b, hb, hds⟩, ?_, hread, ?_⟩
  · rintro ⟨r, hr, hfaith⟩
    rw [hb] at hr
    have hch := (hfaith b (Except.ok.inj hr).symm emptyDsElems helems).dsConfig
    rw [hds] at hch
    exact absurd hch (by decide)
  · rintro ⟨r, hr, -⟩
    rw [hread] at hr
    cases hr

end Rtl8821au.Mlme.BssInfo
