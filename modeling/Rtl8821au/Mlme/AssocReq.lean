import Rtl8821au.Lib.Elements
import Rtl8821au.Mlme.ElemCopy
import Mathlib.Data.List.Flatten
import Mathlib.Logic.Function.Basic

/-!
# The association request

`issue_assocreq` (`rtw_mlme_ext.c`, lines 3340–3624) for the network in `pmlmeinfo->network`. The
elements of the network are the memory they are in, with their length.

* `getIe_holds`: the search in a list of elements.
* `vendorLoop_whole`: the walk over one.
* `assocreq_selected`: what is sent for a list of elements.

The HT capabilities that are sent are the network's with the station's own bits and rates in
them. The element of WPS is cut to 14 bytes, in the stored list too, before the walk goes on; a
vendor's element is compared with four bytes whatever its length.
-/

namespace Rtl8821au.Mlme.AssocReq

open Elements
open ElemCopy (Frame RfType bytes rtwGetIe mcsRate lengthSsid lengthRatesEx maxIeSz)

/-! ## Model of the C code -/

/-! ### Rates -/

/-- `NumRates`. -/
def numRates : ℕ := 13

/-- `IEEE80211_BASIC_RATE_MASK`. -/
def basicRateMask : UInt8 := 0x80

/-- `ratetbl_val_2wifirate` (`rtw_wlan_util.c`, lines 242–300). -/
def ratetblVal2wifirate (rate : UInt8) : UInt8 :=
  [0x02, 0x04, 0x0B, 0x16, 0x0C, 0x12, 0x18, 0x24, 0x30, 0x48, 0x60, 0x6C].getD
    (rate &&& 0x7f).toNat 0

/-- `mixed_datarate` and `mixed_basicrate` (`rtw_mlme_ext.c`, lines 194–195), which are not
    changed. -/
def datarate : List UInt8 := [0, 1, 2, 3, 4, 5, 6, 7, 8, 9, 10, 11, 0xff]
def basicrate : List UInt8 := [0, 1, 2, 3, 4, 6, 8, 0xff, 0, 0, 0, 0, 0]

/-- `is_basicrate` (lines 303–322). -/
def isBasicrate (rate : UInt8) : Bool :=
  basicrate.any fun val => val != 0xff && val != 0xfe && rate == ratetblVal2wifirate val

/-- `ratetbl2rateset` (lines 325–359). -/
def ratetbl2rateset : List UInt8 → List UInt8
  | [] => []
  | rate :: rates =>
    if rate = 0xff then []
    else if rate = 0xfe then ratetbl2rateset rates
    else
      let val := ratetblVal2wifirate rate
      (if isBasicrate val then val ||| basicRateMask else val) :: ratetbl2rateset rates

/-- `sta_bssrate` with its length (lines 3416–3422). -/
def staBssrate (curChannel : ℕ) : List UInt8 :=
  if curChannel = 14 then (ratetbl2rateset datarate).take 4 else ratetbl2rateset datarate

/-- The loops over the rates (lines 3436–3461): `bssrate` with its `index` entries. -/
def rateLoop (sta : List UInt8) : List UInt8 → List UInt8 → List UInt8
  | [], bssrate => bssrate
  | rate :: rates, bssrate =>
    if rate = 0 then bssrate
    else if sta.findIdx (fun r => rate ||| basicRateMask == r ||| basicRateMask) = sta.length then
      rateLoop sta rates bssrate
    else rateLoop sta rates (bssrate ++ [rate])

/-! ### The network and the driver -/

/-- `pmlmeinfo->network`; what is behind its elements is arbitrary. -/
structure Network where
  bssid : List UInt8
  ssid : List UInt8
  supportedRates : List UInt8
  ies : Frame
  ieLength : ℕ
  ssid_le : ssid.length ≤ lengthSsid
  rates_eq : supportedRates.length = lengthRatesEx
  bssid_eq : bssid.length = 6

/-- What is looked at of the driver. `behindHtCaps` is the memory behind `HT_caps`; `frameOk` and
    `dupOk` say whether a frame with its buffer and a copy of it can be allocated. -/
structure Driver where
  macAddr : List UInt8
  mgntSeq : UInt16
  curChannel : ℕ
  htOption : Bool
  vhtOption : Bool
  rfType : RfType
  rxStbc : UInt8
  wireless24N : Bool
  wireless5N : Bool
  realtekAp : Bool
  behindHtCaps : ℕ → UInt8
  frameOk : Bool
  dupOk : Bool
  macAddr_eq : macAddr.length = 6

/-- `sizeof(NDIS_802_11_FIXED_IEs)`. -/
def fixedIes : ℕ := 12

/-- `RTW_WPA_OUI`, `WMM_OUI` and `WPS_OUI`. -/
def rtwWpaOui : List UInt8 := [0x00, 0x50, 0xf2, 0x01]
def wmmOui : List UInt8 := [0x00, 0x50, 0xf2, 0x02]
def wpsOui : List UInt8 := [0x00, 0x50, 0xf2, 0x04]

/-- `REALTEK_96B_IE`. -/
def realtek96bIe : List UInt8 := [0x00, 0xe0, 0x4c, 0x02, 0x01, 0x20]

/-- The loop of `is_ap_in_tkip` (`rtw_wlan_util.c`, lines 1362–1386). -/
def tkipLoop (m : Frame) (ieLength : ℕ) : ℕ → ℕ → Bool
  | 0, _ => false
  | fuel + 1, i =>
    if i < ieLength then
      if m i = 0xdd ∧ bytes m (i + 2) 4 = rtwWpaOui ∧
          bytes m (i + 2 + 12) 4 = [0x00, 0x50, 0xf2, 0x02] then true
      else if m i = 48 ∧ bytes m (i + 2 + 8) 4 = [0x00, 0x0f, 0xac, 0x02] then true
      else tkipLoop m ieLength fuel (i + ((m (i + 1)).toNat + 2))
    else false

/-- `is_ap_in_tkip` (lines 1352–1395). -/
def isApInTkip (n : Network) : Bool :=
  n.ies 10 &&& 0x10 != 0 && tkipLoop n.ies n.ieLength n.ieLength fixedIes

/-! ### The frame -/

/-- `rtw_set_ie` (`rtw_ieee80211.c`, lines 148–169) at the end of the frame. -/
def rtwSetIe (frame : List UInt8) (index : UInt8) (source : List UInt8) : List UInt8 :=
  frame ++ index :: UInt8.ofNat source.length :: source

/-- `sizeof(struct HT_caps_element)`: the structure inside it is not packed. -/
def htCapsSize : ℕ := 32

/-- The bits that are set in the two bytes of `HT_caps_info` (lines 3502–3545); 40 MHz are enabled
    on every channel, since 0x21 has bits in both halves. -/
def htCapsInfo (d : Driver) (k : ℕ) : UInt8 :=
  if k = 0 then 0x02 ||| 0x0c
  else if d.rfType = .rf1T1R then (if d.rxStbc ≠ 0 then 0x01 else 0)
  else if d.rxStbc = 3 ∨ d.wireless24N ∧ d.rxStbc = 1 ∨ d.wireless5N ∧ d.rxStbc = 2 then 0x02
  else 0

/-- Byte `k` of `HT_caps`, when it was copied. -/
def htByte (d : Driver) (k : ℕ) (data : UInt8) : UInt8 :=
  if k < 2 then data ||| htCapsInfo d k
  else if 3 ≤ k ∧ k < 19 then mcsRate d.rfType (k - 3)
  else data

/-- The HT capabilities (lines 3494–3567); nothing here reads `HT_caps` after that. -/
def putHtCaps (d : Driver) (n : Network) (frame : List UInt8) : List UInt8 :=
  if d.htOption then
    match rtwGetIe n.ies fixedIes 45 (n.ieLength - fixedIes) with
    | none => frame
    | some (p, ieLen) =>
      if isApInTkip n then frame
      else
        rtwSetIe frame 45 ((List.range ieLen).map fun k =>
          if k < htCapsSize then htByte d k (n.ies (p + 2 + k))
          else d.behindHtCaps (k - htCapsSize))
  else frame

/-- The RSN element (lines 3486–3491). -/
def putRsn (n : Network) (frame : List UInt8) : List UInt8 :=
  match rtwGetIe n.ies fixedIes 48 (n.ieLength - fixedIes) with
  | none => frame
  | some (p, ieLen) => rtwSetIe frame 48 (bytes n.ies (p + 2) ieLen)

/-- The body of the loop over the elements (lines 3571–3602) at `i`: the stored elements and the
    frame. -/
def vendorStep (d : Driver) (m : Frame) (i : ℕ) (frame : List UInt8) : Frame × List UInt8 :=
  if m i = 0xdd then
    if bytes m (i + 2) 4 = rtwWpaOui ∨ bytes m (i + 2) 4 = wmmOui ∨ bytes m (i + 2) 4 = wpsOui then
      let m := if bytes m (i + 2) 4 = wpsOui then Function.update m (i + 1) 14 else m
      (m, rtwSetIe frame 0xdd (bytes m (i + 2) (m (i + 1)).toNat))
    else (m, frame)
  else if m i = 191 then
    if d.vhtOption then (m, rtwSetIe frame 191 (bytes m (i + 2) (m (i + 1)).toNat)) else (m, frame)
  else if m i = 199 then
    if d.vhtOption then (m, rtwSetIe frame 199 (bytes m (i + 2) (m (i + 1)).toNat)) else (m, frame)
  else (m, frame)

/-- The loop (lines 3569–3605) for at most `fuel` rounds. -/
def vendorLoop (d : Driver) (ieLength : ℕ) : ℕ → ℕ → Frame → List UInt8 → Frame × List UInt8
  | 0, _, m, frame => (m, frame)
  | fuel + 1, i, m, frame =>
    if i < ieLength then
      let r := vendorStep d m i frame
      vendorLoop d ieLength fuel (i + ((r.1 (i + 1)).toNat + 2)) r.1 r.2
    else (m, frame)

/-- The 802.11 header; the buffer was cleared. -/
def header (d : Driver) (n : Network) : List UInt8 :=
  ([0, 0, 0, 0] : List UInt8) ++ n.bssid ++ d.macAddr ++ n.bssid ++
    [(d.mgntSeq <<< 4).toUInt8, ((d.mgntSeq <<< 4) >>> 8).toUInt8]

/-- What becomes of the frame. -/
inductive Result where
  | noFrame
  | givenBack
  | sent (frame : List UInt8)
  deriving DecidableEq, Repr

/-- What the function leaves behind; `bssrate` with its `index` entries. -/
structure Outcome where
  result : Result
  bssrate : List UInt8
  ies : Frame
  mgntSeq : UInt16
  assocReq : Option (List UInt8)

/-- The rates (lines 3473–3483). -/
def putRates (bssrate frame : List UInt8) : List UInt8 :=
  if 8 < bssrate.length then rtwSetIe (rtwSetIe frame 1 (bssrate.take 8)) 50 (bssrate.drop 8)
  else rtwSetIe frame 1 bssrate

/-- The capabilities with `BIT(8)`, the listen interval and the SSID (lines 3388–3412). -/
def putStart (d : Driver) (n : Network) : List UInt8 :=
  rtwSetIe (header d n ++ [n.ies 10, n.ies 11 ||| 1] ++ [3, 0]) 0 n.ssid

/-- `issue_assocreq`. -/
def issueAssocreq (d : Driver) (n : Network) : Outcome :=
  if !d.frameOk then
    { result := .noFrame, bssrate := [], ies := n.ies, mgntSeq := d.mgntSeq, assocReq := none }
  else
    let bssrate := rateLoop (staBssrate d.curChannel) n.supportedRates []
    if bssrate = [] then
      { result := .givenBack, bssrate, ies := n.ies, mgntSeq := d.mgntSeq + 1, assocReq := none }
    else
      let frame := putHtCaps d n (putRsn n (putRates bssrate (putStart d n)))
      let r := vendorLoop d n.ieLength n.ieLength fixedIes n.ies frame
      let frame := if d.realtekAp then rtwSetIe r.2 0xdd realtek96bIe else r.2
      { result := .sent frame, bssrate, ies := r.1, mgntSeq := d.mgntSeq + 1
        assocReq := if d.dupOk then some frame else none }

/-! ## What is to be sent -/

/-- `MAX_XMIT_EXTBUF_SZ` without `TXDESC_OFFSET`. -/
def frameRoom : ℕ := 1536 - 48

/-- The rates of the network that the station supports. -/
def commonRates (d : Driver) (n : Network) : List UInt8 :=
  (n.supportedRates.takeWhile (· != 0)).filter fun rate =>
    (staBssrate d.curChannel).any fun r => rate ||| basicRateMask == r ||| basicRateMask

/-- A WPA, WMM or WPS element, or one of VHT. -/
def selected (d : Driver) (e : Elem) : Bool :=
  e.id == 0xdd &&
      (e.data.take 4 == rtwWpaOui || e.data.take 4 == wmmOui || e.data.take 4 == wpsOui) ||
    d.vhtOption && (e.id == 191 || e.id == 199)

theorem ssid_lt (n : Network) : n.ssid.length < 256 := Nat.lt_of_le_of_lt n.ssid_le (by decide)

theorem commonRates_le (d : Driver) (n : Network) : (commonRates d n).length ≤ 16 := by
  have hfilter := List.length_filter_le (fun rate => (staBssrate d.curChannel).any fun r =>
    rate ||| basicRateMask == r ||| basicRateMask) (n.supportedRates.takeWhile (· != 0))
  have hwhile := (List.takeWhile_sublist (· != 0) (l := n.supportedRates)).length_le
  rw [n.rates_eq] at hwhile
  exact Nat.le_trans hfilter hwhile

theorem rates_lt (d : Driver) (n : Network) : (commonRates d n).length < 256 :=
  Nat.lt_of_le_of_lt (commonRates_le d n) (by decide)

theorem firstRates_lt (d : Driver) (n : Network) : ((commonRates d n).take 8).length < 256 :=
  Nat.lt_of_le_of_lt (List.length_take_le 8 _) (by decide)

theorem laterRates_lt (d : Driver) (n : Network) : ((commonRates d n).drop 8).length < 256 :=
  Nat.lt_of_le_of_lt (List.drop_sublist 8 _).length_le (rates_lt d n)

theorem htData_lt (d : Driver) (e : Elem) : (e.data.mapIdx (htByte d)).length < 256 := by
  rw [List.length_mapIdx]
  exact e.length_lt

theorem realtek_lt : realtek96bIe.length < 256 := by decide

/-- The elements of the rates. -/
def rateElems (d : Driver) (n : Network) : List Elem :=
  if 8 < (commonRates d n).length then
    [⟨1, (commonRates d n).take 8, firstRates_lt d n⟩,
      ⟨50, (commonRates d n).drop 8, laterRates_lt d n⟩]
  else [⟨1, commonRates d n, rates_lt d n⟩]

/-- The network's HT capabilities with the station's own bits and rates. -/
def htElem (d : Driver) (e : Elem) : Elem := ⟨45, e.data.mapIdx (htByte d), htData_lt d e⟩

/-- The first element with an id. -/
def first (id : UInt8) (es : List Elem) : Option Elem := es.find? fun e => e.id == id

/-- The HT capabilities that are sent, if any. -/
def htElems (d : Driver) (n : Network) (es : List Elem) : List Elem :=
  if d.htOption && !isApInTkip n then ((first 45 es).map (htElem d)).toList else []

/-- Realtek's element, for an access point of theirs. -/
def realtekElems (d : Driver) : List Elem :=
  if d.realtekAp then [⟨0xdd, realtek96bIe, realtek_lt⟩] else []

/-- The frame up to the HT capabilities, and the elements `vs`. -/
def requestWith (d : Driver) (n : Network) (es vs : List Elem) : List UInt8 :=
  header d n ++ [n.ies 10, n.ies 11 ||| 1, 3, 0] ++ encodeAll (⟨0, n.ssid, ssid_lt n⟩ ::
    (rateElems d n ++ (first 48 es).toList ++ htElems d n es ++ vs))

/-- The frame for the elements `es` of the network. -/
def request (d : Driver) (n : Network) (es : List Elem) : List UInt8 :=
  requestWith d n es (es.filter (selected d) ++ realtekElems d)

/-- The elements `es` are in the memory from `p` on. -/
def Holds (m : Frame) (p : ℕ) (es : List Elem) : Prop :=
  bytes m p (encodeAll es).length = encodeAll es

def isWps (e : Elem) : Bool := e.id == 0xdd && e.data.take 4 == wpsOui

/-- No element of WPS needs to be cut. -/
def Whole (es : List Elem) : Prop := ∀ e ∈ es, isWps e = true → e.data.length = 14

/-- The first 14 bytes of an element. -/
def cut (e : Elem) : Elem :=
  ⟨e.id, e.data.take 14, Nat.lt_of_le_of_lt (List.length_take_le 14 _) (by decide)⟩

/-- A network with the elements `es`: its vendor elements have the four bytes they are known by,
    those of WPS have at least 14, the HT capabilities fit in their structure, and the station
    supports no more than `NumRates` of the rates. -/
structure Proper (d : Driver) (n : Network) (es : List Elem) : Prop where
  fixed : fixedIes ≤ n.ieLength
  ieLength_le : n.ieLength ≤ maxIeSz
  length_eq : (encodeAll es).length = n.ieLength - fixedIes
  holds : Holds n.ies fixedIes es
  vendor : ∀ e ∈ es, e.id = 0xdd → 4 ≤ e.data.length
  wps : ∀ e ∈ es, isWps e = true → 14 ≤ e.data.length
  ht : ∀ e, first 45 es = some e → e.data.length ≤ htCapsSize
  rates : (commonRates d n).length ≤ numRates

/-! ## Elements in memory -/

section memory

variable {m : Frame} {p : ℕ} {e : Elem} {es : List Elem}

theorem length_bytes (m : Frame) (p k : ℕ) : (bytes m p k).length = k := by
  rw [bytes, List.length_map, List.length_range]

theorem bytes_add (m : Frame) (p a b : ℕ) :
    bytes m p (a + b) = bytes m p a ++ bytes m (p + a) b := by
  unfold bytes
  rw [List.range_add, List.map_append, List.map_map]
  congr 1
  apply List.map_congr_left
  intro k _
  show m (p + (a + k)) = m (p + a + k)
  rw [Nat.add_assoc]

theorem bytes_take (m : Frame) (p : ℕ) {k n : ℕ} (h : k ≤ n) :
    (bytes m p n).take k = bytes m p k := by
  obtain ⟨r, rfl⟩ := Nat.exists_eq_add_of_le h
  rw [bytes_add]
  exact List.take_left' (length_bytes m p k)

/-- The first element and the others. -/
theorem Holds.cons (h : Holds m p (e :: es)) :
    m p = e.id ∧ m (p + 1) = UInt8.ofNat e.data.length ∧
      bytes m (p + 2) e.data.length = e.data ∧ Holds m (p + (e.data.length + 2)) es := by
  unfold Holds at h
  rw [encodeAll_cons, List.length_append, Elem.encode_length, bytes_add] at h
  obtain ⟨hfirst, hrest⟩ := List.append_inj h (length_bytes ..)
  rw [Nat.add_comm e.data.length 2, bytes_add] at hfirst
  have hlist : bytes m p 2 ++ bytes m (p + 2) e.data.length =
      [e.id, UInt8.ofNat e.data.length] ++ e.data := hfirst
  obtain ⟨htwo, hdata⟩ := List.append_inj hlist (length_bytes ..)
  have hpair : [m p, m (p + 1)] = [e.id, UInt8.ofNat e.data.length] := htwo
  obtain ⟨hid, htail⟩ := List.cons.inj hpair
  exact ⟨hid, (List.cons.inj htail).1, hdata, hrest⟩

/-- The elements behind others. -/
theorem holds_append {es' : List Elem} (h : Holds m p (es ++ es')) :
    Holds m (p + (encodeAll es).length) es' := by
  unfold Holds at h
  rw [encodeAll_append, List.length_append, bytes_add] at h
  exact (List.append_inj h (length_bytes ..)).2

/-- The length that is read. -/
theorem Holds.toNat_length (h : Holds m p (e :: es)) : (m (p + 1)).toNat = e.data.length := by
  rw [h.cons.2.1, e.toNat_length]

/-- The first bytes of an element that has them. -/
theorem Holds.take (h : Holds m p (e :: es)) {k : ℕ} (hk : k ≤ e.data.length) :
    bytes m (p + 2) k = e.data.take k := by
  rw [← bytes_take m (p + 2) hk, h.cons.2.2.1]

/-- What `rtw_get_ie` finds. -/
theorem getIeLoop_holds (index : UInt8) {limit fuel i : ℕ} (h : Holds m p es)
    (hlen : i + (encodeAll es).length = limit) (hi : i < limit) (hfuel : es.length ≤ fuel) :
    (first index es = none → ElemCopy.getIeLoop m index limit fuel p i = none) ∧
      ∀ e, first index es = some e →
        ∃ q, ElemCopy.getIeLoop m index limit fuel p i = some (q, e.data.length) ∧
          bytes m (q + 2) e.data.length = e.data := by
  induction es generalizing p i fuel with
  | nil =>
    rw [encodeAll_nil, List.length_nil] at hlen
    omega
  | cons x es ih =>
    obtain ⟨fuel, rfl⟩ : ∃ k, fuel = k + 1 := ⟨fuel - 1, by simp at hfuel; omega⟩
    rw [encodeAll_cons, List.length_append, Elem.encode_length] at hlen
    obtain ⟨hid, -, hdata, hrest⟩ := h.cons
    simp only [ElemCopy.getIeLoop, hid, h.toNat_length]
    by_cases hx : x.id = index
    · have hfirst : first index (x :: es) = some x := by simp [first, hx]
      rw [if_pos hx, hfirst]
      refine ⟨fun hnone => (Option.some_ne_none _ hnone).elim, fun e he => ?_⟩
      obtain rfl := Option.some.inj he
      exact ⟨p, rfl, hdata⟩
    · have hfirst : first index (x :: es) = first index es := by simp [first, hx]
      rw [if_neg hx, hfirst]
      by_cases hend : limit ≤ i + (x.data.length + 2)
      · have hnil : es = [] := by
          have hle := encodeAll_length_le es
          exact List.length_eq_zero_iff.mp (by omega)
        rw [if_pos hend, hnil]
        exact ⟨fun _ => rfl, fun e he => (Option.some_ne_none e he.symm).elim⟩
      · rw [if_neg hend]
        exact ih hrest (by omega) (by omega) (by simpa using hfuel)

theorem getIe_holds (index : UInt8) (h : Holds m p es) :
    (first index es = none → rtwGetIe m p index (encodeAll es).length = none) ∧
      ∀ e, first index es = some e →
        ∃ q, rtwGetIe m p index (encodeAll es).length = some (q, e.data.length) ∧
          bytes m (q + 2) e.data.length = e.data := by
  have hle := encodeAll_length_le es
  unfold rtwGetIe
  by_cases hpos : (encodeAll es).length < 1
  · have hnil : es = [] := List.length_eq_zero_iff.mp (by omega)
    rw [if_pos hpos, hnil]
    exact ⟨fun _ => rfl, fun e he => (Option.some_ne_none e he.symm).elim⟩
  · rw [if_neg hpos]
    exact getIeLoop_holds index h (Nat.zero_add _) (by omega) (by omega)

end memory

/-! ## The rates -/

/-- The inner loop finds a rate or comes to the end. -/
theorem findIdx_eq_length (sta : List UInt8) (rate : UInt8) :
    sta.findIdx (fun r => rate ||| basicRateMask == r ||| basicRateMask) = sta.length ↔
      (sta.any fun r => rate ||| basicRateMask == r ||| basicRateMask) = false := by
  rw [List.findIdx_eq_length]
  simp only [List.any_eq_false, Bool.not_eq_true]

theorem rateLoop_eq (sta rates bssrate : List UInt8) :
    rateLoop sta rates bssrate =
      bssrate ++ (rates.takeWhile (· != 0)).filter fun rate =>
        sta.any fun r => rate ||| basicRateMask == r ||| basicRateMask := by
  induction rates generalizing bssrate with
  | nil => exact (List.append_nil _).symm
  | cons rate rates ih =>
    rw [rateLoop]
    by_cases hzero : rate = 0
    · rw [if_pos hzero, hzero]
      exact (List.append_nil _).symm
    · have hwhile : (rate :: rates).takeWhile (· != 0) = rate :: rates.takeWhile (· != 0) :=
        List.takeWhile_cons_of_pos (by simpa using hzero)
      rw [if_neg hzero, hwhile]
      cases hany : sta.any fun r => rate ||| basicRateMask == r ||| basicRateMask with
      | false =>
        rw [if_pos ((findIdx_eq_length sta rate).mpr hany), ih, List.filter_cons_of_neg]
        rw [hany]
        exact Bool.false_ne_true
      | true =>
        have hfound := mt (findIdx_eq_length sta rate).mp (by rw [hany]; decide)
        rw [if_neg hfound, ih, List.filter_cons_of_pos (by exact hany), List.append_assoc]
        rfl

theorem rateLoop_common (d : Driver) (n : Network) :
    rateLoop (staBssrate d.curChannel) n.supportedRates [] = commonRates d n :=
  rateLoop_eq _ _ _

/-! ## The parts of the frame -/

section parts

variable {d : Driver} {n : Network} {es : List Elem}

theorem rtwSetIe_eq (frame : List UInt8) (e : Elem) :
    rtwSetIe frame e.id e.data = frame ++ encodeAll [e] := by
  rw [encodeAll_cons, encodeAll_nil, List.append_nil]
  rfl

theorem putStart_eq (d : Driver) (n : Network) :
    putStart d n = header d n ++ [n.ies 10, n.ies 11 ||| 1, 3, 0] ++
      encodeAll [⟨0, n.ssid, ssid_lt n⟩] := by
  rw [← rtwSetIe_eq, putStart, List.append_assoc (header d n)]
  rfl

theorem putRates_eq (d : Driver) (n : Network) (frame : List UInt8) :
    putRates (commonRates d n) frame = frame ++ encodeAll (rateElems d n) := by
  unfold putRates rateElems
  split
  · rw [encodeAll_cons, ← List.append_assoc, ← List.append_nil (Elem.encode _), ← encodeAll_nil,
      ← encodeAll_cons, ← rtwSetIe_eq, ← rtwSetIe_eq]
  · exact rtwSetIe_eq frame ⟨1, commonRates d n, rates_lt d n⟩

theorem putRsn_eq (h : Proper d n es) (frame : List UInt8) :
    putRsn n frame = frame ++ encodeAll (first 48 es).toList := by
  obtain ⟨hnone, hsome⟩ := getIe_holds 48 h.holds
  unfold putRsn
  rw [← h.length_eq]
  cases hfirst : first 48 es with
  | none =>
    rw [hnone hfirst]
    exact (List.append_nil _).symm
  | some e =>
    obtain ⟨q, hq, hdata⟩ := hsome e hfirst
    have hid : e.id = 48 := by simpa using List.find?_some hfirst
    rw [hq]
    dsimp only
    rw [hdata, ← hid, rtwSetIe_eq]
    rfl

/-- The HT capabilities byte by byte. -/
theorem htData_eq {e : Elem} {q : ℕ} (hdata : bytes n.ies (q + 2) e.data.length = e.data)
    (hle : e.data.length ≤ htCapsSize) :
    ((List.range e.data.length).map fun k =>
      if k < htCapsSize then htByte d k (n.ies (q + 2 + k)) else d.behindHtCaps (k - htCapsSize)) =
      e.data.mapIdx (htByte d) := by
  apply List.ext_getElem
  · rw [List.length_map, List.length_range, List.length_mapIdx]
  · intro k hk _
    rw [List.length_map, List.length_range] at hk
    have hbyte : n.ies (q + 2 + k) = e.data[k] := by
      have hget : (bytes n.ies (q + 2) e.data.length)[k]? = e.data[k]? := by rw [hdata]
      simpa [bytes, hk] using hget
    rw [List.getElem_map, List.getElem_range, List.getElem_mapIdx, if_pos (by omega), hbyte]

theorem putHtCaps_eq (h : Proper d n es) (frame : List UInt8) :
    putHtCaps d n frame = frame ++ encodeAll (htElems d n es) := by
  obtain ⟨hnone, hsome⟩ := getIe_holds 45 h.holds
  unfold putHtCaps htElems
  rw [← h.length_eq]
  cases hht : d.htOption with
  | false => exact (List.append_nil _).symm
  | true =>
    rw [if_pos rfl, Bool.true_and]
    cases hfirst : first 45 es with
    | none =>
      have hnil : encodeAll (if !isApInTkip n then (Option.map (htElem d) none).toList else []) =
          [] := by
        cases isApInTkip n <;> rfl
      rw [hnone hfirst, hnil, List.append_nil]
    | some e =>
      obtain ⟨q, hq, hdata⟩ := hsome e hfirst
      rw [hq]
      dsimp only
      rw [htData_eq hdata (h.ht e hfirst)]
      cases isApInTkip n with
      | true => exact (List.append_nil _).symm
      | false => exact rtwSetIe_eq frame (htElem d e)

end parts

/-! ## The walk over the elements -/

section walk

variable {d : Driver} {m : Frame} {i ieLength : ℕ} {e : Elem} {es : List Elem}

/-- An element that is sent as it is. -/
theorem vendorStep_whole (hm : Holds m i (e :: es)) (hvendor : e.id = 0xdd → 4 ≤ e.data.length)
    (hwps : isWps e = true → e.data.length = 14) (frame : List UInt8) :
    vendorStep d m i frame = (m, frame ++ encodeAll ([e].filter (selected d))) := by
  obtain ⟨hid, hlen, hdata, -⟩ := hm.cons
  have hput : ∀ index, e.id = index →
      rtwSetIe frame index (bytes m (i + 2) (m (i + 1)).toNat) = frame ++ encodeAll [e] := by
    rintro index rfl
    rw [hm.toNat_length, hdata, rtwSetIe_eq]
  have hsent : frame ++ encodeAll ([e].filter (selected d)) =
      if selected d e then frame ++ encodeAll [e] else frame := by
    cases hsel : selected d e <;> simp [hsel]
  unfold vendorStep
  rw [hid, hsent]
  by_cases hdd : e.id = 0xdd
  · have hfour := hm.take (hvendor hdd)
    -- the length that is written is the one that was there
    have hsame : (if e.data.take 4 = wpsOui then Function.update m (i + 1) 14 else m) = m := by
      split
      case isTrue h =>
        have h14 : (14 : UInt8) = m (i + 1) := by
          rw [hlen, hwps (by simp [isWps, hdd, h])]
          rfl
        rw [h14, Function.update_eq_self]
      case isFalse => rfl
    have hsel : selected d e = (e.data.take 4 == rtwWpaOui || e.data.take 4 == wmmOui ||
        e.data.take 4 == wpsOui) := by
      simp [selected, hdd]
    rw [if_pos hdd, hfour, hsel]
    dsimp only
    rw [hsame, hput 0xdd hdd]
    simp only [Bool.or_eq_true, beq_iff_eq, or_assoc]
    split <;> rfl
  · have hsel : selected d e = (d.vhtOption && (e.id == 191 || e.id == 199)) := by
      simp [selected, hdd]
    rw [if_neg hdd, hsel]
    by_cases h191 : e.id = 191
    · rw [if_pos h191, hput 191 h191, h191]
      cases d.vhtOption <;> rfl
    · rw [if_neg h191]
      by_cases h199 : e.id = 199
      · rw [if_pos h199, hput 199 h199, h199]
        cases d.vhtOption <;> rfl
      · rw [if_neg h199]
        simp [h191, h199]

/-- An element of WPS is cut, in the stored list too. -/
theorem vendorStep_wps (hm : Holds m i (e :: es)) (hwps : isWps e = true)
    (hlong : 14 ≤ e.data.length) (frame : List UInt8) :
    vendorStep d m i frame = (Function.update m (i + 1) 14, frame ++ encodeAll [cut e]) := by
  obtain ⟨hid, houi⟩ : e.id = 0xdd ∧ e.data.take 4 = wpsOui := by simpa [isWps] using hwps
  have hfour : bytes m (i + 2) 4 = wpsOui := by rw [hm.take (by omega), houi]
  have hbehind : bytes (Function.update m (i + 1) 14) (i + 2) 14 = bytes m (i + 2) 14 := by
    unfold bytes
    apply List.map_congr_left
    intro k _
    exact Function.update_of_ne (by omega) _ _
  have hcut : rtwSetIe frame 0xdd (e.data.take 14) = frame ++ encodeAll [cut e] := by
    rw [← hid]
    exact rtwSetIe_eq frame (cut e)
  unfold vendorStep
  rw [hm.cons.1, if_pos hid, hfour, if_pos (Or.inr (Or.inr rfl))]
  dsimp only
  rw [if_pos rfl, Function.update_self]
  show (_, rtwSetIe frame 0xdd (bytes (Function.update m (i + 1) 14) (i + 2) 14)) = _
  rw [hbehind, hm.take hlong, hcut]

/-- The walk over the elements `pre`. -/
theorem vendorLoop_whole (pre : List Elem) (fuel : ℕ) (hm : Holds m i (pre ++ es))
    (hlen : i + (encodeAll pre).length ≤ ieLength)
    (hvendor : ∀ e ∈ pre, e.id = 0xdd → 4 ≤ e.data.length) (hwhole : Whole pre)
    (frame : List UInt8) :
    vendorLoop d ieLength (pre.length + fuel) i m frame =
      vendorLoop d ieLength fuel (i + (encodeAll pre).length) m
        (frame ++ encodeAll (pre.filter (selected d))) := by
  induction pre generalizing i frame with
  | nil =>
    rw [List.length_nil, Nat.zero_add]
    exact congrArg _ (List.append_nil _).symm
  | cons e pre ih =>
    rw [encodeAll_cons, List.length_append, Elem.encode_length] at hlen
    have hstep := vendorStep_whole (d := d) hm (hvendor e List.mem_cons_self)
      (hwhole e List.mem_cons_self) frame
    have hfilter : (e :: pre).filter (selected d) =
        [e].filter (selected d) ++ pre.filter (selected d) := List.filter_append [e] pre
    rw [List.length_cons, Nat.add_right_comm, vendorLoop, if_pos (by omega), hstep]
    dsimp only
    rw [hm.toNat_length, ih hm.cons.2.2.2 (by omega)
      (fun x hx => hvendor x (List.mem_cons_of_mem e hx))
      (fun x hx => hwhole x (List.mem_cons_of_mem e hx)), hfilter, encodeAll_append,
      encodeAll_cons, List.length_append, Elem.encode_length, List.append_assoc, Nat.add_assoc i]

/-- What is in the frame stays. -/
theorem vendorStep_extends (m : Frame) (i : ℕ) (frame : List UInt8) :
    frame <+: (vendorStep d m i frame).2 := by
  have hput : ∀ index data, frame <+: rtwSetIe frame index data :=
    fun _ _ => List.prefix_append frame _
  unfold vendorStep
  split_ifs <;> first | exact hput _ _ | exact List.prefix_rfl

theorem vendorLoop_extends (fuel : ℕ) (m : Frame) (i : ℕ) (frame : List UInt8) :
    frame <+: (vendorLoop d ieLength fuel i m frame).2 := by
  induction fuel generalizing m i frame with
  | zero => exact List.prefix_rfl
  | succ fuel ih =>
    rw [vendorLoop]
    split
    · exact (vendorStep_extends m i frame).trans (ih _ _ _)
    · exact List.prefix_rfl

end walk

/-! ## The length of the frame -/

section length

variable (d : Driver) (n : Network) (es : List Elem)

theorem header_length : (header d n).length = 24 := by
  simp [header, n.bssid_eq, d.macAddr_eq]

theorem encode_length_le (e : Elem) : e.encode.length ≤ 257 := by
  have hlt := e.length_lt
  rw [Elem.encode_length]
  omega

/-- At most one element. -/
theorem encodeAll_toList_length_le (o : Option Elem) : (encodeAll o.toList).length ≤ 257 := by
  cases o with
  | none => exact Nat.zero_le 257
  | some e =>
    have hle := encode_length_le e
    simpa using hle

theorem encodeAll_filter_length_le (p : Elem → Bool) :
    (encodeAll (es.filter p)).length ≤ (encodeAll es).length :=
  (List.filter_sublist.flatMap Elem.encode).length_le

theorem rateElems_length_le : (encodeAll (rateElems d n)).length ≤ 20 := by
  have hle := commonRates_le d n
  unfold rateElems
  split <;> simp <;> omega

theorem htElems_length_le : (encodeAll (htElems d n es)).length ≤ 257 := by
  unfold htElems
  split
  · exact encodeAll_toList_length_le _
  · exact Nat.zero_le 257

theorem realtekElems_length_le : (encodeAll (realtekElems d)).length ≤ 8 := by
  unfold realtekElems
  split <;> decide

/-- Any list of elements that fits in the network fits in the frame. -/
theorem request_fits (h : (encodeAll es).length ≤ maxIeSz - fixedIes) :
    (request d n es).length ≤ frameRoom := by
  have hssid := n.ssid_le
  have hrates := rateElems_length_le d n
  have hrsn := encodeAll_toList_length_le (first 48 es)
  have hht := htElems_length_le d n es
  have hvendor := encodeAll_filter_length_le es (selected d)
  have hrealtek := realtekElems_length_le d
  have hroom : maxIeSz - fixedIes = 756 := rfl
  have hssidMax : lengthSsid = 32 := rfl
  have hframe : frameRoom = 1488 := rfl
  simp only [request, requestWith, encodeAll_cons, encodeAll_append, List.length_append,
    header_length, Elem.encode_length, List.length_cons, List.length_nil]
  omega

end length

/-! ## The request -/

variable {d : Driver} {n : Network} {es : List Elem}

/-- What is in the frame before the walk. -/
theorem lead_eq (h : Proper d n es) :
    putHtCaps d n (putRsn n (putRates (commonRates d n) (putStart d n))) =
      requestWith d n es [] := by
  rw [putStart_eq, putRates_eq, putRsn_eq h, putHtCaps_eq h, requestWith]
  simp only [List.append_assoc, encodeAll_cons, encodeAll_append, encodeAll_nil, List.append_nil]

theorem requestWith_append (es vs ws : List Elem) :
    requestWith d n es (vs ++ ws) = requestWith d n es vs ++ encodeAll ws := by
  simp only [requestWith, encodeAll_cons, encodeAll_append, List.append_assoc]

theorem issueAssocreq_noFrame (n : Network) (hframe : d.frameOk = false) :
    (issueAssocreq d n).bssrate = [] ∧ (issueAssocreq d n).result = .noFrame ∧
      (issueAssocreq d n).ies = n.ies := by
  unfold issueAssocreq
  rw [hframe]
  exact ⟨rfl, rfl, rfl⟩

theorem issueAssocreq_givenBack (hframe : d.frameOk = true) (hrates : commonRates d n = []) :
    (issueAssocreq d n).bssrate = [] ∧ (issueAssocreq d n).result = .givenBack ∧
      (issueAssocreq d n).ies = n.ies := by
  unfold issueAssocreq
  rw [hframe, rateLoop_common, hrates]
  exact ⟨rfl, rfl, rfl⟩

/-- The frame, when one is sent. -/
theorem issueAssocreq_sent (h : Proper d n es) (hframe : d.frameOk = true)
    (hrates : commonRates d n ≠ []) :
    (issueAssocreq d n).bssrate = commonRates d n ∧
      (issueAssocreq d n).result = .sent ((vendorLoop d n.ieLength n.ieLength fixedIes n.ies
        (requestWith d n es [])).2 ++ encodeAll (realtekElems d)) ∧
      (issueAssocreq d n).ies = (vendorLoop d n.ieLength n.ieLength fixedIes n.ies
        (requestWith d n es [])).1 := by
  unfold issueAssocreq realtekElems
  rw [hframe, rateLoop_common]
  dsimp only
  rw [lead_eq h, if_neg (by decide), if_neg hrates]
  refine ⟨rfl, ?_, rfl⟩
  cases d.realtekAp with
  | false => exact congrArg Result.sent (List.append_nil _).symm
  | true => exact congrArg Result.sent (rtwSetIe_eq _ ⟨0xdd, realtek96bIe, realtek_lt⟩)

/-- There are rounds enough for the walk. -/
theorem exists_rounds (h : Proper d n es) : ∃ fuel, n.ieLength = es.length + (fuel + 1) := by
  have hle := encodeAll_length_le es
  have hlen := h.length_eq
  have hfixed := h.fixed
  have htwelve : fixedIes = 12 := rfl
  exact ⟨n.ieLength - es.length - 1, by omega⟩

theorem walk_whole (h : Proper d n es) (hwhole : Whole es) (frame : List UInt8) :
    vendorLoop d n.ieLength n.ieLength fixedIes n.ies frame =
      (n.ies, frame ++ encodeAll (es.filter (selected d))) := by
  obtain ⟨fuel, hfuel⟩ := exists_rounds h
  have hend : fixedIes + (encodeAll es).length = n.ieLength := by
    have hfixed := h.fixed
    have hlen := h.length_eq
    omega
  have hm : Holds n.ies fixedIes (es ++ []) := by rw [List.append_nil]; exact h.holds
  have hrun := vendorLoop_whole (d := d) es (fuel + 1) hm (Nat.le_of_eq hend) h.vendor hwhole frame
  rw [← hfuel, hend] at hrun
  rw [hrun, vendorLoop, if_neg (Nat.lt_irrefl _)]

theorem walk_cut (h : Proper d n es) {pre post : List Elem} {w : Elem}
    (hes : es = pre ++ w :: post) (hwhole : Whole pre) (hwps : isWps w = true)
    (frame : List UInt8) :
    frame ++ encodeAll (pre.filter (selected d) ++ [cut w]) <+:
      (vendorLoop d n.ieLength n.ieLength fixedIes n.ies frame).2 := by
  obtain ⟨fuel, hfuel⟩ := exists_rounds h
  have hmem : ∀ e ∈ pre, e ∈ es := fun e he => by
    rw [hes]
    exact List.mem_append_left _ he
  have hw : w ∈ es := by
    rw [hes]
    exact List.mem_append_right _ List.mem_cons_self
  have hlen : fixedIes + (encodeAll pre).length < n.ieLength := by
    have hfixed := h.fixed
    have hall := h.length_eq
    rw [hes, encodeAll_append, encodeAll_cons, List.length_append, List.length_append,
      Elem.encode_length] at hall
    omega
  have hm : Holds n.ies fixedIes (pre ++ w :: post) := by
    rw [← hes]
    exact h.holds
  have hrounds : n.ieLength = pre.length + (post.length + 1 + fuel + 1) := by
    rw [hfuel, hes, List.length_append, List.length_cons]
    omega
  have hrun := vendorLoop_whole (d := d) pre (post.length + 1 + fuel + 1) hm (Nat.le_of_lt hlen)
    (fun e he => h.vendor e (hmem e he)) hwhole frame
  rw [← hrounds] at hrun
  rw [hrun, vendorLoop, if_pos hlen,
    vendorStep_wps (holds_append hm) hwps (h.wps w hw hwps), encodeAll_append, ← List.append_assoc]
  exact vendorLoop_extends _ _ _ _

/-- The request for a list of elements. A WPS element that is longer is cut to 14 bytes; what is
    sent after it is left open, since the walk goes on inside the element. -/
theorem assocreq_selected (d : Driver) (n : Network) (es : List Elem) (h : Proper d n es) :
    (issueAssocreq d n).bssrate.length ≤ numRates ∧
      (d.frameOk = false →
        (issueAssocreq d n).result = .noFrame ∧ (issueAssocreq d n).ies = n.ies) ∧
      (d.frameOk = true → commonRates d n = [] →
        (issueAssocreq d n).result = .givenBack ∧ (issueAssocreq d n).ies = n.ies) ∧
      (d.frameOk = true → commonRates d n ≠ [] →
        (Whole es → (issueAssocreq d n).result = .sent (request d n es) ∧
          (request d n es).length ≤ frameRoom ∧ (issueAssocreq d n).ies = n.ies) ∧
        ∀ pre w post, es = pre ++ w :: post → Whole pre → isWps w = true →
          ∃ rest, (issueAssocreq d n).result =
            .sent (requestWith d n es (pre.filter (selected d) ++ [cut w]) ++ rest)) := by
  have hrates : (issueAssocreq d n).bssrate.length ≤ numRates := by
    cases hframe : d.frameOk with
    | false =>
      rw [(issueAssocreq_noFrame n hframe).1]
      exact Nat.zero_le numRates
    | true =>
      by_cases hcommon : commonRates d n = []
      · rw [(issueAssocreq_givenBack hframe hcommon).1]
        exact Nat.zero_le numRates
      · rw [(issueAssocreq_sent h hframe hcommon).1]
        exact h.rates
  refine ⟨hrates, fun hframe => (issueAssocreq_noFrame n hframe).2,
    fun hframe hcommon => (issueAssocreq_givenBack hframe hcommon).2, fun hframe hcommon => ?_⟩
  obtain ⟨-, hresult, hies⟩ := issueAssocreq_sent h hframe hcommon
  refine ⟨fun hwhole => ⟨?_, ?_, ?_⟩, fun pre w post hes hwhole hwps => ?_⟩
  · rw [hresult, walk_whole h hwhole, ← requestWith_append, ← requestWith_append, List.nil_append]
    rfl
  · have hmax := h.ieLength_le
    exact request_fits d n es (by rw [h.length_eq]; exact Nat.sub_le_sub_right hmax fixedIes)
  · rw [hies, walk_whole h hwhole]
  · obtain ⟨rest, hrest⟩ := walk_cut h hes hwhole hwps (requestWith d n es [])
    refine ⟨rest ++ encodeAll (realtekElems d), ?_⟩
    rw [hresult, ← hrest, ← requestWith_append, List.nil_append, List.append_assoc]

/-- A station with one antenna, associated with no access point of Realtek's. -/
def station : Driver :=
  { macAddr := [2, 0, 0, 0, 0, 1], mgntSeq := 1, curChannel := 6, htOption := true,
    vhtOption := false, rfType := .rf1T1R, rxStbc := 1, wireless24N := true, wireless5N := false,
    realtekAp := false, behindHtCaps := fun _ => 0, frameOk := true, dupOk := true,
    macAddr_eq := rfl }

/-- The network "ap" with two rates and the elements `es`. -/
def apWith (es : List Elem) : Network :=
  { bssid := [2, 0, 0, 0, 0, 2], ssid := [0x61, 0x70],
    supportedRates := [0x82, 0x2c, 0x16, 0, 0, 0, 0, 0, 0, 0, 0, 0, 0, 0, 0, 0],
    ies := fun k => (List.replicate fixedIes 0 ++ encodeAll es).getD k 0,
    ieLength := fixedIes + (encodeAll es).length, ssid_le := by decide, rates_eq := rfl,
    bssid_eq := rfl }

def wmmElem : Elem := ⟨0xdd, [0x00, 0x50, 0xf2, 0x02, 0x00, 0x01, 0x00], by decide⟩

/-- An element of WPS with 15 bytes. -/
def wpsElem : Elem :=
  ⟨0xdd, [0x00, 0x50, 0xf2, 0x04, 0x10, 0x4a, 0x00, 0x01, 0x10, 0x10, 0x44, 0x00, 0x01, 0x02, 0x10],
    by decide⟩

theorem ap_wmm_proper : Proper station (apWith [wmmElem]) [wmmElem] where
  fixed := Nat.le_add_right _ _
  ieLength_le := by decide
  length_eq := rfl
  holds := rfl
  vendor := by decide
  wps := by decide
  ht := fun _ he => (Option.some_ne_none _ he.symm).elim
  rates := by decide

theorem assocreq_selected_wmm :
    (issueAssocreq station (apWith [wmmElem])).result =
        .sent (request station (apWith [wmmElem]) [wmmElem]) ∧
      (request station (apWith [wmmElem]) [wmmElem]).length ≤ frameRoom ∧
      (issueAssocreq station (apWith [wmmElem])).ies = (apWith [wmmElem]).ies :=
  ((assocreq_selected station _ _ ap_wmm_proper).2.2.2 rfl (by decide)).1
    (fun _ he hwps => by
      obtain rfl := List.mem_singleton.mp he
      exact (Bool.false_ne_true hwps).elim)

/-- An element of WPS is neither sent whole nor left as it was. -/
theorem wps_not_whole :
    Holds (apWith [wpsElem]).ies fixedIes [wpsElem] ∧ selected station wpsElem = true ∧
      (issueAssocreq station (apWith [wpsElem])).result =
        .sent (requestWith station (apWith [wpsElem]) [wpsElem] [cut wpsElem]) ∧
      cut wpsElem ≠ wpsElem ∧
      (issueAssocreq station (apWith [wpsElem])).ies ≠ (apWith [wpsElem]).ies := by
  refine ⟨rfl, rfl, by decide, by decide, fun h => ?_⟩
  have hlength : (issueAssocreq station (apWith [wpsElem])).ies 13 = 15 := by
    rw [h]
    rfl
  revert hlength
  decide

end Rtl8821au.Mlme.AssocReq
