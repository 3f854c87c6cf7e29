import Rtl8821au.Lib.OptionalTail
import Rtl8821au.Mlme.ElemCopy
import Rtl8821au.Recv.Frame

/-!
# Elements for the association request

`rtw_joinbss_cmd` (`rtw_cmd.c`, lines 610–780) as far as it assembles the elements of the network
to join: `rtw_restruct_sec_ie`, `rtw_restruct_wmm_ie`, `rtw_restructure_ht_ie` (`rtw_mlme.c`)
and `rtw_restructure_vht_ie` (`rtw_vht.c`), one behind the other in one buffer. The elements of
the network are the memory they are in, with their length.

* `sec_view`, `extends_wmm`, `extends_ht`, `extends_vht`: what every builder adds.
* `join_view`: what is assembled.
* `joinElements_iff`: when it is well formed.

A PMKID is appended to whatever was stored, not only to an RSN element that ends with its
capabilities; and a network without any element leaves a length of 0 behind when WMM is enabled.
Two locals are read without having been set: `authmode` for an authentication type without
WPA, and `operation_bw` when the network has neither an HT nor a VHT operation element. Their
values are arbitrary.
-/

namespace Rtl8821au.Mlme.JoinIes

open Elements OptionalTail
open ElemCopy (Frame RfType bytes rtwGetIe maxIeSz)
open Recv (Encryption)

/-! ## The settings -/

/-- `enum _NDIS_802_11_AUTHENTICATION_MODE`, with the two values behind it. -/
inductive AuthMode where
  | open
  | shared
  | autoSwitch
  | wpa
  | wpaPsk
  | wpaNone
  | wpa2
  | wpa2Psk
  deriving DecidableEq, Repr

/-- An entry of `PMKIDList`. -/
structure Pmkid where
  bUsed : Bool
  bssid : List UInt8
  pmkid : List UInt8
  length_eq : pmkid.length = 16

/-- `NUM_PMKID_CACHE`. -/
def numPmkidCache : ℕ := 16

/-- What is looked at of the driver and of the network. `underWps` is the WPS element that
    `rtw_set_wpa_ie` stored, if the driver is in `WIFI_UNDER_WPS`; `authmode` and `operationBw`
    are the locals that are not always set. -/
structure Settings where
  ndisauthtype : AuthMode
  authmode : UInt8
  underWps : Option Elem
  underWps_id : ∀ wps ∈ underWps, wps.id = 0xdd
  supplicantIe : Elem
  pmkidList : Fin numPmkidCache → Pmkid
  assocByBssid : Bool
  assocBssid : List UInt8
  macAddress : List UInt8
  wmmEnable : Bool
  dot11PrivacyAlgrthm : Encryption
  rfType : RfType
  cCut : Bool
  beamformer : Bool
  beamformee : Bool
  operationBw : ℕ

/-! ## The buffer -/

/-- `IEs` and `IELength` of `sec_bss`, and the options that are found out on the way. -/
structure Bss where
  ies : ℕ → UInt8
  ieLength : ℕ
  qosOption : Bool
  htOption : Bool
  vhtOption : Bool

/-- The first `IELength` bytes. -/
def Bss.view (o : Bss) : List UInt8 := (List.range o.ieLength).map o.ies

/-- A copy behind the elements. -/
def Bss.put (o : Bss) (bs : List UInt8) : Bss :=
  { o with
    ies := fun k =>
      if o.ieLength ≤ k ∧ k < o.ieLength + bs.length then bs.getD (k - o.ieLength) 0 else o.ies k
    ieLength := o.ieLength + bs.length }

/-- A store to one byte. -/
def Bss.setByte (o : Bss) (i : ℕ) (v : UInt8) : Bss :=
  { o with ies := fun k => if k = i then v else o.ies k }

/-- `rtw_set_ie` at the end (`rtw_ieee80211.c`, lines 148–169). -/
def rtwSetIe (o : Bss) (index : UInt8) (source : List UInt8) : Bss :=
  o.put (index :: UInt8.ofNat source.length :: source)

/-! ## The security element -/

/-- `_WPA_IE_ID_`. -/
def wpaIeId : UInt8 := 0xdd

/-- `_WPA2_IE_ID_`. -/
def wpa2IeId : UInt8 := 0x30

/-- `authmode` of `rtw_restruct_sec_ie`. -/
def authmode (s : Settings) : UInt8 :=
  match s.ndisauthtype with
  | .wpa | .wpaPsk => wpaIeId
  | .wpa2 | .wpa2Psk => wpa2IeId
  | _ => s.authmode

/-- `assoc_bssid` once `rtw_joinbss_cmd` has set it (`rtw_cmd.c`, lines 700–703). -/
def assocBssid (s : Settings) : List UInt8 := if s.assocByBssid then s.assocBssid else s.macAddress

/-- `SecIsInPMKIDList` (`rtw_mlme.c`, lines 2185–2217), the entry in place of its index. -/
def secIsInPMKIDList (s : Settings) (bssid : List UInt8) : Option Pmkid :=
  (List.ofFn s.pmkidList).find? fun p => p.bUsed && p.bssid == bssid

/-- `rtw_append_pmkid` (lines 2227–2246). -/
def rtwAppendPmkid (p : Pmkid) (o : Bss) : Bss :=
  if o.ies 13 ≤ 20 then
    let o' := o.put (1 :: 0 :: p.pmkid)
    o'.setByte 13 (o'.ies 13 + 18)
  else o

/-- `rtw_restruct_sec_ie` (lines 2247–2297). -/
def rtwRestructSecIe (s : Settings) (m : Frame) (o : Bss) : Bss :=
  let o := { o with ieLength := 0 }.put (bytes m 0 12)
  let o :=
    match s.underWps with
    | some wps => o.put wps.encode
    | none =>
      if authmode s = wpaIeId ∨ authmode s = wpa2IeId then o.put s.supplicantIe.encode else o
  match secIsInPMKIDList s (assocBssid s) with
  | none => o
  | some p => if authmode s = wpa2IeId then rtwAppendPmkid p o else o

/-! ## The WMM element -/

/-- A WMM element at `i` (lines 2139). -/
def wmmAt (m : Frame) (inLen i : ℕ) : Bool :=
  m i == 0xdd && m (i + 2) == 0 && m (i + 3) == 0x50 && m (i + 4) == 0xf2 && m (i + 5) == 2 &&
    i + 5 < inLen

/-- The nine bytes of it that are copied, after the stores that follow the copy. -/
def wmmBytes (m : Frame) (i : ℕ) : List UInt8 :=
  (((bytes m i 9).set 1 7).set 6 0).set 8 0

/-- The loop of `rtw_restruct_wmm_ie` (lines 2134–2166). -/
def wmmLoop (m : Frame) (inLen : ℕ) (o : Bss) : ℕ → ℕ → ℕ → (ℕ → UInt8) × ℕ
  | 0, _, ielength => (o.ies, ielength)
  | fuel + 1, i, ielength =>
    if i < inLen then
      if wmmAt m inLen i then ((o.put (wmmBytes m i)).ies, (o.put (wmmBytes m i)).ieLength)
      else wmmLoop m inLen o fuel (i + ((m (i + 1)).toNat + 2)) o.ieLength
    else (o.ies, ielength)

/-- `rtw_restruct_wmm_ie` (lines 2129–2170): the buffer and the length it returns. -/
def rtwRestructWmmIe (m : Frame) (inLen : ℕ) (o : Bss) : (ℕ → UInt8) × ℕ :=
  wmmLoop m inLen o inLen 12 0

/-- Its call (`rtw_cmd.c`, lines 708–726). -/
def joinWmm (s : Settings) (m : Frame) (inLen : ℕ) (o : Bss) : Bss :=
  if s.wmmEnable then
    let r := rtwRestructWmmIe m inLen o
    if o.ieLength ≠ r.2 then { o with ies := r.1, ieLength := r.2, qosOption := true }
    else { o with ies := r.1, qosOption := false }
  else { o with qosOption := false }

/-! ## The HT elements -/

/-- `WMM_IE` of `rtw_restructure_ht_ie`. -/
def wmmIe : List UInt8 := [0x00, 0x50, 0xf2, 0x02, 0x00, 0x01, 0x00]

/-- `ht_capie`. -/
def htCapie (alg : Encryption) : List UInt8 :=
  let capInfo : UInt16 := 0x0002 ||| 0x0020 ||| 0x0040 ||| 0x0080 ||| 0x1000
  capInfo.toUInt8 :: (capInfo >>> 8).toUInt8 ::
    (3 ||| if alg = .aes then 0x1c else 0) :: List.replicate 23 0

/-- `rtw_restructure_ht_ie` (lines 2428–2496). -/
def rtwRestructureHtIe (s : Settings) (m : Frame) (inLen : ℕ) (o : Bss) : Bss :=
  match (rtwGetIe m 12 45 (inLen - 12)).filter fun e => 0 < e.2 with
  | none => { o with htOption := false }
  | some _ =>
    let o := if o.qosOption then o else { rtwSetIe o 0xdd wmmIe with qosOption := true }
    let o := { rtwSetIe o 45 (htCapie s.dot11PrivacyAlgrthm) with htOption := true }
    match (rtwGetIe m 12 61 (inLen - 12)).filter fun e => e.2 = 22 with
    | none => o
    | some e => rtwSetIe o 61 (bytes m (e.1 + 2) e.2)

/-- Its call (`rtw_cmd.c`, lines 728–741). -/
def joinHt (s : Settings) (m : Frame) (inLen : ℕ) (o : Bss) : Bss :=
  if s.dot11PrivacyAlgrthm ≠ .wep40 ∧ s.dot11PrivacyAlgrthm ≠ .wep104 ∧
      s.dot11PrivacyAlgrthm ≠ .tkip then
    rtwRestructureHtIe s m inLen { o with htOption := false }
  else { o with htOption := false }

/-! ## The VHT elements -/

/-- `SET_BITS_TO_LE_1BYTE` (`wifi.h`, lines 2232–2237). -/
def setBits (b : UInt8) (offset len : ℕ) (val : UInt8) : UInt8 :=
  let mask : UInt8 := 0xff >>> UInt8.ofNat (8 - len)
  b &&& ~~~(mask <<< UInt8.ofNat offset) ||| (val &&& mask) <<< UInt8.ofNat offset

/-- What is looked at of `struct vht_priv`, besides `beamform_cap`. -/
structure VhtPriv where
  vhtBwmode : ℕ
  sgi : Bool
  ldpcRx : Bool
  stbcTx : Bool
  stbcRx : Bool
  vhtMcsMap : List UInt8
  vhtHighestRate : ℕ
  deriving DecidableEq, Repr

/-- `rtw_get_vht_highest_rate` (`rtw_vht.c`, lines 59–83), with `MGN_VHT1SS_MCS0` as 0. -/
def rtwGetVhtHighestRate (mcsMap : List UInt8) : ℕ :=
  (List.range 2).foldl (fun rate i =>
    if mcsMap.getD i 0 = 0xff then rate
    else [0, 2, 4, 6].foldl (fun rate j =>
      let bitMap := (mcsMap.getD i 0 >>> UInt8.ofNat j &&& 3).toNat
      if bitMap = 3 then rate else 7 + 10 * j / 2 + i * 40 + bitMap) rate) 0

/-- `rtw_vht_use_default_setting` (`sw.c`, lines 105–180). -/
def rtwVhtUseDefaultSetting (s : Settings) : VhtPriv :=
  let mcsMap : List UInt8 := [if s.rfType = .rf1T1R then 0xfe else 0xfa, 0xff]
  { vhtBwmode := (0x21 &&& 0xf0) >>> 4
    sgi := true
    ldpcRx := s.cCut
    stbcTx := s.rfType = .rf2T2R
    stbcRx := true
    vhtMcsMap := mcsMap
    vhtHighestRate := rtwGetVhtHighestRate mcsMap }

/-- The row of `VHT_MCS_DATA_RATE` for 80 MHz and a short guard interval. -/
def vhtMcsDataRate : List ℕ :=
  [65, 130, 195, 260, 390, 520, 585, 650, 780, 867,
    130, 260, 390, 520, 780, 1040, 1170, 1300, 1560, 1734]

/-- `bool ? 1 : 0`. -/
def bit (b : Bool) : UInt8 := if b then 1 else 0

/-- The capabilities of `rtw_build_vht_cap_ie` (`rtw_vht.c`, lines 386–526). The stores that
    follow a store to the same bits are the ones that stay. -/
def vhtCap (s : Settings) (v : VhtPriv) : List UInt8 :=
  let rxStbc : UInt8 :=
    if v.stbcRx then if s.rfType = .rf2T2R then 2 else if s.rfType = .rf1T1R then 1 else 0 else 0
  let highestRate := (vhtMcsDataRate.getD (v.vhtHighestRate &&& 0x3f) 0 + 1) >>> 1
  let highest : List UInt8 := [UInt8.ofNat highestRate, UInt8.ofNat (highestRate >>> 8 &&& 0x1f)]
  let b0 := setBits (setBits 0 2 2 0) 4 1 (bit v.ldpcRx)
  let b0 := setBits b0 5 1 (bit v.sgi)
  let b0 := if 2 < v.vhtBwmode then setBits b0 6 1 (bit v.sgi) else b0
  let b0 := setBits b0 7 1 (bit v.stbcTx)
  let b1 := setBits (setBits 0 0 3 rxStbc) 3 1 (bit s.beamformer)
  let b1 := setBits (setBits b1 4 1 (bit s.beamformee)) 5 3 1
  let b2 := setBits (setBits 0 0 3 1) 3 1 0
  let b2 := setBits (setBits (setBits b2 4 1 0) 5 1 0) 6 1 1
  -- the exponent 7 of the maximum A-MPDU length is in bits 23 to 25, of two bytes
  let b2 := setBits b2 7 1 1
  let b3 := setBits 0 0 2 3
  -- `SET_VHT_CAPABILITY_ELE_LINK_ADAPTION` takes bits 18 and 19 for 26 and 27
  let b2 := setBits b2 2 2 0
  [b0, b1, b2, b3] ++ v.vhtMcsMap ++ highest ++ v.vhtMcsMap ++ highest

/-- The mode of `rtw_build_vht_op_mode_notify_ie` (lines 359–384). -/
def opmode (s : Settings) (vhtBwmode : ℕ) : UInt8 :=
  let rxNss : UInt8 := if s.rfType = .rf1T1R then 1 else 2
  setBits (setBits (setBits 0 0 2 (UInt8.ofNat vhtBwmode)) 4 3 (rxNss - 1)) 7 1 0

/-- `rtw_restructure_vht_ie` (lines 531–595). -/
def rtwRestructureVhtIe (s : Settings) (m : Frame) (inLen : ℕ) (o : Bss) : Bss :=
  let v := rtwVhtUseDefaultSetting s
  match (rtwGetIe m 12 191 (inLen - 12)).filter fun e => 0 < e.2 with
  | none => o
  | some cap =>
    let supportedChnlWidth := (m (cap.1 + 2) >>> 2 &&& 3).toNat
    let o := rtwSetIe o 191 (vhtCap s v)
    let operationBw :=
      match (rtwGetIe m 12 61 (inLen - 12)).filter fun e => 0 < e.2 with
      | none => s.operationBw
      | some info => if m (info.1 + 3) &&& 4 ≠ 0 then 1 else 0
    let (o, operationBw) :=
      match (rtwGetIe m 12 192 (inLen - 12)).filter fun e => 0 < e.2 with
      | none => (o, operationBw)
      | some op =>
        let operationBw :=
          if 1 ≤ m (op.1 + 2) then
            if supportedChnlWidth = 2 then 4 else if supportedChnlWidth = 1 then 3 else 2
          else operationBw
        (rtwSetIe o 192 (bytes m (op.1 + 2) op.2), operationBw)
    { rtwSetIe o 199 [opmode s (min v.vhtBwmode operationBw)] with vhtOption := true }

/-- Its call (`rtw_cmd.c`, lines 744–748). -/
def joinVht (s : Settings) (m : Frame) (inLen : ℕ) (o : Bss) : Bss :=
  if o.htOption then rtwRestructureVhtIe s m inLen { o with vhtOption := false }
  else { o with vhtOption := false }

/-- `sec_bss` when the network has been copied to it (lines 663–688). -/
def secBss (m : Frame) (inLen : ℕ) : Bss :=
  { ies := fun k => if k < inLen then m k else 0
    ieLength := inLen
    qosOption := false
    htOption := false
    vhtOption := false }

/-- `rtw_joinbss_cmd`, what is assembled for the network with `IEs` at `m`. -/
def rtwJoinbssCmd (s : Settings) (m : Frame) (inLen : ℕ) : Bss :=
  joinVht s m inLen (joinHt s m inLen (joinWmm s m inLen (rtwRestructSecIe s m (secBss m inLen))))

/-! ## Bytes behind the elements -/

variable {s : Settings} {m : Frame} {inLen : ℕ} {o o' o'' : Bss} {bs : List UInt8}

@[simp] theorem view_length (o : Bss) : o.view.length = o.ieLength := by
  rw [Bss.view, List.length_map, List.length_range]

@[simp] theorem bytes_length (m : Frame) (off n : ℕ) : (bytes m off n).length = n := by
  rw [bytes, List.length_map, List.length_range]

theorem put_view (o : Bss) (bs : List UInt8) : (o.put bs).view = o.view ++ bs := by
  have hold : (List.range o.ieLength).map (o.put bs).ies = o.view := by
    refine List.map_congr_left fun k hk => if_neg fun h => ?_
    exact absurd h.1 (Nat.not_le.mpr (List.mem_range.mp hk))
  have hnew : (List.range bs.length).map ((o.put bs).ies ∘ (o.ieLength + ·)) = bs := by
    apply List.ext_getElem
    · rw [List.length_map, List.length_range]
    · intro k _ hk
      rw [List.getElem_map, List.getElem_range, Function.comp_apply]
      show (if _ then _ else _) = _
      rw [if_pos ⟨Nat.le_add_right _ _, Nat.add_lt_add_left hk _⟩, Nat.add_sub_cancel_left,
        List.getD_eq_getElem _ _ hk]
  show (List.range (o.ieLength + bs.length)).map (o.put bs).ies = _
  rw [List.range_add, List.map_append, List.map_map, hold, hnew]

theorem setByte_view (o : Bss) (i : ℕ) (v : UInt8) : (o.setByte i v).view = o.view.set i v := by
  apply List.ext_getElem
  · rw [List.length_set, view_length, view_length]
    rfl
  · intro k hk hk'
    rw [List.getElem_set]
    simp only [Bss.view, List.getElem_map, List.getElem_range]
    show (if k = i then v else o.ies k) = _
    simp only [eq_comm]

theorem ies_of_view (h : o.view = bs) {k : ℕ} (hk : k < bs.length) : o.ies k = bs.getD k 0 := by
  subst h
  rw [List.getD_eq_getElem _ _ hk]
  simp only [Bss.view, List.getElem_map, List.getElem_range]

theorem getIeLoop_lt {index : UInt8} {limit fuel p i : ℕ} {e : ℕ × ℕ}
    (h : ElemCopy.getIeLoop m index limit fuel p i = some e) : e.2 < 256 := by
  induction fuel generalizing p i with
  | zero => exact absurd h (by simp [ElemCopy.getIeLoop])
  | succ fuel ih =>
    simp only [ElemCopy.getIeLoop] at h
    split_ifs at h
    · rw [← Option.some.inj h]
      exact UInt8.toNat_lt _
    · exact ih h

theorem rtwGetIe_lt {start limit : ℕ} {index : UInt8} {e : ℕ × ℕ}
    (h : rtwGetIe m start index limit = some e) : e.2 < 256 := by
  unfold rtwGetIe at h
  split_ifs at h
  exact getIeLoop_lt h

/-- The search for a WMM element ends: as many rounds as the length are enough. -/
theorem wmmLoop_enough {fuel fuel' i ielength : ℕ} (h : inLen < fuel + i)
    (h' : inLen < fuel' + i) :
    wmmLoop m inLen o fuel i ielength = wmmLoop m inLen o fuel' i ielength := by
  induction fuel generalizing fuel' i ielength with
  | zero =>
    cases fuel' with
    | zero => rfl
    | succ fuel' => rw [wmmLoop, wmmLoop, if_neg (by omega)]
  | succ fuel ih =>
    cases fuel' with
    | zero => rw [wmmLoop, wmmLoop, if_neg (by omega)]
    | succ fuel' =>
      simp only [wmmLoop]
      split_ifs
      · rfl
      · exact ih (by omega) (by omega)
      · rfl

/-! ## What the builders add -/

/-- `o'` has elements behind those of `o`, of at most `n` bytes and none with the id of RSN. -/
def Extends (o o' : Bss) (n : ℕ) : Prop :=
  ∃ es, o'.view = o.view ++ encodeAll es ∧ (∀ e ∈ es, e.id ≠ wpa2IeId) ∧
    (encodeAll es).length ≤ n

theorem extends_of_view {n : ℕ} (h : o'.view = o.view) : Extends o o' n := by
  refine ⟨[], ?_, fun _ he => absurd he List.not_mem_nil, Nat.zero_le n⟩
  rw [h, encodeAll_nil, List.append_nil]

theorem Extends.trans {n n' : ℕ} (h : Extends o o' n) (h' : Extends o' o'' n') :
    Extends o o'' (n + n') := by
  obtain ⟨es, hview, hid, hlen⟩ := h
  obtain ⟨es', hview', hid', hlen'⟩ := h'
  refine ⟨es ++ es', ?_, ?_, ?_⟩
  · rw [hview', hview, encodeAll_append, List.append_assoc]
  · intro e he
    exact (List.mem_append.mp he).elim (hid e) (hid' e)
  · rw [encodeAll_append, List.length_append]
    exact Nat.add_le_add hlen hlen'

theorem Extends.mono {n n' : ℕ} (h : Extends o o' n) (hn : n ≤ n') : Extends o o' n' := by
  obtain ⟨es, hview, hid, hlen⟩ := h
  exact ⟨es, hview, hid, Nat.le_trans hlen hn⟩

theorem extends_put {e : Elem} (hid : e.id ≠ wpa2IeId) :
    Extends o (o.put e.encode) (e.data.length + 2) := by
  refine ⟨[e], ?_, fun x hx => ?_, ?_⟩
  · rw [put_view, encodeAll_cons, encodeAll_nil, List.append_nil]
  · rw [List.mem_singleton.mp hx]
    exact hid
  · exact Nat.le_of_eq
      (by rw [encodeAll_cons, encodeAll_nil, List.append_nil, Elem.encode_length])

theorem extends_setIe {source : List UInt8} (index : UInt8) (n : ℕ) (hid : index ≠ wpa2IeId)
    (hlen : source.length = n) (hn : n < 256) : Extends o (rtwSetIe o index source) (n + 2) := by
  subst hlen
  exact extends_put (e := ⟨index, source, hn⟩) hid

/-- The element that the loop copies, with the version that it has. -/
def wmmElem (version : UInt8) : Elem :=
  ⟨0xdd, [0x00, 0x50, 0xf2, 0x02, 0x00, version, 0x00], show 7 < 256 by decide⟩

theorem wmmBytes_eq {i : ℕ} (h : wmmAt m inLen i = true) :
    wmmBytes m i = (wmmElem (m (i + 7))).encode := by
  simp only [wmmAt, Bool.and_eq_true, beq_iff_eq] at h
  obtain ⟨⟨⟨⟨⟨h0, h2⟩, h3⟩, h4⟩, h5⟩, -⟩ := h
  show [m (i + 0), 7, m (i + 2), m (i + 3), m (i + 4), m (i + 5), 0, m (i + 7), 0] = _
  rw [Nat.add_zero, h0, h2, h3, h4, h5]
  rfl

/-- The loop finds nothing, or copies one element. -/
theorem wmmLoop_eq (m : Frame) (inLen : ℕ) (o : Bss) (fuel i : ℕ) :
    wmmLoop m inLen o fuel i o.ieLength = (o.ies, o.ieLength) ∨
      ∃ j, wmmAt m inLen j = true ∧ wmmLoop m inLen o fuel i o.ieLength =
        ((o.put (wmmBytes m j)).ies, (o.put (wmmBytes m j)).ieLength) := by
  induction fuel generalizing i with
  | zero => exact .inl rfl
  | succ fuel ih =>
    rw [wmmLoop]
    split_ifs with hi hw
    · exact .inr ⟨i, hw, rfl⟩
    · exact ih _
    · exact .inl rfl

theorem rtwRestructWmmIe_eq (h : 12 < inLen) :
    rtwRestructWmmIe m inLen o = (o.ies, o.ieLength) ∨
      ∃ j, wmmAt m inLen j = true ∧ rtwRestructWmmIe m inLen o =
        ((o.put (wmmBytes m j)).ies, (o.put (wmmBytes m j)).ieLength) := by
  obtain ⟨fuel, rfl⟩ : ∃ fuel, inLen = fuel + 1 := ⟨inLen - 1, by omega⟩
  rw [rtwRestructWmmIe, wmmLoop, if_pos h]
  split_ifs with hw
  · exact .inr ⟨12, hw, rfl⟩
  · exact wmmLoop_eq m _ o fuel _

/-- Without an element the length that is returned is 0. -/
theorem rtwRestructWmmIe_empty (h : inLen ≤ 12) : rtwRestructWmmIe m inLen o = (o.ies, 0) := by
  rw [rtwRestructWmmIe]
  cases inLen with
  | zero => rfl
  | succ fuel => rw [wmmLoop, if_neg (by omega)]

theorem extends_wmm (h : s.wmmEnable = true → 12 < inLen) :
    Extends o (joinWmm s m inLen o) 9 := by
  unfold joinWmm
  split_ifs with hwmm
  · dsimp only
    obtain hr | ⟨j, hj, hr⟩ := rtwRestructWmmIe_eq (m := m) (o := o) (h hwmm)
    · rw [hr, if_neg (not_not.mpr rfl)]
      exact extends_of_view rfl
    · have hid : (wmmElem (m (j + 7))).id ≠ wpa2IeId := show (0xdd : UInt8) ≠ wpa2IeId by decide
      rw [hr, wmmBytes_eq hj, if_pos]
      · exact extends_put (o := o) hid
      · show o.ieLength ≠ o.ieLength + 9
        exact Nat.ne_of_lt (Nat.lt_add_of_pos_right (Nat.succ_pos 8))
  · exact extends_of_view rfl

theorem htCapie_length (alg : Encryption) : (htCapie alg).length = 26 := rfl

theorem extends_ht : Extends o (joinHt s m inLen o) 61 := by
  unfold joinHt
  split_ifs
  · unfold rtwRestructureHtIe
    cases (rtwGetIe m 12 45 (inLen - 12)).filter fun e => 0 < e.2 with
    | none => exact extends_of_view rfl
    | some e =>
      dsimp only
      have hwmm : Extends o (if o.qosOption then { o with htOption := false }
          else { rtwSetIe { o with htOption := false } 0xdd wmmIe with qosOption := true }) 9 := by
        split_ifs
        · exact extends_of_view rfl
        · exact extends_setIe (o := o) 0xdd 7 (by decide) rfl (by decide)
      have hcap := hwmm.trans (extends_setIe 45 26 (by decide)
        (htCapie_length s.dot11PrivacyAlgrthm) (by decide))
      cases hinfo : (rtwGetIe m 12 61 (inLen - 12)).filter fun e => e.2 = 22 with
      | none => exact hcap.mono (show 9 + 28 ≤ 61 by decide)
      | some info =>
        have h22 : info.2 = 22 := by
          simpa using (Option.filter_eq_some_iff.mp hinfo).2
        exact hcap.trans (extends_setIe 61 22 (by decide) (by rw [bytes_length, h22]) (by decide))
  · exact extends_of_view rfl

theorem vhtCap_length (s : Settings) : (vhtCap s (rtwVhtUseDefaultSetting s)).length = 12 := rfl

theorem extends_vht : Extends o (joinVht s m inLen o) 274 := by
  unfold joinVht
  split_ifs
  · unfold rtwRestructureVhtIe
    dsimp only
    cases (rtwGetIe m 12 191 (inLen - 12)).filter fun e => 0 < e.2 with
    | none => exact extends_of_view rfl
    | some cap =>
      dsimp only
      have hcap : Extends o (rtwSetIe { o with vhtOption := false } 191
          (vhtCap s (rtwVhtUseDefaultSetting s))) 14 :=
        extends_setIe (o := o) 191 12 (by decide) (vhtCap_length s) (by decide)
      cases hop : (rtwGetIe m 12 192 (inLen - 12)).filter fun e => 0 < e.2 with
      | none =>
        exact (hcap.trans (extends_setIe 199 1 (by decide) rfl (by decide))).mono (show 14 + 3 ≤ 274 by decide)
      | some op =>
        have hlt := rtwGetIe_lt (Option.filter_eq_some_iff.mp hop).1
        have hopIe := hcap.trans (extends_setIe 192 op.2
          (by decide) (bytes_length m (op.1 + 2) op.2) hlt)
        refine (hopIe.trans (extends_setIe 199 1 (by decide) rfl (by decide))).mono ?_
        show 14 + (op.2 + 2) + 3 ≤ 274
        omega
  · exact extends_of_view rfl

/-- A network without elements and with WMM: nothing is left, and nothing follows. -/
theorem join_empty (hwmm : s.wmmEnable = true) (h : inLen ≤ 12) :
    (rtwJoinbssCmd s m inLen).ieLength = 0 := by
  have hget (index : UInt8) : rtwGetIe m 12 index (inLen - 12) = none := if_pos (by omega)
  have hwmm0 (o : Bss) : (joinWmm s m inLen o).ieLength = 0 := by
    simp only [joinWmm, if_pos hwmm, rtwRestructWmmIe_empty h]
    split_ifs with h0
    · rfl
    · exact not_not.mp h0
  have hht (o : Bss) : joinHt s m inLen o = { o with htOption := false } := by
    simp only [joinHt, rtwRestructureHtIe, hget, Option.filter_none, ite_self]
  rw [rtwJoinbssCmd, hht]
  exact hwmm0 _

/-! ## The PMKID -/

/-- The element that is copied: of the ioctl layer's two the one that is used. -/
def stored (s : Settings) : Elem := s.underWps.getD s.supplicantIe

/-- The PMKID that is appended, if the length of the element allows it. -/
def cached (s : Settings) : Option Pmkid :=
  if authmode s = wpa2IeId then secIsInPMKIDList s (assocBssid s) else none

/-- A PMKID is appended. -/
def Appended (s : Settings) (p : Pmkid) : Prop :=
  cached s = some p ∧ (stored s).data.length ≤ 20

/-- An element with a PMKID behind its data. -/
def spliced (p : Pmkid) (e : Elem) (h : e.data.length ≤ 20) : Elem :=
  ⟨e.id, e.data ++ 1 :: 0 :: p.pmkid, by
    rw [List.length_append, List.length_cons, List.length_cons, p.length_eq]
    omega⟩

/-- The element with the PMKID, when one is appended. -/
def withPmkid (s : Settings) : Elem :=
  match cached s with
  | none => stored s
  | some p => if h : (stored s).data.length ≤ 20 then spliced p (stored s) h else stored s

/-- The security element, if there is one. -/
def secElems (s : Settings) : List Elem :=
  if s.underWps.isSome ∨ authmode s = wpaIeId ∨ authmode s = wpa2IeId then [withPmkid s] else []

/-- The eighteen bytes of a PMKID, and the length of the element in front of it. -/
theorem rtwAppendPmkid_view {p : Pmkid} {e : Elem} {fixed : List UInt8} (hfixed : fixed.length = 12)
    (ho : o.view = fixed ++ e.encode) :
    (rtwAppendPmkid p o).view =
      fixed ++ Elem.encode (if h : e.data.length ≤ 20 then spliced p e h else e) := by
  have h13 : o.ies 13 = UInt8.ofNat e.data.length := by
    rw [ies_of_view ho (by rw [List.length_append, hfixed, Elem.encode_length]; omega),
      List.getD_append_right _ _ _ _ (by omega), hfixed]
    rfl
  have hle : o.ies 13 ≤ 20 ↔ e.data.length ≤ 20 := by
    rw [UInt8.le_iff_toNat_le, h13, Elem.toNat_length]
    rfl
  unfold rtwAppendPmkid
  by_cases h : e.data.length ≤ 20
  · have hput : (o.put (1 :: 0 :: p.pmkid)).ies 13 = o.ies 13 := by
      refine if_neg fun hin => absurd hin.1 ?_
      rw [← view_length, ho, List.length_append, hfixed, Elem.encode_length]
      omega
    rw [if_pos (hle.mpr h), dif_pos h]
    show ((o.put _).setByte 13 _).view = _
    rw [setByte_view, put_view, ho, hput, h13, List.append_assoc,
      List.set_append_right _ _ (by omega), hfixed]
    have hlen : (spliced p e h).data.length = e.data.length + 18 := by
      show (e.data ++ 1 :: 0 :: p.pmkid).length = _
      rw [List.length_append, List.length_cons, List.length_cons, p.length_eq]
    show fixed ++ e.id :: (UInt8.ofNat e.data.length + 18) :: (e.data ++ 1 :: 0 :: p.pmkid) =
      fixed ++ e.id :: UInt8.ofNat (spliced p e h).data.length :: (e.data ++ 1 :: 0 :: p.pmkid)
    rw [hlen, UInt8.ofNat_add]
    rfl
  · rw [if_neg (mt hle.mp h), dif_neg h]
    exact ho

/-- The search for a PMKID, once the element is in the buffer. -/
theorem pmkid_view (ho : o.view = bytes m 0 12 ++ (stored s).encode) :
    (match secIsInPMKIDList s (assocBssid s) with
      | none => o
      | some p => if authmode s = wpa2IeId then rtwAppendPmkid p o else o).view =
      bytes m 0 12 ++ encodeAll [withPmkid s] := by
  rw [encodeAll_cons, encodeAll_nil, List.append_nil, withPmkid, cached]
  by_cases hauth : authmode s = wpa2IeId
  · rw [if_pos hauth]
    cases secIsInPMKIDList s (assocBssid s) with
    | none => exact ho
    | some p =>
      dsimp only
      rw [if_pos hauth]
      exact rtwAppendPmkid_view (bytes_length m 0 12) ho
  · rw [if_neg hauth]
    cases secIsInPMKIDList s (assocBssid s) with
    | none => exact ho
    | some p =>
      dsimp only
      rw [if_neg hauth]
      exact ho

/-- The 12 fixed bytes and the security element. -/
theorem sec_view (s : Settings) (m : Frame) (o : Bss) :
    (rtwRestructSecIe s m o).view = bytes m 0 12 ++ encodeAll (secElems s) := by
  have hfixed : ({ o with ieLength := 0 }.put (bytes m 0 12)).view = bytes m 0 12 := put_view _ _
  have hcopied (e : Elem) : (({ o with ieLength := 0 }.put (bytes m 0 12)).put e.encode).view =
      bytes m 0 12 ++ e.encode := by
    rw [put_view, hfixed]
  unfold rtwRestructSecIe secElems
  dsimp only
  cases hwps : s.underWps with
  | some wps =>
    have hstored : stored s = wps := by rw [stored, hwps, Option.getD_some]
    rw [if_pos (c := (some wps).isSome = true ∨ _) (.inl rfl)]
    exact pmkid_view (by rw [hcopied, hstored])
  | none =>
    have hstored : stored s = s.supplicantIe := by rw [stored, hwps, Option.getD_none]
    dsimp only
    by_cases hauth : authmode s = wpaIeId ∨ authmode s = wpa2IeId
    · rw [if_pos hauth, if_pos (.inr hauth)]
      exact pmkid_view (by rw [hcopied, hstored])
    · rw [if_neg hauth, if_neg (by simpa using hauth), encodeAll_nil, List.append_nil]
      cases secIsInPMKIDList s (assocBssid s) with
      | none => exact hfixed
      | some p =>
        dsimp only
        rw [if_neg fun h => hauth (.inr h)]
        exact hfixed

/-- What is assembled, when no length is lost. -/
theorem join_view (h : s.wmmEnable = true → 12 < inLen) :
    ∃ es, (rtwJoinbssCmd s m inLen).view = bytes m 0 12 ++ encodeAll (secElems s ++ es) ∧
      (∀ e ∈ es, e.id ≠ wpa2IeId) ∧ (encodeAll es).length ≤ 344 := by
  obtain ⟨es, hview, hid, hlen⟩ :=
    ((extends_wmm (o := rtwRestructSecIe s m (secBss m inLen)) h).trans extends_ht).trans extends_vht
  refine ⟨es, ?_, hid, hlen⟩
  rw [encodeAll_append, ← List.append_assoc, ← sec_view s m (secBss m inLen)]
  exact hview

theorem secElems_length_le (s : Settings) : (encodeAll (secElems s)).length ≤ 257 := by
  unfold secElems
  split_ifs
  · rw [encodeAll_cons, encodeAll_nil, List.append_nil, Elem.encode_length]
    have := (withPmkid s).length_lt
    omega
  · exact Nat.zero_le _

/-! ## RSN elements -/

/-- Version, group cipher, pairwise ciphers, key managements, capabilities, PMKIDs and group
    management cipher. -/
def rsnFields : List Field :=
  [word 2, word 4, counted 4, counted 4, word 2, counted 16, word 4]

theorem rsnFields_local : ∀ f ∈ rsnFields, Local f := by
  intro f hf
  simp only [rsnFields, List.mem_cons, List.not_mem_nil, or_false] at hf
  obtain rfl | rfl | rfl | rfl | rfl | rfl | rfl := hf
  any_goals exact local_word _
  all_goals exact local_counted _

variable {t : List UInt8} {fs : List Field} {f : Field}

/-- A first field that does not hold the PMKID alone. -/
theorem decode_ne (ht : ∀ ws rest, f (1 :: 0 :: t) = some (ws, rest) → ws ≠ [t]) :
    decode (f :: fs) (1 :: 0 :: t) ≠ some [[t]] := by
  intro h
  obtain ⟨w, rest, ws', hf, -, hw⟩ := decode_cons_some (List.cons_ne_nil _ _) h
  exact ht w rest hf (List.cons.inj hw).1.symm

theorem decode_word_ne {k : ℕ} (ht : t.length = 16) (hk : k < 16) :
    decode (word k :: fs) (1 :: 0 :: t) ≠ some [[t]] := by
  refine decode_ne fun ws rest h hws => ?_
  unfold word at h
  split_ifs at h
  have hlen := congrArg List.length (List.cons.inj ((Prod.mk.inj (Option.some.inj h)).1.trans hws)).1
  rw [List.length_take, ht] at hlen
  omega

theorem decode_counted_ne {k : ℕ} (ht : t.length = 16) (hk : k < 16) :
    decode (counted k :: fs) (1 :: 0 :: t) ≠ some [[t]] := by
  refine decode_ne fun ws rest h hws => ?_
  simp only [counted] at h
  split_ifs at h
  have hlen := congrArg List.length (List.cons.inj ((Prod.mk.inj (Option.some.inj h)).1.trans hws)).1
  rw [List.length_take, ht] at hlen
  omega

/-- One PMKID reads as such only where the capabilities end. -/
theorem decode_pmkid_iff {n : ℕ} (ht : t.length = 16) :
    decode (rsnFields.drop n) (1 :: 0 :: t) = some [[t]] ↔ n = 5 := by
  constructor
  · intro h
    match n, h with
    | 0, h => exact absurd h (decode_word_ne ht (by decide))
    | 1, h => exact absurd h (decode_word_ne ht (by decide))
    | 2, h => exact absurd h (decode_counted_ne ht (by decide))
    | 3, h => exact absurd h (decode_counted_ne ht (by decide))
    | 4, h => exact absurd h (decode_word_ne ht (by decide))
    | 5, _ => rfl
    | 6, h => exact absurd h (decode_word_ne ht (by decide))
    | n + 7, h =>
      have hnil : rsnFields.drop (n + 7) = [] := List.drop_eq_nil_of_le (Nat.le_add_left 7 n)
      rw [hnil] at h
      exact absurd h nofun
  · rintro rfl
    have hf : counted 16 (1 :: 0 :: t) = some ([t], []) := by
      show (if 1 * 16 ≤ t.length then some (words 16 1 t, t.drop 16) else none) = _
      rw [if_pos (Nat.le_of_eq ht.symm), List.drop_eq_nil_of_le (Nat.le_of_eq ht)]
      show some ([t.take 16], _) = _
      rw [List.take_of_length_le (Nat.le_of_eq ht)]
    exact (decode_cons (List.cons_ne_nil _ _) hf).trans rfl

/-- What the element with the PMKID decodes to. -/
theorem decode_spliced_iff {p : Pmkid} {d : List UInt8} {fields : List (List (List UInt8))}
    (h : decode rsnFields d = some fields) :
    decode rsnFields (d ++ 1 :: 0 :: p.pmkid) = some (fields ++ [[p.pmkid]]) ↔
      fields.length = 5 := by
  rw [decode_append rsnFields_local h, ← decode_pmkid_iff p.length_eq]
  constructor
  · intro heq
    obtain ⟨ws, hws, happ⟩ := Option.map_eq_some_iff.mp heq
    rw [hws, List.append_cancel_left happ]
  · intro heq
    rw [heq, Option.map_some]

/-! ## Whole elements -/

/-- The 12 fixed bytes and whole elements; and with a PMKID, the RSN element of the supplicant
    with this one PMKID. -/
def WellFormed (s : Settings) (m : Frame) (o : Bss) : Prop :=
  o.ieLength ≤ maxIeSz ∧ ∃ es, o.view = bytes m 0 12 ++ encodeAll es ∧
    ∀ p, Appended s p → ∃ fields, decode rsnFields s.supplicantIe.data = some fields ∧
      ∃ e ∈ es, e.id = wpa2IeId ∧ decode rsnFields e.data = some (fields ++ [[p.pmkid]])

/-- The stored element is an RSN element that ends with its capabilities. -/
def EndsWithCapabilities (s : Settings) : Prop :=
  s.underWps = none ∧ s.supplicantIe.id = wpa2IeId ∧
    ∃ fields, decode rsnFields s.supplicantIe.data = some fields ∧ fields.length = 5

theorem withPmkid_of_appended {p : Pmkid} (h : Appended s p) :
    secElems s = [spliced p (stored s) h.2] := by
  have hauth : authmode s = wpa2IeId := by
    by_contra hne
    have hcached := h.1
    rw [cached, if_neg hne] at hcached
    exact absurd hcached nofun
  have hwith : withPmkid s = spliced p (stored s) h.2 := by
    unfold withPmkid
    split
    · next hnone => exact absurd (hnone.symm.trans h.1) nofun
    · next q hq =>
      obtain rfl := Option.some.inj (hq.symm.trans h.1)
      exact dif_pos h.2
  rw [secElems, if_pos (.inr (.inr hauth)), hwith]

/-- The PMKID behind the element that was stored. -/
theorem spliced_iff {p : Pmkid} {es : List Elem} (h : Appended s p)
    (hes : ∀ e ∈ es, e.id ≠ wpa2IeId) :
    (∃ fields, decode rsnFields s.supplicantIe.data = some fields ∧
      ∃ e ∈ secElems s ++ es, e.id = wpa2IeId ∧
        decode rsnFields e.data = some (fields ++ [[p.pmkid]])) ↔ EndsWithCapabilities s := by
  rw [withPmkid_of_appended h]
  constructor
  · rintro ⟨fields, hfields, e, he, hid, hdecode⟩
    obtain rfl : e = spliced p (stored s) h.2 := by
      rcases List.mem_append.mp he with he | he
      · exact List.mem_singleton.mp he
      · exact absurd hid (hes e he)
    have hwps : s.underWps = none := by
      cases hwps : s.underWps with
      | none => rfl
      | some wps =>
        have hstored : stored s = wps := by rw [stored, hwps, Option.getD_some]
        have hvendor := s.underWps_id wps hwps
        rw [← hstored] at hvendor
        exact absurd (hvendor.symm.trans hid) (by decide)
    have hstored : stored s = s.supplicantIe := by rw [stored, hwps, Option.getD_none]
    have hid' : s.supplicantIe.id = wpa2IeId := by
      rw [← hstored]
      exact hid
    refine ⟨hwps, hid', fields, hfields, ?_⟩
    have hdata : (spliced p (stored s) h.2).data = s.supplicantIe.data ++ 1 :: 0 :: p.pmkid := by
      rw [← hstored]
      rfl
    rw [hdata] at hdecode
    exact (decode_spliced_iff hfields).mp hdecode
  · rintro ⟨hwps, hid, fields, hfields, hfive⟩
    have hstored : stored s = s.supplicantIe := by rw [stored, hwps, Option.getD_none]
    have hid' : (stored s).id = wpa2IeId := hstored ▸ hid
    have hdata : (spliced p (stored s) h.2).data = s.supplicantIe.data ++ 1 :: 0 :: p.pmkid := by
      rw [← hstored]
      rfl
    refine ⟨fields, hfields, _, List.mem_append_left _ (List.mem_singleton_self _), hid', ?_⟩
    rw [hdata]
    exact (decode_spliced_iff hfields).mpr hfive

/-- Where a length is lost, the fixed bytes are lost with it. -/
theorem not_wellFormed_of_empty (h : o.ieLength = 0) : ¬ WellFormed s m o := by
  rintro ⟨-, es, hview, -⟩
  have hlen := congrArg List.length hview
  rw [view_length, h, List.length_append, bytes_length] at hlen
  omega

theorem wellFormed_iff_of_view (h : s.wmmEnable = true → 12 < inLen) :
    WellFormed s m (rtwJoinbssCmd s m inLen) ↔ ∀ p, Appended s p → EndsWithCapabilities s := by
  obtain ⟨es, hview, hid, hlen⟩ := join_view (m := m) h
  constructor
  · rintro ⟨-, es', hview', hpmkid⟩ p hp
    obtain rfl : es' = secElems s ++ es :=
      encodeAll_injective (List.append_cancel_left (hview'.symm.trans hview))
    exact (spliced_iff hp hid).mp (hpmkid p hp)
  · intro hends
    refine ⟨?_, secElems s ++ es, hview, fun p hp => (spliced_iff hp hid).mpr (hends p hp)⟩
    have hsec := secElems_length_le s
    rw [← view_length, hview, List.length_append, bytes_length, encodeAll_append,
      List.length_append, maxIeSz]
    omega

/-- The elements are whole, and a PMKID is where it belongs, when the network has an element or
    WMM is off, and a PMKID is appended to nothing but an RSN element that ends with its
    capabilities. -/
theorem joinElements_iff (s : Settings) (m : Frame) (inLen : ℕ) :
    WellFormed s m (rtwJoinbssCmd s m inLen) ↔
      (s.wmmEnable = true → 12 < inLen) ∧ ∀ p, Appended s p → EndsWithCapabilities s := by
  by_cases h : s.wmmEnable = true → 12 < inLen
  · rw [wellFormed_iff_of_view h]
    exact ⟨fun hends => ⟨h, hends⟩, And.right⟩
  · obtain ⟨hwmm, hle⟩ := Classical.not_imp.mp h
    refine ⟨fun hwf => absurd hwf (not_wellFormed_of_empty ?_), fun hcond => absurd hcond.1 h⟩
    exact join_empty hwmm (Nat.not_lt.mp hle)

/-! ## An element without capabilities -/

theorem nameA_lt : [(0x61 : UInt8)].length < 256 := by decide

/-- A network with the name `a`. -/
def network : List UInt8 := List.replicate 12 0 ++ encodeAll [⟨0, [0x61], nameA_lt⟩]

/-- Version 1, CCMP, CCMP, PSK. -/
def shortRsn : Elem :=
  ⟨0x30, [1, 0, 0, 0x0f, 0xac, 4, 1, 0, 0, 0x0f, 0xac, 4, 1, 0, 0, 0x0f, 0xac, 2], by decide⟩

/-- A PMKID in the cache, and the short element of the supplicant. -/
def shortSettings : Settings where
  ndisauthtype := .wpa2Psk
  authmode := 0
  underWps := none
  underWps_id := nofun
  supplicantIe := shortRsn
  pmkidList := fun _ => ⟨true, [2, 0, 0, 0, 0, 1], List.replicate 16 7, rfl⟩
  assocByBssid := false
  assocBssid := []
  macAddress := [2, 0, 0, 0, 0, 1]
  wmmEnable := true
  dot11PrivacyAlgrthm := .aes
  rfType := .rf1T1R
  cCut := false
  beamformer := false
  beamformee := false
  operationBw := 0

/-- The PMKID count is read as the capabilities, and the PMKID as a count. -/
theorem pmkid_read_as_capabilities :
    ¬ WellFormed shortSettings (network.getD · 0)
      (rtwJoinbssCmd shortSettings (network.getD · 0) network.length) := by
  rw [wellFormed_iff_of_view fun _ => by decide]
  intro hends
  obtain ⟨-, -, fields, hfields, hfive⟩ :=
    hends ⟨true, [2, 0, 0, 0, 0, 1], List.replicate 16 7, rfl⟩ ⟨rfl, by decide⟩
  have hfour : decode rsnFields shortRsn.data = some
      [[[1, 0]], [[0, 0x0f, 0xac, 4]], [[0, 0x0f, 0xac, 4]], [[0, 0x0f, 0xac, 2]]] := by decide
  obtain rfl := Option.some.inj (hfields.symm.trans hfour)
  exact absurd hfive (by decide)

end Rtl8821au.Mlme.JoinIes
