import Rtl8821au.Lib.Area
import Rtl8821au.Mlme.BssInfo
import Rtl8821au.Mlme.IeLookup
import Rtl8821au.Mlme.SecIe

/-!
# A scan result for user space

`translate_scan` (`ioctl_linux.c`, lines 261–518), as far as it looks at the rates and at the
elements: the name of the protocol, the text with the rates, the dumps of the WPA and the RSN
element and the walk over the WPS elements, with `rtw_get_sec_ie` and `rtw_is_wps_ie`
(`rtw_ieee80211.c`, lines 743–824). Reads are checked against the sixteen rates and against the
`IELength` bytes of the elements, writes against the buffers on the stack.

* `secLoop_spec`: how the walk over the security elements ends.
* `hexLoop_ok`, `hexLoop_beyond`: the dump of an element, by its length.
* `wpsLoop_spec`: the walk over the WPS elements.
* `translateScan_inside_iff`: when the function stays inside, for every scan result.

**What goes wrong.** Sixteen rates have no zero behind them, the dump has room for elements of
up to 124 bytes, elements may have 257, and no length is compared with what is left.

What the HT and VHT capabilities say is a parameter, the events that depend on neither are left
out. `snprintf` and `iwe_stream_add_point` are the kernel's.
-/

namespace Rtl8821au.Mlme.TranslateScan

open Checked Elements
open IeLookup (matchAt wpsOui OuiInside OuiSame Passes)
open BssInfo (RecvFrame WlanBssidEx collectBssInfo maxIeSz fixedIeLength)

/-! ## Model -/

/-- `MAX_CUSTOM_LEN`, `MAX_WPA_IE_LEN`, and the size of `wpa_ie` and `rsn_ie`. -/
def maxCustomLen : ℕ := 64
def maxWpaIeLen : ℕ := 256
def secIeLen : ℕ := 255

/-- The bytes of a text, without the last zero. -/
def text (s : String) : List UInt8 := s.toList.map fun c => UInt8.ofNat c.toNat

/-- `snprintf(p, MAX_CUSTOM_LEN - (p - custom), ...)`, with `p` as an offset: a negative size is
    refused with 0, otherwise the length of the whole text is returned. -/
def snprintf (custom : Area maxCustomLen) (p : ℕ) (s : List UInt8) :
    Except Fault (Area maxCustomLen × ℕ) :=
  if maxCustomLen < p then .ok (custom, 0)
  else if p = maxCustomLen then .ok (custom, s.length)
  else do
    let custom ← custom.copyIn p (s.take (maxCustomLen - p - 1) ++ [0])
    .ok (custom, s.length)

/-- `custom`, `p` in it, and `max_rate`. -/
structure RateText where
  custom : Area maxCustomLen
  p : ℕ
  maxRate : ℕ

/-- The text of a rate. -/
def rateText (rate : ℕ) : List UInt8 :=
  text (toString (rate >>> 1) ++ (if rate % 2 = 1 then ".5" else "") ++ " ")

/-- `while (pnetwork->network.SupportedRates[i] != 0)` (lines 387–395). -/
def rateLoop (rates : List UInt8) : ℕ → ℕ → RateText → Except Fault RateText
  | 0, _, _ => .error .timeout
  | fuel + 1, i, s => do
    let r ← readByte rates i
    if r = 0 then .ok s
    else do
      let rate := (r &&& 0x7f).toNat
      let out ← snprintf s.custom s.p (rateText rate)
      rateLoop rates fuel (i + 1) ⟨out.1, s.p + out.2, max s.maxRate rate⟩

/-- The text with the rates (lines 383–395). -/
def addRates (rates : List UInt8) : Except Fault RateText := do
  let out ← snprintf (.zero maxCustomLen) 0 (text " Rates (Mb/s): ")
  rateLoop rates (rates.length + 1) 0 ⟨out.1, out.2, 0⟩

/-- `while(rate[i]!=0)`, which is left at the first rate that `stops` it. -/
def cckLoop (stops : UInt8 → Bool) (rates : List UInt8) : ℕ → ℕ → Except Fault Bool
  | 0, _ => .error .timeout
  | fuel + 1, i => do
    let r ← readByte rates i
    if r = 0 then .ok false
    else if stops r then .ok true
    else cckLoop stops rates fuel (i + 1)

def isCck (r : UInt8) : Bool := [2, 4, 11, 22].contains (r &&& 0x7f)

/-- `rtw_is_cckrates_included` and `rtw_is_cckratesonly_included` (`rtw_ieee80211.c`,
    lines 84–116). -/
def rtwIsCckratesIncluded (rates : List UInt8) : Except Fault Bool :=
  cckLoop isCck rates (rates.length + 1) 0

def rtwIsCckratesonlyIncluded (rates : List UInt8) : Except Fault Bool := do
  let other ← cckLoop (fun r => !isCck r) rates (rates.length + 1) 0
  .ok (!other)

/-- The name of the protocol (lines 329–357). -/
def protocolName (htCap vhtCap : Bool) (dsConfig : ℕ) (rates : List UInt8) :
    Except Fault String := do
  let only ← rtwIsCckratesonlyIncluded rates
  if only then .ok (if htCap then "IEEE 802.11bn" else "IEEE 802.11b")
  else do
    let included ← rtwIsCckratesIncluded rates
    if included then .ok (if htCap then "IEEE 802.11bgn" else "IEEE 802.11bg")
    else if 14 < dsConfig then
      .ok (if vhtCap then "IEEE 802.11AC" else if htCap then "IEEE 802.11an" else "IEEE 802.11a")
    else .ok (if htCap then "IEEE 802.11gn" else "IEEE 802.11g")

/-- `sec_ie` and `*sec_len`. -/
structure SecBuf where
  ie : Area secIeLen
  len : ℕ

/-- An element that was found is copied (lines 761–769 and 775–783). The counter of the loop behind
    the copy has 32 values (`SecIe.dumpLoop_iff`). -/
def takeSec (f : List UInt8) (cnt : ℕ) (out : SecBuf) : Except Fault SecBuf := do
  let len ← readByte f (cnt + 1)
  let bytes ← readBytes f cnt (len.toNat + 2)
  let ie ← out.ie.copyIn 0 bytes
  match SecIe.dumpLoop (len.toNat + 2) 32 0 with
  | none => .error .timeout
  | some () => .ok ⟨ie, len.toNat + 2⟩

/-- `while(cnt<in_len)` of `rtw_get_sec_ie`. -/
def secLoop (f : List UInt8) (inLen : ℕ) : ℕ → ℕ → SecBuf → SecBuf →
    Except Fault (SecBuf × SecBuf)
  | 0, _, _, _ => .error .timeout
  | fuel + 1, cnt, rsn, wpa =>
    if cnt < inLen then do
      let authmode ← readByte f cnt
      let isWpa ← matchAt f 221 (some SecIe.wpaOui) authmode cnt
      if isWpa then do
        let wpa ← takeSec f cnt wpa
        secLoop f inLen fuel (cnt + wpa.len) rsn wpa
      else if authmode = 48 then do
        let rsn ← takeSec f cnt rsn
        secLoop f inLen fuel (cnt + rsn.len) rsn wpa
      else do
        let len ← readByte f (cnt + 1)
        secLoop f inLen fuel (cnt + (len.toNat + 2)) rsn wpa
    else .ok (rsn, wpa)

/-- `rtw_get_sec_ie` for buffers that are not NULL. -/
def rtwGetSecIe (f : List UInt8) (inLen : ℕ) (rsn wpa : SecBuf) : Except Fault (SecBuf × SecBuf) :=
  secLoop f inLen (f.length + 1) fixedIeLength rsn wpa

/-- The events that are modelled. -/
inductive Cmd where
  | custom
  | genie
  deriving DecidableEq, Repr

structure Event where
  cmd : Cmd
  bytes : List UInt8
  deriving DecidableEq, Repr

/-- What is left between `start` and `stop`, and the events in front. -/
structure Stream where
  left : ℕ
  events : List Event
  deriving DecidableEq, Repr

/-- `iwe_stream_add_point` with `n` bytes, which are read if there is room. -/
def addPoint (pointLen : ℕ) (s : Stream) (cmd : Cmd) (f : List UInt8) (off n : ℕ) :
    Except Fault Stream :=
  if pointLen + n < s.left then do
    let bytes ← readBytes f off n
    .ok ⟨s.left - (pointLen + n), s.events ++ [Event.mk cmd bytes]⟩
  else .ok s

/-- `"%02x"`. -/
def hexText (b : UInt8) : List UInt8 :=
  [b >>> 4, b &&& 0xf].map fun d => if d < 10 then 0x30 + d else 0x57 + d

/-- `p += sprintf(p, "%02x", ie[i])` for `n` bytes from the `i`-th on. -/
def hexLoop (ie : List UInt8) : ℕ → ℕ → Area maxWpaIeLen → ℕ → Except Fault (Area maxWpaIeLen)
  | 0, _, buf, _ => .ok buf
  | n + 1, i, buf, p => do
    let b ← readByte ie i
    let buf ← buf.copyIn p (hexText b ++ [0])
    hexLoop ie n (i + 1) buf (p + 2)

/-- `strlen` of a buffer. -/
def strlen (buf : List UInt8) : Except Fault ℕ :=
  if 0 ∈ buf then .ok (buf.idxOf 0) else .error .beyond

/-- The two events for an element (lines 427–444 and 446–462). -/
def reportSec (pointLen : ℕ) (name : List UInt8) (out : SecBuf) (s : Stream) :
    Except Fault Stream :=
  if out.len = 0 then .ok s
  else do
    let buf ← (Area.zero maxWpaIeLen).copyIn 0 (name ++ [0])
    let buf ← hexLoop out.ie.bytes out.len 0 buf name.length
    let n ← strlen buf.bytes
    let s ← addPoint pointLen s .custom buf.bytes 0 n
    addPoint pointLen s .genie out.ie.bytes 0 out.len

/-- A WPS element (lines 475–480), with `rtw_is_wps_ie`. -/
def reportWps (pointLen : ℕ) (f : List UInt8) (cnt : ℕ) (s : Stream) : Except Fault Stream := do
  let eid ← readByte f cnt
  let isWps ← matchAt f 221 (some wpsOui) eid cnt
  if isWps then do
    let len ← readByte f (cnt + 1)
    if 2 < len.toNat + 2 then addPoint pointLen s .genie f cnt (len.toNat + 2) else .ok s
  else .ok s

/-- `while (cnt < total_ielen)` (lines 473–483). -/
def wpsLoop (pointLen : ℕ) (f : List UInt8) (total : ℕ) : ℕ → ℕ → Stream → Except Fault Stream
  | 0, _, _ => .error .timeout
  | fuel + 1, cnt, s =>
    if cnt < total then do
      let s ← reportWps pointLen f cnt s
      let len ← readByte f (cnt + 1)
      wpsLoop pointLen f total fuel (cnt + (len.toNat + 2)) s
    else .ok s

/-- The room that is left for the elements, the length of the kernel's events, and what the
    capabilities say. -/
structure Env where
  left : ℕ
  pointLen : ℕ
  htCap : Bool
  vhtCap : Bool

/-- The name, `max_rate` without the capabilities, and the events. -/
structure Report where
  name : String
  maxRate : ℕ
  events : List Event
  deriving DecidableEq, Repr

/-- The elements (lines 413–484). -/
def reportElements (e : Env) (b : WlanBssidEx) : Except Fault Stream := do
  let sec ← rtwGetSecIe b.body b.ieLength ⟨.zero secIeLen, 0⟩ ⟨.zero secIeLen, 0⟩
  let s ← reportSec e.pointLen (text "wpa_ie=") sec.2 ⟨e.left, []⟩
  let s ← reportSec e.pointLen (text "rsn_ie=") sec.1 s
  wpsLoop e.pointLen b.elements (wrapSub b.ieLength fixedIeLength) (b.elements.length + 1) 0 s

/-- `translate_scan`. -/
def translateScan (e : Env) (b : WlanBssidEx) : Except Fault Report := do
  let name ← protocolName e.htCap e.vhtCap b.dsConfig b.supportedRates.bytes
  let rates ← addRates b.supportedRates.bytes
  let s ← reportElements e b
  .ok ⟨name, rates.maxRate, s.events⟩

/-! ## When it stays inside -/

/-- A record in the queue: `get_WLAN_BSSID_EX_sz` bytes of one that was made of a frame. What the
    radio has measured, and what is behind the elements, may be another's. -/
structure ScanResult where
  frame : RecvFrame
  operCh : UInt8
  collected : WlanBssidEx
  accepted : collectBssInfo frame operCh = .ok (some collected)
  record : WlanBssidEx
  rates_eq : record.supportedRates = collected.supportedRates
  ieLength_eq : record.ieLength = collected.ieLength
  body_eq : record.body = collected.body

/-- Whatever room the caller has left, nothing is read or written outside. -/
def Right (s : ScanResult) : Prop := ∀ e : Env, translateScan e s.record ≠ .error .beyond

/-- The search takes the element, followed by `rest`, for one of WPA, or it is one of RSN. -/
def IsWpa (x : Elem) (rest : List UInt8) : Prop :=
  x.id = 221 ∧ OuiSame (some SecIe.wpaOui) (x.data ++ rest)

def IsRsn (x : Elem) (_ : List UInt8) : Prop := x.id = 48

/-- It is copied, and the loop behind the copy does not end. -/
def Halts (x : Elem) (rest : List UInt8) : Prop :=
  (IsWpa x rest ∨ IsRsn x rest) ∧ 248 < x.encode.length

/-- The comparison is inside, and what is copied has room in its buffer. -/
def ElemFits (x : Elem) (rest : List UInt8) : Prop :=
  (x.id = 221 → OuiInside (some SecIe.wpaOui) (x.data ++ rest)) ∧
    (IsWpa x rest ∨ IsRsn x rest → x.encode.length ≤ secIeLen)

/-- Nothing is left behind the elements, or a header that is neither RSN nor WPA, where the
    comparison is inside. -/
def StumpFits : List UInt8 → Prop
  | [] => True
  | [_] => False
  | id :: _ :: rest => id ≠ 48 ∧ Passes 221 (some SecIe.wpaOui) id rest

/-- All elements fit, or those up to one at which the walk halts. -/
def WalkFits (t : List UInt8) : List Elem → Prop
  | [] => StumpFits t
  | x :: es => ElemFits x (encodeAll es ++ t) ∧ (Halts x (encodeAll es ++ t) ∨ WalkFits t es)

def Stuck (t : List UInt8) : List Elem → Prop
  | [] => False
  | x :: es => Halts x (encodeAll es ++ t) ∨ Stuck t es

/-- The length of the last element of a kind, `n` if there is none. -/
def lastLen (kind : Elem → List UInt8 → Prop) [∀ x rest, Decidable (kind x rest)] (t : List UInt8) :
    List Elem → ℕ → ℕ
  | [], n => n
  | x :: es, n => lastLen kind t es (if kind x (encodeAll es ++ t) then x.encode.length else n)

instance (o : List UInt8) (d : List UInt8) : Decidable (OuiSame (some o) d) :=
  decidable_of_iff (d.take o.length = o)
    ⟨fun h _ ho' => Option.some.inj ho' ▸ h, fun h => h o rfl⟩

instance (x : Elem) (rest : List UInt8) : Decidable (IsWpa x rest) :=
  inferInstanceAs (Decidable (_ ∧ _))

instance (x : Elem) (rest : List UInt8) : Decidable (IsRsn x rest) :=
  inferInstanceAs (Decidable (x.id = 48))

/-- A WPS element of which the end is missing. -/
def WpsStump (t : List UInt8) : Prop :=
  ∃ len rest, t = 221 :: len :: rest ∧ OuiSame (some wpsOui) rest

/-- What the walks come to, in the elements `es` and the stump `t`. -/
structure ElementsFit (es : List Elem) (t : List UInt8) : Prop where
  walk : WalkFits t es
  wpa : ¬ Stuck t es → lastLen IsWpa t es 0 ≤ 124
  rsn : ¬ Stuck t es → lastLen IsRsn t es 0 ≤ 124
  wps : ¬ Stuck t es → ¬ WpsStump t

/-- One of the rates is zero, and the elements fit. -/
structure Fits (s : ScanResult) : Prop where
  rates : 0 ∈ s.record.supportedRates.bytes
  elements : ElementsFit (parse s.record.elements).1 (parse s.record.elements).2

/-! ## The rates -/

section rates

variable {rates : List UInt8} {fuel i k : ℕ}

theorem snprintf_fine (custom : Area maxCustomLen) (p : ℕ) (s : List UInt8) :
    Fine (snprintf custom p s) := by
  rw [snprintf]
  by_cases hlt : maxCustomLen < p
  · rw [if_pos hlt]
    exact fine_ok _
  · rw [if_neg hlt]
    by_cases heq : p = maxCustomLen
    · rw [if_pos heq]
      exact fine_ok _
    · have hroom : p + (s.take (maxCustomLen - p - 1) ++ [0]).length ≤ maxCustomLen := by
        rw [List.length_append, List.length_take, List.length_singleton]
        omega
      rw [if_neg heq, Area.copyIn_of_le _ hroom]
      exact fine_ok _

/-- The loop ends at the first zero. -/
theorem rateLoop_fine (hk : k < rates.length) (hz : rates.getD k 0 = 0) (hik : i ≤ k)
    (hfuel : rates.length < i + fuel) (s : RateText) : Fine (rateLoop rates fuel i s) := by
  induction fuel generalizing i s with
  | zero => omega
  | succ fuel ih =>
    rw [rateLoop, readByte_of_lt (by omega), bind_ok]
    by_cases hr : rates.getD i 0 = 0
    · rw [if_pos hr]
      exact fine_ok _
    · have hne : i ≠ k := fun h => hr (h ▸ hz)
      obtain ⟨out, hout⟩ := snprintf_fine s.custom s.p (rateText (rates.getD i 0 &&& 0x7f).toNat)
      rw [if_neg hr]
      simp only [hout, bind_ok]
      exact ih (by omega) (by omega) _

/-- Without one it comes to the end of the rates. -/
theorem rateLoop_beyond (hne : ∀ k, i ≤ k → k < rates.length → rates.getD k 0 ≠ 0)
    (hi : i ≤ rates.length) (hfuel : rates.length < i + fuel) (s : RateText) :
    rateLoop rates fuel i s = .error .beyond := by
  induction fuel generalizing i s with
  | zero => omega
  | succ fuel ih =>
    rw [rateLoop]
    rcases Nat.lt_or_eq_of_le hi with hlt | rfl
    · obtain ⟨out, hout⟩ := snprintf_fine s.custom s.p (rateText (rates.getD i 0 &&& 0x7f).toNat)
      rw [readByte_of_lt hlt, bind_ok, if_neg (hne i (Nat.le_refl i) hlt)]
      simp only [hout, bind_ok]
      exact ih (fun k hk => hne k (by omega)) hlt (by omega) _
    · rw [readByte_of_le (Nat.le_refl _), bind_error]

theorem mem_zero_iff : 0 ∈ rates ↔ ∃ k, k < rates.length ∧ rates.getD k 0 = 0 := by
  rw [List.mem_iff_getElem]
  constructor
  · rintro ⟨k, hk, hz⟩
    exact ⟨k, hk, by rw [List.getD_eq_getElem _ _ hk, hz]⟩
  · rintro ⟨k, hk, hz⟩
    exact ⟨k, hk, by rw [← List.getD_eq_getElem _ 0 hk, hz]⟩

theorem addRates_fine (h : 0 ∈ rates) : Fine (addRates rates) := by
  obtain ⟨out, hout⟩ := snprintf_fine (.zero maxCustomLen) 0 (text " Rates (Mb/s): ")
  rw [addRates, hout, bind_ok]
  obtain ⟨k, hk, hz⟩ := mem_zero_iff.mp h
  exact rateLoop_fine hk hz (Nat.zero_le k) (by omega) _

theorem addRates_beyond (h : 0 ∉ rates) : addRates rates = .error .beyond := by
  obtain ⟨out, hout⟩ := snprintf_fine (.zero maxCustomLen) 0 (text " Rates (Mb/s): ")
  rw [addRates, hout, bind_ok]
  exact rateLoop_beyond (fun k _ hlt hz => h (mem_zero_iff.mpr ⟨k, hlt, hz⟩))
    (Nat.zero_le _) (by omega) _

/-- The loops over the rates for the name end earlier, or at the same place. -/
theorem cckLoop_fine (stops : UInt8 → Bool) (hk : k < rates.length) (hz : rates.getD k 0 = 0)
    (hik : i ≤ k) (hfuel : rates.length < i + fuel) : Fine (cckLoop stops rates fuel i) := by
  induction fuel generalizing i with
  | zero => omega
  | succ fuel ih =>
    rw [cckLoop, readByte_of_lt (by omega), bind_ok]
    by_cases hr : rates.getD i 0 = 0
    · rw [if_pos hr]
      exact fine_ok _
    · have hne : i ≠ k := fun h => hr (h ▸ hz)
      rw [if_neg hr]
      split_ifs
      · exact fine_ok _
      · exact ih (by omega) (by omega)

theorem cckLoop_cases (stops : UInt8 → Bool) (hi : i ≤ rates.length)
    (hfuel : rates.length < i + fuel) :
    Fine (cckLoop stops rates fuel i) ∨ cckLoop stops rates fuel i = .error .beyond := by
  induction fuel generalizing i with
  | zero => omega
  | succ fuel ih =>
    rw [cckLoop]
    rcases Nat.lt_or_eq_of_le hi with hlt | rfl
    · rw [readByte_of_lt hlt, bind_ok]
      split_ifs
      · exact .inl (fine_ok _)
      · exact .inl (fine_ok _)
      · exact ih hlt (by omega)
    · rw [readByte_of_le (Nat.le_refl _), bind_error]
      exact .inr rfl

end rates

/-! ## The security elements -/

section sec

open IeLookup (matchAt_pass matchAt_hit matchAt_beyond)

variable {f pre r t : List UInt8} {x : Elem} {es : List Elem} {fuel : ℕ} {rsn wpa out : SecBuf}

theorem readBytes_encode (hf : f = pre ++ (x.encode ++ r)) :
    readBytes f pre.length (x.data.length + 2) = .ok x.encode :=
  IeLookup.readBytes_encode hf

/-- An element of up to 248 bytes. -/
theorem takeSec_ok (hf : f = pre ++ (x.encode ++ r)) (hlen : x.encode.length ≤ 248) :
    takeSec f pre.length out = .ok ⟨out.ie.put 0 x.encode, x.encode.length⟩ := by
  have hread : readByte f (pre.length + 1) = .ok (UInt8.ofNat x.data.length) := readByte_length hf
  have hroom : 0 + x.encode.length ≤ secIeLen := by
    rw [secIeLen]
    omega
  have hdump : SecIe.dumpLoop (x.data.length + 2) 32 0 = some () :=
    SecIe.dumpLoop_some hlen (Nat.le_refl _)
  rw [takeSec, hread, bind_ok, x.toNat_length, readBytes_encode hf, bind_ok,
    Area.copyIn_of_le _ hroom, bind_ok, hdump]
  rfl

/-- One of up to 255 bytes has room, but the loop behind the copy does not end. -/
theorem takeSec_halts (hf : f = pre ++ (x.encode ++ r)) (hlen : 248 < x.encode.length)
    (hroom : x.encode.length ≤ secIeLen) : takeSec f pre.length out = .error .timeout := by
  have hread : readByte f (pre.length + 1) = .ok (UInt8.ofNat x.data.length) := readByte_length hf
  have hdump : SecIe.dumpLoop (x.data.length + 2) 32 0 = none := SecIe.dumpLoop_none hlen rfl
  rw [takeSec, hread, bind_ok, x.toNat_length, readBytes_encode hf, bind_ok,
    Area.copyIn_of_le _ (by omega), bind_ok, hdump]

theorem takeSec_long (hf : f = pre ++ (x.encode ++ r)) (hlong : secIeLen < x.encode.length) :
    takeSec f pre.length out = .error .beyond := by
  have hread : readByte f (pre.length + 1) = .ok (UInt8.ofNat x.data.length) := readByte_length hf
  rw [takeSec, hread, bind_ok, x.toNat_length, readBytes_encode hf, bind_ok,
    Area.copyIn_of_lt _ (by omega), bind_error]

theorem takeSec_stump {id len : UInt8} {rest : List UInt8} (hf : f = pre ++ id :: len :: rest)
    (hlen : rest.length < len.toNat) : takeSec f pre.length out = .error .beyond := by
  have hout : ¬ Inside f pre.length (len.toNat + 2) := by
    rw [Inside, hf, List.length_append, List.length_cons, List.length_cons]
    omega
  rw [takeSec, readByte_length hf, bind_ok, readBytes_of_not_inside hout, bind_error]

theorem lt_length (hf : f = pre ++ (x.encode ++ r)) : pre.length < f.length := by
  rw [hf, List.length_append, List.length_append, Elem.encode_length]
  omega

theorem secLoop_wpa (hf : f = pre ++ (x.encode ++ r)) (h : IsWpa x r) :
    secLoop f f.length (fuel + 1) pre.length rsn wpa = (do
      let wpa ← takeSec f pre.length wpa
      secLoop f f.length fuel (pre.length + wpa.len) rsn wpa) := by
  rw [secLoop, if_pos (lt_length hf), readByte_id hf, bind_ok, matchAt_hit hf h.1 h.2, bind_ok,
    if_pos rfl]

theorem secLoop_rsn (hf : f = pre ++ (x.encode ++ r)) (h : IsRsn x r) :
    secLoop f f.length (fuel + 1) pre.length rsn wpa = (do
      let rsn ← takeSec f pre.length rsn
      secLoop f f.length fuel (pre.length + rsn.len) rsn wpa) := by
  have hid : x.id = 48 := h
  have hpass : Passes 221 (some SecIe.wpaOui) x.id (x.data ++ r) := fun h221 => by
    rw [hid] at h221
    exact absurd h221 (by decide)
  rw [secLoop, if_pos (lt_length hf), readByte_id hf, bind_ok, matchAt_pass hf hpass, bind_ok,
    if_neg Bool.false_ne_true, if_pos hid]

theorem secLoop_next (hf : f = pre ++ (x.encode ++ r))
    (hpass : Passes 221 (some SecIe.wpaOui) x.id (x.data ++ r)) (hrsn : ¬ IsRsn x r) :
    secLoop f f.length (fuel + 1) pre.length rsn wpa =
      secLoop f f.length fuel (pre.length + x.encode.length) rsn wpa := by
  have hid : ¬ x.id = 48 := hrsn
  have hread : readByte f (pre.length + 1) = .ok (UInt8.ofNat x.data.length) := readByte_length hf
  rw [secLoop, if_pos (lt_length hf), readByte_id hf, bind_ok, matchAt_pass hf hpass, bind_ok,
    if_neg Bool.false_ne_true, if_neg hid, hread, bind_ok, x.toNat_length, Elem.encode_length]

theorem secLoop_out (hf : f = pre ++ (x.encode ++ r)) (hid : x.id = 221)
    (hout : ¬ OuiInside (some SecIe.wpaOui) (x.data ++ r)) :
    secLoop f f.length (fuel + 1) pre.length rsn wpa = .error .beyond := by
  rw [secLoop, if_pos (lt_length hf), readByte_id hf, bind_ok, matchAt_beyond hf hid hout,
    bind_error]

theorem secLoop_end {cnt : ℕ} (hcnt : f.length ≤ cnt) :
    secLoop f f.length (fuel + 1) cnt rsn wpa = .ok (rsn, wpa) := if_neg (Nat.not_lt.mpr hcnt)

/-- At a single byte the comparison, or else the length, is outside. -/
theorem secLoop_single {b : UInt8} (hf : f = pre ++ [b]) :
    secLoop f f.length (fuel + 1) pre.length rsn wpa = .error .beyond := by
  have hlen : f.length = pre.length + 1 := by rw [hf, List.length_append, List.length_singleton]
  have hlt : pre.length < f.length := by omega
  have hshort : readByte f (pre.length + 1) = .error .beyond := readByte_length_short hf
  rw [secLoop, if_pos hlt, readByte_id hf, bind_ok, matchAt]
  by_cases h221 : 221 = b
  · have hout : ¬ Inside f (pre.length + 2) SecIe.wpaOui.length := by
      rw [Inside, hlen, SecIe.wpaOui, List.length_cons]
      omega
    rw [if_pos h221, IeLookup.ouiMatch, readBytes_of_not_inside hout, bind_error, bind_error]
  · rw [if_neg h221, bind_ok, if_neg Bool.false_ne_true]
    by_cases h48 : b = 48
    · rw [if_pos h48, takeSec, hshort, bind_error, bind_error]
    · rw [if_neg h48, hshort, bind_error]

variable (rsn wpa) in
/-- What is behind the elements. -/
theorem secLoop_stump (hf : f = pre ++ t) (ht : Stump t) (hfuel : t.length < fuel) :
    (StumpFits t → secLoop f f.length fuel pre.length rsn wpa = .ok (rsn, wpa)) ∧
    (¬ StumpFits t → secLoop f f.length fuel pre.length rsn wpa = .error .beyond) := by
  obtain ⟨fuel, rfl⟩ : ∃ n, fuel = n + 1 := ⟨fuel - 1, by omega⟩
  have hlen : f.length = pre.length + t.length := by rw [hf, List.length_append]
  rcases t with _ | ⟨id, _ | ⟨len, rest⟩⟩
  · exact ⟨fun _ => secLoop_end (Nat.le_of_eq hlen), fun h => absurd trivial h⟩
  · refine ⟨fun h => h.elim, fun _ => ?_⟩
    have hlt : pre.length < f.length := by
      rw [hlen]
      exact Nat.lt_succ_self _
    exact secLoop_single hf
  · change rest.length < len.toNat at ht
    rw [List.length_cons, List.length_cons] at hlen hfuel
    have hlt : pre.length < f.length := by omega
    by_cases hrsn : id = 48
    · refine ⟨fun h => absurd hrsn h.1, fun _ => ?_⟩
      have hpass : Passes 221 (some SecIe.wpaOui) id rest := fun h221 => by
        rw [hrsn] at h221
        exact absurd h221 (by decide)
      rw [secLoop, if_pos hlt, readByte_id hf, bind_ok, matchAt_pass hf hpass, bind_ok,
        if_neg Bool.false_ne_true, if_pos hrsn, takeSec_stump hf ht, bind_error]
    · by_cases hpass : Passes 221 (some SecIe.wpaOui) id rest
      · refine ⟨fun _ => ?_, fun h => absurd ⟨hrsn, hpass⟩ h⟩
        obtain ⟨fuel, rfl⟩ : ∃ n, fuel = n + 1 := ⟨fuel - 1, by omega⟩
        rw [secLoop, if_pos hlt, readByte_id hf, bind_ok, matchAt_pass hf hpass, bind_ok,
          if_neg Bool.false_ne_true, if_neg hrsn, readByte_length hf, bind_ok,
          secLoop_end (by omega)]
      · refine ⟨fun h => absurd h.2 hpass, fun _ => ?_⟩
        obtain ⟨hid, hout | hsame⟩ := IeLookup.not_passes hpass
        · rw [secLoop, if_pos hlt, readByte_id hf, bind_ok, matchAt_beyond hf hid hout, bind_error]
        · rw [secLoop, if_pos hlt, readByte_id hf, bind_ok, matchAt_hit hf hid hsame, bind_ok,
            if_pos rfl, takeSec_stump hf ht, bind_error]

/-- How the walk ends, from buffers with these elements in them. -/
structure Walked (t : List UInt8) (es : List Elem) (rsn wpa : SecBuf)
    (r : Except Fault (SecBuf × SecBuf)) : Prop where
  ends : WalkFits t es → ¬ Stuck t es → ∃ o, r = .ok o ∧
    o.1.len = lastLen IsRsn t es rsn.len ∧ o.2.len = lastLen IsWpa t es wpa.len
  halts : WalkFits t es → Stuck t es → r = .error .timeout
  leaves : ¬ WalkFits t es → r = .error .beyond

/-- An element behind which the walk goes on. -/
theorem Walked.cons {rsn' wpa' : SecBuf} {e : Except Fault (SecBuf × SecBuf)}
    (h : Walked t es rsn' wpa' e) (hfits : ElemFits x (encodeAll es ++ t))
    (hgo : ¬ Halts x (encodeAll es ++ t))
    (hrsn : rsn'.len = if IsRsn x (encodeAll es ++ t) then x.encode.length else rsn.len)
    (hwpa : wpa'.len = if IsWpa x (encodeAll es ++ t) then x.encode.length else wpa.len) :
    Walked t (x :: es) rsn wpa e := by
  have hwalk : WalkFits t (x :: es) ↔ WalkFits t es := by
    rw [WalkFits, and_iff_right hfits, or_iff_right hgo]
  have hstuck : Stuck t (x :: es) ↔ Stuck t es := by rw [Stuck, or_iff_right hgo]
  constructor
  · intro hw hs
    rw [lastLen, lastLen, ← hrsn, ← hwpa]
    exact h.ends (hwalk.mp hw) fun hs' => hs (hstuck.mpr hs')
  · intro hw hs
    exact h.halts (hwalk.mp hw) (hstuck.mp hs)
  · intro hw
    exact h.leaves fun hw' => hw (hwalk.mpr hw')

theorem Walked.cons_halts (hfits : ElemFits x (encodeAll es ++ t))
    (hhalt : Halts x (encodeAll es ++ t)) : Walked t (x :: es) rsn wpa (.error .timeout) where
  ends _ hs := absurd (Or.inl hhalt) hs
  halts _ _ := rfl
  leaves hw := absurd ⟨hfits, .inl hhalt⟩ hw

theorem Walked.cons_leaves (hout : ¬ ElemFits x (encodeAll es ++ t)) :
    Walked t (x :: es) rsn wpa (.error .beyond) where
  ends hw _ := absurd hw.1 hout
  halts hw _ := absurd hw.1 hout
  leaves _ := rfl

/-- An element that is copied: what becomes of it depends on its length only. -/
theorem Walked.taken {g : SecBuf → Except Fault (SecBuf × SecBuf)}
    (hx : f = pre ++ (x.encode ++ (encodeAll es ++ t)))
    (hkind : IsWpa x (encodeAll es ++ t) ∨ IsRsn x (encodeAll es ++ t))
    (hin : x.id = 221 → OuiInside (some SecIe.wpaOui) (x.data ++ (encodeAll es ++ t)))
    (h : ElemFits x (encodeAll es ++ t) → ¬ Halts x (encodeAll es ++ t) →
      ∀ o : SecBuf, o.len = x.encode.length → Walked t (x :: es) rsn wpa (g o)) :
    Walked t (x :: es) rsn wpa (takeSec f pre.length out >>= g) := by
  rcases Nat.lt_or_ge 248 x.encode.length with hlong | hshort
  · rcases Nat.lt_or_ge secIeLen x.encode.length with hout | hroom
    · rw [takeSec_long hx hout, bind_error]
      exact .cons_leaves fun hfits => Nat.not_le.mpr hout (hfits.2 hkind)
    · rw [takeSec_halts hx hlong hroom, bind_error]
      exact .cons_halts ⟨hin, fun _ => hroom⟩ ⟨hkind, hlong⟩
  · rw [takeSec_ok hx hshort, bind_ok]
    have hroom : x.encode.length ≤ secIeLen := Nat.le_trans hshort (by decide)
    exact h ⟨hin, fun _ => hroom⟩ (fun hhalt => Nat.not_lt.mpr hshort hhalt.2) _ rfl

theorem not_isRsn_of_isWpa (h : IsWpa x r) : ¬ IsRsn x r := by
  intro hrsn
  have h48 : x.id = 48 := hrsn
  rw [h.1] at h48
  exact absurd h48 (by decide)

/-- The walk from an element on. -/
theorem secLoop_spec (hf : f = pre ++ (encodeAll es ++ t)) (ht : Stump t)
    (hfuel : (encodeAll es ++ t).length < fuel) :
    Walked t es rsn wpa (secLoop f f.length fuel pre.length rsn wpa) := by
  induction es generalizing pre fuel rsn wpa with
  | nil =>
    obtain ⟨hok, hbeyond⟩ := secLoop_stump rsn wpa hf ht hfuel
    exact ⟨fun hw _ => ⟨_, hok hw, rfl, rfl⟩, fun _ hs => hs.elim, hbeyond⟩
  | cons x es ih =>
    have hx : f = pre ++ (x.encode ++ (encodeAll es ++ t)) := by
      rw [hf, encodeAll_cons, List.append_assoc]
    have hrest : f = (pre ++ x.encode) ++ (encodeAll es ++ t) := by rw [hx, List.append_assoc]
    have hnext : pre.length + x.encode.length = (pre ++ x.encode).length := by
      rw [List.length_append]
    obtain ⟨fuel, rfl⟩ : ∃ n, fuel = n + 1 := ⟨fuel - 1, by omega⟩
    rw [encodeAll_cons, List.append_assoc, List.length_append, Elem.encode_length] at hfuel
    have hfuel' : (encodeAll es ++ t).length < fuel := by omega
    by_cases hwpa : IsWpa x (encodeAll es ++ t)
    · have hnot := not_isRsn_of_isWpa hwpa
      rw [secLoop_wpa hx hwpa]
      refine .taken hx (.inl hwpa) (fun _ => hwpa.2.inside) fun hfits hgo o ho => ?_
      rw [ho, hnext]
      exact (ih hrest hfuel').cons hfits hgo (if_neg hnot).symm (by rw [ho, if_pos hwpa])
    · by_cases hrsn : IsRsn x (encodeAll es ++ t)
      · have hin : x.id ≠ 221 := fun h221 => absurd (h221.symm.trans hrsn) (by decide)
        rw [secLoop_rsn hx hrsn]
        refine .taken hx (.inr hrsn) (fun h221 => absurd h221 hin) fun hfits hgo o ho => ?_
        rw [ho, hnext]
        exact (ih hrest hfuel').cons hfits hgo (by rw [ho, if_pos hrsn]) (if_neg hwpa).symm
      · have hnone : ¬ (IsWpa x (encodeAll es ++ t) ∨ IsRsn x (encodeAll es ++ t)) :=
          not_or.mpr ⟨hwpa, hrsn⟩
        by_cases hpass : Passes 221 (some SecIe.wpaOui) x.id (x.data ++ (encodeAll es ++ t))
        · have hfits : ElemFits x (encodeAll es ++ t) :=
            ⟨fun hid => (hpass hid).1, fun h => absurd h hnone⟩
          rw [secLoop_next hx hpass hrsn, hnext]
          exact Walked.cons (ih hrest hfuel') hfits (fun h => hnone h.1) (if_neg hrsn).symm
            (if_neg hwpa).symm
        · obtain ⟨hid, hout | hsame⟩ := IeLookup.not_passes hpass
          · rw [secLoop_out hx hid hout]
            exact .cons_leaves fun h => hout (h.1 hid)
          · exact absurd ⟨hid, hsame⟩ hwpa

end sec

/-! ## The dumps -/

section dump

variable {ie name : List UInt8} {n i p pointLen : ℕ} {buf : Area maxWpaIeLen} {out : SecBuf}
  {s : Stream}

/-- A text with its last zero is in the field. -/
theorem mem_zero_put {k off : ℕ} {src : List UInt8} (a : Area k)
    (h : off + (src ++ [0]).length ≤ k) : 0 ∈ (a.put off (src ++ [0])).bytes := by
  have hall : (src ++ [0]).length ≤ a.bytes.length - off := by
    rw [a.length_eq]
    omega
  rw [Area.put_bytes, Buffer.overwrite, List.take_of_length_le hall]
  exact List.mem_append_right _ (List.mem_append_left _ (List.mem_append_right _
    List.mem_cons_self))

theorem hexText_length (b : UInt8) : (hexText b ++ [0]).length = 3 := rfl

/-- Two characters for a byte, and the last zero. -/
theorem hexLoop_ok (hin : i + n ≤ ie.length) (hroom : p + 2 * n + 1 ≤ maxWpaIeLen)
    (hz : 0 ∈ buf.bytes) : ∃ b, hexLoop ie n i buf p = .ok b ∧ 0 ∈ b.bytes := by
  induction n generalizing i p buf with
  | zero => exact ⟨buf, rfl, hz⟩
  | succ n ih =>
    have hput : p + (hexText (ie.getD i 0) ++ [0]).length ≤ maxWpaIeLen := by
      rw [hexText_length]
      omega
    rw [hexLoop, readByte_of_lt (by omega), bind_ok, Area.copyIn_of_le _ hput, bind_ok]
    exact ih (by omega) (by omega) (mem_zero_put buf hput)

theorem hexLoop_beyond (hp : p + 1 ≤ maxWpaIeLen) (hlong : maxWpaIeLen < p + 2 * n + 1) :
    hexLoop ie n i buf p = .error .beyond := by
  induction n generalizing i p buf with
  | zero => omega
  | succ n ih =>
    rw [hexLoop]
    rcases Nat.lt_or_ge i ie.length with hlt | hge
    · rw [readByte_of_lt hlt, bind_ok]
      by_cases hput : p + (hexText (ie.getD i 0) ++ [0]).length ≤ maxWpaIeLen
      · rw [Area.copyIn_of_le _ hput, bind_ok]
        rw [hexText_length] at hput
        exact ih (by omega) (by omega)
      · rw [Area.copyIn_of_lt _ (Nat.lt_of_not_le hput), bind_error]
    · rw [readByte_of_le hge, bind_error]

variable (pointLen s) in
/-- An event takes no more room than it says. -/
theorem addPoint_ok {f : List UInt8} {off : ℕ} (cmd : Cmd) (h : Inside f off n) :
    ∃ s', addPoint pointLen s cmd f off n = .ok s' ∧ s.left ≤ s'.left + (pointLen + n) := by
  rw [addPoint]
  by_cases hroom : pointLen + n < s.left
  · rw [if_pos hroom, readBytes_of_inside h, bind_ok]
    exact ⟨_, rfl, by dsimp only; omega⟩
  · rw [if_neg hroom]
    exact ⟨s, rfl, by omega⟩

theorem addPoint_beyond {f : List UInt8} {off : ℕ} {cmd : Cmd} (hroom : pointLen + n < s.left)
    (h : ¬ Inside f off n) : addPoint pointLen s cmd f off n = .error .beyond := by
  rw [addPoint, if_pos hroom, readBytes_of_not_inside h, bind_error]

variable (pointLen s) in
/-- The two events for an element of up to 124 bytes. -/
theorem reportSec_ok (hname : name.length = 7) (hlen : out.len ≤ 124) :
    ∃ s', reportSec pointLen name out s = .ok s' ∧ s.left ≤ s'.left + (2 * pointLen + 380) := by
  rw [reportSec]
  by_cases hzero : out.len = 0
  · rw [if_pos hzero]
    exact ⟨s, rfl, by omega⟩
  · have hput : 0 + (name ++ [0]).length ≤ maxWpaIeLen := by
      rw [List.length_append, List.length_singleton, hname, maxWpaIeLen]
      omega
    have hroom : name.length + 2 * out.len + 1 ≤ maxWpaIeLen := by
      rw [hname, maxWpaIeLen]
      omega
    have hin : 0 + out.len ≤ out.ie.bytes.length := by
      rw [out.ie.length_eq, secIeLen]
      omega
    obtain ⟨buf, hbuf, hmem⟩ := hexLoop_ok hin hroom (mem_zero_put (.zero maxWpaIeLen) hput)
    have htext : buf.bytes.idxOf 0 < buf.bytes.length := List.idxOf_lt_length_iff.mpr hmem
    have hsize : buf.bytes.length = 256 := buf.length_eq
    have hall : Inside buf.bytes 0 (buf.bytes.idxOf 0) := .inr (by omega)
    obtain ⟨s₁, hs₁, hle₁⟩ := addPoint_ok pointLen s .custom hall
    obtain ⟨s₂, hs₂, hle₂⟩ := addPoint_ok pointLen s₁ .genie (.inr hin)
    rw [if_neg hzero, Area.copyIn_of_le _ hput, bind_ok, hbuf, bind_ok, strlen, if_pos hmem,
      bind_ok, hs₁, bind_ok, hs₂]
    exact ⟨s₂, rfl, by omega⟩

theorem reportSec_beyond (hname : name.length = 7) (hlen : 124 < out.len) :
    reportSec pointLen name out s = .error .beyond := by
  have hput : 0 + (name ++ [0]).length ≤ maxWpaIeLen := by
    rw [List.length_append, List.length_singleton, hname, maxWpaIeLen]
    omega
  have hfirst : name.length + 1 ≤ maxWpaIeLen := by
    rw [hname, maxWpaIeLen]
    omega
  have hlong : maxWpaIeLen < name.length + 2 * out.len + 1 := by
    rw [hname, maxWpaIeLen]
    omega
  rw [reportSec, if_neg (by omega), Area.copyIn_of_le _ hput, bind_ok,
    hexLoop_beyond hfirst hlong, bind_error]

end dump

/-! ## The WPS elements -/

section wps

open IeLookup (matchAt_pass matchAt_hit)

variable {f pre d r t : List UInt8} {id len : UInt8} {x : Elem} {es : List Elem} {fuel : ℕ}

/-- Both identifiers have four bytes. -/
theorem ouiInside_wps (h : OuiInside (some SecIe.wpaOui) d) : OuiInside (some wpsOui) d := by
  intro o ho
  obtain rfl := Option.some.inj ho
  exact h SecIe.wpaOui rfl

theorem reportWps_pass (hf : f = pre ++ id :: len :: d) (hpass : Passes 221 (some wpsOui) id d)
    (pointLen : ℕ) (s : Stream) : reportWps pointLen f pre.length s = .ok s := by
  rw [reportWps, readByte_id hf, bind_ok, matchAt_pass hf hpass, bind_ok,
    if_neg Bool.false_ne_true]

theorem reportWps_hit (hf : f = pre ++ id :: len :: d) (hid : id = 221)
    (hsame : OuiSame (some wpsOui) d) (pointLen : ℕ) (s : Stream) :
    reportWps pointLen f pre.length s =
      if 2 < len.toNat + 2 then addPoint pointLen s .genie f pre.length (len.toNat + 2)
      else .ok s := by
  rw [reportWps, readByte_id hf, bind_ok, matchAt_hit hf hid hsame, bind_ok, if_pos rfl,
    readByte_length hf, bind_ok]

/-- A whole element. -/
theorem reportWps_ok (hf : f = pre ++ (x.encode ++ r))
    (hin : x.id = 221 → OuiInside (some SecIe.wpaOui) (x.data ++ r)) (pointLen : ℕ) (s : Stream) :
    ∃ s', reportWps pointLen f pre.length s = .ok s' ∧
      s.left ≤ s'.left + (pointLen + x.encode.length) := by
  by_cases hpass : Passes 221 (some wpsOui) x.id (x.data ++ r)
  · exact ⟨s, reportWps_pass hf hpass pointLen s, by omega⟩
  · obtain ⟨hid, hout | hsame⟩ := IeLookup.not_passes hpass
    · exact absurd (ouiInside_wps (hin hid)) hout
    · have hall : Inside f pre.length (x.data.length + 2) := by
        right
        rw [hf, List.length_append, List.length_append, Elem.encode_length]
        omega
      rw [reportWps_hit hf hid hsame, x.toNat_length, Elem.encode_length]
      by_cases hlong : 2 < x.data.length + 2
      · rw [if_pos hlong]
        exact addPoint_ok pointLen s .genie hall
      · rw [if_neg hlong]
        exact ⟨s, rfl, by omega⟩

theorem wpsLoop_next {pointLen : ℕ} {s s' : Stream} (hf : f = pre ++ id :: len :: d)
    (h : reportWps pointLen f pre.length s = .ok s') :
    wpsLoop pointLen f f.length (fuel + 1) pre.length s =
      wpsLoop pointLen f f.length fuel (pre.length + (len.toNat + 2)) s' := by
  have hlt : pre.length < f.length := by
    rw [hf, List.length_append, List.length_cons]
    omega
  rw [wpsLoop, if_pos hlt, h, bind_ok, readByte_length hf, bind_ok]

theorem wpsLoop_end {pointLen cnt : ℕ} {s : Stream} (hcnt : f.length ≤ cnt) :
    wpsLoop pointLen f f.length (fuel + 1) cnt s = .ok s := if_neg (Nat.not_lt.mpr hcnt)

/-- What is behind the elements: a WPS element without its end is read if there is room for the
    event. -/
theorem wpsLoop_stump (hf : f = pre ++ t) (ht : Stump t) (hfits : StumpFits t)
    (hfuel : t.length < fuel) :
    (¬ WpsStump t → ∀ pointLen s, Fine (wpsLoop pointLen f f.length fuel pre.length s)) ∧
    (WpsStump t → ∀ pointLen s, pointLen + 257 < s.left →
      wpsLoop pointLen f f.length fuel pre.length s = .error .beyond) := by
  obtain ⟨fuel, rfl⟩ : ∃ n, fuel = n + 1 := ⟨fuel - 1, by omega⟩
  have hlen : f.length = pre.length + t.length := by rw [hf, List.length_append]
  rcases t with _ | ⟨id, _ | ⟨len, rest⟩⟩
  · refine ⟨fun _ pointLen s => ?_, fun h => ?_⟩
    · have hend : f.length ≤ pre.length := Nat.le_of_eq hlen
      rw [wpsLoop_end hend]
      exact fine_ok _
    · obtain ⟨len, rest, h, -⟩ := h
      cases h
  · exact hfits.elim
  · change rest.length < len.toNat at ht
    rw [List.length_cons, List.length_cons] at hlen hfuel
    obtain ⟨fuel, rfl⟩ : ∃ n, fuel = n + 1 := ⟨fuel - 1, by omega⟩
    have hend : f.length ≤ pre.length + (len.toNat + 2) := by omega
    constructor
    · intro hno pointLen s
      have hpass : Passes 221 (some wpsOui) id rest := fun hid =>
        ⟨ouiInside_wps (hfits.2 hid).1, fun hsame => hno ⟨len, rest, by rw [hid], hsame⟩⟩
      rw [wpsLoop_next hf (reportWps_pass hf hpass pointLen s), wpsLoop_end hend]
      exact fine_ok _
    · rintro ⟨len', rest', heq, hsame⟩ pointLen s hroom
      obtain ⟨hid, htail⟩ := List.cons.inj heq
      obtain ⟨rfl, rfl⟩ := List.cons.inj htail
      have hlt : pre.length < f.length := by omega
      have hout : ¬ Inside f pre.length (len.toNat + 2) := by
        rw [Inside]
        omega
      have hbyte := len.toNat_lt
      rw [wpsLoop, if_pos hlt, reportWps_hit hf hid hsame, if_pos (by omega),
        addPoint_beyond (by omega) hout, bind_error]

/-- The walk over elements and a stump that `rtw_get_sec_ie` has come through. -/
theorem wpsLoop_spec (hf : f = pre ++ (encodeAll es ++ t)) (ht : Stump t)
    (hwalk : WalkFits t es) (hgo : ¬ Stuck t es) (hfuel : (encodeAll es ++ t).length < fuel) :
    (¬ WpsStump t → ∀ pointLen s, Fine (wpsLoop pointLen f f.length fuel pre.length s)) ∧
    (WpsStump t → ∀ pointLen s,
      (encodeAll es).length + pointLen * (es.length + 1) + 257 < s.left →
        wpsLoop pointLen f f.length fuel pre.length s = .error .beyond) := by
  induction es generalizing pre fuel with
  | nil =>
    obtain ⟨hfine, hbeyond⟩ := wpsLoop_stump hf ht hwalk hfuel
    refine ⟨hfine, fun h pointLen s hroom => hbeyond h pointLen s ?_⟩
    rw [encodeAll_nil, List.length_nil, List.length_nil] at hroom
    omega
  | cons x es ih =>
    have hx : f = pre ++ (x.encode ++ (encodeAll es ++ t)) := by
      rw [hf, encodeAll_cons, List.append_assoc]
    have hrest : f = (pre ++ x.encode) ++ (encodeAll es ++ t) := by rw [hx, List.append_assoc]
    have hnext : pre.length + (x.data.length + 2) = (pre ++ x.encode).length := by
      rw [List.length_append, Elem.encode_length]
    obtain ⟨hnot, hgo'⟩ := not_or.mp hgo
    obtain ⟨hin, -⟩ := hwalk.1
    have hwalk' : WalkFits t es := hwalk.2.resolve_left hnot
    obtain ⟨fuel, rfl⟩ : ∃ n, fuel = n + 1 := ⟨fuel - 1, by omega⟩
    rw [encodeAll_cons, List.append_assoc, List.length_append, Elem.encode_length] at hfuel
    have hfuel' : (encodeAll es ++ t).length < fuel := by omega
    obtain ⟨hfine, hbeyond⟩ := ih hrest hwalk' hgo' hfuel'
    constructor
    · intro h pointLen s
      obtain ⟨s', hs', -⟩ := reportWps_ok hx hin pointLen s
      rw [wpsLoop_next hx hs', x.toNat_length, hnext]
      exact hfine h pointLen s'
    · intro h pointLen s hroom
      obtain ⟨s', hs', hleft⟩ := reportWps_ok hx hin pointLen s
      rw [encodeAll_cons, List.length_append, List.length_cons, Nat.mul_succ] at hroom
      rw [wpsLoop_next hx hs', x.toNat_length, hnext]
      exact hbeyond h pointLen s' (by omega)

end wps

/-! ## The whole function -/

section whole

variable {b : WlanBssidEx} {es : List Elem} {t : List UInt8}

theorem body_length (hle : b.ieLength ≤ maxIeSz) : b.body.length = b.ieLength := by
  rw [WlanBssidEx.body, List.length_take, b.ies.length_eq, Nat.min_eq_left hle]

theorem elements_length (hle : b.ieLength ≤ maxIeSz) :
    b.elements.length = b.ieLength - fixedIeLength := by
  rw [WlanBssidEx.elements, List.length_drop, body_length hle]

/-- The walk over the security elements begins behind the fixed fields. -/
theorem rtwGetSecIe_walked (hle : b.ieLength ≤ maxIeSz) (hfixed : fixedIeLength ≤ b.ieLength)
    (hels : b.elements = encodeAll es ++ t) (ht : Stump t) (rsn wpa : SecBuf) :
    Walked t es rsn wpa (rtwGetSecIe b.body b.ieLength rsn wpa) := by
  have hlen := body_length hle
  have hpre : (b.body.take fixedIeLength).length = fixedIeLength := by
    rw [List.length_take, hlen, Nat.min_eq_left hfixed]
  have hf : b.body = b.body.take fixedIeLength ++ (encodeAll es ++ t) := by
    rw [← hels, WlanBssidEx.elements, List.take_append_drop]
  have hfuel : (encodeAll es ++ t).length < b.body.length + 1 := by
    rw [← hels, elements_length hle, hlen]
    omega
  have h : Walked t es rsn wpa (secLoop b.body b.body.length (b.body.length + 1)
      (b.body.take fixedIeLength).length rsn wpa) := secLoop_spec hf ht hfuel
  rw [hpre, hlen] at h
  rw [rtwGetSecIe, hlen]
  exact h

theorem wpaName_length : (text "wpa_ie=").length = 7 := rfl

theorem rsnName_length : (text "rsn_ie=").length = 7 := rfl

/-- Behind the security elements. -/
theorem reportElements_ok (e : Env) {o : SecBuf × SecBuf}
    (hsec : rtwGetSecIe b.body b.ieLength ⟨.zero secIeLen, 0⟩ ⟨.zero secIeLen, 0⟩ = .ok o)
    (hwpa : o.2.len ≤ 124) (hrsn : o.1.len ≤ 124) :
    ∃ s : Stream, e.left ≤ s.left + (2 * e.pointLen + 380) + (2 * e.pointLen + 380) ∧
      reportElements e b = wpsLoop e.pointLen b.elements (wrapSub b.ieLength fixedIeLength)
        (b.elements.length + 1) 0 s := by
  obtain ⟨s₁, hs₁, hle₁⟩ := reportSec_ok e.pointLen ⟨e.left, []⟩ wpaName_length hwpa
  obtain ⟨s₂, hs₂, hle₂⟩ := reportSec_ok e.pointLen s₁ rsnName_length hrsn
  refine ⟨s₂, Nat.le_trans hle₁ (Nat.add_le_add_right hle₂ _), ?_⟩
  rw [reportElements, hsec, bind_ok, hs₁, bind_ok, hs₂, bind_ok]

theorem reportElements_inside_iff (hle : b.ieLength ≤ maxIeSz)
    (hfixed : fixedIeLength ≤ b.ieLength) (hels : b.elements = encodeAll es ++ t) (ht : Stump t) :
    (∀ e : Env, reportElements e b ≠ .error .beyond) ↔ ElementsFit es t := by
  have hwalked := rtwGetSecIe_walked hle hfixed hels ht ⟨.zero secIeLen, 0⟩ ⟨.zero secIeLen, 0⟩
  have hlen := elements_length hle
  have hwrap : wrapSub b.ieLength fixedIeLength = b.elements.length := by
    rw [wrapSub, if_neg (Nat.not_lt.mpr hfixed), hlen]
  by_cases hwalk : WalkFits t es
  · by_cases hstuck : Stuck t es
    · have hsec := hwalked.halts hwalk hstuck
      refine iff_of_true (fun e h => ?_) ⟨hwalk, fun h => absurd hstuck h, fun h => absurd hstuck h,
        fun h => absurd hstuck h⟩
      rw [reportElements, hsec, bind_error] at h
      cases h
    · obtain ⟨o, hsec, hrsn, hwpa⟩ := hwalked.ends hwalk hstuck
      have hfuel : (encodeAll es ++ t).length < b.elements.length + 1 := by
        rw [hels]
        exact Nat.lt_succ_self _
      have hels' : b.elements = [] ++ (encodeAll es ++ t) := hels
      obtain ⟨hfine, hbeyond⟩ := wpsLoop_spec hels' ht hwalk hstuck hfuel
      constructor
      · intro hall
        have hwpa' : o.2.len ≤ 124 := by
          by_contra hlong
          refine hall ⟨8192, 8, false, false⟩ ?_
          rw [reportElements, hsec, bind_ok,
            reportSec_beyond wpaName_length (Nat.lt_of_not_le hlong), bind_error]
        have hrsn' : o.1.len ≤ 124 := by
          by_contra hlong
          refine hall ⟨8192, 8, false, false⟩ ?_
          obtain ⟨s₁, hs₁, -⟩ := reportSec_ok 8 ⟨8192, []⟩ wpaName_length hwpa'
          rw [reportElements, hsec, bind_ok, hs₁, bind_ok,
            reportSec_beyond rsnName_length (Nat.lt_of_not_le hlong), bind_error]
        refine ⟨hwalk, fun _ => hwpa ▸ hwpa', fun _ => hrsn ▸ hrsn', fun _ hwps => ?_⟩
        -- enough room for all events up to the one that is cut off
        obtain ⟨s, hleft, heq⟩ := reportElements_ok ⟨8192, 8, false, false⟩ hsec hwpa' hrsn'
        refine hall ⟨8192, 8, false, false⟩ ?_
        rw [heq, hwrap]
        refine hbeyond hwps 8 s ?_
        have hcount := encodeAll_length_le es
        have hsize := congrArg List.length hels
        rw [hlen, List.length_append] at hsize
        have hmax : maxIeSz = 768 := rfl
        dsimp only at hleft
        omega
      · intro h e hbad
        obtain ⟨s, -, heq⟩ := reportElements_ok e hsec (hwpa ▸ h.wpa hstuck) (hrsn ▸ h.rsn hstuck)
        rw [heq, hwrap] at hbad
        obtain ⟨s', hs'⟩ := hfine (h.wps hstuck) e.pointLen s
        rw [List.length_nil] at hs'
        rw [hs'] at hbad
        cases hbad
  · refine iff_of_false (fun h => h ⟨8192, 8, false, false⟩ ?_) fun h => hwalk h.walk
    rw [reportElements, hwalked.leaves hwalk, bind_error]

theorem protocolName_cases (htCap vhtCap : Bool) (dsConfig : ℕ) (rates : List UInt8) :
    Fine (protocolName htCap vhtCap dsConfig rates) ∨
      protocolName htCap vhtCap dsConfig rates = .error .beyond := by
  rw [protocolName, rtwIsCckratesonlyIncluded]
  rcases cckLoop_cases (fun r => !isCck r) (Nat.zero_le rates.length)
    (by omega : rates.length < 0 + (rates.length + 1)) with ⟨other, hother⟩ | hother
  · rcases cckLoop_cases isCck (Nat.zero_le rates.length)
      (by omega : rates.length < 0 + (rates.length + 1)) with ⟨included, hincluded⟩ | hincluded
    · left
      rw [hother, bind_ok, bind_ok, rtwIsCckratesIncluded, hincluded, bind_ok]
      split_ifs
      all_goals exact fine_ok _
    · rw [hother, bind_ok, bind_ok, rtwIsCckratesIncluded, hincluded, bind_error]
      split_ifs
      · exact .inl (fine_ok _)
      · exact .inl (fine_ok _)
      · exact .inr rfl
  · rw [hother, bind_error, bind_error]
    exact .inr rfl

theorem protocolName_fine (htCap vhtCap : Bool) (dsConfig : ℕ) {rates : List UInt8}
    (h : 0 ∈ rates) : Fine (protocolName htCap vhtCap dsConfig rates) := by
  obtain ⟨k, hk, hz⟩ := mem_zero_iff.mp h
  obtain ⟨other, hother⟩ := cckLoop_fine (fun r => !isCck r) hk hz (Nat.zero_le k)
    (by omega : rates.length < 0 + (rates.length + 1))
  obtain ⟨included, hincluded⟩ := cckLoop_fine isCck hk hz (Nat.zero_le k)
    (by omega : rates.length < 0 + (rates.length + 1))
  rw [protocolName, rtwIsCckratesonlyIncluded, hother, bind_ok, bind_ok]
  split_ifs
  · exact fine_ok _
  · exact fine_ok _
  all_goals
    rw [rtwIsCckratesIncluded, hincluded, bind_ok]
    split_ifs
    all_goals exact fine_ok _

theorem translateScan_rates (e : Env) (h : 0 ∉ b.supportedRates.bytes) :
    translateScan e b = .error .beyond := by
  have hname : Fine (protocolName e.htCap e.vhtCap b.dsConfig b.supportedRates.bytes) ∨
      protocolName e.htCap e.vhtCap b.dsConfig b.supportedRates.bytes = .error .beyond :=
    protocolName_cases e.htCap e.vhtCap b.dsConfig _
  rcases hname with ⟨name, hname⟩ | hname
  · rw [translateScan, hname, bind_ok, addRates_beyond h, bind_error]
  · rw [translateScan, hname, bind_error]

theorem translateScan_elements (e : Env) (h : 0 ∈ b.supportedRates.bytes) :
    translateScan e b = .error .beyond ↔ reportElements e b = .error .beyond := by
  obtain ⟨name, hname⟩ := protocolName_fine e.htCap e.vhtCap b.dsConfig h
  obtain ⟨rates, hrates⟩ := addRates_fine h
  rw [translateScan, hname, bind_ok, hrates, bind_ok]
  cases reportElements e b with
  | error fault =>
    rw [bind_error]
    constructor
    · intro h
      cases h
      rfl
    · intro h
      cases h
      rfl
  | ok s =>
    rw [bind_ok]
    constructor
    · intro h
      cases h
    · intro h
      cases h

theorem ScanResult.sized (s : ScanResult) :
    fixedIeLength ≤ s.record.ieLength ∧ s.record.ieLength ≤ maxIeSz := by
  rw [s.ieLength_eq]
  exact BssInfo.collectBssInfo_sized s.accepted

end whole

/-- Reporting a scan result reads the sixteen rates and the elements, and writes to the buffers on
    the stack, only inside, whatever room the caller has, exactly if it fits. -/
theorem translateScan_inside_iff (s : ScanResult) : Right s ↔ Fits s := by
  obtain ⟨hfixed, hle⟩ := s.sized
  obtain ⟨es, t, hels, ht⟩ := exists_parse s.record.elements
  have hparse : parse s.record.elements = (es, t) := by rw [hels, parse_append es ht]
  have hiff := reportElements_inside_iff hle hfixed hels ht
  by_cases hrates : 0 ∈ s.record.supportedRates.bytes
  · constructor
    · intro hright
      refine ⟨hrates, ?_⟩
      rw [hparse]
      exact hiff.mp fun e he => hright e ((translateScan_elements e hrates).mpr he)
    · intro hfits e he
      have hels' := hfits.elements
      rw [hparse] at hels'
      exact hiff.mpr hels' e ((translateScan_elements e hrates).mp he)
  · exact iff_of_false (fun hright => hright ⟨8192, 8, false, false⟩ (translateScan_rates _ hrates))
      fun hfits => hrates hfits.rates

/-- A beacon with an RSN element of 125 bytes, and one with sixteen rates. -/
def longRsnData : List UInt8 :=
  0x80 :: List.replicate 35 0 ++ ([0, 1, 65, 48, 123] ++ List.replicate 123 1)

theorem longRsnData_length : longRsnData.length < 2 ^ 32 := by decide +kernel

def longRsn : RecvFrame where
  rxData := longRsnData
  recvSignalPower := -40
  signalQuality := 80
  signalStrength := 60
  length_lt := longRsnData_length

def sixteenRates : RecvFrame where
  rxData := 0x80 :: List.replicate 35 0 ++
    [0, 1, 65, 1, 8, 130, 132, 139, 150, 12, 18, 24, 36, 50, 8, 48, 72, 96, 108, 2, 4, 11, 22]
  recvSignalPower := -40
  signalQuality := 80
  signalStrength := 60
  length_lt := by decide

/-- A result as it was collected. -/
theorem exists_collected {f : RecvFrame} {operCh : UInt8} {p : WlanBssidEx → Bool}
    (h : (collectBssInfo f operCh).map (·.map p) = .ok (some true)) :
    ∃ s : ScanResult, s.frame = f ∧ p s.record = true := by
  rcases hrun : collectBssInfo f operCh with e | _ | b
  · rw [hrun] at h
    cases h
  · rw [hrun] at h
    cases h
  · rw [hrun] at h
    exact ⟨⟨f, operCh, b, hrun, b, rfl, rfl, rfl⟩, rfl, Option.some.inj (Except.ok.inj h)⟩

/-- The dump of the element leaves its buffer, and the loop over the rates reads a seventeenth. -/
theorem longRsn_beyond :
    (∃ s : ScanResult, s.frame = longRsn ∧
      translateScan ⟨8192, 8, false, false⟩ s.record = .error .beyond) ∧
    (∃ s : ScanResult, s.frame = sixteenRates ∧
      translateScan ⟨8192, 8, false, false⟩ s.record = .error .beyond) ∧
    ¬ ∀ s : ScanResult, Right s := by
  have hrsn : (collectBssInfo longRsn 6).map (·.map fun b =>
      b.supportedRates.bytes.contains 0 &&
        decide (reportElements ⟨8192, 8, false, false⟩ b = .error .beyond)) = .ok (some true) := by
    decide +kernel
  have hrates : (collectBssInfo sixteenRates 6).map (·.map fun b =>
      !b.supportedRates.bytes.contains 0) = .ok (some true) := by decide +kernel
  obtain ⟨s, hs, hbad⟩ := exists_collected hrsn
  obtain ⟨s', hs', hbad'⟩ := exists_collected hrates
  obtain ⟨hzero, hout⟩ := Bool.and_eq_true_iff.mp hbad
  have hmem : 0 ∈ s.record.supportedRates.bytes := List.contains_iff_mem.mp hzero
  have hnone : 0 ∉ s'.record.supportedRates.bytes := fun h => by
    rw [List.contains_iff_mem.mpr h] at hbad'
    cases hbad'
  have hfirst := (translateScan_elements ⟨8192, 8, false, false⟩ hmem).mpr (of_decide_eq_true hout)
  exact ⟨⟨s, hs, hfirst⟩, ⟨s', hs', translateScan_rates _ hnone⟩, fun h => h s _ hfirst⟩

end Rtl8821au.Mlme.TranslateScan
