import Rtl8821au.Ap.BeaconData
import Mathlib.Data.List.Forall2

/-!
# What is adopted of the beacon of hostapd

What `rtw_check_beacon_data` makes of a body: where it reads and stores, and what the record says
then.

* `adoptElements_ends`: the function on elements and a stump.
* `adopt_right_iff`: when it stays inside and adopts what the body says.

**What goes wrong.** The privacy bit is taken from the timestamp, where the capabilities are
read without their offset. A body without fixed fields is not refused. The SSID, the rates and the
HT capabilities are copied with the length of the element. A search reads a length behind a single
byte, those for the WPA and the WMM element go on behind the body, and an empty element ends them.
The edits go over the end of an element that is too short. An empty SSID leaves the old one.
-/

namespace Rtl8821au.Ap.BeaconData

open Checked Elements
open Mlme.BssInfo (maxIeSz lengthSsid lengthRatesEx fixedIeLength fixedSz readLe16 hit LookFits
  claimed copied header_unique)
open Mlme.WpaIe (Format Out parseIn parse start wpa rsn)

/-! ## What the record is for -/

/-- `*(p+8) |= BIT(7)`, and `BIT(4)` cleared at `p+10`, `p+14`, `p+18` and `p+22`, in the data. -/
def wmmBits (d : List UInt8) : List UInt8 :=
  ((((d.modify 6 (· ||| 0x80)).modify 8 (· &&& 0xef)).modify 12 (· &&& 0xef)).modify 16
    (· &&& 0xef)).modify 20 (· &&& 0xef)

/-- The HT capabilities with the A-MPDU parameters, and for one stream with its MCS set. -/
def htBytes (e : Env) (ccmp : Bool) (d : List UInt8) : List UInt8 :=
  let d := (d.modify 2 (· ||| density ccmp)).modify 2 (· ||| 0x03)
  if e.rf1t1r then (d.set 3 0xff).set 4 0x00 else d

/-- The vendor specific elements that are looked for. -/
def IsVendor (oui : List UInt8) (x : Elem) : Prop := x.id = 221 ∧ x.data.take oui.length = oui

instance (oui : List UInt8) (x : Elem) : Decidable (IsVendor oui x) :=
  inferInstanceAs (Decidable (_ ∧ _))

/-- An element as it may be stored: as it is, the WMM element with its QoS info and ACM bits, the
    HT capability element with the bytes that are set on purpose. -/
def Alike (e : Env) (x y : Elem) : Prop :=
  y = x ∨ y.id = x.id ∧ (IsVendor wmmParaIe x ∧ y.data = wmmBits x.data ∨
    x.id = 45 ∧ ∃ ccmp, y.data = htBytes e ccmp x.data)

/-- The group and the pairwise cipher that a parser reads in the element at the beginning. -/
def ciphersAt (fmt : Format) (buf : List UInt8) (n : ℕ) : ℕ × ℕ :=
  match parseIn fmt buf (n + 2) (start false) with
  | .ok o => if o.ret then (o.groupCipher, o.pairwiseCipher) else (0, 0)
  | .error _ => (0, 0)

/-- Those of an element, `NO_ENCRYPTION` if there is none. -/
def ciphers (fmt : Format) : Option Elem → ℕ × ℕ
  | none => (0, 0)
  | some x => ciphersAt fmt x.encode x.data.length

/-- The capability bit in the fixed fields. -/
def privacyBit (body : List UInt8) : Bool := (body.getD 10 0).toNat.testBit 4

/-- The record and the ciphers are those of the body, which has these elements. -/
structure Recorded (e : Env) (body : List UInt8) (es : List Elem) (s : RtlPriv) : Prop where
  interval : s.network.beaconPeriod = (body.getD 8 0).toNat + 256 * (body.getD 9 0).toNat
  privacy : s.network.privacy = if privacyBit body then 1 else 0
  ssid : ∀ x, es.find? (·.id = 0) = some x → s.network.ssidLength = x.data.length ∧
    s.network.ssid.bytes.take x.data.length = x.data
  channel : ∀ x c, es.find? (·.id = 3) = some x → x.data.head? = some c →
    s.network.dsConfig = c.toNat
  rsn : (s.security.wpa2GroupCipher, s.security.wpa2PairwiseCipher) =
    ciphers rsn (es.find? (·.id = 48))
  wpa : (s.security.wpaGroupCipher, s.security.wpaPairwiseCipher) =
    ciphers wpa (es.find? (IsVendor oui1 ·))
  stored : ∃ es', s.network.body = body.take fixedIeLength ++ encodeAll es' ∧
    List.Forall₂ (Alike e) es es'

/-- Adopting the body is exact and in bounds. -/
structure Right (e : Env) (s : RtlPriv) (body : List UInt8) : Prop where
  inside : Fine (rtwCheckBeaconData e s body)
  refused : body.length < fixedIeLength ∨ maxIeSz < body.length →
    rtwCheckBeaconData e s body = .ok (.fail s)
  exact : ∀ es s', decodeAll (body.drop fixedIeLength) = some es →
    fixedIeLength ≤ body.length → rtwCheckBeaconData e s body = .ok (.started s') →
      Recorded e body es s'

/-- The driver is an access point. -/
def RtlPriv.InApMode (s : RtlPriv) : Prop :=
  s.apState = true ∧ s.network.infrastructureMode = .apMode

/-! ## When it is -/

/-- The channel and the rates that are read. -/
def channelOf (es : List Elem) (t : List UInt8) : UInt8 :=
  match hit 3 es t with
  | some (n, d) => if n = 0 then 0 else d.headD 0
  | none => 0

def ratesOf (es : List Elem) (t : List UInt8) : Area lengthRatesEx :=
  ((Area.zero lengthRatesEx).put 0 (copied 1 es t)).put (claimed 1 es t) (copied 50 es t)

/-- The loops over the rates end among them. -/
def TypeFits (channel : UInt8) (rates : List UInt8) : Prop :=
  0 ∈ rates ∨ (∃ r ∈ rates, Mlme.TranslateScan.isCck r) ∧
    (channel.toNat ≤ 14 → ∃ r ∈ rates, ¬ Mlme.TranslateScan.isCck r)

/-- The parser reads nothing behind the body. -/
def ParserFits (fmt : Format) (n : ℕ) (d : List UInt8) : Prop :=
  Fine (parseIn fmt (fmt.id :: UInt8.ofNat n :: d) (n + 2) (start false))

/-- Nothing is read behind the body, and what is copied has room. -/
structure BodyFits (e : Env) (es : List Elem) (t : List UInt8) : Prop where
  ssid : HitFits 0 (fun n d => n ≤ d.length ∧ n ≤ lengthSsid) es t
  channel : HitFits 3 (fun n d => n ≠ 0 → d ≠ []) es t
  rates : HitFits 1 (fun n d => n ≤ d.length ∧ n ≤ lengthRatesEx) es t
  extRates : HitFits 50 (fun n d => n ≤ d.length ∧ claimed 1 es t + n ≤ lengthRatesEx) es t
  type : TypeFits (channelOf es t) (ratesOf es t).bytes
  erp : HitFits 42 (fun n d => n = 1 → d ≠ []) es t
  rsn : HitFits 48 (fun n d => n ≠ 0 → ParserFits rsn n d) es t
  wpa : VendorHitFits oui1 (ParserFits wpa) es t
  wmm : e.wmmEnable → VendorHitFits wmmParaIe (fun _ d => 20 < d.length) es t
  ht : HitFits 45 (fun n d => n ≠ 0 → n ≤ d.length ∧ n ≤ htCapSize) es t
  htInfo : HitFits 61 (fun n d => n ≠ 0 → claimed 45 es t ≠ 0 → n ≤ Mlme.htInfoSize →
    n ≤ d.length) es t

/-- How much of the HT capabilities is edited. -/
def htEdited (e : Env) : ℕ := if e.rf1t1r then 5 else 3

/-- An edit goes over the end of its element. -/
def Stray (e : Env) (es : List Elem) (t : List UInt8) : Prop :=
  (e.wmmEnable ∧ ∃ n d, vendorOf wmmParaIe es t = some (n, d) ∧ n ≤ 20) ∨
    ∃ n d, hit 45 es t = some (n, d) ∧ n ≠ 0 ∧ n < htEdited e

/-- Of whole elements the record says what they say. -/
structure Exact (s : RtlPriv) (body : List UInt8) (es : List Elem) : Prop where
  privacy : (body.getD 0 0).toNat.testBit 4 = privacyBit body
  ssid : ∀ x, es.find? (·.id = 0) = some x → x.data = [] → s.network.ssidLength = 0
  wpa : ∀ x, es.find? (IsVendor oui1 ·) = some x → ciphers wpa (some x) ≠ (0, 0) →
    ∃ d, vendorOf oui1 es [] = some (x.data.length, x.data ++ d)

/-- The body is too long, or it has its fixed fields and goes well. -/
def Fits (e : Env) (s : RtlPriv) (body : List UInt8) : Prop :=
  maxIeSz < body.length ∨ fixedIeLength ≤ body.length ∧
    BodyFits e (Elements.parse (body.drop fixedIeLength)).1
      (Elements.parse (body.drop fixedIeLength)).2 ∧
    ∀ es, decodeAll (body.drop fixedIeLength) = some es → Exact s body es

/-- An edit goes over the end of its element in the body. -/
def StrayIn (e : Env) (body : List UInt8) : Prop :=
  fixedIeLength ≤ body.length ∧ body.length ≤ maxIeSz ∧
    Stray e (Elements.parse (body.drop fixedIeLength)).1
      (Elements.parse (body.drop fixedIeLength)).2

/-! ## The SSID, the channel and the rates -/

/-- The record with an SSID that is found, unless it is empty. -/
def RtlPriv.withSsid (s : RtlPriv) : Option (ℕ × List UInt8) → RtlPriv
  | none => s
  | some (n, d) =>
    if n = 0 then s
    else { s with
      network.ssid := (Area.zero lengthSsid).put 0 (d.take n), network.ssidLength := n }

section fields

variable {s : RtlPriv} {es : List Elem} {t : List UInt8}

theorem adoptSsid_ends (h : Holds s.network es t) :
    EndsWhen (HitFits 0 (fun n d => n ≤ d.length ∧ n ≤ lengthSsid) es t)
      (· = s.withSsid (hit 0 es t)) (adoptSsid s) := by
  apply h.lookup
  · intro hnone
    rw [hnone]
    exact .ok rfl
  · intro pre len d hf hhit
    rw [hhit, RtlPriv.withSsid]
    by_cases h0 : len.toNat = 0
    · simp only [if_pos h0]
      exact .ok_of (by omega) rfl
    · simp only [if_neg h0]
      apply (endsWhen_data hf len.toNat).strengthen.bind
      rintro bytes ⟨hle, rfl⟩
      have hlen : (d.take len.toNat).length = len.toNat := by
        rw [List.length_take, Nat.min_eq_left hle]
      refine ((endsWhen_copyIn (Area.zero lengthSsid) 0 (d.take len.toNat)).bind_ok ?_).iff
        (by rw [hlen, Nat.zero_add])
      rintro ssid rfl
      exact .ok rfl

theorem adoptChannel_ends (h : Holds s.network es t) :
    EndsWhen (HitFits 3 (fun n d => n ≠ 0 → d ≠ []) es t)
      (· = ({ s with
        network.configurationLength := 0
        network.dsConfig := (channelOf es t).toNat }, channelOf es t)) (adoptChannel s) := by
  have h' : Holds { s.network with configurationLength := 0 } es t :=
    ⟨h.elements, h.limit, h.stump⟩
  apply h'.lookup
  · intro hnone
    rw [channelOf, hnone]
    exact .ok rfl
  · intro pre len d hf hhit
    rw [channelOf, hhit]
    by_cases h0 : len.toNat = 0
    · simp only [if_pos h0]
      exact .ok_of (fun hno => absurd h0 hno) rfl
    · simp only [if_neg h0]
      refine ((endsWhen_dataByte hf 0).bind_ok ?_).iff ?_
      · rintro c rfl
        rw [List.headD_eq_head?_getD, List.getD_eq_getElem?_getD, List.head?_eq_getElem?]
        exact .ok rfl
      · rw [List.length_pos_iff]
        exact ⟨fun hd _ => hd, fun hd => hd h0⟩

/-- An element with rates behind those that are there. -/
theorem addRates_ends {b : WlanBssidEx} (h : Holds b es t) (index : UInt8)
    (r : Area lengthRatesEx × ℕ) :
    EndsWhen (HitFits index (fun n d => n ≤ d.length ∧ r.2 + n ≤ lengthRatesEx) es t)
      (fun r' => r' = (r.1.put r.2 (copied index es t), r.2 + claimed index es t))
      (addRates b index r) := by
  apply h.lookup
  · intro hnone
    rw [Mlme.BssInfo.copied_none hnone, Mlme.BssInfo.claimed_none hnone, Area.put_nil]
    exact .ok rfl
  · intro pre len d hf hhit
    rw [Mlme.BssInfo.copied_some hhit, Mlme.BssInfo.claimed_some hhit]
    apply (endsWhen_data hf len.toNat).strengthen.bind
    rintro bytes ⟨hle, rfl⟩
    have hlen : (d.take len.toNat).length = len.toNat := by
      rw [List.length_take, Nat.min_eq_left hle]
    refine ((endsWhen_copyIn r.1 r.2 (d.take len.toNat)).bind_ok ?_).iff (by rw [hlen])
    rintro rates rfl
    exact .ok rfl

end fields

/-! ## The network type -/

section type

open Mlme.TranslateScan (cckLoop isCck rtwIsCckratesIncluded rtwIsCckratesonlyIncluded)

variable {rates : List UInt8}

/-- A loop over the rates from the `i`-th one on. -/
theorem cckLoop_ends (stops : UInt8 → Bool) {fuel i : ℕ} (hi : i ≤ rates.length)
    (hfuel : rates.length < i + fuel) :
    EndsWhen (0 ∈ rates.drop i ∨ ∃ r ∈ rates.drop i, stops r)
      (fun found => 0 ∈ rates.drop i ∨ found = true) (cckLoop stops rates fuel i) := by
  induction fuel generalizing i with
  | zero => omega
  | succ fuel ih =>
    rw [cckLoop]
    by_cases hlt : i < rates.length
    · have hdrop : rates.drop i = rates.getD i 0 :: rates.drop (i + 1) := by
        rw [List.getD_eq_getElem _ _ hlt, List.drop_eq_getElem_cons hlt]
      rw [hdrop, readByte_of_lt hlt, bind_ok]
      by_cases hz : rates.getD i 0 = 0
      · rw [if_pos hz, hz]
        exact .ok_of (.inl List.mem_cons_self) (.inl List.mem_cons_self)
      · rw [if_neg hz, List.mem_cons, or_iff_right (Ne.symm hz), List.exists_mem_cons_iff]
        by_cases hs : stops (rates.getD i 0) = true
        · rw [if_pos hs]
          exact .ok_of (.inr (.inl hs)) (.inr rfl)
        · rw [if_neg hs, or_iff_right hs]
          exact ih hlt (by omega)
    · rw [readByte_of_le (Nat.not_lt.mp hlt), bind_error, List.drop_of_length_le (by omega)]
      exact .error (by simp)

theorem rtwIsCckratesIncluded_ends (rates : List UInt8) :
    EndsWhen (0 ∈ rates ∨ ∃ r ∈ rates, isCck r) (fun _ => True) (rtwIsCckratesIncluded rates) := by
  have hloop := cckLoop_ends isCck (Nat.zero_le rates.length)
    (by omega : rates.length < 0 + (rates.length + 1))
  rw [List.drop_zero] at hloop
  exact hloop.weaken fun _ _ => trivial

theorem rtwIsCckratesonlyIncluded_ends (rates : List UInt8) :
    EndsWhen (0 ∈ rates ∨ ∃ r ∈ rates, ¬ isCck r) (fun only => 0 ∈ rates ∨ only = false)
      (rtwIsCckratesonlyIncluded rates) := by
  have hloop := cckLoop_ends (fun r => !isCck r) (Nat.zero_le rates.length)
    (by omega : rates.length < 0 + (rates.length + 1))
  rw [List.drop_zero] at hloop
  refine (hloop.bind_ok fun other hother => ?_).iff (by simp)
  exact .ok (hother.imp id fun h => by rw [h]; rfl)

theorem rtwCheckNetworkType_ends (rates : List UInt8) (n : ℕ) (channel : UInt8) :
    EndsWhen (TypeFits channel rates) (fun _ => True)
      (rtwCheckNetworkType rates n channel.toNat) := by
  rw [rtwCheckNetworkType, TypeFits]
  by_cases hch : 14 < channel.toNat
  · rw [if_pos hch]
    refine ((rtwIsCckratesIncluded_ends rates).bind_ok fun _ _ => .ok trivial).iff ?_
    exact or_congr_right (and_iff_left fun hle => absurd hch (Nat.not_lt.mpr hle)).symm
  · rw [if_neg hch, forall_prop_of_true (Nat.not_lt.mp hch)]
    have hrest : ∀ only, 0 ∈ rates ∨ only = false →
        EndsWhen (0 ∈ rates ∨ ∃ r ∈ rates, isCck r) (fun _ => True)
          (if only = true then .ok wireless11b
            else rtwIsCckratesIncluded rates >>= fun included =>
              .ok (if included then wireless11bg else wireless11g)) := by
      intro only honly
      refine .ite (fun h => ?_) fun _ =>
        (rtwIsCckratesIncluded_ends rates).bind_ok fun _ _ => .ok trivial
      have hzero : 0 ∈ rates := honly.resolve_right fun hno => by rw [hno] at h; cases h
      exact .ok_of (.inl hzero) trivial
    refine ((rtwIsCckratesonlyIncluded_ends rates).bind hrest).iff ?_
    rw [← or_and_left, and_comm]

end type

/-! ## The ERP element and the ciphers -/

/-- The ciphers in the RSN element and in the WPA element that are found. -/
def rsnCiphers (es : List Elem) (t : List UInt8) : ℕ × ℕ :=
  match hit 48 es t with
  | none => (0, 0)
  | some (n, d) => if n = 0 then (0, 0) else ciphersAt rsn (48 :: UInt8.ofNat n :: d) n

def wpaCiphers (es : List Elem) (t : List UInt8) : ℕ × ℕ :=
  match vendorOf oui1 es t with
  | none => (0, 0)
  | some (n, d) => ciphersAt wpa (221 :: UInt8.ofNat n :: d) n

section ciphers

variable {s : RtlPriv} {es : List Elem} {t f pre d : List UInt8} {i len : UInt8}

theorem drop_found (hf : f = pre ++ i :: len :: d) :
    f.drop pre.length = i :: UInt8.ofNat len.toNat :: d := by
  rw [hf, List.drop_left, UInt8.ofNat_toNat]

/-- A parser at what is found. -/
theorem parser_ends {fmt : Format} (hid : fmt.id = i) (n : ℕ) (d : List UInt8) :
    EndsWhen (ParserFits fmt n d)
      (fun o => ciphersAt fmt (i :: UInt8.ofNat n :: d) n =
        if o.ret then (o.groupCipher, o.pairwiseCipher) else (0, 0))
      (parseIn fmt (i :: UInt8.ofNat n :: d) (n + 2) (start false)) := by
  subst hid
  refine (EndsWhen.self _).weaken fun o ho => ?_
  rw [ciphersAt, ho]

theorem adoptErp_ends (h : Holds s.network es t) :
    EndsWhen (HitFits 42 (fun n d => n = 1 → d ≠ []) es t) (fun _ => True) (adoptErp s) := by
  apply h.lookup
  · exact fun _ => .ok trivial
  · intro pre len d hf hhit
    by_cases h0 : len.toNat = 0
    · simp only [if_pos h0]
      exact .ok_of (by omega) trivial
    · simp only [if_neg h0, Mlme.erpIeHandler, readByte_length hf, bind_ok]
      by_cases h1 : 1 < len.toNat
      · rw [if_pos h1, bind_ok]
        exact .ok_of (by omega) trivial
      · rw [if_neg h1]
        refine (((endsWhen_data hf len.toNat).bind_ok fun _ _ =>
          .ok (Q := fun _ => True) trivial).bind_ok fun _ _ => .ok trivial).iff ?_
        rw [show len.toNat = 1 by omega, ← List.length_pos_iff, forall_prop_of_true rfl]
        exact Iff.rfl

theorem adoptRsn_ends (h : Holds s.network es t) :
    EndsWhen (HitFits 48 (fun n d => n ≠ 0 → ParserFits rsn n d) es t)
      (fun s' => ∃ sec, s' = { s with security := sec } ∧
        (sec.wpa2GroupCipher, sec.wpa2PairwiseCipher) = rsnCiphers es t) (adoptRsn s) := by
  apply h.lookup
  · intro hnone
    rw [rsnCiphers, hnone]
    exact .ok ⟨_, rfl, rfl⟩
  · intro pre len d hf hhit
    rw [rsnCiphers, hhit]
    by_cases h0 : len.toNat = 0
    · simp only [if_pos h0]
      exact .ok_of (fun hno => absurd h0 hno) ⟨_, rfl, rfl⟩
    · simp only [if_neg h0, drop_found hf]
      have hid : rsn.id = 48 := rfl
      refine ((parser_ends hid len.toNat d).bind_ok fun o ho => ?_).iff
        ⟨fun hp _ => hp, fun hp => hp h0⟩
      rw [ho]
      by_cases hret : o.ret = true
      · rw [if_pos hret, if_pos hret]
        exact .ok ⟨_, rfl, rfl⟩
      · rw [if_neg hret, if_neg hret]
        exact .ok ⟨_, rfl, rfl⟩

theorem adoptWpa_ends (h : Holds s.network es t) :
    EndsWhen (VendorHitFits oui1 (ParserFits wpa) es t)
      (fun s' => ∃ sec, s' = { s with security := sec } ∧
        (sec.wpa2GroupCipher, sec.wpa2PairwiseCipher) =
          (s.security.wpa2GroupCipher, s.security.wpa2PairwiseCipher) ∧
        (sec.wpaGroupCipher, sec.wpaPairwiseCipher) = wpaCiphers es t) (adoptWpa s) := by
  apply h.vendor
  · intro hnone
    rw [wpaCiphers, hnone]
    exact .ok ⟨_, rfl, rfl, rfl⟩
  · intro pre len d hf hfound
    rw [wpaCiphers, hfound]
    simp only [drop_found hf]
    have hid : wpa.id = 221 := rfl
    refine (parser_ends hid len.toNat d).bind_ok fun o ho => ?_
    rw [ho]
    by_cases hret : o.ret = true
    · rw [if_pos hret, if_pos hret]
      exact .ok ⟨_, rfl, rfl, rfl⟩
    · rw [if_neg hret, if_neg hret]
      exact .ok ⟨_, rfl, rfl, rfl⟩

end ciphers

/-! ## Edits in place -/

/-- The record with other elements. -/
structure Rewritten (b b' : WlanBssidEx) (f' : List UInt8) : Prop where
  same : b' = { b with ies := b'.ies }
  fixed : b'.body.take fixedIeLength = b.body.take fixedIeLength
  elements : b'.elements = f'

section edits

variable {b b₁ b₂ : WlanBssidEx} {f₁ f₂ pre d : List UInt8} {i len : UInt8}

theorem Rewritten.refl (b : WlanBssidEx) : Rewritten b b b.elements := ⟨rfl, rfl, rfl⟩

theorem Rewritten.trans (h₁ : Rewritten b b₁ f₁) (h₂ : Rewritten b₁ b₂ f₂) : Rewritten b b₂ f₂ := by
  refine ⟨?_, h₂.fixed.trans h₁.fixed, h₂.elements⟩
  rw [h₂.same, h₁.same]

/-- A copy of one byte. -/
theorem put_singleton {n off : ℕ} (a : Area n) (v : UInt8) (h : off < n) :
    (a.put off [v]).bytes = a.bytes.set off v := by
  have hlen : off < a.bytes.length := by rw [a.length_eq]; exact h
  have hone : [v].take (a.bytes.length - off) = [v] :=
    List.take_of_length_le (by rw [List.length_singleton]; omega)
  rw [Area.put_bytes, Buffer.overwrite, hone, List.set_eq_take_append_cons_drop, if_pos hlen]
  rfl

/-- A byte that is stored, which may be behind the elements. -/
theorem store_ends (b : WlanBssidEx) (k : ℕ) (v : UInt8) :
    EndsWhen (fixedIeLength + k < maxIeSz) (Rewritten b · (b.elements.set k v)) (b.store k v) := by
  refine ((endsWhen_copyIn b.ies (fixedIeLength + k) [v]).strengthen.bind_ok ?_).iff Iff.rfl
  rintro ies ⟨hroom, rfl⟩
  have hbytes := put_singleton b.ies v hroom
  refine .ok ⟨rfl, ?_, ?_⟩
  · rw [WlanBssidEx.body, WlanBssidEx.body]
    dsimp only
    rw [hbytes, List.take_set, List.take_set, List.set_eq_of_length_le]
    rw [List.length_take]
    omega
  · rw [WlanBssidEx.elements, WlanBssidEx.body, WlanBssidEx.elements, WlanBssidEx.body]
    dsimp only
    rw [hbytes, List.take_set, List.drop_set, if_neg (by omega), Nat.add_sub_cancel_left]

theorem elements_length_le (b : WlanBssidEx) : fixedIeLength + b.elements.length ≤ maxIeSz := by
  have hlen := b.ies.length_eq
  rw [WlanBssidEx.elements, WlanBssidEx.body, List.length_drop, List.length_take, hlen,
    fixedIeLength, maxIeSz]
  omega

/-- A byte of the data. -/
theorem set_data (pre d : List UInt8) (i len v : UInt8) (k : ℕ) :
    (pre ++ i :: len :: d).set (pre.length + 2 + k) v = pre ++ i :: len :: d.set k v := by
  rw [List.set_append, if_neg (by omega), Nat.add_assoc, Nat.add_sub_cancel_left, Nat.add_comm 2 k]
  rfl

theorem storeData_ends (hf : b.elements = pre ++ i :: len :: d) (k : ℕ) (v : UInt8) :
    EndsWhen (fixedIeLength + (pre.length + 2 + k) < maxIeSz)
      (Rewritten b · (pre ++ i :: len :: d.set k v)) (b.store (pre.length + 2 + k) v) := by
  have hstore := store_ends b (pre.length + 2 + k) v
  rw [hf, set_data] at hstore
  exact hstore

theorem editData_ends (hf : b.elements = pre ++ i :: len :: d) (k : ℕ) (g : UInt8 → UInt8) :
    EndsWhen (k < d.length) (Rewritten b · (pre ++ i :: len :: d.modify k g))
      (b.edit (pre.length + 2 + k) g) := by
  have hroom := elements_length_le b
  rw [hf, List.length_append, List.length_cons, List.length_cons] at hroom
  refine ((endsWhen_dataByte hf k).strengthen.bind (D := k < d.length) ?_).iff (and_self_iff)
  rintro v ⟨hk, rfl⟩
  have hmod : d.modify k g = d.set k (g (d.getD k 0)) := by
    rw [List.modify_eq_set_getElem?, List.getD_eq_getElem?_getD, List.getElem?_eq_getElem hk]
    rfl
  rw [hmod]
  exact (storeData_ends hf k _).iff (iff_of_true (by omega) hk)

/-- An edit and what follows it. -/
theorem editData_bind {D : Prop} {k : ℕ} {g : UInt8 → UInt8}
    {h : WlanBssidEx → Except Fault WlanBssidEx} (hf : b.elements = pre ++ i :: len :: d)
    (hrest : ∀ b₁, b₁.elements = pre ++ i :: len :: d.modify k g →
      EndsWhen D (Rewritten b₁ · f₂) (h b₁)) :
    EndsWhen (k < d.length ∧ D) (Rewritten b · f₂) (b.edit (pre.length + 2 + k) g >>= h) :=
  (editData_ends hf k g).bind fun b₁ h₁ => (hrest b₁ h₁.elements).weaken fun _ h₂ => h₁.trans h₂

theorem editWmm_ends (hf : b.elements = pre ++ i :: len :: d) :
    EndsWhen (20 < d.length) (Rewritten b · (pre ++ i :: len :: wmmBits d))
      (editWmm b pre.length) := by
  refine (editData_bind hf fun b₁ h₁ => editData_bind h₁ fun b₂ h₂ => editData_bind h₂ fun b₃ h₃ =>
    editData_bind h₃ fun b₄ h₄ => editData_ends h₄ 20 (· &&& 0xef)).iff ?_
  simp only [List.length_modify]
  omega

theorem editMcs_ends (e : Env) (hf : b.elements = pre ++ i :: len :: d) :
    EndsWhen (e.rf1t1r → fixedIeLength + (pre.length + 2 + 4) < maxIeSz)
      (Rewritten b · (pre ++ i :: len :: if e.rf1t1r then (d.set 3 0xff).set 4 0x00 else d))
      (editMcs e b pre.length) := by
  rw [editMcs]
  by_cases hrf : e.rf1t1r = true
  · rw [if_pos hrf, if_pos hrf]
    refine ((storeData_ends hf 3 0xff).bind fun b₁ h₁ =>
      (storeData_ends h₁.elements 4 0x00).weaken fun _ h₂ => h₁.trans h₂).iff ?_
    rw [forall_prop_of_true hrf]
    omega
  · rw [if_neg hrf, if_neg hrf]
    refine .ok_of (fun h => absurd h hrf) ?_
    rw [← hf]
    exact .refl b

theorem editHt_ends (e : Env) (ccmp : Bool) (hf : b.elements = pre ++ i :: len :: d) :
    EndsWhen (2 < d.length ∧ (e.rf1t1r → fixedIeLength + (pre.length + 2 + 4) < maxIeSz))
      (Rewritten b · (pre ++ i :: len :: htBytes e ccmp d)) (editHt e ccmp b pre.length) := by
  refine (editData_bind hf fun b₁ h₁ => editData_bind h₁ fun b₂ h₂ => editMcs_ends e h₂).iff ?_
  rw [List.length_modify, ← and_assoc, and_self_iff]

end edits

/-! ## Elements after an edit -/

/-- What is found is a whole element, or the one that is cut off. -/
def FoundIn (i : UInt8) (es : List Elem) (t : List UInt8) (n : ℕ) (d : List UInt8) : Prop :=
  (∃ es₁ x es₂, es = es₁ ++ x :: es₂ ∧ x.id = i ∧ n = x.data.length ∧
    d = x.data ++ (encodeAll es₂ ++ t)) ∨ ∃ len, t = i :: len :: d ∧ n = len.toNat

/-- An element after an edit of one with the property. -/
def Touched (p : Elem → Prop) (g : List UInt8 → List UInt8) (x y : Elem) : Prop :=
  y = x ∨ p x ∧ y.id = x.id ∧ y.data = g x.data

/-- The stump after an edit of an element that is cut off. -/
def TouchedStump (i : UInt8) (g : List UInt8 → List UInt8) (t t' : List UInt8) : Prop :=
  t' = t ∨ ∃ len d, t = i :: len :: d ∧ t' = i :: len :: g d

/-- The record after an edit. -/
structure Edited (p : Elem → Prop) (i : UInt8) (g : List UInt8 → List UInt8) (b b' : WlanBssidEx)
    (es : List Elem) (t : List UInt8) (es' : List Elem) (t' : List UInt8) : Prop where
  same : b' = { b with ies := b'.ies }
  fixed : b'.body.take fixedIeLength = b.body.take fixedIeLength
  elements : b'.elements = encodeAll es' ++ t'
  stump : Stump t'
  list : List.Forall₂ (Touched p g) es es'
  tail : TouchedStump i g t t'

section touched

variable {p : Elem → Prop} {g : List UInt8 → List UInt8} {i j : UInt8} {es es' : List Elem}
  {t t' d : List UInt8} {n : ℕ} {b b' : WlanBssidEx}

theorem FoundIn.cons (h : FoundIn i es t n d) (x : Elem) : FoundIn i (x :: es) t n d := by
  rcases h with ⟨es₁, y, es₂, rfl, hid, hn, hd⟩ | h
  · exact .inl ⟨x :: es₁, y, es₂, rfl, hid, hn, hd⟩
  · exact .inr h

theorem hit_foundIn (h : hit i es t = some (n, d)) : FoundIn i es t n d := by
  induction es with
  | nil =>
    rcases t with _ | ⟨k, _ | ⟨len, rest⟩⟩
    · cases h
    · cases h
    · rw [hit] at h
      by_cases hid : k = i
      · rw [if_pos hid] at h
        obtain ⟨rfl, rfl⟩ := Prod.mk.inj (Option.some.inj h)
        exact .inr ⟨len, by rw [hid], rfl⟩
      · rw [if_neg hid] at h
        cases h
  | cons x es ih =>
    rw [hit] at h
    by_cases hid : x.id = i
    · rw [if_pos hid] at h
      obtain ⟨rfl, rfl⟩ := Prod.mk.inj (Option.some.inj h)
      exact .inl ⟨[], x, es, rfl, hid, rfl, rfl⟩
    · rw [if_neg hid] at h
      exact (ih h).cons x

/-- What is found has the bytes that were looked for. -/
theorem sought_foundIn {oui : List UInt8} {total bound place : ℕ}
    (h : sought oui total bound place es t = some (n, d)) :
    FoundIn 221 es t n d ∧ d.take oui.length = oui := by
  induction es generalizing bound place with
  | nil =>
    rcases t with _ | ⟨k, _ | ⟨len, rest⟩⟩
    · cases h
    · cases h
    · rw [sought] at h
      by_cases hc : place < bound ∧ k = 221 ∧ rest.take oui.length = oui
      · rw [if_pos hc] at h
        obtain ⟨rfl, rfl⟩ := Prod.mk.inj (Option.some.inj h)
        exact ⟨.inr ⟨len, by rw [hc.2.1], rfl⟩, hc.2.2⟩
      · rw [if_neg hc] at h
        cases h
  | cons x es ih =>
    have hrest : ∀ {bound place}, sought oui total bound place es t = some (n, d) →
        FoundIn 221 (x :: es) t n d ∧ d.take oui.length = oui :=
      fun h => ⟨(ih h).1.cons x, (ih h).2⟩
    rw [sought] at h
    split_ifs at h with hlt hid hsame hnil
    · obtain ⟨rfl, rfl⟩ := Prod.mk.inj (Option.some.inj h)
      exact ⟨.inl ⟨[], x, es, rfl, hid, rfl, rfl⟩, hsame⟩
    · exact hrest h
    · exact hrest h

theorem touched_refl (es : List Elem) : List.Forall₂ (Touched p g) es es :=
  List.forall₂_same.mpr fun _ _ => .inl rfl

/-- The elements after an edit in the data of the one that is found. -/
theorem edited_of_found (h : Holds b es t) {pre : List UInt8} {len : UInt8}
    (hf : b.elements = pre ++ i :: len :: d) (hfound : FoundIn i es t len.toNat d)
    (hb : Rewritten b b' (pre ++ i :: len :: g d)) (hlen : ∀ a, (g a).length = a.length)
    (hlocal : ∀ a r, a.length = len.toNat → g (a ++ r) = g a ++ r)
    (hp : ∀ x r, x.id = i → x.data.length = len.toNat → d = x.data ++ r → p x) :
    ∃ es' t', Edited p i g b b' es t es' t' := by
  rw [h.elements] at hf
  rcases hfound with ⟨es₁, x, es₂, rfl, hid, hn, rfl⟩ | ⟨len', rfl, hn⟩
  · have hlt : (g x.data).length < 256 := by rw [hlen]; exact x.length_lt
    have hbytes : encodeAll es₁ ++ i :: UInt8.ofNat x.data.length ::
        (x.data ++ (encodeAll es₂ ++ t)) = pre ++ i :: len :: (x.data ++ (encodeAll es₂ ++ t)) := by
      rw [← hf, encodeAll_append, encodeAll_cons, List.append_assoc, List.append_assoc, Elem.encode,
        hid]
      rfl
    obtain ⟨rfl, -, hlen'⟩ := header_unique hbytes
    refine ⟨es₁ ++ ⟨i, g x.data, hlt⟩ :: es₂, t, hb.same, hb.fixed, ?_, h.stump, ?_, .inl rfl⟩
    · rw [hb.elements, hlocal _ _ hn.symm, ← hlen', ← hlen x.data, encodeAll_append,
        encodeAll_cons, List.append_assoc, List.append_assoc]
      rfl
    · refine List.rel_append (touched_refl es₁) (.cons (.inr ⟨hp x _ hid hn.symm rfl, ?_, rfl⟩)
        (touched_refl es₂))
      exact hid.symm
  · obtain ⟨rfl, -, -⟩ := header_unique hf
    refine ⟨es, i :: len :: g d, hb.same, hb.fixed, hb.elements, ?_, touched_refl es, .inr ?_⟩
    · have hstump : d.length < len'.toNat := h.stump
      show (g d).length < len.toNat
      rw [hlen, hn]
      exact hstump
    · exact ⟨len, d, by rw [UInt8.toNat.inj hn], rfl⟩

end touched

/-! ## Searches after an edit -/

section after

variable {p : Elem → Prop} {g : List UInt8 → List UInt8} {i j : UInt8} {es es' : List Elem}
  {t t' : List UInt8} {b b' : WlanBssidEx}

theorem Touched.id_eq {x y : Elem} (h : Touched p g x y) : y.id = x.id := by
  rcases h with rfl | ⟨-, hid, -⟩
  · rfl
  · exact hid

theorem Touched.length_eq (hlen : ∀ a, (g a).length = a.length) {x y : Elem}
    (h : Touched p g x y) : y.data.length = x.data.length := by
  rcases h with rfl | ⟨-, -, hdata⟩
  · rfl
  · rw [hdata, hlen]

theorem TouchedStump.length_eq (hlen : ∀ a, (g a).length = a.length) (h : TouchedStump i g t t') :
    t'.length = t.length := by
  rcases h with rfl | ⟨len, d, rfl, rfl⟩
  · rfl
  · rw [List.length_cons, List.length_cons, List.length_cons, List.length_cons, hlen]

theorem encodeAll_touched (hlen : ∀ a, (g a).length = a.length)
    (h : List.Forall₂ (Touched p g) es es') : (encodeAll es').length = (encodeAll es).length := by
  induction h with
  | nil => rfl
  | cons hxy _ ih =>
    rw [encodeAll_cons, encodeAll_cons, List.length_append, List.length_append, ih,
      Elem.encode_length, Elem.encode_length, hxy.length_eq hlen]

theorem exists_id_touched (h : List.Forall₂ (Touched p g) es es') :
    (∃ y ∈ es', y.id = j) ↔ ∃ x ∈ es, x.id = j := by
  induction h with
  | nil => exact Iff.rfl
  | cons hxy _ ih => rw [List.exists_mem_cons_iff, List.exists_mem_cons_iff, ih, hxy.id_eq]

/-- The elements with other ids are found where they were. -/
theorem hit_touched (hlen : ∀ a, (g a).length = a.length) (hp : ∀ x, p x → x.id = i) (hij : i ≠ j)
    (h : List.Forall₂ (Touched p g) es es') (ht : TouchedStump i g t t') :
    (hit j es' t').map (fun r => (r.1, r.2.length)) =
      (hit j es t).map fun r => (r.1, r.2.length) := by
  induction h with
  | nil =>
    rcases ht with rfl | ⟨len, d, rfl, rfl⟩
    · rfl
    · rw [hit, hit, if_neg hij, if_neg hij]
  | @cons x y es es' hxy hes ih =>
    rw [hit, hit, hxy.id_eq]
    by_cases hid : x.id = j
    · have hy : y = x := hxy.resolve_right fun hno => hij ((hp x hno.1).symm.trans hid)
      rw [if_pos hid, if_pos hid, hy, Option.map_some, Option.map_some]
      simp only [List.length_append, encodeAll_touched hlen hes, ht.length_eq hlen]
    · rw [if_neg hid, if_neg hid]
      exact ih

theorem hitFits_touched {P : ℕ → ℕ → Prop} (hlen : ∀ a, (g a).length = a.length)
    (hp : ∀ x, p x → x.id = i) (hij : i ≠ j) (h : Edited p i g b b' es t es' t') :
    HitFits j (fun n d => P n d.length) es' t' ↔ HitFits j (fun n d => P n d.length) es t := by
  have hhit := hit_touched hlen hp hij h.list h.tail
  rw [HitFits, HitFits, LookFits, LookFits, h.tail.length_eq hlen, exists_id_touched h.list]
  refine and_congr_right fun _ => ?_
  cases hold : hit j es t with
  | none =>
    rw [hold, Option.map_none, Option.map_eq_none_iff] at hhit
    rw [hhit]
  | some r =>
    rw [hold, Option.map_some, Option.map_eq_some_iff] at hhit
    obtain ⟨r', hnew, heq⟩ := hhit
    obtain ⟨n, d⟩ := r
    obtain ⟨n', d'⟩ := r'
    obtain ⟨rfl, hd⟩ := Prod.mk.inj heq
    have hd' : d'.length = d.length := hd
    rw [hnew]
    constructor
    · rintro hall _ _ ⟨⟩
      rw [← hd']
      exact hall _ _ rfl
    · rintro hall _ _ ⟨⟩
      rw [hd']
      exact hall _ _ rfl

theorem claimed_touched (hlen : ∀ a, (g a).length = a.length) (hp : ∀ x, p x → x.id = i)
    (hij : i ≠ j) (h : Edited p i g b b' es t es' t') : claimed j es' t' = claimed j es t := by
  have hhit := congrArg (Option.map Prod.fst) (hit_touched hlen hp hij h.list h.tail)
  rw [Option.map_map, Option.map_map] at hhit
  exact congrArg (Option.getD · 0) hhit

theorem Edited.holds (hlen : ∀ a, (g a).length = a.length) (h : Edited p i g b b' es t es' t')
    (hb : Holds b es t) : Holds b' es' t' := by
  refine ⟨h.elements, ?_, h.stump⟩
  have hlim : b'.limit = b.limit := by rw [h.same]; rfl
  rw [hlim, hb.limit, hb.elements, h.elements, List.length_append, List.length_append,
    encodeAll_touched hlen h.list, h.tail.length_eq hlen]

theorem Edited.refl (hb : Holds b es t) : Edited p i g b b es t es t :=
  ⟨rfl, rfl, hb.elements, hb.stump, touched_refl es, .inl rfl⟩

end after

/-! ## The WMM and the HT capability element -/

section wmm

variable {e : Env} {s : RtlPriv} {es : List Elem} {t : List UInt8}

theorem wmmBits_length (d : List UInt8) : (wmmBits d).length = d.length := by
  simp only [wmmBits, List.length_modify]

/-- An edit of the part in front. -/
theorem modify_append_left {a : List UInt8} (r : List UInt8) {k : ℕ} (g : UInt8 → UInt8)
    (h : k < a.length) : (a ++ r).modify k g = a.modify k g ++ r := by
  have h' : k < (a ++ r).length := by rw [List.length_append]; omega
  rw [List.modify_eq_take_cons_drop h', List.modify_eq_take_cons_drop h,
    List.take_append_of_le_length (Nat.le_of_lt h), List.drop_append_of_le_length h,
    List.getElem_append_left h, List.append_assoc]
  rfl

theorem wmmBits_append {a : List UInt8} (r : List UInt8) (h : 20 < a.length) :
    wmmBits (a ++ r) = wmmBits a ++ r := by
  rw [wmmBits, wmmBits, modify_append_left r _ (by omega),
    modify_append_left r _ (by rw [List.length_modify]; omega), modify_append_left,
    modify_append_left, modify_append_left]
  all_goals
    simp only [List.length_modify]
    omega

/-- The elements after the WMM element has been edited. -/
theorem adoptWmm_ends (h : Holds s.network es t)
    (hns : e.wmmEnable = true → ∀ n d, vendorOf wmmParaIe es t = some (n, d) → 20 < n) :
    EndsWhen (e.wmmEnable = true → VendorHitFits wmmParaIe (fun _ d => 20 < d.length) es t)
      (fun s' => ∃ b q es' t', s' = { s with network := b, qosOption := q } ∧
        Edited (IsVendor wmmParaIe) 221 wmmBits s.network b es t es' t') (adoptWmm e s) := by
  rw [adoptWmm]
  by_cases hen : e.wmmEnable = true
  · rw [if_pos hen, forall_prop_of_true hen]
    apply h.vendor
    · exact fun _ => .ok ⟨_, _, es, t, rfl, .refl h⟩
    · intro pre len d hf hfound
      have hn := hns hen _ _ hfound
      obtain ⟨hin, houi⟩ := sought_foundIn hfound
      refine (editWmm_ends hf).bind_ok fun b hb => ?_
      obtain ⟨es', t', hedit⟩ := edited_of_found (p := IsVendor wmmParaIe) h hf hin hb
        wmmBits_length (fun a r ha => wmmBits_append r (by omega)) fun x r hid hlen hd => by
          have hsix : wmmParaIe.length ≤ x.data.length := by
            rw [hlen]
            exact Nat.le_trans (by decide : wmmParaIe.length ≤ 20) (Nat.le_of_lt hn)
          rw [hd, List.take_append_of_le_length hsix] at houi
          exact ⟨hid, houi⟩
      exact .ok ⟨b, true, es', t', rfl, hedit⟩
  · rw [if_neg hen]
    exact .ok_of (fun hno => absurd hno hen) ⟨_, _, es, t, rfl, .refl h⟩

theorem htBytes_length (e : Env) (ccmp : Bool) (d : List UInt8) :
    (htBytes e ccmp d).length = d.length := by
  rw [htBytes]
  split_ifs
  · simp only [List.length_set, List.length_modify]
  · simp only [List.length_modify]

theorem htBytes_append (e : Env) (ccmp : Bool) {a : List UInt8} (r : List UInt8)
    (h : htEdited e ≤ a.length) : htBytes e ccmp (a ++ r) = htBytes e ccmp a ++ r := by
  rw [htEdited] at h
  have htwo : 2 < a.length := by
    split_ifs at h
    · omega
    · omega
  rw [htBytes, htBytes, modify_append_left r _ htwo,
    modify_append_left r _ (by rw [List.length_modify]; exact htwo)]
  by_cases hrf : e.rf1t1r = true
  · rw [if_pos hrf] at h
    rw [if_pos hrf, if_pos hrf,
      List.set_append_left _ _ (by rw [List.length_modify, List.length_modify]; omega),
      List.set_append_left _ _ (by
        rw [List.length_set, List.length_modify, List.length_modify]; omega)]
  · rw [if_neg hrf, if_neg hrf]

/-- `pHT_caps_ie` is a whole element. -/
def HtCapsAt (f : List UInt8) (p : ℕ) : Prop :=
  ∃ pre len d, f = pre ++ 45 :: len :: d ∧ p = pre.length ∧ len.toNat ≤ d.length

theorem adoptHt_ends (h : Holds s.network es t)
    (hns : ∀ n d, hit 45 es t = some (n, d) → n ≠ 0 → htEdited e ≤ n) :
    EndsWhen (HitFits 45 (fun n d => n ≠ 0 → n ≤ d.length ∧ n ≤ htCapSize) es t)
      (fun r => ∃ b c es' t', r.1 = { s with network := b, htCap := c } ∧
        Edited (fun x => x.id = 45) 45 (htBytes e s.security.ccmp) s.network b es t es' t' ∧
        (r.2.isSome = true ↔ claimed 45 es t ≠ 0) ∧ ∀ p, r.2 = some p → HtCapsAt b.elements p)
      (adoptHt e s) := by
  apply h.lookup
  · intro hnone
    refine .ok ⟨_, _, es, t, rfl, .refl h, ?_, fun p hp => by cases hp⟩
    rw [Mlme.BssInfo.claimed_none hnone]
    exact iff_of_false Bool.false_ne_true fun hno => hno rfl
  · intro pre len d hf hhit
    rw [Mlme.BssInfo.claimed_some hhit]
    by_cases h0 : len.toNat = 0
    · simp only [if_pos h0]
      refine .ok_of (fun hno => absurd h0 hno) ⟨_, _, es, t, rfl, .refl h, ?_, fun p hp => by cases hp⟩
      exact iff_of_false Bool.false_ne_true fun hno => hno h0
    · simp only [if_neg h0]
      have hn := hns _ _ hhit h0
      have hroom := elements_length_le s.network
      rw [hf, List.length_append, List.length_cons, List.length_cons] at hroom
      have hthree : 3 ≤ htEdited e ∧ (e.rf1t1r = true → htEdited e = 5) := by
        rw [htEdited]
        split_ifs with hrf
        · exact ⟨by omega, fun _ => rfl⟩
        · exact ⟨by omega, fun hno => absurd hno hrf⟩
      have hcopy : ∀ b, b.elements = pre ++ 45 :: len :: htBytes e s.security.ccmp d →
          EndsWhen (len.toNat ≤ d.length ∧ len.toNat ≤ htCapSize)
            (fun r => ∃ c, r = ({ s with network := b, htCap := c }, some pre.length) ∧
              len.toNat ≤ d.length)
            (readBytes b.elements (pre.length + 2) len.toNat >>= fun bytes =>
              s.htCap.copyIn 0 bytes >>= fun htCap =>
                .ok ({ s with network := b, htCap := htCap }, some pre.length)) := by
        intro b hb
        have hread := endsWhen_data hb len.toNat
        rw [htBytes_length] at hread
        apply hread.strengthen.bind
        rintro bytes ⟨hle, rfl⟩
        have hlen : ((htBytes e s.security.ccmp d).take len.toNat).length = len.toNat := by
          rw [List.length_take, htBytes_length, Nat.min_eq_left hle]
        refine ((endsWhen_copyIn s.htCap 0 _).bind_ok fun c _ => .ok ⟨c, rfl, hle⟩).iff ?_
        rw [hlen, Nat.zero_add]
      refine ((editHt_ends e s.security.ccmp hf).bind fun b hb =>
        (hcopy b hb.elements).weaken fun r hr => ?_).iff ?_
      · obtain ⟨c, rfl, hle⟩ := hr
        obtain ⟨es', t', hedit⟩ := edited_of_found (p := fun x => x.id = 45) h hf
          (hit_foundIn hhit) hb (htBytes_length e _)
          (fun a r ha => htBytes_append e _ r (by omega)) fun x r hid _ _ => hid
        refine ⟨b, c, es', t', rfl, hedit, iff_of_true rfl h0, ?_⟩
        rintro _ ⟨⟩
        exact ⟨pre, len, _, hb.elements, rfl, by rw [htBytes_length]; exact hle⟩
      · rw [forall_prop_of_true h0]
        refine and_iff_right_of_imp fun hle => ⟨by omega, fun hrf => ?_⟩
        have hfive := hthree.2 hrf
        omega

end wmm

/-! ## The whole function on elements -/

section whole

variable {e : Env} {s s' : RtlPriv} {b : WlanBssidEx} {es : List Elem} {t f : List UInt8}
  {htCaps htInfo : Option ℕ}

theorem adoptRates_ends (h : Holds s.network es t) (channel : UInt8) :
    EndsWhen (HitFits 1 (fun n d => n ≤ d.length ∧ n ≤ lengthRatesEx) es t ∧
        HitFits 50 (fun n d => n ≤ d.length ∧ claimed 1 es t + n ≤ lengthRatesEx) es t ∧
        TypeFits channel (ratesOf es t).bytes)
      (fun r => ∃ v, r.1 = { s with network.supportedRates := v }) (adoptRates channel s) := by
  have hfirst := addRates_ends h 1 (.zero lengthRatesEx, 0)
  simp only [Nat.zero_add] at hfirst
  refine hfirst.bind ?_
  rintro _ rfl
  have hsecond := addRates_ends h 50
    ((Area.zero lengthRatesEx).put 0 (copied 1 es t), claimed 1 es t)
  refine hsecond.bind ?_
  rintro _ rfl
  exact (rtwCheckNetworkType_ends _ _ channel).bind_ok fun _ _ => .ok ⟨_, rfl⟩

/-- `pHT_info_ie` is the element that is found, unless it is empty. -/
def HtInfoAt (b : WlanBssidEx) (es : List Elem) (t : List UInt8) (htInfo : Option ℕ) : Prop :=
  (htInfo = none ∧ ∀ n d, hit 61 es t = some (n, d) → n = 0) ∨
    ∃ pre len d, htInfo = some pre.length ∧ b.elements = pre ++ 61 :: len :: d ∧
      hit 61 es t = some (len.toNat, d) ∧ len.toNat ≠ 0

theorem findHtInfo_ends (h : Holds b es t) :
    EndsWhen (LookFits 61 es t) (HtInfoAt b es t) (findHtInfo b) := by
  have hfind : EndsWhen (HitFits 61 (fun _ _ => True) es t) (HtInfoAt b es t) (findHtInfo b) := by
    apply h.lookup
    · intro hnone
      refine .ok (.inl ⟨rfl, fun n d hhit => ?_⟩)
      rw [hnone] at hhit
      cases hhit
    · intro pre len d hf hhit
      by_cases h0 : len.toNat = 0
      · simp only [if_pos h0]
        refine .ok (.inl ⟨rfl, fun n d' hhit' => ?_⟩)
        rw [hhit] at hhit'
        rw [← (Prod.mk.inj (Option.some.inj hhit')).1]
        exact h0
      · simp only [if_neg h0]
        exact .ok (.inr ⟨pre, len, d, rfl, hf, hhit, h0⟩)
  exact hfind.iff (and_iff_left fun _ _ _ => trivial)

theorem htInfoHandler_ends (hinfo : HtInfoAt b es t htInfo) :
    EndsWhen (∀ n d, hit 61 es t = some (n, d) → n ≠ 0 → n ≤ Mlme.htInfoSize → n ≤ d.length)
      (fun _ => True) (htInfoHandler b.elements htInfo) := by
  rcases hinfo with ⟨rfl, hzero⟩ | ⟨pre, len, d, rfl, hf, hhit, h0⟩
  · exact .ok_of (fun n d hhit hno => absurd (hzero n d hhit) hno) trivial
  · have hcond : (len.toNat ≤ Mlme.htInfoSize → len.toNat ≤ d.length) ↔
        ∀ n d, hit 61 es t = some (n, d) → n ≠ 0 → n ≤ Mlme.htInfoSize → n ≤ d.length := by
      rw [hhit]
      refine ⟨?_, fun hall => hall _ _ rfl h0⟩
      rintro hle _ _ ⟨⟩ _
      exact hle
    refine EndsWhen.iff ?_ hcond
    rw [htInfoHandler]
    refine EndsWhen.bind_ok (Q := fun _ => True) ?_ fun _ _ => .ok trivial
    rw [Mlme.htInfoHandler, if_neg (by decide), readByte_length hf, bind_ok]
    by_cases hbig : Mlme.htInfoSize < len.toNat
    · rw [if_pos hbig]
      exact .ok_of (fun hle => absurd hle (Nat.not_le.mpr hbig)) trivial
    · rw [if_neg hbig, forall_prop_of_true (Nat.not_lt.mp hbig)]
      exact (endsWhen_data hf len.toNat).bind_ok fun _ _ => .ok trivial

theorem handleHt_ends (hcaps : ∀ p, htCaps = some p → HtCapsAt b.elements p)
    (hinfo : HtInfoAt b es t htInfo) :
    EndsWhen (htCaps.isSome = true → ∀ n d, hit 61 es t = some (n, d) → n ≠ 0 →
        n ≤ Mlme.htInfoSize → n ≤ d.length)
      (fun _ => True) (handleHt b.elements htCaps htInfo) := by
  cases htCaps with
  | none => exact .ok_of (fun hno => absurd hno Bool.false_ne_true) trivial
  | some p =>
    obtain ⟨pre, len, d, hf, rfl, hle⟩ := hcaps p rfl
    rw [Option.isSome_some, forall_prop_of_true rfl, handleHt]
    refine EndsWhen.ok_bind (Q := fun _ => True) ?_ fun _ _ => htInfoHandler_ends hinfo
    rw [Mlme.htCapsHandler, if_neg (by decide), readByte_length hf, bind_ok]
    exact ((endsWhen_data hf len.toNat).bind_ok fun _ _ => .ok trivial).iff (iff_of_true hle trivial)

theorem adoptRest_ends (h : Holds s.network es t) (networkType : ℕ)
    (hcaps : ∀ p, htCaps = some p → HtCapsAt s.network.elements p) :
    EndsWhen (HitFits 61 (fun n d => n ≠ 0 → htCaps.isSome = true → n ≤ Mlme.htInfoSize →
        n ≤ d.length) es t)
      (fun s' => s'.security = s.security ∧ ∃ type len, s'.network =
        { s.network with networkTypeInUse := type, length := len })
      (adoptRest networkType s htCaps) := by
  have hrest := (findHtInfo_ends h).bind fun htInfo hinfo =>
    (handleHt_ends hcaps hinfo).bind_ok fun _ _ => EndsWhen.ok (Q := fun s' : RtlPriv =>
      s'.security = s.security ∧ ∃ type len, s'.network =
        { s.network with networkTypeInUse := type, length := len })
      (a := { s with
        network.networkTypeInUse :=
          inUse (if htCaps.isSome then networkType ||| wireless11_24n else networkType)
        network.length := fixedSz + s.network.ieLength
        networkType := if htCaps.isSome then networkType ||| wireless11_24n else networkType
        htOption := htCaps.isSome
        qosOption := s.qosOption || htCaps.isSome
        ampduEnable := s.ampduEnable || htCaps.isSome }) ⟨rfl, _, _, rfl⟩
  refine hrest.iff (and_congr_right fun _ => ?_)
  exact ⟨fun hall n d hhit h0 hsome hle => hall hsome n d hhit h0 hle,
    fun hall hsome n d hhit h0 hle => hall n d hhit h0 hsome hle⟩

/-- An SSID changes nothing else. -/
theorem withSsid_frame (s : RtlPriv) (r : Option (ℕ × List UInt8)) :
    (s.withSsid r).network.beaconPeriod = s.network.beaconPeriod ∧
      (s.withSsid r).network.body = s.network.body := by
  rcases r with _ | ⟨n, d⟩
  · exact ⟨rfl, rfl⟩
  · rw [RtlPriv.withSsid]
    split_ifs
    · exact ⟨rfl, rfl⟩
    · exact ⟨rfl, rfl⟩

theorem Holds.withSsid (h : Holds s.network es t) (r : Option (ℕ × List UInt8)) :
    Holds (s.withSsid r).network es t := by
  rcases r with _ | ⟨n, d⟩
  · exact h
  · rw [RtlPriv.withSsid]
    split_ifs
    · exact h
    · exact ⟨h.elements, h.limit, h.stump⟩

/-- What is stored in the place of the elements. -/
def Stored (e : Env) (b : WlanBssidEx) (es : List Elem) (t : List UInt8) : Prop :=
  ∃ ccmp es₁ t₁ es₂ t₂, List.Forall₂ (Touched (IsVendor wmmParaIe) wmmBits) es es₁ ∧
    TouchedStump 221 wmmBits t t₁ ∧
    List.Forall₂ (Touched (fun x => x.id = 45) (htBytes e ccmp)) es₁ es₂ ∧
    TouchedStump 45 (htBytes e ccmp) t₁ t₂ ∧ b.elements = encodeAll es₂ ++ t₂

/-- What is adopted of the elements. -/
structure Adopted (e : Env) (cap : ℕ) (s : RtlPriv) (es : List Elem) (t : List UInt8)
    (s' : RtlPriv) : Prop where
  beaconPeriod : s'.network.beaconPeriod = s.network.beaconPeriod
  privacy : s'.network.privacy = if cap.testBit 4 then 1 else 0
  ssid : s'.network.ssid = (s.withSsid (hit 0 es t)).network.ssid
  ssidLength : s'.network.ssidLength = (s.withSsid (hit 0 es t)).network.ssidLength
  dsConfig : s'.network.dsConfig = (channelOf es t).toNat
  rsn : (s'.security.wpa2GroupCipher, s'.security.wpa2PairwiseCipher) = rsnCiphers es t
  wpa : (s'.security.wpaGroupCipher, s'.security.wpaPairwiseCipher) = wpaCiphers es t
  fixed : s'.network.body.take fixedIeLength = s.network.body.take fixedIeLength
  stored : Stored e s'.network es t

/-- The two edits and what follows them. -/
theorem adoptEdits_ends (e : Env) (networkType : ℕ) (h : Holds s.network es t)
    (hns : ¬ Stray e es t) :
    EndsWhen ((e.wmmEnable = true → VendorHitFits wmmParaIe (fun _ d => 20 < d.length) es t) ∧
        HitFits 45 (fun n d => n ≠ 0 → n ≤ d.length ∧ n ≤ htCapSize) es t ∧
        HitFits 61 (fun n d => n ≠ 0 → claimed 45 es t ≠ 0 → n ≤ Mlme.htInfoSize →
          n ≤ d.length) es t)
      (fun s' => s'.security = s.security ∧
        (∃ type len ies, s'.network =
          { s.network with networkTypeInUse := type, length := len, ies := ies }) ∧
        s'.network.body.take fixedIeLength = s.network.body.take fixedIeLength ∧
        Stored e s'.network es t)
      (adoptWmm e s >>= fun s => adoptHt e s >>= fun h => adoptRest networkType h.1 h.2) := by
  have hwmm : e.wmmEnable = true → ∀ n d, vendorOf wmmParaIe es t = some (n, d) → 20 < n :=
    fun hen n d hfound => Nat.lt_of_not_le fun hle => hns (.inl ⟨hen, n, d, hfound, hle⟩)
  have hht : ∀ n d, hit 45 es t = some (n, d) → n ≠ 0 → htEdited e ≤ n :=
    fun n d hhit h0 => Nat.le_of_not_lt fun hlt => hns (.inr ⟨n, d, hhit, h0, hlt⟩)
  have hvendor : ∀ x, IsVendor wmmParaIe x → x.id = 221 := fun x hx => hx.1
  refine (adoptWmm_ends h hwmm).bind ?_
  rintro _ ⟨b, q, es₁, t₁, rfl, hedit⟩
  -- The searches that follow find what they would have found before.
  have hclaimed := claimed_touched (j := 45) wmmBits_length hvendor (by decide) hedit
  have h₁ : Holds { s with network := b, qosOption := q : RtlPriv }.network es₁ t₁ :=
    hedit.holds wmmBits_length h
  have hht₁ : ∀ n d, hit 45 es₁ t₁ = some (n, d) → n ≠ 0 → htEdited e ≤ n := by
    intro n d hhit h0
    have hmap := hit_touched (j := 45) wmmBits_length hvendor (by decide) hedit.list hedit.tail
    rw [hhit, Option.map_some] at hmap
    obtain ⟨⟨n', d'⟩, hold, heq⟩ := Option.map_eq_some_iff.mp hmap.symm
    have hn : n' = n := (Prod.mk.inj heq).1
    rw [← hn] at h0 ⊢
    exact hht n' d' hold h0
  have hfits45 := hitFits_touched (P := fun n k => n ≠ 0 → n ≤ k ∧ n ≤ htCapSize) (j := 45)
    wmmBits_length hvendor (by decide) hedit
  refine ((adoptHt_ends h₁ hht₁).bind ?_).iff (and_congr_left fun _ => hfits45)
  rintro ⟨_, htCaps⟩ ⟨b', c, es₂, t₂, rfl, hedit', hsome, hcaps⟩
  have h₂ : Holds { s with network := b', qosOption := q, htCap := c : RtlPriv }.network es₂ t₂ :=
    hedit'.holds (htBytes_length e _) h₁
  have hsame : b' = { s.network with ies := b'.ies } := by
    rw [hedit'.same, hedit.same]
  have hcond : HitFits 61 (fun n d => n ≠ 0 → htCaps.isSome = true → n ≤ Mlme.htInfoSize →
        n ≤ d.length) es₂ t₂ ↔
      HitFits 61 (fun n d => n ≠ 0 → claimed 45 es t ≠ 0 → n ≤ Mlme.htInfoSize →
        n ≤ d.length) es t := by
    rw [hitFits_touched (P := fun n k => n ≠ 0 → htCaps.isSome = true → n ≤ Mlme.htInfoSize →
        n ≤ k) (j := 61) (htBytes_length e _) (fun x hx => hx) (by decide) hedit',
      hitFits_touched (P := fun n k => n ≠ 0 → htCaps.isSome = true → n ≤ Mlme.htInfoSize →
        n ≤ k) (j := 61) wmmBits_length hvendor (by decide) hedit, hsome, hclaimed]
  refine ((adoptRest_ends h₂ networkType hcaps).weaken fun s' hs' => ?_).iff hcond
  obtain ⟨hsec, type, len, hnet⟩ := hs'
  refine ⟨hsec, ⟨type, len, b'.ies, ?_⟩, ?_, ?_⟩
  · rw [hnet, hsame]
  · rw [hnet]
    exact hedit'.fixed.trans hedit.fixed
  · refine ⟨_, es₁, t₁, es₂, t₂, hedit.list, hedit.tail, hedit'.list, hedit'.tail, ?_⟩
    rw [hnet]
    exact hedit'.elements

theorem bodyFits_iff (e : Env) (es : List Elem) (t : List UInt8) :
    BodyFits e es t ↔ HitFits 0 (fun n d => n ≤ d.length ∧ n ≤ lengthSsid) es t ∧
      HitFits 3 (fun n d => n ≠ 0 → d ≠ []) es t ∧
      (HitFits 1 (fun n d => n ≤ d.length ∧ n ≤ lengthRatesEx) es t ∧
        HitFits 50 (fun n d => n ≤ d.length ∧ claimed 1 es t + n ≤ lengthRatesEx) es t ∧
        TypeFits (channelOf es t) (ratesOf es t).bytes) ∧
      HitFits 42 (fun n d => n = 1 → d ≠ []) es t ∧
      HitFits 48 (fun n d => n ≠ 0 → ParserFits rsn n d) es t ∧
      VendorHitFits oui1 (ParserFits wpa) es t ∧
      (e.wmmEnable = true → VendorHitFits wmmParaIe (fun _ d => 20 < d.length) es t) ∧
      HitFits 45 (fun n d => n ≠ 0 → n ≤ d.length ∧ n ≤ htCapSize) es t ∧
      HitFits 61 (fun n d => n ≠ 0 → claimed 45 es t ≠ 0 → n ≤ Mlme.htInfoSize →
        n ≤ d.length) es t :=
  ⟨fun ⟨h0, h3, h1, h50, htype, h42, h48, hwpa, hwmm, h45, h61⟩ =>
      ⟨h0, h3, ⟨h1, h50, htype⟩, h42, h48, hwpa, hwmm, h45, h61⟩,
    fun ⟨h0, h3, ⟨h1, h50, htype⟩, h42, h48, hwpa, hwmm, h45, h61⟩ =>
      ⟨h0, h3, h1, h50, htype, h42, h48, hwpa, hwmm, h45, h61⟩⟩

/-- The function on elements and a stump. -/
theorem adoptElements_ends (e : Env) (cap : ℕ) (h : Holds s.network es t) (hns : ¬ Stray e es t) :
    EndsWhen (BodyFits e es t) (Adopted e cap s es t) (adoptElements e cap s) := by
  refine EndsWhen.iff ?_ (bodyFits_iff e es t).symm
  refine (adoptSsid_ends h).bind ?_
  rintro s₁ hs₁
  have h₁ : Holds s₁.network es t := by rw [hs₁]; exact h.withSsid _
  refine (adoptChannel_ends h₁).bind ?_
  rintro _ rfl
  have hch : Holds { s₁ with
      network.configurationLength := 0
      network.dsConfig := (channelOf es t).toNat : RtlPriv }.network es t :=
    ⟨h₁.elements, h₁.limit, h₁.stump⟩
  refine (adoptRates_ends hch (channelOf es t)).bind ?_
  rintro ⟨s₂, networkType⟩ ⟨v, hs₂⟩
  have hs₂ : s₂ = _ := hs₂
  have h₂ : Holds s₂.network es t := by
    rw [hs₂]
    exact ⟨h₁.elements, h₁.limit, h₁.stump⟩
  refine (adoptErp_ends h₂).bind fun _ _ => ?_
  have hp : Holds { s₂ with
      network.privacy := if cap.testBit 4 then 1 else 0 : RtlPriv }.network es t :=
    ⟨h₂.elements, h₂.limit, h₂.stump⟩
  refine (adoptRsn_ends hp).bind ?_
  rintro _ ⟨sec, rfl, hrsn⟩
  have hsec : Holds { s₂ with
      network.privacy := if cap.testBit 4 then 1 else 0, security := sec : RtlPriv }.network es t :=
    hp
  refine (adoptWpa_ends hsec).bind ?_
  rintro _ ⟨sec', rfl, hkept, hwpa⟩
  have hsec' : Holds { s₂ with
      network.privacy := if cap.testBit 4 then 1 else 0, security := sec' : RtlPriv }.network es t :=
    hp
  refine (adoptEdits_ends e networkType hsec' hns).weaken fun s' hs' => ?_
  obtain ⟨hsame, ⟨type, len, ies, hnet⟩, hfixed, hstored⟩ := hs'
  obtain ⟨hperiod, hbody⟩ := withSsid_frame s (hit 0 es t)
  refine ⟨?_, ?_, ?_, ?_, ?_, ?_, ?_, ?_, hstored⟩
  · rw [hnet, hs₂, hs₁]
    exact hperiod
  · rw [hnet]
  · rw [hnet, hs₂, hs₁]
  · rw [hnet, hs₂, hs₁]
  · rw [hnet, hs₂]
  · rw [hsame]
    exact hkept.trans hrsn
  · rw [hsame]
    exact hwpa
  · rw [hfixed, hs₂, hs₁]
    exact congrArg (List.take fixedIeLength) hbody

end whole

/-! ## What the record says then -/

section recorded

variable {e : Env} {s s' : RtlPriv} {es : List Elem} {body : List UInt8} {x : Elem} {n : ℕ}
  {d : List UInt8}

/-- What is read of a whole element does not depend on what follows. -/
theorem ciphersAt_whole {fmt : Format} (hid : x.id = fmt.id) (r : List UInt8)
    (houi : (x.data ++ r).take fmt.ouiType.length = fmt.ouiType) :
    ciphersAt fmt (x.encode ++ r) x.data.length =
      if (Mlme.WpaIe.afterVersion fmt (x.data.drop (2 + fmt.ouiType.length)) (start false)).ret then
        ((Mlme.WpaIe.afterVersion fmt (x.data.drop (2 + fmt.ouiType.length))
            (start false)).groupCipher,
          (Mlme.WpaIe.afterVersion fmt (x.data.drop (2 + fmt.ouiType.length))
            (start false)).pairwiseCipher)
      else (0, 0) := by
  rw [ciphersAt, Mlme.WpaIe.parseIn_whole r (start false) hid houi]

/-- The ciphers of an element among others are those of the element. -/
theorem ciphersAt_append {fmt : Format} (hid : x.id = fmt.id) (r : List UInt8)
    (houi : x.data.take fmt.ouiType.length = fmt.ouiType) :
    ciphersAt fmt (x.encode ++ r) x.data.length = ciphers fmt (some x) := by
  have hlen : fmt.ouiType.length ≤ x.data.length := by
    have hle := congrArg List.length houi
    rw [List.length_take] at hle
    omega
  have hwhole := ciphersAt_whole hid [] (by rw [List.append_nil]; exact houi)
  rw [List.append_nil] at hwhole
  rw [ciphers, hwhole, ciphersAt_whole hid r (by rw [List.take_append_of_le_length hlen]; exact houi)]

/-- An element that ends before the suites has none. -/
theorem ciphersAt_short {fmt : Format} (hid : x.id = fmt.id) (r : List UInt8)
    (houi : (x.data ++ r).take fmt.ouiType.length = fmt.ouiType)
    (hshort : x.data.length ≤ 2 + fmt.ouiType.length) :
    ciphersAt fmt (x.encode ++ r) x.data.length = (0, 0) := by
  rw [ciphersAt_whole hid r houi, List.drop_of_length_le hshort]
  rfl

theorem rsnCiphers_whole (es : List Elem) :
    rsnCiphers es [] = ciphers rsn (es.find? (·.id = 48)) := by
  rw [rsnCiphers]
  rcases Mlme.BssInfo.hit_whole 48 es with ⟨hhit, hfind⟩ | ⟨x, d, hhit, hfind⟩
  · rw [hhit, hfind]
    rfl
  · have hid : x.id = 48 := by simpa using List.find?_some hfind
    have hbytes : x.encode ++ d = 48 :: UInt8.ofNat x.data.length :: (x.data ++ d) := by
      rw [Elem.encode, hid]
      rfl
    have hsame : ciphersAt rsn (x.encode ++ d) x.data.length = ciphers rsn (some x) :=
      ciphersAt_append hid d rfl
    rw [hhit, hfind]
    dsimp only
    by_cases h0 : x.data.length = 0
    · have hempty : ciphersAt rsn (x.encode ++ []) x.data.length = (0, 0) :=
        ciphersAt_short hid [] rfl (by omega)
      rw [List.append_nil] at hempty
      rw [if_pos h0, ciphers, hempty]
    · rw [if_neg h0, ← hbytes, hsame]

/-- What a search passes is not what it looks for. -/
theorem sought_first {oui : List UInt8} {total bound place : ℕ}
    (h : sought oui total bound place es [] = some (n, d)) :
    ∃ es₁ x es₂, es = es₁ ++ x :: es₂ ∧ x.id = 221 ∧ n = x.data.length ∧
      d = x.data ++ encodeAll es₂ ∧ ∀ y ∈ es₁, ¬ IsVendor oui y := by
  induction es generalizing bound place with
  | nil => cases h
  | cons x es ih =>
    have hpass : ∀ {bound place}, ¬ IsVendor oui x →
        sought oui total bound place es [] = some (n, d) →
        ∃ es₁ y es₂, x :: es = es₁ ++ y :: es₂ ∧ y.id = 221 ∧ n = y.data.length ∧
          d = y.data ++ encodeAll es₂ ∧ ∀ z ∈ es₁, ¬ IsVendor oui z := by
      intro bound place hx hrest
      obtain ⟨es₁, y, es₂, rfl, hid, hn, hd, hes⟩ := ih hrest
      exact ⟨x :: es₁, y, es₂, rfl, hid, hn, hd, List.forall_mem_cons.mpr ⟨hx, hes⟩⟩
    rw [sought] at h
    split_ifs at h with hlt hid hsame hnil
    · obtain ⟨rfl, rfl⟩ := Prod.mk.inj (Option.some.inj h)
      exact ⟨[], x, es, rfl, hid, rfl, by rw [List.append_nil], fun _ hy => absurd hy List.not_mem_nil⟩
    · refine hpass (fun hx => hsame ?_) h
      have hlen := congrArg List.length hx.2
      rw [List.length_take] at hlen
      rw [List.take_append_of_le_length (by omega)]
      exact hx.2
    · exact hpass (fun hx => hid hx.1) h

/-- The WPA element that the search comes to is as good as the first one. -/
theorem wpaCiphers_whole_iff (es : List Elem) :
    wpaCiphers es [] = ciphers wpa (es.find? (IsVendor oui1 ·)) ↔
      ∀ x, es.find? (IsVendor oui1 ·) = some x → ciphers wpa (some x) ≠ (0, 0) →
        ∃ d, vendorOf oui1 es [] = some (x.data.length, x.data ++ d) := by
  have hzero : wpaCiphers es [] = (0, 0) →
      (∀ x d, es.find? (IsVendor oui1 ·) = some x →
        vendorOf oui1 es [] ≠ some (x.data.length, x.data ++ d)) →
      (wpaCiphers es [] = ciphers wpa (es.find? (IsVendor oui1 ·)) ↔
        ∀ x, es.find? (IsVendor oui1 ·) = some x → ciphers wpa (some x) ≠ (0, 0) →
          ∃ d, vendorOf oui1 es [] = some (x.data.length, x.data ++ d)) := by
    intro h0 hno
    rw [h0]
    cases hfind : es.find? (IsVendor oui1 ·) with
    | none => exact iff_of_true rfl fun x hx => by cases hx
    | some x =>
      constructor
      · rintro heq _ ⟨⟩ hne
        exact absurd heq.symm hne
      · intro hall
        by_contra hne
        obtain ⟨d, hd⟩ := hall x rfl (Ne.symm hne)
        exact hno x d hfind hd
  cases hfound : vendorOf oui1 es [] with
  | none =>
    rw [← hfound]
    refine hzero ?_ fun x d _ hd => ?_
    · rw [wpaCiphers, hfound]
    · rw [hfound] at hd
      cases hd
  | some r =>
    obtain ⟨n, d⟩ := r
    obtain ⟨es₁, y, es₂, hes, hid, rfl, rfl, hpassed⟩ := sought_first hfound
    have houi := (sought_foundIn hfound).2
    have hbytes : y.encode ++ encodeAll es₂ =
        221 :: UInt8.ofNat y.data.length :: (y.data ++ encodeAll es₂) := by
      rw [Elem.encode, hid]
      rfl
    have hread : wpaCiphers es [] = ciphersAt wpa (y.encode ++ encodeAll es₂) y.data.length := by
      rw [wpaCiphers, hfound, hbytes]
    by_cases hy : IsVendor oui1 y
    · have hfirst : es.find? (IsVendor oui1 ·) = some y := by
        rw [hes, List.find?_append, List.find?_eq_none.mpr fun z hz => by
          rw [decide_eq_true_eq]
          exact hpassed z hz, Option.none_or, List.find?_cons, decide_eq_true hy]
      have hsame : ciphersAt wpa (y.encode ++ encodeAll es₂) y.data.length =
          ciphers wpa (some y) := ciphersAt_append hid _ hy.2
      rw [hread, hfirst, hsame]
      refine iff_of_true rfl ?_
      rintro _ ⟨⟩ -
      exact ⟨_, rfl⟩
    · -- The bytes that are compared go over the end of the element.
      have hshort : y.data.length < oui1.length := by
        by_contra hlong
        rw [List.take_append_of_le_length (Nat.not_lt.mp hlong)] at houi
        exact hy ⟨hid, houi⟩
      rw [← hfound]
      refine hzero ?_ fun x d hfind hd => ?_
      · have hlt : y.data.length < 4 := hshort
        rw [hread]
        refine ciphersAt_short hid _ houi ?_
        rw [show wpa.ouiType.length = 4 from rfl]
        omega
      · rw [hfound] at hd
        have hlen := (Prod.mk.inj (Option.some.inj hd)).1
        have hx : IsVendor oui1 x := by simpa using List.find?_some hfind
        have hfour := congrArg List.length hx.2
        rw [List.length_take] at hfour
        omega

/-- The SSID, unless the first one is empty and an old one stays. -/
theorem ssid_whole_iff (hfit : HitFits 0 (fun n d => n ≤ d.length ∧ n ≤ lengthSsid) es []) :
    (∀ x, es.find? (·.id = 0) = some x →
      (s.withSsid (hit 0 es [])).network.ssidLength = x.data.length ∧
        (s.withSsid (hit 0 es [])).network.ssid.bytes.take x.data.length = x.data) ↔
      ∀ x, es.find? (·.id = 0) = some x → x.data = [] → s.network.ssidLength = 0 := by
  rcases Mlme.BssInfo.hit_whole 0 es with ⟨-, hfind⟩ | ⟨x, d, hhit, hfind⟩
  · rw [hfind]
    exact iff_of_true (fun x hx => by cases hx) fun x hx => by cases hx
  · have hroom := (hfit.2 _ _ hhit).2
    rw [hhit, hfind, RtlPriv.withSsid]
    by_cases h0 : x.data.length = 0
    · have hnil : x.data = [] := List.length_eq_zero_iff.mp h0
      simp only [Option.some.injEq, forall_eq', hnil, List.length_nil, List.take_zero, if_true,
        and_true, true_imp_iff]
    · have hne : x.data ≠ [] := mt List.length_eq_zero_iff.mpr h0
      simp only [if_neg h0, Option.some.injEq, forall_eq', hne, false_imp_iff, iff_true, true_and]
      rw [List.take_left]
      exact (Area.zero lengthSsid).take_put_zero hroom

/-- The channel. -/
theorem channelOf_whole {c : UInt8} (hfind : es.find? (·.id = 3) = some x)
    (hc : x.data.head? = some c) : channelOf es [] = c := by
  rw [channelOf]
  rcases Mlme.BssInfo.hit_whole 3 es with ⟨-, hno⟩ | ⟨y, d, hhit, hfind'⟩
  · rw [hno] at hfind
    cases hfind
  · rw [hfind'] at hfind
    obtain rfl := Option.some.inj hfind
    rw [hhit]
    obtain ⟨data, hdata⟩ : ∃ data, y.data = c :: data := by
      rcases hy : y.data with _ | ⟨b, data⟩
      · rw [hy] at hc
        cases hc
      · rw [hy] at hc
        exact ⟨data, by rw [Option.some.inj hc]⟩
    rw [hdata]
    rfl

/-- What is stored is what was given, with the two edits. -/
theorem alike_of_touched {ccmp : Bool} {es₁ es₂ : List Elem}
    (h₁ : List.Forall₂ (Touched (IsVendor wmmParaIe) wmmBits) es es₁)
    (h₂ : List.Forall₂ (Touched (fun x => x.id = 45) (htBytes e ccmp)) es₁ es₂) :
    List.Forall₂ (Alike e) es es₂ := by
  induction h₁ generalizing es₂ with
  | nil =>
    cases h₂
    exact .nil
  | @cons x y es es₁ hxy _ ih =>
    cases h₂ with
    | @cons _ z _ es₂ hyz hrest =>
      refine .cons ?_ (ih hrest)
      rcases hxy with rfl | ⟨hx, hid, hdata⟩
      · rcases hyz with rfl | ⟨h45, hid', hdata'⟩
        · exact .inl rfl
        · exact .inr ⟨hid', .inr ⟨h45, ccmp, hdata'⟩⟩
      · rcases hyz with rfl | ⟨h45, -, -⟩
        · exact .inr ⟨hid, .inl ⟨hx, hdata⟩⟩
        · have h221 : y.id = 221 := hid.trans hx.1
          rw [h221] at h45
          exact absurd h45 (by decide)

/-- Two bytes, the lower one first, and the fifth bit. -/
theorem testBit_le16 (lo hi : UInt8) :
    (lo.toNat + 256 * hi.toNat).testBit 4 = lo.toNat.testBit 4 := by
  have hsplit := Nat.testBit_two_pow_mul_add hi.toNat (i := 8) lo.toNat_lt 4
  rw [if_pos (by decide)] at hsplit
  rw [Nat.add_comm]
  exact hsplit

end recorded

/-! ## When a body is adopted as it is -/

section main

variable {e : Env} {s s' : RtlPriv} {body : List UInt8}

/-- The record with a body that has room. -/
def RtlPriv.filled (s : RtlPriv) (body : List UInt8) : RtlPriv :=
  { s with network.ieLength := body.length, network.ies := (Area.zero maxIeSz).put 0 body }

theorem filled_body (s : RtlPriv) (hle : body.length ≤ maxIeSz) :
    (s.filled body).network.body = body :=
  (Area.zero maxIeSz).take_put_zero hle

theorem filled_holds (hle : body.length ≤ maxIeSz) {es : List Elem} {t : List UInt8}
    (hes : body.drop fixedIeLength = encodeAll es ++ t) (ht : Stump t) :
    Holds (s.filled body).network es t := by
  have helements : (s.filled body).network.elements = body.drop fixedIeLength := by
    rw [WlanBssidEx.elements, filled_body s hle]
  refine ⟨helements.trans hes, ?_, ht⟩
  rw [helements, List.length_drop]
  rfl

theorem readLe16_eq {f : List UInt8} {k : ℕ} (h : k + 1 < f.length) :
    readLe16 f k = .ok ((f.getD k 0).toNat + 256 * (f.getD (k + 1) 0).toNat) := by
  rw [readLe16, readByte_of_lt (Nat.lt_of_succ_lt h), bind_ok, readByte_of_lt h, bind_ok]

/-- In access point mode a body that is not too long is adopted. -/
theorem rtwCheckBeaconData_adopts (hap : s.InApMode) (hle : body.length ≤ maxIeSz) :
    rtwCheckBeaconData e s body =
      adopt e (s.filled body) >>= fun s' => .ok (.started s') := by
  have hfill : fillIes s body = .ok (s.filled body) := by
    rw [fillIes, Area.copyIn_of_le _ (by rw [Nat.zero_add]; exact hle), bind_ok]
    rfl
  have hmode : (s.filled body).network.infrastructureMode = .apMode := hap.2
  rw [rtwCheckBeaconData, hap.1, if_neg (by decide), if_neg (Nat.not_lt.mpr hle), hfill, bind_ok,
    if_neg (not_not.mpr hmode)]

/-- The state in which the elements are adopted. -/
def RtlPriv.prepared (e : Env) (s : RtlPriv) (body : List UInt8) : RtlPriv :=
  { s.filled body with
    network.rssi := 0
    network.macAddress := e.macAddr
    network.beaconPeriod := (body.getD 8 0).toNat + 256 * (body.getD 9 0).toNat }

theorem adopt_filled (hlen : fixedIeLength ≤ body.length) (hle : body.length ≤ maxIeSz) :
    adopt e (s.filled body) =
      adoptElements e ((body.getD 0 0).toNat + 256 * (body.getD 1 0).toNat)
        (s.prepared e body) := by
  rw [fixedIeLength] at hlen
  have hbody : { s.filled body with
      network.rssi := 0, network.macAddress := e.macAddr : RtlPriv }.network.body = body :=
    filled_body s hle
  rw [adopt]
  simp only [hbody]
  rw [readLe16_eq (by omega), bind_ok, readLe16_eq (by omega), bind_ok]
  rfl

/-- The record is exact when the body is such that it can be. -/
theorem recorded_iff (hle : body.length ≤ maxIeSz) {es : List Elem} (hfits : BodyFits e es [])
    (h : Adopted e ((body.getD 0 0).toNat + 256 * (body.getD 1 0).toNat) (s.prepared e body) es []
      s') :
    Recorded e body es s' ↔ Exact s body es := by
  have hprivacy : (s'.network.privacy = if privacyBit body then 1 else 0) ↔
      (body.getD 0 0).toNat.testBit 4 = privacyBit body := by
    rw [h.privacy, testBit_le16]
    cases (body.getD 0 0).toNat.testBit 4 <;> cases privacyBit body <;> simp
  have hbody : (s.prepared e body).network.body = body := filled_body s hle
  have hssid := ssid_whole_iff (s := s.prepared e body) hfits.ssid
  rw [← h.ssid, ← h.ssidLength] at hssid
  have hwpa := wpaCiphers_whole_iff es
  rw [← h.wpa] at hwpa
  constructor
  · intro hrec
    exact ⟨hprivacy.mp hrec.privacy, hssid.mp hrec.ssid, hwpa.mp hrec.wpa⟩
  · intro hexact
    refine ⟨h.beaconPeriod, hprivacy.mpr hexact.privacy, hssid.mpr hexact.ssid, ?_,
      h.rsn.trans (rsnCiphers_whole es), hwpa.mpr hexact.wpa, ?_⟩
    · intro x c hfind hc
      rw [h.dsConfig, channelOf_whole hfind hc]
    · obtain ⟨ccmp, es₁, t₁, es₂, t₂, hlist, htail, hlist', htail', helements⟩ := h.stored
      have ht₁ : t₁ = [] := htail.resolve_right fun ⟨_, _, hno, _⟩ => by cases hno
      subst ht₁
      have ht₂ : t₂ = [] := htail'.resolve_right fun ⟨_, _, hno, _⟩ => by cases hno
      subst ht₂
      refine ⟨es₂, ?_, alike_of_touched hlist hlist'⟩
      rw [List.append_nil] at helements
      have hsplit := List.take_append_drop fixedIeLength s'.network.body
      rw [h.fixed, hbody] at hsplit
      rw [← hsplit, ← helements]
      rfl

/-- A body with its fixed fields. -/
theorem rtwCheckBeaconData_ends (hap : s.InApMode) (hlen : fixedIeLength ≤ body.length)
    (hle : body.length ≤ maxIeSz) {es : List Elem} {t : List UInt8}
    (hes : body.drop fixedIeLength = encodeAll es ++ t) (ht : Stump t) (hns : ¬ Stray e es t) :
    EndsWhen (BodyFits e es t)
      (fun v => ∃ s', v = .started s' ∧
        Adopted e ((body.getD 0 0).toNat + 256 * (body.getD 1 0).toNat) (s.prepared e body) es t s')
      (rtwCheckBeaconData e s body) := by
  have hholds := filled_holds (s := s) hle hes ht
  have hprepared : Holds (s.prepared e body).network es t :=
    ⟨hholds.elements, hholds.limit, hholds.stump⟩
  rw [rtwCheckBeaconData_adopts hap hle, adopt_filled hlen hle]
  exact (adoptElements_ends e _ hprepared hns).bind_ok fun s' hs' => .ok ⟨s', rfl, hs'⟩

/-- A body with its fixed fields is adopted as it is exactly if it fits. -/
theorem right_sized_iff (hap : s.InApMode) (hlen : fixedIeLength ≤ body.length)
    (hle : body.length ≤ maxIeSz) {es : List Elem} {t : List UInt8}
    (hes : body.drop fixedIeLength = encodeAll es ++ t) (ht : Stump t) (hns : ¬ Stray e es t) :
    Right e s body ↔ BodyFits e es t ∧
      ∀ es', decodeAll (body.drop fixedIeLength) = some es' → Exact s body es' := by
  have hends := rtwCheckBeaconData_ends (s := s) hap hlen hle hes ht hns
  have hwhole : ∀ es', decodeAll (body.drop fixedIeLength) = some es' →
      es' = es ∧ t = [] ∧ body.drop fixedIeLength = encodeAll es := by
    intro es' hdec
    rw [hes, decodeAll_append ht] at hdec
    split_ifs at hdec with hnil
    exact ⟨(Option.some.inj hdec).symm, hnil, by rw [hes, hnil, List.append_nil]⟩
  constructor
  · intro h
    have hfits := hends.only h.inside
    refine ⟨hfits, fun es' hdec => ?_⟩
    obtain ⟨rfl, rfl, hes'⟩ := hwhole es' hdec
    obtain ⟨_, hrun, s', rfl, hadopted⟩ := hends.ends hfits
    exact (recorded_iff hle hfits hadopted).mp
      (h.exact es' s' hdec hlen hrun)
  · rintro ⟨hfits, hexact⟩
    obtain ⟨_, hrun, s', rfl, hadopted⟩ := hends.ends hfits
    refine ⟨⟨_, hrun⟩, ?_, fun es' s₂ hdec _ hrun₂ => ?_⟩
    · rintro (hshort | hlong)
      · exact absurd hlen (Nat.not_le.mpr hshort)
      · exact absurd hle (Nat.not_le.mpr hlong)
    · obtain ⟨rfl, rfl, hes'⟩ := hwhole es' hdec
      rw [hrun] at hrun₂
      obtain rfl := Verdict.started.inj (Except.ok.inj hrun₂)
      exact (recorded_iff hle hfits hadopted).mpr (hexact es' hdec)

/-- Too long a body is refused. -/
theorem right_of_long (hlong : maxIeSz < body.length) : Right e s body := by
  have hrun : rtwCheckBeaconData e s body = .ok (.fail s) := by
    rw [rtwCheckBeaconData]
    split_ifs
    · rfl
    · rfl
  refine ⟨⟨_, hrun⟩, fun _ => hrun, fun es s' _ _ hrun' => ?_⟩
  rw [hrun] at hrun'
  cases Except.ok.inj hrun'

/-- Too short a body is not. -/
theorem not_right_of_short (hap : s.InApMode) (hshort : body.length < fixedIeLength) :
    ¬ Right e s body := by
  intro h
  have hle : body.length ≤ maxIeSz := by
    rw [fixedIeLength] at hshort
    rw [maxIeSz]
    omega
  have hrun := h.refused (.inl hshort)
  rw [rtwCheckBeaconData_adopts hap hle] at hrun
  obtain ⟨s', -, hs'⟩ := bind_eq_ok hrun
  cases Except.ok.inj hs'

/-- Adopting a beacon of hostapd is exact and in bounds for a body that fits, and for no other one,
    as long as no edit goes over the end of its element. -/
theorem adopt_right_iff (e : Env) (s : RtlPriv) (hap : s.InApMode) (body : List UInt8) :
    (Fits e s body ∧ ¬ StrayIn e body → Right e s body) ∧
      (Right e s body → Fits e s body ∨ StrayIn e body) := by
  obtain ⟨es, t, hes, ht⟩ := exists_parse (body.drop fixedIeLength)
  have hparse : Elements.parse (body.drop fixedIeLength) = (es, t) := by
    rw [hes, parse_append es ht]
  rw [Fits, StrayIn, hparse]
  dsimp only
  by_cases hlong : maxIeSz < body.length
  · exact ⟨fun _ => right_of_long hlong, fun _ => .inl (.inl hlong)⟩
  · have hle := Nat.not_lt.mp hlong
    by_cases hlen : fixedIeLength ≤ body.length
    · simp only [hlong, hlen, hle, false_or, true_and]
      by_cases hns : Stray e es t
      · exact ⟨fun h => absurd hns h.2, fun _ => .inr hns⟩
      · have hiff := right_sized_iff hap hlen hle hes ht hns
        exact ⟨fun h => hiff.mpr h.1, fun h => .inl (hiff.mp h)⟩
    · have hno := not_right_of_short (e := e) hap (Nat.lt_of_not_le hlen)
      refine ⟨fun h => ?_, fun h => absurd h hno⟩
      exact absurd (h.1.resolve_left hlong).1 hlen

/-- An access point that has not been started, on an adapter with one stream. -/
def hostapEnv : Env where
  macAddr := Vector.replicate 6 2
  wmmEnable := true
  rf1t1r := true

def hostap : RtlPriv where
  apState := true
  network :=
    { length := 0, macAddress := Vector.replicate 6 0, ssidLength := 0, ssid := .zero lengthSsid,
      privacy := 0, rssi := 0, networkTypeInUse := .fh, configurationLength := 0, beaconPeriod := 0,
      dsConfig := 0, infrastructureMode := .apMode, supportedRates := .zero lengthRatesEx,
      ieLength := 0, ies := .zero maxIeSz }
  networkType := 0
  security :=
    { dot11AuthAlgrthm := 0, dot8021xalg := 0, wpaPsk := 0, wpaGroupCipher := 0,
      wpaPairwiseCipher := 0, wpa2GroupCipher := 0, wpa2PairwiseCipher := 0 }
  qosOption := false
  htOption := false
  ampduEnable := false
  htCap := .zero htCapSize

theorem hitFits_nil (index : UInt8) (P : ℕ → List UInt8 → Prop) : HitFits index P [] [] :=
  ⟨fun h => absurd h (Nat.succ_ne_zero 0).symm, fun _ _ h => by cases h⟩

theorem vendorHitFits_nil (oui : List UInt8) (P : ℕ → List UInt8 → Prop) :
    VendorHitFits oui P [] [] :=
  ⟨Nat.zero_le 0, fun _ _ h => by cases h⟩

/-- A body of its fixed fields is adopted. -/
theorem fixedFields_right : Right hostapEnv hostap (List.replicate 12 0) := by
  have hparse : Elements.parse ((List.replicate 12 (0 : UInt8)).drop fixedIeLength) = ([], []) :=
    parse_stump (t := []) trivial
  refine (adopt_right_iff hostapEnv hostap ⟨rfl, rfl⟩ (List.replicate 12 0)).1
    ⟨.inr ⟨?_, ?_, ?_⟩, ?_⟩
  · exact Nat.le_refl 12
  · rw [hparse]
    exact ⟨hitFits_nil _ _, hitFits_nil _ _, hitFits_nil _ _, hitFits_nil _ _,
      .inl (by decide +kernel), hitFits_nil _ _, hitFits_nil _ _, vendorHitFits_nil _ _,
      fun _ => vendorHitFits_nil _ _, hitFits_nil _ _, hitFits_nil _ _⟩
  · intro es hdec
    obtain rfl : es = [] := (Option.some.inj ((decodeAll_encodeAll []).symm.trans hdec)).symm
    exact ⟨rfl, fun x hx => by (cases hx), fun x hx => by (cases hx)⟩
  · rw [StrayIn, hparse]
    rintro ⟨-, -, ⟨-, n, d, hfound, -⟩ | ⟨n, d, hhit, -⟩⟩
    · cases hfound
    · cases hhit

theorem oneChar_lt : [(0x41 : UInt8)].length < 256 := by decide

theorem twoRates_lt : [(0x82 : UInt8), 0x84].length < 256 := by decide

/-- A beacon of a network with privacy, whose clock is at zero. -/
def privateElements : List Elem := [⟨0, [0x41], oneChar_lt⟩, ⟨1, [0x82, 0x84], twoRates_lt⟩]

def privateBeacon : List UInt8 :=
  [0, 0, 0, 0, 0, 0, 0, 0, 100, 0, 0x11, 0, 0, 1, 0x41, 1, 2, 0x82, 0x84]

/-- The privacy flag of what is adopted. -/
def privacyOf : Except Fault Verdict → Option ℕ
  | .ok (.started s) => some s.network.privacy
  | _ => none

/-- The network is adopted as one without privacy. -/
theorem privateBeacon_wrong : hostap.InApMode ∧ ¬ Right hostapEnv hostap privateBeacon := by
  refine ⟨⟨rfl, rfl⟩, fun h => ?_⟩
  obtain ⟨v, hrun⟩ := h.inside
  have hflag : privacyOf (rtwCheckBeaconData hostapEnv hostap privateBeacon) = some 0 := by
    decide +kernel
  rw [hrun] at hflag
  cases v with
  | fail s => cases hflag
  | started s =>
    have hdec : decodeAll (privateBeacon.drop fixedIeLength) = some privateElements :=
      decodeAll_encodeAll privateElements
    have hprivacy := (h.exact privateElements s hdec (by decide) hrun).privacy
    have hzero : s.network.privacy = 0 := Option.some.inj hflag
    rw [hzero] at hprivacy
    exact absurd hprivacy (by decide)

end main

end Rtl8821au.Ap.BeaconData
