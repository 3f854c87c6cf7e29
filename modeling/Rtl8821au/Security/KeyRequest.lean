import Mathlib.Algebra.Group.Nat.Defs
import Mathlib.Logic.Function.Basic
import Rtl8821au.Priv

/-!
# Requests that set a key

`wpa_set_encryption`, `rtw_wx_set_enc` and `rtw_set_encryption` (`ioctl_linux.c`, lines 555–734,
1921–2044 and 2667–2954), `rtw_set_802_11_add_wep` (`rtw_ioctl_set.c`, lines 557–606) and what
they call to tell the hardware. The key fields are one function; a slot may have any index, and
every copy into a field is recorded with what it reads of the request's key.
-/

namespace Rtl8821au.Security.KeyRequest

open Recv (Encryption MacAddr isMulticast)

/-! ## The state -/

/-- `enum _NDIS_802_11_AUTHENTICATION_MODE` (`wlan_bssdef.h`, lines 148–158). -/
inductive AuthMode where
  | openSystem
  | shared
  | autoSwitch
  | wpa
  | wpaPsk
  | wpaNone
  | wapi
  deriving DecidableEq, Repr

/-- `enum _NDIS_802_11_WEP_STATUS` (`wlan_bssdef.h`, lines 160–175). -/
inductive EncryptStatus where
  | encryption1Enabled
  | encryptionDisabled
  | encryption1KeyAbsent
  | encryptionNotSupported
  | encryption2Enabled
  | encryption2KeyAbsent
  | encryption3Enabled
  | encryption3KeyAbsent
  | wapi
  deriving DecidableEq, Repr

/-- The fields of type `union Keytype` in `struct security_priv`, which are slots of a table, and
    in a `struct sta_info`. -/
inductive KeyField where
  | dot11DefKey (idx : ℕ)
  | dot118021XGrpKey (idx : ℕ)
  | dot118021XGrptxmickey (idx : ℕ)
  | dot118021XGrprxmickey (idx : ℕ)
  | dot118021xUncstKey (psta : ℕ)
  | dot11tkiptxmickey (psta : ℕ)
  | dot11tkiprxmickey (psta : ℕ)
  deriving DecidableEq, Repr

/-- The index of a slot. -/
def KeyField.slot : KeyField → Option ℕ
  | dot11DefKey idx | dot118021XGrpKey idx | dot118021XGrptxmickey idx
  | dot118021XGrprxmickey idx => some idx
  | dot118021xUncstKey _ | dot11tkiptxmickey _ | dot11tkiprxmickey _ => none

/-- The fields of a key that is 32 bytes long behind its first half. -/
def KeyField.isMic : KeyField → Bool
  | dot118021XGrptxmickey _ | dot118021XGrprxmickey _ | dot11tkiptxmickey _
  | dot11tkiprxmickey _ => true
  | dot11DefKey _ | dot118021XGrpKey _ | dot118021xUncstKey _ => false

/-- What is set in a `struct sta_info` beside its keys. -/
structure Port where
  ieee8021xBlocked : Bool
  dot118021XPrivacy : Encryption
  deriving DecidableEq, Repr

/-- `struct security_priv`, the stations and `mlmepriv.key_mask`. -/
structure State where
  dot11AuthAlgrthm : AuthAlgrthm
  dot11PrivacyAlgrthm : Encryption
  dot11PrivacyKeyIndex : ℕ
  dot11DefKeylen : ℕ → ℕ
  dot118021XGrpPrivacy : Encryption
  dot118021XGrpKeyid : ℕ
  binstallGrpkey : Bool
  busetkipkey : Bool
  ndisauthtype : AuthMode
  ndisencryptstatus : EncryptStatus
  keys : KeyField → Block
  sta : ℕ → Port
  keyMask : UInt8

/-- What the requests look at and leave as it is: the mode, the station table, the power state,
    and whether memory for a WEP key, memory for a command and the command itself are taken. -/
structure Env where
  stationState : Bool
  apState : Bool
  lookup : MacAddr → Option ℕ
  bcmc : Option ℕ
  bssid : MacAddr
  rfOn : Bool
  mallocOk : Bool
  allocOk : Bool
  enqueueOk : Bool

/-- `rtw_get_stainfo`. -/
def Env.rtwGetStainfo (e : Env) (hwaddr : MacAddr) : Option ℕ :=
  if isMulticast hwaddr then e.bcmc else e.lookup hwaddr

/-- `memcpy(k.skey, src, n)` for at most 16 bytes. -/
def copyKey (k : Block) (src : ℕ → UInt8) (n : ℕ) : Block :=
  Vector.ofFn fun i => if i.val < n then src i else k[i]

/-- A copy of `len` bytes from `first` on of the request's key, to a field or to a command. -/
structure Copy where
  field : Option KeyField
  first : ℕ
  len : ℕ
  deriving DecidableEq, Repr

/-- The state and the copies so far, the last one first. -/
structure Run where
  st : State
  copies : List Copy

namespace Run

def set (r : Run) (g : State → State) : Run := { r with st := g r.st }

/-- `memcpy(f.skey, &key[first], len)`. -/
def memcpy (r : Run) (f : KeyField) (key : ℕ → UInt8) (first len : ℕ) : Run :=
  let copied := copyKey (r.st.keys f) (fun k => key (first + k)) len
  { st := { r.st with keys := Function.update r.st.keys f copied }
    copies := ⟨some f, first, len⟩ :: r.copies }

end Run

/-- What a request returns. -/
inductive Ret where
  | success
  | einval
  | eopnotsupp
  | fail
  deriving DecidableEq, Repr

/-- The end of a request. -/
structure Outcome where
  ret : Ret
  run : Run

/-! ## Commands -/

def isWepEnc (alg : Encryption) : Bool := alg == .wep40 || alg == .wep104

/-- `key_mask |= BIT(keyid)` for a WEP key. -/
def markKey (alg : Encryption) (keyid : ℕ) (s : State) : State :=
  if isWepEnc alg then { s with keyMask := s.keyMask ||| UInt8.ofNat (2 ^ keyid) } else s

/-- `rtw_set_key` (`rtw_mlme.c`, lines 2037–2126). -/
def rtwSetKey (e : Env) (keyid : ℕ) (s : State) : Bool × State :=
  if !e.allocOk then (false, s)
  else
    let algorithm :=
      if s.dot11AuthAlgrthm = .ieee8021X then s.dot118021XGrpPrivacy else s.dot11PrivacyAlgrthm
    let s := markKey algorithm keyid s
    match algorithm with
    | .wep40 | .wep104 | .tkip | .aes => (e.enqueueOk, s)
    | .noPrivacy | .reserved | .cmac => (false, s)

/-- `rtw_ap_set_key` (`rtw_ap.c`, lines 1473–1536); the `case` of 16 bytes falls through. -/
def rtwApSetKey (e : Env) (alg : Encryption) (keyid : ℕ) (r : Run) : Run :=
  if e.allocOk then
    let keylen := match alg with
      | .wep40 => 5
      | .wep104 => 13
      | _ => 16
    { st := markKey alg keyid r.st, copies := ⟨none, 0, keylen⟩ :: r.copies }
  else r

/-- `rtw_setstakey_cmd` (`rtw_cmd.c`, lines 858–921). -/
def rtwSetstakeyCmd (e : Env) (s : State) : State :=
  if e.allocOk then { s with busetkipkey := true } else s

/-! ## WEP keys -/

/-- The length of a WEP key. -/
def wepKeyLen (n : ℕ) : ℕ := if n ≤ 5 then 5 else 13

/-- The algorithm for a WEP key (`rtw_ioctl_set.c`, lines 576–587). -/
def wepAlgrthm : ℕ → Encryption
  | 5 => .wep40
  | 13 => .wep104
  | _ => .noPrivacy

/-- `rtw_set_802_11_add_wep`. -/
def rtwSet80211AddWep (e : Env) (keyIndex : UInt32) (keyLength : ℕ) (keyMaterial : ℕ → UInt8)
    (r : Run) : Bool × Run :=
  let keyid := (keyIndex &&& 0x3fffffff).toNat
  if 4 < keyid then (false, r)
  else
    let r := r.set fun s => { s with dot11PrivacyAlgrthm := wepAlgrthm keyLength }
    let r := r.memcpy (.dot11DefKey keyid) keyMaterial 0 keyLength
    let r := r.set fun s =>
      { s with dot11DefKeylen := Function.update s.dot11DefKeylen keyid keyLength
               dot11PrivacyKeyIndex := keyid }
    let res := rtwSetKey e keyid r.st
    (res.1, { r with st := res.2 })

/-! ## Parameters -/

/-- `WEP_KEYS`. -/
def wepKeys : ℕ := 4

/-- `sizeof(struct ieee_param)` and the offset of `u.crypt.key` in it. -/
def sizeofIeeeParam : ℕ := 64
def keyOffset : ℕ := 48

/-- The names that `u.crypt.alg` is compared with. -/
inductive Alg where
  | none
  | wep
  | tkip
  | ccmp
  | other
  deriving DecidableEq, Repr

/-- The name in `u.crypt.alg`, whose last byte is set to 0. -/
def algOf (alg : List UInt8) : Alg :=
  match (alg.take 15).takeWhile (· != 0) with
  | [0x6e, 0x6f, 0x6e, 0x65] => .none
  | [0x57, 0x45, 0x50] => .wep
  | [0x54, 0x4b, 0x49, 0x50] => .tkip
  | [0x43, 0x43, 0x4d, 0x50] => .ccmp
  | _ => .other

/-- `struct ieee_param` with `u.crypt`; `key` is the memory from the key on. -/
structure IeeeParam where
  staAddr : MacAddr
  alg : List UInt8
  setTx : UInt8
  idx : UInt8
  keyLen : UInt16
  key : ℕ → UInt8

namespace IeeeParam

variable (p : IeeeParam)

def isBroadcast : Bool := p.staAddr == Vector.replicate 6 0xff

def slot : ℕ := p.idx.toNat

/-- How much of a key goes into its field. -/
def keptLen : ℕ := if 16 < p.keyLen.toNat then 16 else p.keyLen.toNat

/-- The algorithm of a key with a name and a length. -/
def algrthm : Encryption :=
  match algOf p.alg with
  | .wep => if p.keyLen = 13 then .wep104 else .wep40
  | .tkip => .tkip
  | .ccmp => .aes
  | .none | .other => .noPrivacy

end IeeeParam

/-! ## The station's requests -/

/-- `wpa_set_encryption` for a WEP key (lines 584–650). -/
def wpaSetWep (e : Env) (s : State) (p : IeeeParam) : Outcome :=
  let r : Run := ⟨{ s with ndisencryptstatus := .encryption1Enabled, dot11PrivacyAlgrthm := .wep40
                           dot118021XGrpPrivacy := .wep40 }, []⟩
  if wepKeys < p.slot then ⟨.einval, r⟩
  else if p.keyLen = 0 then ⟨.einval, r⟩
  else if !e.mallocOk then ⟨.success, r⟩
  else
    let keyLength := wepKeyLen p.keyLen.toNat
    let r := if keyLength = 13 then r.set fun s =>
        { s with dot11PrivacyAlgrthm := .wep104, dot118021XGrpPrivacy := .wep104 }
      else r
    if p.setTx ≠ 0 then
      let res := rtwSet80211AddWep e (p.idx.toUInt32 ||| 0x80000000) keyLength p.key r
      ⟨if res.1 then .success else .eopnotsupp, res.2⟩
    else if wepKeys ≤ p.slot then ⟨.eopnotsupp, r⟩
    else
      let r := r.memcpy (.dot11DefKey p.slot) p.key 0 keyLength
      let r := r.set fun s =>
        { s with dot11DefKeylen := Function.update s.dot11DefKeylen p.slot keyLength }
      ⟨.success, r.set fun s => (rtwSetKey e p.slot s).2⟩

/-- The port of the access point or of the broadcast station (lines 666–672 and 711–719). -/
def openPort (alg : Alg) (psta : ℕ) (s : State) : State :=
  let port := s.sta psta
  let port := if alg ≠ .none then { port with ieee8021xBlocked := false } else port
  let port := if s.ndisencryptstatus = .encryption2Enabled ∨
      s.ndisencryptstatus = .encryption3Enabled then
    { port with dot118021XPrivacy := s.dot11PrivacyAlgrthm } else port
  { s with sta := Function.update s.sta psta port }

/-- The keys of `wpa_set_encryption` in station mode (lines 674–703). -/
def wpaSetKeys (e : Env) (p : IeeeParam) (psta : ℕ) (r : Run) : Run :=
  if p.setTx = 1 then
    let r := r.memcpy (.dot118021xUncstKey psta) p.key 0 p.keptLen
    let r := if algOf p.alg = .tkip then
        ((r.memcpy (.dot11tkiptxmickey psta) p.key 16 8).memcpy
          (.dot11tkiprxmickey psta) p.key 24 8).set fun s => { s with busetkipkey := false }
      else r
    r.set (rtwSetstakeyCmd e)
  else
    let r := r.memcpy (.dot118021XGrpKey p.slot) p.key 0 p.keptLen
    let r := r.memcpy (.dot118021XGrptxmickey p.slot) p.key 16 8
    let r := r.memcpy (.dot118021XGrprxmickey p.slot) p.key 24 8
    let r := r.set fun s => { s with binstallGrpkey := true, dot118021XGrpKeyid := p.slot }
    r.set fun s => (rtwSetKey e p.slot s).2

/-- `wpa_set_encryption`. -/
def wpaSetEncryption (e : Env) (s : State) (p : IeeeParam) (paramLen : ℕ) : Outcome :=
  if paramLen < keyOffset + p.keyLen.toNat then ⟨.einval, ⟨s, []⟩⟩
  else if !p.isBroadcast then ⟨.einval, ⟨s, []⟩⟩
  else if wepKeys ≤ p.slot then ⟨.einval, ⟨s, []⟩⟩
  else if algOf p.alg = .wep then wpaSetWep e s p
  else if s.dot11AuthAlgrthm = .ieee8021X ∧ e.stationState then
    let r : Run := ⟨s, []⟩
    let r := match e.rtwGetStainfo e.bssid with
      | none => r
      | some psta => wpaSetKeys e p psta (r.set (openPort (algOf p.alg) psta))
    let r := match e.bcmc with
      | none => r
      | some pbcmc => r.set (openPort (algOf p.alg) pbcmc)
    ⟨.success, r⟩
  else ⟨.success, ⟨s, []⟩⟩

/-- `IW_ENCODE_INDEX`, `IW_ENCODE_DISABLED`, `IW_ENCODE_RESTRICTED` and `IW_ENCODE_OPEN`. -/
def iwEncodeIndex : UInt16 := 0x00ff
def iwEncodeDisabled : UInt16 := 0x8000
def iwEncodeRestricted : UInt16 := 0x4000
def iwEncodeOpen : UInt16 := 0x2000

/-- The authentication mode (lines 1962–1994). -/
def setAuthMode (flags : UInt16) (s : State) : State :=
  if flags &&& iwEncodeOpen = 0 ∧ flags &&& iwEncodeRestricted ≠ 0 then
    { s with ndisencryptstatus := .encryption1Enabled, dot11AuthAlgrthm := .shared
             dot11PrivacyAlgrthm := .wep40, dot118021XGrpPrivacy := .wep40
             ndisauthtype := .shared }
  else
    { s with ndisencryptstatus := .encryption1Enabled, dot11AuthAlgrthm := .openSystem
             dot11PrivacyAlgrthm := .noPrivacy, dot118021XGrpPrivacy := .noPrivacy
             ndisauthtype := .openSystem }

/-- `rtw_wx_set_enc` with the flags and the length of `wrqu->encoding`. -/
def rtwWxSetEnc (e : Env) (s : State) (flags length : UInt16) (keybuf : ℕ → UInt8) : Outcome :=
  if flags &&& iwEncodeDisabled ≠ 0 then
    ⟨.success, ⟨{ s with ndisencryptstatus := .encryptionDisabled, dot11PrivacyAlgrthm := .noPrivacy
                         dot118021XGrpPrivacy := .noPrivacy, dot11AuthAlgrthm := .openSystem
                         ndisauthtype := .openSystem }, []⟩⟩
  else
    let index := (flags &&& iwEncodeIndex).toNat
    if wepKeys < index then ⟨.einval, ⟨s, []⟩⟩
    else
      let key := if index = 0 then s.dot11PrivacyKeyIndex else index - 1
      let r : Run := ⟨setAuthMode flags s, []⟩
      if length = 0 ∧ index ≠ 0 then
        ⟨.success, r.set fun s =>
          { s with dot11PrivacyKeyIndex := key
                   dot11PrivacyAlgrthm := wepAlgrthm (s.dot11DefKeylen key) }⟩
      else
        let keyLength := if length = 0 then 0 else wepKeyLen length.toNat
        let res := rtwSet80211AddWep e (UInt32.ofNat key ||| 0x80000000) keyLength keybuf r
        ⟨if !res.1 && e.rfOn then .eopnotsupp else .success, res.2⟩

/-! ## The requests of the access point -/

/-- A group key (lines 2797–2851 and 2896–2943, which are the same). -/
def setGroupKey (e : Env) (p : IeeeParam) (r : Run) : Run :=
  let copied := r.memcpy (.dot118021XGrpKey p.slot) p.key 0 p.keptLen
  let r := match algOf p.alg with
    | .wep | .ccmp => copied
    | .tkip =>
      ((copied.memcpy (.dot118021XGrptxmickey p.slot) p.key 16 8).memcpy
        (.dot118021XGrprxmickey p.slot) p.key 24 8).set fun s => { s with busetkipkey := true }
    | .none | .other => r
  let r := r.set fun s =>
    { s with dot118021XGrpPrivacy := p.algrthm, dot118021XGrpKeyid := p.slot
             binstallGrpkey := true, dot11PrivacyAlgrthm := p.algrthm }
  let r := rtwApSetKey e p.algrthm p.slot r
  match e.bcmc with
  | none => r
  | some pbcmc => r.set fun s => { s with sta := Function.update s.sta pbcmc ⟨false, p.algrthm⟩ }

/-- A pairwise key (lines 2857–2893). -/
def setPairwiseKey (p : IeeeParam) (psta : ℕ) (r : Run) : Run :=
  let r := r.memcpy (.dot118021xUncstKey psta) p.key 0 p.keptLen
  let r := if algOf p.alg = .tkip then
      ((r.memcpy (.dot11tkiptxmickey psta) p.key 16 8).memcpy
        (.dot11tkiprxmickey psta) p.key 24 8).set fun s => { s with busetkipkey := true }
    else r
  r.set fun s => { s with sta := Function.update s.sta psta ⟨false, p.algrthm⟩ }

/-- A WEP key (lines 2719–2791). -/
def setWepKey (e : Env) (s : State) (p : IeeeParam) : Outcome :=
  if wepKeys ≤ p.slot ∨ p.keyLen = 0 then ⟨.einval, ⟨s, []⟩⟩
  else if !e.mallocOk then ⟨.success, ⟨s, []⟩⟩
  else
    let keyLength := wepKeyLen p.keyLen.toNat
    let r : Run := ⟨s, []⟩
    let r := if p.setTx ≠ 0 then r.set fun s =>
        { s with dot11AuthAlgrthm := .auto, ndisencryptstatus := .encryption1Enabled
                 dot11PrivacyAlgrthm := wepAlgrthm keyLength
                 dot118021XGrpPrivacy := wepAlgrthm keyLength
                 dot11PrivacyKeyIndex := p.slot }
      else r
    let r := r.memcpy (.dot11DefKey p.slot) p.key 0 keyLength
    let r := r.set fun s =>
      { s with dot11DefKeylen := Function.update s.dot11DefKeylen p.slot keyLength }
    ⟨.success, rtwApSetKey e (wepAlgrthm keyLength) p.slot r⟩

/-- `rtw_set_encryption`. -/
def rtwSetEncryption (e : Env) (s : State) (p : IeeeParam) (paramLen : ℕ) : Outcome :=
  if paramLen ≠ sizeofIeeeParam + p.keyLen.toNat then ⟨.einval, ⟨s, []⟩⟩
  else if p.isBroadcast then
    if wepKeys ≤ p.slot then ⟨.einval, ⟨s, []⟩⟩
    else match algOf p.alg with
      | .none =>
        ⟨.success, ⟨{ s with dot11AuthAlgrthm := .openSystem
                             ndisencryptstatus := .encryptionDisabled
                             dot11PrivacyAlgrthm := .noPrivacy
                             dot118021XGrpPrivacy := .noPrivacy }, []⟩⟩
      | .wep => setWepKey e s p
      | .tkip | .ccmp | .other =>
        ⟨.success, if e.apState ∧ p.setTx = 1 then setGroupKey e p ⟨s, []⟩ else ⟨s, []⟩⟩
  else
    match e.rtwGetStainfo p.staAddr with
    | none => ⟨.success, ⟨s, []⟩⟩
    | some psta =>
      ⟨.success, if s.dot11AuthAlgrthm = .ieee8021X ∧ e.apState then
          if p.setTx = 1 then setPairwiseKey p psta ⟨s, []⟩ else setGroupKey e p ⟨s, []⟩
        else ⟨s, []⟩⟩

end Rtl8821au.Security.KeyRequest
