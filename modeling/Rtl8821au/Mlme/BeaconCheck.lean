import Rtl8821au.Lib.Run
import Rtl8821au.Mlme.BssInfo
import Rtl8821au.Mlme.SecSearch

/-!
# Beacons of the network that was joined

`rtw_get_bcn_info` and `rtw_get_cipher_info` (`rtw_ieee80211.c`, lines 1358–1438), which record
what the beacon of a network says of it, and `rtw_check_bcn_info` (`rtw_wlan_util.c`, lines
1096–1287), which compares a later beacon with it. A read is checked against the bytes of the
beacon, in the frame and in their copy in `IEs`, a write against the record.

* `endsWhen_rtwGetBcnInfo`, `endsWhen_checkBuilt`: what both read, and what they see.
* `outcome_alike`, `same_iff_steady`: of a beacon with the SSID emptied or zeroed the check sees
  what the recorder saw.
* `check_agrees_iff`: when the recorder and every check of a run over later beacons are right.

**What goes wrong.** The length of an element is not compared with what is left of the beacon. An
SSID of up to 255 bytes is copied to 32, over the length and the elements that are looked at next.
An SSID that begins with a zero passes for hidden. An empty DS parameter element has the next id
for its channel. The recorder keeps the old ciphers when an element is not parsed to its end, the
check compares with what the parser left. Of a WPA and an RSN element only the first is compared,
though the second makes the protocol.
-/

namespace Rtl8821au.Mlme.BeaconCheck

open Checked HeaderScan Elements WpaIe SecSearch Run
open BssInfo (WlanBssidEx RecvFrame collectBssInfo maxIeSz hdrLen bodyLen dataOf)

/-! ## Model -/

/-- `ENCRYP_PROTOCOL_E`. -/
inductive EncrypProtocol where
  | opensys
  | wep
  | wpa
  | wpa2
  | wapi
  deriving DecidableEq, Repr

/-- `group_cipher`, `pairwise_cipher` and `is_8021x`. -/
structure Ciphers where
  groupCipher : ℤ := 0
  pairwiseCipher : ℤ := 0
  is8021x : ℤ := 0
  deriving DecidableEq, Repr

/-- `WLAN_BCN_INFO`. -/
structure BcnInfo extends Ciphers where
  encrypProtocol : EncrypProtocol := .opensys
  htCapInfo : ℕ := 0
  htInfoInfos0 : UInt8 := 0
  deriving DecidableEq, Repr

/-- What a parser has left in the three variables, which were 0. -/
def ciphersOf (o : Out) : Ciphers where
  groupCipher := o.groupCipher
  pairwiseCipher := o.pairwiseCipher
  is8021x := if o.is8021x = some true then 1 else 0

/-- `IELength - _FIXED_IE_LENGTH_`, which becomes an `int`; a negative limit is as good as 0. -/
def ieLimit (ieLength : ℕ) : ℕ := if ieLength - 12 < 2147483648 then ieLength - 12 else 0

section elements

variable (f : List UInt8) (ieLength : ℕ)

/-- `pht_cap->cap_info`. -/
def htCapInfo : Except Fault ℕ := do
  let found ← getIe f 45 (ieLimit ieLength) 12
  match found with
  | some (p, len) => if 0 < len then readLe16 f (p + 2) else .ok 0
  | none => .ok 0

/-- `pht_info`, if it is not NULL. -/
def phtInfo : Except Fault (Option ℕ) := do
  let found ← getIe f 61 (ieLimit ieLength) 12
  match found with
  | some (p, len) => .ok (if 0 < len then some p else none)
  | none => .ok none

/-- `pht_info->infos[0]`. -/
def htInfoInfos0 : Option ℕ → Except Fault UInt8
  | some p => readByte f (p + 3)
  | none => .ok 0

/-- `cap & WLAN_CAPABILITY_PRIVACY` and `val16 & BIT(4)`. -/
def privacyBit : Except Fault Bool := do
  let cap ← readLe16 f 10
  .ok (cap.testBit 4)

/-- The protocol by `rsn_len` and `wpa_len`. -/
def encrypProtocol (lens : ℕ × ℕ) (privacy : Bool) : EncrypProtocol :=
  if 0 < lens.1 then .wpa2
  else if 0 < lens.2 then .wpa
  else if privacy then .wep
  else .opensys

end elements

/-- `rtw_get_cipher_info`: a parser that fails leaves `BcnInfo` as it was. -/
def rtwGetCipherInfo (b : WlanBssidEx) (old : Ciphers) : Except Fault Ciphers := do
  let r ← cipherInfo b.body (ieLimit b.ieLength)
  match r with
  | some o => .ok (if o.ret then ciphersOf o else old)
  | none => .ok old

/-- `rtw_get_bcn_info` on `cur_network`: `network` and `BcnInfo`. -/
def rtwGetBcnInfo (b : WlanBssidEx) (old : BcnInfo) : Except Fault (WlanBssidEx × BcnInfo) := do
  let bencrypt ← privacyBit b.body
  let lens ← rtwGetSecIe b.body b.ieLength
  let ciphers ← rtwGetCipherInfo b old.toCiphers
  let cap ← htCapInfo b.body b.ieLength
  let pht ← phtInfo b.body b.ieLength
  let infos0 ← htInfoInfos0 b.body pht
  .ok (if bencrypt then { b with privacy := 1 } else b,
    { ciphers with
      encrypProtocol := encrypProtocol lens bencrypt
      htCapInfo := cap
      htInfoInfos0 := infos0 })

/-- A beacon as `OnBeacon` has it, and whether there is memory for a record. -/
structure Beacon where
  data : List UInt8
  allocated : Bool
  length_lt : data.length < 2 ^ 32

/-- What is looked at of the driver: `is_client_associated_to_ap`, `cur_network` and
    `cur_channel`. -/
structure Link where
  associated : Bool
  network : WlanBssidEx
  bcnInfo : BcnInfo
  curChannel : UInt8

/-- A number of four bytes, the lowest one first. -/
def le32 (n : ℕ) : List UInt8 :=
  [UInt8.ofNat n, UInt8.ofNat (n / 256), UInt8.ofNat (n / 65536), UInt8.ofNat (n / 16777216)]

def ofLe (bs : List UInt8) : ℕ := bs.foldr (fun b n => b.toNat + 256 * n) 0

/-- The record that the check builds: `SsidLength`, and the bytes from `Ssid.Ssid` on, with
    `IELength` at 104 and `IEs` at 108. The first `len` bytes of `IEs` are the beacon's. -/
structure Built where
  len : ℕ
  ssidLength : ℕ
  fields : Area 876

/-- `IELength`, in these bytes. -/
def ieLengthIn (fields : List UInt8) : ℕ := ofLe ((fields.drop 104).take 4)

/-- The beacon's bytes in `IEs`. -/
def iesIn (fields : List UInt8) (len : ℕ) : List UInt8 := (fields.drop 108).take len

def Built.ieLength (b : Built) : ℕ := ieLengthIn b.fields.bytes

def Built.ies (b : Built) : List UInt8 := iesIn b.fields.bytes b.len

def Built.ssid (b : Built) : List UInt8 := b.fields.bytes.take 32

/-- Lines 1134–1145; the result of `rtw_zmalloc` is not looked at. The subtype is read for
    `Reserved[0]`. -/
def build (f : Beacon) (len : ℕ) : Except Fault Built :=
  if f.allocated then do
    let _ ← readBytes f.data 0 2
    let body ← readBytes f.data hdrLen len
    let fields ← (Area.zero 876).copyIn 104 (le32 len)
    let fields ← fields.copyIn 108 body
    .ok ⟨len, 0, fields⟩
  else .error .beyond

/-- Lines 1147–1176: `BcnInfo` is brought up to date. -/
def checkHt (b : Built) (info : BcnInfo) : Except Fault (BcnInfo × Option ℕ) := do
  let cap ← htCapInfo b.ies b.ieLength
  let pht ← phtInfo b.ies b.ieLength
  let infos0 ← htInfoInfos0 b.ies pht
  .ok (if cap ≠ info.htCapInfo ∨ infos0 &&& 3 ≠ info.htInfoInfos0 &&& 3 then
      { info with htCapInfo := cap, htInfoInfos0 := infos0 }
    else info, pht)

/-- `bcn_channel` (lines 1178–1190). -/
def bcnChannel (b : Built) (pht : Option ℕ) (curChannel : UInt8) : Except Fault UInt8 := do
  let found ← getIe b.ies 3 (ieLimit b.ieLength) 12
  match found with
  | some (p, _) => readByte b.ies (p + 2)
  | none => do
    let _ ← getIe b.ies 61 (ieLimit b.ieLength) 12
    match pht with
    | some p => readByte b.ies (p + 2)
    | none => .ok curChannel

/-- Lines 1197–1211. `Ssid.Ssid[0]` and `SsidLength` are 0 already. -/
def copySsid (b : Built) : Except Fault Built := do
  let found ← getIe b.ies 0 (ieLimit b.ieLength) 12
  match found with
  | none => .ok b
  | some (p, _) => do
    let n ← readByte b.ies (p + 1)
    if n = 0 then .ok b
    else do
      let ssid ← readBytes b.ies (p + 2) n.toNat
      let fields ← b.fields.copyIn 0 ssid
      .ok { b with ssidLength := n.toNat, fields := fields }

/-- Lines 1213–1219: the SSIDs differ, and the new one is not hidden. -/
def SsidMismatch (network : WlanBssidEx) (b : Built) : Prop :=
  (b.ssid ≠ network.ssid.bytes ∨ b.ssidLength ≠ network.ssidLength) ∧
    b.ssid.headD 0 ≠ 0 ∧ b.ssidLength ≠ 0

instance (network : WlanBssidEx) (b : Built) : Decidable (SsidMismatch network b) :=
  inferInstanceAs (Decidable (_ ∧ _ ∧ _))

/-- Lines 1221–1279. -/
def checkSecurity (s : Link) (b : Built) : Except Fault Bool := do
  let privacy ← privacyBit b.ies
  if s.network.privacy ≠ privacy.toNat then .ok false
  else do
    let lens ← rtwGetSecIe b.ies b.ieLength
    if s.bcnInfo.encrypProtocol ≠ encrypProtocol lens privacy then .ok false
    else if encrypProtocol lens privacy = .wpa ∨ encrypProtocol lens privacy = .wpa2 then do
      let r ← cipherInfo b.ies (ieLimit b.ieLength)
      .ok (decide ((r.map ciphersOf).getD {} = s.bcnInfo.toCiphers))
    else .ok true

/-- From line 1147 on: whether the beacon is accepted, and `BcnInfo`. -/
def checkBuilt (s : Link) (b : Built) : Except Fault (Bool × BcnInfo) := do
  let ht ← checkHt b s.bcnInfo
  let channel ← bcnChannel b ht.2 s.curChannel
  if channel ≠ s.curChannel then .ok (false, ht.1)
  else do
    let b ← copySsid b
    if SsidMismatch s.network b then .ok (false, ht.1)
    else do
      let ok ← checkSecurity { s with bcnInfo := ht.1 } b
      .ok (ok, ht.1)

/-- `rtw_check_bcn_info`. -/
def rtwCheckBcnInfo (s : Link) (f : Beacon) : Except Fault (Bool × BcnInfo) :=
  if s.associated = false then .ok (true, s.bcnInfo)
  else if maxIeSz < bodyLen f.data.length then .ok (false, s.bcnInfo)
  else do
    let pbssid ← readBytes f.data 16 6
    if pbssid ≠ s.network.macAddress.bytes then .ok (true, s.bcnInfo)
    else do
      let b ← build f (bodyLen f.data.length)
      checkBuilt s b

/-! ## What a beacon says -/

/-- What a network announces in its beacons. -/
structure Announcement where
  channel : Option UInt8
  ssid : List UInt8
  privacy : Bool
  protocol : EncrypProtocol
  ciphers : Option Ciphers
  deriving DecidableEq, Repr

section announcement

variable (es : List Elem) (body : List UInt8)

/-- The whole elements behind the fixed fields. -/
def elementsOf : List Elem := (Elements.parse (body.drop 12)).1

/-- The channel in the DS parameter element, else in the HT operation element. -/
def announcedChannel : Option UInt8 := (dataOf 3 es).head?.or (dataOf 61 es).head?

/-- Bit 4 of the capability field. -/
def announcedPrivacy : Bool := ((body.getD 10 0).toNat + 256 * (body.getD 11 0).toNat).testBit 4

/-- A vendor specific element with the OUI and the type of WPA. -/
def IsWpaElem (e : Elem) : Prop := e.id = 0xdd ∧ e.data.take 4 = wpaOui

instance (e : Elem) : Decidable (IsWpaElem e) := inferInstanceAs (Decidable (_ ∧ _))

/-- RSN before WPA before WEP. -/
def announcedProtocol (privacy : Bool) : EncrypProtocol :=
  if ∃ e ∈ es, e.id = 0x30 then .wpa2
  else if ∃ e ∈ es, IsWpaElem e then .wpa
  else if privacy then .wep
  else .opensys

/-- The ciphers of an element that is well formed. -/
def elementCiphers (fmt : Format) (e : Elem) : Option Ciphers :=
  match WpaIe.parse fmt e.encode (start true) with
  | .ok o => if o.ret then some (ciphersOf o) else none
  | .error _ => none

/-- Those of the element that makes the protocol. -/
def announcedCiphers : EncrypProtocol → Option Ciphers
  | .wpa2 => (es.find? fun e => e.id = 0x30).bind (elementCiphers rsn)
  | .wpa => (es.find? fun e => IsWpaElem e).bind (elementCiphers wpa)
  | _ => none

/-- The announcement in the body of a beacon. -/
def announcement : Announcement where
  channel := announcedChannel (elementsOf body)
  ssid := dataOf 0 (elementsOf body)
  privacy := announcedPrivacy body
  protocol := announcedProtocol (elementsOf body) (announcedPrivacy body)
  ciphers := announcedCiphers (elementsOf body)
    (announcedProtocol (elementsOf body) (announcedPrivacy body))

end announcement

/-- An SSID that is not empty and not all zeros. -/
def Shown (ssid : List UInt8) : Prop := ∃ b ∈ ssid, b ≠ 0

/-- The announcement of a network on `channel` is no longer the one it was. -/
def Announcement.Changed (a : Announcement) (channel : UInt8) (new : Announcement) : Prop :=
  (∃ c, new.channel = some c ∧ c ≠ channel) ∨ (Shown new.ssid ∧ new.ssid ≠ a.ssid) ∨
    new.privacy ≠ a.privacy ∨ new.protocol ≠ a.protocol ∨ new.ciphers ≠ a.ciphers

/-- The same body with the first SSID element emptied or zeroed. -/
def Hides (body body' : List UInt8) : Prop :=
  ∃ fixed es₁ e e' es₂ t, fixed.length = 12 ∧ (∀ x ∈ es₁, x.id ≠ 0) ∧ e.id = 0 ∧ e'.id = 0 ∧
    (e'.data = [] ∨ e'.data = List.replicate e.data.length 0) ∧ Stump t ∧
    body = fixed ++ (encodeAll (es₁ ++ e :: es₂) ++ t) ∧
    body' = fixed ++ (encodeAll (es₁ ++ e' :: es₂) ++ t)

/-- A network that was joined: the beacon of which `collect_bss_info` made the record, what
    `BcnInfo` held before, and the channel, which is the one that the beacon announces, if it
    does. -/
structure Joined where
  frame : RecvFrame
  operCh : UInt8
  record : WlanBssidEx
  old : BcnInfo
  curChannel : UInt8
  collected : collectBssInfo frame operCh = .ok (some record)
  announced : ∀ c, (announcement (frame.rxData.drop hdrLen)).channel = some c → curChannel = c

def Joined.body (j : Joined) : List UInt8 := j.frame.rxData.drop hdrLen

def Beacon.body (f : Beacon) : List UInt8 := f.data.drop hdrLen

/-- The driver once the network is joined. -/
def Joined.link (j : Joined) (network : WlanBssidEx) (info : BcnInfo) : Link :=
  ⟨true, network, info, j.curChannel⟩

/-- The beacon has a header with the BSSID of the record. -/
def Joined.Sends (j : Joined) (f : Beacon) : Prop :=
  hdrLen ≤ f.data.length ∧ bytesAt f.data 16 6 = j.record.macAddress.bytes

/-- It has the same body, but perhaps for the SSID. -/
def Joined.Repeats (j : Joined) (f : Beacon) : Prop :=
  j.Sends f ∧ (f.body = j.body ∨ Hides j.body f.body)

/-- It announces something else. -/
def Joined.Changes (j : Joined) (f : Beacon) : Prop :=
  j.Sends f ∧ 12 ≤ f.body.length ∧
    (announcement j.body).Changed j.curChannel (announcement f.body)

/-- Of the beacon no byte is read that is not there, none of the record is written that is not,
    and it is accepted if it repeats the first one and not if it changes it. -/
def Joined.Right (j : Joined) (network : WlanBssidEx) (info : BcnInfo) (f : Beacon) : Prop :=
  ∃ r, rtwCheckBcnInfo (j.link network info) f = .ok r ∧
    (j.Repeats f → r.1 = true) ∧ (j.Changes f → r.1 = false)

/-- `BcnInfo` after a check. -/
def infoAfter (info : BcnInfo) : Except Fault (Bool × BcnInfo) → BcnInfo
  | .ok r => r.2
  | .error _ => info

/-- `BcnInfo` after a beacon. -/
def Joined.next (j : Joined) (network : WlanBssidEx) (info : BcnInfo) (f : Beacon) : BcnInfo :=
  infoAfter info (rtwCheckBcnInfo (j.link network info) f)

/-- The recorder and, in the run over later beacons, the check are right. -/
def Joined.Agree (j : Joined) (frames : List Beacon) : Prop :=
  ∃ r, rtwGetBcnInfo j.record j.old = .ok r ∧
    Guarded (j.next r.1) (j.Right r.1) r.2 frames

/-! ## When both are right -/

/-- The headers behind the fixed fields, up to the limit of a search. -/
def chain (ies : List UInt8) (ieLength : ℕ) : List (List UInt8) :=
  headers (ieLimit ieLength) (ies.drop 12)

/-- Those that `rtw_get_sec_ie` comes to. -/
def secChain (ies : List UInt8) (ieLength : ℕ) : List (List UInt8) :=
  headers (ieLength - 12) (ies.drop 12)

/-- An HT element that is found is empty, or two bytes of its data are there. -/
def HtElemFits (index : UInt8) (hs : List (List UInt8)) : Prop :=
  ScanFits (fun _ => 2) (hasId index) hs ∧
    ∀ h, hs.find? (hasId index) = some h → 0 < lenOf h → 4 ≤ h.length

/-- There is a byte behind the header of a DS parameter element. -/
def ChannelFits (hs : List (List UInt8)) : Prop :=
  ScanFits (fun _ => 2) (hasId 3) hs ∧ ∀ h, hs.find? (hasId 3) = some h → 3 ≤ h.length

/-- The first SSID element is whole. -/
def SsidFits (hs : List (List UInt8)) : Prop :=
  ScanFits (fun _ => 2) (hasId 0) hs ∧ ∀ h, hs.find? (hasId 0) = some h → 2 + lenOf h ≤ h.length

section seen

variable (hs : List (List UInt8))

/-- The byte that is taken for the channel. -/
def seenChannel (curChannel : UInt8) : UInt8 :=
  match hs.find? (hasId 3), hs.find? (hasId 61) with
  | some h, _ => h.getD 2 0
  | none, some h => if 0 < lenOf h then h.getD 2 0 else curChannel
  | none, none => curChannel

/-- The data of the first SSID element. -/
def seenSsid : List UInt8 :=
  ((hs.find? (hasId 0)).map fun h => (h.drop 2).take (lenOf h)).getD []

/-- The protocol, by any header with the ids. -/
def seenProtocol (privacy : Bool) : EncrypProtocol :=
  if ∃ h ∈ hs, hasId 0x30 h = true then .wpa2
  else if ∃ h ∈ hs, isWpa h = true then .wpa
  else if privacy then .wep
  else .opensys

/-- What the parser makes of the element that is consulted. -/
def outcome : Option Out :=
  (consulted hs).bind fun c => (parseIn c.1 c.2 (lenOf c.2 + 2) (start true)).toOption

def seenCiphers : Ciphers := ((outcome hs).map ciphersOf).getD {}

/-- The element is parsed to its end. -/
def Parses : Prop := ∃ o, outcome hs = some o ∧ o.ret = true

/-- What is recorded of it. -/
def recordedCiphers (old : Ciphers) : Ciphers :=
  match outcome hs with
  | some o => if o.ret then ciphersOf o else old
  | none => old

end seen

/-- A protocol with ciphers. -/
def EncrypProtocol.Secured (p : EncrypProtocol) : Prop := p = .wpa ∨ p = .wpa2

/-- What is compared with a beacon. -/
structure Recorded where
  ssid : List UInt8
  privacy : Bool
  protocol : EncrypProtocol
  ciphers : Ciphers

/-- It is recorded. -/
structure Link.Has (s : Link) (r : Recorded) : Prop where
  room : r.ssid.length ≤ 32
  ssid : s.network.ssid.bytes = r.ssid ++ List.replicate (32 - r.ssid.length) 0
  ssidLength : s.network.ssidLength = r.ssid.length
  privacy : s.network.privacy = r.privacy.toNat
  protocol : s.bcnInfo.encrypProtocol = r.protocol
  ciphers : s.bcnInfo.toCiphers = r.ciphers

/-- The first byte of the SSID is not 0, and it is another one. -/
def Recorded.SsidDiffers (r : Recorded) (ssid : List UInt8) : Prop :=
  ssid ≠ r.ssid ∧ ssid.headD 0 ≠ 0

section security

variable (r : Recorded) (ies : List UInt8) (ieLength : ℕ)

/-- The protocol that is seen in these bytes. -/
def protocolIn : EncrypProtocol := seenProtocol (secChain ies ieLength) (announcedPrivacy ies)

/-- What is read of the fixed fields and of WPA and RSN elements is there. -/
def Recorded.SecurityFits : Prop :=
  12 ≤ ies.length ∧ (announcedPrivacy ies = r.privacy →
    (∀ x ∈ secChain ies ieLength, secNeed x ≤ x.length) ∧
      (protocolIn ies ieLength = r.protocol → (protocolIn ies ieLength).Secured →
        CipherFits (chain ies ieLength)))

/-- A difference is seen in the privacy bit, the protocol or the ciphers. -/
def Recorded.SecurityDiffers : Prop :=
  announcedPrivacy ies ≠ r.privacy ∨ protocolIn ies ieLength ≠ r.protocol ∨
    (protocolIn ies ieLength).Secured ∧ seenCiphers (chain ies ieLength) ≠ r.ciphers

/-- None is. -/
def Recorded.SecuritySame : Prop :=
  announcedPrivacy ies = r.privacy ∧ protocolIn ies ieLength = r.protocol ∧
    ((protocolIn ies ieLength).Secured → seenCiphers (chain ies ieLength) = r.ciphers)

end security

section check

variable (r : Recorded) (curChannel : UInt8) (body : List UInt8)

/-- The record that is built, from `Ssid.Ssid` on. -/
def fieldsOf : List UInt8 :=
  List.replicate 104 0 ++ (le32 body.length ++ (body ++ List.replicate (768 - body.length) 0))

/-- An SSID of any length over these fields. -/
def withSsid (fields ssid : List UInt8) : List UInt8 := ssid ++ fields.drop ssid.length

/-- The headers of a beacon. -/
def bodyChain : List (List UInt8) := chain body body.length

/-- The record with the SSID of the beacon. -/
def fieldsWithSsid : List UInt8 := withSsid (fieldsOf body) (seenSsid (bodyChain body))

/-- What is read of a beacon is there, as far as the check goes. -/
def Recorded.CheckFits : Prop :=
  HtElemFits 45 (bodyChain body) ∧ HtElemFits 61 (bodyChain body) ∧ ChannelFits (bodyChain body) ∧
    (seenChannel (bodyChain body) curChannel = curChannel → SsidFits (bodyChain body) ∧
      (¬ r.SsidDiffers (seenSsid (bodyChain body)) →
        r.SecurityFits (iesIn (fieldsWithSsid body) body.length)
          (ieLengthIn (fieldsWithSsid body))))

/-- No difference is seen. -/
def Recorded.Same : Prop :=
  seenChannel (bodyChain body) curChannel = curChannel ∧
    ¬ r.SsidDiffers (seenSsid (bodyChain body)) ∧
    r.SecuritySame (iesIn (fieldsWithSsid body) body.length) (ieLengthIn (fieldsWithSsid body))

end check

/-! ## Reads of elements -/

section readers

variable {f : List UInt8} {ieLength : ℕ} {pht : Option ℕ}

theorem endsWhen_htCapInfo (f : List UInt8) (ieLength : ℕ) :
    EndsWhen (HtElemFits 45 (chain f ieLength)) (fun _ => True) (htCapInfo f ieLength) := by
  rw [htCapInfo]
  refine (endsWhen_getIe f 45 (ieLimit ieLength) 12).bind_of_imp And.left fun r hfit hr => ?_
  have hfind := hr.located
  rcases r with _ | ⟨q, len⟩
  · exact .ok_of ⟨hfit, forall_notFound hfind⟩ trivial
  · obtain ⟨hfound, rfl⟩ := hfind
    rw [HtElemFits, chain, forall_found hfound, and_iff_right hfit]
    dsimp only
    by_cases hpos : 0 < lenOf (f.drop q)
    · rw [if_pos hpos]
      exact ((endsWhen_readLe16 rfl 2).iff ⟨fun h _ => h, fun h => h hpos⟩).weaken
        fun _ _ => trivial
    · rw [if_neg hpos]
      exact .ok_of (fun h => absurd h hpos) trivial

/-- `pht_info` is the place of an element that is not empty. -/
def PhtAt (f : List UInt8) (hs : List (List UInt8)) : Option ℕ → Prop
  | none => ∀ h, hs.find? (hasId 61) = some h → ¬ 0 < lenOf h
  | some q => hs.find? (hasId 61) = some (f.drop q) ∧ 0 < lenOf (f.drop q)

theorem endsWhen_phtInfo (f : List UInt8) (ieLength : ℕ) :
    EndsWhen (ScanFits (fun _ => 2) (hasId 61) (chain f ieLength)) (PhtAt f (chain f ieLength))
      (phtInfo f ieLength) := by
  rw [phtInfo]
  refine (endsWhen_getIe f 61 (ieLimit ieLength) 12).bind_ok fun r hr => ?_
  have hfind := hr.located
  rcases r with _ | ⟨q, len⟩
  · exact .ok (forall_notFound hfind)
  · obtain ⟨hfound, rfl⟩ := hfind
    refine .ok ?_
    by_cases hpos : 0 < lenOf (f.drop q)
    · rw [if_pos hpos]
      exact ⟨hfound, hpos⟩
    · rw [if_neg hpos]
      exact (forall_found hfound).mpr hpos

theorem endsWhen_htInfoInfos0 (hpht : PhtAt f (chain f ieLength) pht) :
    EndsWhen (∀ h, (chain f ieLength).find? (hasId 61) = some h → 0 < lenOf h → 4 ≤ h.length)
      (fun _ => True) (htInfoInfos0 f pht) := by
  rcases pht with _ | q
  · exact .ok_of (fun h hsome hpos => absurd hpos (hpht h hsome)) trivial
  · obtain ⟨hfound, hpos⟩ := hpht
    rw [forall_found hfound]
    exact ((endsWhen_byte rfl 3).iff ⟨fun h _ => h, fun h => h hpos⟩).weaken fun _ _ => trivial

end readers

/-! ## The recorder -/

section recorder

variable {f : List UInt8} {ieLength : ℕ}

theorem endsWhen_privacyBit (f : List UInt8) :
    EndsWhen (12 ≤ f.length) (· = announcedPrivacy f) (privacyBit f) := by
  have hdrop : f.drop 0 = f := List.drop_zero
  rw [privacyBit]
  refine ((endsWhen_readLe16 hdrop 10).bind_ok fun cap hcap => .ok ?_).iff Iff.rfl
  rw [hcap, announcedPrivacy]

theorem encrypProtocol_eq {hs : List (List UInt8)} {lens : ℕ × ℕ} {privacy : Bool}
    (hrsn : 0 < lens.1 ↔ ∃ x ∈ hs, hasId 0x30 x = true)
    (hwpa : 0 < lens.2 ↔ ∃ x ∈ hs, isWpa x = true) :
    encrypProtocol lens privacy = seenProtocol hs privacy := by
  rw [encrypProtocol, seenProtocol]
  simp only [hrsn, hwpa]

/-- The result of the search for the ciphers. -/
theorem outcome_of_parsed {hs : List (List UInt8)} {r : Option Out}
    (h : Parsed (consulted hs) r) : r = outcome hs := by
  rw [outcome]
  rcases hc : consulted hs with _ | ⟨fmt, x⟩
  · rw [hc] at h
    exact h
  · rw [hc] at h
    obtain ⟨o, ho, rfl⟩ := h
    rw [Option.bind_some]
    dsimp only
    rw [ho]
    rfl

theorem endsWhen_outcome (f : List UInt8) (ieLength : ℕ) :
    EndsWhen (CipherFits (chain f ieLength)) (· = outcome (chain f ieLength))
      (cipherInfo f (ieLimit ieLength)) :=
  (endsWhen_cipherInfo f (ieLimit ieLength)).weaken fun _ => outcome_of_parsed

theorem endsWhen_protocol (f : List UInt8) (ieLength : ℕ) (privacy : Bool) :
    EndsWhen (∀ x ∈ secChain f ieLength, secNeed x ≤ x.length)
      (fun lens => encrypProtocol lens privacy = seenProtocol (secChain f ieLength) privacy)
      (rtwGetSecIe f ieLength) :=
  (endsWhen_rtwGetSecIe f ieLength).weaken fun _ h => encrypProtocol_eq h.1 h.2

/-- What the recorder reads of the body is there. -/
def RecordFits (body : List UInt8) : Prop :=
  (∀ x ∈ secChain body body.length, secNeed x ≤ x.length) ∧ CipherFits (bodyChain body) ∧
    HtElemFits 45 (bodyChain body) ∧ HtElemFits 61 (bodyChain body)

/-- The recorder, on a record with the body of a beacon. -/
theorem endsWhen_rtwGetBcnInfo {b : WlanBssidEx} {body : List UInt8} (old : BcnInfo)
    (hbody : b.body = body) (hlen : b.ieLength = body.length) (hfixed : 12 ≤ body.length) :
    EndsWhen (RecordFits body)
      (fun r => r.1 = (if announcedPrivacy body then { b with privacy := 1 } else b) ∧
        r.2.encrypProtocol = protocolIn body body.length ∧
        r.2.toCiphers = recordedCiphers (bodyChain body) old.toCiphers)
      (rtwGetBcnInfo b old) := by
  rw [rtwGetBcnInfo, hbody, hlen]
  refine (((endsWhen_privacyBit body).iff (iff_true_intro hfixed)).bind fun bencrypt hb =>
    (endsWhen_protocol body body.length bencrypt).bind fun lens hlens => ?_).iff
      (and_iff_right trivial)
  have hciphers : EndsWhen (CipherFits (bodyChain body))
      (· = recordedCiphers (bodyChain body) old.toCiphers)
      (rtwGetCipherInfo b old.toCiphers) := by
    rw [rtwGetCipherInfo, hbody, hlen]
    refine (endsWhen_outcome body body.length).bind_ok fun r hr => ?_
    rw [recordedCiphers, bodyChain, ← hr]
    rcases r with _ | o
    · exact .ok rfl
    · exact .ok rfl
  refine hciphers.bind fun ciphers hc => (endsWhen_htCapInfo body body.length).bind fun cap _ =>
    (endsWhen_phtInfo body body.length).bind fun pht hpht =>
      (endsWhen_htInfoInfos0 hpht).bind_ok fun infos0 _ => .ok ⟨?_, ?_, hc⟩
  · rw [hb]
  · rw [protocolIn, ← hb]
    exact hlens

end recorder

/-! ## The parts of the check -/

section parts

variable {b : Built} {hs : List (List UInt8)} {curChannel : UInt8} {pht : Option ℕ}

theorem seenChannel_ds {h : List UInt8} (hds : hs.find? (hasId 3) = some h) :
    seenChannel hs curChannel = h.getD 2 0 := by
  rw [seenChannel, hds]

theorem endsWhen_bcnChannel (hpht : PhtAt b.ies (chain b.ies b.ieLength) pht)
    (hht : HtElemFits 61 (chain b.ies b.ieLength)) :
    EndsWhen (ChannelFits (chain b.ies b.ieLength))
      (· = seenChannel (chain b.ies b.ieLength) curChannel) (bcnChannel b pht curChannel) := by
  unfold bcnChannel
  refine (endsWhen_getIe b.ies 3 (ieLimit b.ieLength) 12).bind_of_imp And.left fun r hfit hr => ?_
  have hfind := hr.located
  rcases r with _ | ⟨q, len⟩
  · have hds : (chain b.ies b.ieLength).find? (hasId 3) = none := hfind
    have hfits : ChannelFits (chain b.ies b.ieLength) := ⟨hfit, forall_notFound hds⟩
    refine EndsWhen.iff (C := True) ?_ (iff_true_intro hfits).symm
    refine EndsWhen.ok_bind ((endsWhen_getIe b.ies 61 (ieLimit b.ieLength) 12).iff
      (iff_true_intro hht.1)) fun _ _ => ?_
    rw [seenChannel, hds]
    rcases pht with _ | q
    · refine .ok ?_
      cases hfound : (chain b.ies b.ieLength).find? (hasId 61) with
      | none => rfl
      | some h => exact (if_neg (hpht h hfound)).symm
    · obtain ⟨hfound, hpos⟩ := hpht
      have hfour : 4 ≤ (b.ies.drop q).length := hht.2 _ hfound hpos
      rw [hfound]
      dsimp only
      rw [if_pos hpos]
      exact (endsWhen_byte rfl 2).iff (iff_true_intro (by omega))
  · obtain ⟨hfound, rfl⟩ := hfind
    have hds : (chain b.ies b.ieLength).find? (hasId 3) = some (b.ies.drop q) := hfound
    have hscan : ScanFits (fun _ => 2) (hasId 3) (chain b.ies b.ieLength) := hfit
    rw [seenChannel_ds hds, ChannelFits, forall_found hds, and_iff_right hscan]
    exact endsWhen_byte rfl 2

/-- The record with an SSID. -/
theorem endsWhen_copySsid (b : Built) :
    EndsWhen (SsidFits (chain b.ies b.ieLength))
      (fun b' => b'.len = b.len ∧
        b'.fields.bytes = withSsid b.fields.bytes (seenSsid (chain b.ies b.ieLength)) ∧
        (b.ssidLength = 0 → b'.ssidLength = (seenSsid (chain b.ies b.ieLength)).length))
      (copySsid b) := by
  rw [copySsid]
  refine (endsWhen_getIe b.ies 0 (ieLimit b.ieLength) 12).bind_of_imp And.left fun r hfit hr => ?_
  have hfind := hr.located
  rcases r with _ | ⟨q, len⟩
  · have hnone : (chain b.ies b.ieLength).find? (hasId 0) = none := hfind
    have hseen : seenSsid (chain b.ies b.ieLength) = [] := by
      rw [seenSsid, hnone]
      rfl
    rw [hseen]
    exact .ok_of ⟨hfit, forall_notFound hnone⟩ ⟨rfl, rfl, id⟩
  · obtain ⟨hfound, rfl⟩ := hfind
    have hseen : seenSsid (chain b.ies b.ieLength) =
        ((b.ies.drop q).drop 2).take (lenOf (b.ies.drop q)) := by
      rw [seenSsid, chain, hfound]
      rfl
    have hlong : 2 ≤ (b.ies.drop q).length := hr.1.long
    rw [hseen, SsidFits, chain, forall_found hfound, and_iff_right hfit]
    refine ((endsWhen_byte rfl 1).iff (iff_true_intro hlong)).ok_bind fun n hn => ?_
    have hlen : lenOf (b.ies.drop q) = n.toNat := by rw [lenOf, hn]
    rw [hlen]
    by_cases h0 : n = 0
    · subst h0
      rw [if_pos rfl, UInt8.toNat_zero, List.take_zero]
      exact .ok_of hlong ⟨rfl, rfl, id⟩
    · have hpos : 0 < n.toNat := Nat.pos_of_ne_zero fun hz => h0 (UInt8.toNat_inj.mp hz)
      obtain ⟨m, hm⟩ : ∃ m, n.toNat = m + 1 := ⟨n.toNat - 1, by omega⟩
      rw [if_neg h0, hm]
      refine ((endsWhen_bytes rfl 2 m).strengthen.bind_ok fun ssid hs => ?_)
      obtain ⟨hle, rfl⟩ := hs
      have hssid : (((b.ies.drop q).drop 2).take (m + 1)).length = m + 1 := by
        rw [List.length_take, List.length_drop, Nat.min_eq_left (by omega)]
      have hlt := n.toNat_lt
      have hfields : b.fields.bytes = [] ++ b.fields.bytes := rfl
      have hoff : ([] : List UInt8).length = 0 := rfl
      have hroom : 0 + (((b.ies.drop q).drop 2).take (m + 1)).length ≤ 876 := by omega
      obtain ⟨fields, hcopy, hbytes⟩ := Area.copyIn_over hfields hoff hroom
      rw [hcopy, bind_ok]
      exact .ok ⟨rfl, hbytes, fun _ => hssid.symm⟩

theorem endsWhen_checkSecurity {s : Link} {r : Recorded} (hs : s.Has r) (b : Built) :
    EndsWhen (r.SecurityFits b.ies b.ieLength)
      (fun ok => ok = true ↔ r.SecuritySame b.ies b.ieLength) (checkSecurity s b) := by
  rw [checkSecurity]
  refine (endsWhen_privacyBit b.ies).bind fun privacy hp => ?_
  subst hp
  have hbit : ∀ x y : Bool, x.toNat = y.toNat ↔ y = x := by decide
  rw [hs.privacy]
  by_cases hpriv : announcedPrivacy b.ies = r.privacy
  · rw [if_neg (not_not.mpr ((hbit _ _).mpr hpriv)), forall_prop_of_true hpriv,
      Recorded.SecuritySame, and_iff_right hpriv]
    refine (endsWhen_protocol b.ies b.ieLength (announcedPrivacy b.ies)).bind fun lens hlens => ?_
    have hproto : encrypProtocol lens (announcedPrivacy b.ies) = protocolIn b.ies b.ieLength :=
      hlens
    rw [hproto, hs.protocol]
    by_cases heq : protocolIn b.ies b.ieLength = r.protocol
    · rw [if_neg (not_not.mpr heq.symm), forall_prop_of_true heq, and_iff_right heq]
      by_cases hsec : (protocolIn b.ies b.ieLength).Secured
      · rw [forall_prop_of_true hsec, forall_prop_of_true hsec]
        have hif : protocolIn b.ies b.ieLength = .wpa ∨ protocolIn b.ies b.ieLength = .wpa2 := hsec
        rw [if_pos hif]
        refine (endsWhen_outcome b.ies b.ieLength).bind_ok fun o ho => .ok ?_
        rw [decide_eq_true_iff, ho, hs.ciphers]
        rfl
      · have hif : ¬ (protocolIn b.ies b.ieLength = .wpa ∨
          protocolIn b.ies b.ieLength = .wpa2) := hsec
        rw [if_neg hif]
        exact .ok_of (fun h => absurd h hsec) (iff_of_true rfl fun h => absurd h hsec)
    · rw [if_pos (Ne.symm heq)]
      exact .ok_of (fun h => absurd h heq)
        (iff_of_false Bool.false_ne_true fun h => heq h.1)
  · rw [if_pos (mt (hbit _ _).mp hpriv)]
    exact .ok_of (fun h => absurd h hpriv) (iff_of_false Bool.false_ne_true fun h => hpriv h.1)

end parts

/-! ## The record that is built -/

section built

variable {x y body ssid : List UInt8} {n : ℕ} {f : Beacon} {s : Link} {r : Recorded} {b : Built}

theorem ofLe_le32 (hn : n < 2 ^ 32) : ofLe (le32 n) = n := by
  simp only [ofLe, le32, List.foldr_cons, List.foldr_nil, UInt8.toNat_ofNat']
  omega

theorem ieLengthIn_eq (hx : x.length = 104) (hn : n < 2 ^ 32) :
    ieLengthIn (x ++ (le32 n ++ y)) = n := by
  have htake : (le32 n ++ y).take 4 = le32 n := rfl
  rw [ieLengthIn, ← hx, List.drop_left, htake, ofLe_le32 hn]

theorem iesIn_eq (hx : x.length = 104) :
    iesIn (x ++ (le32 n ++ (body ++ y))) body.length = body := by
  have hdrop : (x ++ (le32 n ++ (body ++ y))).drop 108 = body ++ y := by
    rw [show 108 = x.length + 4 by rw [hx], ← List.drop_drop, List.drop_left]
    rfl
  rw [iesIn, hdrop, List.take_left]

/-- An SSID that ends in front of `IELength`. -/
theorem withSsid_fieldsOf (hs : ssid.length ≤ 104) :
    withSsid (fieldsOf body) ssid =
      (ssid ++ List.replicate (104 - ssid.length) 0) ++
        (le32 body.length ++ (body ++ List.replicate (768 - body.length) 0)) := by
  have hle : ssid.length ≤ (List.replicate 104 (0 : UInt8)).length := by
    rw [List.length_replicate]
    exact hs
  rw [withSsid, fieldsOf, List.drop_append_of_le_length hle, List.drop_replicate, List.append_assoc]

/-- It leaves the bytes of the beacon as they are. -/
theorem ies_withSsid (hs : ssid.length ≤ 104) (hmax : body.length ≤ 768) :
    iesIn (withSsid (fieldsOf body) ssid) body.length = body ∧
      ieLengthIn (withSsid (fieldsOf body) ssid) = body.length := by
  have hlen : (ssid ++ List.replicate (104 - ssid.length) 0).length = 104 := by
    rw [List.length_append, List.length_replicate]
    omega
  rw [withSsid_fieldsOf hs]
  exact ⟨iesIn_eq hlen, ieLengthIn_eq hlen (by omega)⟩

theorem endsWhen_build (hlen : hdrLen ≤ f.data.length) (hmax : f.body.length ≤ 768) :
    EndsWhen (f.allocated = true)
      (fun b => b.len = f.body.length ∧ b.ssidLength = 0 ∧ b.fields.bytes = fieldsOf f.body)
      (build f f.body.length) := by
  have hbody : f.body.length = f.data.length - hdrLen := List.length_drop
  rw [build]
  by_cases halloc : f.allocated = true
  · rw [if_pos halloc]
    refine EndsWhen.iff (C := True) ?_ (iff_true_intro halloc).symm
    have htwo : Inside f.data 0 2 := .inr (by rw [hdrLen] at hlen; omega)
    have hin : Inside f.data hdrLen f.body.length := .inr (by omega)
    have hread : readBytes f.data hdrLen f.body.length = .ok f.body := by
      rw [readBytes_of_inside hin, bytesAt, Beacon.body, List.take_length]
    have hzero : (Area.zero 876).bytes = List.replicate 104 0 ++ List.replicate 772 0 := by
      rw [List.replicate_append_replicate]
      rfl
    have h104 : (List.replicate 104 (0 : UInt8)).length = 104 := List.length_replicate
    have hroom : 104 + (le32 f.body.length).length ≤ 876 := by
      show 104 + 4 ≤ 876
      omega
    obtain ⟨a₁, hcopy₁, ha₁⟩ := Area.copyIn_over hzero h104 hroom
    have ha₁' : a₁.bytes =
        (List.replicate 104 0 ++ le32 f.body.length) ++ List.replicate 768 0 := by
      rw [ha₁, List.drop_replicate, List.append_assoc]
      rfl
    have h108 : (List.replicate 104 0 ++ le32 f.body.length).length = 108 := by
      rw [List.length_append, h104]
      rfl
    have hroom' : 108 + f.body.length ≤ 876 := by omega
    obtain ⟨a₂, hcopy₂, ha₂⟩ := Area.copyIn_over ha₁' h108 hroom'
    rw [readBytes_of_inside htwo, bind_ok, hread, bind_ok, hcopy₁, bind_ok, hcopy₂, bind_ok]
    refine .ok ⟨rfl, rfl, ?_⟩
    rw [ha₂, List.drop_replicate, List.append_assoc]
    rfl
  · rw [if_neg halloc]
    exact .error halloc

/-- The beginning of the SSID field, for an SSID that has room in it. -/
theorem take_withSsid (hs : ssid.length ≤ 32) :
    (withSsid (fieldsOf body) ssid).take 32 = ssid ++ List.replicate (32 - ssid.length) 0 := by
  have hlen : (ssid ++ List.replicate (104 - ssid.length) (0 : UInt8)).length = 104 := by
    rw [List.length_append, List.length_replicate]
    omega
  rw [withSsid_fieldsOf (by omega), List.take_append_of_le_length (by omega), List.take_append,
    List.take_of_length_le hs, List.take_replicate, Nat.min_eq_left (by omega)]

/-- The comparison of the SSIDs. -/
theorem ssidMismatch_iff (hs : s.Has r) (hfields : b.fields.bytes = withSsid (fieldsOf body) ssid)
    (hlen : b.ssidLength = ssid.length) :
    SsidMismatch s.network b ↔ r.SsidDiffers ssid := by
  rw [SsidMismatch, Recorded.SsidDiffers, Built.ssid, hfields, hlen, hs.ssid, hs.ssidLength]
  rcases ssid with _ | ⟨c, d⟩
  · exact iff_of_false (fun h => h.2.2 rfl) fun h => h.2 rfl
  · have hhead : ((withSsid (fieldsOf body) (c :: d)).take 32).headD 0 = c := rfl
    have hpos : (c :: d).length ≠ 0 := Nat.succ_ne_zero _
    rw [hhead, and_iff_left hpos]
    refine and_congr_left fun _ => ?_
    by_cases heq : (c :: d).length = r.ssid.length
    · have hroom : (c :: d).length ≤ 32 := by
        rw [heq]
        exact hs.room
      rw [take_withSsid hroom, or_iff_left (not_not.mpr heq), heq, Ne, Ne, List.append_left_inj]
    · refine iff_of_true (.inr heq) fun h => heq ?_
      rw [h]

end built

/-! ## The check -/

section check

variable {f : Beacon} {s : Link} {r : Recorded} {b : Built} {body : List UInt8}

theorem endsWhen_checkHt (b : Built) (info : BcnInfo) :
    EndsWhen (HtElemFits 45 (chain b.ies b.ieLength) ∧ HtElemFits 61 (chain b.ies b.ieLength))
      (fun ht => ht.1.encrypProtocol = info.encrypProtocol ∧ ht.1.toCiphers = info.toCiphers ∧
        PhtAt b.ies (chain b.ies b.ieLength) ht.2)
      (checkHt b info) := by
  rw [checkHt]
  refine (endsWhen_htCapInfo b.ies b.ieLength).bind fun cap _ =>
    (endsWhen_phtInfo b.ies b.ieLength).bind fun pht hpht =>
      (endsWhen_htInfoInfos0 hpht).bind_ok fun infos0 _ => .ok ⟨?_, ?_, hpht⟩
  · dsimp only
    split_ifs
    · rfl
    · rfl
  · dsimp only
    split_ifs
    · rfl
    · rfl

/-- The check, on a record with the body of a beacon. -/
theorem endsWhen_checkBuilt (hs : s.Has r) (hmax : body.length ≤ 768)
    (hlen : b.len = body.length) (hssid : b.ssidLength = 0)
    (hfields : b.fields.bytes = fieldsOf body) :
    EndsWhen (r.CheckFits s.curChannel body)
      (fun res => (res.1 = true ↔ r.Same s.curChannel body) ∧
        res.2.encrypProtocol = s.bcnInfo.encrypProtocol ∧ res.2.toCiphers = s.bcnInfo.toCiphers)
      (checkBuilt s b) := by
  have hies : b.ies = body := by
    rw [Built.ies, hfields, hlen]
    exact iesIn_eq List.length_replicate
  have hielen : b.ieLength = body.length := by
    rw [Built.ieLength, hfields]
    exact ieLengthIn_eq List.length_replicate (by omega)
  rw [checkBuilt]
  have hht := endsWhen_checkHt b s.bcnInfo
  have hcopy := endsWhen_copySsid b
  rw [hies, hielen] at hht hcopy
  refine hht.bind_of_imp (fun h => ⟨h.1, h.2.1⟩) fun ht hfit hres => ?_
  obtain ⟨hproto, hciphers, hpht⟩ := hres
  rw [Recorded.CheckFits, Recorded.Same]
  have hchannel : EndsWhen (ChannelFits (bodyChain body))
      (· = seenChannel (bodyChain body) s.curChannel) (bcnChannel b ht.2 s.curChannel) := by
    have hat : PhtAt b.ies (chain b.ies b.ieLength) ht.2 := by
      rw [hies, hielen]
      exact hpht
    have hfit61 : HtElemFits 61 (chain b.ies b.ieLength) := by
      rw [hies, hielen]
      exact hfit.2
    have hall := @endsWhen_bcnChannel b s.curChannel ht.2 hat hfit61
    rw [hies, hielen] at hall
    exact hall
  refine (hchannel.bind fun channel hc => ?_).iff
    ((and_iff_right hfit.1).trans (and_iff_right hfit.2)).symm
  rw [hc]
  by_cases hsame : seenChannel (bodyChain body) s.curChannel = s.curChannel
  · rw [if_neg (not_not.mpr hsame), forall_prop_of_true hsame, and_iff_right hsame]
    refine hcopy.bind fun b' hb' => ?_
    obtain ⟨hlen', hfields', hssid'⟩ := hb'
    rw [hfields] at hfields'
    have hmis : SsidMismatch s.network b' ↔ r.SsidDiffers (seenSsid (bodyChain body)) :=
      ssidMismatch_iff hs hfields' (hssid' hssid)
    by_cases hdiff : r.SsidDiffers (seenSsid (bodyChain body))
    · rw [if_pos (hmis.mpr hdiff)]
      refine .ok_of (fun h => absurd hdiff h) ⟨iff_of_false Bool.false_ne_true fun h => ?_, ?_⟩
      · exact h.1 hdiff
      · exact ⟨hproto, hciphers⟩
    · have hnew : Link.Has { s with bcnInfo := ht.1 } r :=
        ⟨hs.room, hs.ssid, hs.ssidLength, hs.privacy, hproto.trans hs.protocol,
          hciphers.trans hs.ciphers⟩
      have hsecurity := endsWhen_checkSecurity hnew b'
      have hies' : b'.ies = iesIn (fieldsWithSsid body) body.length := by
        rw [Built.ies, hfields', hlen', hlen]
        rfl
      have hielen' : b'.ieLength = ieLengthIn (fieldsWithSsid body) := by
        rw [Built.ieLength, hfields']
        rfl
      rw [hies', hielen'] at hsecurity
      rw [if_neg (mt hmis.mp hdiff), forall_prop_of_true hdiff, and_iff_right hdiff]
      exact hsecurity.bind_ok fun ok hok => .ok ⟨hok, hproto, hciphers⟩
  · rw [if_pos hsame]
    refine .ok_of (fun h => absurd h hsame) ⟨iff_of_false Bool.false_ne_true fun h => hsame h.1, ?_⟩
    exact ⟨hproto, hciphers⟩

end check

/-! ## Elements in front of another SSID -/

/-- Headers that the check does not tell apart, unless they are those of SSID elements. -/
structure Alike (h h' : List UInt8) : Prop where
  head : h.head? = h'.head?
  len : ¬ hasId 0 h = true → lenOf h = lenOf h'
  byte : ¬ hasId 0 h = true → h.getD 2 0 = h'.getD 2 0
  oui : isWpa h = isWpa h'
  version : isWpa1 h = isWpa1 h'
  parseWpa : isWpa1 h = true → ∀ o, parseIn wpa h (lenOf h + 2) o = parseIn wpa h' (lenOf h' + 2) o
  parseRsn : hasId 0x30 h = true →
    ∀ o, parseIn rsn h (lenOf h + 2) o = parseIn rsn h' (lenOf h' + 2) o

section alike

variable {h h' p r r' : List UInt8} {l l' : UInt8}

theorem Alike.refl (h : List UInt8) : Alike h h :=
  ⟨rfl, fun _ => rfl, fun _ => rfl, rfl, rfl, fun _ _ => rfl, fun _ _ => rfl⟩

theorem Alike.hasId (ha : Alike h h') (id : UInt8) : hasId id h = hasId id h' := by
  rw [HeaderScan.hasId, HeaderScan.hasId, ha.head]

/-- The OUI does not go on in the header of an SSID element. -/
theorem take_oui (hl : l ≠ 0x50) : (p ++ 0 :: l :: r).take 4 = wpaOui ↔ p.take 4 = wpaOui := by
  by_cases hlong : 4 ≤ p.length
  · rw [List.take_append_of_le_length hlong]
  · have hshort : p.take 4 ≠ wpaOui := fun h => by
      have hlen : min 4 p.length = 4 := by rw [← List.length_take, h]; rfl
      omega
    refine iff_of_false (fun h => ?_) hshort
    rcases p with _ | ⟨a, _ | ⟨b, _ | ⟨c, _ | ⟨d, p⟩⟩⟩⟩
    · exact hl (List.cons.inj (List.cons.inj h).2).1
    · exact absurd (List.cons.inj (List.cons.inj h).2).1 (by decide)
    · exact absurd (List.cons.inj (List.cons.inj (List.cons.inj h).2).2).1 (by decide)
    · exact absurd (List.cons.inj (List.cons.inj (List.cons.inj (List.cons.inj h).2).2).2).1
        (by decide)
    · exact hlong (Nat.le_add_left 4 _)

/-- The version may end in it. -/
theorem version_iff (hlong : 4 ≤ p.length) :
    ((p ++ 0 :: l :: r).getD 4 0).toNat + 256 * ((p ++ 0 :: l :: r).getD 5 0).toNat = 1 ↔
      (p.getD 4 0).toNat + 256 * (p.getD 5 0).toNat = 1 := by
  rcases p with _ | ⟨a, _ | ⟨b, _ | ⟨c, _ | ⟨d, _ | ⟨e, _ | ⟨f, p⟩⟩⟩⟩⟩⟩
  · simp at hlong
  · simp at hlong
  · simp at hlong
  · simp at hlong
  · -- Both bytes are the header's.
    have hleft : (([a, b, c, d] ++ 0 :: l :: r).getD 4 0).toNat +
        256 * (([a, b, c, d] ++ 0 :: l :: r).getD 5 0).toNat = 0 + 256 * l.toNat := rfl
    have hright : ([a, b, c, d].getD 4 0).toNat + 256 * ([a, b, c, d].getD 5 0).toNat = 0 := rfl
    rw [hleft, hright]
    omega
  · exact Iff.rfl
  · exact Iff.rfl

variable {x : Elem} {es : List Elem}

theorem isWpa_encode (hl : l ≠ 0x50) :
    isWpa (x.encode ++ (encodeAll es ++ 0 :: l :: r)) = true ↔
      x.id = 0xdd ∧ (x.data ++ encodeAll es).take 4 = wpaOui := by
  have hdrop : (x.encode ++ (encodeAll es ++ 0 :: l :: r)).drop 2 =
      x.data ++ encodeAll es ++ 0 :: l :: r := by
    rw [List.append_assoc]
    rfl
  rw [isWpa_iff, hasId_encode, hdrop, take_oui hl]

theorem isWpa1_encode (hl : l ≠ 0x50) :
    isWpa1 (x.encode ++ (encodeAll es ++ 0 :: l :: r)) = true ↔
      (x.id = 0xdd ∧ (x.data ++ encodeAll es).take 4 = wpaOui) ∧
        ((x.data ++ encodeAll es).getD 4 0).toNat +
          256 * ((x.data ++ encodeAll es).getD 5 0).toNat = 1 := by
  have hbyte : ∀ k, (x.encode ++ (encodeAll es ++ 0 :: l :: r)).getD (k + 2) 0 =
      (x.data ++ encodeAll es ++ 0 :: l :: r).getD k 0 := fun k => by
    rw [List.append_assoc]
    rfl
  rw [isWpa1_iff, isWpa_encode hl, hbyte 4, hbyte 5]
  refine and_congr_right fun h => version_iff ?_
  have hlen : min 4 (x.data ++ encodeAll es).length = 4 := by
    rw [← List.length_take, h.2]
    rfl
  omega

/-- The same element in front of two SSID elements. -/
theorem alike_encode (hl : l ≠ 0x50) (hl' : l' ≠ 0x50) :
    Alike (x.encode ++ (encodeAll es ++ 0 :: l :: r))
      (x.encode ++ (encodeAll es ++ 0 :: l' :: r')) := by
  have hlen : ∀ u, lenOf (x.encode ++ u) = x.data.length := lenOf_encode x
  refine ⟨rfl, fun _ => ?_, fun _ => ?_, ?_, ?_, fun hw o => ?_, fun hr o => ?_⟩
  · rw [hlen, hlen]
  · have hbyte : ∀ u : List UInt8, (x.encode ++ (encodeAll es ++ 0 :: u)).getD 2 0 =
        (x.data ++ encodeAll es ++ [0]).getD 0 0 := fun u => by
      have hget : (x.encode ++ (encodeAll es ++ 0 :: u)).getD 2 0 =
          (x.data ++ encodeAll es ++ 0 :: u).getD 0 0 := by
        rw [List.append_assoc]
        rfl
      rw [hget]
      cases x.data ++ encodeAll es with
      | nil => rfl
      | cons b d => rfl
    rw [hbyte, hbyte]
  · rw [Bool.eq_iff_iff, isWpa_encode hl, isWpa_encode hl']
  · rw [Bool.eq_iff_iff, isWpa1_encode hl, isWpa1_encode hl']
  · have hw' : isWpa1 (x.encode ++ (encodeAll es ++ 0 :: l' :: r')) = true :=
      (isWpa1_encode hl').mpr ((isWpa1_encode hl).mp hw)
    obtain ⟨hid, houi⟩ := isWpa_iff.mp (isWpa1_iff.mp hw).1
    obtain ⟨-, houi'⟩ := isWpa_iff.mp (isWpa1_iff.mp hw').1
    have hwpa : x.id = wpa.id := (hasId_encode x _).mp hid
    rw [hlen, hlen, parseIn_whole _ o hwpa houi, parseIn_whole _ o hwpa houi']
  · have hrsn : x.id = rsn.id := (hasId_encode x _).mp hr
    rw [hlen, hlen, parseIn_whole _ o hrsn rfl, parseIn_whole _ o hrsn rfl]

/-- Two SSID elements in front of the same bytes. -/
theorem alike_ssid (e e' : Elem) (he : e.id = 0) (he' : e'.id = 0) (w : List UInt8) :
    Alike (e.encode ++ w) (e'.encode ++ w) := by
  have hid : ∀ x : Elem, x.id = 0 → ∀ id, id ≠ 0 → hasId id (x.encode ++ w) = false :=
    fun x hx id h0 => eq_false_of_ne_true fun h => h0 (by
      rw [← (hasId_encode x w).mp h, hx])
  have hssid : ∀ x : Elem, x.id = 0 → hasId 0 (x.encode ++ w) = true :=
    fun x hx => (hasId_encode x w).mpr hx
  have hdd := hid e he 0xdd (by decide)
  have hdd' := hid e' he' 0xdd (by decide)
  refine ⟨?_, fun h => absurd (hssid e he) h, fun h => absurd (hssid e he) h, ?_, ?_, ?_, ?_⟩
  · show some e.id = some e'.id
    rw [he, he']
  · rw [isWpa_of_id hdd, isWpa_of_id hdd']
  · rw [isWpa1_of_id hdd, isWpa1_of_id hdd']
  · intro h
    rw [isWpa1_of_id hdd] at h
    cases h
  · intro h
    rw [hid e he 0x30 (by decide)] at h
    cases h

/-- The headers of a body whose SSID element is another one. -/
theorem forall₂_alike {e e' : Elem} {es₁ es₂ : List Elem} {t : List UInt8} (he : e.id = 0)
    (he' : e'.id = 0) (hlen : e.data.length ≤ 32) (hlen' : e'.data.length ≤ 32) :
    List.Forall₂ Alike
      (headers (encodeAll (es₁ ++ e :: es₂) ++ t).length (encodeAll (es₁ ++ e :: es₂) ++ t))
      (headers (encodeAll (es₁ ++ e' :: es₂) ++ t).length
        (encodeAll (es₁ ++ e' :: es₂) ++ t)) := by
  have hsplit : ∀ y : Elem, encodeAll (es₁ ++ y :: es₂) ++ t =
      encodeAll es₁ ++ (y.encode ++ (encodeAll es₂ ++ t)) := fun y => by
    rw [encodeAll_append, encodeAll_cons, List.append_assoc, List.append_assoc]
  have hbyte : ∀ y : Elem, y.data.length ≤ 32 → UInt8.ofNat y.data.length ≠ 0x50 := by
    intro y hy h
    have hnat := congrArg UInt8.toNat h
    rw [y.toNat_length] at hnat
    have h50 : (0x50 : UInt8).toNat = 80 := rfl
    omega
  have hcons : ∀ y : Elem, y.id = 0 → y.encode ++ (encodeAll es₂ ++ t) =
      0 :: UInt8.ofNat y.data.length :: (y.data ++ (encodeAll es₂ ++ t)) := fun y hy => by
    rw [Elem.encode, hy]
    rfl
  rw [hsplit, hsplit]
  refine forall₂_headers es₁ (fun _ x es _ => ?_) ?_
  · rw [hcons e he, hcons e' he']
    exact alike_encode (hbyte e hlen) (hbyte e' hlen')
  · rw [headers_encode, headers_encode]
    exact .cons (alike_ssid e e' he he' _) (List.forall₂_same.mpr fun h _ => .refl h)

end alike

/-! ## What is seen of alike headers -/

section alikeSeen

variable {hs hs' : List (List UInt8)} {curChannel : UInt8} {privacy : Bool}

theorem not_hasId_zero {h : List UInt8} {id : UInt8} (hid : hasId id h = true) (h0 : id ≠ 0) :
    ¬ hasId 0 h = true := fun hz => h0 (Option.some.inj
      ((hasId_iff.mp hid).symm.trans (hasId_iff.mp hz)))

/-- The first header with an id in either list. -/
theorem found_alike (ha : List.Forall₂ Alike hs hs') (id : UInt8) :
    hs.find? (hasId id) = none ∧ hs'.find? (hasId id) = none ∨
      ∃ h h', hs.find? (hasId id) = some h ∧ hs'.find? (hasId id) = some h' ∧ Alike h h' :=
  find?_forall₂ ha fun _ _ hab => hab.hasId id

theorem seenChannel_alike (ha : List.Forall₂ Alike hs hs') :
    seenChannel hs curChannel = seenChannel hs' curChannel := by
  rw [seenChannel, seenChannel]
  rcases found_alike ha 3 with ⟨hn, hn'⟩ | ⟨h, h', hf, hf', hab⟩
  · rw [hn, hn']
    rcases found_alike ha 61 with ⟨hm, hm'⟩ | ⟨h, h', hf, hf', hab⟩
    · rw [hm, hm']
    · have h0 := not_hasId_zero (List.find?_some hf) (by decide)
      rw [hf, hf']
      dsimp only
      rw [hab.len h0, hab.byte h0]
  · rw [hf, hf']
    exact hab.byte (not_hasId_zero (List.find?_some hf) (by decide))

theorem seenProtocol_alike (ha : List.Forall₂ Alike hs hs') :
    seenProtocol hs privacy = seenProtocol hs' privacy := by
  have hrsn := exists_forall₂ ha fun _ _ hab => hab.hasId 0x30
  have hwpa := exists_forall₂ ha fun _ _ hab => hab.oui
  rw [seenProtocol, seenProtocol]
  simp only [hrsn, hwpa]

/-- A search for an element that is not empty, and what its parser makes of it. -/
theorem filled_alike {fmt : Format} {p : List UInt8 → Bool} (ha : List.Forall₂ Alike hs hs')
    (hp : ∀ a b, Alike a b → p a = p b) (h0 : ∀ a, p a = true → ¬ hasId 0 a = true)
    (hparse : ∀ a b, Alike a b → p a = true →
      parseIn fmt a (lenOf a + 2) (start true) = parseIn fmt b (lenOf b + 2) (start true)) :
    filled fmt (hs.find? p) = none ∧ filled fmt (hs'.find? p) = none ∨
      ∃ a b, filled fmt (hs.find? p) = some (fmt, a) ∧ filled fmt (hs'.find? p) = some (fmt, b) ∧
        parseIn fmt a (lenOf a + 2) (start true) = parseIn fmt b (lenOf b + 2) (start true) := by
  rcases find?_forall₂ ha hp with ⟨hn, hn'⟩ | ⟨a, b, hf, hf', hab⟩
  · rw [hn, hn']
    exact .inl ⟨rfl, rfl⟩
  · have hhit := List.find?_some hf
    have hlen := hab.len (h0 a hhit)
    rw [hf, hf']
    by_cases hpos : 0 < lenOf a
    · have hpos' : 0 < lenOf b := hlen ▸ hpos
      exact .inr ⟨a, b, filled_some hpos, filled_some hpos', hparse a b hab hhit⟩
    · have hpos' : ¬ 0 < lenOf b := hlen ▸ hpos
      exact .inl ⟨filled_empty hpos, filled_empty hpos'⟩

theorem outcome_alike (ha : List.Forall₂ Alike hs hs') : outcome hs = outcome hs' := by
  have hwpa := filled_alike ha (fun _ _ hab => hab.version)
    (fun a h => not_hasId_zero (isWpa_iff.mp (isWpa1_iff.mp h).1).1 (by decide))
    fun a b hab h => hab.parseWpa h (start true)
  have hrsn := filled_alike ha (fun _ _ hab => hab.hasId 0x30)
    (fun a h => not_hasId_zero h (by decide)) fun a b hab h => hab.parseRsn h (start true)
  rw [outcome, outcome, consulted, consulted]
  rcases hwpa with ⟨hn, hn'⟩ | ⟨a, b, hf, hf', heq⟩
  · rw [hn, hn', Option.none_or, Option.none_or]
    rcases hrsn with ⟨hm, hm'⟩ | ⟨a, b, hf, hf', heq⟩
    · rw [hm, hm']
    · rw [hf, hf', Option.bind_some, Option.bind_some, heq]
  · rw [hf, hf', Option.some_or, Option.some_or, Option.bind_some, Option.bind_some, heq]

end alikeSeen

/-! ## The network that was joined -/

/-- What is recorded of it. -/
def Joined.recorded (j : Joined) : Recorded where
  ssid := (announcement j.body).ssid
  privacy := announcedPrivacy j.body
  protocol := protocolIn j.body j.body.length
  ciphers := recordedCiphers (bodyChain j.body) j.old.toCiphers

/-- `cur_network.network` after the recorder. -/
def Joined.network (j : Joined) : WlanBssidEx :=
  if announcedPrivacy j.body then { j.record with privacy := 1 } else j.record

/-- What is seen of its own beacon is what is recorded: the channel is the one in use, and the
    element with the ciphers is parsed to its end, or `BcnInfo` held what the parser leaves. -/
def Joined.Steady (j : Joined) : Prop :=
  seenChannel (bodyChain j.body) j.curChannel = j.curChannel ∧
    ((protocolIn j.body j.body.length).Secured →
      Parses (bodyChain j.body) ∨ j.old.toCiphers = seenCiphers (bodyChain j.body))

/-- A difference that is seen: in the byte behind the header of the channel element, in an SSID
    whose first byte is not 0, in the privacy bit, in the protocol by the ids of the headers, or in
    the ciphers of the element that is consulted. The last three are read from `IEs` as they are
    with the SSID of the beacon over the record. -/
def Joined.Visible (j : Joined) (body : List UInt8) : Prop :=
  seenChannel (bodyChain body) j.curChannel ≠ j.curChannel ∨
    j.recorded.SsidDiffers (seenSsid (bodyChain body)) ∨
    j.recorded.SecurityDiffers (iesIn (fieldsWithSsid body) body.length)
      (ieLengthIn (fieldsWithSsid body))

/-- A later beacon with the BSSID, whose body has room in a record: there is memory, what is read
    is there, and what has to be accepted or not is. -/
def Joined.Cond (j : Joined) (f : Beacon) : Prop :=
  j.Sends f → f.body.length ≤ maxIeSz →
    f.allocated = true ∧ j.recorded.CheckFits j.curChannel f.body ∧
      (j.Repeats f → j.Steady) ∧ (j.Changes f → j.Visible f.body)

section joined

variable {body body' : List UInt8} {es : List Elem} {t : List UInt8} {index : UInt8}

theorem bodyChain_eq (hmax : body.length ≤ 768) :
    bodyChain body = headers (body.drop 12).length (body.drop 12) := by
  have hlimit : ieLimit body.length = (body.drop 12).length := by
    rw [ieLimit, if_pos (by omega), List.length_drop]
  rw [bodyChain, chain, hlimit]

theorem secChain_eq (hmax : body.length ≤ 768) : secChain body body.length = bodyChain body := by
  rw [bodyChain_eq hmax, secChain, List.length_drop]

/-- The SSID that is seen is that of the first whole element with the id. -/
theorem seenSsid_eq {es₁ es₂ : List Elem} {e : Elem} (hmax : body.length ≤ 768)
    (hbody : body.drop 12 = encodeAll (es₁ ++ e :: es₂) ++ t) (hno : ∀ x ∈ es₁, x.id ≠ 0)
    (he : e.id = 0) : seenSsid (bodyChain body) = e.data := by
  rw [seenSsid, bodyChain_eq hmax, hbody, find?_headers es₁ es₂ hno he]
  show ((e.encode ++ (encodeAll es₂ ++ t)).drop 2).take (lenOf _) = e.data
  rw [lenOf_encode]
  exact List.take_left

theorem elementsOf_eq (hbody : body.drop 12 = encodeAll es ++ t) (ht : Stump t) :
    elementsOf body = es := by
  rw [elementsOf, hbody, parse_append es ht]

theorem Joined.size (j : Joined) : 12 ≤ j.body.length ∧ j.body.length ≤ 768 := by
  have hsize := BssInfo.collectBssInfo_sized j.collected
  rw [(BssInfo.collectBssInfo_body j.collected).1] at hsize
  exact hsize

/-- The SSID of the record. -/
theorem Joined.ssid (j : Joined) : ∃ es₁ e es₂ t,
    j.body.drop 12 = encodeAll (es₁ ++ e :: es₂) ++ t ∧ Stump t ∧ (∀ x ∈ es₁, x.id ≠ 0) ∧
      e.id = 0 ∧ e.data.length ≤ 32 ∧ (announcement j.body).ssid = e.data ∧
      j.record.ssid.bytes = e.data ++ List.replicate (32 - e.data.length) 0 ∧
      j.record.ssidLength = e.data.length := by
  obtain ⟨es, t, e, hf, ht, hfind, hroom, hbytes, hlen⟩ :=
    BssInfo.collectBssInfo_ssid j.collected
  have hbody : j.body.drop 12 = encodeAll es ++ t := by
    rw [Joined.body, List.drop_drop]
    exact hf
  have hssid : (announcement j.body).ssid = e.data := by
    show dataOf 0 (elementsOf j.body) = e.data
    rw [elementsOf_eq hbody ht, BssInfo.dataOf_some hfind]
  obtain ⟨es₁, es₂, rfl, hid, hno⟩ := find?_split hfind
  exact ⟨es₁, e, es₂, t, hbody, ht, fun x hx => of_decide_eq_false (hno x hx),
    of_decide_eq_true hid, hroom, hssid, hbytes, hlen⟩

theorem Joined.privacy (j : Joined) :
    j.record.privacy = (announcedPrivacy j.body).toNat := by
  obtain ⟨cap, hcap, hpriv⟩ := BssInfo.collectBssInfo_privacy j.collected
  rw [(BssInfo.collectBssInfo_body j.collected).2] at hcap
  have hdrop : j.body.drop 0 = j.body := List.drop_zero
  have hread : readLe16 j.body (0 + 10) = .ok cap := hcap
  have hval := (endsWhen_readLe16 hdrop 10).of_ok hread
  rw [hpriv, hval, announcedPrivacy]
  cases ((j.body.getD 10 0).toNat + 256 * (j.body.getD 11 0).toNat).testBit 4 with
  | true => rfl
  | false => rfl

/-- The driver once the beacon is recorded. -/
theorem Joined.has (j : Joined) {info : BcnInfo}
    (hproto : info.encrypProtocol = j.recorded.protocol)
    (hciphers : info.toCiphers = j.recorded.ciphers) : (j.link j.network info).Has j.recorded := by
  obtain ⟨es₁, e, es₂, t, -, -, -, -, hroom, hssid, hbytes, hlen⟩ := j.ssid
  have hrec : j.recorded.ssid = e.data := hssid
  refine ⟨?_, ?_, ?_, ?_, hproto, hciphers⟩
  · rw [hrec]
    exact hroom
  · rw [hrec, ← hbytes]
    dsimp only [Joined.link, Joined.network]
    split_ifs
    · rfl
    · rfl
  · rw [hrec, ← hlen]
    dsimp only [Joined.link, Joined.network]
    split_ifs
    · rfl
    · rfl
  · have hpriv := j.privacy
    show (if announcedPrivacy j.body then { j.record with privacy := 1 } else j.record).privacy =
      (announcedPrivacy j.body).toNat
    cases hbit : announcedPrivacy j.body with
    | true => rfl
    | false =>
      rw [hbit] at hpriv
      exact hpriv

end joined

/-! ## Beacons that repeat or change it -/

section repeats

variable {j : Joined} {f : Beacon} {r : Recorded} {curChannel : UInt8} {body ies : List UInt8}
  {ieLength : ℕ}

theorem securitySame_iff : ¬ r.SecuritySame ies ieLength ↔ r.SecurityDiffers ies ieLength := by
  rw [Recorded.SecuritySame, Recorded.SecurityDiffers, Classical.not_and_iff_not_or_not,
    Classical.not_and_iff_not_or_not, Classical.not_imp]

theorem visible_iff : ¬ j.recorded.Same j.curChannel body ↔ j.Visible body := by
  rw [Recorded.Same, Joined.Visible, Classical.not_and_iff_not_or_not,
    Classical.not_and_iff_not_or_not, Classical.not_not, securitySame_iff]

/-- What a body has in common with that of the network. -/
structure Joined.Twin (j : Joined) (body : List UInt8) : Prop where
  size : body.length ≤ 768
  privacy : announcedPrivacy body = announcedPrivacy j.body
  alike : List.Forall₂ Alike (bodyChain j.body) (bodyChain body)
  room : (seenSsid (bodyChain body)).length ≤ 32
  ssid : ¬ j.recorded.SsidDiffers (seenSsid (bodyChain body))

theorem Joined.twin_self (j : Joined) : j.Twin j.body := by
  obtain ⟨es₁, e, es₂, t, hbody, -, hno, hid, hroom, hssid, -⟩ := j.ssid
  have hseen : seenSsid (bodyChain j.body) = e.data := seenSsid_eq j.size.2 hbody hno hid
  refine ⟨j.size.2, rfl, List.forall₂_same.mpr fun h _ => .refl h, ?_, fun h => h.1 ?_⟩
  · rw [hseen]
    exact hroom
  · rw [hseen]
    exact hssid.symm

theorem announcedPrivacy_append {fixed d : List UInt8} (hfixed : fixed.length = 12) :
    announcedPrivacy (fixed ++ d) = announcedPrivacy fixed := by
  rw [announcedPrivacy, announcedPrivacy, List.getD_append _ _ _ _ (by omega),
    List.getD_append _ _ _ _ (by omega)]

theorem Joined.twin_hides (h : Hides j.body body) : j.Twin body := by
  obtain ⟨fixed, es₁, e, e', es₂, t, hfixed, hno, hid, hid', hdata, ht, hbody, rfl⟩ := h
  have hdrop : ∀ d : List UInt8, (fixed ++ d).drop 12 = d := fun d => by
    rw [← hfixed, List.drop_left]
  have hj : j.body.drop 12 = encodeAll (es₁ ++ e :: es₂) ++ t := by rw [hbody, hdrop]
  -- The element of the record is the one that is replaced.
  have hroom : e.data.length ≤ 32 := by
    obtain ⟨_, e₀, _, _, hj₀, ht₀, hno₀, hid₀, hroom₀, -⟩ := j.ssid
    rw [← seenSsid_eq j.size.2 hj hno hid, seenSsid_eq j.size.2 hj₀ hno₀ hid₀]
    exact hroom₀
  have hle : e'.data.length ≤ e.data.length := by
    rcases hdata with hdata | hdata
    · rw [hdata]
      exact Nat.zero_le _
    · exact Nat.le_of_eq (by rw [hdata, List.length_replicate])
  have hsize : (fixed ++ (encodeAll (es₁ ++ e' :: es₂) ++ t)).length ≤ 768 := by
    have hmax := j.size.2
    rw [hbody] at hmax
    simp only [List.length_append, encodeAll_append, encodeAll_cons, Elem.encode_length] at hmax ⊢
    omega
  have hseen : seenSsid (bodyChain (fixed ++ (encodeAll (es₁ ++ e' :: es₂) ++ t))) = e'.data :=
    seenSsid_eq hsize (hdrop _) hno hid'
  refine ⟨hsize, ?_, ?_, ?_, fun hdiff => hdiff.2 ?_⟩
  · rw [hbody, announcedPrivacy_append hfixed, announcedPrivacy_append hfixed]
  · rw [bodyChain_eq j.size.2, bodyChain_eq hsize, hj, hdrop]
    exact forall₂_alike hid hid' hroom (Nat.le_trans hle hroom)
  · rw [hseen]
    exact Nat.le_trans hle hroom
  · rw [hseen]
    rcases hdata with hdata | hdata
    · rw [hdata]
      rfl
    · rw [hdata]
      cases e.data with
      | nil => rfl
      | cons b d => rfl

theorem Joined.Repeats.twin (h : j.Repeats f) : j.Twin f.body := by
  rcases h.2 with hsame | hhides
  · rw [hsame]
    exact j.twin_self
  · exact Joined.twin_hides hhides

theorem recordedCiphers_iff {hs : List (List UInt8)} {old : Ciphers} :
    seenCiphers hs = recordedCiphers hs old ↔ Parses hs ∨ old = seenCiphers hs := by
  rw [recordedCiphers, Parses, seenCiphers]
  cases outcome hs with
  | none =>
    refine ⟨fun h => .inr h.symm, fun h => (h.resolve_left ?_).symm⟩
    rintro ⟨o, ho, -⟩
    cases ho
  | some o =>
    dsimp only
    cases hret : o.ret with
    | true => exact iff_of_true rfl (.inl ⟨o, rfl, hret⟩)
    | false =>
      refine ⟨fun h => .inr h.symm, fun h => (h.resolve_left ?_).symm⟩
      rintro ⟨o', ho', hret'⟩
      rw [← Option.some.inj ho', hret] at hret'
      cases hret'

/-- Of a beacon that repeats the first one the check sees what the recorder has seen. -/
theorem same_iff_steady (ht : j.Twin body) : j.recorded.Same j.curChannel body ↔ j.Steady := by
  obtain ⟨hsize, hpriv, halike, hroom, hssid⟩ := ht
  obtain ⟨hies, hielen⟩ := ies_withSsid (Nat.le_trans hroom (by decide)) hsize
  have hproto : protocolIn body body.length = protocolIn j.body j.body.length := by
    rw [protocolIn, protocolIn, secChain_eq hsize, secChain_eq j.size.2, hpriv,
      seenProtocol_alike halike]
  have hciphers : seenCiphers (bodyChain body) = seenCiphers (bodyChain j.body) := by
    rw [seenCiphers, seenCiphers, outcome_alike halike]
  rw [Recorded.Same, Joined.Steady, seenChannel_alike halike, and_iff_right hssid]
  refine and_congr_right fun _ => ?_
  rw [fieldsWithSsid, hies, hielen, Recorded.SecuritySame, hproto,
    and_iff_right (show announcedPrivacy body = j.recorded.privacy from hpriv),
    and_iff_right (show protocolIn j.body j.body.length = j.recorded.protocol from rfl)]
  refine imp_congr_right fun _ => ?_
  show seenCiphers (bodyChain body) = recordedCiphers (bodyChain j.body) j.old.toCiphers ↔ _
  rw [hciphers, recordedCiphers_iff]

end repeats

/-! ## The run over later beacons -/

section runs

variable {j : Joined} {f : Beacon} {info : BcnInfo}

/-- `BcnInfo` as far as it is compared. -/
structure Joined.Inv (j : Joined) (info : BcnInfo) : Prop where
  protocol : info.encrypProtocol = j.recorded.protocol
  ciphers : info.toCiphers = j.recorded.ciphers

theorem Joined.network_mac (j : Joined) : j.network.macAddress = j.record.macAddress := by
  rw [Joined.network]
  split_ifs
  · rfl
  · rfl

/-- A beacon with the BSSID that has room in a record. -/
theorem endsWhen_check (hinv : j.Inv info) (hsend : j.Sends f) (hmax : f.body.length ≤ maxIeSz) :
    EndsWhen (f.allocated = true ∧ j.recorded.CheckFits j.curChannel f.body)
      (fun r => (r.1 = true ↔ j.recorded.Same j.curChannel f.body) ∧ j.Inv r.2)
      (rtwCheckBcnInfo (j.link j.network info) f) := by
  have hhas : (j.link j.network info).Has j.recorded := j.has hinv.protocol hinv.ciphers
  obtain ⟨hlen, hmac⟩ := hsend
  have hbody : f.body.length = f.data.length - hdrLen := List.length_drop
  have hlt := f.length_lt
  have hbodyLen : bodyLen f.data.length = f.body.length := by
    rw [hbody, bodyLen]
    rw [hdrLen] at hlen ⊢
    omega
  have hin : Inside f.data 16 6 := .inr (by rw [hdrLen] at hlen; omega)
  have hsame : bytesAt f.data 16 6 = (j.link j.network info).network.macAddress.bytes := by
    rw [hmac, Joined.link, j.network_mac]
  have hassoc : ¬ (j.link j.network info).associated = false := Bool.noConfusion
  rw [rtwCheckBcnInfo, if_neg hassoc, hbodyLen, if_neg (Nat.not_lt.mpr hmax),
    readBytes_of_inside hin, bind_ok, if_neg (not_not.mpr hsame)]
  refine (endsWhen_build hlen hmax).bind fun b hb => ?_
  obtain ⟨hblen, hssid, hfields⟩ := hb
  refine (endsWhen_checkBuilt hhas hmax hblen hssid hfields).weaken fun r hr => ⟨hr.1, ?_⟩
  exact ⟨hr.2.1.trans hinv.protocol, hr.2.2.trans hinv.ciphers⟩

/-- Any other beacon is not looked at: one that is too short or too long is a mismatch, one with
    another BSSID is accepted. -/
theorem check_other (hno : ¬ (j.Sends f ∧ f.body.length ≤ maxIeSz)) :
    ∃ ok, rtwCheckBcnInfo (j.link j.network info) f = .ok (ok, info) ∧
      (j.Sends f → ok = false) := by
  have hassoc : ¬ (j.link j.network info).associated = false := Bool.noConfusion
  have hbody : f.body.length = f.data.length - hdrLen := List.length_drop
  have hlt := f.length_lt
  rw [rtwCheckBcnInfo, if_neg hassoc]
  by_cases hlong : maxIeSz < bodyLen f.data.length
  · rw [if_pos hlong]
    exact ⟨false, rfl, fun _ => rfl⟩
  · have hsized : hdrLen ≤ f.data.length ∧ f.body.length ≤ maxIeSz := by
      rw [bodyLen, hdrLen, maxIeSz] at *
      omega
    have hin : Inside f.data 16 6 := .inr (by have := hsized.1; rw [hdrLen] at this; omega)
    have hmac : bytesAt f.data 16 6 ≠ j.record.macAddress.bytes := fun heq =>
      hno ⟨⟨hsized.1, heq⟩, hsized.2⟩
    have hne : bytesAt f.data 16 6 ≠ (j.link j.network info).network.macAddress.bytes := by
      rw [Joined.link, j.network_mac]
      exact hmac
    rw [if_neg hlong, readBytes_of_inside hin, bind_ok, if_pos hne]
    exact ⟨true, rfl, fun hsend => absurd hsend.2 hmac⟩

/-- One later beacon. -/
theorem right_iff_cond (hinv : j.Inv info) : j.Right j.network info f ↔ j.Cond f := by
  by_cases hlook : j.Sends f ∧ f.body.length ≤ maxIeSz
  · obtain ⟨hsend, hmax⟩ := hlook
    have hends := endsWhen_check hinv hsend hmax
    rw [Joined.Cond, forall_prop_of_true hsend, forall_prop_of_true hmax]
    have hgood : ∀ ok, (ok = true ↔ j.recorded.Same j.curChannel f.body) →
        ((j.Repeats f → ok = true) ∧ (j.Changes f → ok = false) ↔
          (j.Repeats f → j.Steady) ∧ (j.Changes f → j.Visible f.body)) := by
      intro ok hok
      refine and_congr (forall_congr' fun hrep => ?_) (forall_congr' fun _ => ?_)
      · rw [hok, same_iff_steady hrep.twin]
      · rw [← visible_iff, ← hok, Bool.not_eq_true]
    constructor
    · rintro ⟨r, hr, hright⟩
      obtain ⟨halloc, hfits⟩ := hends.only ⟨r, hr⟩
      exact ⟨halloc, hfits, (hgood r.1 (hends.of_ok hr).1).mp hright⟩
    · rintro ⟨halloc, hfits, hcond⟩
      obtain ⟨r, hr, hok, -⟩ := hends.ends ⟨halloc, hfits⟩
      exact ⟨r, hr, (hgood r.1 hok).mpr hcond⟩
  · obtain ⟨ok, hrun, hfalse⟩ := @check_other j f info hlook
    refine iff_of_true ⟨(ok, info), hrun, fun hrep => ?_, fun hch => hfalse hch.1⟩
      fun hsend hmax => absurd ⟨hsend, hmax⟩ hlook
    exact absurd ⟨hrep.1, hrep.twin.size⟩ hlook

theorem inv_next (hinv : j.Inv info) (hright : j.Right j.network info f) :
    j.Inv (j.next j.network info f) := by
  obtain ⟨r, hr, -⟩ := hright
  have hnext : j.next j.network info f = r.2 := congrArg (infoAfter info) hr
  rw [hnext]
  by_cases hlook : j.Sends f ∧ f.body.length ≤ maxIeSz
  · exact ((endsWhen_check hinv hlook.1 hlook.2).of_ok hr).2
  · obtain ⟨ok, hrun, -⟩ := @check_other j f info hlook
    rw [hr] at hrun
    rw [Except.ok.inj hrun]
    exact hinv

end runs

/-- The recorder reads only bytes of the beacon, and every later beacon is treated right, exactly
    when what the recorder reads is there and every later beacon meets the condition. -/
theorem check_agrees_iff (j : Joined) (frames : List Beacon) :
    j.Agree frames ↔ RecordFits j.body ∧ ∀ f ∈ frames, j.Cond f := by
  obtain ⟨hlen, hbody⟩ := BssInfo.collectBssInfo_body j.collected
  have hends := endsWhen_rtwGetBcnInfo j.old hbody hlen j.size.1
  have hiff : ∀ info f, j.Inv info → (j.Right j.network info f ↔ j.Cond f) :=
    fun _ _ hinv => right_iff_cond hinv
  have hstep : ∀ info f, j.Inv info → j.Right j.network info f →
      j.Inv (j.next j.network info f) := fun _ _ hinv hright => inv_next hinv hright
  have hrun : ∀ info, j.Inv info →
      (Guarded (j.next j.network) (j.Right j.network) info frames ↔ ∀ f ∈ frames, j.Cond f) := by
    intro info hinv
    have hcongr : Guarded (j.next j.network) (j.Right j.network) info frames ↔
        Guarded (j.next j.network) (fun _ f => j.Cond f) info frames :=
      guarded_congr hiff hstep hinv
    exact hcongr.trans guarded_forall_iff
  constructor
  · rintro ⟨r, hr, hguard⟩
    obtain ⟨hnet, hproto, hciphers⟩ := hends.of_ok hr
    rw [hnet] at hguard
    exact ⟨hends.only ⟨r, hr⟩, (hrun r.2 ⟨hproto, hciphers⟩).mp hguard⟩
  · rintro ⟨hfits, hcond⟩
    obtain ⟨r, hr, hnet, hproto, hciphers⟩ := hends.ends hfits
    refine ⟨r, hr, ?_⟩
    rw [hnet]
    exact (hrun r.2 ⟨hproto, hciphers⟩).mpr hcond

/-! ## An SSID that begins with a zero -/

/-- A beacon with an SSID of two bytes, of which the first is 0. -/
def zeroFirst (b : UInt8) : List UInt8 := 0x80 :: List.replicate 35 0 ++ [0, 2, 0, b]

theorem zeroFirst_lt (b : UInt8) : (zeroFirst b).length < 2 ^ 32 :=
  of_decide_eq_true (p := 40 < 2 ^ 32) rfl

theorem twoBytes_lt (b : UInt8) : [0, b].length < 256 := of_decide_eq_true (p := 2 < 256) rfl

theorem zeroFirst_elements (b : UInt8) :
    elementsOf ((zeroFirst b).drop hdrLen) = [⟨0, [0, b], twoBytes_lt b⟩] := by
  have hbody : ((zeroFirst b).drop hdrLen).drop 12 = encodeAll [⟨0, [0, b], twoBytes_lt b⟩] ++ [] :=
    rfl
  exact elementsOf_eq hbody trivial

theorem zeroFirst_ssid (b : UInt8) : (announcement ((zeroFirst b).drop hdrLen)).ssid = [0, b] :=
  congrArg (dataOf 0) (zeroFirst_elements b)

/-- A network with such an SSID, and a later beacon with another one. -/
def zeroFirstFrame : RecvFrame where
  rxData := zeroFirst 1
  recvSignalPower := -40
  signalQuality := 80
  signalStrength := 60
  length_lt := zeroFirst_lt 1

def zeroFirstJoined : Joined where
  frame := zeroFirstFrame
  operCh := 6
  record := ((collectBssInfo zeroFirstFrame 6).toOption.bind id).getD {}
  old := {}
  curChannel := 6
  collected := by decide +kernel
  announced c hc := by
    have hnone : (announcement (zeroFirstFrame.rxData.drop hdrLen)).channel = none :=
      congrArg announcedChannel (zeroFirst_elements 1)
    rw [hnone] at hc
    cases hc

def zeroFirstLater : Beacon where
  data := zeroFirst 2
  allocated := true
  length_lt := zeroFirst_lt 2

/-- It passes for hidden. -/
theorem zeroFirst_accepted : ¬ ∀ (j : Joined) (frames : List Beacon), j.Agree frames := by
  intro h
  obtain ⟨r, hr, ⟨r', hr', -, hchange⟩, -⟩ := h zeroFirstJoined [zeroFirstLater]
  have hrun : ((rtwGetBcnInfo zeroFirstJoined.record zeroFirstJoined.old >>= fun r =>
      rtwCheckBcnInfo (zeroFirstJoined.link r.1 r.2) zeroFirstLater).map Prod.fst) = .ok true := by
    decide +kernel
  rw [hr, bind_ok, hr'] at hrun
  have htrue : r'.1 = true := Except.ok.inj hrun
  have hsends : zeroFirstJoined.Sends zeroFirstLater := by
    refine ⟨?_, ?_⟩ <;> decide +kernel
  have hshown : Shown [0, 2] := ⟨2, List.mem_cons_of_mem _ List.mem_cons_self, by decide⟩
  have hnew : (announcement zeroFirstLater.body).ssid = [0, 2] := zeroFirst_ssid 2
  have hold : (announcement zeroFirstJoined.body).ssid = [0, 1] := zeroFirst_ssid 1
  have hfalse : r'.1 = false := hchange ⟨hsends, by decide, .inr (.inl (by
    rw [hnew, hold]
    exact ⟨hshown, by decide⟩))⟩
  rw [htrue] at hfalse
  cases hfalse

end Rtl8821au.Mlme.BeaconCheck
