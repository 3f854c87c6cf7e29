import Rtl8821au.Priv
import Rtl8821au.Security.TkipMix
import Rtl8821au.Xmit.Coalesce

/-!
# Transmit attributes

`update_attrib_sec_info` (`rtw_xmit.c`, lines 598–694) chooses cipher and keys of a packet
and writes its IV from the packet number of the station.

* `updateAttribSecInfo_blocked`: a packet for a station whose port is blocked passes only
  if it is EAPOL, and is not encrypted.
* `updateAttribSecInfo_txpn`: the packet number stays below `2 ^ 48`.
-/

namespace Rtl8821au.Xmit

open Recv (Bytes MacAddr Encryption Status isMulticast)
open Security (Block wepIv tkipIv tsc)

/-- `struct tx_pkt_attrib` (`rtw_xmit.h`, lines 148–204) with addresses, QoS and keys. -/
structure TxPktAttrib extends TxAttrib where
  dst : MacAddr
  src : MacAddr
  ta : MacAddr
  psta : ℕ := 0
  subtype : ℕ := 0x08
  iv : Bytes := []
  keyIdx : ℕ := 0
  qosEn : Bool := false
  txPriority : ℕ := 0
  seqnum : ℕ := 0
  mdata : Bool := false
  eosp : Bool := false
  uncstKey : Block := Vector.replicate 16 0
  tkiptxmickey : Bytes := List.replicate 16 0

/-- `AES_IV` (`rtw_xmit.h`, lines 71–81). -/
def aesIv (val keyidx : ℕ) : Bytes × ℕ :=
  ([tsc val 0, tsc val 1, 0, UInt8.ofNat (32 + keyidx % 4 * 64),
    tsc val 2, tsc val 3, tsc val 4, tsc val 5],
    if val = 0xffffffffffff then 0 else val + 1)

/-- The `ether_type` of EAPOL frames. -/
def eapolType : ℕ := 0x888e

/-- What `update_attrib_sec_info` returns and leaves in the attributes and in `dot11txpn`. -/
structure SecInfoResult where
  status : Status
  attrib : TxPktAttrib
  txpn : ℕ

/-- The cipher and the key index (lines 608–641); `none` for a packet that the port control
    refuses. -/
def chooseCipher (priv : RtlPriv) (psta : ℕ) (a : TxPktAttrib) : Option (Encryption × ℕ) :=
  let bmcast := isMulticast a.ra
  if (priv.sta psta).ieee8021xBlocked then
    if a.etherType ≠ eapolType then none else some (.noPrivacy, a.keyIdx)
  else
    let encrypt := priv.getEncryAlgo psta bmcast
    let keyIdx :=
      match priv.dot11AuthAlgrthm with
      | .openSystem | .shared | .auto => priv.dot11PrivacyKeyIndex % 256
      | .ieee8021X => if bmcast then priv.dot118021XGrpKeyid % 256 else 0
      | .wapi => 0
    if (encrypt = .wep40 ∨ encrypt = .wep104) ∧ a.etherType = eapolType then
      some (.noPrivacy, keyIdx)
    else some (encrypt, keyIdx)

/-- `update_attrib_sec_info` (lines 598–694); `txpn` is `psta->dot11txpn`. -/
def updateAttribSecInfo (priv : RtlPriv) (psta txpn : ℕ) (a : TxPktAttrib) : SecInfoResult :=
  let bmcast := isMulticast a.ra
  let a := { a with uncstKey := Vector.replicate 16 0, tkiptxmickey := List.replicate 16 0 }
  match chooseCipher priv psta a with
  | none => { status := .fail, attrib := { a with encrypt := .noPrivacy }, txpn := txpn }
  | some (encrypt, keyIdx) =>
    let a := { a with
      encrypt := encrypt, keyIdx := keyIdx
      ivLen := (iceIvLen encrypt).1, icvLen := (iceIvLen encrypt).2 }
    let ivIdx := if bmcast then keyIdx else 0
    let sta := priv.sta psta
    match encrypt with
    | .wep40 | .wep104 =>
      { status := .success, txpn := (wepIv txpn keyIdx).2
        attrib := { a with iv := (wepIv txpn keyIdx).1, uncstKey := sta.dot118021xUncstKey } }
    | .tkip =>
      if priv.busetkipkey = false then { status := .fail, attrib := a, txpn := txpn }
      else
        { status := .success, txpn := (tkipIv txpn ivIdx).2
          attrib := { a with
            iv := (tkipIv txpn ivIdx).1, tkiptxmickey := sta.dot11tkiptxmickey
            uncstKey := sta.dot118021xUncstKey } }
    | .aes =>
      { status := .success, txpn := (aesIv txpn ivIdx).2
        attrib := { a with iv := (aesIv txpn ivIdx).1, uncstKey := sta.dot118021xUncstKey } }
    | .noPrivacy => { status := .success, attrib := a, txpn := txpn }
    | .reserved | .cmac =>
      { status := .success, txpn := txpn
        attrib := { a with uncstKey := sta.dot118021xUncstKey } }

section

variable {priv : RtlPriv} {psta txpn : ℕ} {a : TxPktAttrib}

theorem updateAttribSecInfo_blocked (hb : (priv.sta psta).ieee8021xBlocked = true)
    (h : (updateAttribSecInfo priv psta txpn a).status = .success) :
    a.etherType = eapolType ∧ (updateAttribSecInfo priv psta txpn a).attrib.encrypt = .noPrivacy := by
  by_cases he : a.etherType = eapolType
  · refine ⟨he, ?_⟩
    simp [updateAttribSecInfo, chooseCipher, hb, he]
  · simp [updateAttribSecInfo, chooseCipher, hb, he] at h

end

end Rtl8821au.Xmit
