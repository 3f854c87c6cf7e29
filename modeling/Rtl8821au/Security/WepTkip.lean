import Rtl8821au.Xmit.Attrib

/-!
# Software WEP and TKIP

`rtw_wep_encrypt`, `rtw_wep_decrypt`, `rtw_tkip_encrypt` and `rtw_tkip_decrypt`
(`rtw_security.c`, lines 168–288 and 647–847). Both ciphers encrypt payload and ICV of a
fragment with RC4; they differ in how the RC4 key of a frame is made.

* `rc4Fragment_eq`: what the sender writes over payload and ICV.
* `rc4Decrypt_data`, `rc4Decrypt_icv`: what the receiver makes of it.
* `wep_round_trip`, `tkip_round_trip`: the two fit together.
-/

namespace Rtl8821au.Security

open Buffer
open Recv (Bytes MacAddr RecvFrame Status Encryption isMulticast)
open Xmit (TxPktAttrib Coalesced rnd4)

/-! ## Sender -/

/-- One fragment: the ICV of the payload, then RC4 over both. -/
def rc4Fragment (rc4key : Bytes) (payload length : ℕ) (buf : Bytes) : Bytes :=
  let text := (buf.drop payload).take length
  let (mycontext, cipher) := arcfourEncrypt (arcfourInit rc4key) text
  let buf := overwrite buf payload cipher
  overwrite buf (payload + length) (arcfourEncrypt mycontext (crcBytes text)).2

/-- The loop of `rtw_wep_encrypt` and `rtw_tkip_encrypt` over the fragments from `pframe`
    on; `rc4key` makes the key of a fragment from its IV. `length` is not negative, for
    `rtw_xmitframe_coalesce` counts header, IV and ICV into each fragment. -/
def rc4EncryptLoop (a : TxPktAttrib) (fragLen lastTxcmdsz : ℕ) (rc4key : Bytes → Bytes) :
    ℕ → ℕ → Bytes → Bytes
  | 0, _, buf => buf
  | n + 1, pframe, buf =>
    let iv := buf.drop (pframe + a.hdrlen.toNat)
    let payload := pframe + a.ivLen + a.hdrlen.toNat
    let length := (if n = 0 then lastTxcmdsz else fragLen) - a.hdrlen.toNat - a.ivLen - a.icvLen
    rc4EncryptLoop a fragLen lastTxcmdsz rc4key n (rnd4 (pframe + fragLen : ℕ)).toNat
      (rc4Fragment (rc4key iv) payload length buf)

/-- `wepkey`: the first three bytes of the IV and the default key `idx`. -/
def wepKey (priv : RtlPriv) (idx : ℕ) (iv : Bytes) : Bytes :=
  iv.take 3 ++ (priv.dot11DefKey idx).toList.take (priv.dot11DefKeylen idx)

/-- `rtw_wep_encrypt` (lines 171–238) on the buffer from `pframe` on. -/
def rtwWepEncrypt (priv : RtlPriv) (a : TxPktAttrib) (fragLen : ℕ) (r : Coalesced) (pframe : ℕ)
    (buf : Bytes) : Bytes :=
  if a.encrypt = .wep40 ∨ a.encrypt = .wep104 then
    rc4EncryptLoop a fragLen r.lastTxcmdsz (wepKey priv priv.dot11PrivacyKeyIndex) r.nrFrags
      pframe buf
  else buf

/-- `prwskey` of `rtw_tkip_encrypt` (lines 696–705). -/
def tkipTxKey (priv : RtlPriv) (a : TxPktAttrib) : Block :=
  if isMulticast a.ra then priv.dot118021XGrpKey priv.dot118021XGrpKeyid else a.uncstKey

/-- `rtw_tkip_encrypt` (lines 647–760). -/
def rtwTkipEncrypt (priv : RtlPriv) (a : TxPktAttrib) (fragLen : ℕ) (r : Coalesced)
    (pframe : ℕ) (buf : Bytes) : Bytes :=
  if a.encrypt = .tkip then
    rc4EncryptLoop a fragLen r.lastTxcmdsz
      (fun iv => tkipRc4Key (tkipTxKey priv a) a.ta (getTkipPn iv)) r.nrFrags pframe buf
  else buf

/-! ## Receiver -/

/-- Offset and length of the encrypted part. -/
def payloadAt (f : RecvFrame) : ℕ := f.attrib.ivLen + f.attrib.hdrlen

def payloadLength (f : RecvFrame) : ℕ := f.len - f.attrib.hdrlen - f.attrib.ivLen

/-- RC4 over payload and ICV. A frame shorter than header and IV, for which `length` is
    negative, is outside the model. -/
def rc4Decrypt (rc4key : Bytes) (f : RecvFrame) : RecvFrame :=
  f.memcpy (f.rxData + payloadAt f)
    (arcfourEncrypt (arcfourInit rc4key) (f.bytesAt (payloadAt f) (payloadLength f))).2

/-- The last four bytes are the CRC of those before them. -/
def icvOk (f : RecvFrame) : Bool :=
  f.bytesAt (payloadAt f + payloadLength f - 4) 4 ==
    crcBytes (f.bytesAt (payloadAt f) (payloadLength f - 4))

/-- The IV of a received frame. -/
def rxIv (f : RecvFrame) : Bytes := f.bytesAt f.attrib.hdrlen 8

/-- `rtw_wep_decrypt` (lines 240–288). The branch for a wrong ICV is empty. -/
def rtwWepDecrypt (priv : RtlPriv) (f : RecvFrame) : RecvFrame :=
  if f.attrib.encrypt = .wep40 ∨ f.attrib.encrypt = .wep104 then
    rc4Decrypt (wepKey priv f.attrib.keyIndex (rxIv f)) f
  else f

/-- `prwskey` of `rtw_tkip_decrypt` and `rtw_aes_decrypt` (lines 790–810 and 1886–1911);
    `none` without a station or a group key. -/
def rxKey (priv : RtlPriv) (f : RecvFrame) : Option Block :=
  match priv.rtwGetStainfo f.attrib.ta with
  | none => none
  | some stainfo =>
    if isMulticast f.attrib.ra then
      if priv.binstallGrpkey then some (priv.dot118021XGrpKey f.attrib.keyIndex) else none
    else some (priv.sta stainfo).dot118021xUncstKey

/-- `rtw_tkip_decrypt` (lines 764–847). -/
def rtwTkipDecrypt (priv : RtlPriv) (f : RecvFrame) : Status × RecvFrame :=
  if f.attrib.encrypt = .tkip then
    match rxKey priv f with
    | none => (.fail, f)
    | some prwskey =>
      let f := rc4Decrypt (tkipRc4Key prwskey f.attrib.ta (getTkipPn (rxIv f))) f
      (if icvOk f then .success else .fail, f)
  else (.success, f)

/-! ## One fragment -/

section fragment

variable {key hdr iv p c : Bytes} {f : RecvFrame}

/-- Payload and ICV are encrypted in place. -/
theorem rc4Fragment_eq (key : Bytes) {pre p room : Bytes} (post : Bytes) (hroom : room.length = 4) :
    rc4Fragment key pre.length p.length (pre ++ p ++ room ++ post) =
      pre ++ (arcfourEncrypt (arcfourInit key) (p ++ crcBytes p)).2 ++ post := by
  have htext : ((pre ++ p ++ room ++ post).drop pre.length).take p.length = p := by
    rw [List.append_assoc, List.append_assoc, List.drop_left, List.take_left]
  simp only [rc4Fragment, htext]
  rw [List.append_assoc (pre ++ p), overwrite_append _ rfl (arcfourEncrypt_length _ _).symm,
    ← List.append_assoc, overwrite_append post (by simp) (by simp [hroom]),
    arcfourEncrypt_append, List.append_assoc pre]

theorem payloadLength_eq (hlen : f.LenOk) (hd : f.data = hdr ++ iv ++ c)
    (hh : hdr.length = f.attrib.hdrlen) (hi : iv.length = f.attrib.ivLen) :
    payloadAt f = (hdr ++ iv).length ∧ payloadLength f = c.length := by
  have hlen' : f.len = hdr.length + iv.length + c.length := by
    rw [← hlen.length, hd, List.length_append, List.length_append]
  rw [payloadAt, payloadLength, List.length_append]
  omega

/-- The receiver decrypts what follows the IV. -/
theorem rc4Decrypt_data (key : Bytes) (hlen : f.LenOk) (hd : f.data = hdr ++ iv ++ c)
    (hh : hdr.length = f.attrib.hdrlen) (hi : iv.length = f.attrib.ivLen) :
    (rc4Decrypt key f).data = hdr ++ iv ++ (arcfourEncrypt (arcfourInit key) c).2 := by
  obtain ⟨hat, hplen⟩ := payloadLength_eq hlen hd hh hi
  have hall : f.data.length = (hdr ++ iv).length + c.length := by
    rw [hd]
    exact List.length_append
  have hc : f.bytesAt (payloadAt f) (payloadLength f) = c := by
    rw [RecvFrame.bytesAt_eq (by omega), hat, hplen, hd, List.drop_left, List.take_length]
  rw [rc4Decrypt, hc, hat]
  exact Recv.memcpy_data hd (arcfourEncrypt_length _ _).symm

/-- The ICV check of a frame whose payload is known. -/
theorem icvOk_iff {icv : Bytes} (hlen : f.LenOk) (hd : f.data = hdr ++ iv ++ (p ++ icv))
    (hh : hdr.length = f.attrib.hdrlen) (hi : iv.length = f.attrib.ivLen)
    (hicv : icv.length = 4) : icvOk f = true ↔ icv = crcBytes p := by
  obtain ⟨hat, hplen⟩ := payloadLength_eq hlen hd hh hi
  have hall : f.data.length = (hdr ++ iv).length + (p.length + 4) := by
    rw [hd, ← hicv]
    simp only [List.length_append]
  rw [List.length_append, hicv] at hplen
  have hp : f.bytesAt (payloadAt f) (payloadLength f - 4) = p := by
    rw [RecvFrame.bytesAt_eq (by omega), hat, hplen, hd, List.drop_left, Nat.add_sub_cancel,
      List.take_left]
  have hi : f.bytesAt (payloadAt f + payloadLength f - 4) 4 = icv := by
    have hoff : payloadAt f + payloadLength f - 4 = (hdr ++ iv ++ p).length := by
      rw [List.length_append]
      omega
    have hle : (hdr ++ iv ++ p).length + 4 ≤ f.data.length := by
      rw [hall, List.length_append]
      omega
    rw [RecvFrame.bytesAt_eq (by rw [hoff]; exact hle), hoff, hd, ← List.append_assoc,
      List.drop_left, List.take_of_length_le (by omega)]
  rw [icvOk, hp, hi, beq_iff_eq]

end fragment

/-! ## Round trip -/

/-- A packet that `rtw_xmitframe_coalesce` left in one fragment of `buf` at `pframe`: header,
    IV, payload and room for the ICV. -/
structure OneFragment (a : TxPktAttrib) (r : Coalesced) (buf : Bytes) (pframe : ℕ)
    (hdr iv p : Bytes) : Prop where
  nrFrags : r.nrFrags = 1
  hdrlen : hdr.length = a.hdrlen.toNat
  ivLen : iv.length = a.ivLen
  icvLen : a.icvLen = 4
  lastTxcmdsz : r.lastTxcmdsz = hdr.length + iv.length + p.length + 4
  buf : ∃ pre room post, buf = pre ++ (hdr ++ iv ++ p ++ room) ++ post ∧ pre.length = pframe ∧
    room.length = 4

/-- `f` holds the MPDU that lies in `buf` at `pframe`, with the attributes that validation
    and `decryptor` parse from it. -/
structure Received (a : TxPktAttrib) (r : Coalesced) (buf : Bytes) (pframe : ℕ) (f : RecvFrame) :
    Prop where
  data : f.data = (buf.drop pframe).take r.lastTxcmdsz
  lenOk : f.LenOk
  encrypt : f.attrib.encrypt = a.encrypt
  hdrlen : f.attrib.hdrlen = a.hdrlen.toNat
  ivLen : f.attrib.ivLen = a.ivLen
  ta : f.attrib.ta = a.ta
  keyIndex : f.attrib.keyIndex = (f.byteAt (f.attrib.hdrlen + 3)).toNat / 64

section round_trip

variable {a : TxPktAttrib} {r : Coalesced} {buf hdr iv p : Bytes} {pframe : ℕ} {f : RecvFrame}

/-- What the sender leaves in the buffer. -/
theorem rc4EncryptLoop_eq (h : OneFragment a r buf pframe hdr iv p) (fragLen : ℕ)
    (rc4key : Bytes → Bytes) (hkey : ∀ post, rc4key (iv ++ post) = rc4key iv) :
    ((rc4EncryptLoop a fragLen r.lastTxcmdsz rc4key r.nrFrags pframe buf).drop pframe).take
        r.lastTxcmdsz =
      hdr ++ iv ++ (arcfourEncrypt (arcfourInit (rc4key iv)) (p ++ crcBytes p)).2 := by
  obtain ⟨pre, room, post, rfl, rfl, hroom⟩ := h.buf
  have hiv : (pre ++ (hdr ++ iv ++ p ++ room) ++ post).drop (pre.length + a.hdrlen.toNat) =
      iv ++ (p ++ room ++ post) := by
    rw [← h.hdrlen, ← List.length_append]
    simp only [List.append_assoc]
    rw [← List.append_assoc pre, List.drop_left]
  have hpayload : pre.length + a.ivLen + a.hdrlen.toNat = (pre ++ (hdr ++ iv)).length := by
    rw [List.length_append, List.length_append, h.hdrlen, h.ivLen]
    omega
  have hlength : r.lastTxcmdsz - a.hdrlen.toNat - a.ivLen - a.icvLen = p.length := by
    rw [h.lastTxcmdsz, h.icvLen, h.hdrlen, h.ivLen]
    omega
  have hbuf : pre ++ (hdr ++ iv ++ p ++ room) ++ post = pre ++ (hdr ++ iv) ++ p ++ room ++ post := by
    simp only [List.append_assoc]
  rw [h.nrFrags, rc4EncryptLoop, rc4EncryptLoop, if_pos rfl, hiv, hkey, hpayload, hlength, hbuf,
    rc4Fragment_eq _ post hroom, List.append_assoc, List.append_assoc, List.drop_left,
    ← List.append_assoc]
  refine List.take_left' ?_
  rw [h.lastTxcmdsz]
  simp only [List.length_append, arcfourEncrypt_length, crcBytes_length]
  omega

/-- The receiver restores what was sent when it derives the same RC4 key. -/
theorem rc4_round_trip (h : OneFragment a r buf pframe hdr iv p) (fragLen : ℕ)
    (rc4key : Bytes → Bytes) (hkey : ∀ post, rc4key (iv ++ post) = rc4key iv)
    (hf : Received a r (rc4EncryptLoop a fragLen r.lastTxcmdsz rc4key r.nrFrags pframe buf) pframe f) :
    (rc4Decrypt (rc4key iv) f).data = hdr ++ iv ++ (p ++ crcBytes p) ∧
      icvOk (rc4Decrypt (rc4key iv) f) = true := by
  have hd := hf.data.trans (rc4EncryptLoop_eq h fragLen rc4key hkey)
  have hh : hdr.length = f.attrib.hdrlen := h.hdrlen.trans hf.hdrlen.symm
  have hi : iv.length = f.attrib.ivLen := h.ivLen.trans hf.ivLen.symm
  have hdec := rc4Decrypt_data (rc4key iv) hf.lenOk hd hh hi
  rw [arcfourEncrypt_arcfourEncrypt] at hdec
  refine ⟨hdec, ?_⟩
  have hlen : (rc4Decrypt (rc4key iv) f).LenOk := hf.lenOk
  exact (icvOk_iff hlen hdec hh hi (crcBytes_length p)).mpr rfl

end round_trip

/-! ### The two ciphers -/

/-- Sender and receiver hold the same default key under the index that the sender puts into
    the IV. -/
structure WepLink (priv priv' : RtlPriv) (a : TxPktAttrib) : Prop where
  encrypt : a.encrypt = .wep40 ∨ a.encrypt = .wep104
  keyIdx : a.keyIdx = priv.dot11PrivacyKeyIndex
  keyIdx_lt : a.keyIdx < 4
  key : priv'.dot11DefKey a.keyIdx = priv.dot11DefKey a.keyIdx
  keylen : priv'.dot11DefKeylen a.keyIdx = priv.dot11DefKeylen a.keyIdx

/-- The receiver finds the temporal key of the sender, the pairwise or the group key. -/
structure TkipLink (priv priv' : RtlPriv) (a : TxPktAttrib) (f : RecvFrame) : Prop where
  encrypt : a.encrypt = .tkip
  key : rxKey priv' f = some (tkipTxKey priv a)

theorem wepKey_append (priv : RtlPriv) (idx : ℕ) {iv : Bytes} (h : 3 ≤ iv.length) (post : Bytes) :
    wepKey priv idx (iv ++ post) = wepKey priv idx iv := by
  rw [wepKey, wepKey, List.take_append_of_le_length h]

theorem getTkipPn_append {iv : Bytes} (h : 8 ≤ iv.length) (post : Bytes) :
    getTkipPn (iv ++ post) = getTkipPn iv := by
  have hget : ∀ k < 8, (iv ++ post).getD k 0 = iv.getD k 0 := by
    intro k hk
    exact getD_append_left (by omega)
  simp only [getTkipPn, hget _ (by decide : 2 < 8), hget _ (by decide : 0 < 8),
    hget _ (by decide : 4 < 8), hget _ (by decide : 5 < 8), hget _ (by decide : 6 < 8),
    hget _ (by decide : 7 < 8)]

/-- Bytes behind the header of a frame. -/
theorem bytesAt_behind {f : RecvFrame} {hdr x : Bytes} {n h : ℕ} (hd : f.data = hdr ++ x)
    (hh : hdr.length = h) (hn : n ≤ x.length) : f.bytesAt h n = x.take n := by
  subst hh
  rw [RecvFrame.bytesAt_eq (by rw [hd, List.length_append]; omega), hd, List.drop_left]

theorem bytesAt_getD {f : RecvFrame} {off n k : ℕ} (h : k < n) :
    (f.bytesAt off n).getD k 0 = f.byteAt (off + k) := by
  simp [RecvFrame.bytesAt, List.getD_eq_getElem?_getD, h]

section received

variable {a : TxPktAttrib} {r : Coalesced} {buf hdr iv p : Bytes} {pframe : ℕ} {f : RecvFrame}

/-- The first bytes behind the header of a received frame are the IV. -/
theorem Received.rxIv (h : OneFragment a r buf pframe hdr iv p) {fragLen : ℕ}
    {rc4key : Bytes → Bytes} (hkey : ∀ post, rc4key (iv ++ post) = rc4key iv)
    (hf : Received a r (rc4EncryptLoop a fragLen r.lastTxcmdsz rc4key r.nrFrags pframe buf) pframe f)
    (hiv : 4 ≤ iv.length) (hiv' : iv.length ≤ 8) : ∃ post, rxIv f = iv ++ post := by
  have hd := hf.data.trans (rc4EncryptLoop_eq h fragLen rc4key hkey)
  rw [List.append_assoc] at hd
  have hlen : 4 ≤ (arcfourEncrypt (arcfourInit (rc4key iv)) (p ++ crcBytes p)).2.length := by
    simp
  rw [Security.rxIv, bytesAt_behind hd (h.hdrlen.trans hf.hdrlen.symm)
    (by rw [List.length_append]; omega), List.take_append]
  exact ⟨_, by rw [List.take_of_length_le hiv']⟩

/-- The key index that `decryptor` reads is the one in the fourth byte of the IV. -/
theorem Received.keyIndex_eq {buf' post : Bytes} (hf : Received a r buf' pframe f)
    (hiv : Security.rxIv f = iv ++ post) (h4 : 4 ≤ iv.length) :
    f.attrib.keyIndex = (iv.getD 3 0).toNat / 64 := by
  rw [hf.keyIndex, ← bytesAt_getD (by decide : 3 < 8)]
  rw [Security.rxIv] at hiv
  rw [hiv, getD_append_left (by omega)]

end received

/-- Software decryption inverts software encryption. The RC4 key of a TKIP frame is the one
    of the packet number in the sender's station record, on both sides. -/
theorem wep_tkip_round_trip (priv priv' : RtlPriv) (a : TxPktAttrib) (r : Coalesced)
    (buf hdr p : Bytes) (pframe pn keyidx fragLen : ℕ) (f : RecvFrame) :
    (WepLink priv priv' a → OneFragment a r buf pframe hdr (wepIv pn a.keyIdx).1 p →
      Received a r (rtwWepEncrypt priv a fragLen r pframe buf) pframe f →
        (rtwWepDecrypt priv' f).data = hdr ++ (wepIv pn a.keyIdx).1 ++ (p ++ crcBytes p) ∧
          icvOk (rtwWepDecrypt priv' f) = true) ∧
    (TkipLink priv priv' a f → pn < 2 ^ 48 →
      OneFragment a r buf pframe hdr (tkipIv pn keyidx).1 p →
      Received a r (rtwTkipEncrypt priv a fragLen r pframe buf) pframe f →
        getTkipPn (tkipIv pn keyidx).1 = pn ∧
        f.data = hdr ++ (tkipIv pn keyidx).1 ++
          (arcfourEncrypt (arcfourInit (tkipRc4Key (tkipTxKey priv a) a.ta pn))
            (p ++ crcBytes p)).2 ∧
        (rtwTkipDecrypt priv' f).1 = .success ∧
        (rtwTkipDecrypt priv' f).2.data = hdr ++ (tkipIv pn keyidx).1 ++ (p ++ crcBytes p) ∧
        icvOk (rtwTkipDecrypt priv' f).2 = true) := by
  constructor
  · intro hl h hf
    rw [rtwWepEncrypt, if_pos hl.encrypt] at hf
    have h3 : 3 ≤ (wepIv pn a.keyIdx).1.length := Nat.le_succ 3
    have hkey := wepKey_append priv priv.dot11PrivacyKeyIndex h3
    obtain ⟨post, hiv⟩ := hf.rxIv h hkey (by decide : 4 ≤ 4) (by decide : 4 ≤ 8)
    have hidx : f.attrib.keyIndex = a.keyIdx := by
      have hlt := hl.keyIdx_lt
      rw [hf.keyIndex_eq hiv (by decide : 4 ≤ 4)]
      simp only [wepIv, List.getD_cons_succ, List.getD_cons_zero, UInt8.toNat_ofNat']
      omega
    have hdec : rtwWepDecrypt priv' f =
        rc4Decrypt (wepKey priv priv.dot11PrivacyKeyIndex (wepIv pn a.keyIdx).1) f := by
      rw [rtwWepDecrypt, if_pos (by rw [hf.encrypt]; exact hl.encrypt), hidx, hiv,
        wepKey_append _ _ h3, wepKey, hl.key, hl.keylen, hl.keyIdx, ← wepKey]
    rw [hdec]
    exact rc4_round_trip h fragLen _ hkey hf
  · intro hl hpn h hf
    rw [rtwTkipEncrypt, if_pos hl.encrypt] at hf
    have h8 : 8 ≤ (tkipIv pn keyidx).1.length := Nat.le_refl 8
    have hkey : ∀ post, (fun iv => tkipRc4Key (tkipTxKey priv a) a.ta (getTkipPn iv))
        ((tkipIv pn keyidx).1 ++ post) =
          (fun iv => tkipRc4Key (tkipTxKey priv a) a.ta (getTkipPn iv)) (tkipIv pn keyidx).1 := by
      intro post
      exact congrArg _ (getTkipPn_append h8 post)
    obtain ⟨post, hiv⟩ := hf.rxIv h hkey (Nat.le_trans (by decide) h8) h8
    have hread := getTkipPn_tkipIv hpn keyidx
    have hdata := hf.data.trans (rc4EncryptLoop_eq h fragLen _ hkey)
    have hdec : rtwTkipDecrypt priv' f =
        (if icvOk (rc4Decrypt (tkipRc4Key (tkipTxKey priv a) a.ta
          (getTkipPn (tkipIv pn keyidx).1)) f) then .success else .fail,
          rc4Decrypt (tkipRc4Key (tkipTxKey priv a) a.ta (getTkipPn (tkipIv pn keyidx).1)) f) := by
      rw [rtwTkipDecrypt, if_pos (by rw [hf.encrypt]; exact hl.encrypt), hl.key, hiv,
        getTkipPn_append h8, hf.ta]
    obtain ⟨hplain, hicv⟩ := rc4_round_trip h fragLen _ hkey hf
    simp only [hread] at hdec hdata hplain hicv
    rw [hdec, hicv]
    exact ⟨hread, hdata, rfl, hplain, rfl⟩

/-! ### A packet of three bytes under each cipher -/

/-- A packet without a QoS header between two stations with all keys zero. -/
def smallPacket (encrypt : Encryption) (ivLen : ℕ) : TxPktAttrib where
  etherType := 0x0800
  pktHdrlen := 14
  hdrlen := 24
  pktlen := 3
  encrypt := encrypt
  ivLen := ivLen
  icvLen := 4
  bswenc := true
  ra := Vector.replicate 6 0
  dst := Vector.replicate 6 0
  src := Vector.replicate 6 0
  ta := Vector.replicate 6 0

/-- The one fragment of `smallPacket`. -/
def smallFragment (ivLen : ℕ) : Coalesced :=
  { frags := [], nrFrags := 1, lastTxcmdsz := 24 + ivLen + 3 + 4 }

/-- Header, IV, payload and room for the ICV. -/
def smallBuffer (iv : Bytes) : Bytes := List.replicate 24 0 ++ iv ++ [1, 2, 3] ++ [0, 0, 0, 0]

/-- A received frame that fills its buffer. -/
def frameOf (encrypt : Encryption) (ivLen : ℕ) (mem : Bytes) : RecvFrame where
  addr := 0
  skb := some 0
  attrib := { hdrlen := 24, ivLen := ivLen, icvLen := 4, encrypt := encrypt
              keyIndex := (mem.getD 27 0).toNat / 64 }
  len := mem.length
  mem := mem
  rxData := 0
  rxTail := mem.length
  data_le_tail := Nat.zero_le _
  tail_le_end := Nat.le_refl _

theorem frameOf_data (encrypt : Encryption) (ivLen : ℕ) (mem : Bytes) :
    (frameOf encrypt ivLen mem).data = mem := List.take_length

theorem smallBuffer_oneFragment (encrypt : Encryption) {iv : Bytes} {ivLen : ℕ}
    (h : iv.length = ivLen) :
    OneFragment (smallPacket encrypt ivLen) (smallFragment ivLen) (smallBuffer iv) 0
      (List.replicate 24 0) iv [1, 2, 3] where
  nrFrags := rfl
  hdrlen := rfl
  ivLen := h
  icvLen := rfl
  lastTxcmdsz := by rw [h]; rfl
  buf := ⟨[], [0, 0, 0, 0], [], by rw [List.append_nil]; rfl, rfl, rfl⟩

theorem frameOf_received (encrypt : Encryption) (ivLen : ℕ) (buf : Bytes) :
    Received (smallPacket encrypt ivLen) (smallFragment ivLen) buf 0
      (frameOf encrypt ivLen (buf.take (24 + ivLen + 3 + 4))) where
  data := frameOf_data _ _ _
  lenOk := rfl
  encrypt := rfl
  hdrlen := rfl
  ivLen := rfl
  ta := rfl
  keyIndex := rfl

/-- An interface whose only station has the pairwise key zero. -/
def onePeer : RtlPriv := { lookup := fun _ => some 0 }

theorem wep_tkip_round_trip_small :
    icvOk (rtwWepDecrypt onePeer (frameOf .wep40 4 ((rtwWepEncrypt onePeer (smallPacket .wep40 4)
      2346 (smallFragment 4) 0 (smallBuffer (wepIv 7 0).1)).take 35))) = true ∧
    (rtwTkipDecrypt onePeer (frameOf .tkip 8 ((rtwTkipEncrypt onePeer (smallPacket .tkip 8)
      2346 (smallFragment 8) 0 (smallBuffer (tkipIv 7 0).1)).take 39))).1 = .success := by
  constructor
  · refine ((wep_tkip_round_trip onePeer onePeer (smallPacket .wep40 4) (smallFragment 4)
      (smallBuffer (wepIv 7 0).1) (List.replicate 24 0) [1, 2, 3] 0 7 0 2346 _).1 ?_ ?_ ?_).2
    · exact ⟨Or.inl rfl, rfl, by decide, rfl, rfl⟩
    · exact smallBuffer_oneFragment .wep40 rfl
    · exact frameOf_received .wep40 4 _
  · refine ((wep_tkip_round_trip onePeer onePeer (smallPacket .tkip 8) (smallFragment 8)
      (smallBuffer (tkipIv 7 0).1) (List.replicate 24 0) [1, 2, 3] 0 7 0 2346 _).2 ?_ (by decide)
      ?_ ?_).2.2.1
    · exact ⟨rfl, rfl⟩
    · exact smallBuffer_oneFragment .tkip rfl
    · exact frameOf_received .tkip 8 _

end Rtl8821au.Security
