import Rtl8821au.Recv.Validate
import Rtl8821au.Security.Ccmp
import Rtl8821au.Security.WepTkip

/-!
# Software decryption of received frames

`rtw_aes_decrypt` (`rtw_security.c`) and `decryptor` (`rtw_recv.c`) on frames that
`validate_recv_data_frame` has accepted.

* `validateRecvDataFrame_validated`: what the ciphers rely on in an accepted frame.
* `wep_icvRight_iff`, `rtwTkipDecrypt_icvRight`, `rtwAesDecrypt_micRight`: what each
  cipher reports.
* `decryptor_verified`: when a frame leaves `decryptor` with a verified integrity value.
-/

namespace Rtl8821au.Recv

open Security AuthEnc Buffer

/-! ## Model of the C code -/

/-- What a decryption routine reports and leaves behind; `message` is the static
    buffer of `aes_decipher`. -/
structure DecryptResult where
  res : Status
  frame : RecvFrame
  message : Bytes

/-- `length` of `rtw_aes_decrypt`, passed as `uint`. -/
def aesPlen (f : RecvFrame) : ℕ := (f.len + 2 ^ 32 - f.attrib.hdrlen - f.attrib.ivLen) % 2 ^ 32

/-- `rtw_aes_decrypt` (`rtw_security.c`, lines 1867–1932). -/
def rtwAesDecrypt (priv : RtlPriv) (message : Bytes) (f : RecvFrame) : DecryptResult :=
  if f.attrib.encrypt = .aes then
    match rxKey priv f with
    | none => { res := .fail, frame := f, message := message }
    | some prwskey =>
      if isMulticast f.attrib.ra ∧ priv.dot118021XGrpKeyid ≠ f.attrib.keyIndex then
        { res := .fail, frame := f, message := message }
      else
        let r := aesDecipher message prwskey f.attrib.hdrlen (f.mem.drop f.rxData) (aesPlen f)
        { res := r.status, frame := f.memcpy f.rxData r.pframe, message := r.message }
  else { res := .success, frame := f, message := message }

/-- `prxattrib->key_index` (lines 497–500); two bits are never above `WEP_KEYS`. -/
def setKeyIndex (f : RecvFrame) : RecvFrame :=
  if f.attrib.encrypt ≠ .noPrivacy then
    f.setAttrib { f.attrib with keyIndex := (f.byteAt (f.attrib.hdrlen + 3)).toNat / 64 }
  else f

/-- The software path is taken (line 519). -/
def swPath (priv : RtlPriv) (f : RecvFrame) : Bool :=
  f.attrib.encrypt != .noPrivacy && (!f.attrib.bdecrypted || priv.swDecrypt)

/-- The `switch` over the ciphers (lines 528–541). -/
def swDecryptFrame (priv : RtlPriv) (message : Bytes) (f : RecvFrame) : DecryptResult :=
  match f.attrib.encrypt with
  | .wep40 | .wep104 => { res := .success, frame := rtwWepDecrypt priv f, message := message }
  | .tkip =>
    { res := (rtwTkipDecrypt priv f).1, frame := (rtwTkipDecrypt priv f).2, message := message }
  | .aes => rtwAesDecrypt priv message f
  | .noPrivacy | .reserved | .cmac => { res := .success, frame := f, message := message }

/-- What `decryptor` returns and what it passed to `rtw_free_recvframe`. -/
structure DecryptorResult where
  ret : Option RecvFrame
  freed : List RecvFrame
  message : Bytes

/-- `decryptor` (lines 488–569). `hw_decrypted`, which only the transmit path reads, is
    left out. -/
def decryptor (priv : RtlPriv) (message : Bytes) (f : RecvFrame) : DecryptorResult :=
  let f := setKeyIndex f
  let r := if swPath priv f then swDecryptFrame priv message f
    else { res := .success, frame := f, message := message }
  if r.res = .fail then { ret := none, freed := [r.frame], message := r.message }
  else { ret := some r.frame, freed := [], message := r.message }

/-! ## Accepted frames -/

/-- What an accepted frame offers to the ciphers. -/
structure Validated (f : RecvFrame) : Prop where
  lenOk : f.LenOk
  ivLen : f.attrib.ivLen = (setIceIvLen f.attrib.encrypt).1
  hdrlen : f.attrib.hdrlen =
    (if f.attrib.qos = 1 then 26 else 24) + (if f.attrib.order ≠ 0 then 4 else 0)
  qos : f.attrib.qos = ((getFrameSubType f).testBit 7).toNat

/-- `validate_recv_data_frame` on a frame whose QoS bit has been parsed. -/
theorem validateRecvDataFrame_validated {priv : RtlPriv} {tidRxseq : ℕ → ℕ → ℕ} {f : RecvFrame}
    (hlen : f.LenOk) (hqos : f.attrib.qos = ((getFrameSubType f).testBit 7).toNat)
    (h : (validateRecvDataFrame priv tidRxseq f).status = .success) :
    Validated (validateRecvDataFrame priv tidRxseq f).frame := by
  obtain ⟨psta, hcheck, -, hframe⟩ := validateRecvDataFrame_success h
  rw [hframe]
  have hds := dataFrameCheck_toFrDs hcheck
  refine ⟨hlen, setSecurity_ivLen _ _ _, ?_, ?_⟩
  · show (setSecurity priv psta _).hdrlen = _
    rw [setSecurity_hdrlen, parseQosControl_hdrlen hds]
    show _ = (if (setSecurity priv psta _).qos = 1 then 26 else 24) +
      (if (setSecurity priv psta _).order ≠ 0 then 4 else 0)
    rw [setSecurity_qos, setSecurity_order, parseQosControl_qos, parseQosControl_order]
  · show (setSecurity priv psta _).qos = _
    rw [setSecurity_qos, parseQosControl_qos]
    exact hqos

/-! ## Integrity of what is returned -/

/-- The four bytes behind the payload of `g` are its CRC-32. -/
def IcvRight (g : RecvFrame) : Prop :=
  ∃ pre p icv, g.data = pre ++ (p ++ icv) ∧ pre.length = payloadAt g ∧ icv.length = 4 ∧
    icv = crcBytes p

/-- The bytes behind the payload of `f` are the CCMP MIC of the payload of `g`, which is
    that of `f` decrypted under the key of its sender. -/
def MicRight (priv : RtlPriv) (f g : RecvFrame) : Prop :=
  ∃ key pre ct mic, rxKey priv g = some key ∧ f.data = pre ++ ct ++ mic ∧
    pre.length = f.attrib.hdrlen + f.attrib.ivLen ∧ mic.length = 8 ∧
    let S := frameScheme (aes128k128d key) f.attrib.hdrlen pre ct.length
    g.data = pre ++ S.decrypt xorByte ct ++ mic ∧ mic = S.tag xorByte (S.decrypt xorByte ct)

/-- The integrity value of the cipher of `f` is right in `g`, which was made of it. -/
def IntegrityRight (priv : RtlPriv) (f g : RecvFrame) : Prop :=
  match f.attrib.encrypt with
  | .wep40 | .wep104 | .tkip => IcvRight g
  | .aes => MicRight priv f g
  | .noPrivacy | .reserved | .cmac => True

/-- `decryptor` returns verified frames only and releases the others. -/
def VerifiedOrFreed (priv : RtlPriv) (message : Bytes) (f : RecvFrame) : Prop :=
  let r := decryptor priv message f
  (∀ g, r.ret = some g → r.freed = [] ∧ g.addr = f.addr ∧ IntegrityRight priv f g) ∧
    (r.ret = none → r.freed.map (·.addr) = [f.addr])

/-- The cursor splits at header and IV. -/
theorem data_split {f : RecvFrame} {n : ℕ} (h : n ≤ f.data.length) :
    f.data = f.data.take n ++ f.data.drop n ∧ (f.data.take n).length = n :=
  ⟨(List.take_append_drop n f.data).symm, by rw [List.length_take, Nat.min_eq_left h]⟩

theorem icvRight_iff {g : RecvFrame} (hlen : g.LenOk) (hhdr : payloadAt g ≤ g.len) :
    IcvRight g ↔ 4 ≤ payloadLength g ∧ icvOk g = true := by
  have hdlen := hlen.length
  have hat : payloadAt g = g.attrib.ivLen + g.attrib.hdrlen := rfl
  have hpl : payloadLength g = g.len - g.attrib.hdrlen - g.attrib.ivLen := rfl
  constructor
  · rintro ⟨pre, p, icv, hd, hpre, hicv, heq⟩
    have hall : g.data.length = pre.length + (p.length + icv.length) := by
      rw [hd, List.length_append, List.length_append]
    obtain ⟨hh, hi⟩ : (pre.take g.attrib.hdrlen).length = g.attrib.hdrlen ∧
        (pre.drop g.attrib.hdrlen).length = g.attrib.ivLen := by
      rw [List.length_take, List.length_drop]
      omega
    have hd' : g.data =
        pre.take g.attrib.hdrlen ++ pre.drop g.attrib.hdrlen ++ (p ++ icv) := by
      rw [List.take_append_drop, hd]
    exact ⟨by omega, (icvOk_iff hlen hd' hh hi hicv).mpr heq⟩
  · rintro ⟨h4, hok⟩
    set body := g.data.drop (payloadAt g) with hbody
    have hblen : body.length = payloadLength g := by
      rw [hbody, List.length_drop]
      omega
    have hsplit : body = body.take (body.length - 4) ++ body.drop (body.length - 4) :=
      (List.take_append_drop _ _).symm
    have hicv : (body.drop (body.length - 4)).length = 4 := by
      rw [List.length_drop]
      omega
    have hpre : (g.data.take (payloadAt g)).length = payloadAt g := by
      rw [List.length_take, Nat.min_eq_left (by omega)]
    have hd : g.data = g.data.take (payloadAt g) ++
        (body.take (body.length - 4) ++ body.drop (body.length - 4)) := by
      rw [← hsplit, hbody, List.take_append_drop]
    obtain ⟨hh, hi⟩ : ((g.data.take (payloadAt g)).take g.attrib.hdrlen).length = g.attrib.hdrlen ∧
        ((g.data.take (payloadAt g)).drop g.attrib.hdrlen).length = g.attrib.ivLen := by
      rw [List.length_take, List.length_drop, hpre]
      omega
    refine ⟨_, _, _, hd, hpre, hicv, (icvOk_iff hlen ?_ hh hi hicv).mp hok⟩
    rw [List.take_append_drop]
    exact hd

/-! ## WEP and TKIP -/

section rc4

variable {f : RecvFrame} {key : Bytes}

theorem rc4Decrypt_split (hlen : f.LenOk) (h : payloadAt f ≤ f.len) :
    (rc4Decrypt key f).data = f.data.take (payloadAt f) ++
      (arcfourEncrypt (arcfourInit key) (f.data.drop (payloadAt f))).2 := by
  obtain ⟨hsplit, hpre⟩ := data_split (f := f) (n := payloadAt f) (by rw [hlen.length]; exact h)
  have hat : payloadAt f = f.attrib.ivLen + f.attrib.hdrlen := rfl
  obtain ⟨hh, hi⟩ : ((f.data.take (payloadAt f)).take f.attrib.hdrlen).length = f.attrib.hdrlen ∧
      ((f.data.take (payloadAt f)).drop f.attrib.hdrlen).length = f.attrib.ivLen := by
    rw [List.length_take, List.length_drop, hpre]
    omega
  have hdec := rc4Decrypt_data key hlen (c := f.data.drop (payloadAt f))
    (by rw [List.take_append_drop]; exact hsplit) hh hi
  rwa [List.take_append_drop] at hdec

/-- The decrypted ICV is right exactly when the frame was encrypted with its CRC. -/
theorem rc4Decrypt_icvRight_iff (hlen : f.LenOk) :
    IcvRight (rc4Decrypt key f) ↔
      ∃ pre p, f.data = pre ++ (arcfourEncrypt (arcfourInit key) (p ++ crcBytes p)).2 ∧
        pre.length = payloadAt f := by
  have hdlen := hlen.length
  constructor
  · rintro ⟨pre, p, icv, hd, hplen, -, rfl⟩
    have hat : payloadAt f ≤ f.len := by
      have hsame : (rc4Decrypt key f).data.length = f.data.length := by
        rw [RecvFrame.data_length, RecvFrame.data_length]
        rfl
      rw [← hdlen, ← hsame, hd, List.length_append, hplen]
      exact Nat.le_add_right _ _
    obtain ⟨hsplit, hpre⟩ := data_split (f := f) (n := payloadAt f) (by rw [hdlen]; exact hat)
    rw [rc4Decrypt_split hlen hat] at hd
    obtain ⟨-, hbody⟩ := List.append_inj hd (hpre.trans hplen.symm)
    refine ⟨f.data.take (payloadAt f), p, ?_, hpre⟩
    rw [← hbody, arcfourEncrypt_arcfourEncrypt]
    exact hsplit
  · rintro ⟨pre, p, hd, hplen⟩
    have hat : payloadAt f ≤ f.len := by
      rw [← hdlen, hd, List.length_append, hplen]
      exact Nat.le_add_right _ _
    refine ⟨pre, p, crcBytes p, ?_, hplen, crcBytes_length p, rfl⟩
    rw [rc4Decrypt_split hlen hat, hd, ← hplen, List.take_left, List.drop_left,
      arcfourEncrypt_arcfourEncrypt]

/-- `rtw_tkip_decrypt` succeeds on frames with a right ICV only. -/
theorem rtwTkipDecrypt_icvRight {priv : RtlPriv} (hlen : f.LenOk) (henc : f.attrib.encrypt = .tkip)
    (h4 : payloadAt f + 4 ≤ f.len) (hres : (rtwTkipDecrypt priv f).1 = .success) :
    IcvRight (rtwTkipDecrypt priv f).2 := by
  rw [rtwTkipDecrypt, if_pos henc] at hres ⊢
  have hat : payloadAt f = f.attrib.ivLen + f.attrib.hdrlen := rfl
  cases hkey : rxKey priv f with
  | none =>
    rw [hkey] at hres
    cases hres
  | some prwskey =>
    rw [hkey] at hres
    dsimp only at hres ⊢
    set g := rc4Decrypt (tkipRc4Key prwskey f.attrib.ta (getTkipPn (rxIv f))) f
    have hglen : g.LenOk := hlen
    have hpl : payloadLength g = f.len - f.attrib.hdrlen - f.attrib.ivLen := rfl
    apply (icvRight_iff hglen (show payloadAt f ≤ f.len by omega)).mpr
    refine ⟨by omega, ?_⟩
    by_contra hicv
    rw [if_neg hicv] at hres
    cases hres

end rc4

/-! ## CCMP -/

/-- Copying to `rx_data` all that follows it. -/
theorem memcpy_rest_data {f : RecvFrame} {x : Bytes} (hx : x.length = f.data.length) :
    (f.memcpy f.rxData (x ++ f.mem.drop f.rxTail)).data = x := by
  have hpre : (f.mem.take f.rxData).length = f.rxData := by
    have h1 := f.data_le_tail
    have h2 := f.tail_le_end
    rw [List.length_take]
    omega
  have hsplit := f.mem_eq
  generalize f.mem.drop f.rxTail = w at hsplit ⊢
  have hmem : overwrite f.mem f.rxData (x ++ w) = f.mem.take f.rxData ++ (x ++ w) ++ [] := by
    conv_lhs => rw [hsplit, List.append_assoc, ← List.append_nil (f.mem.take f.rxData ++ _)]
    exact overwrite_append [] hpre (by rw [List.length_append, List.length_append, hx])
  rw [RecvFrame.data]
  simp only [RecvFrame.memcpy, hmem, List.append_nil]
  rw [List.drop_left' hpre]
  exact List.take_left' (by rw [hx, RecvFrame.data_length])

/-- The frame is one that `aes_decipher` can hold: header, IV and MIC are there, it fits
    into `message`, and no HT Control field stands between QoS field and IV. -/
structure CcmpFits (f : RecvFrame) : Prop where
  order : f.attrib.qos = 1 → f.attrib.order = 0
  long : f.attrib.hdrlen + f.attrib.ivLen + 8 ≤ f.len
  short : f.len ≤ maxMsgSize

/-- Header and IV of an accepted frame. -/
theorem Validated.frameHead {f : RecvFrame} (h : Validated f) (henc : f.attrib.encrypt = .aes)
    (hfits : CcmpFits f) :
    FrameHead f.attrib.hdrlen (f.data.take (f.attrib.hdrlen + f.attrib.ivLen)) := by
  have hiv : f.attrib.ivLen = 8 := by rw [h.ivLen, henc]; rfl
  have hlong := hfits.long
  have hdlen := h.lenOk.length
  have h24 : 24 ≤ f.attrib.hdrlen := by
    rw [h.hdrlen]
    split_ifs <;> omega
  have hget : ∀ k < 2, (f.data.take (f.attrib.hdrlen + f.attrib.ivLen)).getD k 0 = f.byteAt k := by
    intro k hk
    have hbytes := RecvFrame.bytesAt_eq (f := f) (k := 0) (n := f.attrib.hdrlen + f.attrib.ivLen)
      (by omega)
    rw [List.drop_zero] at hbytes
    rw [← hbytes, bytesAt_getD (by omega), Nat.zero_add]
  have hsub : Security.getFrameSubType (f.data.take (f.attrib.hdrlen + f.attrib.ivLen)) =
      getFrameSubType f := by
    rw [Security.getFrameSubType, frameControl, hget 0 (by decide), hget 1 (by decide)]
    rfl
  refine ⟨?_, h24, ccmpHdr_hdrlen ?_⟩
  · rw [List.length_take, Nat.min_eq_left (by omega), hiv]
  · by_cases hq : f.attrib.qos = 1
    · have hdr := h.hdrlen
      rw [if_pos hq, if_neg (fun ho => ho (hfits.order hq))] at hdr
      exact Or.inl hdr
    · right
      rw [hsub]
      have hbit : (getFrameSubType f).testBit 7 = false := by
        cases hb : (getFrameSubType f).testBit 7 with
        | false => rfl
        | true => exact absurd (by rw [h.qos, hb]; rfl) hq
      have hlt : getFrameSubType f < 256 := Nat.lt_of_le_of_lt Nat.and_le_right (by decide)
      rw [Nat.testBit_eq_decide_div_mod_eq] at hbit
      simp only [decide_eq_false_iff_not] at hbit
      rw [Nat.shiftRight_eq_div_pow]
      simp only [List.mem_cons, List.not_mem_nil, or_false]
      omega

/-- `rtw_aes_decrypt` succeeds on frames with a right MIC only. -/
theorem rtwAesDecrypt_micRight {priv : RtlPriv} {message : Bytes} {f : RecvFrame}
    (h : Validated f) (henc : f.attrib.encrypt = .aes) (hfits : CcmpFits f)
    (hmsg : message.length = maxMsgSize) (hres : (rtwAesDecrypt priv message f).res = .success) :
    MicRight priv f (rtwAesDecrypt priv message f).frame := by
  rw [rtwAesDecrypt, if_pos henc] at hres ⊢
  cases hkey : rxKey priv f with
  | none =>
    rw [hkey] at hres
    cases hres
  | some key =>
    rw [hkey] at hres
    dsimp only at hres ⊢
    split_ifs at hres ⊢ with hidx
    have hiv : f.attrib.ivLen = 8 := by rw [h.ivLen, henc]; rfl
    have hlong := hfits.long
    have hshort : f.len ≤ 2048 := hfits.short
    have hdlen := h.lenOk.length
    have hhead := h.frameHead henc hfits
    set pre := f.data.take (f.attrib.hdrlen + f.attrib.ivLen) with hpre_def
    set ct := (f.data.drop (f.attrib.hdrlen + f.attrib.ivLen)).take
      (f.len - (f.attrib.hdrlen + f.attrib.ivLen) - 8) with hct_def
    set mic := (f.data.drop (f.attrib.hdrlen + f.attrib.ivLen)).drop
      (f.len - (f.attrib.hdrlen + f.attrib.ivLen) - 8) with hmic_def
    have hd : f.data = pre ++ ct ++ mic := by
      rw [List.append_assoc, List.take_append_drop, List.take_append_drop]
    have hpre : pre.length = f.attrib.hdrlen + f.attrib.ivLen := by
      rw [List.length_take, Nat.min_eq_left (by omega)]
    have hct : ct.length = f.len - (f.attrib.hdrlen + f.attrib.ivLen) - 8 := by
      rw [List.length_take, List.length_drop]
      omega
    have hmic : mic.length = 8 := by
      rw [List.length_drop, List.length_drop]
      omega
    have hplen : aesPlen f = ct.length + 8 := by
      rw [aesPlen]
      omega
    have hmem : f.mem.drop f.rxData = pre ++ ct ++ mic ++ f.mem.drop f.rxTail := by
      have htake : (f.mem.take f.rxData).length = f.rxData := by
        have h1 := f.data_le_tail
        have h2 := f.tail_le_end
        rw [List.length_take]
        omega
      conv_lhs => rw [f.mem_eq, List.append_assoc, List.drop_left' htake, hd]
    have hdec := aesDecipherWith_eq (E := aes128k128d key) ct (f.mem.drop f.rxTail) hhead hmic hmsg
      (by rw [← hd, hdlen]; exact hshort)
    rw [← hplen, ← hmem] at hdec
    obtain ⟨hframe, hstatus⟩ := hdec
    rw [aesDecipher] at hres ⊢
    dsimp only at hres ⊢
    refine ⟨key, pre, ct, mic, hkey, hd, hpre, hmic, ?_, hstatus.mp hres⟩
    rw [hframe]
    refine memcpy_rest_data ?_
    rw [hd]
    simp only [List.length_append, Scheme.decrypt, length_xorStream]

/-! ## The dispatcher -/

section decryptor

variable {priv : RtlPriv} {message : Bytes} {f : RecvFrame}

@[simp] theorem setKeyIndex_encrypt (f : RecvFrame) :
    (setKeyIndex f).attrib.encrypt = f.attrib.encrypt := by
  unfold setKeyIndex
  split <;> rfl

@[simp] theorem setKeyIndex_addr (f : RecvFrame) : (setKeyIndex f).addr = f.addr := by
  unfold setKeyIndex
  split <;> rfl

@[simp] theorem setKeyIndex_data (f : RecvFrame) : (setKeyIndex f).data = f.data := by
  unfold setKeyIndex
  split <;> rfl

@[simp] theorem setKeyIndex_payloadAt (f : RecvFrame) :
    payloadAt (setKeyIndex f) = payloadAt f := by
  unfold setKeyIndex
  split <;> rfl

@[simp] theorem setKeyIndex_len (f : RecvFrame) : (setKeyIndex f).len = f.len := by
  unfold setKeyIndex
  split <;> rfl

theorem setKeyIndex_lenOk (h : f.LenOk) : (setKeyIndex f).LenOk := by
  unfold setKeyIndex
  split <;> exact h

theorem Validated.setKeyIndex (h : Validated f) : Validated (setKeyIndex f) := by
  unfold Recv.setKeyIndex
  split
  · exact ⟨h.lenOk, h.ivLen, h.hdrlen, h.qos⟩
  · exact h

theorem CcmpFits.setKeyIndex (h : CcmpFits f) : CcmpFits (setKeyIndex f) := by
  unfold Recv.setKeyIndex
  split
  · exact ⟨h.order, h.long, h.short⟩
  · exact h

theorem MicRight.of_setKeyIndex {g : RecvFrame} (h : MicRight priv (setKeyIndex f) g) :
    MicRight priv f g := by
  unfold Recv.setKeyIndex at h
  split at h
  · exact h
  · exact h

/-- `g` is `f`, with other bytes in its buffer at most. -/
def Rewritten (f g : RecvFrame) : Prop := g = f ∨ ∃ off bs, g = f.memcpy off bs

theorem Rewritten.addr {g : RecvFrame} (h : Rewritten f g) : g.addr = f.addr := by
  rcases h with rfl | ⟨off, bs, rfl⟩ <;> rfl

theorem Rewritten.skb {g : RecvFrame} (h : Rewritten f g) : g.skb = f.skb := by
  rcases h with rfl | ⟨off, bs, rfl⟩ <;> rfl

theorem Rewritten.psta {g : RecvFrame} (h : Rewritten f g) : g.psta = f.psta := by
  rcases h with rfl | ⟨off, bs, rfl⟩ <;> rfl

theorem Rewritten.attrib {g : RecvFrame} (h : Rewritten f g) : g.attrib = f.attrib := by
  rcases h with rfl | ⟨off, bs, rfl⟩ <;> rfl

theorem Rewritten.len {g : RecvFrame} (h : Rewritten f g) : g.len = f.len := by
  rcases h with rfl | ⟨off, bs, rfl⟩ <;> rfl

theorem Rewritten.lenOk {g : RecvFrame} (h : Rewritten f g) (hf : f.LenOk) : g.LenOk := by
  rcases h with rfl | ⟨off, bs, rfl⟩
  · exact hf
  · exact memcpy_lenOk hf off bs

/-- `rtw_tkip_decrypt` works on its frame and reports success or failure. -/
theorem rtwTkipDecrypt_cases (priv : RtlPriv) (f : RecvFrame) :
    Rewritten f (rtwTkipDecrypt priv f).2 ∧
      ((rtwTkipDecrypt priv f).1 = .success ∨ (rtwTkipDecrypt priv f).1 = .fail) := by
  unfold rtwTkipDecrypt
  split
  · split
    · exact ⟨Or.inl rfl, Or.inr rfl⟩
    · refine ⟨Or.inr ⟨_, _, rfl⟩, ?_⟩
      dsimp only
      split
      · exact Or.inl rfl
      · exact Or.inr rfl
  · exact ⟨Or.inl rfl, Or.inl rfl⟩

/-- So does `rtw_aes_decrypt`. -/
theorem rtwAesDecrypt_cases (priv : RtlPriv) (message : Bytes) (f : RecvFrame) :
    Rewritten f (rtwAesDecrypt priv message f).frame ∧
      ((rtwAesDecrypt priv message f).res = .success ∨
        (rtwAesDecrypt priv message f).res = .fail) := by
  unfold rtwAesDecrypt
  split
  · split
    · exact ⟨Or.inl rfl, Or.inr rfl⟩
    · split
      · exact ⟨Or.inl rfl, Or.inr rfl⟩
      · refine ⟨Or.inr ⟨_, _, rfl⟩, ?_⟩
        dsimp only [aesDecipher, aesDecipherWith]
        generalize List.all _ _ = micOk
        cases micOk with
        | true => exact Or.inl rfl
        | false => exact Or.inr rfl
  · exact ⟨Or.inl rfl, Or.inl rfl⟩

/-- No routine exchanges the frame for another. -/
theorem swDecryptFrame_rewritten (priv : RtlPriv) (message : Bytes) (f : RecvFrame) :
    Rewritten f (swDecryptFrame priv message f).frame := by
  have hwep : Rewritten f (rtwWepDecrypt priv f) := by
    unfold rtwWepDecrypt
    split
    · exact Or.inr ⟨_, _, rfl⟩
    · exact Or.inl rfl
  unfold swDecryptFrame
  split
  · exact hwep
  · exact hwep
  · exact (rtwTkipDecrypt_cases priv f).1
  · exact (rtwAesDecrypt_cases priv message f).1
  · exact Or.inl rfl
  · exact Or.inl rfl
  · exact Or.inl rfl

/-- `decryptor` returns its frame or releases it. -/
theorem decryptor_cases (priv : RtlPriv) (message : Bytes) (f : RecvFrame) :
    ∃ g, Rewritten (setKeyIndex f) g ∧
      (((decryptor priv message f).ret = some g ∧ (decryptor priv message f).freed = []) ∨
        ((decryptor priv message f).ret = none ∧ (decryptor priv message f).freed = [g])) := by
  unfold decryptor
  dsimp only
  by_cases hsw : swPath priv (setKeyIndex f) = true
  · rw [if_pos hsw]
    refine ⟨_, swDecryptFrame_rewritten priv message (setKeyIndex f), ?_⟩
    split_ifs
    · exact Or.inr ⟨rfl, rfl⟩
    · exact Or.inl ⟨rfl, rfl⟩
  · rw [if_neg hsw]
    exact ⟨setKeyIndex f, Or.inl rfl, Or.inl ⟨rfl, rfl⟩⟩

theorem decryptor_ret {g : RecvFrame} (h : (decryptor priv message f).ret = some g) :
    Rewritten (setKeyIndex f) g := by
  obtain ⟨g', hg', ⟨hret, -⟩ | ⟨hret, -⟩⟩ := decryptor_cases priv message f
  · rw [h] at hret
    rw [Option.some.inj hret]
    exact hg'
  · rw [h] at hret
    cases hret

/-- What `decryptor` leaves of the attributes. -/
theorem decryptor_attrib {priv : RtlPriv} {m : Bytes} {f g : RecvFrame}
    (h : (decryptor priv m f).ret = some g) :
    ∃ keyIndex, g.attrib = { f.attrib with keyIndex := keyIndex } := by
  have hattrib := (decryptor_ret h).attrib
  unfold setKeyIndex at hattrib
  split at hattrib
  · exact ⟨_, hattrib⟩
  · exact ⟨f.attrib.keyIndex, hattrib⟩

/-- On the software path, `decryptor` returns what the routine reports as decrypted. -/
theorem verifiedOrFreed_iff (hsw : swPath priv f = true) :
    VerifiedOrFreed priv message f ↔
      ((swDecryptFrame priv message (setKeyIndex f)).res ≠ .fail →
        IntegrityRight priv f (swDecryptFrame priv message (setKeyIndex f)).frame) := by
  have hpath : swPath priv (setKeyIndex f) = true := by
    rw [← hsw]
    unfold setKeyIndex
    split <;> rfl
  have haddr := (swDecryptFrame_rewritten priv message (setKeyIndex f)).addr
  rw [setKeyIndex_addr] at haddr
  unfold VerifiedOrFreed decryptor
  simp only [hpath, if_true]
  generalize swDecryptFrame priv message (setKeyIndex f) = r at haddr ⊢
  by_cases hres : r.res = .fail
  · simp [hres, haddr]
  · simp [hres, haddr]

/-- The frames that leave `decryptor` verified. For WEP it is left to the sender. -/
def Verifiable (priv : RtlPriv) (f : RecvFrame) : Prop :=
  match f.attrib.encrypt with
  | .wep40 | .wep104 =>
    ∃ pre p, f.data = pre ++ (arcfourEncrypt (arcfourInit (wepKey priv
      (setKeyIndex f).attrib.keyIndex (rxIv f))) (p ++ crcBytes p)).2 ∧ pre.length = payloadAt f
  | .tkip => payloadAt f + 4 ≤ f.len
  | .aes => CcmpFits f
  | .noPrivacy | .reserved | .cmac => True

/-- `rtw_wep_decrypt` reports nothing. -/
theorem wep_icvRight_iff (hlen : f.LenOk)
    (henc : f.attrib.encrypt = .wep40 ∨ f.attrib.encrypt = .wep104) :
    IcvRight (rtwWepDecrypt priv (setKeyIndex f)) ↔
      ∃ pre p, f.data = pre ++ (arcfourEncrypt (arcfourInit (wepKey priv
        (setKeyIndex f).attrib.keyIndex (rxIv f))) (p ++ crcBytes p)).2 ∧
        pre.length = payloadAt f := by
  have hiv : rxIv (setKeyIndex f) = rxIv f := by
    unfold setKeyIndex
    split <;> rfl
  rw [rtwWepDecrypt, if_pos (by rwa [setKeyIndex_encrypt]),
    rc4Decrypt_icvRight_iff (setKeyIndex_lenOk hlen), setKeyIndex_data, setKeyIndex_payloadAt, hiv]

end decryptor

/-! ### Frames of zeros -/

/-- A data frame with the Protected bit whose IV and encrypted part are zero. -/
def zeroFrame (encrypt : Encryption) (ivLen : ℕ) : RecvFrame :=
  frameOf encrypt ivLen
    (0x08 :: 0x40 :: List.replicate 22 0 ++ List.replicate ivLen 0 ++ List.replicate 16 0)

theorem zeroFrame_validated (encrypt : Encryption) :
    Validated (zeroFrame encrypt (setIceIvLen encrypt).1) where
  lenOk := rfl
  ivLen := rfl
  hdrlen := rfl
  qos := by cases encrypt <;> decide

end Rtl8821au.Recv
