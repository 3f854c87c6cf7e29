import Rtl8821au.Lib.Crc
import Rtl8821au.Security.WepTkip

/-!
# CRC-32

The table that `crc32_init` fills through bit reversals, against the bit-serial CRC of
IEEE 802.3, and the comparison with which `rtw_wep_decrypt` and `rtw_tkip_decrypt` check
the ICV (`rtw_security.c`, lines 106–162, 279 and 831–836).

* `crc32Table_eq`: an entry is its index after eight steps of the shift register.
* `getcrc32_eq`: the byte-wise loop computes the bit-serial CRC.
* `getcrc32_ieee_icvOk_iff`: what the receivers accept.
-/

namespace Rtl8821au.Security

open Recv (Bytes RecvFrame Status)

/-- The CRC-32 of IEEE 802.3 in reflected form: the bits of each byte enter low bit first,
    the register starts with all ones and is complemented at the end. -/
def ieeeCrc32 (buf : Bytes) : UInt32 :=
  ⟨~~~ Crc.serial (BitVec.reverse 0x04c11db7#32) (BitVec.allOnes 32)
    (Crc.bitsOf 32 (buf.map UInt8.toBitVec))⟩

/-- The four bytes of a word in little-endian order. -/
def leBytes (c : UInt32) : Bytes :=
  [c.toUInt8, (c >>> 8).toUInt8, (c >>> 16).toUInt8, (c >>> 24).toUInt8]

theorem crcBytes_eq (buf : Bytes) : crcBytes buf = leBytes (getcrc32 buf) := by
  simp only [crcBytes, leBytes, List.range, List.range.loop, List.map_cons, List.map_nil, byteOf]
  simp

/-- An entry of the table is its index after eight steps without message. -/
theorem crc32Table_eq (i : BitVec 8) :
    (crc32Table ⟨i⟩).toBitVec =
      Crc.shifts (BitVec.reverse 0x04c11db7#32) 8 (i.setWidth 32) := by
  revert i
  decide +kernel

/-- The byte-wise loop is the table-driven CRC. -/
theorem getcrc32_step (crc : UInt32) (p : UInt8) :
    (crc32Table (crc.toUInt8 ^^^ p) ^^^ (crc >>> 8)).toBitVec =
      Crc.tableStep (fun i => (crc32Table ⟨i⟩).toBitVec) crc.toBitVec p.toBitVec := by
  rfl

theorem crc32Fold_toBitVec (buf : Bytes) (crc : UInt32) :
    (buf.foldl (fun (crc : UInt32) p => crc32Table (crc.toUInt8 ^^^ p) ^^^ (crc >>> 8))
      crc).toBitVec =
      (buf.map UInt8.toBitVec).foldl (Crc.tableStep fun i => (crc32Table ⟨i⟩).toBitVec)
        crc.toBitVec := by
  induction buf generalizing crc with
  | nil => rfl
  | cons p buf ih =>
    rw [List.foldl_cons, ih, getcrc32_step]
    rfl

theorem getcrc32_eq (buf : Bytes) : getcrc32 buf = ieeeCrc32 buf := by
  apply UInt32.toBitVec_inj.mp
  rw [getcrc32, UInt32.toBitVec_not, crc32Fold_toBitVec,
    Crc.tableFold_eq_serial (by decide) crc32Table_eq]
  rfl

/-! ## The check of the receivers -/

/-- The last four bytes of `f` are the CRC-32, low byte first, of what lies between them
    and the IV. -/
def TrailingCrc (f : RecvFrame) : Prop :=
  f.data.drop (f.len - 4) =
    leBytes (ieeeCrc32 ((f.data.drop (payloadAt f)).take (payloadLength f - 4)))

instance (f : RecvFrame) : Decidable (TrailingCrc f) :=
  inferInstanceAs (Decidable (_ = _))

section check

variable {priv : RtlPriv} {f : RecvFrame}

/-- The comparison of `crc[0]` … `crc[3]` with the last bytes. An encrypted part shorter than
    an ICV is the CRC of nothing, compared with the last four bytes of the frame. -/
theorem icvOk_iff_trailingCrc (hlen : f.LenOk) (h : payloadAt f ≤ f.len) (h4 : 4 ≤ f.len) :
    icvOk f = true ↔ TrailingCrc f := by
  have hdata := hlen.length
  have hat : payloadAt f = f.attrib.ivLen + f.attrib.hdrlen := rfl
  have hpl : payloadLength f = f.len - f.attrib.hdrlen - f.attrib.ivLen := rfl
  have hoff : payloadAt f + payloadLength f - 4 = f.len - 4 := by omega
  have hicv : f.bytesAt (f.len - 4) 4 = f.data.drop (f.len - 4) := by
    rw [RecvFrame.bytesAt_eq (by omega), List.take_of_length_le]
    rw [List.length_drop]
    omega
  rw [icvOk, beq_iff_eq, hoff, hicv, crcBytes_eq, getcrc32_eq, RecvFrame.bytesAt_eq (by omega)]
  rfl

/-- Decryption leaves header, IV and length as they are. -/
theorem rc4Decrypt_lenOk (key : Bytes) (hlen : f.LenOk) : (rc4Decrypt key f).LenOk := hlen

theorem rtwTkipDecrypt_success_iff {key : Block} (henc : f.attrib.encrypt = .tkip)
    (hkey : rxKey priv f = some key) :
    (rtwTkipDecrypt priv f).1 = .success ↔ icvOk (rtwTkipDecrypt priv f).2 = true := by
  unfold rtwTkipDecrypt
  rw [if_pos henc, hkey]
  dsimp only
  cases icvOk (rc4Decrypt (tkipRc4Key key f.attrib.ta (getTkipPn (rxIv f))) f) <;> simp

theorem rtwTkipDecrypt_frame (priv : RtlPriv) (f : RecvFrame) :
    ∃ key, (rtwTkipDecrypt priv f).2 = f ∨ (rtwTkipDecrypt priv f).2 = rc4Decrypt key f := by
  unfold rtwTkipDecrypt
  split
  · split
    · exact ⟨[], Or.inl rfl⟩
    · exact ⟨_, Or.inr rfl⟩
  · exact ⟨[], Or.inl rfl⟩

/-- `getcrc32` is the CRC-32 of IEEE 802.3, and the receivers' check of a decrypted frame
    accepts exactly the frames that end with it; TKIP reports the result. With a frame
    shorter than header and IV decryption does not come to the check. -/
theorem getcrc32_ieee_receivers (priv : RtlPriv) :
    (∀ buf, getcrc32 buf = ieeeCrc32 buf) ∧
    ∀ f : RecvFrame, f.LenOk → payloadAt f ≤ f.len → 4 ≤ f.len →
      (icvOk f = true ↔ TrailingCrc f) ∧
      (icvOk (rtwWepDecrypt priv f) = true ↔ TrailingCrc (rtwWepDecrypt priv f)) ∧
      (f.attrib.encrypt = .tkip → rxKey priv f ≠ none →
        ((rtwTkipDecrypt priv f).1 = .success ↔ TrailingCrc (rtwTkipDecrypt priv f).2)) := by
  refine ⟨getcrc32_eq, fun f hlen h h4 => ⟨icvOk_iff_trailingCrc hlen h h4, ?_, ?_⟩⟩
  · unfold rtwWepDecrypt
    split
    · exact icvOk_iff_trailingCrc (rc4Decrypt_lenOk _ hlen) h h4
    · exact icvOk_iff_trailingCrc hlen h h4
  · intro henc hkey
    obtain ⟨key, hkey⟩ := Option.ne_none_iff_exists'.mp hkey
    rw [rtwTkipDecrypt_success_iff henc hkey]
    obtain ⟨k, hf | hf⟩ := rtwTkipDecrypt_frame priv f <;> rw [hf]
    · exact icvOk_iff_trailingCrc hlen h h4
    · exact icvOk_iff_trailingCrc (rc4Decrypt_lenOk k hlen) h h4

theorem getcrc32_ieee_receivers_zeros :
    (rtwTkipDecrypt onePeer (frameOf .tkip 8 (List.replicate 40 0))).1 ≠ .success := by
  have hcrc : ¬ TrailingCrc (rtwTkipDecrypt onePeer (frameOf .tkip 8 (List.replicate 40 0))).2 := by
    decide +kernel
  intro hres
  exact hcrc ((((getcrc32_ieee_receivers onePeer).2 (frameOf .tkip 8 (List.replicate 40 0)) rfl
    (by decide) (by decide)).2.2 rfl (by decide)).mp hres)

end check

end Rtl8821au.Security
