import Mathlib.Tactic.IntervalCases
import Rtl8821au.Lib.Absorb
import Rtl8821au.Security.Michael

/-!
# Michael, word by word

The MIC of IEEE 802.11 over the words of the padded message, and the byte-wise state
machine of `rtw_secmicappendbyte` (`rtw_security.c`, lines 292–398) against it.

* `rtwSecmicappendbyte_holds`: the state machine is a four-byte buffer before the block
  function.
* `rtwSecgetmic_eq`: padding ends on a word, so the MIC is that of the padded message.
* `secmic_incremental`: the MIC does not depend on the pieces, and the counter is the length
  modulo 4.
-/

namespace Rtl8821au.Security

open Recv (Bytes)

/-! ## Michael -/

/-- The word of bytes in little-endian order. -/
def leWord (bs : Bytes) : BitVec 32 :=
  bs.foldr (fun b w => w <<< 8 ||| b.toBitVec.setWidth 32) 0#32

/-- `XSWAP`: the bytes of each half are exchanged. -/
def xswap (l : BitVec 32) : BitVec 32 :=
  l.extractLsb' 16 8 ++ l.extractLsb' 24 8 ++ l.extractLsb' 0 8 ++ l.extractLsb' 8 8

/-- The block function. -/
def michaelBlock (l r : BitVec 32) : BitVec 32 × BitVec 32 :=
  let r := r ^^^ l.rotateLeft 17
  let l := l + r
  let r := r ^^^ xswap l
  let l := l + r
  let r := r ^^^ l.rotateLeft 3
  let l := l + r
  let r := r ^^^ l.rotateRight 2
  let l := l + r
  (l, r)

/-- One word of the message. -/
def michaelWord (lr : BitVec 32 × BitVec 32) (word : Bytes) : BitVec 32 × BitVec 32 :=
  michaelBlock (lr.1 ^^^ leWord word) lr.2

/-- `0x5a` and at least four zeros, up to a multiple of four bytes. -/
def michaelPad (msg : Bytes) : Bytes :=
  msg ++ 0x5a :: List.replicate (7 - msg.length % 4) 0

/-- The bytes of a word in little-endian order. -/
def micBytes (v : BitVec 32) : Bytes :=
  [⟨v.extractLsb' 0 8⟩, ⟨v.extractLsb' 8 8⟩, ⟨v.extractLsb' 16 8⟩, ⟨v.extractLsb' 24 8⟩]

/-- The Michael MIC of `msg` under the first eight bytes of `key`. -/
def michael (key msg : Bytes) : Bytes :=
  let padded := michaelPad msg
  let lr := (Absorb.blocks 4 (padded.length / 4) padded).foldl michaelWord
    (leWord (key.take 4), leWord ((key.drop 4).take 4))
  micBytes lr.1 ++ micBytes lr.2

example : michael (List.replicate 8 0) [] = [0x82, 0x92, 0x5c, 0x1c, 0xa1, 0xd1, 0x30, 0xb8] := by
  decide +kernel

theorem michaelPad_length (msg : Bytes) : (michaelPad msg).length % 4 = 0 := by
  rw [michaelPad, List.length_append, List.length_cons, List.length_replicate]
  omega

/-! ## The rounds -/

theorem rol32_eq (a : BitVec 32) {n : ℕ} (h0 : 0 < n) (h : n < 32) :
    rol32 a n = a.rotateLeft n := by
  have hmask : (1#32 <<< n - 1#32) = BitVec.allOnes 32 >>> (32 - n) := by
    interval_cases n <;> decide
  have hlow : a >>> (32 - n) &&& BitVec.allOnes 32 >>> (32 - n) = a >>> (32 - n) := by
    rw [← BitVec.ushiftRight_and_distrib, BitVec.and_allOnes]
  rw [rol32, hmask, hlow, BitVec.rotateLeft_def, Nat.mod_eq_of_lt h]

theorem ror32_eq (a : BitVec 32) : ror32 a 2 = a.rotateRight 2 := by
  rw [ror32, rol32_eq a (by decide) (by decide), BitVec.rotateLeft_def, BitVec.rotateRight_def,
    BitVec.or_comm]

theorem xswap_eq (l : BitVec 32) :
    ((l &&& 0xff00ff00#32) >>> 8) ||| ((l &&& 0x00ff00ff#32) <<< 8) = xswap l := by
  apply BitVec.eq_of_getLsbD_eq
  intro i hi
  show _ = @BitVec.getLsbD (8 + 8 + 8 + 8) (l.extractLsb' 16 8 ++ l.extractLsb' 24 8 ++
    l.extractLsb' 0 8 ++ l.extractLsb' 8 8) i
  simp only [BitVec.getLsbD_append, BitVec.getLsbD_extractLsb']
  interval_cases i <;> simp

theorem secmicRounds_eq (l r m : BitVec 32) : secmicRounds l r m = michaelBlock (l ^^^ m) r := by
  unfold secmicRounds michaelBlock
  simp only [rol32_eq _ (show 0 < 17 by decide) (show 17 < 32 by decide),
    rol32_eq _ (show 0 < 3 by decide) (show 3 < 32 by decide), ror32_eq, xswap_eq]

/-! ## The byte-wise state machine -/

/-- `d` is between two bytes: `L` and `R` belong to the whole words before, `M` and
    `nBytesInM` to the bytes `s.2` of the next word. -/
structure MicData.Holds (d : MicData) (s : (BitVec 32 × BitVec 32) × Bytes) : Prop where
  L : d.L = s.1.1
  R : d.R = s.1.2
  M : d.M = leWord s.2
  nBytesInM : d.nBytesInM.val = s.2.length

theorem leWord_concat (bs : Bytes) (b : UInt8) :
    leWord (bs ++ [b]) = leWord bs ||| b.toBitVec.setWidth 32 <<< (8 * bs.length) := by
  induction bs with
  | nil => simp [leWord]
  | cons c bs ih =>
    have hstep : ∀ cs : Bytes, leWord (c :: cs) = leWord cs <<< 8 ||| c.toBitVec.setWidth 32 :=
      fun _ => rfl
    rw [List.cons_append, hstep, hstep, ih, BitVec.shiftLeft_or_distrib, ← BitVec.shiftLeft_add,
      List.length_cons, Nat.mul_succ, BitVec.or_assoc, BitVec.or_assoc,
      BitVec.or_comm (BitVec.setWidth 32 c.toBitVec)]

theorem byte_eq (b : UInt8) : BitVec.ofNat 32 b.toNat = b.toBitVec.setWidth 32 :=
  BitVec.ofNat_toNat 32 b.toBitVec

/-- One byte is one element before the block function. -/
theorem rtwSecmicappendbyte_holds {d : MicData} {s : (BitVec 32 × BitVec 32) × Bytes}
    (h : d.Holds s) (b : UInt8) :
    (rtwSecmicappendbyte d b).Holds (Absorb.push 4 michaelWord s b) := by
  have hm : d.M ||| (BitVec.ofNat 32 b.toNat <<< (8 * d.nBytesInM.val)) = leWord (s.2 ++ [b]) := by
    rw [h.M, h.nBytesInM, leWord_concat, byte_eq]
  unfold rtwSecmicappendbyte Absorb.push
  rw [hm]
  split
  · rename_i hlt
    rw [if_pos (h.nBytesInM ▸ hlt)]
    refine ⟨h.L, h.R, rfl, ?_⟩
    show d.nBytesInM.val + 1 = (s.2 ++ [b]).length
    rw [h.nBytesInM, List.length_append, List.length_singleton]
  · rename_i hlt
    rw [if_neg (h.nBytesInM ▸ hlt)]
    have hrounds : secmicRounds d.L d.R (leWord (s.2 ++ [b])) = michaelWord s.1 (s.2 ++ [b]) := by
      rw [secmicRounds_eq, h.L, h.R]
      rfl
    exact ⟨congrArg Prod.fst hrounds, congrArg Prod.snd hrounds, rfl, rfl⟩

theorem rtwSecmicappend_holds {d : MicData} {s : (BitVec 32 × BitVec 32) × Bytes}
    (h : d.Holds s) (bs : Bytes) :
    (rtwSecmicappend d bs).Holds (Absorb.feed 4 michaelWord s bs) := by
  induction bs generalizing d s with
  | nil => exact h
  | cons b bs ih => exact ih (rtwSecmicappendbyte_holds h b)

theorem leWord_take (p : Bytes) (k : ℕ) :
    (List.range k).foldl (fun w i => w ||| (p.getD i 0).toBitVec.setWidth 32 <<< (8 * i)) 0#32 =
      leWord (p.take k) := by
  induction k with
  | zero => rfl
  | succ k ih =>
    rw [List.range_succ, List.foldl_append, ih]
    show leWord (p.take k) ||| (p.getD k 0).toBitVec.setWidth 32 <<< (8 * k) = _
    by_cases hk : k < p.length
    · rw [List.take_succ_eq_append_getElem hk, leWord_concat, List.length_take,
        Nat.min_eq_left (Nat.le_of_lt hk), List.getD_eq_getElem _ _ hk]
    · rw [List.take_of_length_le (by omega), List.take_of_length_le (by omega),
        List.getD_eq_default _ _ (by omega)]
      simp

theorem secmicgetuint32_eq (p : Bytes) : secmicgetuint32 p = leWord (p.take 4) := by
  simp only [secmicgetuint32, byte_eq, leWord_take]

theorem rtwSecmicsetkey_holds (key : Bytes) :
    (rtwSecmicsetkey key).Holds ((leWord (key.take 4), leWord ((key.drop 4).take 4)), []) where
  L := secmicgetuint32_eq key
  R := secmicgetuint32_eq (key.drop 4)
  M := rfl
  nBytesInM := rfl

/-! ## The MIC -/

/-- The padding loop appends zeros up to the end of the word. -/
theorem secmicpad_eq {fuel : ℕ} {d : MicData} (h : (4 - d.nBytesInM.val) % 4 ≤ fuel) :
    secmicpad fuel d = rtwSecmicappend d (List.replicate ((4 - d.nBytesInM.val) % 4) 0) := by
  have hlt := d.nBytesInM.isLt
  induction fuel generalizing d with
  | zero =>
    rw [Nat.le_zero.mp h]
    rfl
  | succ fuel ih =>
    have hnext := rtwSecmicappendbyte_nBytesInM d 0
    unfold secmicpad
    by_cases h0 : d.nBytesInM = wordStart
    · have hval : d.nBytesInM.val = 0 := congrArg Fin.val h0
      rw [if_neg (not_not_intro h0), hval]
      rfl
    · have hval : d.nBytesInM.val ≠ 0 := fun hv => h0 (Fin.ext hv)
      have hcount : (4 - d.nBytesInM.val) % 4 =
          (4 - (rtwSecmicappendbyte d 0).nBytesInM.val) % 4 + 1 := by omega
      rw [if_pos h0, ih (by omega) (Fin.isLt _), hcount, List.replicate_succ]
      rfl

theorem secmicputuint32_eq (v : BitVec 32) : secmicputuint32 v = micBytes v := by
  simp only [secmicputuint32, micBytes, List.range, List.range.loop, List.map_cons, List.map_nil]
  rfl

/-- What `rtw_secgetmic` returns after the message. -/
theorem rtwSecgetmic_eq (key msg : Bytes) :
    rtwSecgetmic (rtwSecmicappend (rtwSecmicsetkey key) msg) = michael key msg := by
  have hcount : (rtwSecmicappend (rtwSecmicappend (rtwSecmicsetkey key) msg)
      [0x5a, 0, 0, 0, 0]).nBytesInM.val = (msg.length + 5) % 4 := by
    rw [← rtwSecmicappend_append,
      (rtwSecmicappend_holds (rtwSecmicsetkey_holds key) _).nBytesInM,
      Absorb.feed_buffer_length (by decide) _ (show [].length < 4 by decide)]
    simp
  have hpad : rtwSecmicappend (rtwSecmicappend (rtwSecmicappend (rtwSecmicsetkey key) msg)
        [0x5a, 0, 0, 0, 0]) (List.replicate ((4 - (msg.length + 5) % 4) % 4) 0) =
      rtwSecmicappend (rtwSecmicsetkey key) (michaelPad msg) := by
    have hzeros : michaelPad msg = msg ++ [0x5a, 0, 0, 0, 0] ++
        List.replicate ((4 - (msg.length + 5) % 4) % 4) 0 := by
      rw [michaelPad, show 7 - msg.length % 4 = 4 + (4 - (msg.length + 5) % 4) % 4 by omega,
        List.replicate_add, List.append_assoc]
      rfl
    rw [hzeros, rtwSecmicappend_append, rtwSecmicappend_append]
  have hblocks := rtwSecmicappend_holds (rtwSecmicsetkey_holds key) (michaelPad msg)
  have hlen := michaelPad_length msg
  rw [Absorb.feed_blocks (k := (michaelPad msg).length / 4) (by decide) (by omega)] at hblocks
  unfold rtwSecgetmic
  rw [secmicpad_eq (by rw [hcount]; omega), hcount, hpad]
  show secmicputuint32 _ ++ secmicputuint32 _ = _
  rw [secmicputuint32_eq, secmicputuint32_eq, hblocks.L, hblocks.R]
  rfl

/-- The receiver's MIC is that of the pseudo header and the data. -/
theorem rtwSeccalctkipmic_eq (key header data : Bytes) (pri : UInt8) :
    rtwSeccalctkipmic key header data pri =
      michael key (michaelAddresses header ++ [pri, 0, 0, 0] ++ data) := by
  show rtwSecgetmic (rtwSecmicappend (rtwSecmicappend (rtwSecmicappend _ _) _) data) = _
  rw [← rtwSecmicappend_append, ← rtwSecmicappend_append, rtwSecgetmic_eq, List.append_assoc]

/-! ## The counter

`MicData` cannot hold a counter of 4 or more; here it is the `u32` of the C structure. -/

/-- `struct mic_data` with its members as declared. -/
structure RawMicData where
  K0 : BitVec 32
  K1 : BitVec 32
  L : BitVec 32
  R : BitVec 32
  M : BitVec 32
  nBytesInM : UInt32

/-- `rtw_secmicappendbyte` on any counter. -/
def RawMicData.appendbyte (d : RawMicData) (b : UInt8) : RawMicData :=
  let m := d.M ||| (BitVec.ofNat 32 b.toNat <<< (8 * d.nBytesInM.toNat))
  let n := d.nBytesInM + 1
  if n ≥ 4 then
    let lr := secmicRounds d.L d.R m
    { d with L := lr.1, R := lr.2, M := 0#32, nBytesInM := 0 }
  else { d with M := m, nBytesInM := n }

def RawMicData.append (d : RawMicData) (src : Bytes) : RawMicData := src.foldl appendbyte d

def MicData.raw (d : MicData) : RawMicData where
  K0 := d.K0
  K1 := d.K1
  L := d.L
  R := d.R
  M := d.M
  nBytesInM := UInt32.ofNat d.nBytesInM.val

theorem raw_appendbyte (d : MicData) (b : UInt8) :
    d.raw.appendbyte b = (rtwSecmicappendbyte d b).raw := by
  have hlt := d.nBytesInM.isLt
  have hn : (UInt32.ofNat d.nBytesInM.val).toNat = d.nBytesInM.val := by
    rw [UInt32.toNat_ofNat', Nat.mod_eq_of_lt (by omega)]
  have hsucc : UInt32.ofNat d.nBytesInM.val + 1 = UInt32.ofNat (d.nBytesInM.val + 1) :=
    (UInt32.ofNat_add d.nBytesInM.val 1).symm
  have hge : UInt32.ofNat (d.nBytesInM.val + 1) ≥ 4 ↔ ¬ d.nBytesInM.val + 1 < 4 := by
    show (4 : UInt32).toNat ≤ (UInt32.ofNat (d.nBytesInM.val + 1)).toNat ↔ _
    rw [UInt32.toNat_ofNat', Nat.mod_eq_of_lt (by omega), Nat.not_lt]
    rfl
  simp only [RawMicData.appendbyte, MicData.raw, rtwSecmicappendbyte, hn, hsucc, hge]
  by_cases h : d.nBytesInM.val + 1 < 4
  · rw [if_neg (not_not_intro h), dif_pos h]
  · rw [if_pos h, dif_neg h]
    rfl

theorem raw_append (d : MicData) (bs : Bytes) :
    d.raw.append bs = (rtwSecmicappend d bs).raw := by
  induction bs generalizing d with
  | nil => rfl
  | cons b bs ih =>
    show (d.raw.appendbyte b).append bs = _
    rw [raw_appendbyte, ih]
    rfl

theorem raw_pieces (d : MicData) (pieces : List Bytes) :
    pieces.foldl RawMicData.append d.raw = (rtwSecmicappend d pieces.flatten).raw := by
  induction pieces generalizing d with
  | nil => rfl
  | cons piece pieces ih =>
    rw [List.foldl_cons, raw_append, ih, List.flatten_cons, rtwSecmicappend_append]

theorem rtwSecmicappend_pieces (d : MicData) (pieces : List Bytes) :
    pieces.foldl rtwSecmicappend d = rtwSecmicappend d pieces.flatten := by
  induction pieces generalizing d with
  | nil => rfl
  | cons piece pieces ih =>
    rw [List.foldl_cons, ih, List.flatten_cons, rtwSecmicappend_append]

/-- However the message is cut into calls of `rtw_secmicappend`, `rtw_secgetmic` returns its
    MIC, and after every call the counter is the length so far modulo 4. -/
theorem secmic_incremental (key : Bytes) (pieces : List Bytes) :
    rtwSecgetmic (pieces.foldl rtwSecmicappend (rtwSecmicsetkey key)) =
        michael key pieces.flatten ∧
      pieces.foldl RawMicData.append (rtwSecmicsetkey key).raw =
        (pieces.foldl rtwSecmicappend (rtwSecmicsetkey key)).raw ∧
      (pieces.foldl RawMicData.append (rtwSecmicsetkey key).raw).nBytesInM.toNat =
        pieces.flatten.length % 4 ∧
      (pieces.foldl RawMicData.append (rtwSecmicsetkey key).raw).nBytesInM < 4 := by
  have hcount : (rtwSecmicappend (rtwSecmicsetkey key) pieces.flatten).raw.nBytesInM.toNat =
      pieces.flatten.length % 4 := by
    show (UInt32.ofNat (Fin.val _)).toNat = _
    rw [UInt32.toNat_ofNat', Nat.mod_eq_of_lt (Nat.lt_trans (Fin.isLt _) (by decide)),
      (rtwSecmicappend_holds (rtwSecmicsetkey_holds key) _).nBytesInM,
      Absorb.feed_buffer_length (by decide) _ (show [].length < 4 by decide)]
    rw [List.length_nil, Nat.zero_add]
  rw [raw_pieces, rtwSecmicappend_pieces]
  refine ⟨rtwSecgetmic_eq key _, rfl, hcount, ?_⟩
  show UInt32.toNat _ < 4
  rw [hcount]
  exact Nat.mod_lt _ (by decide)

end Rtl8821au.Security
