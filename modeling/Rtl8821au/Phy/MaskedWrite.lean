import Mathlib.Logic.Function.Basic
import Rtl8821au.Lib.BitField

/-!
# Masked writes to the baseband and the RF registers

`rtl8821au_phy_set_bb_reg`, `rtl8821au_phy_set_rf_reg` and the two queries (`phy.c`, lines 122–163
and 222–304), for every register content, field and data word.

* `calculateBitShift_mask`: the search loop finds where a field begins.
* `rfSerialWrite_eq`: which RF register takes which data.
* `masked_writes_right_iff`: a field that is set has the data, modulo its size, and no other bit
  has changed.

**What goes wrong.** `rtl8821au_phy_set_rf_reg` does not mask the shifted data, as
`rtl8821au_phy_set_bb_reg` does: data wider than the field set bits above it.
-/

namespace Rtl8821au.Phy.MaskedWrite

open BitField

/-! ## Model -/

/-- The baseband registers, and the RF registers of each path, of 20 bits. -/
structure Chip where
  bb : BitVec 32 → BitVec 32
  rf : BitVec 8 → BitVec 8 → BitVec 20

/-- The loop of `_rtl8821au_phy_calculate_bit_shift`, with the iterations that are left. -/
def bitShiftLoop (bitMask : BitVec 32) : ℕ → ℕ → ℕ
  | 0, i => i
  | n + 1, i => if (bitMask >>> i) &&& 1 = 1 then i else bitShiftLoop bitMask n (i + 1)

/-- `_rtl8821au_phy_calculate_bit_shift`. -/
def calculateBitShift (bitMask : BitVec 32) : ℕ := bitShiftLoop bitMask 32 0

/-- `rtl8821au_phy_query_bb_reg`. -/
def queryBbReg (c : Chip) (regAddr bitMask : BitVec 32) : BitVec 32 :=
  let originalValue := c.bb regAddr
  let bitShift := calculateBitShift bitMask
  (originalValue &&& bitMask) >>> bitShift

def bMaskDWord : BitVec 32 := 0xffffffff

/-- `rtl8821au_phy_set_bb_reg`. -/
def setBbReg (c : Chip) (regAddr bitMask data : BitVec 32) : Chip :=
  let data :=
    if bitMask ≠ bMaskDWord then
      let originalValue := c.bb regAddr
      let bitShift := calculateBitShift bitMask
      (originalValue &&& ~~~bitMask) ||| ((data <<< bitShift) &&& bitMask)
    else data
  { c with bb := Function.update c.bb regAddr data }

/-- `_rtl8821au_phy_rf_serial_read`, of which the chip returns the register. -/
def rfSerialRead (c : Chip) (path : BitVec 8) (offset : BitVec 32) : BitVec 32 :=
  let offset := offset &&& 0xff
  (c.rf path (offset.setWidth 8)).setWidth 32

/-- The chip gets a word with the address in bits 27 to 20 and the data below. -/
def Chip.receive (c : Chip) (path : BitVec 8) (dataAndAddr : BitVec 32) : Chip :=
  { c with
    rf := Function.update c.rf path
      (Function.update (c.rf path) ((dataAndAddr >>> 20).setWidth 8) (dataAndAddr.setWidth 20)) }

/-- `_rtl8821au_phy_rf_serial_write`; the chip version decides only which register carries the
    word. -/
def rfSerialWrite (c : Chip) (path : BitVec 8) (offset data : BitVec 32) : Chip :=
  let offset := offset &&& 0xff
  c.receive path (((offset <<< 20) ||| (data &&& 0x000fffff)) &&& 0x0fffffff)

def bLSSIWriteData : BitVec 32 := 0x000fffff

/-- `rtl8821au_phy_set_rf_reg`. -/
def setRfReg (c : Chip) (path regAddr bitMask data : BitVec 32) : Chip :=
  if bitMask = 0 then c
  else
    let data :=
      if bitMask ≠ bLSSIWriteData then
        let originalValue := rfSerialRead c (path.setWidth 8) regAddr
        let bitShift := calculateBitShift bitMask
        (originalValue &&& ~~~bitMask) ||| (data <<< bitShift)
      else data
    rfSerialWrite c (path.setWidth 8) regAddr data

/-- `rtl8821au_phy_query_rf_reg`. -/
def queryRfReg (c : Chip) (path regAddr bitMask : BitVec 32) : BitVec 32 :=
  let originalValue := rfSerialRead c (path.setWidth 8) regAddr
  let bitShift := calculateBitShift bitMask
  (originalValue &&& bitMask) >>> bitShift

/-! ## What a masked write is for -/

/-- The RF register that an access goes to. -/
def Chip.rfReg (c : Chip) (path regAddr : BitVec 32) : BitVec 20 :=
  c.rf (path.setWidth 8) (regAddr.setWidth 8)

/-- Setting the field of a baseband register sets the field, and nothing else. -/
structure BbRight (c : Chip) (addr data : BitVec 32) (f : Field 32) : Prop where
  query : (queryBbReg (setBbReg c addr (f.mask 32) data) addr (f.mask 32)).toNat =
    data.toNat % 2 ^ f.width
  outside : ∀ i, ¬ f.Has i →
    ((setBbReg c addr (f.mask 32) data).bb addr).getLsbD i = (c.bb addr).getLsbD i
  others : (setBbReg c addr (f.mask 32) data).rf = c.rf ∧
    ∀ a, a ≠ addr → (setBbReg c addr (f.mask 32) data).bb a = c.bb a

/-- Setting the field of an RF register sets the field, and nothing else. -/
structure RfRight (c : Chip) (path addr data : BitVec 32) (f : Field 20) : Prop where
  query : (queryRfReg (setRfReg c path addr (f.mask 32) data) path addr (f.mask 32)).toNat =
    data.toNat % 2 ^ f.width
  outside : ∀ i, ¬ f.Has i →
    ((setRfReg c path addr (f.mask 32) data).rfReg path addr).getLsbD i =
      (c.rfReg path addr).getLsbD i
  others : (setRfReg c path addr (f.mask 32) data).bb = c.bb ∧
    ∀ p a, p ≠ path.setWidth 8 ∨ a ≠ addr.setWidth 8 →
      (setRfReg c path addr (f.mask 32) data).rf p a = c.rf p a

/-! ## The shift -/

section shift

variable {w : ℕ} {f : Field w}

theorem bit_iff (m : BitVec 32) (i : ℕ) : (m >>> i) &&& 1 = 1 ↔ m.getLsbD i = true := by
  have hone : (m >>> i) &&& 1 = BitVec.setWidth 32 (BitVec.ofBool (m.getLsbD i)) := by
    rw [show (1 : BitVec 32) = 1#32 from rfl, BitVec.and_one_eq_setWidth_ofBool_getLsbD,
      BitVec.getLsbD_ushiftRight, Nat.add_zero]
  rw [hone]
  cases m.getLsbD i <;> decide

/-- The loop passes the zeros below the field. -/
theorem bitShiftLoop_mask (h : w ≤ 32) {n i : ℕ} (hi : i ≤ f.shift) (hn : f.shift < i + n) :
    bitShiftLoop (f.mask 32) n i = f.shift := by
  induction n generalizing i with
  | zero => omega
  | succ n ih =>
    rw [bitShiftLoop]
    by_cases heq : i = f.shift
    · have hpos := f.pos
      have hbit : (f.mask 32).getLsbD i = true := by
        rw [getLsbD_mask h, decide_eq_true_eq]
        exact ⟨Nat.le_of_eq heq.symm, by omega⟩
      rw [if_pos ((bit_iff _ _).mpr hbit), heq]
    · have hbit : ¬ (f.mask 32).getLsbD i = true := by
        rw [getLsbD_mask h, decide_eq_true_eq]
        exact fun hhas => heq (Nat.le_antisymm hi hhas.1)
      rw [if_neg fun hone => hbit ((bit_iff _ _).mp hone)]
      exact ih (by omega) (by omega)

theorem calculateBitShift_mask (h : w ≤ 32) : calculateBitShift (f.mask 32) = f.shift := by
  have hpos := f.pos
  have hfits := f.fits
  exact bitShiftLoop_mask h (Nat.zero_le _) (by omega)

/-- A mask of all ones is the field from bit 0 on. -/
theorem shift_eq_zero (h : w ≤ 32) (hlow : (f.mask 32).getLsbD 0 = true) : f.shift = 0 := by
  rw [getLsbD_mask h, decide_eq_true_eq] at hlow
  exact Nat.le_zero.mp hlow.1

end shift

/-! ## Baseband registers -/

section bb

variable (c : Chip) (addr data : BitVec 32) (f : Field 32)

theorem queryBbReg_eq : queryBbReg c addr (f.mask 32) = extract f (c.bb addr) := by
  rw [queryBbReg, calculateBitShift_mask (Nat.le_refl 32)]
  rfl

/-- A mask of all ones masks nothing. -/
theorem insert_full (h : f.mask 32 = bMaskDWord) (x : BitVec 32) : insert f x data = data := by
  have hshift := shift_eq_zero (f := f) (Nat.le_refl 32) (by rw [h]; decide)
  refine BitVec.eq_of_getLsbD_eq fun i hi => ?_
  have hhas : f.Has i := by
    have hbit : (f.mask 32).getLsbD i = true := by
      rw [h, show bMaskDWord = BitVec.allOnes 32 from rfl, BitVec.getLsbD_allOnes]
      exact decide_eq_true hi
    rw [getLsbD_mask (Nat.le_refl 32), decide_eq_true_eq] at hbit
    exact hbit
  rw [getLsbD_insert (Nat.le_refl 32) x data hi, if_pos hhas, hshift, Nat.sub_zero]

theorem setBbReg_eq : setBbReg c addr (f.mask 32) data =
    { c with bb := Function.update c.bb addr (insert f (c.bb addr) data) } := by
  rw [setBbReg, calculateBitShift_mask (Nat.le_refl 32)]
  by_cases h : f.mask 32 = bMaskDWord
  · rw [if_neg (not_not.mpr h), insert_full data f h]
  · rw [if_pos h]
    rfl

theorem bb_right : BbRight c addr data f := by
  have hnew : (setBbReg c addr (f.mask 32) data).bb addr = insert f (c.bb addr) data := by
    rw [setBbReg_eq]
    exact Function.update_self _ _ _
  refine ⟨?_, fun i hi => ?_, ?_, fun a ha => ?_⟩
  · rw [queryBbReg_eq, hnew]
    exact extract_of_inside (Nat.le_refl 32) fun i hi =>
      insert_inside (Nat.le_refl 32) (c.bb addr) data hi
  · rw [hnew]
    exact insert_outside (Nat.le_refl 32) (c.bb addr) data hi
  · rw [setBbReg_eq]
  · rw [setBbReg_eq]
    exact Function.update_of_ne ha _ _

end bb

/-! ## RF registers -/

section word

/-- The masks `0xff`, `0x000fffff` and `0x0fffffff`. -/
theorem getLsbD_low {n : ℕ} (hn : n ≤ 32) (i : ℕ) :
    (BitVec.ofNat 32 (2 ^ n - 1)).getLsbD i = decide (i < n) := by
  rw [BitVec.getLsbD_ofNat, Nat.testBit_two_pow_sub_one]
  by_cases hi : i < n
  · rw [decide_eq_true hi, decide_eq_true (Nat.lt_of_lt_of_le hi hn)]
    rfl
  · rw [decide_eq_false hi, Bool.and_false]

/-- `Offset &= 0xff`. -/
theorem low_byte (x : BitVec 32) : (x &&& 0xff).setWidth 8 = x.setWidth 8 := by
  refine BitVec.eq_of_getLsbD_eq fun i hi => ?_
  have hmask : (0xff : BitVec 32) = BitVec.ofNat 32 (2 ^ 8 - 1) := rfl
  rw [BitVec.getLsbD_setWidth, BitVec.getLsbD_setWidth, BitVec.getLsbD_and, hmask,
    getLsbD_low (by decide), decide_eq_true hi, Bool.and_true]

/-- A bit of `DataAndAddr`. -/
theorem getLsbD_dataAndAddr (offset data : BitVec 32) {i : ℕ} (hi : i < 28) :
    ((((offset &&& 0xff) <<< 20) ||| (data &&& 0x000fffff)) &&& 0x0fffffff).getLsbD i =
      if i < 20 then data.getLsbD i else offset.getLsbD (i - 20) := by
  have h8 : (0xff : BitVec 32) = BitVec.ofNat 32 (2 ^ 8 - 1) := rfl
  have h20 : (0x000fffff : BitVec 32) = BitVec.ofNat 32 (2 ^ 20 - 1) := rfl
  have h28 : (0x0fffffff : BitVec 32) = BitVec.ofNat 32 (2 ^ 28 - 1) := rfl
  rw [h8, h20, h28, BitVec.getLsbD_and, BitVec.getLsbD_or, BitVec.getLsbD_shiftLeft,
    BitVec.getLsbD_and, BitVec.getLsbD_and, getLsbD_low (by decide), getLsbD_low (by decide),
    getLsbD_low (by decide), decide_eq_true hi, decide_eq_true (show i < 32 by omega)]
  by_cases hlow : i < 20
  · rw [if_pos hlow, decide_eq_true hlow]
    simp
  · rw [if_neg hlow, decide_eq_false hlow, decide_eq_true (show i - 20 < 8 by omega)]
    simp

end word

section rf

variable (c : Chip) (path addr data : BitVec 32) (f : Field 20)

/-- The register that a serial write goes to, and its new content. -/
theorem rfSerialWrite_eq (p : BitVec 8) (offset : BitVec 32) :
    rfSerialWrite c p offset data =
      { c with
        rf := Function.update c.rf p
          (Function.update (c.rf p) (offset.setWidth 8) (data.setWidth 20)) } := by
  rw [rfSerialWrite, Chip.receive]
  congr 3
  · refine BitVec.eq_of_getLsbD_eq fun i hi => ?_
    rw [BitVec.getLsbD_setWidth, BitVec.getLsbD_setWidth, BitVec.getLsbD_ushiftRight,
      getLsbD_dataAndAddr _ _ (by omega), if_neg (by omega), Nat.add_sub_cancel_left]
  · refine BitVec.eq_of_getLsbD_eq fun i hi => ?_
    rw [BitVec.getLsbD_setWidth, BitVec.getLsbD_setWidth,
      getLsbD_dataAndAddr _ _ (Nat.lt_trans hi (by decide)), if_pos hi]

theorem rfSerialRead_eq :
    rfSerialRead c (path.setWidth 8) addr = (c.rfReg path addr).setWidth 32 := by
  rw [rfSerialRead, low_byte]
  rfl

theorem queryRfReg_eq : queryRfReg c path addr (f.mask 32) =
    extract f ((c.rfReg path addr).setWidth 32) := by
  rw [queryRfReg, calculateBitShift_mask (by decide), rfSerialRead_eq]
  rfl

/-- The mask of the whole register. -/
theorem overlay_full (h : f.mask 32 = bLSSIWriteData) (x : BitVec 32) {i : ℕ} (hi : i < 20) :
    (overlay f x data).getLsbD i = data.getLsbD i := by
  have hshift := shift_eq_zero (f := f) (by decide) (by rw [h]; decide)
  have hhas : f.Has i := by
    have hbit : (f.mask 32).getLsbD i = true := by
      rw [h, show bLSSIWriteData = BitVec.ofNat 32 (2 ^ 20 - 1) from rfl, getLsbD_low (by decide)]
      exact decide_eq_true hi
    rw [getLsbD_mask (by decide), decide_eq_true_eq] at hbit
    exact hbit
  have hin := overlay_inside (by decide) x data (show i < f.width by have h := hhas.2; omega)
  rwa [hshift, Nat.zero_add] at hin

/-- The new content has the data laid over the old one. -/
theorem setRfReg_eq : setRfReg c path addr (f.mask 32) data =
    { c with
      rf := Function.update c.rf (path.setWidth 8) (Function.update (c.rf (path.setWidth 8))
        (addr.setWidth 8)
        ((overlay f ((c.rfReg path addr).setWidth 32) data).setWidth 20)) } := by
  have hne : f.mask 32 ≠ 0 := by
    intro h0
    have hpos := f.pos
    have hbit : (f.mask 32).getLsbD f.shift = true := by
      rw [getLsbD_mask (by decide), decide_eq_true_eq]
      exact ⟨Nat.le_refl _, by omega⟩
    rw [h0] at hbit
    exact absurd hbit (by simp)
  rw [setRfReg, if_neg hne, calculateBitShift_mask (by decide), rfSerialRead_eq, rfSerialWrite_eq]
  by_cases h : f.mask 32 = bLSSIWriteData
  · have hfull : data.setWidth 20 =
        (overlay f ((c.rfReg path addr).setWidth 32) data).setWidth 20 := by
      refine BitVec.eq_of_getLsbD_eq fun i hi => ?_
      rw [BitVec.getLsbD_setWidth, BitVec.getLsbD_setWidth, overlay_full data f h _ hi]
    rw [if_neg (not_not.mpr h), hfull]
  · rw [if_pos h]
    rfl

/-- A field of an RF register is set and nothing else, exactly if each bit of the data that
    lies above the field in the register is one that is set there. -/
theorem rf_right_iff : RfRight c path addr data f ↔ ∀ i < 20, f.shift + f.width ≤ i →
    data.getLsbD (i - f.shift) = true → (c.rfReg path addr).getLsbD i = true := by
  have hnew : (setRfReg c path addr (f.mask 32) data).rfReg path addr =
      (overlay f ((c.rfReg path addr).setWidth 32) data).setWidth 20 := by
    rw [setRfReg_eq, Chip.rfReg]
    dsimp only
    rw [Function.update_self, Function.update_self]
  have hold : ∀ i < 20, ((c.rfReg path addr).setWidth 32).getLsbD i =
      (c.rfReg path addr).getLsbD i := by
    intro i hi
    rw [BitVec.getLsbD_setWidth, decide_eq_true (show i < 32 by omega), Bool.true_and]
  constructor
  · intro h i hi habove hdata
    have hout := h.outside i fun hhas => absurd hhas.2 (Nat.not_lt.mpr habove)
    rw [hnew, BitVec.getLsbD_setWidth, decide_eq_true hi, Bool.true_and,
      overlay_above (by decide) _ _ habove (by omega), hold i hi, hdata, Bool.or_true] at hout
    exact hout.symm
  · intro hspill
    refine ⟨?_, fun i hi => ?_, ?_, fun p a hne => ?_⟩
    · rw [queryRfReg_eq, hnew]
      refine extract_of_inside (by decide) fun i hi => ?_
      have hfits := f.fits
      rw [BitVec.getLsbD_setWidth, BitVec.getLsbD_setWidth, overlay_inside (by decide) _ _ hi,
        decide_eq_true (show f.shift + i < 32 by omega),
        decide_eq_true (show f.shift + i < 20 by omega)]
      rfl
    · rw [hnew, BitVec.getLsbD_setWidth]
      by_cases h20 : i < 20
      · rw [decide_eq_true h20, Bool.true_and]
        by_cases hbelow : i < f.shift
        · rw [overlay_below (by decide) _ _ hbelow, hold i h20]
        · have habove : f.shift + f.width ≤ i :=
            Nat.not_lt.mp fun hlt => hi ⟨Nat.not_lt.mp hbelow, hlt⟩
          rw [overlay_above (by decide) _ _ habove (by omega), hold i h20]
          cases hdata : data.getLsbD (i - f.shift)
          · exact Bool.or_false _
          · rw [hspill i h20 habove hdata]
            rfl
      · rw [decide_eq_false h20, Bool.false_and,
          BitVec.getLsbD_of_ge _ _ (Nat.not_lt.mp h20)]
    · rw [setRfReg_eq]
    · rw [setRfReg_eq]
      dsimp only
      by_cases hp : p = path.setWidth 8
      · have ha : a ≠ addr.setWidth 8 := hne.resolve_left (not_not.mpr hp)
        rw [hp, Function.update_self, Function.update_of_ne ha]
      · rw [Function.update_of_ne hp]

end rf

/-! ## When a masked write touches only its field -/

/-- It always does in a baseband register. In an RF register it does exactly if each bit of the
    data that lies above the field is one that is set in the register. -/
theorem masked_writes_right_iff (c : Chip) (addr data : BitVec 32) :
    (∀ f : Field 32, BbRight c addr data f) ∧
      ∀ (path : BitVec 32) (f : Field 20), RfRight c path addr data f ↔
        ∀ i < 20, f.shift + f.width ≤ i → data.getLsbD (i - f.shift) = true →
          (c.rfReg path addr).getLsbD i = true :=
  ⟨bb_right c addr data, fun path f => rf_right_iff c path addr data f⟩

/-- Bits 11 and 10, the bandwidth in `RF_CHNLBW`. -/
def bandwidthField : Field 20 := ⟨10, 2, by decide, by decide⟩

/-- A chip whose registers are zero. -/
def zeroChip : Chip := ⟨fun _ => 0, fun _ _ => 0⟩

/-- Three bits of data in a field of two: the third goes to bit 12. -/
theorem wideData_spills : ¬ RfRight zeroChip 0 0x18 7 bandwidthField := by
  intro h
  have hout := h.outside 12 (by decide)
  exact absurd hout (by decide)

end Rtl8821au.Phy.MaskedWrite
