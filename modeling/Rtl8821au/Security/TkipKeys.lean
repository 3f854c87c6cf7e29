import Mathlib.Data.UInt
import Mathlib.Tactic.FinCases
import Rtl8821au.Lib.Feistel
import Rtl8821au.Security.TkipMix

/-!
# TKIP keys are unique

`phase1` and `phase2` (`rtw_security.c`, lines 551–643) mix the packet number into the
temporal key in steps that can each be taken back, as the comments there promise, and
`phase2` leaves its 96-bit register in the RC4 key.

* `phase1_injective`: the transmitter's address and the upper 32 bits can be recovered from
  the phase 1 key.
* `phase2_injective`: the phase 1 key and the lower 16 bits can be recovered from the RC4 key.
* `tkipRc4Key_ne`: two packet numbers have different RC4 keys.
-/

namespace Rtl8821au.Security

open Recv (Bytes MacAddr)

/-- `x[i] += g(x[j])`. -/
def mixStep {n : ℕ} (i j : Fin n) (hji : j ≠ i) (g : UInt16 → UInt16) :
    Feistel.Step (Fin n) UInt16 where
  pos := i
  gain x := g (x j)
  gain_congr _ _ h := congrArg g (h j hji)

/-! ## Phase 1 -/

theorem five_neZero : NeZero 5 := ⟨by decide⟩

theorem seven_neZero : NeZero 7 := ⟨by decide⟩

theorem eight_neZero : NeZero 8 := ⟨by decide⟩

attribute [local instance] five_neZero seven_neZero eight_neZero

theorem key_lt (k : Fin 7) : k.val < 8 := Nat.lt_succ_of_lt k.isLt

theorem nextKey_lt (k : Fin 7) : k.val + 1 < 8 := Nat.succ_lt_succ k.isLt

/-- `TK16((i&1)+k)`. -/
def roundKey (tk : Block) (i : ℕ) (k : Fin 7) : UInt16 :=
  if i % 2 = 1 then tk16 tk ⟨k.val + 1, nextKey_lt k⟩ else tk16 tk ⟨k.val, key_lt k⟩

/-- The steps of one round of `phase1`. -/
def phase1Steps (tk : Block) (i : ℕ) : List (Feistel.Step (Fin 5) UInt16) :=
  [mixStep 0 4 (by decide) fun v => sboxS (v ^^^ roundKey tk i 0),
    mixStep 1 0 (by decide) fun v => sboxS (v ^^^ roundKey tk i 2),
    mixStep 2 1 (by decide) fun v => sboxS (v ^^^ roundKey tk i 4),
    mixStep 3 2 (by decide) fun v => sboxS (v ^^^ roundKey tk i 6),
    mixStep 4 3 (by decide) fun v => sboxS (v ^^^ roundKey tk i 0) + UInt16.ofNat i]

theorem phase1Round_get (tk : Block) (p : P1k) (i : ℕ) :
    (phase1Round tk p i).get = Feistel.run (phase1Steps tk i) p.get := by
  funext j
  fin_cases j <;>
    simp [phase1Round, phase1Steps, Feistel.Step.apply, mixStep, Function.update, roundKey,
      Vector.get, UInt16.add_assoc]

theorem get_inj {α : Type*} {n : ℕ} {v w : Vector α n} (h : v.get = w.get) : v = w := by
  apply Vector.ext
  intro i hi
  exact congrFun h ⟨i, hi⟩

theorem phase1Round_injective (tk : Block) (i : ℕ) :
    Function.Injective fun p : P1k => phase1Round tk p i := by
  intro p q h
  apply get_inj
  apply Feistel.run_injective (phase1Steps tk i)
  rw [← phase1Round_get, ← phase1Round_get]
  exact congrArg Vector.get h

/-- Rounds in any number and order. -/
theorem phase1Rounds_injective (tk : Block) (is : List ℕ) :
    Function.Injective fun p : P1k => is.foldl (phase1Round tk) p := by
  induction is with
  | nil => exact Function.injective_id
  | cons i is ih =>
    intro p q h
    exact phase1Round_injective tk i (ih h)

theorem lo8_hi8_inj {v w : UInt16} (hlo : lo8 v = lo8 w) (hhi : hi8 v = hi8 w) : v = w := by
  have hlo' : v.toNat % 256 = w.toNat % 256 := by
    simpa [lo8] using congrArg UInt8.toNat hlo
  have hhi' : v.toNat / 256 % 256 = w.toNat / 256 % 256 := by
    simpa [hi8, Nat.shiftRight_eq_div_pow] using congrArg UInt8.toNat hhi
  have hv := v.toNat_lt
  have hw := w.toNat_lt
  apply UInt16.toNat_inj.mp
  omega

@[simp] theorem lo8_mk16 (hi lo : UInt8) : lo8 (mk16 hi lo) = lo := by
  apply UInt8.toBitVec_inj.mp
  apply BitVec.eq_of_getLsbD_eq
  intro i hi
  simp [lo8, mk16, hi]

@[simp] theorem hi8_mk16 (hi lo : UInt8) : hi8 (mk16 hi lo) = hi := by
  apply UInt8.toBitVec_inj.mp
  apply BitVec.eq_of_getLsbD_eq
  intro i h
  have h16 : i < 16 := by omega
  have hsum : 8 + i < 16 := by omega
  simp [hi8, mk16, h, h16, hsum]

theorem mk16_inj {hi lo hi' lo' : UInt8} (h : mk16 hi lo = mk16 hi' lo') : hi = hi' ∧ lo = lo' := by
  have hhi := congrArg hi8 h
  have hlo := congrArg lo8 h
  rw [hi8_mk16, hi8_mk16] at hhi
  rw [lo8_mk16, lo8_mk16] at hlo
  exact ⟨hhi, hlo⟩

/-- `Lo16` and `Hi16`. -/
theorem lo16_hi16_inj {v w : UInt32} (hlo : v.toUInt16 = w.toUInt16)
    (hhi : (v >>> 16).toUInt16 = (w >>> 16).toUInt16) : v = w := by
  have hlo' : v.toNat % 65536 = w.toNat % 65536 := by
    simpa using congrArg UInt16.toNat hlo
  have hhi' : v.toNat / 65536 % 65536 = w.toNat / 65536 % 65536 := by
    simpa [Nat.shiftRight_eq_div_pow] using congrArg UInt16.toNat hhi
  have hv := v.toNat_lt
  have hw := w.toNat_lt
  apply UInt32.toNat_inj.mp
  omega

theorem getD_eq_get (ta : MacAddr) (i : Fin 6) : ta.getD i 0 = ta.get i := by
  obtain ⟨i, hi⟩ := i
  simp [Vector.getD, Vector.get, hi]

theorem macAddr_ext {ta ta' : MacAddr} (h : ∀ i : Fin 6, ta.getD i 0 = ta'.getD i 0) :
    ta = ta' := by
  apply get_inj
  funext i
  rw [← getD_eq_get, ← getD_eq_get]
  exact h i

/-- The phase 1 key determines the address and the upper 32 bits of the packet number. -/
theorem phase1_injective {tk : Block} {ta ta' : MacAddr} {iv32 iv32' : UInt32}
    (h : phase1 tk ta iv32 = phase1 tk ta' iv32') : ta = ta' ∧ iv32 = iv32' := by
  have hstart := congrArg Vector.toList (phase1Rounds_injective tk _ h)
  simp only [Vector.toList_mk, List.cons.injEq, and_true] at hstart
  obtain ⟨hlo, hhi, h10, h32, h54⟩ := hstart
  refine ⟨?_, lo16_hi16_inj hlo hhi⟩
  obtain ⟨h1, h0⟩ := mk16_inj h10
  obtain ⟨h3, h2⟩ := mk16_inj h32
  obtain ⟨h5, h4⟩ := mk16_inj h54
  apply macAddr_ext
  intro i
  fin_cases i
  · exact h0
  · exact h1
  · exact h2
  · exact h3
  · exact h4
  · exact h5

/-! ## Phase 2 -/

/-- `PPK[0..5]` before the mixing. -/
def ppkStart (p1k : P1k) (iv16 : UInt16) : Vector UInt16 6 :=
  #v[p1k.get 0, p1k.get 1, p1k.get 2, p1k.get 3, p1k.get 4, p1k.get 4 + iv16]

/-- Each word gains from the one before it, the first from the last. -/
def ppkSweep (g0 g1 g2 g3 g4 g5 : UInt16 → UInt16) : List (Feistel.Step (Fin 6) UInt16) :=
  [mixStep 0 5 (by decide) g0, mixStep 1 0 (by decide) g1, mixStep 2 1 (by decide) g2,
    mixStep 3 2 (by decide) g3, mixStep 4 3 (by decide) g4, mixStep 5 4 (by decide) g5]

theorem run_ppkSweep (g0 g1 g2 g3 g4 g5 : UInt16 → UInt16) (a0 a1 a2 a3 a4 a5 : UInt16) :
    Feistel.run (ppkSweep g0 g1 g2 g3 g4 g5) (Vector.get #v[a0, a1, a2, a3, a4, a5]) =
      let b0 := a0 + g0 a5
      let b1 := a1 + g1 b0
      let b2 := a2 + g2 b1
      let b3 := a3 + g3 b2
      let b4 := a4 + g4 b3
      let b5 := a5 + g5 b4
      Vector.get #v[b0, b1, b2, b3, b4, b5] := by
  funext i
  fin_cases i <;>
    simp [ppkSweep, Feistel.Step.apply, mixStep, Function.update, Vector.get]

/-- The steps of `phase2`: the mixing through the S-box and the final sweep. -/
def phase2Steps (tk : Block) : List (Feistel.Step (Fin 6) UInt16) :=
  ppkSweep (fun v => sboxS (v ^^^ tk16 tk 0)) (fun v => sboxS (v ^^^ tk16 tk 1))
      (fun v => sboxS (v ^^^ tk16 tk 2)) (fun v => sboxS (v ^^^ tk16 tk 3))
      (fun v => sboxS (v ^^^ tk16 tk 4)) (fun v => sboxS (v ^^^ tk16 tk 5)) ++
    ppkSweep (fun v => rotR1 (v ^^^ tk16 tk 6)) (fun v => rotR1 (v ^^^ tk16 tk 7))
      rotR1 rotR1 rotR1 rotR1

/-- `rc4key` of the last value of `PPK`. -/
def rc4KeyOf (tk : Block) (iv16 : UInt16) (ppk : Fin 6 → UInt16) : Bytes :=
  [hi8 iv16, (hi8 iv16 ||| 0x20) &&& 0x7f, lo8 iv16, lo8 ((ppk 5 ^^^ tk16 tk 0) >>> 1),
    lo8 (ppk 0), hi8 (ppk 0), lo8 (ppk 1), hi8 (ppk 1), lo8 (ppk 2), hi8 (ppk 2),
    lo8 (ppk 3), hi8 (ppk 3), lo8 (ppk 4), hi8 (ppk 4), lo8 (ppk 5), hi8 (ppk 5)]

theorem phase2_eq (tk : Block) (p1k : P1k) (iv16 : UInt16) :
    phase2 tk p1k iv16 =
      rc4KeyOf tk iv16 (Feistel.run (phase2Steps tk) (ppkStart p1k iv16).get) := by
  rw [phase2Steps, Feistel.run_append, ppkStart, run_ppkSweep, run_ppkSweep]
  rfl

/-- All of `PPK` and `iv16` is in the RC4 key. -/
theorem rc4KeyOf_inj {tk : Block} {iv16 iv16' : UInt16} {ppk ppk' : Fin 6 → UInt16}
    (h : rc4KeyOf tk iv16 ppk = rc4KeyOf tk iv16' ppk') : iv16 = iv16' ∧ ppk = ppk' := by
  simp only [rc4KeyOf, List.cons.injEq, and_true] at h
  obtain ⟨hhi, -, hlo, -, l0, h0, l1, h1, l2, h2, l3, h3, l4, h4, l5, h5⟩ := h
  refine ⟨lo8_hi8_inj hlo hhi, ?_⟩
  funext i
  fin_cases i
  · exact lo8_hi8_inj l0 h0
  · exact lo8_hi8_inj l1 h1
  · exact lo8_hi8_inj l2 h2
  · exact lo8_hi8_inj l3 h3
  · exact lo8_hi8_inj l4 h4
  · exact lo8_hi8_inj l5 h5

/-- The first five words of `PPK` are the phase 1 key. -/
theorem ppkStart_inj {p q : P1k} {iv16 iv16' : UInt16} (h : ppkStart p iv16 = ppkStart q iv16') :
    p = q := by
  have hlist := congrArg Vector.toList h
  simp only [ppkStart, Vector.toList_mk, List.cons.injEq] at hlist
  obtain ⟨h0, h1, h2, h3, h4, -⟩ := hlist
  apply get_inj
  funext i
  fin_cases i
  all_goals assumption

/-- The RC4 key determines the phase 1 key and the lower 16 bits of the packet number. -/
theorem phase2_injective {tk : Block} {p q : P1k} {iv16 iv16' : UInt16}
    (h : phase2 tk p iv16 = phase2 tk q iv16') : p = q ∧ iv16 = iv16' := by
  rw [phase2_eq, phase2_eq] at h
  obtain ⟨hiv, hppk⟩ := rc4KeyOf_inj h
  have hstart := get_inj (Feistel.run_injective _ hppk)
  exact ⟨ppkStart_inj hstart, hiv⟩

/-! ## The RC4 key -/

theorem rc4Key_injective {tk : Block} {ta ta' : MacAddr} {iv32 iv32' : UInt32}
    {iv16 iv16' : UInt16}
    (h : phase2 tk (phase1 tk ta iv32) iv16 = phase2 tk (phase1 tk ta' iv32') iv16') :
    ta = ta' ∧ iv32 = iv32' ∧ iv16 = iv16' := by
  obtain ⟨hp1k, hiv16⟩ := phase2_injective h
  obtain ⟨hta, hiv32⟩ := phase1_injective hp1k
  exact ⟨hta, hiv32, hiv16⟩

/-- `pnh` and `pnl` make up the packet number. -/
theorem pn_inj {pn pn' : ℕ} (hpn : pn < 2 ^ 48) (hpn' : pn' < 2 ^ 48)
    (hhi : UInt32.ofNat (pn / 65536) = UInt32.ofNat (pn' / 65536))
    (hlo : UInt16.ofNat pn = UInt16.ofNat pn') : pn = pn' := by
  have hhi' : pn / 65536 % 2 ^ 32 = pn' / 65536 % 2 ^ 32 := by
    simpa only [UInt32.toNat_ofNat'] using congrArg UInt32.toNat hhi
  have hlo' : pn % 2 ^ 16 = pn' % 2 ^ 16 := by
    simpa only [UInt16.toNat_ofNat'] using congrArg UInt16.toNat hlo
  omega

/-- Under one temporal key the RC4 key determines the transmitter and the packet number, so
    no two packet numbers share one, and the phase 1 key of a number determines the
    transmitter. -/
theorem tkip_keys_unique (tk : Block) :
    (∀ ta ta' iv32 iv32' iv16 iv16',
      phase2 tk (phase1 tk ta iv32) iv16 = phase2 tk (phase1 tk ta' iv32') iv16' →
        ta = ta' ∧ iv32 = iv32' ∧ iv16 = iv16') ∧
    (∀ ta pn pn', pn < 2 ^ 48 → pn' < 2 ^ 48 → pn ≠ pn' →
      tkipRc4Key tk ta pn ≠ tkipRc4Key tk ta pn') ∧
    ∀ iv32, Function.Injective fun ta => phase1 tk ta iv32 := by
  refine ⟨?_, ?_, ?_⟩
  · intro ta ta' iv32 iv32' iv16 iv16' h
    exact rc4Key_injective h
  · intro ta pn pn' hpn hpn' hne h
    obtain ⟨-, hhi, hlo⟩ := rc4Key_injective h
    exact hne (pn_inj hpn hpn' hhi hlo)
  · intro iv32 ta ta' h
    exact (phase1_injective h).1

theorem tkip_keys_unique_zero :
    tkipRc4Key (Vector.replicate 16 0) (Vector.replicate 6 0) 0 ≠
      tkipRc4Key (Vector.replicate 16 0) (Vector.replicate 6 0) 65536 :=
  (tkip_keys_unique (Vector.replicate 16 0)).2.1 _ 0 65536 (by decide) (by decide) (by decide)

end Rtl8821au.Security
