import Mathlib.Data.Fintype.Basic
import Mathlib.Tactic.FinCases
import Mathlib.Tactic.IntervalCases
import Rtl8821au.Lib.Fips197
import Rtl8821au.Security.Aes

/-!
# The byte-oriented AES

`aes128k128d` (`rtw_security.c`, lines 859–1134) is the cipher of FIPS-197.

* `toState_mixColumns`, `toState_nextKey`: the column products and the round keys.
* `aesRounds_eq`: the state and the round key after every round.
* `aes128k128d_eq`: the cipher.
-/

namespace Rtl8821au.Security

open Fips197 (State)

/-! ## Blocks as states -/

theorem byte_lt (c r : Fin 4) : 4 * c.val + r.val < 16 := by omega

/-- Byte `4 c + r` stands in column `c` and row `r`. -/
def toState (b : Block) : State := fun c r => b.get ⟨4 * c.val + r.val, byte_lt c r⟩

def ofState (s : State) : Block :=
  Vector.ofFn fun i => s ⟨i.val / 4, by omega⟩ ⟨i.val % 4, by omega⟩

/-- The AES-128 encryption of `pt`. -/
def fips197Encrypt (key pt : Block) : Block :=
  ofState (Fips197.cipher (toState key) (toState pt))

theorem ofState_toState (b : Block) : ofState (toState b) = b := by
  apply Vector.ext
  intro i hi
  have hdiv : 4 * (i / 4) + i % 4 = i := by omega
  simp only [ofState, toState, Vector.getElem_ofFn, hdiv]
  rfl

/-! ## The steps of a round -/

theorem sbox_eq (a : UInt8) : sbox a = Fips197.subByte a := by
  obtain ⟨⟨a⟩⟩ := a
  revert a
  decide +kernel

theorem toState_byteSub (b : Block) : toState (byteSub b) = Fips197.subBytes (toState b) := by
  funext c r
  show (b.map sbox).get _ = Fips197.subByte (b.get _)
  rw [← sbox_eq]
  exact Vector.getElem_map sbox _

theorem toState_shiftRow (b : Block) : toState (shiftRow b) = Fips197.shiftRows (toState b) := by
  funext c r
  fin_cases c <;> fin_cases r <;> rfl

/-- The shift in `mix_column` carries nothing, for bit 7 of each byte is masked. -/
theorem shiftByte_masked (x y : UInt8) : shiftByte (x &&& 0x7f) (y &&& 0x7f) = (x &&& 0x7f) <<< 1 := by
  have hcarry : ¬ (y &&& 0x7f) &&& 0x80 = 0x80 := by
    rw [UInt8.and_assoc]
    have hzero : y &&& (0x7f &&& 0x80) = 0 := UInt8.and_zero
    rw [hzero]
    decide
  rw [shiftByte, if_neg hcarry]

/-- `add1bf7`. -/
theorem add1bf7_eq (x : UInt8) :
    (if x &&& 0x80 = 0x80 then (0x1b : UInt8) else 0) ^^^ (x &&& 0x7f) <<< 1 = Fips197.mul 2 x := by
  obtain ⟨⟨x⟩⟩ := x
  revert x
  decide +kernel

theorem shift_fe (x : UInt8) : x <<< (1 : UInt8) &&& (0xfe : UInt8) = x <<< (1 : UInt8) := by
  obtain ⟨⟨x⟩⟩ := x
  revert x
  decide +kernel

theorem mul_three (x : UInt8) : Fips197.mul 3 x = x ^^^ Fips197.mul 2 x := by
  obtain ⟨⟨x⟩⟩ := x
  revert x
  decide +kernel

theorem xor32_getElem (a b : Column) {i : ℕ} (hi : i < 4) : (xor32 a b)[i] = a[i] ^^^ b[i] :=
  Vector.getElem_ofFn hi

/-- `{02}` and `{03}` times the bytes of a column. -/
theorem mixColumn_eq (b : Column) :
    mixColumn b =
      #v[Fips197.mul 2 (b.get 0) ^^^ Fips197.mul 3 (b.get 1) ^^^ b.get 2 ^^^ b.get 3,
        Fips197.mul 2 (b.get 1) ^^^ Fips197.mul 3 (b.get 2) ^^^ b.get 3 ^^^ b.get 0,
        Fips197.mul 2 (b.get 2) ^^^ Fips197.mul 3 (b.get 3) ^^^ b.get 0 ^^^ b.get 1,
        Fips197.mul 2 (b.get 3) ^^^ Fips197.mul 3 (b.get 0) ^^^ b.get 1 ^^^ b.get 2] := by
  have h0 : b.get 0 = b[0] := rfl
  have h1 : b.get 1 = b[1] := rfl
  have h2 : b.get 2 = b[2] := rfl
  have h3 : b.get 3 = b[3] := rfl
  rw [h0, h1, h2, h3]
  apply Vector.ext
  intro i hi
  unfold mixColumn
  interval_cases i <;>
    simp [xor32_getElem, shiftByte_masked, shift_fe, add1bf7_eq, mul_three, UInt8.xor_assoc]

theorem toState_ofColumns (c0 c1 c2 c3 : Column) :
    toState (ofColumns c0 c1 c2 c3) = ![c0.get, c1.get, c2.get, c3.get] := by
  funext c r
  fin_cases c <;> fin_cases r <;> rfl

theorem column_get (b : Block) (c : Fin 4) : (column b c).get = toState b c := by
  funext r
  exact Vector.getElem_ofFn _

theorem mixColumn_get (s : State) (c : Fin 4) (b : Column) (hb : b.get = s c) :
    (mixColumn b).get = Fips197.mixColumns s c := by
  have h (r : Fin 4) : s c r = b.get r := by rw [hb]
  rw [mixColumn_eq]
  funext r
  simp only [Fips197.mixColumns, h]
  fin_cases r <;> rfl

theorem toState_mixColumns (b : Block) :
    toState (ofColumns (mixColumn (column b 0)) (mixColumn (column b 1))
      (mixColumn (column b 2)) (mixColumn (column b 3))) = Fips197.mixColumns (toState b) := by
  rw [toState_ofColumns]
  funext c
  fin_cases c
  all_goals exact mixColumn_get _ _ _ (column_get b _)

theorem toState_xor128 (a b : Block) :
    toState (xor128 a b) = Fips197.addRoundKey (toState b) (toState a) := by
  funext c r
  exact Vector.getElem_ofFn _

theorem xor128_comm (a b : Block) : xor128 a b = xor128 b a := by
  apply Vector.ext
  intro i hi
  simp only [xor128, Vector.getElem_ofFn, UInt8.xor_comm]

theorem rconTable_eq {n : ℕ} (hn : n < 10) : rconTable.getD n 0 = Fips197.rcon (n + 1) 0 := by
  interval_cases n <;> rfl

theorem xor32_get (a b : Column) : (xor32 a b).get = Fips197.xorWord a.get b.get := by
  funext r
  exact Vector.getElem_ofFn _

theorem sboxKey_get (key : Block) (r : Fin 4) :
    Vector.get #v[sbox (key.get 13), sbox (key.get 14), sbox (key.get 15), sbox (key.get 12)] r =
      sbox (Fips197.rotWord (toState key 3) r) := by
  have h0 : key.get 13 = toState key 3 1 := rfl
  have h1 : key.get 14 = toState key 3 2 := rfl
  have h2 : key.get 15 = toState key 3 3 := rfl
  have h3 : key.get 12 = toState key 3 0 := rfl
  rw [h0, h1, h2, h3]
  -- the table must not be unfolded
  generalize toState key 3 = w
  generalize sbox = f
  fin_cases r <;> rfl

/-- The first word of the next round key. -/
theorem nextKey_first (key : Block) {n : ℕ} (hn : n < 10) {k0 : Column}
    (hk0 : k0 = xor32 (column key 0) #v[sbox key[13], sbox key[14], sbox key[15], sbox key[12]]) :
    (k0.set 0 (k0[0] ^^^ rconTable.getD n 0)).get =
      Fips197.xorWord (toState key 0) (Fips197.xorWord (Fips197.subWord
        (Fips197.rotWord (toState key 3))) (Fips197.rcon (n + 1))) := by
  have hget (r : Fin 4) : k0.get r =
      toState key 0 r ^^^ Fips197.subWord (Fips197.rotWord (toState key 3)) r := by
    rw [hk0, xor32_get, column_get]
    show _ ^^^ _ = _ ^^^ Fips197.subByte _
    rw [← sbox_eq]
    exact congrArg _ (sboxKey_get key r)
  have htail (r : Fin 3) : Fips197.rcon (n + 1) r.succ = 0 := if_neg (Fin.succ_ne_zero r)
  rw [rconTable_eq hn]
  funext r
  refine Fin.cases ?_ (fun r => ?_) r
  · show (k0.set 0 _)[0] = _ ^^^ (_ ^^^ _)
    rw [Vector.getElem_set_self, ← UInt8.xor_assoc, ← hget]
    rfl
  · show (k0.set 0 _)[r.val + 1] = _ ^^^ (_ ^^^ _)
    rw [Vector.getElem_set_ne _ _ (by omega), htail, UInt8.xor_zero, ← hget]
    rfl

theorem toState_nextKey (key : Block) {n : ℕ} (hn : n < 10) :
    toState (nextKey key n) = Fips197.nextRoundKey (n + 1) (toState key) := by
  unfold nextKey
  simp only [toState_ofColumns, xor32_get, column_get, nextKey_first key hn rfl]
  rfl

/-! ## The loop -/

theorem aesRound_zero (key data c : Block) :
    toState (aesRound data (c, key) 0).1 = Fips197.rounds (toState key) (toState data) 0 ∧
      toState (aesRound data (c, key) 0).2 = Fips197.roundKey (toState key) 1 := by
  constructor
  · show toState (xor128 key data) = _
    rw [xor128_comm, toState_xor128, Fips197.rounds, Fips197.roundKey_zero]
  · show toState (nextKey key 0) = _
    rw [toState_nextKey key (by decide), Fips197.roundKey_succ, Fips197.roundKey_zero]

/-- A full round. -/
theorem aesRound_succ (key data : Block) {n : ℕ} (hn : n + 1 < 10) {st : Block × Block}
    (hc : toState st.1 = Fips197.rounds (toState key) (toState data) n)
    (hk : toState st.2 = Fips197.roundKey (toState key) (n + 1)) :
    toState (aesRound data st (n + 1)).1 =
        Fips197.rounds (toState key) (toState data) (n + 1) ∧
      toState (aesRound data st (n + 1)).2 = Fips197.roundKey (toState key) (n + 2) := by
  have hround : aesRound data st (n + 1) =
      (xor128 (ofColumns (mixColumn (column (shiftRow (byteSub st.1)) 0))
        (mixColumn (column (shiftRow (byteSub st.1)) 1))
        (mixColumn (column (shiftRow (byteSub st.1)) 2))
        (mixColumn (column (shiftRow (byteSub st.1)) 3))) st.2, nextKey st.2 (n + 1)) := by
    unfold aesRound
    dsimp only
    rw [if_neg (Nat.succ_ne_zero n), if_neg (by omega)]
  rw [hround]
  constructor
  · rw [toState_xor128, toState_mixColumns, toState_shiftRow, toState_byteSub, hc, hk]
    rfl
  · rw [toState_nextKey _ hn, hk, ← Fips197.roundKey_succ]

theorem aesRounds_eq (key data c : Block) {n : ℕ} (hn : n < 10) :
    toState ((List.range (n + 1)).foldl (aesRound data) (c, key)).1 =
        Fips197.rounds (toState key) (toState data) n ∧
      toState ((List.range (n + 1)).foldl (aesRound data) (c, key)).2 =
        Fips197.roundKey (toState key) (n + 1) := by
  induction n with
  | zero => exact aesRound_zero key data c
  | succ n ih =>
    obtain ⟨hc, hk⟩ := ih (by omega)
    rw [List.range_succ, List.foldl_append]
    exact aesRound_succ key data hn hc hk

theorem aes128k128d_eq (key data : Block) : aes128k128d key data = fips197Encrypt key data := by
  have hrounds := aesRounds_eq key data (Vector.replicate 16 0) (show 9 < 10 by decide)
  have hlast : aes128k128d key data = (aesRound data
      ((List.range (9 + 1)).foldl (aesRound data) (Vector.replicate 16 0, key)) 10).1 := by
    rw [aes128k128d, List.range_succ, List.foldl_append]
    rfl
  generalize (List.range (9 + 1)).foldl (aesRound data) (Vector.replicate 16 0, key) = st at *
  obtain ⟨hc, hk⟩ := hrounds
  rw [hlast, ← ofState_toState (Prod.fst _), fips197Encrypt]
  show ofState (toState (xor128 (shiftRow (byteSub st.1)) st.2)) = _
  rw [toState_xor128, toState_shiftRow, toState_byteSub, hc, hk]
  rfl

end Rtl8821au.Security
