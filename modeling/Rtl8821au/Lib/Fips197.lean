import Mathlib.Algebra.Group.Nat.Defs
import Mathlib.Algebra.GroupWithZero.Nat
import Mathlib.Data.Fin.VecNotation
import Mathlib.Logic.Function.Iterate

/-!
# AES-128

The block cipher of FIPS-197 from its definition: bytes are polynomials over GF(2) modulo
`x^8 + x^4 + x^3 + x + 1`, the S-box is inversion followed by an affine map, and the key
schedule and the rounds work on columns of four bytes.

* `mul_inv`: `inv` inverts.
* `roundKey_succ`: the four words of a round key from those of the one before.
-/

namespace Fips197

/-! ## Bytes -/

/-- Multiplication by `x` of the polynomial whose coefficients are the bits of `n`. -/
def xtime (n : ℕ) : ℕ := if n < 128 then 2 * n else 2 * n ^^^ 0x11b

/-- The product of `a` with the low `n` bits of `b`. -/
def mulBits : ℕ → ℕ → ℕ → ℕ
  | 0, _, _ => 0
  | n + 1, a, b => (if b % 2 = 0 then 0 else a) ^^^ mulBits n (xtime a) (b / 2)

def mul (a b : UInt8) : UInt8 := UInt8.ofNat (mulBits 8 a.toNat b.toNat)

/-- `a ^ 254`, from `a ^ 2`, `a ^ 3`, `a ^ 12`, `a ^ 14`, `a ^ 15` and `a ^ 240`. -/
def inv (a : UInt8) : UInt8 :=
  let sq (b : UInt8) := mul b b
  let a2 := sq a
  let a3 := mul a2 a
  let a12 := sq (sq a3)
  let a14 := mul a12 a2
  let a15 := mul a12 a3
  mul (sq (sq (sq (sq a15)))) a14

theorem mul_inv (a : UInt8) : mul a (inv a) = if a = 0 then 0 else 1 := by
  obtain ⟨⟨a⟩⟩ := a
  revert a
  decide +kernel

/-- The byte turned left by `k` bits. -/
def rotl (b : UInt8) (k : UInt8) : UInt8 := b <<< k ||| b >>> (8 - k)

/-- The S-box. -/
def subByte (a : UInt8) : UInt8 :=
  let b := inv a
  b ^^^ rotl b 1 ^^^ rotl b 2 ^^^ rotl b 3 ^^^ rotl b 4 ^^^ 0x63

/-! ## State -/

theorem four_neZero : NeZero 4 := ⟨by decide⟩

attribute [local instance] four_neZero

/-- Four bytes: a column of the state, or a word of the key. -/
abbrev Word := Fin 4 → UInt8

/-- Byte `s c r` stands in column `c` and row `r`. -/
abbrev State := Fin 4 → Word

def xorWord (v w : Word) : Word := fun r => v r ^^^ w r

def subBytes (s : State) : State := fun c r => subByte (s c r)

def shiftRows (s : State) : State := fun c r => s (c + r) r

def mixColumns (s : State) : State :=
  fun c r => mul 2 (s c r) ^^^ mul 3 (s c (r + 1)) ^^^ s c (r + 2) ^^^ s c (r + 3)

/-! ## Key schedule -/

def subWord (w : Word) : Word := fun r => subByte (w r)

def rotWord (w : Word) : Word := fun r => w (r + 1)

/-- `x ^ (j - 1)` in the first byte. -/
def rcon (j : ℕ) : Word := fun r => if r = 0 then UInt8.ofNat (xtime^[j - 1] 1) else 0

def keyExpansion (key : State) (i : ℕ) : Word :=
  if h : i < 4 then key ⟨i, h⟩
  else
    xorWord (keyExpansion key (i - 4))
      (if i % 4 = 0 then xorWord (subWord (rotWord (keyExpansion key (i - 1)))) (rcon (i / 4))
      else keyExpansion key (i - 1))
termination_by i

/-- The words of round `n`. -/
def roundKey (key : State) (n : ℕ) : State := fun c => keyExpansion key (4 * n + c)

/-! ## Cipher -/

def addRoundKey (k s : State) : State := fun c => xorWord (s c) (k c)

/-- The state after `n` full rounds. -/
def rounds (key input : State) : ℕ → State
  | 0 => addRoundKey (roundKey key 0) input
  | n + 1 =>
    addRoundKey (roundKey key (n + 1)) (mixColumns (shiftRows (subBytes (rounds key input n))))

def cipher (key input : State) : State :=
  addRoundKey (roundKey key 10) (shiftRows (subBytes (rounds key input 9)))

/-! ## Round keys -/

/-- The words of round `n` from those of the round before. -/
def nextRoundKey (n : ℕ) (k : State) : State :=
  let w0 := xorWord (k 0) (xorWord (subWord (rotWord (k 3))) (rcon n))
  let w1 := xorWord (k 1) w0
  let w2 := xorWord (k 2) w1
  ![w0, w1, w2, xorWord (k 3) w2]

variable (key : State)

theorem roundKey_zero : roundKey key 0 = key := by
  funext c
  show keyExpansion key (4 * 0 + c) = _
  rw [keyExpansion, Nat.mul_zero, Nat.zero_add, dif_pos c.isLt]

theorem keyExpansion_first (n : ℕ) :
    keyExpansion key (4 * n + 4) =
      xorWord (keyExpansion key (4 * n))
        (xorWord (subWord (rotWord (keyExpansion key (4 * n + 3)))) (rcon (n + 1))) := by
  have hdiv : (4 * n + 4) / 4 = n + 1 := by omega
  conv => lhs; rw [keyExpansion, dif_neg (by omega)]
  rw [if_pos (by omega), hdiv]
  rfl

theorem keyExpansion_next (n : ℕ) {k : ℕ} (hk : k < 3) :
    keyExpansion key (4 * n + 4 + (k + 1)) =
      xorWord (keyExpansion key (4 * n + (k + 1))) (keyExpansion key (4 * n + 4 + k)) := by
  have hprev : 4 * n + 4 + (k + 1) - 4 = 4 * n + (k + 1) := by omega
  conv => lhs; rw [keyExpansion, dif_neg (by omega)]
  rw [if_neg (by omega), hprev]
  rfl

theorem roundKey_succ (n : ℕ) : roundKey key (n + 1) = nextRoundKey (n + 1) (roundKey key n) := by
  have h0 : roundKey key (n + 1) 0 = nextRoundKey (n + 1) (roundKey key n) 0 :=
    keyExpansion_first key n
  have h1 : roundKey key (n + 1) 1 = nextRoundKey (n + 1) (roundKey key n) 1 :=
    (keyExpansion_next key n (show 0 < 3 by decide)).trans (congrArg (xorWord _) h0)
  have h2 : roundKey key (n + 1) 2 = nextRoundKey (n + 1) (roundKey key n) 2 :=
    (keyExpansion_next key n (show 1 < 3 by decide)).trans (congrArg (xorWord _) h1)
  have h3 : roundKey key (n + 1) 3 = nextRoundKey (n + 1) (roundKey key n) 3 :=
    (keyExpansion_next key n (show 2 < 3 by decide)).trans (congrArg (xorWord _) h2)
  funext c
  match c with
  | 0 => exact h0
  | 1 => exact h1
  | 2 => exact h2
  | 3 => exact h3

end Fips197
