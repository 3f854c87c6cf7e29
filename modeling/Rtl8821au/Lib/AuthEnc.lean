import Mathlib.Data.List.Basic
import Mathlib.Data.List.GetD

/-!
# Counter mode with a CBC-MAC

Authenticated encryption of byte strings: the plaintext is combined with a
keystream, and a tag over the plaintext is combined with a mask. Nothing is
assumed of the block cipher; of the operation that combines bytes only that
combining twice with the same byte undoes it.

* `xorStream_xorStream`: the stream cipher is an involution.
* `Scheme.decrypt_encrypt`: a ciphertext with its tag is accepted and decrypts
  to the plaintext.
-/

namespace AuthEnc

variable {β : Type*}

/-! ## Streams -/

/-- `p` combined with the keystream `ks` byte by byte. -/
def xorStream (xor : β → β → β) (ks : ℕ → β) (p : List β) : List β :=
  p.mapIdx fun i b => xor b (ks i)

section stream

variable {xor : β → β → β} {ks : ℕ → β} {p : List β}

@[simp] theorem length_xorStream : (xorStream xor ks p).length = p.length := by simp [xorStream]

theorem getD_xorStream {z : β} {i : ℕ} (hi : i < p.length) :
    (xorStream xor ks p).getD i z = xor (p.getD i z) (ks i) := by
  simp [xorStream, List.getD_eq_getElem?_getD, hi]

theorem xorStream_xorStream (hx : ∀ a k, xor (xor a k) k = a) :
    xorStream xor ks (xorStream xor ks p) = p := by
  refine List.ext_getElem (by simp) fun i h1 h2 => ?_
  simp [xorStream, hx]

end stream

/-- Byte `i` of the keystream of a block cipher in counter mode. -/
def keystream {n : ℕ} (hn : 0 < n) (E : Vector β n → Vector β n) (ctr : ℕ → Vector β n) (i : ℕ) :
    β := (E (ctr (i / n))).get ⟨i % n, Nat.mod_lt i hn⟩

/-! ## Chaining -/

/-- Block `i` of `p`, padded with `z`. -/
def padBlock (n : ℕ) (z : β) (p : List β) (i : ℕ) : Vector β n :=
  Vector.ofFn fun j => p.getD (n * i + j.val) z

section chaining

variable {B : Type*} {E : B → B} {xorBlock : B → B → B} {f g : ℕ → B}

/-- The chaining value after the blocks `f 0 … f (k - 1)`. -/
def cbc (E : B → B) (xorBlock : B → B → B) (f : ℕ → B) (x : B) : ℕ → B
  | 0 => x
  | k + 1 => E (xorBlock (cbc E xorBlock f x k) (f k))

end chaining

/-! ## Authenticated encryption -/

/-- A keystream, a tag and a mask for the tag. -/
structure Scheme (β : Type*) where
  ks : ℕ → β
  mac : List β → List β
  mask : ℕ → β

namespace Scheme

variable (xor : β → β → β) (c : Scheme β)

/-- The masked tag of a plaintext. -/
def tag (p : List β) : List β := xorStream xor c.mask (c.mac p)

/-- Ciphertext and masked tag. -/
def encrypt (p : List β) : List β × List β := (xorStream xor c.ks p, c.tag xor p)

/-- The plaintext of a ciphertext. -/
def decrypt (x : List β) : List β := xorStream xor c.ks x

/-- The tag is the one of the plaintext. -/
def Accepts (x t : List β) : Prop := t = c.tag xor (c.decrypt xor x)

variable {xor}

theorem decrypt_encrypt (hx : ∀ a k, xor (xor a k) k = a) (p : List β) :
    c.decrypt xor (c.encrypt xor p).1 = p ∧
      c.Accepts xor (c.encrypt xor p).1 (c.encrypt xor p).2 := by
  have h : c.decrypt xor (c.encrypt xor p).1 = p := xorStream_xorStream hx
  refine ⟨h, ?_⟩
  rw [Accepts, h]
  rfl

end Scheme

end AuthEnc
