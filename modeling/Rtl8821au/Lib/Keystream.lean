import Mathlib.Data.List.Basic

/-!
# Stateful keystreams

A generator turns a state into the next state and one element of the keystream;
encryption combines the input with the keystream element by element. The state
after a part of the input is what the rest is encrypted from.

* `crypt_append`: a string may be encrypted in pieces.
* `crypt_crypt`: encrypting twice from one state is the identity.
-/

namespace Keystream

variable {σ β : Type*} (next : σ → σ × β) (xor : β → β → β)

/-- The state after `n` elements. -/
def after : ℕ → σ → σ
  | 0, s => s
  | n + 1, s => after n (next s).1

/-- `p` combined with the keystream from `s` on. -/
def crypt : σ → List β → List β
  | _, [] => []
  | s, b :: p => xor b (next s).2 :: crypt (next s).1 p

variable {next xor} {s : σ} {p q : List β}

@[simp] theorem length_crypt : (crypt next xor s p).length = p.length := by
  induction p generalizing s with
  | nil => rfl
  | cons b p ih => simp only [crypt, List.length_cons, ih]

theorem crypt_append :
    crypt next xor s (p ++ q) = crypt next xor s p ++ crypt next xor (after next p.length s) q := by
  induction p generalizing s with
  | nil => rfl
  | cons b p ih => simp only [List.cons_append, crypt, ih, List.length_cons, after]

theorem crypt_crypt (hx : ∀ a k, xor (xor a k) k = a) :
    crypt next xor s (crypt next xor s p) = p := by
  induction p generalizing s with
  | nil => rfl
  | cons b p ih => simp only [crypt, hx, ih]

end Keystream
