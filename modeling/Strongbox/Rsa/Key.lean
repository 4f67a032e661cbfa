/-
  Strongbox.Rsa.Key — RSA keys and the two permutations they give.

  A public key is usable when its modulus is odd and has at most 4096 bits and its exponent
  is odd, at least 2, below 2³³ and below the modulus. A private key keeps the two primes; its
  exponents undo each other modulo each prime less one.
-/

import Strongbox.Bytes
import Strongbox.Number.Power

namespace Strongbox.Rsa

structure PublicKey where
  modulus : Nat
  exponent : Nat
  deriving DecidableEq, Repr

structure PrivateKey where
  publicKey : PublicKey
  exponent : Nat
  firstPrime : Nat
  secondPrime : Nat
  deriving DecidableEq, Repr

def PublicKey.size (k : PublicKey) : Nat := Bytes.widthOf k.modulus

def PrivateKey.size (k : PrivateKey) : Nat := k.publicKey.size

def PublicKey.isUsable (k : PublicKey) : Bool :=
  k.modulus.log2 < 4096 && k.modulus % 2 == 1 && k.exponent % 2 == 1 && 2 ≤ k.exponent
    && k.exponent.log2 < 33 && k.exponent < k.modulus

def PrivateKey.isUsable (k : PrivateKey) : Bool :=
  let matched := k.exponent * k.publicKey.exponent
  k.publicKey.isUsable && k.firstPrime * k.secondPrime == k.publicKey.modulus
    && matched % (k.firstPrime - 1) == 1 && matched % (k.secondPrime - 1) == 1

inductive KeyDefect where
  | modulusTooLarge
  | exponentTooLarge
  | invalidModulus
  | invalidExponent
  | exponentTooSmall
  deriving DecidableEq, Repr

def KeyDefect.message : KeyDefect → String
  | modulusTooLarge => "modulus too large"
  | exponentTooLarge => "public exponent too large"
  | invalidModulus => "invalid modulus"
  | invalidExponent => "invalid exponent"
  | exponentTooSmall => "public exponent too small"

def PublicKey.defect? (k : PublicKey) : Option KeyDefect :=
  if 4096 ≤ k.modulus.log2 then some .modulusTooLarge
  else if 64 ≤ k.exponent.log2 then some .exponentTooLarge
  else if k.modulus ≤ k.exponent ∨ k.modulus % 2 = 0 then some .invalidModulus
  else if k.exponent % 2 = 0 then some .invalidExponent
  else if k.exponent < 2 then some .exponentTooSmall
  else if 33 ≤ k.exponent.log2 then some .exponentTooLarge
  else none

inductive Error where
  | decryption
  | messageTooLong
  | inconsistentKey
  | unusableKey (defect : KeyDefect)
  deriving DecidableEq, Repr

def Error.message : Error → String
  | .decryption => "decryption error"
  | .messageTooLong => "message too long"
  | .inconsistentKey => "internal error"
  | .unusableKey defect => defect.message

def PublicKey.check (k : PublicKey) : Except Error Unit :=
  match k.defect? with
  | none => .ok ()
  | some defect => .error (.unusableKey defect)

def PublicKey.apply (k : PublicKey) (m : Nat) : Nat := Number.powMod k.modulus m k.exponent

/-- The private permutation; the result is checked with the public one. -/
def PrivateKey.apply (k : PrivateKey) (c : Nat) : Except Error Nat :=
  if c ≥ k.publicKey.modulus then .error .decryption
  else
    let m := Number.powMod k.publicKey.modulus c k.exponent
    if k.publicKey.apply m = c then .ok m else .error .inconsistentKey

theorem PublicKey.defect?_eq_none_iff {k : PublicKey} : k.defect? = none ↔ k.isUsable = true := by
  have hlog : k.exponent.log2 < 33 → ¬ 64 ≤ k.exponent.log2 := by omega
  simp only [defect?, isUsable, Bool.and_eq_true, decide_eq_true_eq, beq_iff_eq]
  grind

theorem PublicKey.check_eq_ok_iff {k : PublicKey} : k.check = .ok () ↔ k.isUsable = true := by
  rw [← defect?_eq_none_iff, check]
  cases k.defect? <;> simp

end Strongbox.Rsa
