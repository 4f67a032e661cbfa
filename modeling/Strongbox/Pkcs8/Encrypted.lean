/-
  Strongbox.Pkcs8.Encrypted — private keys under a password (RFC 5958, RFC 8018).

  The algorithm says how a cipher key is derived from the password and which cipher was used.
  Some algorithms are recognised though nothing can be opened with them: the older schemes, and
  the one that derives keys with SHA-1.
-/

import Strongbox.Aes.Cbc
import Strongbox.Der.Value
import Strongbox.Password.Scrypt

namespace Strongbox.Pkcs8

open Der

/-- The hash function that derives a key, where it is one that is used. -/
inductive Prf where
  | retired
  | hash (h : Digest.HashFunction)

inductive KeyDerivation where
  | pbkdf2 (salt : Bytes) (iterations : Nat) (keySize : Option Nat) (prf : Prf)
  | scrypt (salt : Bytes) (cost width lanes : Nat) (keySize : Option Nat)

inductive Scheme where
  | retired
  | aesCbc (derivation : KeyDerivation) (keySize : Nat) (vector : Bytes)

structure EncryptedPrivateKeyInfo where
  scheme : Scheme
  data : Bytes

/-! ## Reading -/

def pkcs5 (n : Nat) : Oid := Oid.ofArcs [1, 2, 840, 113549, 1, 5, n]

/-- The schemes of the first generation, each with a salt of eight octets. -/
def firstGeneration : List Oid := [1, 3, 4, 6, 10, 11].map pkcs5

def prfs : List (Oid × Prf) :=
  [(7, .retired), (8, .hash .sha224), (9, .hash .sha256), (10, .hash .sha384),
    (11, .hash .sha512)].map fun (n, p) => (Oid.ofArcs [1, 2, 840, 113549, 2, n], p)

def ciphers : List (Oid × Nat) :=
  [(2, 16), (22, 24), (42, 32)].map fun (n, size) =>
    (Oid.ofArcs [2, 16, 840, 1, 101, 3, 4, 1, n], size)

/-- The hash function behind the other parameters; without one it is a retired one. -/
def prf : Parser Prf := do
  if (← get).isEmpty then return .retired
  let a ← algorithmIdentifier
  if a.parameters ≠ some nullElement then failure
  match prfs.lookup a.algorithm with
  | some p => return p
  | none => failure

def pbkdf2Parser : Parser KeyDerivation := sequence do
  let salt ← octetString
  let iterations ← word 32
  if iterations > 100000000 then failure
  let keySize ← word? 16
  return .pbkdf2 salt iterations keySize (← prf)

def scryptParser : Parser KeyDerivation := sequence do
  let salt ← octetString
  let cost ← word 64
  let width ← word 16
  let lanes ← word 16
  return .scrypt salt cost width lanes (← word? 16)

def parametersOf (p : Parser α) (a : AlgorithmIdentifier) : Option α :=
  a.parameters.bind fun e => p.whole e.encode

def derivation? (a : AlgorithmIdentifier) : Option KeyDerivation :=
  if a.algorithm = pkcs5 12 then parametersOf pbkdf2Parser a
  else if a.algorithm = Oid.ofArcs [1, 3, 6, 1, 4, 1, 11591, 4, 11] then parametersOf scryptParser a
  else none

def cipher? (a : AlgorithmIdentifier) : Option (Nat × Bytes) := do
  let size ← ciphers.lookup a.algorithm
  let vector ← parametersOf octetString a
  if vector.length = 16 then some (size, vector) else none

def secondGeneration : Parser Scheme := sequence do
  match derivation? (← algorithmIdentifier), cipher? (← algorithmIdentifier) with
  | some d, some (size, vector) => return .aesCbc d size vector
  | _, _ => failure

def firstGenerationParser : Parser Scheme := sequence do
  let salt ← octetString
  discard (word 16)
  if salt.length = 8 then return .retired else failure

def scheme? (a : AlgorithmIdentifier) : Option Scheme :=
  if a.algorithm = pkcs5 13 then parametersOf secondGeneration a
  else if firstGeneration.contains a.algorithm then parametersOf firstGenerationParser a
  else none

def EncryptedPrivateKeyInfo.parser : Parser EncryptedPrivateKeyInfo := sequence do
  match scheme? (← algorithmIdentifier) with
  | some s => return ⟨s, ← octetString⟩
  | none => failure

/-! ## Opening -/

/-- The parameters with which keys can be derived: a cost that is a power of two above one with
at most 16 * width - 1 zero bits, and not too much work in all. -/
def isUsableCost (cost width lanes : Nat) : Bool :=
  0 < width && 0 < lanes && 1 < cost && cost == 1 <<< cost.log2 && cost.log2 < 16 * width
    && width * lanes < 0x40000000

/-- A cipher key of `size` octets. A size that is written down must be the same. -/
def KeyDerivation.derive? (password : Bytes) (size : Nat) : KeyDerivation → Option Bytes
  | pbkdf2 salt iterations keySize (.hash h) =>
    if keySize.all (· == size) then some (Password.pbkdf2 h password salt iterations size) else none
  | pbkdf2 _ _ _ .retired => none
  | scrypt salt cost width lanes keySize =>
    if keySize.all (· == size) && isUsableCost cost width lanes then
      some (Password.scrypt password salt cost width lanes size)
    else none

/-- The octets under the password, if the scheme is in use and their padding is well formed. -/
def EncryptedPrivateKeyInfo.decrypt? (i : EncryptedPrivateKeyInfo) (password : Bytes) :
    Option Bytes :=
  match i.scheme with
  | .retired => none
  | .aesCbc d size vector => do
    Aes.Cbc.decrypt? (← d.derive? password size) vector i.data

end Strongbox.Pkcs8
