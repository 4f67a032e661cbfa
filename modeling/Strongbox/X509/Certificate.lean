/-
  Strongbox.X509.Certificate — certificates as structures, read from and written to their
  encoding (RFC 5280, section 4.1).

  Writing leaves out what has its default value: a first version and an extension that is not
  critical. Reading accepts those in full, so a certificate can have several encodings; it also
  passes over context-specific elements in front of an optional field with a higher number.
-/

import Strongbox.Der.Time
import Strongbox.Key.Public
import Strongbox.X509.Name

namespace Strongbox.X509

open Der

structure Extension where
  id : Oid
  critical : Bool
  value : Bytes
  deriving DecidableEq, Repr

structure Body where
  /-- Zero stands for the first version. -/
  version : Nat
  /-- The octets of the serial number. -/
  serial : Bytes
  signature : AlgorithmIdentifier
  issuer : Name
  notBefore : Time
  notAfter : Time
  subject : Name
  publicKey : PublicKeyInfo
  issuerId : Option BitString
  subjectId : Option BitString
  extensions : Option (List Extension)
  deriving DecidableEq, Repr

structure Certificate where
  body : Body
  algorithm : AlgorithmIdentifier
  signature : BitString
  deriving DecidableEq, Repr

/-! ## Reading -/

def Extension.parser : Parser Extension := sequence do
  return ⟨← objectIdentifier, ← booleanOrFalse, ← octetString⟩

/-- A version: 0, 1 or 2. -/
def versionParser : Parser Nat := do
  let n ← word 8
  if n ≤ 2 then return n else failure

/-- A serial number of at most 21 octets. -/
def serialParser : Parser Bytes := do
  let b ← integer
  if b.length ≤ 21 then return b else failure

def validityParser : Parser (Time × Time) := sequence do
  return (← time, ← time)

def Body.parser : Parser Body := sequence do
  let version ← contextValue? 0 versionParser
  let serial ← serialParser
  let signature ← algorithmIdentifier
  let issuer ← name
  let (notBefore, notAfter) ← validityParser
  let subject ← name
  let publicKey ← PublicKeyInfo.parser
  let issuerId ← contextBitString? 1
  let subjectId ← contextBitString? 2
  let extensions ← contextValue? 3 (listOf Tag.sequence Extension.parser)
  return { version := version.getD 0, serial, signature, issuer, notBefore, notAfter, subject,
           publicKey, issuerId, subjectId, extensions }

def Certificate.parser : Parser Certificate := sequence do
  return ⟨← Body.parser, ← algorithmIdentifier, ← bitString⟩

/-! ## Writing -/

def Extension.encode (e : Extension) : Bytes :=
  wrap Tag.sequence
    (e.id.encode ++ (if e.critical then encodeBoolean true else []) ++ wrap Tag.octetString e.value)

def encodeContextBits (n : UInt8) (s : Option BitString) : Bytes :=
  (s.map fun s => wrap (0x80 + n) s.content).getD []

def Body.encode (b : Body) : Bytes :=
  wrap Tag.sequence <|
    (if b.version = 0 then [] else wrap 0xA0 (encodeInteger [UInt8.ofNat b.version]))
      ++ encodeInteger b.serial ++ b.signature.encode ++ encodeName b.issuer
      ++ wrap Tag.sequence (b.notBefore.encode ++ b.notAfter.encode) ++ encodeName b.subject
      ++ b.publicKey.encode ++ encodeContextBits 1 b.issuerId ++ encodeContextBits 2 b.subjectId
      ++ (b.extensions.map fun es =>
          wrap 0xA3 (wrap Tag.sequence (es.flatMap Extension.encode))).getD []

def Certificate.encode (c : Certificate) : Bytes :=
  wrap Tag.sequence (c.body.encode ++ c.algorithm.encode ++ c.signature.encode)

end Strongbox.X509
