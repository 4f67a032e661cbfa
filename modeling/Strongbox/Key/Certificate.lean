/-
  Strongbox.Key.Certificate — certificates as the service uses them.

  A certificate keeps its encoding, which thumbprints are made of. One that is read without
  armour keeps the octets it was read from; one from armoured text is written anew, so parts
  that the text spells out although they have their default value are left out.
-/

import Strongbox.Pem
import Strongbox.Thumbprint
import Strongbox.X509.Certificate

namespace Strongbox

structure Certificate where
  encoding : Bytes
  publicKey : PublicKey
  subject : String
  issuer : String
  serialNumber : String
  notBefore : Der.DateTime
  notAfter : Der.DateTime
  deriving DecidableEq, Repr

/-- A point in time: seconds since the beginning of 1970 and nanoseconds. -/
structure Instant where
  seconds : Int
  nanoseconds : Nat := 0

namespace Certificate

def ofParsed (c : X509.Certificate) (encoding : Bytes) : Except KeyDecodeError Certificate := do
  let publicKey ← PublicKey.ofInfo c.body.publicKey
  return { encoding, publicKey,
           subject := X509.shownName c.body.subject,
           issuer := X509.shownName c.body.issuer,
           serialNumber := Hex.encodeUpper c.body.serial,
           notBefore := c.body.notBefore.dateTime,
           notAfter := c.body.notAfter.dateTime }

def ofDer (b : Bytes) : Except KeyDecodeError Certificate :=
  match X509.Certificate.parser.whole b with
  | some c => ofParsed c b
  | none => .error (.malformed "invalid certificate DER: not a certificate")

/-- The octets that an encoding at the front of others takes. -/
def encodedLength? (b : Bytes) : Option Nat :=
  (Der.readLength (b.drop 1)).map fun (n, rest) => b.length - rest.length + n

/-- The structure at the front of the content of an armoured certificate. The content is read
in steps of 256 octets, and what lies beyond the step in which the structure ends is ignored. -/
def armoured? (b : Bytes) : Option X509.Certificate := do
  let block ← Pem.block? b
  guard (block.label = "CERTIFICATE")
  let header ← block.decodeFirst? 256
  let n ← encodedLength? header
  let content ← block.decodeFirst? ((n + 255) / 256 * 256)
  let (c, _) ← X509.Certificate.parser content
  return c

def ofPem (b : Bytes) : Except KeyDecodeError Certificate :=
  match armoured? b with
  | some c => ofParsed c c.encode
  | none => .error (.malformed "invalid certificate PEM: no certificate in a block")

def ofBytes (b : Bytes) : Except KeyDecodeError Certificate :=
  if Pem.looksLike b then ofPem b else ofDer b

/-- Whether an instant lies in the validity, both ends included. -/
def isValidAt (c : Certificate) (t : Instant) : Bool :=
  let last := c.notAfter.unixSeconds
  decide (Int.ofNat c.notBefore.unixSeconds ≤ t.seconds)
    && (decide (t.seconds < Int.ofNat last)
      || (decide (t.seconds = Int.ofNat last) && t.nanoseconds == 0))

def thumbprint (c : Certificate) (a : Digest.Algorithm) : Thumbprint :=
  Thumbprint.compute c.encoding a

def shown (c : Certificate) : String := c.subject ++ " (serial " ++ c.serialNumber ++ ")"

end Certificate

end Strongbox
