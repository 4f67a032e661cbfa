/-
  Strongbox.Digest.Algorithm — the digests that thumbprints and signatures use, by name.
-/

import Strongbox.Digest.Sha1
import Strongbox.Digest.Sha2
import Strongbox.Text.Blank

namespace Strongbox.Digest

inductive Algorithm where
  | sha1
  | sha256
  | sha384
  | sha512
  deriving DecidableEq, Repr

namespace Algorithm

def name : Algorithm → String
  | sha1 => "SHA-1"
  | sha256 => "SHA-256"
  | sha384 => "SHA-384"
  | sha512 => "SHA-512"

def size : Algorithm → Nat
  | sha1 => 20
  | sha256 => 32
  | sha384 => 48
  | sha512 => 64

def digest : Algorithm → Bytes → Bytes
  | sha1 => Digest.sha1
  | sha256 => Digest.sha256
  | sha384 => Digest.sha384
  | sha512 => Digest.sha512

def all : List Algorithm := [sha1, sha256, sha384, sha512]

/-- The algorithm that a name stands for: blanks around it, the case of letters and the hyphen
do not matter. -/
def ofName? (s : String) : Option Algorithm :=
  match (Text.trim s).toUpper with
  | "SHA-1" | "SHA1" => some sha1
  | "SHA-256" | "SHA256" => some sha256
  | "SHA-384" | "SHA384" => some sha384
  | "SHA-512" | "SHA512" => some sha512
  | _ => none

end Algorithm

end Strongbox.Digest
