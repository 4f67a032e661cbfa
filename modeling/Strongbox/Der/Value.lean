/-
  Strongbox.Der.Value — the primitive values of encoded structures.

  A number is kept as its octets where only they matter. An identifier keeps its octets too;
  its arcs are for showing it.
-/

import Strongbox.Der.Element

namespace Strongbox.Der

/-! ## Numbers -/

/-- The shortest two's complement writing of a number. -/
def isCanonicalInteger : Bytes → Bool
  | [] => false
  | [_] => true
  | a :: b :: _ => !(a == 0 && b < 0x80) && !(a == 0xFF && 0x80 ≤ b)

def integer : Parser Bytes := do
  let b ← contentOf Tag.integer
  if isCanonicalInteger b then return b else failure

def natural : Parser Nat := do
  let b ← integer
  if b.headD 0 < 0x80 then return Bytes.toNat b else failure

def word (bits : Nat) : Parser Nat := do
  let n ← natural
  if n < 1 <<< bits then return n else failure

def word? (bits : Nat) : Parser (Option Nat) := do
  if (← get).head? = some Tag.integer then return some (← word bits) else return none

def encodeInteger (b : Bytes) : Bytes := wrap Tag.integer b

/-! ## Truth values and null -/

def boolean : Parser Bool := do
  match (← contentOf Tag.boolean) with
  | [0x00] => return false
  | [0xFF] => return true
  | _ => failure

/-- A truth value that is left out when it is false. -/
def booleanOrFalse : Parser Bool := do
  if (← get).head? = some Tag.boolean then boolean else return false

def encodeBoolean (b : Bool) : Bytes := wrap Tag.boolean [if b then 0xFF else 0x00]

def nullElement : Element := ⟨Tag.null, []⟩

/-! ## Strings of bits and octets -/

/-- Octets of which the last one may have unused low bits. -/
structure BitString where
  unused : UInt8
  octets : Bytes
  deriving DecidableEq, Repr

def BitString.ofContent? : Bytes → Option BitString
  | [] => none
  | u :: b => if u > 7 ∨ (u ≠ 0 ∧ b = []) then none else some ⟨u, b⟩

def BitString.content (s : BitString) : Bytes := s.unused :: s.octets

def BitString.octets? (s : BitString) : Option Bytes := if s.unused = 0 then some s.octets else none

def bitString : Parser BitString := do
  match BitString.ofContent? (← contentOf Tag.bitString) with
  | some s => return s
  | none => failure

def BitString.encode (s : BitString) : Bytes := wrap Tag.bitString s.content

def contextBitString? (n : Nat) : Parser (Option BitString) := do
  match (← context? n) with
  | none => return none
  | some e =>
    match BitString.ofContent? e.content with
    | some s => if Tag.isConstructed e.tag then failure else return some s
    | none => failure

/-- What a parser reads from all of the element under the context-specific number `n`, if that
is there. -/
def contextValue? (n : Nat) (p : Parser α) : Parser (Option α) := do
  match (← context? n) with
  | none => return none
  | some e =>
    if !Tag.isConstructed e.tag then failure
    match p.whole e.content with
    | some a => return some a
    | none => failure

def octetString : Parser Bytes := contentOf Tag.octetString

/-! ## Object identifiers -/

structure Oid where
  octets : Bytes
  deriving DecidableEq, Repr

namespace Oid

/-- One arc in groups of seven bits, most significant first; `fuel` bounds the groups. -/
def arcOctets : (fuel : Nat) → (n : Nat) → (last : Bool) → Bytes
  | 0, _, _ => []
  | fuel + 1, n, last =>
    (if n < 128 then [] else arcOctets fuel (n / 128) false)
      ++ [UInt8.ofNat (n % 128 + if last then 0 else 128)]

def ofArcs : List Nat → Oid
  | a :: b :: rest => ⟨UInt8.ofNat (40 * a + b) :: rest.flatMap fun n => arcOctets 5 n true⟩
  | _ => ⟨[]⟩

/-- The arcs after the first octet; `count` octets of the present arc, of value `n`, were read.
An arc has at most five octets, and words of 32 bits hold its value. -/
def readArcs (count n : Nat) : Bytes → Option (List Nat)
  | [] => if count = 0 then some [] else none
  | b :: rest =>
    if count ≥ 4 ∧ b &&& 0xF0 ≠ 0 then none
    else
      let n := (n * 128 + b.toNat % 128) % 0x100000000
      if b < 0x80 then (readArcs 0 0 rest).map (n :: ·) else readArcs (count + 1) n rest

def arcs? (o : Oid) : Option (List Nat) :=
  match o.octets with
  | [] => none
  | b :: rest =>
    if o.octets.length < 3 ∨ o.octets.length > 39 ∨ b ≥ 120 then none
    else (readArcs 0 0 rest).map fun more => b.toNat / 40 :: b.toNat % 40 :: more

def shown (o : Oid) : String := String.intercalate "." ((o.arcs?.getD []).map toString)

def encode (o : Oid) : Bytes := wrap Tag.objectIdentifier o.octets

end Oid

def objectIdentifier : Parser Oid := do
  let o : Oid := ⟨← contentOf Tag.objectIdentifier⟩
  if o.arcs?.isSome then return o else failure

/-! ## Algorithm identifiers -/

structure AlgorithmIdentifier where
  algorithm : Oid
  parameters : Option Element
  deriving DecidableEq, Repr

def algorithmIdentifier : Parser AlgorithmIdentifier := sequence do
  let algorithm ← objectIdentifier
  if (← get).isEmpty then return ⟨algorithm, none⟩
  return ⟨algorithm, some (← element)⟩

def AlgorithmIdentifier.encode (a : AlgorithmIdentifier) : Bytes :=
  wrap Tag.sequence (a.algorithm.encode ++ (a.parameters.map Element.encode).getD [])

end Strongbox.Der
