/-
  Strongbox.Der.Element — the distinguished encoding of nested values (X.690, section 10).

  An element is a tag octet, the length of its content in the fewest octets, and the content.
  Only tags that the library knows are accepted, and contents have at most 2²⁸ − 1 octets.
  Parsers read elements from the front of some octets.
  - `readElement_encode`: an element that is written reads back, whatever follows it.
-/

import Strongbox.Bytes

namespace Strongbox.Der

structure Element where
  tag : UInt8
  content : Bytes
  deriving DecidableEq, Repr

namespace Tag

def boolean : UInt8 := 0x01
def integer : UInt8 := 0x02
def bitString : UInt8 := 0x03
def octetString : UInt8 := 0x04
def null : UInt8 := 0x05
def objectIdentifier : UInt8 := 0x06
def utf8String : UInt8 := 0x0C
def sequence : UInt8 := 0x30
def set : UInt8 := 0x31
def printableString : UInt8 := 0x13
def teletexString : UInt8 := 0x14
def ia5String : UInt8 := 0x16
def utcTime : UInt8 := 0x17
def generalizedTime : UInt8 := 0x18

def universal : List UInt8 :=
  [boolean, integer, bitString, octetString, null, objectIdentifier, 0x09, 0x0A, utf8String,
    0x12, printableString, teletexString, 0x15, ia5String, utcTime, generalizedTime, 0x1A, 0x1E,
    sequence, set]

/-- A tag outside the universal class has a number below 31. -/
def isKnown (t : UInt8) : Bool := if t < 0x40 then universal.contains t else t &&& 0x1F != 0x1F

def isConstructed (t : UInt8) : Bool := t &&& 0x20 == 0x20

def contextNumber? (t : UInt8) : Option Nat :=
  if t &&& 0xC0 == 0x80 then some (t &&& 0x1F).toNat else none

end Tag

/-! ## Writing -/

/-- The length of a content, in the fewest octets. -/
def encodeLength (n : Nat) : Bytes :=
  if n < 0x80 then [UInt8.ofNat n]
  else
    let b := Bytes.ofNatMinimal n
    UInt8.ofNat (0x80 + b.length) :: b

def Element.encode (e : Element) : Bytes := e.tag :: encodeLength e.content.length ++ e.content

def wrap (tag : UInt8) (content : Bytes) : Bytes := Element.encode ⟨tag, content⟩

/-! ## Reading -/

/-- Reading from the front of some octets. -/
abbrev Parser := StateT Bytes Option

/-- Contents are shorter than this. -/
def lengthLimit : Nat := 0x10000000

def readLength (b : Bytes) : Option (Nat × Bytes) :=
  match b with
  | [] => none
  | x :: rest =>
    if x < 0x80 then some (x.toNat, rest)
    else
      let k := (x - 0x80).toNat
      let n := Bytes.toNat (rest.take k)
      if 1 ≤ k ∧ k ≤ 4 ∧ k ≤ rest.length ∧ n < lengthLimit ∧ encodeLength n = x :: rest.take k then
        some (n, rest.drop k)
      else none

/-- The element at the front, of whatever known tag. -/
def readElement (b : Bytes) : Option (Element × Bytes) :=
  match b with
  | [] => none
  | t :: rest =>
    if !Tag.isKnown t then none
    else
      (readLength rest).bind fun (n, rest) =>
        if n ≤ rest.length then some (⟨t, rest.take n⟩, rest.drop n) else none

def element : Parser Element := readElement

/-- The content of the next element, which must have the tag. -/
def contentOf (tag : UInt8) : Parser Bytes := do
  let e ← element
  if e.tag = tag then return e.content else failure

def Parser.whole (p : Parser α) (b : Bytes) : Option α :=
  match p b with
  | some (a, []) => some a
  | _ => none

def inside (tag : UInt8) (p : Parser α) : Parser α := do
  match p.whole (← contentOf tag) with
  | some a => return a
  | none => failure

def sequence (p : Parser α) : Parser α := inside Tag.sequence p

/-- As many values as there are; `fuel` bounds their number. -/
def many (p : Parser α) : (fuel : Nat) → Parser (List α)
  | 0 => return []
  | fuel + 1 => do
    if (← get).isEmpty then return []
    let a ← p
    return a :: (← many p fuel)

def listOf (tag : UInt8) (p : Parser α) : Parser (List α) :=
  inside tag do many p ((← get).length + 1)

/-- Passes over context-specific elements with numbers below `n`; says whether one with the
number `n` follows. `fuel` bounds how many are passed over. -/
def passContext (n : Nat) : (fuel : Nat) → Parser Bool
  | 0 => return false
  | fuel + 1 => do
    match (← get).head?.bind Tag.contextNumber? with
    | none => return false
    | some k =>
      if k = n then return true
      else if k > n then return false
      else
        discard element
        passContext n fuel

/-- The element with the context-specific number `n`, if it is there; those with lower numbers
are passed over. -/
def context? (n : Nat) : Parser (Option Element) := do
  if ← passContext n ((← get).length + 1) then return some (← element) else return none

/-! ## What is written reads back -/

theorem widthOf_le_four {n : Nat} (h : n < lengthLimit) : Bytes.widthOf n ≤ 4 := by
  unfold Bytes.widthOf
  split
  · omega
  · rename_i h0
    have : n.log2 < 28 := (Nat.log2_lt h0).mpr h
    omega

theorem readLength_encodeLength {n : Nat} (h : n < lengthLimit) (rest : Bytes) :
    readLength (encodeLength n ++ rest) = some (n, rest) := by
  by_cases h7 : n < 0x80
  · have : UInt8.ofNat n < 0x80 := by
      rw [UInt8.lt_iff_toNat_lt, UInt8.toNat_ofNat']; simp; omega
    simp [encodeLength, h7, readLength, this]; omega
  · have hw := widthOf_le_four h
    have hl : (Bytes.ofNatMinimal n).length = Bytes.widthOf n := by simp [Bytes.ofNatMinimal]
    have hpos : 1 ≤ Bytes.widthOf n := by unfold Bytes.widthOf; split <;> omega
    have hx : (UInt8.ofNat (0x80 + Bytes.widthOf n)).toNat = 0x80 + Bytes.widthOf n := by
      rw [UInt8.toNat_ofNat']; omega
    have hlt : ¬ UInt8.ofNat (0x80 + Bytes.widthOf n) < 0x80 := by
      rw [UInt8.lt_iff_toNat_lt, hx]; simp
    have hk : (UInt8.ofNat (0x80 + Bytes.widthOf n) - 0x80).toNat = Bytes.widthOf n := by
      rw [UInt8.toNat_sub, hx]
      simp only [UInt8.reduceToNat]
      omega
    have hn : Bytes.toNat (Bytes.ofNatMinimal n) = n := Bytes.toNat_ofNat (Bytes.lt_capacity_widthOf n)
    have henc : encodeLength n = UInt8.ofNat (0x80 + Bytes.widthOf n) :: Bytes.ofNatMinimal n := by
      simp [encodeLength, h7, hl]
    rw [henc, List.cons_append, readLength, if_neg hlt]
    simp only [hk]
    rw [List.take_left' hl, List.drop_left' hl, hn, henc]
    rw [if_pos ⟨hpos, hw, by rw [List.length_append, hl]; omega, h, rfl⟩]

theorem readElement_encode (e : Element) (rest : Bytes) (ht : Tag.isKnown e.tag = true)
    (hn : e.content.length < lengthLimit) : readElement (e.encode ++ rest) = some (e, rest) := by
  simp only [Element.encode, List.cons_append, List.append_assoc, readElement, ht]
  rw [readLength_encodeLength hn]
  simp

end Strongbox.Der
