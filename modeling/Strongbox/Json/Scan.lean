/-
  Strongbox.Json.Scan — the parts of a JSON text: blanks, words, numbers, strings, and values
  that are passed over.

  A scanner takes octets and gives what it read together with the octets after it. Values are
  passed over without recursion on their depth. In a passed-over string escapes are checked
  for their form only, and in a passed-over number its size does not matter.
-/

import Strongbox.Bytes
import Strongbox.Json.Error
import Strongbox.Number.Shortest

namespace Strongbox.Json

abbrev Scanner := StateT Bytes (Except Error)

namespace Scanner

def isBlankOctet (b : UInt8) : Bool := b == 32 || b == 9 || b == 10 || b == 13

def isDigit (b : UInt8) : Bool := 48 ≤ b && b ≤ 57

/-- Passes over blanks and gives the octet after them, which is not taken. -/
def peekPastBlanks : Scanner (Option UInt8) := fun s =>
  let s := s.dropWhile isBlankOctet
  .ok (s.head?, s)

def take : Scanner Unit := modify (·.drop 1)

/-- Takes the rest of a word, whose first octet is taken. -/
def word : List Char → Scanner Unit
  | [] => return
  | c :: cs => do
    match (← get) with
    | [] => throw .endInValue
    | b :: rest =>
      set rest
      if b.toNat = c.toNat then word cs else throw .expectedWord

/-! ## Numbers -/

/-- A number that does not fit a floating-point number is refused; one power of ten is applied
to the digits, which are rounded first. -/
def scaled (digits : Nat) (exponent : Int) : Except Error Float :=
  let f := digits.toUInt64.toFloat
  if digits = 0 then .ok 0.0
  else if exponent ≥ 0 then
    if exponent > 308 then .error .numberOutOfRange
    else
      let x := f * Float.ofScientific 1 false exponent.toNat
      if x.isInf then .error .numberOutOfRange else .ok x
  else if exponent ≥ -308 then .ok (f / Float.ofScientific 1 false (-exponent).toNat)
  else if exponent ≥ -616 then
    .ok (f / Float.ofScientific 1 false 308 / Float.ofScientific 1 false (-exponent - 308).toNat)
  else .ok 0.0

def floating (negative : Bool) (digits : Nat) (exponent : Int) : Scanner Found := do
  let x ← scaled digits exponent
  return .floating (Number.Shortest.text (if negative then -x else x))

/-- Takes digits as long as the number stays below 2⁶⁴; gives the number and how many were
taken. -/
def significant (n count : Nat) : Bytes → Nat × Nat × Bytes
  | [] => (n, count, [])
  | b :: rest =>
    let m := n * 10 + (b.toNat - 48)
    if isDigit b && decide (m < 0x10000000000000000) then significant m (count + 1) rest
    else (n, count, b :: rest)

def digitsValue (ds : Bytes) : Nat := ds.foldl (fun n b => n * 10 + (b.toNat - 48)) 0

/-- The exponent after its letter; a huge one overflows unless the digits are zero. -/
def exponentPart (negative : Bool) (digits : Nat) (start : Int) : Scanner Found := do
  take
  let down := (← get).head? == some 45
  if down || (← get).head? == some 43 then take
  match (← get) with
  | [] => throw .endInValue
  | b :: rest =>
    unless isDigit b do throw .invalidNumber
    let ds := b :: rest.takeWhile isDigit
    set (rest.dropWhile isDigit)
    let e : Int := digitsValue ds
    if e ≥ 0x80000000 then
      if digits ≠ 0 && !down then throw .numberOutOfRange
      return .floating (if negative then "-0.0" else "0.0")
    floating negative digits (if down then start - e else start + e)

def floatingEnd (negative : Bool) (digits : Nat) (exponent : Int) : Scanner Found := do
  match (← get).head? with
  | some 101 | some 69 => exponentPart negative digits exponent
  | _ => floating negative digits exponent

/-- The part of a number from the decimal point on; digits beyond 2⁶⁴ do not count. -/
def fraction (negative : Bool) (digits : Nat) (exponent : Int) : Scanner Found := do
  take
  let (n, count, rest) := significant digits 0 (← get)
  set rest
  match rest.head? with
  | some b =>
    if isDigit b then
      set (rest.dropWhile isDigit)
      floatingEnd negative n (exponent - count)
    else if count = 0 then throw .invalidNumber
    else floatingEnd negative n (exponent - count)
  | none => if count = 0 then throw .endInValue else floatingEnd negative n (exponent - count)

def number (negative : Bool) : Scanner Found := do
  match (← get) with
  | [] => throw .endInValue
  | b :: rest =>
    unless isDigit b do
      set rest
      throw .invalidNumber
    if b = 48 && (rest.head?.map isDigit).getD false then throw .invalidNumber
    let (n, _, rest) := significant 0 0 (b :: rest)
    let long := rest.takeWhile isDigit
    set (rest.dropWhile isDigit)
    match (← get).head?, long with
    | some 46, _ => fraction negative n long.length
    | some 101, _ | some 69, _ => exponentPart negative n long.length
    | _, [] =>
      if !negative then return .integer n
      else if 0 < n && n ≤ 0x8000000000000000 then return .integer (-n)
      else floating negative n 0
    | _, _ => floating negative n long.length

/-! ## Strings -/

def hexDigit? (b : UInt8) : Option Nat :=
  if isDigit b then some (b.toNat - 48)
  else if 65 ≤ b && b ≤ 70 then some (b.toNat - 55)
  else if 97 ≤ b && b ≤ 102 then some (b.toNat - 87)
  else none

def codeUnit : Scanner Nat := do
  match (← get) with
  | a :: b :: c :: d :: rest =>
    set rest
    match hexDigit? a, hexDigit? b, hexDigit? c, hexDigit? d with
    | some a, some b, some c, some d => return ((a * 16 + b) * 16 + c) * 16 + d
    | _, _, _, _ => throw .invalidEscape
  | _ => throw .endInString

/-- Takes the octet that must follow the first half of a surrogate pair. -/
def continuePair (octet : UInt8) : Scanner Unit := do
  match (← get) with
  | [] => throw .endInString
  | b :: rest =>
    set rest
    unless b = octet do throw .shortSurrogate

/-- The character after a backslash and the letter u; surrogates come in pairs. -/
def escapedCodePoint : Scanner Char := do
  let n ← codeUnit
  if 0xDC00 ≤ n && n ≤ 0xDFFF then throw .loneSurrogate
  if n < 0xD800 || 0xDBFF < n then return Char.ofNat n
  continuePair 92
  continuePair 117
  let m ← codeUnit
  if m < 0xDC00 || 0xDFFF < m then throw .loneSurrogate
  return Char.ofNat (0x10000 + (n - 0xD800) * 0x400 + (m - 0xDC00))

def shortEscape? (b : UInt8) : Option UInt8 :=
  match b.toNat with
  | 34 => some 34
  | 92 => some 92
  | 47 => some 47
  | 98 => some 8
  | 102 => some 12
  | 110 => some 10
  | 114 => some 13
  | 116 => some 9
  | _ => none

def escape : Scanner Bytes := do
  match (← get) with
  | [] => throw .endInString
  | b :: rest =>
    set rest
    if b = 117 then return Bytes.ofString (String.singleton (← escapedCodePoint))
    match shortEscape? b with
    | some c => return [c]
    | none => throw .invalidEscape

/-- Takes an escape without asking what it stands for. -/
def passEscape : Scanner Unit := do
  match (← get) with
  | [] => throw .endInString
  | b :: rest =>
    set rest
    if b = 117 then discard codeUnit
    else if (shortEscape? b).isNone then throw .invalidEscape

/-- The octets up to the closing quote, which is taken, behind those in `acc`, which is in
reverse; `fuel` is at least the number of octets left. -/
def stringFrom (unescape : Scanner Bytes) : (fuel : Nat) → (acc : Bytes) → Scanner Bytes
  | 0, _ => throw .endInString
  | fuel + 1, acc => do
    match (← get) with
    | [] => throw .endInString
    | b :: rest =>
      set rest
      if b = 34 then return acc.reverse
      else if b = 92 then
        let bs ← unescape
        stringFrom unescape fuel (bs.reverse ++ acc)
      else if b < 32 then throw .controlCharacter
      else stringFrom unescape fuel (b :: acc)

/-- The text of a string whose opening quote is taken. -/
def string : Scanner String := do
  let b ← stringFrom escape ((← get).length + 1) []
  match Bytes.toString? b with
  | some s => return s
  | none => throw .invalidCodePoint

def passString : Scanner Unit := do
  discard <| stringFrom (do passEscape; return []) ((← get).length + 1) []

/-! ## Passing over values -/

def passExponent : Scanner Unit := do
  take
  if (← get).head? == some 45 || (← get).head? == some 43 then take
  match (← get) with
  | b :: rest =>
    unless isDigit b do throw .invalidNumber
    set (rest.dropWhile isDigit)
  | [] => throw .invalidNumber

def passNumber : Scanner Unit := do
  match (← get) with
  | [] => throw .invalidNumber
  | b :: rest =>
    unless isDigit b do throw .invalidNumber
    if b = 48 && (rest.head?.map isDigit).getD false then throw .invalidNumber
    set (rest.dropWhile isDigit)
    if (← get).head? == some 46 then
      take
      let s ← get
      if (s.takeWhile isDigit).isEmpty then throw .invalidNumber
      set (s.dropWhile isDigit)
    match (← get).head? with
    | some 101 | some 69 => passExponent
    | _ => return

/-- A list or an object that is open around the present place. -/
inductive Frame where
  | list
  | object
  deriving DecidableEq

def Frame.closing : Frame → UInt8
  | list => 93
  | object => 125

def passKey : Scanner Unit := do
  match (← peekPastBlanks) with
  | some 34 => take
  | some _ => throw .keyNotString
  | none => throw .endInObject
  passString
  match (← peekPastBlanks) with
  | some 58 => take
  | some _ => throw .expectedColon
  | none => throw .endInObject

/-- Passes over one scalar, or over the opening of a list or an object, which is given. -/
def passOpening : Scanner (Option Frame) := do
  match (← peekPastBlanks) with
  | none => throw .endInValue
  | some b =>
    match b.toNat with
    | 110 => do take; word "ull".toList; return none
    | 116 => do take; word "rue".toList; return none
    | 102 => do take; word "alse".toList; return none
    | 45 => do take; passNumber; return none
    | 34 => do take; passString; return none
    | 91 => do take; return some .list
    | 123 => do take; return some .object
    | _ =>
      if isDigit b then passNumber; return none
      else throw .expectedValue

/-- Passes over closings. After a value (`after`) a comma or a closing must follow; right
behind an opening there may be neither. The frames that stay open are given. -/
def passClosings : (frames : List Frame) → (after : Bool) → Scanner (List Frame)
  | [], _ => return []
  | f :: fs, after => do
    match (← peekPastBlanks) with
    | none => throw (if f = .list then .endInList else .endInObject)
    | some b =>
      if b = 44 && after then
        take
        return f :: fs
      else if b = f.closing then
        take
        passClosings fs true
      else if after then throw (if f = .list then .expectedListEnd else .expectedObjectEnd)
      else return f :: fs

/-- Passes over the rest of a value inside the open frames; every turn takes an octet. -/
def passRest : (fuel : Nat) → List Frame → Scanner Unit
  | 0, _ => return
  | fuel + 1, frames => do
    let opened ← passOpening
    let frames ← match opened with
      | some f => passClosings (f :: frames) false
      | none => passClosings frames true
    match frames with
    | [] => return
    | .list :: _ => passRest fuel frames
    | .object :: _ => do
      passKey
      passRest fuel frames

def passValue : Scanner Unit := do passRest ((← get).length + 1) []

/-- What the next value is, for saying that something else was expected. -/
def found : Scanner Found := do
  match (← peekPastBlanks) with
  | none => throw .endInValue
  | some b =>
    match b.toNat with
    | 110 => do take; word "ull".toList; return .null
    | 116 => do take; word "rue".toList; return .boolean true
    | 102 => do take; word "alse".toList; return .boolean false
    | 45 => do take; number true
    | 34 => do take; return .string (← string)
    | 91 => return .sequence
    | 123 => return .map
    | _ => if isDigit b then number false else throw .expectedValue

end Scanner

end Strongbox.Json
