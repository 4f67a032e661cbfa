/-
  Strongbox.Json.Read — typed readers for JSON texts.

  A reader consumes the text in order, so the first defect in the text is the one reported.
  A record is read from an object, whose unknown members are passed over, or from a list with
  the fields in their order.
-/

import Strongbox.Json.Scan

namespace Strongbox.Json.Read

open Scanner

/-- Refuses the next value, in whose place `expected` should stand. -/
def refuse (expected : String) : Scanner α := do throw (.invalidType (← found) expected)

def stringAs (expected : String) : Scanner String := do
  match (← peekPastBlanks) with
  | none => throw .endInValue
  | some 34 => do take; string
  | some _ => refuse expected

def string : Scanner String := stringAs "a string"

def boolean : Scanner Bool := do
  match (← peekPastBlanks) with
  | none => throw .endInValue
  | some 116 => do take; word "rue".toList; return true
  | some 102 => do take; word "alse".toList; return false
  | some _ => refuse "a boolean"

def optional (reader : Scanner α) : Scanner (Option α) := do
  match (← peekPastBlanks) with
  | some 110 => do take; word "ull".toList; return none
  | _ => return some (← reader)

def unit : Scanner Unit := do
  match (← peekPastBlanks) with
  | none => throw .endInValue
  | some 110 => do take; word "ull".toList
  | some _ => refuse "unit"

def colon : Scanner Unit := do
  match (← peekPastBlanks) with
  | some 58 => take
  | some _ => throw .expectedColon
  | none => throw .endInObject

def named (known : List (String × α)) : Scanner α := do
  let name ← stringAs "variant identifier"
  match known.lookup name with
  | some a => return a
  | none => throw (.unknownVariant name (known.map (·.1)))

/-- A named value, either by its name or as an object with the name and `null`. -/
def variant (known : List (String × α)) : Scanner α := do
  match (← peekPastBlanks) with
  | none => throw .endInValue
  | some 34 => named known
  | some 123 => do
    take
    let a ← named known
    colon
    unit
    match (← peekPastBlanks) with
    | some 125 => do take; return a
    | some _ => throw .expectedValue
    | none => throw .endInObject
  | some _ => throw .expectedValue

/-- One field of a record whose values are gathered in a `σ`. -/
structure Field (σ : Type) where
  name : String
  isSet : σ → Bool
  read : σ → Scanner σ
  /-- Whether a list may end before the field. -/
  mayLack : Bool

def Field.of (name : String) (reader : Scanner α) (get : σ → Option α) (put : σ → α → σ)
    (mayLack : Bool) : Field σ :=
  ⟨name, fun s => (get s).isSome, fun s => return put s (← reader), mayLack⟩

/-- Whether a value with more elements or members follows, after blanks and a comma; `first`
says that none came before. The octet it begins with is given, and not taken. -/
def nextElement (first : Bool) (closing : UInt8) (unclosed ended : Error) :
    Scanner (Option UInt8) := do
  match (← peekPastBlanks) with
  | none => throw unclosed
  | some b =>
    if b = closing then return none
    else if b = 44 && !first then
      take
      match (← peekPastBlanks) with
      | none => throw .endInValue
      | some b => if b = closing then throw .trailingComma else return some b
    else if first then return some b
    else throw ended

/-- The members of an object up to its closing brace; `fuel` bounds their number. -/
def members (fields : List (Field σ)) : (fuel : Nat) → (first : Bool) → σ → Scanner σ
  | 0, _, s => return s
  | fuel + 1, first, s => do
    match (← nextElement first 125 .endInObject .expectedObjectEnd) with
    | none => return s
    | some b =>
      unless b = 34 do throw .keyNotString
      take
      let key ← Scanner.string
      match fields.find? (·.name == key) with
      | none => do
        colon
        passValue
        members fields fuel false s
      | some f => do
        if f.isSet s then throw (.duplicateField key)
        colon
        members fields fuel false (← f.read s)

def elements (what : String) (total : Nat) : (index : Nat) → List (Field σ) → σ → Scanner σ
  | _, [], s => return s
  | index, f :: fs, s => do
    match (← nextElement (index == 0) 93 .endInList .expectedListEnd) with
    | some _ => elements what total (index + 1) fs (← f.read s)
    | none =>
      if f.mayLack then elements what total (index + 1) fs s
      else
        let noun := if total = 1 then " element" else " elements"
        throw (.invalidLength index (what ++ " with " ++ toString total ++ noun))

def endOfList : Scanner Unit := do
  match (← peekPastBlanks) with
  | none => throw .endInList
  | some 93 => take
  | some 44 => do
    take
    match (← peekPastBlanks) with
    | some 93 => throw .trailingComma
    | _ => throw .trailingCharacters
  | some _ => throw .trailingCharacters

/-- A record: its fields from an object or a list, then the value made of them. -/
def record (what : String) (fields : List (Field σ)) (start : σ) (finish : σ → Except Error α) :
    Scanner α := do
  match (← peekPastBlanks) with
  | none => throw .endInValue
  | some 123 => do
    take
    let s ← members fields ((← get).length + 1) true start
    let a ← finish s
    take
    return a
  | some 91 => do
    take
    let s ← elements what fields.length 0 fields start
    let a ← finish s
    endOfList
    return a
  | some _ => refuse what

def required (name : String) : Option α → Except Error α
  | some a => .ok a
  | none => .error (.missingField name)

def whole (reader : Scanner α) (text : Bytes) : Except Error α := do
  let (a, rest) ← reader text
  if rest.all isBlankOctet then return a else throw .trailingCharacters

end Strongbox.Json.Read
