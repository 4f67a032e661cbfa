/-
  Strongbox.Text.Base64 — octets as base64 text (RFC 4648, section 4).

  Writing uses the standard alphabet and pads to whole quads. Reading is strict: the padding
  must be there and no longer than needed, and the bits after the last octet must be zero,
  so that every octet string has exactly one text. Blanks around the text are ignored and
  offsets in errors count the octets of the text without them.

  Defects are reported in this order: a stray last octet that is no symbol, then the first
  octet that is no symbol, then a last quad of one symbol, missing padding, and left-over
  bits. Padding counts as no symbol wherever it cannot end the text.
-/

import Strongbox.Bytes
import Strongbox.Text.Blank

namespace Strongbox.Base64

inductive Error where
  | symbol (octet : UInt8) (offset : Nat)
  | length (symbols : Nat)
  | lastSymbol (octet : UInt8) (offset : Nat)
  | padding
  deriving DecidableEq

def Error.message : Error → String
  | .symbol b i => s!"invalid base64: Invalid symbol {b.toNat}, offset {i}."
  | .length n => s!"invalid base64: Invalid input length: {n}"
  | .lastSymbol b i => s!"invalid base64: Invalid last symbol {b.toNat}, offset {i}."
  | .padding => "invalid base64: Invalid padding"

def symbol (n : Nat) : Char :=
  if n < 26 then Char.ofNat (65 + n)
  else if n < 52 then Char.ofNat (71 + n)
  else if n < 62 then Char.ofNat (n - 4)
  else if n = 62 then '+'
  else '/'

def value? (b : UInt8) : Option Nat :=
  let n := b.toNat
  if 65 ≤ n ∧ n ≤ 90 then some (n - 65)
  else if 97 ≤ n ∧ n ≤ 122 then some (n - 71)
  else if 48 ≤ n ∧ n ≤ 57 then some (n + 4)
  else if n = 43 then some 62
  else if n = 47 then some 63
  else none

def encodeChars : Bytes → List Char
  | [] => []
  | [a] =>
    let n := a.toNat * 16
    [symbol (n / 64), symbol (n % 64), '=', '=']
  | [a, b] =>
    let n := (a.toNat * 256 + b.toNat) * 4
    [symbol (n / 4096), symbol (n / 64 % 64), symbol (n % 64), '=']
  | a :: b :: c :: rest =>
    let n := (a.toNat * 256 + b.toNat) * 256 + c.toNat
    symbol (n / 262144) :: symbol (n / 4096 % 64) :: symbol (n / 64 % 64) :: symbol (n % 64)
      :: encodeChars rest

def encode (b : Bytes) : String := String.ofList (encodeChars b)

def pad : UInt8 := 61

def readSymbol (offset : Nat) (b : UInt8) : Except Error Nat :=
  match value? b with
  | some v => .ok v
  | none => .error (.symbol b offset)

/-- What the last quad holds before its meaning is judged: the values of its symbols, the
last symbol, and the number of padding characters. -/
structure Tail where
  values : List Nat
  last : UInt8
  pads : Nat

/-- Reads the last quad, which begins at `start`, from its member number `i` on. -/
def readTail (start i : Nat) (t : Tail) : Bytes → Except Error Tail
  | [] => .ok t
  | b :: rest =>
    if b = pad then
      if i < 2 then .error (.symbol b (start + i))
      else readTail start (i + 1) { t with pads := t.pads + 1 } rest
    else if t.pads > 0 then .error (.symbol pad (start + t.values.length))
    else
      match value? b with
      | none => .error (.symbol b (start + i))
      | some v => readTail start (i + 1) { t with values := t.values ++ [v], last := b } rest

def decodeTail (start : Nat) (b : Bytes) : Except Error Bytes := do
  if b = [] then return []
  let t ← readTail start 0 ⟨[], 0, 0⟩ b
  if t.values.length < 2 then throw (.length (start + t.values.length))
  if (t.pads + t.values.length) % 4 ≠ 0 then throw .padding
  match t.values with
  | [v, w] =>
    if w % 16 ≠ 0 then throw (.lastSymbol t.last (start + 1))
    return [UInt8.ofNat ((v * 64 + w) / 16)]
  | [v, w, x] =>
    if x % 4 ≠ 0 then throw (.lastSymbol t.last (start + 2))
    return Bytes.ofNat 2 (((v * 64 + w) * 64 + x) / 4)
  | v :: w :: x :: y :: _ => return Bytes.ofNat 3 (((v * 64 + w) * 64 + x) * 64 + y)
  | _ => throw .padding

def decodeQuads (start : Nat) : Bytes → Except Error Bytes
  | a :: b :: c :: d :: e :: rest => do
    let v ← readSymbol start a
    let w ← readSymbol (start + 1) b
    let x ← readSymbol (start + 2) c
    let y ← readSymbol (start + 3) d
    let more ← decodeQuads (start + 4) (e :: rest)
    return Bytes.ofNat 3 (((v * 64 + w) * 64 + x) * 64 + y) ++ more
  | last => decodeTail start last

def decodeBytes (b : Bytes) : Except Error Bytes :=
  match b.getLast? with
  | some z =>
    if b.length % 4 = 1 ∧ z ≠ pad ∧ value? z = none then .error (.symbol z (b.length - 1))
    else decodeQuads 0 b
  | none => .ok []

/-- The octets that the text writes, blanks around it ignored. -/
def decode (s : String) : Except Error Bytes := decodeBytes (Bytes.ofString (Text.trim s))

end Strongbox.Base64
