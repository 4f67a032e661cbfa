/-
  Strongbox.Text.Utf8 — where an octet string stops being UTF-8.

  The scan reads one character at a time by the table of well-formed sequences (Unicode,
  table 3-7). A sequence that breaks off is reported with the number of octets that could
  have begun a character; one that is cut short by the end of the input has no such number.
-/

import Strongbox.Bytes

namespace Strongbox.Text.Utf8

structure Defect where
  /-- How many octets before it are well formed. -/
  index : Nat
  /-- How many octets form the bad sequence; none when the input ends inside a character. -/
  length : Option Nat
  deriving DecidableEq

def Defect.message (d : Defect) : String :=
  match d.length with
  | some n => s!"invalid utf-8 sequence of {n} bytes from index {d.index}"
  | none => s!"incomplete utf-8 byte sequence from index {d.index}"

def isTail (b : UInt8) : Bool := 0x80 ≤ b && b ≤ 0xBF

/-- Whether `b` may follow the lead octet `a` of a sequence of three or four octets. -/
def isSecond (a b : UInt8) : Bool :=
  if a == 0xE0 then 0xA0 ≤ b && b ≤ 0xBF
  else if a == 0xED then 0x80 ≤ b && b ≤ 0x9F
  else if a == 0xF0 then 0x90 ≤ b && b ≤ 0xBF
  else if a == 0xF4 then 0x80 ≤ b && b ≤ 0x8F
  else isTail b

/-- How many octets the sequence with this lead octet has; zero for no lead octet. -/
def width (a : UInt8) : Nat :=
  if a < 0x80 then 1
  else if 0xC2 ≤ a && a ≤ 0xDF then 2
  else if 0xE0 ≤ a && a ≤ 0xEF then 3
  else if 0xF0 ≤ a && a ≤ 0xF4 then 4
  else 0

/-- How the first sequence of a non-empty input ends: well formed of a length, or broken. -/
inductive Step where
  | ok (length : Nat)
  | broken (length : Option Nat)

/-- The first sequence, its lead octet `a` already split off. -/
def step (a : UInt8) (rest : Bytes) : Step :=
  match width a, rest with
  | 1, _ => .ok 1
  | 0, _ => .broken (some 1)
  | _, [] => .broken none
  | 2, b :: _ => if isTail b then .ok 2 else .broken (some 1)
  | n, b :: rest =>
    if !isSecond a b then .broken (some 1) else
    match rest with
    | [] => .broken none
    | c :: rest =>
      if !isTail c then .broken (some 2) else
      if n == 3 then .ok 3 else
      match rest with
      | [] => .broken none
      | d :: _ => if isTail d then .ok 4 else .broken (some 3)

def defectFrom (index : Nat) (b : Bytes) : Option Defect :=
  match b with
  | [] => none
  | a :: rest =>
    match step a rest with
    | .broken n => some ⟨index, n⟩
    | .ok n => defectFrom (index + n) (rest.drop (n - 1))
termination_by b.length
decreasing_by simp only [List.length_drop, List.length_cons]; omega

def defect? (b : Bytes) : Option Defect := defectFrom 0 b

end Strongbox.Text.Utf8
