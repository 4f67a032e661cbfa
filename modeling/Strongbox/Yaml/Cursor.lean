/-
  Strongbox.Yaml.Cursor — a place in a YAML text, and the classes of characters.

  A line ends at a line feed, a carriage return, both in this order, or at one of the three
  Unicode separators. The last two of those keep their identity when a line break is read; every
  other one is read as a line feed.
-/

namespace Strongbox.Yaml

def isAllowed (c : Char) : Bool :=
  let n := c.toNat
  n == 0x09 || n == 0x0A || n == 0x0D || (0x20 ≤ n && n ≤ 0x7E) || n == 0x85
    || (0xA0 ≤ n && n ≤ 0xFFFD) || 0x10000 ≤ n

def isBreak (c : Char) : Bool :=
  c == '\n' || c == '\r' || c == '\u0085' || c == '\u2028' || c == '\u2029'

def isSpacing (c : Char) : Bool := c == ' ' || c == '\t'

def isWord (c : Char) : Bool := c.isAlphanum || c == '_' || c == '-'

/-- What is left of a text, and how far it is from the beginning. -/
structure Cursor where
  rest : List Char
  index : Nat := 0
  line : Nat := 0
  column : Nat := 0

namespace Cursor

def ofString (s : String) : Cursor := { rest := s.toList }

def atEnd (c : Cursor) : Bool := c.rest.isEmpty

def ahead (c : Cursor) (i : Nat) (p : Char → Bool) : Bool := (c.rest[i]?.map p).getD false

def sees (c : Cursor) (x : Char) : Bool := c.ahead 0 (· == x)

def seesBreak (c : Cursor) : Bool := c.ahead 0 isBreak

def atLineEnd (c : Cursor) : Bool := c.atEnd || c.seesBreak

def gapAt (c : Cursor) (i : Nat) : Bool :=
  (c.rest[i]?.map fun x => isSpacing x || isBreak x).getD true

def skip (c : Cursor) (n : Nat) : Cursor :=
  { c with rest := c.rest.drop n, index := c.index + n, column := c.column + n }

def takeWhile (c : Cursor) (p : Char → Bool) : List Char × Cursor :=
  let cs := c.rest.takeWhile p
  (cs, c.skip cs.length)

def skipWhile (c : Cursor) (p : Char → Bool) : Cursor := (c.takeWhile p).2

/-- Past a line break, and what it is read as. Elsewhere nothing happens. -/
def takeBreak (c : Cursor) : List Char × Cursor :=
  let next := fun (n : Nat) (rest : List Char) =>
    { rest, index := c.index + n, line := c.line + 1, column := 0 : Cursor }
  match c.rest with
  | '\r' :: '\n' :: rest => (['\n'], next 2 rest)
  | x :: rest =>
    if x == '\u2028' || x == '\u2029' then ([x], next 1 rest)
    else if isBreak x then (['\n'], next 1 rest)
    else ([], c)
  | [] => ([], c)

def skipBreak (c : Cursor) : Cursor := c.takeBreak.2

def skipComment (c : Cursor) : Cursor :=
  let c := c.skipWhile isSpacing
  if c.sees '#' then c.skipWhile (!isBreak ·) else c

/-- Past the rest of a line that holds nothing but a comment, and past its end. -/
def skipLine? (c : Cursor) : Option Cursor :=
  let c := c.skipComment
  if c.atLineEnd then some c.skipBreak else none

/-- Whether three equal marks stand at the beginning of the line, with a gap behind them. -/
def seesMarker (c : Cursor) (mark : Char) : Bool :=
  c.column == 0 && (List.range 3).all (fun i => c.ahead i (· == mark)) && c.gapAt 3

def seesDocumentMarker (c : Cursor) : Bool := c.seesMarker '-' || c.seesMarker '.'

end Cursor

end Strongbox.Yaml
