/-
  Strongbox.Yaml.Scalar — the texts of scalars: plain, quoted and in blocks.

  Inside a plain or quoted scalar, the line breaks between two pieces of text are folded: a
  single one becomes a space, and of several the first one is dropped. Spacing around a line
  break is dropped too.
-/

import Strongbox.Yaml.Cursor

namespace Strongbox.Yaml

inductive ScalarStyle where
  | plain
  | singleQuoted
  | doubleQuoted
  | literal
  | folded
  deriving DecidableEq, Repr

/-! ## Between two pieces of text -/

structure Gap where
  /-- The spacing before the first line break. -/
  spacing : List Char := []
  /-- Whether there is a line break, an escaped one included. -/
  isBroken : Bool := false
  /-- The first line break, unless it is escaped. -/
  first : List Char := []
  /-- The other line breaks. -/
  others : List Char := []

namespace Gap

def fold (g : Gap) : List Char :=
  if !g.isBroken then g.spacing
  else if g.first == ['\n'] then (if g.others.isEmpty then [' '] else g.others)
  else g.first ++ g.others

def addBreak (g : Gap) (b : List Char) : Gap :=
  if g.isBroken then { g with others := g.others ++ b }
  else { g with spacing := [], isBroken := true, first := b }

/-- The rest of a gap, of at most `fuel` characters. A tab must not stand before column `indent`
of a new line. -/
def read (fuel : Nat) (indent : Int) (g : Gap) (c : Cursor) : Option (Gap × Cursor) :=
  match fuel, c.rest with
  | fuel + 1, x :: _ =>
    if isSpacing x then
      if !g.isBroken then read fuel indent { g with spacing := g.spacing ++ [x] } (c.skip 1)
      else if x == '\t' && decide (Int.ofNat c.column < indent) then none
      else read fuel indent g (c.skip 1)
    else if isBreak x then
      let (b, c) := c.takeBreak
      read fuel indent (g.addBreak b) c
    else some (g, c)
  | _, _ => some (g, c)

end Gap

/-! ## Plain scalars -/

def isFlowMark (c : Char) : Bool := c == ',' || c == '[' || c == ']' || c == '{' || c == '}'

/-- How many characters of a plain scalar stand here without a gap. A colon before a mark is
refused in a flow collection. -/
def plainRun (flow : Bool) : List Char → Option Nat
  | [] => some 0
  | x :: rest =>
    if isSpacing x || isBreak x then some 0
    else
      let next := rest.head?
      if flow && x == ':' && next.any (fun y => isFlowMark y || y == '?') then none
      else if x == ':' && next.all (fun y => isSpacing y || isBreak y) then some 0
      else if flow && isFlowMark x then some 0
      else (plainRun flow rest).map (· + 1)

structure PlainScalar where
  text : List Char
  /-- Whether line breaks follow that are not part of it. -/
  isBroken : Bool
  after : Cursor

/-- The rest of a plain scalar behind `text` and a gap, in at most `fuel` pieces. Outside of flow
collections its lines must be indented more than what surrounds it. -/
def plainFrom (fuel : Nat) (flow : Bool) (indent : Int) (text : List Char) (gap : Gap)
    (c : Cursor) : Option PlainScalar := do
  let stop : PlainScalar := { text, isBroken := gap.isBroken, after := c }
  match fuel with
  | 0 => return stop
  | fuel + 1 =>
    if c.seesDocumentMarker || c.sees '#' then return stop
    let n ← plainRun flow c.rest
    let (text, gap) :=
      if n = 0 then (text, gap) else (text ++ gap.fold ++ c.rest.take n, ({} : Gap))
    let c := c.skip n
    if !(c.ahead 0 isSpacing || c.seesBreak) then
      return { text, isBroken := gap.isBroken, after := c }
    let (gap, c) ← gap.read c.rest.length (indent + 1) c
    if !flow && decide (Int.ofNat c.column < indent + 1) then
      return { text, isBroken := gap.isBroken, after := c }
    plainFrom fuel flow indent text gap c

def plainScalar? (flow : Bool) (indent : Int) (c : Cursor) : Option PlainScalar :=
  plainFrom (c.rest.length + 1) flow indent [] {} c

/-! ## Quoted scalars -/

def hexDigit? (c : Char) : Option Nat :=
  if c.isDigit then some (c.toNat - 48)
  else if 'a' ≤ c ∧ c ≤ 'f' then some (c.toNat - 87)
  else if 'A' ≤ c ∧ c ≤ 'F' then some (c.toNat - 55)
  else none

def hexNumber? (cs : List Char) : Option Nat :=
  cs.foldlM (fun n c => (hexDigit? c).map (16 * n + ·)) 0

def codePointEscape? (digits : Nat) (cs : List Char) : Option (Char × Nat) := do
  guard (digits ≤ cs.length)
  let n ← hexNumber? (cs.take digits)
  guard n.isValidChar
  return (Char.ofNat n, digits)

/-- The character that an escape stands for, and how many characters the escape has behind the
backslash. -/
def escape? : List Char → Option (Char × Nat)
  | [] => none
  | e :: rest =>
    let single := fun (n : Nat) => some (Char.ofNat n, 1)
    let coded := fun (digits : Nat) => (codePointEscape? digits rest).map fun (c, n) => (c, n + 1)
    match e with
    | '0' => single 0
    | 'a' => single 7
    | 'b' => single 8
    | 't' => single 9
    | '\t' => single 9
    | 'n' => single 10
    | 'v' => single 11
    | 'f' => single 12
    | 'r' => single 13
    | 'e' => single 27
    | ' ' => single 32
    | '\x22' => single 34
    | '/' => single 47
    | '\\' => single 92
    | 'N' => single 0x85
    | '_' => single 0xA0
    | 'L' => single 0x2028
    | 'P' => single 0x2029
    | 'x' => coded 2
    | 'u' => coded 4
    | 'U' => coded 8
    | _ => none

/-- A piece of a quoted scalar: up to the closing quote, spacing or the end of the line. -/
structure QuotedRun where
  text : List Char
  /-- Whether the piece ended with an escaped line break. -/
  isBroken : Bool := false
  after : Cursor

def quotedRun (fuel : Nat) (quote : Char) (text : List Char) (c : Cursor) : Option QuotedRun :=
  match fuel, c.rest with
  | fuel + 1, x :: rest =>
    if isSpacing x || isBreak x then some { text, after := c }
    else if x == quote then
      if quote == '\x27' && rest.head? == some quote then
        quotedRun fuel quote (text ++ [quote]) (c.skip 2)
      else some { text, after := c }
    else if quote == '\x22' && x == '\\' then
      if rest.head?.any isBreak then
        some { text, isBroken := true, after := (c.skip 1).skipBreak }
      else
        match escape? rest with
        | some (y, n) => quotedRun fuel quote (text ++ [y]) (c.skip (n + 1))
        | none => none
    else quotedRun fuel quote (text ++ [x]) (c.skip 1)
  | _, _ => some { text, after := c }

def quotedFrom (fuel : Nat) (quote : Char) (text : List Char) (c : Cursor) :
    Option (List Char × Cursor) := do
  match fuel with
  | 0 => none
  | fuel + 1 =>
    if c.seesDocumentMarker || c.atEnd then none
    let run ← quotedRun c.rest.length quote text c
    if run.after.sees quote then return (run.text, run.after.skip 1)
    let gap : Gap := { isBroken := run.isBroken }
    let (gap, c) ← gap.read run.after.rest.length 0 run.after
    quotedFrom fuel quote (run.text ++ gap.fold) c

def quotedScalar? (quote : Char) (c : Cursor) : Option (List Char × Cursor) :=
  quotedFrom (c.rest.length + 1) quote [] (c.skip 1)

/-! ## Block scalars -/

inductive Chomping where
  | strip
  | clip
  | keep
  deriving DecidableEq, Repr

def chomping? (c : Cursor) : Option Chomping :=
  if c.sees '+' then some .keep else if c.sees '-' then some .strip else none

/-- A digit that says how far a block is indented; zero is refused. -/
def indentDigit? (c : Cursor) : Option (Option Nat) :=
  match c.rest.head? with
  | some x =>
    if x == '0' then none else if x.isDigit then some (some (x.toNat - 48)) else some none
  | none => some none

def blockHeader? (c : Cursor) : Option (Chomping × Option Nat × Cursor) := do
  match chomping? c with
  | some chomping =>
    let c := c.skip 1
    let digit ← indentDigit? c
    return (chomping, digit, c.skip digit.toList.length)
  | none =>
    let digit ← indentDigit? c
    let c := c.skip digit.toList.length
    if digit.isNone then return (.clip, none, c)
    match chomping? c with
    | some chomping => return (chomping, digit, c.skip 1)
    | none => return (.clip, digit, c)

/-- Past empty lines and the indentation of the next line. The indentation is the given one, or
any if none is given yet. The widest one that was seen comes back too. -/
def blockBreaks (fuel : Nat) (indent : Option Nat) (widest : Nat) (breaks : List Char)
    (c : Cursor) : Option (List Char × Nat × Cursor) :=
  let width := (c.rest.takeWhile (· == ' ')).length
  let c := c.skip (match indent with
    | some n => min width (n - c.column)
    | none => width)
  let widest := max widest c.column
  if c.sees '\t' && indent.all (c.column < ·) then none
  else
    match fuel with
    | 0 => some (breaks, widest, c)
    | fuel + 1 =>
      if c.seesBreak then
        let (b, c) := c.takeBreak
        blockBreaks fuel indent widest (breaks ++ b) c
      else some (breaks, widest, c)

structure BlockText where
  text : List Char := []
  /-- The end of the last line. -/
  lineBreak : List Char := []
  /-- The empty lines behind it. -/
  emptyLines : List Char
  /-- Whether the last line begins with spacing. -/
  isSpaced : Bool := false

namespace BlockText

/-- The text with a line added. A folded block joins two lines by a space unless one of them
begins with spacing. -/
def addLine (b : BlockText) (literal : Bool) (line lineBreak emptyLines : List Char) : BlockText :=
  let spaced := line.head?.any isSpacing
  let joint :=
    if !literal && b.lineBreak == ['\n'] && !b.isSpaced && !spaced then
      if b.emptyLines.isEmpty then [' '] else []
    else b.lineBreak
  { text := b.text ++ joint ++ b.emptyLines ++ line, lineBreak, emptyLines, isSpaced := spaced }

def chomp (b : BlockText) : Chomping → List Char
  | .strip => b.text
  | .clip => b.text ++ b.lineBreak
  | .keep => b.text ++ b.lineBreak ++ b.emptyLines

end BlockText

def blockLines (fuel : Nat) (literal : Bool) (indent : Nat) (b : BlockText) (c : Cursor) :
    Option (BlockText × Cursor) := do
  match fuel with
  | 0 => return (b, c)
  | fuel + 1 =>
    if c.column != indent || c.atEnd then return (b, c)
    let (line, c) := c.takeWhile (!isBreak ·)
    let (lineBreak, c) := c.takeBreak
    let (emptyLines, _, c) ← blockBreaks c.rest.length (some indent) 0 [] c
    blockLines fuel literal indent (b.addLine literal line lineBreak emptyLines) c

def blockScalar? (literal : Bool) (indent : Int) (c : Cursor) : Option (List Char × Cursor) := do
  let (chomping, digit, c) ← blockHeader? (c.skip 1)
  let c ← c.skipLine?
  let fixed := digit.map fun d => indent.toNat + d
  let (emptyLines, widest, c) ← blockBreaks c.rest.length fixed 0 [] c
  let width := fixed.getD (max widest (max (indent + 1).toNat 1))
  let (b, c) ← blockLines c.rest.length literal width { emptyLines } c
  return (b.chomp chomping, c)

end Strongbox.Yaml
