/-
  Strongbox.Yaml.Token — the tokens of a YAML text.

  Indentation becomes tokens too: a block begins where a line is indented more than the blocks
  around it, and ends before the first line that is indented less. Whether a scalar is a key
  shows only at the colon behind it; the token that announces the key is then put in front of
  it. Such a key ends on the line where it begins, within 1024 characters.
-/

import Strongbox.Text.Utf8
import Strongbox.Yaml.Scalar

namespace Strongbox.Yaml

inductive Token where
  | version (major minor : Nat)
  | tagHandle (handle leading : String)
  | documentStart
  | documentEnd
  | blockSequenceStart
  | blockMappingStart
  | blockEnd
  | flowSequenceStart
  | flowSequenceEnd
  | flowMappingStart
  | flowMappingEnd
  | blockEntry
  | flowEntry
  | key
  | value
  | anchor (name : String)
  | reference (name : String)
  | tag (handle rest : String)
  | scalar (style : ScalarStyle) (text : String)
  deriving DecidableEq, Repr

/-! ## Names, tags and directives -/

def anchorName? (c : Cursor) : Option (String × Cursor) :=
  let (name, after) := (c.skip 1).takeWhile isWord
  let closes := after.gapAt 0
    || after.ahead 0 (fun x => ['?', ':', ',', ']', '}', '%', '@', '\x60'].contains x)
  if !name.isEmpty && closes then some (String.ofList name, after) else none

def isTagCharacter (bracketed : Bool) (c : Char) : Bool :=
  isWord c || [';', '/', '?', ':', '@', '&', '=', '+', '$', '.', '%', '!', '~', '*', '\x27', '(',
    ')'].contains c || (bracketed && [',', '[', ']'].contains c)

def percentOctets? (fuel : Nat) : List Char → Option Bytes
  | '%' :: h :: l :: rest =>
    match fuel, hexNumber? [h, l] with
    | fuel + 1, some n => (percentOctets? fuel rest).map (UInt8.ofNat n :: ·)
    | _, _ => some []
  | _ => some []

def unescapedTag (fuel : Nat) (cs : List Char) : Option (List Char) :=
  match fuel, cs with
  | fuel + 1, '%' :: rest => do
    let octets ← percentOctets? 4 ('%' :: rest)
    let width := Text.Utf8.width (octets.headD 0xFF)
    guard (width ≠ 0 ∧ width ≤ octets.length)
    let text ← Bytes.toString? (octets.take width)
    return text.toList ++ (← unescapedTag fuel (('%' :: rest).drop (3 * width)))
  | fuel + 1, c :: rest => (unescapedTag fuel rest).map (c :: ·)
  | _, _ => some []

def tagText? (bracketed : Bool) (c : Cursor) : Option (List Char × Cursor) := do
  let (cs, after) := c.takeWhile (isTagCharacter bracketed)
  return (← unescapedTag cs.length cs, after)

/-- A handle: an exclamation mark, and a name with a second one if there is one. -/
def tagHandleText (c : Cursor) : List Char × Cursor :=
  let (name, after) := (c.skip 1).takeWhile isWord
  if after.sees '!' then ('!' :: name ++ ['!'], after.skip 1) else ('!' :: name, after)

/-- The tag that begins here: in angle brackets, behind a handle, or behind a single mark. -/
def tag? (flow : Bool) (c : Cursor) : Option (Token × Cursor) := do
  let (token, after) ←
    if c.ahead 1 (· == '<') then do
      let (text, after) ← tagText? true (c.skip 2)
      guard (!text.isEmpty && after.sees '>')
      pure (Token.tag "" (String.ofList text), after.skip 1)
    else do
      let (handle, behind) := tagHandleText c
      if handle.length > 1 && handle.getLast? == some '!' then
        let (text, after) ← tagText? false behind
        guard (!text.isEmpty)
        pure (Token.tag (String.ofList handle) (String.ofList text), after)
      else
        let (text, after) ← tagText? false behind
        match handle.drop 1 ++ text with
        | [] => pure (Token.tag "" "!", after)
        | text => pure (Token.tag "!" (String.ofList text), after)
  guard (after.gapAt 0 || (flow && after.sees ','))
  return (token, after)

/-- A number of at most nine digits. -/
def versionNumber? (c : Cursor) : Option (Nat × Cursor) := do
  let (digits, after) := c.takeWhile Char.isDigit
  guard (!digits.isEmpty && digits.length ≤ 9)
  return (digits.foldl (fun n d => 10 * n + (d.toNat - 48)) 0, after)

def directive? (c : Cursor) : Option (Token × Cursor) := do
  let (name, after) := (c.skip 1).takeWhile isWord
  guard (after.gapAt 0)
  let (token, after) ←
    match String.ofList name with
    | "YAML" => do
      let (major, after) ← versionNumber? (after.skipWhile isSpacing)
      guard (after.sees '.')
      let (minor, after) ← versionNumber? (after.skip 1)
      pure (Token.version major minor, after)
    | "TAG" => do
      let start := after.skipWhile isSpacing
      guard (start.sees '!')
      let (handle, after) := tagHandleText start
      guard (handle.length == 1 || handle.getLast? == some '!')
      guard (after.ahead 0 isSpacing)
      let (text, after) ← tagText? true (after.skipWhile isSpacing)
      guard (!text.isEmpty && after.gapAt 0)
      pure (Token.tagHandle (String.ofList handle) (String.ofList text), after)
    | _ => none
  return (token, ← after.skipLine?)

/-! ## The lexer -/

structure KeyPlace where
  /-- How many tokens stand before it. -/
  position : Nat
  index : Nat
  line : Nat
  column : Nat
  /-- Whether only a key can stand there. -/
  isRequired : Bool

structure Lexer where
  cursor : Cursor
  tokens : Array Token := #[]
  /-- The column of the innermost block, or -1. -/
  indent : Int := -1
  /-- The columns of the blocks around it. -/
  outerIndents : List Int := []
  /-- Where the last key may have begun. -/
  keyPlace : Option KeyPlace := none
  /-- The same for the flow collections that are open. -/
  outerKeys : List (Option KeyPlace) := []
  /-- Whether a key may begin here. -/
  keyAllowed : Bool := true

namespace Lexer

def inFlow (l : Lexer) : Bool := !l.outerKeys.isEmpty

def push (l : Lexer) (t : Token) : Lexer := { l with tokens := l.tokens.push t }

def take (l : Lexer) (t : Token) (n : Nat) : Lexer :=
  { l with tokens := l.tokens.push t, cursor := l.cursor.skip n }

/-- Begins a block at a column that is indented more than the block around it. Its token is put
in front of the token at `position`. -/
def openBlock (l : Lexer) (column position : Nat) (t : Token) : Lexer :=
  if l.inFlow || decide (Int.ofNat column ≤ l.indent) then l
  else
    { l with indent := column, outerIndents := l.indent :: l.outerIndents,
             tokens := l.tokens.insertIdxIfInBounds position t }

def closeBlocks (l : Lexer) (column : Int) : Lexer :=
  if l.inFlow then l else go l.outerIndents { l with outerIndents := [] }
where
  /-- `outer` are the columns of the blocks around the innermost one. -/
  go : List Int → Lexer → Lexer
    | [], l => l
    | o :: outer, l =>
      if l.indent > column then go outer { l.push .blockEnd with indent := o }
      else { l with outerIndents := o :: outer }

def dropKey? (l : Lexer) : Option Lexer :=
  if l.keyPlace.any (·.isRequired) then none else some { l with keyPlace := none }

def markKey? (l : Lexer) : Option Lexer := do
  if !l.keyAllowed then return l
  let c := l.cursor
  let place : KeyPlace :=
    { position := l.tokens.size, index := c.index, line := c.line, column := c.column,
      isRequired := !l.inFlow && l.indent == Int.ofNat c.column }
  return { (← l.dropKey?) with keyPlace := some place }

/-- The place of the key that ends here. One that lies too far back is none. -/
def currentKey? (l : Lexer) : Option (Option KeyPlace) :=
  match l.keyPlace with
  | none => some none
  | some k =>
    if k.line < l.cursor.line || k.index + 1024 < l.cursor.index then
      if k.isRequired then none else some none
    else some (some k)

/-- Past spacing, comments and line ends. A tab is no spacing where a key may begin in a block. -/
def skipGap (fuel : Nat) (l : Lexer) : Lexer :=
  let tabs := l.inFlow || !l.keyAllowed
  let c := if l.cursor.index == 0 && l.cursor.sees '\ufeff' then l.cursor.skip 1 else l.cursor
  let c := c.skipWhile fun x => x == ' ' || (tabs && x == '\t')
  let c := if c.sees '#' then c.skipWhile (!isBreak ·) else c
  match fuel with
  | 0 => { l with cursor := c }
  | fuel + 1 =>
    if c.seesBreak then
      skipGap fuel { l with cursor := c.skipBreak, keyAllowed := l.keyAllowed || !l.inFlow }
    else { l with cursor := c }

/-! ### One token -/

def documentMark? (l : Lexer) (t : Token) : Option Lexer := do
  let l ← (l.closeBlocks (-1)).dropKey?
  return { l with keyAllowed := false }.take t 3

def directiveLine? (l : Lexer) : Option Lexer := do
  let l ← (l.closeBlocks (-1)).dropKey?
  let (t, after) ← directive? l.cursor
  return { l with keyAllowed := false, cursor := after }.push t

def flowStart? (l : Lexer) (t : Token) : Option Lexer := do
  let l ← l.markKey?
  return { l with keyPlace := none, outerKeys := l.keyPlace :: l.outerKeys,
                  keyAllowed := true }.take t 1

def flowEnd? (l : Lexer) (t : Token) : Option Lexer := do
  let l ← l.dropKey?
  return { l with keyPlace := l.outerKeys.headD l.keyPlace, outerKeys := l.outerKeys.drop 1,
                  keyAllowed := false }.take t 1

def flowEntry? (l : Lexer) : Option Lexer := do
  return { (← l.dropKey?) with keyAllowed := true }.take .flowEntry 1

def blockEntry? (l : Lexer) : Option Lexer := do
  guard (l.inFlow || l.keyAllowed)
  let l ← (l.openBlock l.cursor.column l.tokens.size .blockSequenceStart).dropKey?
  return { l with keyAllowed := true }.take .blockEntry 1

def keyMark? (l : Lexer) : Option Lexer := do
  guard (l.inFlow || l.keyAllowed)
  let l ← (l.openBlock l.cursor.column l.tokens.size .blockMappingStart).dropKey?
  return { l with keyAllowed := !l.inFlow }.take .key 1

/-- The mark between a key and its value. A key that ends here is announced in front of it. -/
def valueMark? (l : Lexer) : Option Lexer := do
  match (← l.currentKey?) with
  | some k =>
    let l := { l with tokens := l.tokens.insertIdxIfInBounds k.position .key, keyPlace := none }
    let l := l.openBlock k.column k.position .blockMappingStart
    return { l with keyAllowed := false }.take .value 1
  | none =>
    guard (l.inFlow || l.keyAllowed)
    let l := l.openBlock l.cursor.column l.tokens.size .blockMappingStart
    return { l with keyPlace := none, keyAllowed := !l.inFlow }.take .value 1

def keyToken? (l : Lexer) (read : Cursor → Option (Token × Cursor)) : Option Lexer := do
  let l ← l.markKey?
  let (t, after) ← read l.cursor
  return { l with keyAllowed := false, cursor := after }.push t

def quoted? (l : Lexer) (style : ScalarStyle) (quote : Char) : Option Lexer :=
  l.keyToken? fun c =>
    (quotedScalar? quote c).map fun (text, after) => (.scalar style (String.ofList text), after)

def block? (l : Lexer) (style : ScalarStyle) : Option Lexer := do
  let l ← l.dropKey?
  let (text, after) ← blockScalar? (style == .literal) l.indent l.cursor
  return { l with keyAllowed := true, cursor := after }.push (.scalar style (String.ofList text))

def plain? (l : Lexer) : Option Lexer := do
  let l ← l.markKey?
  let s ← plainScalar? l.inFlow l.indent l.cursor
  return { l with keyAllowed := s.isBroken, cursor := s.after }.push
    (.scalar .plain (String.ofList s.text))

def isIndicator (c : Char) : Bool :=
  ['-', '?', ':', ',', '[', ']', '{', '}', '#', '&', '*', '!', '|', '>', '\x27', '\x22', '%', '@',
    '\x60'].contains c

/-- Whether a plain scalar begins here. A hyphen may begin one when no spacing follows, and so
may a question mark and a colon in a block. -/
def beginsPlain (l : Lexer) (x : Char) : Bool :=
  !isIndicator x || (x == '-' && !l.cursor.ahead 1 isSpacing)
    || (!l.inFlow && (x == '?' || x == ':') && !l.cursor.gapAt 1)

def next? (l : Lexer) (x : Char) : Option Lexer :=
  let c := l.cursor
  if c.column == 0 && x == '%' then l.directiveLine?
  else if c.seesMarker '-' then l.documentMark? .documentStart
  else if c.seesMarker '.' then l.documentMark? .documentEnd
  else if x == '[' then l.flowStart? .flowSequenceStart
  else if x == '{' then l.flowStart? .flowMappingStart
  else if x == ']' then l.flowEnd? .flowSequenceEnd
  else if x == '}' then l.flowEnd? .flowMappingEnd
  else if x == ',' then l.flowEntry?
  else if x == '-' && c.gapAt 1 then l.blockEntry?
  else if x == '?' && (l.inFlow || c.gapAt 1) then l.keyMark?
  else if x == ':' && (l.inFlow || c.gapAt 1) then l.valueMark?
  else if x == '*' then
    l.keyToken? fun c => (anchorName? c).map fun (name, after) => (.reference name, after)
  else if x == '&' then
    l.keyToken? fun c => (anchorName? c).map fun (name, after) => (.anchor name, after)
  else if x == '!' then l.keyToken? (tag? l.inFlow)
  else if x == '|' && !l.inFlow then l.block? .literal
  else if x == '>' && !l.inFlow then l.block? .folded
  else if x == '\x27' then l.quoted? .singleQuoted x
  else if x == '\x22' then l.quoted? .doubleQuoted x
  else if l.beginsPlain x then l.plain?
  else none

/-- All tokens; each but the last round reads one that has a character at least. -/
def run (fuel : Nat) (l : Lexer) : Option (Array Token) := do
  let l := l.skipGap l.cursor.rest.length
  match fuel, l.cursor.rest with
  | fuel + 1, x :: _ => run fuel (← (l.closeBlocks l.cursor.column).next? x)
  | _, _ => return (← (l.closeBlocks (-1)).dropKey?).tokens

end Lexer

def Token.ofText? (s : String) : Option (List Token) := do
  guard (s.toList.all isAllowed)
  return (← ({ cursor := .ofString s } : Lexer).run (s.length + 1)).toList

end Strongbox.Yaml
