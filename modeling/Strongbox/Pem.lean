/-
  Strongbox.Pem — text armour for encodings (RFC 7468).

  A block stands between a boundary line that begins with BEGIN and one that begins with END,
  both with the same label. Text may stand before the first boundary, and one line ending may
  follow the last. The body is base64 in lines of exactly 64 characters, the last one possibly
  shorter; its padding is strict.
-/

import Strongbox.Text.Base64

namespace Strongbox.Pem

structure Block where
  label : String
  body : Bytes
  deriving DecidableEq, Repr

def ascii (s : String) : Bytes := Bytes.ofString s

def opening : Bytes := ascii "-----BEGIN "
def closing : Bytes := ascii "-----END "
def dashes : Bytes := ascii "-----"

def startsWith (b start : Bytes) : Bool := start.isPrefixOf b

/-- The octets from the first boundary on; it stands at the beginning or behind a line feed,
and no zero octet may stand before it. -/
def fromBoundary? : Bytes → Option Bytes
  | [] => none
  | x :: rest =>
    if x = 0 then none
    else if x = 10 ∧ startsWith rest opening then some rest
    else fromBoundary? rest

def afterLineEnd? : Bytes → Option Bytes
  | 13 :: 10 :: rest => some rest
  | 13 :: rest => some rest
  | 10 :: rest => some rest
  | _ => none

/-- The octets without the line ending behind them, given in reverse. -/
def beforeLineEnd? : Bytes → Option Bytes
  | 10 :: 13 :: rest => some rest
  | 10 :: rest => some rest
  | 13 :: rest => some rest
  | _ => none

/-- How many octets form the label: visible characters other than the hyphen, with single
blanks between them. -/
def labelLength? : (n : Nat) → (afterBlank : Bool) → Bytes → Option Nat
  | n, _, [] => some n
  | n, afterBlank, x :: rest =>
    if x = 45 then some n
    else if 0x21 ≤ x ∧ x ≤ 0x7E then labelLength? (n + 1) false rest
    else if (x = 32 ∨ x = 9) ∧ n ≠ 0 ∧ !afterBlank then labelLength? (n + 1) true rest
    else none

def dropEnding? (ending b : Bytes) : Option Bytes :=
  if startsWith b ending then some (b.drop ending.length) else none

def split? (b : Bytes) : Option (String × Bytes) := do
  let b ← if startsWith b opening then some b else fromBoundary? b
  let b := b.drop opening.length
  let n ← labelLength? 0 false b
  let label := b.take n
  let b := b.drop n
  if !startsWith b dashes then none
  let inner ← afterLineEnd? (b.drop dashes.length)
  let r := inner.reverse
  let r ← dropEnding? dashes ((beforeLineEnd? r).getD r)
  let r ← dropEnding? label.reverse r
  let r ← dropEnding? closing.reverse r
  let r ← beforeLineEnd? r
  return (← Bytes.toString? label, r.reverse)

def joinLines? : (fuel : Nat) → Bytes → Option Bytes
  | 0, _ => none
  | fuel + 1, b =>
    let line := b.take 64
    match b.drop 64 with
    | [] => some ((beforeLineEnd? b.reverse).getD b.reverse).reverse
    | rest => do
      let rest ← afterLineEnd? rest
      if rest = [] then some line else (joinLines? fuel rest).map (line ++ ·)

def block? (b : Bytes) : Option Block := do
  let (label, lines) ← split? b
  let body ← joinLines? (lines.length + 1) lines
  if body = [] ∨ body.length % 4 ≠ 0 then none else some ⟨label, body⟩

def Block.decode? (b : Block) : Option Bytes := (Base64.decodeBytes b.body).toOption

/-- The octets of the body before the last four characters, which hold between one and three
more. -/
def Block.decodedLength? (b : Block) : Option Nat :=
  match Base64.decodeBytes (b.body.drop (b.body.length - 4)) with
  | .ok last => some (b.body.length / 4 * 3 - 3 + last.length)
  | .error _ => none

/-- The first `n` octets of the body at least; what follows them is not looked at, except for
the last four characters. -/
def Block.decodeFirst? (b : Block) (n : Nat) : Option Bytes := do
  let total ← b.decodedLength?
  if n ≥ total then b.decode?
  else
    let front := b.body.take ((n + 2) / 3 * 4)
    if front.length = b.body.length then b.decode?
    else if front.contains Base64.pad then none
    else (Base64.decodeBytes front).toOption

/-- The text of a block: lines of 64 characters between the boundaries. -/
def render (label : String) (b : Bytes) : Bytes :=
  let lines := Bytes.chunks 64 (Bytes.ofString (Base64.encode b))
  opening ++ ascii label ++ dashes ++ [10] ++ lines.flatMap (· ++ [10]) ++ closing ++ ascii label
    ++ dashes ++ [10]

/-- Whether some octets, blanks in front of them apart, begin like a block. -/
def looksLike (b : Bytes) : Bool :=
  startsWith (b.dropWhile fun x => x == 32 || x == 9 || x == 10 || x == 12 || x == 13)
    (ascii "-----BEGIN")

end Strongbox.Pem
