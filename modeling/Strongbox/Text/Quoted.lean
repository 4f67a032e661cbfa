/-
  Strongbox.Text.Quoted — texts and lists as diagnostics show them.

  A quoted text stands between double quotes; a backslash precedes a quote or a backslash,
  the usual controls have their letter, and every other hidden character is written as its
  code point: `u` and the number in braces. Lists stand between brackets and structures between
  braces, with a comma and a space between members.
-/

import Strongbox.Text.Printable

namespace Strongbox.Text

/-- The hexadecimal digits of `n`, least first, at most `fuel` of them. -/
def hexDigitsRev : (fuel n : Nat) → List Char
  | 0, _ => []
  | fuel + 1, n =>
    Nat.digitChar (n % 16) :: if n < 16 then [] else hexDigitsRev fuel (n / 16)

/-- The code point of a character, in lower-case hexadecimal without leading zeros. -/
def codePoint (c : Char) : List Char := (hexDigitsRev 8 c.toNat).reverse

def quotedChar (c : Char) : List Char :=
  match c.toNat with
  | 0 => ['\\', '0']
  | 9 => ['\\', 't']
  | 10 => ['\\', 'n']
  | 13 => ['\\', 'r']
  | 34 => ['\\', c]
  | 92 => ['\\', c]
  | _ => if Printable.isHidden c then ['\\', 'u', '\x7b'] ++ codePoint c ++ ['\x7d'] else [c]

def quoted (s : String) : String :=
  String.ofList ('\x22' :: s.toList.flatMap quotedChar ++ ['\x22'])

/-- A path between double quotes, where a single quote has a backslash too. -/
def quotedPath (s : String) : String :=
  String.ofList ('\x22' :: s.toList.flatMap (fun c => if c = '\x27' then ['\\', c] else quotedChar c)
    ++ ['\x22'])

def shownOption (shown : α → String) : Option α → String
  | none => "None"
  | some a => "Some(" ++ shown a ++ ")"

def shownList (shown : α → String) (as : List α) : String :=
  "[" ++ String.intercalate ", " (as.map shown) ++ "]"

def shownMap (kvs : List (String × String)) : String :=
  "\x7b" ++ String.intercalate ", " (kvs.map fun (k, v) => quoted k ++ ": " ++ quoted v) ++ "\x7d"

def shownStructure (name : String) (members : List (String × String)) : String :=
  name ++ " \x7b " ++ String.intercalate ", " (members.map fun (k, v) => k ++ ": " ++ v) ++ " \x7d"

end Strongbox.Text
