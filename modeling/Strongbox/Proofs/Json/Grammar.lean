/-
  Strongbox.Proofs.Json.Grammar — the texts that a JSON value can be written as.

  A value has many texts: blanks stand around any token, the characters of a string stand for
  themselves or are escaped in one of several ways, and the members of an object have an order.
  The grammar says which octets are a text of a value without saying how a text is read.
  - `Spells`: the octets between the quotes of a string.
  - `Renders`, `RendersElement`: the texts of a value, without and with blanks around it.
-/

import Strongbox.Bytes

namespace Strongbox.Json

/-! ## Numbers -/

def decimalOctet (d : Fin 10) : UInt8 := UInt8.ofNat (48 + d)

structure Digits where
  first : Fin 10
  more : List (Fin 10)

def Digits.octets (d : Digits) : Bytes := decimalOctet d.first :: d.more.map decimalOctet

inductive Sign where
  | none
  | plus
  | minus

def Sign.octets : Sign → Bytes
  | none => []
  | plus => [43]
  | minus => [45]

structure Exponent where
  capital : Bool
  sign : Sign
  digits : Digits

def Exponent.octets (e : Exponent) : Bytes :=
  (if e.capital then 69 else 101) :: (e.sign.octets ++ e.digits.octets)

/-- A number as it is written. Its digits begin with zero only where the zero is alone. -/
structure Numeral where
  negative : Bool
  whole : Digits
  fraction : Option Digits
  exponent : Option Exponent
  alone : whole.first = 0 → whole.more = []

namespace Numeral

def fractionOctets (n : Numeral) : Bytes := (n.fraction.map fun d => 46 :: d.octets).getD []

def exponentOctets (n : Numeral) : Bytes := (n.exponent.map Exponent.octets).getD []

def unsigned (n : Numeral) : Bytes := n.whole.octets ++ (n.fractionOctets ++ n.exponentOctets)

def octets (n : Numeral) : Bytes := if n.negative then 45 :: n.unsigned else n.unsigned

end Numeral

/-! ## Strings -/

def IsHexDigit (n : Nat) (b : UInt8) : Prop :=
  n < 10 ∧ b.toNat = 48 + n ∨ 10 ≤ n ∧ n < 16 ∧ (b.toNat = 55 + n ∨ b.toNat = 87 + n)

instance (n : Nat) (b : UInt8) : Decidable (IsHexDigit n b) := inferInstanceAs (Decidable (_ ∨ _))

inductive SpellsUnit : Nat → Bytes → Prop where
  | mk {i j k l : Nat} {a b c d : UInt8} : IsHexDigit i a → IsHexDigit j b → IsHexDigit k c →
    IsHexDigit l d → SpellsUnit (((i * 16 + j) * 16 + k) * 16 + l) [a, b, c, d]

def shortEscapes : List (UInt8 × Char) :=
  [(34, '\x22'), (92, '\\'), (47, '/'), (98, '\x08'), (102, '\x0c'), (110, '\n'), (114, '\r'),
    (116, '\t')]

/-- What can stand behind a backslash for a character: a letter, the code unit of the character,
or the two code units of a character that has no single one. -/
inductive Escapes : Char → Bytes → Prop where
  | short {b : UInt8} {c : Char} : (b, c) ∈ shortEscapes → Escapes c [b]
  | unit {c : Char} {b : Bytes} : SpellsUnit c.toNat b → Escapes c (117 :: b)
  | pair {c : Char} {b b' : Bytes} : 0x10000 ≤ c.toNat →
    SpellsUnit (0xD800 + (c.toNat - 0x10000) / 0x400) b →
    SpellsUnit (0xDC00 + (c.toNat - 0x10000) % 0x400) b' →
    Escapes c (117 :: (b ++ 92 :: 117 :: b'))

/-- The octets of some characters between quotes. Quotes, backslashes and controls do not stand
for themselves. -/
inductive Spells : List Char → Bytes → Prop where
  | nil : Spells [] []
  | plain {c : Char} {cs : List Char} {b : Bytes} : c.toNat ≠ 34 → c.toNat ≠ 92 →
    ¬ c.toNat < 32 → Spells cs b → Spells (c :: cs) (String.utf8EncodeChar c ++ b)
  | escaped {c : Char} {cs : List Char} {e b : Bytes} : Escapes c e → Spells cs b →
    Spells (c :: cs) (92 :: (e ++ b))

inductive Quotes : String → Bytes → Prop where
  | mk {s : String} {b : Bytes} : Spells s.toList b → Quotes s (34 :: (b ++ [34]))

/-! ## Values -/

/-- The values of JSON. Members of one name may occur more than once. -/
inductive Tree where
  | null
  | boolean (value : Bool)
  | number (value : Numeral)
  | string (value : String)
  | list (elements : List Tree)
  | object (members : List (String × Tree))

def Blank (w : Bytes) : Prop := ∀ b ∈ w, b = 32 ∨ b = 9 ∨ b = 10 ∨ b = 13

instance (w : Bytes) : Decidable (Blank w) := List.decidableBAll _ w

mutual

/-- The octets of a value, from its first token to its last. -/
inductive Renders : Tree → Bytes → Prop where
  | null : Renders .null [110, 117, 108, 108]
  | yes : Renders (.boolean true) [116, 114, 117, 101]
  | no : Renders (.boolean false) [102, 97, 108, 115, 101]
  | number (n : Numeral) : Renders (.number n) n.octets
  | string {s : String} {b : Bytes} : Quotes s b → Renders (.string s) b
  | emptyList {w : Bytes} : Blank w → Renders (.list []) (91 :: (w ++ [93]))
  | list {v : Tree} {vs : List Tree} {b : Bytes} : RendersElements v vs b →
    Renders (.list (v :: vs)) (91 :: (b ++ [93]))
  | emptyObject {w : Bytes} : Blank w → Renders (.object []) (123 :: (w ++ [125]))
  | object {m : String × Tree} {ms : List (String × Tree)} {b : Bytes} : RendersMembers m ms b →
    Renders (.object (m :: ms)) (123 :: (b ++ [125]))

inductive RendersElement : Tree → Bytes → Prop where
  | mk {v : Tree} {w b w' : Bytes} : Blank w → Renders v b → Blank w' →
    RendersElement v (w ++ (b ++ w'))

inductive RendersMember : String × Tree → Bytes → Prop where
  | mk {k : String} {v : Tree} {w b w' b' : Bytes} : Blank w → Quotes k b → Blank w' →
    RendersElement v b' → RendersMember (k, v) (w ++ (b ++ (w' ++ 58 :: b')))

inductive RendersElements : Tree → List Tree → Bytes → Prop where
  | one {v : Tree} {b : Bytes} : RendersElement v b → RendersElements v [] b
  | more {v v' : Tree} {vs : List Tree} {b b' : Bytes} : RendersElement v b →
    RendersElements v' vs b' → RendersElements v (v' :: vs) (b ++ 44 :: b')

inductive RendersMembers : String × Tree → List (String × Tree) → Bytes → Prop where
  | one {m : String × Tree} {b : Bytes} : RendersMember m b → RendersMembers m [] b
  | more {m m' : String × Tree} {ms : List (String × Tree)} {b b' : Bytes} : RendersMember m b →
    RendersMembers m' ms b' → RendersMembers m (m' :: ms) (b ++ 44 :: b')

end

theorem rendersElement_of_renders {v : Tree} {b : Bytes} (h : Renders v b) : RendersElement v b := by
  have he := RendersElement.mk (nofun : Blank []) h (nofun : Blank [])
  rwa [List.nil_append, List.append_nil] at he

end Strongbox.Json
