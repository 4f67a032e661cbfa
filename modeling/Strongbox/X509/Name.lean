/-
  Strongbox.X509.Name — distinguished names and their text (RFC 4514).

  A name is a list of sets of attributes. The text gives the sets from the last to the first
  with commas between them and a plus sign inside a set. An attribute that has a short name and
  a readable value is written as both; any other as its identifier and the hexadecimal encoding
  of its value.
-/

import Strongbox.Der.Value
import Strongbox.Text.Hex

namespace Strongbox.X509

open Der

structure Attribute where
  type : Oid
  value : Element
  deriving DecidableEq, Repr

/-- A set of attributes, sorted by their encodings and without repetitions. -/
abbrev AttributeSet := List Attribute

abbrev Name := List AttributeSet

namespace Attribute

def encode (a : Attribute) : Bytes := wrap Tag.sequence (a.type.encode ++ a.value.encode)

def parser : Parser Attribute := sequence do
  return ⟨← objectIdentifier, ← element⟩

def standardNames : List (Nat × String) :=
  [(3, "CN"), (4, "SN"), (5, "SERIALNUMBER"), (6, "C"), (7, "L"), (8, "ST"), (9, "STREET"),
    (10, "O"), (11, "OU"), (12, "TITLE"), (13, "DESCRIPTION"), (14, "SEARCHGUIDE"),
    (15, "BUSINESSCATEGORY"), (16, "POSTALADDRESS"), (17, "POSTALCODE"), (18, "POSTOFFICEBOX"),
    (19, "PHYSICALDELIVERYOFFICENAME"), (20, "TELEPHONENUMBER"), (21, "TELEXNUMBER"),
    (22, "TELETEXTERMINALIDENTIFIER"), (23, "FACSIMILETELEPHONENUMBER"), (24, "X121ADDRESS"),
    (25, "INTERNATIONALISDNNUMBER"), (26, "REGISTEREDADDRESS"), (27, "DESTINATIONINDICATOR"),
    (28, "PREFERREDDELIVERYMETHOD"), (31, "MEMBER"), (32, "OWNER"), (33, "ROLEOCCUPANT"),
    (34, "SEEALSO"), (35, "USERPASSWORD"), (41, "NAME"), (42, "GIVENNAME"), (43, "INITIALS"),
    (44, "GENERATIONQUALIFIER"), (45, "X500UNIQUEIDENTIFIER"), (46, "DNQUALIFIER"),
    (47, "ENHANCEDSEARCHGUIDE"), (49, "DISTINGUISHEDNAME"), (50, "UNIQUEMEMBER"),
    (51, "HOUSEIDENTIFIER"), (65, "PSEUDONYM")]

def shortNames : List (Oid × String) :=
  standardNames.map (fun (n, s) => (Oid.ofArcs [2, 5, 4, n], s))
    ++ [(Oid.ofArcs [1, 2, 840, 113549, 1, 9, 1], "EMAIL"),
      (Oid.ofArcs [0, 9, 2342, 19200300, 100, 1, 1], "UID"),
      (Oid.ofArcs [0, 9, 2342, 19200300, 100, 1, 25], "DC")]

def isPrintable (b : Bytes) : Bool :=
  b.all fun x =>
    let c := Char.ofNat x.toNat
    c.isAlphanum || " '()+,-./:=?".toList.contains c

def text? (a : Attribute) : Option String :=
  let b := a.value.content
  let ascii := b.all (· < 0x80)
  if a.value.tag = Tag.utf8String then Bytes.toString? b
  else if a.value.tag = Tag.printableString then
    if isPrintable b then Bytes.toString? b else none
  else if a.value.tag = Tag.ia5String ∨ a.value.tag = Tag.teletexString then
    if ascii then Bytes.toString? b else none
  else none

/-- One character of a value; `first` and `last` say where it stands. -/
def escapedChar (first last : Bool) (c : Char) : List Char :=
  let n := c.toNat
  if (c = '#' ∧ first) ∨ (c = ' ' ∧ (first ∨ last)) ∨ "\x22+,;<>\\".toList.contains c then ['\\', c]
  else if n < 32 ∨ n = 127 then
    ['\\', Nat.digitChar (n / 16), Nat.digitChar (n % 16)]
  else [c]

def escaped (s : String) : String :=
  let cs := s.toList
  String.ofList <| (cs.zipIdx.map fun (c, i) => escapedChar (i = 0) (i + 1 = cs.length) c).flatten

def shown (a : Attribute) : String :=
  match shortNames.lookup a.type, a.text? with
  | some name, some text => name ++ "=" ++ escaped text
  | _, _ => a.type.shown ++ "=#" ++ Hex.encodeLower a.value.encode

end Attribute

/-- Puts an attribute in its place; one that is there already is refused. -/
def insertSorted? (a : Attribute) : AttributeSet → Option AttributeSet
  | [] => some [a]
  | b :: bs =>
    if a = b then none
    else if a.encode < b.encode then some (a :: b :: bs)
    else (insertSorted? a bs).map (b :: ·)

def sorted? : List Attribute → Option AttributeSet
  | [] => some []
  | a :: as => (sorted? as).bind (insertSorted? a)

def attributeSet : Parser AttributeSet := do
  match sorted? (← listOf Tag.set Attribute.parser) with
  | some s => return s
  | none => failure

def name : Parser Name := listOf Tag.sequence attributeSet

def encodeName (n : Name) : Bytes :=
  wrap Tag.sequence (n.flatMap fun s => wrap Tag.set (s.flatMap Attribute.encode))

def shownName (n : Name) : String :=
  String.intercalate "," (n.reverse.map fun s => String.intercalate "+" (s.map Attribute.shown))

end Strongbox.X509
