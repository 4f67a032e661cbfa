/-
  Strongbox.Json.Write — JSON texts of values, on one line or indented.
-/

namespace Strongbox.Json

/-- The values that are written. The members of an object keep their order. -/
inductive Value where
  | null
  | boolean (value : Bool)
  | string (value : String)
  | list (elements : List Value)
  | object (members : List (String × Value))

def escapedChar (c : Char) : List Char :=
  match c.toNat with
  | 34 => ['\\', c]
  | 92 => ['\\', c]
  | 8 => ['\\', 'b']
  | 9 => ['\\', 't']
  | 10 => ['\\', 'n']
  | 12 => ['\\', 'f']
  | 13 => ['\\', 'r']
  | n =>
    if n < 32 then ['\\', 'u', '0', '0', Nat.digitChar (n / 16), Nat.digitChar (n % 16)] else [c]

def quotedString (s : String) : String :=
  String.ofList ('\x22' :: s.toList.flatMap escapedChar ++ ['\x22'])

namespace Value

mutual

def compact : Value → String
  | null => "null"
  | boolean b => toString b
  | string s => quotedString s
  | list vs => "[" ++ String.intercalate "," (compactElements vs) ++ "]"
  | object ms => "\x7b" ++ String.intercalate "," (compactMembers ms) ++ "\x7d"

def compactElements : List Value → List String
  | [] => []
  | v :: vs => v.compact :: compactElements vs

def compactMembers : List (String × Value) → List String
  | [] => []
  | (k, v) :: ms => (quotedString k ++ ":" ++ v.compact) :: compactMembers ms

end

/-- Lines between an opening and a closing, indented by `depth` steps of two blanks. -/
def block (opening closing : String) (depth : Nat) : List String → String
  | [] => opening ++ closing
  | lines =>
    let pad := fun n => String.ofList (List.replicate (2 * n) ' ')
    opening ++ "\n" ++ String.intercalate ",\n" (lines.map (pad (depth + 1) ++ ·)) ++ "\n"
      ++ pad depth ++ closing

mutual

def indented (depth : Nat) : Value → String
  | null => "null"
  | boolean b => toString b
  | string s => quotedString s
  | list vs => block "[" "]" depth (indentedElements (depth + 1) vs)
  | object ms => block "\x7b" "\x7d" depth (indentedMembers (depth + 1) ms)

def indentedElements (depth : Nat) : List Value → List String
  | [] => []
  | v :: vs => v.indented depth :: indentedElements depth vs

def indentedMembers (depth : Nat) : List (String × Value) → List String
  | [] => []
  | (k, v) :: ms => (quotedString k ++ ": " ++ v.indented depth) :: indentedMembers depth ms

end

def whenSome (key : String) (shown : α → Value) : Option α → List (String × Value)
  | none => []
  | some a => [(key, shown a)]

def orNull (shown : α → Value) : Option α → Value
  | none => null
  | some a => shown a

end Value

end Strongbox.Json
