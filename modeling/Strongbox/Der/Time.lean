/-
  Strongbox.Der.Time — points in time, their two encodings and their text.

  The short form writes the last two digits of the year, where 50 and above mean the twentieth
  century; the long form writes all four. Both end in seconds and the letter Z. Times before
  1970 are refused.
-/

import Strongbox.Der.Element

namespace Strongbox.Der

structure DateTime where
  year : Nat
  month : Nat
  day : Nat
  hour : Nat
  minute : Nat
  second : Nat
  deriving DecidableEq, Repr

namespace DateTime

def isLeap (year : Nat) : Bool := year % 4 == 0 && (year % 100 != 0 || year % 400 == 0)

def daysInMonth (year month : Nat) : Nat :=
  match month with
  | 2 => if isLeap year then 29 else 28
  | 4 | 6 | 9 | 11 => 30
  | _ => 31

def isValid (t : DateTime) : Bool :=
  1970 ≤ t.year && t.year ≤ 9999 && 1 ≤ t.month && t.month ≤ 12 && 1 ≤ t.day
    && t.day ≤ daysInMonth t.year t.month && t.hour < 24 && t.minute < 60 && t.second < 60

/-- The days of the years before, counted from year one. -/
def daysBeforeYear (year : Nat) : Nat :=
  let y := year - 1
  365 * y + y / 4 - y / 100 + y / 400

def unixSeconds (t : DateTime) : Nat :=
  let years := daysBeforeYear t.year - daysBeforeYear 1970
  let months := (List.range (t.month - 1)).foldl (fun n m => n + daysInMonth t.year (m + 1)) years
  let days := months + (t.day - 1)
  ((days * 24 + t.hour) * 60 + t.minute) * 60 + t.second

def padded (width n : Nat) : String :=
  let ds := Nat.toDigits 10 n
  String.ofList (List.replicate (width - ds.length) '0' ++ ds)

def shown (t : DateTime) : String :=
  padded 4 t.year ++ "-" ++ padded 2 t.month ++ "-" ++ padded 2 t.day ++ "T" ++ padded 2 t.hour
    ++ ":" ++ padded 2 t.minute ++ ":" ++ padded 2 t.second ++ "+00:00"

end DateTime

/-- A point in time together with the form it is written in. -/
inductive Time where
  | short (moment : DateTime)
  | long (moment : DateTime)
  deriving DecidableEq, Repr

namespace Time

def dateTime : Time → DateTime
  | short t => t
  | long t => t

def pairs? : Bytes → Option (List Nat)
  | [] => some []
  | [_] => none
  | a :: b :: rest =>
    if 48 ≤ a ∧ a ≤ 57 ∧ 48 ≤ b ∧ b ≤ 57 then
      (pairs? rest).map (((a.toNat - 48) * 10 + (b.toNat - 48)) :: ·)
    else none

def numbers? (b : Bytes) : Option (List Nat) :=
  if b.getLast? = some 0x5A then pairs? b.dropLast else none

def ofElement? (e : Element) : Option Time :=
  if e.tag = Tag.utcTime then
    match numbers? e.content with
    | some [y, m, d, h, n, s] =>
      let t : DateTime := ⟨if y ≥ 50 then 1900 + y else 2000 + y, m, d, h, n, s⟩
      if t.isValid then some (short t) else none
    | _ => none
  else if e.tag = Tag.generalizedTime then
    match numbers? e.content with
    | some [c, y, m, d, h, n, s] =>
      let t : DateTime := ⟨100 * c + y, m, d, h, n, s⟩
      if t.isValid then some (long t) else none
    | _ => none
  else none

def content (ns : List Nat) : Bytes :=
  ns.flatMap (fun n => [UInt8.ofNat (48 + n / 10), UInt8.ofNat (48 + n % 10)]) ++ [0x5A]

def encode : Time → Bytes
  | short t => wrap Tag.utcTime (content [t.year % 100, t.month, t.day, t.hour, t.minute, t.second])
  | long t =>
    wrap Tag.generalizedTime
      (content [t.year / 100, t.year % 100, t.month, t.day, t.hour, t.minute, t.second])

end Time

def time : Parser Time := do
  match Time.ofElement? (← element) with
  | some t => return t
  | none => failure

end Strongbox.Der
