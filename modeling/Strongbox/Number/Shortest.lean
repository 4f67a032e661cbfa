/-
  Strongbox.Number.Shortest — the shortest decimal text of a binary floating-point number.

  The digits are the fewest that read back as the same number, and of those the nearest to it;
  of two that are as near, the even one.
  A number from 10⁻⁵ up to 10¹⁶ is written positionally with a decimal point, any other with an
  exponent that has a sign and at least two digits.
-/

namespace Strongbox.Number.Shortest

/-- A positive fraction together with the ends of the interval that rounds to it, all over one
denominator. -/
structure Interval where
  low : Nat
  value : Nat
  high : Nat
  denominator : Nat
  /-- Whether the ends themselves round to the value. -/
  closed : Bool

/-- The interval of a positive finite number given by its bits without the sign. -/
def Interval.ofBits (bits : Nat) : Interval :=
  let field := bits >>> 52
  let fraction := bits % (1 <<< 52)
  let m := if field = 0 then fraction else fraction + (1 <<< 52)
  let shift := max field 1
  -- the value is 4 m times the power of two with exponent shift - 1077
  let below := if fraction = 0 ∧ 1 < field then 1 else 2
  let scale := 1 <<< (shift - 1077)
  ⟨(4 * m - below) * scale, 4 * m * scale, (4 * m + 2) * scale, 1 <<< (1077 - shift), m % 2 == 0⟩

/-- Whether `c` times the step `num / den` rounds to the value. -/
def Interval.holds (i : Interval) (c num den : Nat) : Bool :=
  let x := c * num * i.denominator
  if i.closed then i.low * den ≤ x && x ≤ i.high * den else i.low * den < x && x < i.high * den

/-- The multiple of the step `num / den` next to the value that rounds to it, if there is one;
of two the nearer, and of two as near the even one. -/
def Interval.pick? (i : Interval) (num den : Nat) : Option Nat :=
  let c := i.value * den / (num * i.denominator)
  match i.holds c num den, i.holds (c + 1) num den with
  | true, true =>
    let down := i.value * den - c * num * i.denominator
    let up := (c + 1) * num * i.denominator - i.value * den
    if down < up || (down == up && c % 2 == 0) then some c else some (c + 1)
  | true, false => some c
  | false, true => some (c + 1)
  | false, false => none

/-- The first grid of steps, each a tenth of the one before, that has such a multiple. -/
def search (i : Interval) : (fuel : Nat) → (exponent : Int) → Nat × Int
  | 0, e => (0, e)
  | fuel + 1, e =>
    match i.pick? (Nat.pow 10 e.toNat) (Nat.pow 10 (-e).toNat) with
    | some c => (c, e)
    | none => search i fuel (e - 1)

/-- The text of a number whose digits are `c` and whose last digit has the weight of ten to the power `e`. -/
def layOut (c : Nat) (e : Int) : String :=
  let ds := Nat.toDigits 10 c
  let lead : Int := e + ds.length - 1
  if 0 ≤ e ∧ lead < 16 then
    String.ofList (ds ++ List.replicate e.toNat '0' ++ ['.', '0'])
  else if 0 ≤ lead ∧ lead < 16 then
    String.ofList (ds.take (lead.toNat + 1) ++ '.' :: ds.drop (lead.toNat + 1))
  else if -5 ≤ lead ∧ lead < 0 then
    String.ofList ('0' :: '.' :: List.replicate (-lead - 1).toNat '0' ++ ds)
  else
    let exponent := Nat.toDigits 10 lead.natAbs
    let padded := if exponent.length < 2 then '0' :: exponent else exponent
    let mantissa := match ds with
      | [] => []
      | [d] => [d]
      | d :: rest => d :: '.' :: rest
    String.ofList (mantissa ++ 'e' :: (if lead < 0 then '-' else '+') :: padded)

def text (x : Float) : String :=
  let bits := x.toBits.toNat
  let magnitude := bits % (1 <<< 63)
  let body :=
    if magnitude = 0 then "0.0"
    else
      let (c, e) := search (Interval.ofBits magnitude) 700 310
      layOut c e
  if bits < 1 <<< 63 then body else "-" ++ body

end Strongbox.Number.Shortest
