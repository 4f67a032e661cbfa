/-
  Strongbox.Ed25519.Curve — the twisted Edwards curve −x² + y² = 1 + d·x²·y² over the field of
  2²⁵⁵ − 19 elements (RFC 8032, section 5.1).

  A point is kept in extended coordinates X, Y, Z, T with x = X/Z, y = Y/Z and x·y = T/Z, so
  that adding needs no division. It is written as its y with the lowest bit of x on top.
-/

import Strongbox.Bytes
import Strongbox.Number.Power

namespace Strongbox.Ed25519

def fieldOrder : Nat := (1 <<< 255) - 19

def groupOrder : Nat := (1 <<< 252) + 27742317777372353535851937790883648493

def neg (a : Nat) : Nat := (fieldOrder - a % fieldOrder) % fieldOrder
def sub (a b : Nat) : Nat := (a + neg b) % fieldOrder
def mul (a b : Nat) : Nat := a * b % fieldOrder
def inverse (a : Nat) : Nat := Number.powMod fieldOrder a (fieldOrder - 2)

def curveConstant : Nat := mul (neg 121665) (inverse 121666)

def rootOfMinusOne : Nat := Number.powMod fieldOrder 2 ((fieldOrder - 1) / 4)

/-- The even square root, if there is one. -/
def squareRoot? (a : Nat) : Option Nat :=
  let r := Number.powMod fieldOrder a ((fieldOrder + 3) / 8)
  let even := fun r => if r % 2 = 0 then r else neg r
  if mul r r = a % fieldOrder then some (even r)
  else
    let r := mul r rootOfMinusOne
    if mul r r = a % fieldOrder then some (even r) else none

structure Point where
  x : Nat
  y : Nat
  z : Nat
  t : Nat

namespace Point

def zero : Point := ⟨0, 1, 1, 0⟩

def ofAffine (x y : Nat) : Point := ⟨x, y, 1, mul x y⟩

def add (p q : Point) : Point :=
  let a := mul (sub p.y p.x) (sub q.y q.x)
  let b := mul (p.y + p.x) (q.y + q.x)
  let c := mul (mul p.t (2 * curveConstant)) q.t
  let d := mul p.z (2 * q.z)
  let e := sub b a
  let f := sub d c
  let g := (d + c) % fieldOrder
  let h := (b + a) % fieldOrder
  ⟨mul e f, mul g h, mul f g, mul e h⟩

def negate (p : Point) : Point := { p with x := neg p.x, t := neg p.t }

/-- `n` times a point, with one doubling for each bit of `n`. -/
def times (n : Nat) (p : Point) : Point :=
  if n = 0 then zero
  else
    let half := times (n / 2) p
    let twice := add half half
    if n % 2 = 0 then twice else add twice p
termination_by n
decreasing_by omega

/-- The point on 32 octets, least significant first. -/
def toBytes (p : Point) : Bytes :=
  let i := inverse p.z
  (Bytes.ofNat 32 (mul p.y i + (1 <<< 255) * (mul p.x i % 2))).reverse

/-- The point that 32 octets write. A y that is not reduced is taken modulo the field's order. -/
def ofBytes? (b : Bytes) : Option Point :=
  if b.length ≠ 32 then none
  else
    let n := Bytes.toNat b.reverse
    let y := n % (1 <<< 255) % fieldOrder
    let yy := mul y y
    (squareRoot? (mul (sub yy 1) (inverse (mul curveConstant yy + 1)))).map fun x =>
      ofAffine (if n >>> 255 = 1 then neg x else x) y

/-- The base point: y is 4/5 and x is even. -/
def base : Point := (ofBytes? (0x58 :: List.replicate 31 0x66)).getD zero

end Point

end Strongbox.Ed25519
