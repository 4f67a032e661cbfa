/-
  Strongbox.Aes.Block — the AES block cipher (FIPS 197), both ways, for keys of 16, 24 and
  32 octets.

  A block is four columns of four octets. Octets are polynomials over the two-element field
  modulo x⁸ + x⁴ + x³ + x + 1; the substitution box is computed from that.
-/

import Strongbox.Bytes

namespace Strongbox.Aes

/-- Sixteen octets, column after column. -/
abbrev Block := Vector UInt8 16

/-- The first sixteen octets; missing ones are zero. -/
def Block.ofBytes (b : Bytes) : Block := Vector.ofFn fun i => b.getD i.val 0

def Block.toBytes (s : Block) : Bytes := s.toList

def Block.xor (s t : Block) : Block := Vector.zipWith (· ^^^ ·) s t

/-! ## Octets as polynomials -/

def double (a : UInt8) : UInt8 := if a < 0x80 then a <<< 1 else (a <<< 1) ^^^ 0x1B

/-- Multiplication of `a` by the `n` low bits of `b`. -/
def times : (n : Nat) → (a b : UInt8) → UInt8
  | 0, _, _ => 0
  | n + 1, a, b => (if b &&& 1 = 1 then a else 0) ^^^ times n (double a) (b >>> 1)

def mul (a b : UInt8) : UInt8 := times 8 a b

def power (a : UInt8) : (n : Nat) → UInt8
  | 0 => 1
  | n + 1 => mul a (power a n)

/-- The multiplicative inverse, which is the 254th power; zero has zero. -/
def inverse (a : UInt8) : UInt8 := power a 254

def rotate (a n : UInt8) : UInt8 := (a <<< n) ||| (a >>> (8 - n))

/-- The substitution box: the inverse followed by an affine map over the bits. -/
def box : Array UInt8 :=
  Array.ofFn fun i : Fin 256 =>
    let a := inverse (UInt8.ofNat i.val)
    a ^^^ rotate a 1 ^^^ rotate a 2 ^^^ rotate a 3 ^^^ rotate a 4 ^^^ 0x63

def boxInverse : Array UInt8 :=
  (List.range 256).foldl (fun t i => t.set! (box.getD i 0).toNat (UInt8.ofNat i))
    (Array.replicate 256 0)

def substitute (a : UInt8) : UInt8 := box.getD a.toNat 0
def substituteBack (a : UInt8) : UInt8 := boxInverse.getD a.toNat 0

/-! ## Round keys -/

abbrev Column := List UInt8

/-- The columns of the key followed by `n` more; `older` holds them from the latest back, in
all `count` of them, `width` in the key, and `factor` is the next round constant. -/
def expand (width : Nat) : (n count : Nat) → (factor : UInt8) → (older : List Column) → List Column
  | 0, _, _, older => older
  | n + 1, count, factor, older =>
    let last := older.headD []
    let before := older.getD (width - 1) []
    if count % width = 0 then
      let turned := ((last.drop 1) ++ last.take 1).map substitute
      let mixed := turned.modify 0 (· ^^^ factor)
      expand width n (count + 1) (double factor) (Bytes.xor before mixed :: older)
    else if width > 6 ∧ count % width = 4 then
      expand width n (count + 1) factor (Bytes.xor before (last.map substitute) :: older)
    else expand width n (count + 1) factor (Bytes.xor before last :: older)

/-- The round keys of a key of 16, 24 or 32 octets: 11, 13 or 15 of them. -/
def roundKeys (key : Bytes) : List Block :=
  let columns := Bytes.chunks 4 key
  let width := columns.length
  let all := expand width (4 * (width + 7) - width) width 1 columns.reverse
  (Bytes.chunks 16 all.reverse.flatten).map Block.ofBytes

/-! ## The cipher -/

/-- Row `r` is moved `r` columns to the left. -/
def shiftRows (s : Block) : Block :=
  Vector.ofFn fun i => s[(i.val + 4 * (i.val % 4)) % 16]

def shiftRowsBack (s : Block) : Block :=
  Vector.ofFn fun i => s[(i.val + 12 * (i.val % 4)) % 16]

/-- Each octet becomes the combination of its column's octets, from itself downwards, with the
given factors. -/
def mixColumns (m0 m1 m2 m3 : UInt8 → UInt8) (s : Block) : Block :=
  Vector.ofFn fun i =>
    let column := 4 * (i.val / 4)
    have h : column + 4 ≤ 16 := by simp only [column]; omega
    m0 s[i] ^^^ m1 s[column + (i.val + 1) % 4]
      ^^^ m2 s[column + (i.val + 2) % 4]
      ^^^ m3 s[column + (i.val + 3) % 4]

def mixForward : Block → Block := mixColumns double (fun a => double a ^^^ a) id id

def mixBack : Block → Block := mixColumns (mul 14) (mul 11) (mul 13) (mul 9)

/-- The rounds with the given keys, the last one without mixing. -/
def rounds (s : Block) : List Block → Block
  | [] => s
  | [k] => (shiftRows (s.map substitute)).xor k
  | k :: ks => rounds ((mixForward (shiftRows (s.map substitute))).xor k) ks

def encipher (keys : List Block) (s : Block) : Block :=
  match keys with
  | [] => s
  | k :: ks => rounds (s.xor k) ks

/-- The rounds undone, the keys given from the last to the second. -/
def roundsBack (s : Block) : List Block → Block
  | [] => s
  | [k] => s.xor k
  | k :: ks => roundsBack ((shiftRowsBack (mixBack (s.xor k))).map substituteBack) ks

def decipher (keys : List Block) (s : Block) : Block :=
  match keys.reverse with
  | [] => s
  | k :: ks => roundsBack ((shiftRowsBack (s.xor k)).map substituteBack) ks

end Strongbox.Aes
