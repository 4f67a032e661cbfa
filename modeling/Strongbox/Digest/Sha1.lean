/-
  Strongbox.Digest.Sha1 — SHA-1 (FIPS 180-4).
-/

import Strongbox.Digest.Chain

namespace Strongbox.Digest.Sha1

structure State where
  a : UInt32
  b : UInt32
  c : UInt32
  d : UInt32
  e : UInt32

def start : State := ⟨0x67452301, 0xEFCDAB89, 0x98BADCFE, 0x10325476, 0xC3D2E1F0⟩

def rotateLeft (x n : UInt32) : UInt32 := (x <<< n) ||| (x >>> (32 - n))

/-- The words of a block followed by `n` more, each made from four words before it. -/
def schedule : (n : Nat) → Array UInt32 → Array UInt32
  | 0, ws => ws
  | n + 1, ws =>
    let i := ws.size
    let word := fun j => ws.getD (i - j) 0
    schedule n (ws.push (rotateLeft (word 3 ^^^ word 8 ^^^ word 14 ^^^ word 16) 1))

def mix (t : Nat) (b c d : UInt32) : UInt32 :=
  if t < 20 then (b &&& c) ||| (~~~b &&& d)
  else if t < 40 then b ^^^ c ^^^ d
  else if t < 60 then (b &&& c) ||| (b &&& d) ||| (c &&& d)
  else b ^^^ c ^^^ d

def constant (t : Nat) : UInt32 :=
  if t < 20 then 0x5A827999
  else if t < 40 then 0x6ED9EBA1
  else if t < 60 then 0x8F1BBCDC
  else 0xCA62C1D6

/-- The rounds from number `t` on, one for each message word. -/
def rounds (t : Nat) (s : State) : List UInt32 → State
  | [] => s
  | w :: ws =>
    let a := rotateLeft s.a 5 + mix t s.b s.c s.d + s.e + constant t + w
    rounds (t + 1) ⟨a, s.a, rotateLeft s.b 30, s.c, s.d⟩ ws

def compress (s : State) (block : Bytes) : State :=
  let words := (Bytes.chunks 4 block).map fun b => UInt32.ofNat b.toNat
  let t := rounds 0 s (schedule 64 words.toArray).toList
  ⟨s.a + t.a, s.b + t.b, s.c + t.c, s.d + t.d, s.e + t.e⟩

end Strongbox.Digest.Sha1

namespace Strongbox.Digest

def sha1 (message : Bytes) : Bytes :=
  let s := Chain.run 64 8 Sha1.compress Sha1.start message
  [s.a, s.b, s.c, s.d, s.e].flatMap fun w => Bytes.ofNat 4 w.toNat

end Strongbox.Digest
