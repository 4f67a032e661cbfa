/-
  Strongbox.Proofs.Text.Base64.Canonical — each octet string has one base64 text.

  The text of octets is told from their bits alone. Put in a row and filled up with zeros to a whole
  number of sixes, they are the values of the symbols, and padding makes whole quads of the symbols.
  The bits settle the symbols, and their number settles the padding. So octets have exactly one such
  text, and it is the one that is written; the reader takes this text, blanks around it apart, and
  no other.
  - `bits_add`, `flatMap_bits`: a row of bits is cut where its number is divided.
  - `Groups.unique`: octets are grouped in one way.
  - `isCanonical_iff`: the canonical text of octets is what they are written as.
  - `decode_eq_ok_iff_canonical`: what is read, and when two texts are read as the same.
-/

import Mathlib.Algebra.Ring.Nat
import Strongbox.Proofs.Text.Base64

namespace Strongbox.Base64

/-! ## Rows of bits -/

/-- The lowest bits of a number, the most significant one first. -/
def bits : (width : Nat) → (n : Nat) → List Bool
  | 0, _ => []
  | w + 1, n => n.testBit w :: bits w n

@[simp] theorem length_bits (w n : Nat) : (bits w n).length = w := by
  induction w with
  | zero => rfl
  | succ w ih => simp [bits, ih]

theorem bits_zero (w : Nat) : bits w 0 = List.replicate w false := by
  induction w with
  | zero => rfl
  | succ w ih => rw [bits, ih, Nat.zero_testBit, List.replicate_succ]

theorem bits_eq_iff {w m n : Nat} : bits w m = bits w n ↔ ∀ i < w, m.testBit i = n.testBit i := by
  induction w with
  | zero => simp [bits]
  | succ w ih =>
    rw [bits, bits, List.cons.injEq, ih]
    constructor
    · intro h i hi
      rcases Nat.lt_succ_iff_lt_or_eq.mp hi with hi | rfl
      · exact h.2 i hi
      · exact h.1
    · intro h
      exact ⟨h w (by omega), fun i hi => h i (by omega)⟩

theorem bits_inj {w m n : Nat} (hm : m < 2 ^ w) (hn : n < 2 ^ w) (h : bits w m = bits w n) :
    m = n := by
  refine Nat.eq_of_testBit_eq fun i => ?_
  by_cases hi : i < w
  · exact bits_eq_iff.mp h i hi
  · have hle : 2 ^ w ≤ 2 ^ i := Nat.pow_le_pow_right (by decide) (by omega)
    rw [Nat.testBit_lt_two_pow (by omega), Nat.testBit_lt_two_pow (by omega)]

/-- A row of bits is cut where the number is divided. -/
theorem bits_add (v w n : Nat) : bits (v + w) n = bits v (n / 2 ^ w) ++ bits w (n % 2 ^ w) := by
  induction v with
  | zero =>
    rw [Nat.zero_add, bits, List.nil_append, bits_eq_iff]
    intro i hi
    rw [Nat.testBit_mod_two_pow, decide_eq_true hi, Bool.true_and]
  | succ v ih =>
    rw [Nat.succ_add, bits, bits, ih, Nat.testBit_div_two_pow, List.cons_append]

theorem foldl_bits (w : Nat) {ds : List Nat} (h : ∀ d ∈ ds, d < 2 ^ w) (v acc : Nat) :
    bits (v + ds.length * w) (ds.foldl (fun n d => n * 2 ^ w + d) acc) =
      bits v acc ++ ds.flatMap (bits w) := by
  induction ds generalizing v acc with
  | nil => simp
  | cons d ds ih =>
    rw [List.forall_mem_cons] at h
    have hdiv : (acc * 2 ^ w + d) / 2 ^ w = acc := by
      rw [Nat.mul_comm, Nat.mul_add_div (by omega), Nat.div_eq_of_lt h.1, Nat.add_zero]
    have hmod : (acc * 2 ^ w + d) % 2 ^ w = d := by
      rw [Nat.mul_comm, Nat.mul_add_mod, Nat.mod_eq_of_lt h.1]
    have hlength : v + (d :: ds).length * w = v + w + ds.length * w := by
      rw [List.length_cons, Nat.succ_mul]
      omega
    rw [hlength, List.foldl_cons, ih h.2, bits_add, hdiv, hmod, List.flatMap_cons,
      List.append_assoc]

/-- The bits of the digits of a number are those of the number. -/
theorem flatMap_bits (w : Nat) {ds : List Nat} (h : ∀ d ∈ ds, d < 2 ^ w) :
    ds.flatMap (bits w) = bits (ds.length * w) (ds.foldl (fun n d => n * 2 ^ w + d) 0) := by
  have hfold := foldl_bits w h 0 0
  rw [Nat.zero_add, bits, List.nil_append] at hfold
  exact hfold.symm

/-! ## Groups of six bits -/

def octetBits (b : Bytes) : List Bool := (b.map UInt8.toNat).flatMap (bits 8)

theorem length_flatMap_bits (w : Nat) (ds : List Nat) :
    (ds.flatMap (bits w)).length = ds.length * w := by
  induction ds with
  | nil => simp
  | cons d ds ih =>
    rw [List.flatMap_cons, List.length_append, ih, length_bits, List.length_cons, Nat.succ_mul,
      Nat.add_comm]

/-- The values hold the bits of the octets in sixes, and zeros where the last six is not full. -/
structure Groups (b : Bytes) (values : List Nat) : Prop where
  small : ∀ v ∈ values, v < 64
  filled : ∃ zeros < 6, values.flatMap (bits 6) = octetBits b ++ List.replicate zeros false

theorem eq_of_flatMap_bits {values values' : List Nat} (h : ∀ v ∈ values, v < 64)
    (h' : ∀ v ∈ values', v < 64) (hbits : values.flatMap (bits 6) = values'.flatMap (bits 6)) :
    values = values' := by
  induction values generalizing values' with
  | nil =>
    cases values' with
    | nil => rfl
    | cons v' values' => simp [bits] at hbits
  | cons v values ih =>
    cases values' with
    | nil => simp [bits] at hbits
    | cons v' values' =>
      rw [List.forall_mem_cons] at h h'
      rw [List.flatMap_cons, List.flatMap_cons] at hbits
      obtain ⟨hv, hvalues⟩ := List.append_inj hbits (by rw [length_bits, length_bits])
      rw [bits_inj h.1 h'.1 hv, ih h.2 h'.2 hvalues]

/-- Octets are grouped in one way. -/
theorem Groups.unique {b : Bytes} {values values' : List Nat} (h : Groups b values)
    (h' : Groups b values') : values = values' := by
  obtain ⟨zeros, hzeros, hbits⟩ := h.filled
  obtain ⟨zeros', hzeros', hbits'⟩ := h'.filled
  have hlength := congrArg List.length hbits
  have hlength' := congrArg List.length hbits'
  rw [List.length_append, List.length_replicate, length_flatMap_bits] at hlength hlength'
  -- Both fill the bits up to the next multiple of six.
  obtain rfl : zeros = zeros' := by omega
  exact eq_of_flatMap_bits h.small h'.small (hbits.trans hbits'.symm)

/-- Values that write the number of some octets, behind which come zeros, hold their bits. -/
theorem flatMap_bits_of_number {b : Bytes} {values : List Nat} {zeros : Nat}
    (hsmall : ∀ v ∈ values, v < 64) (hlength : values.length * 6 = b.length * 8 + zeros)
    (hnumber : values.foldl (fun n v => n * 2 ^ 6 + v) 0 = b.toNat * 2 ^ zeros) :
    values.flatMap (bits 6) = octetBits b ++ List.replicate zeros false := by
  have hoctets : ∀ d ∈ b.map UInt8.toNat, d < 2 ^ 8 := by
    intro d hd
    obtain ⟨x, -, rfl⟩ := List.mem_map.mp hd
    exact x.toNat_lt
  have htoNat : b.toNat = (b.map UInt8.toNat).foldl (fun n d => n * 2 ^ 8 + d) 0 := by
    rw [List.foldl_map]
    rfl
  rw [flatMap_bits 6 hsmall, hlength, hnumber, bits_add, Nat.mul_div_cancel _ (Nat.two_pow_pos zeros),
    Nat.mul_mod_left, bits_zero, octetBits, flatMap_bits 8 hoctets, List.length_map, htoNat]

/-! ## The canonical text -/

/-- The symbols are the groups of the octets, and padding makes whole quads of them. -/
def IsCanonical (cs : List Char) (b : Bytes) : Prop :=
  ∃ values pads, Groups b values ∧ pads < 4 ∧ (values.length + pads) % 4 = 0 ∧
    cs = values.map symbol ++ List.replicate pads '='

theorem IsCanonical.quad {cs : List Char} {b : Bytes} (h : IsCanonical cs b) {x y z : UInt8} {n : Nat}
    (hn : n = (x.toNat * 256 + y.toNat) * 256 + z.toNat) :
    IsCanonical (symbol (n / 262144) :: symbol (n / 4096 % 64) :: symbol (n / 64 % 64) ::
      symbol (n % 64) :: cs) (x :: y :: z :: b) := by
  have hx := x.toNat_lt
  have hy := y.toNat_lt
  have hz := z.toNat_lt
  obtain ⟨values, pads, hgroups, hpads, hquads, rfl⟩ := h
  obtain ⟨zeros, hzeros, hbits⟩ := hgroups.filled
  obtain ⟨quad, hquad⟩ : ∃ quad, quad = [n / 262144, n / 4096 % 64, n / 64 % 64, n % 64] := ⟨_, rfl⟩
  have hsmall : ∀ v ∈ quad, v < 64 := by
    rw [hquad]
    simp only [List.forall_mem_cons]
    exact ⟨by omega, by omega, by omega, by omega, List.forall_mem_nil _⟩
  have hthree : quad.flatMap (bits 6) = octetBits [x, y, z] ++ List.replicate 0 false := by
    refine flatMap_bits_of_number hsmall ?_ ?_
    · rw [hquad]
      rfl
    · simp only [hquad, List.foldl_cons, List.foldl_nil, Bytes.toNat]
      omega
  refine ⟨quad ++ values, pads, ⟨?_, zeros, hzeros, ?_⟩, hpads, ?_, ?_⟩
  · exact List.forall_mem_append.mpr ⟨hsmall, hgroups.small⟩
  · rw [List.flatMap_append, hthree, hbits, List.replicate_zero, List.append_nil,
      ← List.append_assoc]
    rfl
  · simp only [hquad, List.length_append, List.length_cons, List.length_nil]
    omega
  · rw [hquad]
    rfl

theorem isCanonical_encodeChars (b : Bytes) : IsCanonical (encodeChars b) b := by
  induction b using encodeChars.induct with
  | case1 => exact ⟨[], 0, ⟨List.forall_mem_nil _, 0, by decide, rfl⟩, by decide, rfl, rfl⟩
  | case2 x =>
    have hx := x.toNat_lt
    have hsmall : ∀ v ∈ [x.toNat * 16 / 64, x.toNat * 16 % 64], v < 64 := by
      simp only [List.forall_mem_cons]
      exact ⟨by omega, by omega, List.forall_mem_nil _⟩
    refine ⟨_, 2, ⟨hsmall, 4, by decide, flatMap_bits_of_number hsmall rfl ?_⟩, by decide, by simp,
      rfl⟩
    simp only [List.foldl_cons, List.foldl_nil, Bytes.toNat]
    omega
  | case3 x y =>
    have hx := x.toNat_lt
    have hy := y.toNat_lt
    obtain ⟨n, hn⟩ : ∃ n, n = (x.toNat * 256 + y.toNat) * 4 := ⟨_, rfl⟩
    have hsmall : ∀ v ∈ [n / 4096, n / 64 % 64, n % 64], v < 64 := by
      simp only [List.forall_mem_cons]
      exact ⟨by omega, by omega, by omega, List.forall_mem_nil _⟩
    refine ⟨[n / 4096, n / 64 % 64, n % 64], 1,
      ⟨hsmall, 2, by decide, flatMap_bits_of_number hsmall rfl ?_⟩, by decide, by simp, ?_⟩
    · simp only [List.foldl_cons, List.foldl_nil, Bytes.toNat]
      omega
    · rw [hn]
      rfl
  | case4 x y z rest ih => exact ih.quad rfl

/-- The canonical text of octets is what they are written as. -/
theorem isCanonical_iff {cs : List Char} {b : Bytes} : IsCanonical cs b ↔ cs = encodeChars b := by
  constructor
  · intro h
    obtain ⟨values, pads, hgroups, hpads, hquads, rfl⟩ := h
    obtain ⟨values', pads', hgroups', hpads', hquads', hchars⟩ := isCanonical_encodeChars b
    obtain rfl := hgroups.unique hgroups'
    obtain rfl : pads = pads' := by omega
    exact hchars.symm
  · intro h
    rw [h]
    exact isCanonical_encodeChars b

/-- What octets are written as is read as them. A text is read as octets exactly when, without the
blanks around it, it is what they are written as, and that is the text that holds their bits, with
zeros behind them, and the padding to whole quads. So two texts are read as the same octets exactly
when one of them is read and they differ in the blanks around them at most. -/
theorem decode_eq_ok_iff_canonical (s t : String) (b : Bytes) :
    decode (encode b) = .ok b ∧
    (decode s = .ok b ↔ Text.trim s = encode b) ∧
    (decode s = .ok b ↔ IsCanonical (Text.trim s).toList b) ∧
    (decode s = .ok b ∧ decode t = .ok b ↔ decode s = .ok b ∧ Text.trim s = Text.trim t) := by
  have hdecode (s : String) : decode s = .ok b ↔ Text.trim s = encode b := by
    constructor
    · exact trim_eq_encode_of_decode
    · intro h
      rw [decode, h, ofString_encode, decodeBytes_encodeOctets]
  refine ⟨decode_encode b, hdecode s, ?_, ?_⟩
  · rw [hdecode, isCanonical_iff, encode, ← String.toList_inj, String.toList_ofList]
  · rw [hdecode s, hdecode t]
    constructor
    · intro h
      exact ⟨h.1, h.1.trans h.2.symm⟩
    · intro h
      exact ⟨h.1, h.2.symm.trans h.1⟩

example : decode " +/8=\n" = .ok [0xfb, 0xff] ∧ decode "+/9=" = .error (.lastSymbol 57 2) ∧
    decode "+/8" = .error .padding ∧ decode "+/ 8" = .error (.symbol 32 2) := ⟨rfl, rfl, rfl, rfl⟩

end Strongbox.Base64
