/-
  Strongbox.Text.Hex — octets as hexadecimal text.

  Writing uses two digits per octet, in either case. Reading takes both cases, and a plus
  sign in the place of a leading zero digit; it fails on a text of odd length, on a text that
  is not ASCII, and at the first pair that is no number, in this order of precedence.
  - `decode_encodeLower`, `decode_encodeUpper`: what is written reads back.
-/

import Strongbox.Bytes

namespace Strongbox.Hex

inductive Error where
  | oddLength
  | notAscii
  | badPair (position : Nat)
  deriving DecidableEq

def Error.message : Error → String
  | .oddLength => "hex string must have even length"
  | .notAscii => "hex string must be ASCII"
  | .badPair i => s!"invalid hex at position {i}: invalid digit found in string"

def octetDigits (b : UInt8) : List Char :=
  [Nat.digitChar (b.toNat / 16), Nat.digitChar (b.toNat % 16)]

def encodeLower (b : Bytes) : String := String.ofList (b.flatMap octetDigits)

def encodeUpper (b : Bytes) : String :=
  String.ofList ((b.flatMap octetDigits).map Char.toUpper)

def digit? (c : Char) : Option Nat :=
  if '0' ≤ c ∧ c ≤ '9' then some (c.toNat - 48)
  else if 'a' ≤ c ∧ c ≤ 'f' then some (c.toNat - 87)
  else if 'A' ≤ c ∧ c ≤ 'F' then some (c.toNat - 55)
  else none

def pair? (c d : Char) : Option UInt8 :=
  match digit? d with
  | none => none
  | some l =>
    if c = '+' then some (UInt8.ofNat l)
    else (digit? c).map fun h => UInt8.ofNat (16 * h + l)

def decodePairs (position : Nat) : List Char → Except Error Bytes
  | [] => .ok []
  | [_] => .error .oddLength
  | c :: d :: rest =>
    match pair? c d with
    | none => .error (.badPair position)
    | some b => (decodePairs (position + 2) rest).map (b :: ·)

def decode (s : String) : Except Error Bytes :=
  if s.utf8ByteSize % 2 ≠ 0 then .error .oddLength
  else if s.toList.any (fun c => c.toNat ≥ 128) then .error .notAscii
  else decodePairs 0 s.toList

/-! ## What is written reads back -/

theorem digit?_digitChar : ∀ n : Fin 16, digit? (Nat.digitChar n) = some n.val := by decide

theorem digit?_toUpper_digitChar :
    ∀ n : Fin 16, digit? (Nat.digitChar n).toUpper = some n.val := by decide

/-- No digit is a plus sign, and every digit is ASCII. -/
theorem digit?_bounds {c : Char} {n : Nat} (h : digit? c = some n) : c ≠ '+' ∧ c.toNat < 128 := by
  have hle {b : Char} (hb : c ≤ b) (hlt : b.toNat < 128) : c.toNat < 128 :=
    Nat.lt_of_le_of_lt hb hlt
  constructor
  · rintro rfl
    have : digit? '+' = none := by decide
    rw [this] at h
    cases h
  · unfold digit? at h
    split at h
    · rename_i hr; exact hle hr.2 (by decide)
    · split at h
      · rename_i hr; exact hle hr.2 (by decide)
      · split at h
        · rename_i hr; exact hle hr.2 (by decide)
        · cases h

theorem pair?_eq_some {c d : Char} {b : UInt8} (hc : digit? c = some (b.toNat / 16))
    (hd : digit? d = some (b.toNat % 16)) : pair? c d = some b := by
  simp only [pair?, hd, if_neg (digit?_bounds hc).1, hc, Option.map_some, Option.some.injEq]
  rw [Nat.div_add_mod, UInt8.ofNat_toNat]

/-- Digits of any case read back as the octets that they write. -/
theorem decodePairs_flatMap (write : UInt8 → List Char) (position : Nat) (b : Bytes)
    (h : ∀ x, ∃ c d, write x = [c, d] ∧ digit? c = some (x.toNat / 16) ∧
      digit? d = some (x.toNat % 16)) :
    decodePairs position (b.flatMap write) = .ok b := by
  induction b generalizing position with
  | nil => rfl
  | cons x b ih =>
    obtain ⟨c, d, hw, hc, hd⟩ := h x
    simp only [List.flatMap_cons, hw, List.cons_append, List.nil_append, decodePairs,
      pair?_eq_some hc hd, ih]
    rfl

/-- A text of ASCII has as many octets as characters. -/
theorem utf8ByteSize_ofList {cs : List Char} (h : ∀ c ∈ cs, c.toNat < 128) :
    (String.ofList cs).utf8ByteSize = cs.length := by
  induction cs with
  | nil => rfl
  | cons c cs ih =>
    have hc : c.utf8Size = 1 := by
      rw [Char.utf8Size_eq_one_iff, UInt32.le_iff_toNat_le]
      exact Nat.le_of_lt_succ (h c List.mem_cons_self)
    have : String.ofList (c :: cs) = String.singleton c ++ String.ofList cs := by
      rw [← String.toList_inj]; simp
    rw [this, String.utf8ByteSize_append, String.utf8ByteSize_singleton, hc,
      ih fun d hd => h d (List.mem_cons_of_mem _ hd), List.length_cons, Nat.add_comm]

/-- A text of ASCII of even length is read pair by pair. -/
theorem decode_of_ascii {s : String} (h : ∀ c ∈ s.toList, c.toNat < 128)
    (heven : s.toList.length % 2 = 0) : decode s = decodePairs 0 s.toList := by
  have hsize := utf8ByteSize_ofList h
  rw [String.ofList_toList] at hsize
  have hany : s.toList.any (fun c => decide (c.toNat ≥ 128)) = false := by
    rw [List.any_eq_false]
    intro c hc
    rw [decide_eq_true_eq]
    exact Nat.not_le.mpr (h c hc)
  rw [decode, hsize, if_neg (by omega), hany, if_neg Bool.false_ne_true]

theorem decode_flatMap (write : UInt8 → List Char) (b : Bytes)
    (h : ∀ x, ∃ c d, write x = [c, d] ∧ digit? c = some (x.toNat / 16) ∧
      digit? d = some (x.toNat % 16)) :
    decode (String.ofList (b.flatMap write)) = .ok b := by
  have hascii : ∀ c ∈ b.flatMap write, c.toNat < 128 := by
    intro c hc
    obtain ⟨x, _, hx⟩ := List.mem_flatMap.mp hc
    obtain ⟨c₁, c₂, hw, h₁, h₂⟩ := h x
    rw [hw] at hx
    rcases List.mem_cons.mp hx with rfl | hx
    · exact (digit?_bounds h₁).2
    · rw [List.mem_singleton.mp hx]
      exact (digit?_bounds h₂).2
  have heven : (b.flatMap write).length % 2 = 0 := by
    clear hascii
    induction b with
    | nil => rfl
    | cons x b ih =>
      obtain ⟨c, d, hw, -, -⟩ := h x
      rw [List.flatMap_cons, hw, List.length_append, List.length_cons, List.length_cons,
        List.length_nil]
      omega
  rw [decode_of_ascii, String.toList_ofList, decodePairs_flatMap write 0 b h]
  · rwa [String.toList_ofList]
  · rwa [String.toList_ofList]

theorem decode_encodeLower (b : Bytes) : decode (encodeLower b) = .ok b := by
  refine decode_flatMap octetDigits b fun x => ⟨_, _, rfl, ?_, ?_⟩
  · exact digit?_digitChar ⟨x.toNat / 16, by have := x.toNat_lt; omega⟩
  · exact digit?_digitChar ⟨x.toNat % 16, by omega⟩

theorem decode_encodeUpper (b : Bytes) : decode (encodeUpper b) = .ok b := by
  rw [encodeUpper, List.map_flatMap]
  refine decode_flatMap _ b fun x => ⟨_, _, rfl, ?_, ?_⟩
  · exact digit?_toUpper_digitChar ⟨x.toNat / 16, by have := x.toNat_lt; omega⟩
  · exact digit?_toUpper_digitChar ⟨x.toNat % 16, by omega⟩

end Strongbox.Hex
