/-
  Strongbox.Proofs.Text.Octets — texts and their UTF-8 octets.

  The octets of a text are those of its characters in order. A character of ASCII is one octet,
  its code point; the octets of any other character are 128 or more, so no octet of a text can
  be taken for an ASCII character that is not there.
  - `toString?_ofString`: the octets of a text are well formed and give the text back.
-/

import Strongbox.Bytes

namespace Strongbox.Bytes

theorem ofString_ofList (cs : List Char) :
    ofString (String.ofList cs) = cs.flatMap String.utf8EncodeChar := by
  show (String.ofList cs).toByteArray.data.toList = _
  rw [String.toByteArray_ofList, List.utf8Encode, List.toList_data_toByteArray]

theorem ofString_eq (s : String) : ofString s = s.toList.flatMap String.utf8EncodeChar := by
  rw [← ofString_ofList, String.ofList_toList]

@[simp] theorem ofString_append (s t : String) : ofString (s ++ t) = ofString s ++ ofString t := by
  rw [ofString_eq, ofString_eq, ofString_eq, String.toList_append, List.flatMap_append]

theorem ofString_singleton (c : Char) : ofString (String.singleton c) = String.utf8EncodeChar c := by
  rw [ofString_eq, String.toList_singleton, List.flatMap_cons, List.flatMap_nil, List.append_nil]

@[simp] theorem toString?_ofString (s : String) : toString? (ofString s) = some s := by
  have hb : (⟨(ofString s).toArray⟩ : ByteArray) = s.toByteArray := by
    show (⟨s.toByteArray.data.toList.toArray⟩ : ByteArray) = s.toByteArray
    rw [Array.toArray_toList]
  have hv : s.toByteArray.IsValidUTF8 := s.isValidUTF8
  rw [toString?, hb, String.fromUTF8?, dif_pos hv]
  rfl

theorem eq_ofString_of_toString? {b : Bytes} {s : String} (h : toString? b = some s) :
    b = ofString s := by
  rw [toString?, String.fromUTF8?] at h
  split at h
  · cases h
    rfl
  · cases h

theorem ofString_inj {s t : String} : ofString s = ofString t ↔ s = t := by
  constructor
  · intro h
    have ht := toString?_ofString s
    rw [h, toString?_ofString] at ht
    exact (Option.some.inj ht).symm
  · intro h
    rw [h]

/-! ## The octets of one character -/

/-- A character of ASCII is one octet. -/
theorem utf8EncodeChar_of_ascii {c : Char} (h : c.toNat < 128) :
    String.utf8EncodeChar c = [UInt8.ofNat c.toNat] := by
  have hv : c.val.toNat ≤ 0x7f := Nat.le_of_lt_succ h
  simp only [String.utf8EncodeChar, if_pos hv]
  rfl

/-- Any other character has no octet of ASCII. -/
theorem le_of_mem_utf8EncodeChar {c : Char} (h : 128 ≤ c.toNat) {b : UInt8}
    (hb : b ∈ String.utf8EncodeChar c) : 128 ≤ b.toNat := by
  have hv : ¬ c.val.toNat ≤ 0x7f := Nat.not_le.mpr h
  have high {m n : Nat} (hm : m + n < 256) (hn : 128 ≤ n) : 128 ≤ (UInt8.ofNat (m + n)).toNat := by
    rw [UInt8.toNat_ofNat_of_lt' hm]
    omega
  simp only [String.utf8EncodeChar, if_neg hv] at hb
  split at hb
  · simp only [List.mem_cons, List.not_mem_nil, or_false] at hb
    rcases hb with rfl | rfl <;> exact high (by omega) (by omega)
  · split at hb
    · simp only [List.mem_cons, List.not_mem_nil, or_false] at hb
      rcases hb with rfl | rfl | rfl <;> exact high (by omega) (by omega)
    · simp only [List.mem_cons, List.not_mem_nil, or_false] at hb
      rcases hb with rfl | rfl | rfl | rfl <;> exact high (by omega) (by omega)

theorem ofString_ofList_of_ascii {cs : List Char} (h : ∀ c ∈ cs, c.toNat < 128) :
    ofString (String.ofList cs) = cs.map fun c => UInt8.ofNat c.toNat := by
  rw [ofString_ofList]
  induction cs with
  | nil => rfl
  | cons c cs ih =>
    rw [List.flatMap_cons, utf8EncodeChar_of_ascii (h c List.mem_cons_self),
      ih fun d hd => h d (List.mem_cons_of_mem _ hd)]
    rfl

end Strongbox.Bytes
