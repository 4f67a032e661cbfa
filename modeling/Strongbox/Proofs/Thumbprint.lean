/-
  Strongbox.Proofs.Thumbprint — thumbprints written as text read back.

  A digest has the size of its algorithm, so the hexadecimal text of a thumbprint passes the
  length check of its reading; the text has no blanks and no letters of lower case, so neither
  trimming nor the change of case alters it.
  - `ofHex_compute`: the thumbprint of any encoding reads back from its text.
  - `parse_name`: the name of every algorithm reads back.
-/

import Strongbox.Proofs.Text.Name
import Strongbox.Thumbprint

namespace Strongbox

/-! ## The size of a digest -/

namespace Digest

theorem length_flatMap_ofNat (width : Nat) (f : α → Nat) (as : List α) :
    (as.flatMap fun a => Bytes.ofNat width (f a)).length = as.length * width := by
  induction as with
  | nil => simp
  | cons a as ih =>
    rw [List.flatMap_cons, List.length_append, Bytes.length_ofNat, ih, List.length_cons,
      Nat.succ_mul, Nat.add_comm]

@[simp] theorem length_sha1 (b : Bytes) : (sha1 b).length = 20 := by
  rw [sha1]
  exact length_flatMap_ofNat 4 UInt32.toNat _

/-- A variant gives as many octets as it says, unless that is more than its eight words hold. -/
theorem Sha2.length_run [Sha2.Word W] (v : Sha2.Variant W) (b : Bytes) :
    (Sha2.run v b).length = min v.size (8 * Sha2.Word.size W) := by
  rw [Sha2.run, List.length_take, length_flatMap_ofNat, Sha2.State.toList]
  rfl

@[simp] theorem Algorithm.length_digest (a : Algorithm) (b : Bytes) : (a.digest b).length = a.size := by
  cases a with
  | sha1 => exact length_sha1 b
  | sha256 => exact Sha2.length_run Sha2.sha256Variant b
  | sha384 => exact Sha2.length_run Sha2.sha384Variant b
  | sha512 => exact Sha2.length_run Sha2.sha512Variant b

@[simp] theorem Algorithm.ofName?_name (a : Algorithm) : ofName? a.name = some a := by
  cases a <;> (rw [ofName?, Text.toUpper_eq]; rfl)

@[simp] theorem Algorithm.parse_name (a : Algorithm) : parse a.name = .ok a := by
  rw [parse, ofName?_name]

end Digest

/-! ## The text of a digest -/

namespace Hex

theorem isBlankChar_toUpper_digitChar :
    ∀ n : Fin 16, Text.isBlankChar (Nat.digitChar n).toUpper = false := by decide

theorem toUpper_toUpper_digitChar :
    ∀ n : Fin 16, (Nat.digitChar n).toUpper.toUpper = (Nat.digitChar n).toUpper := by decide

theorem exists_of_mem_encodeUpper {b : Bytes} {c : Char} (h : c ∈ (encodeUpper b).toList) :
    ∃ n : Fin 16, c = (Nat.digitChar n).toUpper := by
  rw [encodeUpper, String.toList_ofList] at h
  obtain ⟨d, hd, rfl⟩ := List.mem_map.mp h
  obtain ⟨x, -, hx⟩ := List.mem_flatMap.mp hd
  have hlt := x.toNat_lt
  simp only [octetDigits, List.mem_cons, List.not_mem_nil, or_false] at hx
  rcases hx with rfl | rfl
  · exact ⟨⟨x.toNat / 16, by omega⟩, rfl⟩
  · exact ⟨⟨x.toNat % 16, by omega⟩, rfl⟩

@[simp] theorem trim_encodeUpper (b : Bytes) : Text.trim (encodeUpper b) = encodeUpper b := by
  refine Text.trim_eq_self fun c hc => ?_
  obtain ⟨n, rfl⟩ := exists_of_mem_encodeUpper hc
  exact isBlankChar_toUpper_digitChar n

@[simp] theorem toUpper_encodeUpper (b : Bytes) : (encodeUpper b).toUpper = encodeUpper b := by
  have hm : (encodeUpper b).toList.map Char.toUpper = (encodeUpper b).toList.map id := by
    refine List.map_congr_left fun c hc => ?_
    obtain ⟨n, rfl⟩ := exists_of_mem_encodeUpper hc
    exact toUpper_toUpper_digitChar n
  rw [Text.toUpper_eq, hm, List.map_id, String.ofList_toList]

end Hex

@[simp] theorem Thumbprint.ofHex_compute (encoding : Bytes) (a : Digest.Algorithm) :
    ofHex (compute encoding a).value a = .ok (compute encoding a) := by
  rw [ofHex, compute]
  simp only [Hex.trim_encodeUpper, Hex.decode_encodeUpper, a.length_digest, if_true,
    Hex.toUpper_encodeUpper]

/-- A thumbprint is that of an encoding whose digest it writes in upper-case hexadecimal. -/
theorem Thumbprint.isOf_iff {t : Thumbprint} {encoding : Bytes} :
    t.isOf encoding = true ↔ Hex.encodeUpper (t.digestAlgorithm.digest encoding) = t.value := by
  obtain ⟨value, a⟩ := t
  rw [isOf, beq_iff_eq, compute, Thumbprint.mk.injEq]
  exact and_iff_left rfl

end Strongbox
