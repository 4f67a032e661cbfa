/-
  Strongbox.Proofs.Hybrid.Record — records of hybrid encryption read back from their JSON text.

  Absent associated data leave no member and stay absent; empty ones are written as an empty
  string and come back as empty octets.
  - `Input.ofJson_toJson`, `Output.ofJson_toJson`: every record reads back.
-/

import Strongbox.Hybrid.Record
import Strongbox.Proofs.Json.Read
import Strongbox.Proofs.Text.Base64

namespace Strongbox.Hybrid

open Json Json.Read

theorem octetsReader_takes (b : Bytes) : octetsReader.Takes (octetsValue b).octets b := by
  intro rest
  rw [octetsReader, octetsValue, Scanner.bind_ok (string_takes (Base64.encode b) rest)]
  simp only [Base64.decode_encode]
  rfl

theorem optional_octetsReader_takes (b : Bytes) :
    (optional octetsReader).Takes (octetsValue b).octets (some b) :=
  optional_string_takes (octetsReader_takes b)

@[simp] theorem Input.ofJson_toJson (i : Input) : Input.ofJson i.toJson.compact = .ok i := by
  have ht : Input.reader.Takes i.toJson.octets (some i.cleartext, i.associatedData) := by
    rw [Input.reader, Input.toJson]
    refine record_takes (s := ⟨some (some i.cleartext), i.associatedData.map some⟩) ?_ ?_ _
    · refine .cons rfl rfl (Field.of_takes (optional_octetsReader_takes _) _ _ _ _ _) ?_
      cases i.associatedData with
      | none => exact .nil _
      | some a =>
        exact .cons rfl rfl (Field.of_takes (optional_octetsReader_takes a) _ _ _ _ _) (.nil _)
    · obtain ⟨c, a⟩ := i
      cases a <;> rfl
  have hw : whole Input.reader (Bytes.ofString i.toJson.compact) =
      .ok (some i.cleartext, i.associatedData) := whole_of_takes ht
  rw [Input.ofJson, hw]

@[simp] theorem Output.ofJson_toJson (o : Output) : Output.ofJson o.toJson = .ok o := by
  have ht : Output.reader.Takes o.toValue.octets o := by
    rw [Output.reader, Output.toValue]
    refine record_takes (s := ⟨some o.wrappedKey, some o.ciphertext, some o.nonce,
      o.associatedData.map some, some o.symmetricAlgorithm, some o.asymmetricAlgorithm⟩) ?_ ?_ _
    · refine .cons rfl rfl (Field.of_takes (octetsReader_takes _) _ _ _ _ _) ?_
      refine .cons rfl rfl (Field.of_takes (octetsReader_takes _) _ _ _ _ _) ?_
      refine .cons rfl rfl (Field.of_takes (octetsReader_takes _) _ _ _ _ _) ?_
      cases o.associatedData with
      | none =>
        refine .cons rfl rfl (Field.of_takes (string_takes _) _ _ _ _ _) ?_
        refine .cons rfl rfl (Field.of_takes (string_takes _) _ _ _ _ _) ?_
        exact .nil _
      | some a =>
        refine .cons rfl rfl (Field.of_takes (optional_octetsReader_takes a) _ _ _ _ _) ?_
        refine .cons rfl rfl (Field.of_takes (string_takes _) _ _ _ _ _) ?_
        refine .cons rfl rfl (Field.of_takes (string_takes _) _ _ _ _ _) ?_
        exact .nil _
    · obtain ⟨w, c, n, a, s, t⟩ := o
      cases a <;> rfl
  have hw : whole Output.reader (Bytes.ofString o.toJson) = .ok o := whole_of_takes ht
  rw [Output.ofJson, hw]

end Strongbox.Hybrid
