/-
  Strongbox.Proofs.Records — every record is told by its JSON text.

  A field without a value is left out, or written as null, by the kind of the record; octets are
  written as base64 and names of a closed list as strings. Each of these ways is undone by the
  reader of the field, so a record is read back as it was, and two records with one text are the
  same.
  - `reader_takes`, for each kind of record: its reader takes what is written for it.
  - `records_are_faithful`: every record is read back, and no two have one text.
-/

import Strongbox.Algorithm
import Strongbox.Capability
import Strongbox.Context
import Strongbox.Proofs.Hybrid.Record
import Strongbox.Proofs.Json.Read
import Strongbox.Thumbprint

namespace Strongbox

open Json Json.Read

/-! ## Algorithms and operations -/

theorem AlgorithmSpec.reader_takes (s : AlgorithmSpec) : reader.Takes s.toJson.octets s := by
  rw [reader, toJson]
  refine record_takes (s := ⟨some s.algorithm, s.provider.map some⟩) ?_ ?_ _
  · refine .cons rfl rfl (Field.of_takes (string_takes _) _ _ _ _ _) ?_
    cases s.provider with
    | none => exact .nil _
    | some p =>
      exact .cons rfl rfl (Field.of_takes (optional_string_takes (string_takes p)) _ _ _ _ _)
        (.nil _)
  · obtain ⟨a, p⟩ := s
    cases p <;> rfl

theorem OperationDescriptor.reader_takes (d : OperationDescriptor) :
    reader.Takes d.toJson.octets d := by
  rw [reader, toJson]
  refine record_takes
    (s := ⟨some d.spec, some d.selfContained, d.internalProvider.map some⟩) ?_ ?_ _
  · refine .cons rfl rfl (Field.of_takes d.spec.reader_takes _ _ _ _ _) ?_
    refine .cons rfl rfl (Field.of_takes (boolean_takes _) _ _ _ _ _) ?_
    cases d.internalProvider with
    | none => exact .nil _
    | some p =>
      exact .cons rfl rfl (Field.of_takes (optional_string_takes (string_takes p)) _ _ _ _ _)
        (.nil _)
  · obtain ⟨s, c, p⟩ := d
    cases p <;> rfl

/-! ## Owners and contexts -/

theorem OwnerId.reader_takes (o : OwnerId) : reader.Takes o.toJson.octets o := by
  intro rest
  rw [reader, toJson, Scanner.bind_ok (string_takes o.value rest)]
  rfl

theorem KeyUsage.reader_takes (u : KeyUsage) : reader.Takes (Value.string u.name).octets u :=
  variant_takes (by cases u <;> rfl)

theorem CryptoContext.reader_takes (c : CryptoContext) : reader.Takes c.toJson.octets c := by
  have husage := @optional_orNull_takes _ _ KeyUsage.name KeyUsage.reader_takes c.usage
  have halias := @optional_orNull_takes _ _ id string_takes c.keyAlias
  rw [reader, toJson]
  refine record_takes (s := ⟨some c.owner, some c.usage, some c.keyAlias⟩) ?_ ?_ _
  · refine .cons rfl rfl (Field.of_takes c.owner.reader_takes _ _ _ _ _) ?_
    refine .cons rfl rfl (Field.of_takes husage _ _ _ _ _) ?_
    exact .cons rfl rfl (Field.of_takes halias _ _ _ _ _) (.nil _)
  · rfl

/-! ## Thumbprints and abilities -/

theorem Digest.Algorithm.reader_takes (a : Digest.Algorithm) :
    reader.Takes (Value.string a.name).octets a :=
  variant_takes (by cases a <;> rfl)

theorem Thumbprint.reader_takes (t : Thumbprint) : reader.Takes t.toJson.octets t := by
  rw [reader, toJson]
  refine record_takes (s := ⟨some t.value, some t.digestAlgorithm⟩) ?_ ?_ _
  · refine .cons rfl rfl (Field.of_takes (string_takes _) _ _ _ _ _) ?_
    exact .cons rfl rfl (Field.of_takes t.digestAlgorithm.reader_takes _ _ _ _ _) (.nil _)
  · rfl

theorem Capabilities.reader_takes (s : Capabilities) : reader.Takes s.toJson.octets s := by
  rw [reader, toJson]
  refine record_takes (s := ⟨some s.hybridEncryption, some s.selfContainedCiphertext,
    some s.providerSelection⟩) ?_ ?_ _
  · refine .cons rfl rfl (Field.of_takes (boolean_takes _) _ _ _ _ _) ?_
    refine .cons rfl rfl (Field.of_takes (boolean_takes _) _ _ _ _ _) ?_
    exact .cons rfl rfl (Field.of_takes (boolean_takes _) _ _ _ _ _) (.nil _)
  · rfl

/-! ## Every record -/

/-- Every record of hybrid encryption and every other record is read back from its JSON text,
whatever its texts and octets are and whichever of its fields are absent, and no two records of
one kind have the same text: absent associated data are told from empty ones. -/
theorem records_are_faithful :
    ((∀ o : Hybrid.Output, Hybrid.Output.ofJson o.toJson = .ok o) ∧
      ∀ o o' : Hybrid.Output, o'.toJson = o.toJson ↔ o' = o) ∧
    ((∀ i : Hybrid.Input, Hybrid.Input.ofJson i.toJson.compact = .ok i) ∧
      ∀ i i' : Hybrid.Input, i'.toJson.compact = i.toJson.compact ↔ i' = i) ∧
    Faithful AlgorithmSpec.reader AlgorithmSpec.toJson ∧
    Faithful OperationDescriptor.reader OperationDescriptor.toJson ∧
    Faithful CryptoContext.reader CryptoContext.toJson ∧
    Faithful OwnerId.reader OwnerId.toJson ∧
    Faithful Thumbprint.reader Thumbprint.toJson ∧
    Faithful Capabilities.reader Capabilities.toJson := by
  refine ⟨⟨Hybrid.Output.ofJson_toJson, fun o o' => ⟨fun h => ?_, fun h => by rw [h]⟩⟩,
    ⟨Hybrid.Input.ofJson_toJson, fun i i' => ⟨fun h => ?_, fun h => by rw [h]⟩⟩,
    faithful_of_takes AlgorithmSpec.reader_takes,
    faithful_of_takes OperationDescriptor.reader_takes,
    faithful_of_takes CryptoContext.reader_takes, faithful_of_takes OwnerId.reader_takes,
    faithful_of_takes Thumbprint.reader_takes, faithful_of_takes Capabilities.reader_takes⟩
  · have ho := Hybrid.Output.ofJson_toJson o'
    rw [h, Hybrid.Output.ofJson_toJson] at ho
    exact (Except.ok.inj ho).symm
  · have hi := Hybrid.Input.ofJson_toJson i'
    rw [h, Hybrid.Input.ofJson_toJson] at hi
    exact (Except.ok.inj hi).symm

end Strongbox
