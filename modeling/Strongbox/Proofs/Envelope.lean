/-
  Strongbox.Proofs.Envelope — envelopes read back, and say what they hold without ambiguity.

  The four texts of an envelope survive the JSON text, whatever characters they have. Of these
  the ciphertext is base64 and the thumbprint has the length that its digest's name asks for, so
  the checks behind the JSON pass and give the same envelope again.
  - `decode_encode`: an envelope whose thumbprint can be read from its text reads back.
  - `encode_faithful`: the same for every thumbprint of a certificate, together with what the
    first octet says; two encodings agree only where their contents do.
-/

import Strongbox.Envelope
import Strongbox.Key.Certificate
import Strongbox.Proofs.Json.Read
import Strongbox.Proofs.Outcome
import Strongbox.Proofs.Text.Base64
import Strongbox.Proofs.Thumbprint

namespace Strongbox.Envelope

open Json.Read

def texts (e : Envelope) : Texts :=
  ⟨Base64.encode e.ciphertext, e.transformation, e.thumbprint.value,
    e.thumbprint.digestAlgorithm.name⟩

theorem reader_takes (e : Envelope) : reader.Takes e.toJson.octets e.texts := by
  rw [reader, toJson]
  refine record_takes (s := ⟨some (Base64.encode e.ciphertext), some e.transformation,
    some e.thumbprint.value, some e.thumbprint.digestAlgorithm.name⟩) ?_ ?_ _
  · refine .cons rfl rfl (Field.of_takes (string_takes _) _ _ _ _ _) ?_
    refine .cons rfl rfl (Field.of_takes (string_takes _) _ _ _ _ _) ?_
    refine .cons rfl rfl (Field.of_takes (string_takes _) _ _ _ _ _) ?_
    refine .cons rfl rfl (Field.of_takes (string_takes _) _ _ _ _ _) ?_
    exact .nil _
  · rfl

theorem encode_eq (e : Envelope) : e.encode = e.toJson.octets := rfl

@[simp] theorem malformed_ok (a : α) : malformed (.ok a) = .ok a := rfl

/-- An envelope whose thumbprint can be read from its text reads back. -/
theorem decode_encode {e : Envelope}
    (h : Thumbprint.ofHex e.thumbprint.value e.thumbprint.digestAlgorithm = .ok e.thumbprint) :
    decode e.encode = .ok e := by
  have hw : whole reader e.encode = .ok e.texts := by
    rw [encode_eq]
    exact whole_of_takes (reader_takes e)
  rw [decode, hw, texts]
  simp only [Base64.decode_encode, Digest.Algorithm.parse_name, h, malformed_ok, Outcome.ok_bind]
  rfl

theorem head?_encode (e : Envelope) : e.encode.head? = some 0x7B := by
  rw [encode_eq, toJson, Json.Value.octets_object_cons, List.head?_cons]

theorem decode_encode_thumbprint (raw : Bytes) (transformation : String)
    (certificate : Certificate) (a : Digest.Algorithm) :
    decode (encode ⟨raw, transformation, certificate.thumbprint a⟩) =
      .ok ⟨raw, transformation, certificate.thumbprint a⟩ := by
  have h := Thumbprint.ofHex_compute certificate.encoding a
  rw [← Certificate.thumbprint] at h
  exact decode_encode (e := ⟨raw, transformation, certificate.thumbprint a⟩) h

/-- The encoding of any octets, any transformation and the thumbprint of any certificate reads
back exactly, is recognised as an envelope, and belongs to no other contents. -/
theorem encode_faithful (raw : Bytes) (transformation : String) (certificate : Certificate)
    (a : Digest.Algorithm) :
    decode (encode ⟨raw, transformation, certificate.thumbprint a⟩) =
        .ok ⟨raw, transformation, certificate.thumbprint a⟩ ∧
      isSelfContained (encode ⟨raw, transformation, certificate.thumbprint a⟩) = true ∧
      ∀ (raw' : Bytes) (transformation' : String) (certificate' : Certificate)
        (a' : Digest.Algorithm),
        encode ⟨raw', transformation', certificate'.thumbprint a'⟩ =
            encode ⟨raw, transformation, certificate.thumbprint a⟩ ↔
          raw' = raw ∧ transformation' = transformation ∧
            certificate'.thumbprint a' = certificate.thumbprint a := by
  have hd := decode_encode_thumbprint raw transformation certificate a
  refine ⟨hd, ?_, fun raw' transformation' certificate' a' => ⟨fun h => ?_, fun h => ?_⟩⟩
  · rw [isSelfContained, head?_encode, hd]
    rfl
  · have hd' := decode_encode_thumbprint raw' transformation' certificate' a'
    rw [h, hd] at hd'
    have he := Except.ok.inj hd'
    rw [Envelope.mk.injEq] at he
    exact ⟨he.1.symm, he.2.1.symm, he.2.2.symm⟩
  · rw [h.1, h.2.1, h.2.2]

end Strongbox.Envelope
