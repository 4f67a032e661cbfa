/-
  Strongbox.Proofs.CanonicalHex — thumbprints and secret keys are canonical but for plus signs.

  A thumbprint keeps the text that it was read from, in upper case, and does not write its octets
  anew. So it has the one form of its digest only if the text spells the octets. Every text that
  is read does so unless it has a plus sign, and with a plus sign none does.
  - `Thumbprint.isCanonical_iff`: a thumbprint is canonical when it is the text of a digest's size
    of octets.
  - `Thumbprint.ofHex_eq_ok`, `SecretKey.ofHex_eq_ok`: what is read from hexadecimal.
  - `canonical_iff_unsigned`: canonical are exactly those that are read without a plus sign.
-/

import Strongbox.Proofs.Envelope.Reading
import Strongbox.Proofs.KeyStore.Directory
import Strongbox.Proofs.Primitives
import Strongbox.Proofs.Text.Hex
import Strongbox.Proofs.Text.Pieces

namespace Strongbox

/-! ## The plus sign -/

theorem Text.mem_trim {c : Char} (hc : isBlankChar c = false) (s : String) :
    c ∈ (trim s).toList ↔ c ∈ s.toList := by
  obtain ⟨front, back, hfront, hback, hs⟩ := exists_blanks s
  conv_rhs => rw [hs]
  simp [not_mem_of_isBlank hc hfront, not_mem_of_isBlank hc hback]

theorem Hex.plus_mem_trim (text : String) :
    '+' ∈ (Text.trim text).toList ↔ '+' ∈ text.toList := Text.mem_trim (by decide) text

/-- A text that is read has no plus sign exactly when it has digits only, whatever their case. -/
theorem Hex.isUpperDigit_iff_of_decode {s : String} {b : Bytes} (h : decode s = .ok b) :
    (∀ c ∈ s.toUpper.toList, IsUpperDigit c) ↔ '+' ∉ s.toList := by
  rw [Text.toUpper_eq, String.toList_ofList]
  simp only [List.forall_mem_map, isUpperDigit_toUpper]
  constructor
  · intro hd hplus
    exact absurd (hd _ hplus) (by decide)
  · intro hplus
    exact (spells_iff.mpr ⟨h, hplus⟩).digits

/-! ## Thumbprints -/

namespace Thumbprint

variable {t : Thumbprint}

/-- The value has two digits in upper case for each octet of the digest, and the thumbprint is the
one that its own octets make. -/
structure IsCanonical (t : Thumbprint) : Prop where
  length : t.value.toList.length = 2 * t.digestAlgorithm.size
  digits : ∀ c ∈ t.value.toList, Hex.IsUpperDigit c
  rebuilt : ∃ b, Hex.decode t.value = .ok b ∧ t = ⟨Hex.encodeUpper b, t.digestAlgorithm⟩

theorem isCanonical_iff : t.IsCanonical ↔
    ∃ b : Bytes, b.length = t.digestAlgorithm.size ∧ t.value = Hex.encodeUpper b := by
  constructor
  · intro h
    obtain ⟨b, -, ht⟩ := h.rebuilt
    have hv : t.value = Hex.encodeUpper b := congrArg value ht
    have hl := h.length
    rw [hv, Hex.length_encodeUpper] at hl
    exact ⟨b, by omega, hv⟩
  · intro h
    obtain ⟨b, hl, hv⟩ := h
    refine ⟨?_, ?_, b, ?_, ?_⟩
    · rw [hv, Hex.length_encodeUpper, hl]
    · rw [hv]
      exact fun c hc => Hex.isUpperDigit_of_mem hc
    · rw [hv, Hex.decode_encodeUpper]
    · rw [← hv]

/-- The thumbprint of any encoding is canonical. -/
theorem isCanonical_compute (encoding : Bytes) (a : Digest.Algorithm) :
    (compute encoding a).IsCanonical :=
  isCanonical_iff.mpr ⟨a.digest encoding, a.length_digest encoding, rfl⟩

theorem ofHex_eq_ok {text : String} {a : Digest.Algorithm} : ofHex text a = .ok t ↔
    ∃ b, Hex.decode (Text.trim text) = .ok b ∧ b.length = a.size ∧
      t = ⟨(Text.trim text).toUpper, a⟩ := by
  rw [ofHex]
  cases Hex.decode (Text.trim text) with
  | error e => simp
  | ok b => simp [Outcome.ite_ok_eq_ok]

/-- A thumbprint that is read is canonical unless its text has a plus sign. -/
theorem isCanonical_iff_of_ofHex {text : String} {a : Digest.Algorithm} (h : ofHex text a = .ok t) :
    t.IsCanonical ↔ '+' ∉ text.toList := by
  obtain ⟨b, hb, hl, rfl⟩ := ofHex_eq_ok.mp h
  rw [← Hex.plus_mem_trim, ← Hex.isUpperDigit_iff_of_decode hb]
  constructor
  · exact fun hc => hc.digits
  · intro hd
    have hplus := (Hex.isUpperDigit_iff_of_decode hb).mp hd
    exact isCanonical_iff.mpr ⟨b, hl, (Hex.spells_iff.mpr ⟨hb, hplus⟩).upper.symm⟩

/-- A canonical thumbprint is read from its value in any case, with blanks around it. -/
theorem ofHex_of_isCanonical (ht : t.IsCanonical) {text : String}
    (hv : t.value = (Text.trim text).toUpper) :
    ofHex text t.digestAlgorithm = .ok t ∧ '+' ∉ text.toList := by
  obtain ⟨b, hl, hb⟩ := isCanonical_iff.mp ht
  have hspells := Hex.spells_iff_toUpper.mpr (hv.symm.trans hb)
  obtain ⟨hd, hplus⟩ := Hex.spells_iff.mp hspells
  refine ⟨ofHex_eq_ok.mpr ⟨b, hd, hl, ?_⟩, fun hm => hplus ((Hex.plus_mem_trim _).mpr hm)⟩
  rw [← hv]

end Thumbprint

/-! ## Envelopes and keys -/

theorem Envelope.isCanonical_iff_of_decode {b : Bytes} {e : Envelope} (h : decode b = .ok e) :
    e.thumbprint.IsCanonical ↔ '+' ∉ e.thumbprint.value.toList := by
  obtain ⟨t, a, -, -, -, -, htp⟩ := decode_eq_ok.mp h
  obtain ⟨octets, hoctets, -, ht⟩ := Thumbprint.ofHex_eq_ok.mp htp
  rw [Thumbprint.isCanonical_iff_of_ofHex htp, ht, ← Hex.plus_mem_trim,
    ← Hex.isUpperDigit_iff_of_decode hoctets]
  constructor
  · intro hd hplus
    exact absurd (hd _ hplus) (by decide)
  · intro hplus
    rw [Hex.isUpperDigit_iff_of_decode hoctets]
    intro hm
    refine hplus ?_
    rw [Text.toUpper_eq, String.toList_ofList]
    exact List.mem_map.mpr ⟨'+', hm, by decide⟩

theorem SecretKey.ofHex_eq_ok {text : String} {k : SecretKey} : ofHex text = .ok k ↔
    Hex.decode (Text.trim text) = .ok k.octets ∧
      (k.octets.length = 16 ∨ k.octets.length = 32) := by
  rw [ofHex]
  cases Hex.decode (Text.trim text) with
  | error e => simp
  | ok b =>
    rw [Except.ok.injEq]
    constructor
    · intro h
      obtain ⟨hl, rfl⟩ := make_eq_ok.mp h
      exact ⟨rfl, hl⟩
    · rintro ⟨rfl, hl⟩
      exact make_eq_ok.mpr ⟨hl, rfl⟩

theorem DirectoryStore.secretKey_eq_found {files : FileTree} {d : DirectoryStore} {a : String}
    {k : SecretKey} (h : d.secretKey files a = .ok (some k)) :
    ∃ text, files.read (d.filePath a .secretKey) = .ok (Bytes.ofString text) ∧
      SecretKey.ofHex text = .ok k := by
  rw [secretKey_eq_lookup] at h
  have ha := isAlias_of_lookup h
  cases hread : files.read (d.filePath a .secretKey) with
  | error e =>
    by_cases he : e = .notFound
    · rw [lookup_of_notFound ha (he ▸ hread)] at h
      cases h
    · rw [lookup_of_unreadable ha he hread] at h
      cases h
  | ok b =>
    rw [lookup_of_file ha hread] at h
    have hk : SecretKey.ofHex ((Bytes.toString? b).getD "") = .ok k := by
      cases hd : Text.Utf8.defect? b with
      | some e =>
        rw [hd] at h
        cases h
      | none =>
        rw [hd] at h
        cases hx : SecretKey.ofHex ((Bytes.toString? b).getD "") with
        | error e =>
          rw [hx] at h
          cases e <;> cases h
        | ok k' =>
          rw [hx] at h
          cases h
          rfl
    cases hb : Bytes.toString? b with
    | none =>
      -- No key is read from nothing.
      have hnothing : Hex.decode (Text.trim "") = .ok [] := by decide
      rw [hb, Option.getD_none, SecretKey.ofHex_eq_ok, hnothing] at hk
      rw [← Except.ok.inj hk.1] at hk
      exact absurd hk.2 (by decide)
    | some text =>
      rw [hb] at hk
      rw [Bytes.eq_ofString_of_toString? hb]
      exact ⟨text, rfl, hk⟩

namespace Hex

/-- What is read as hexadecimal is a text of two digits for each octet, but for plus signs that
stand for leading zeros. So whatever is read from a text without a plus sign is canonical: the
octets, a thumbprint, also that of an envelope, and a secret key, also one of a file. With a plus
sign none of them is. -/
theorem canonical_iff_unsigned (text : String) (octets : Bytes) (files : FileTree)
    (d : DirectoryStore) :
    (∀ b, decode text = .ok b ↔ Spells (unsigned text) b ∧ SignsLead text.toList) ∧
    (∀ b, decode text = .ok b ∧ '+' ∉ text.toList ↔ Spells text b) ∧
    (∀ a t, Thumbprint.ofHex text a = .ok t ∧ '+' ∉ text.toList ↔
      t.IsCanonical ∧ t.digestAlgorithm = a ∧ t.value = (Text.trim text).toUpper) ∧
    (∀ e, Envelope.decode octets = .ok e →
      (e.thumbprint.IsCanonical ↔ '+' ∉ e.thumbprint.value.toList)) ∧
    (∀ k, SecretKey.ofHex text = .ok k ∧ '+' ∉ text.toList ↔
      Spells (Text.trim text) k.octets ∧ (k.octets.length = 16 ∨ k.octets.length = 32)) ∧
    ∀ a k, d.secretKey files a = .ok (some k) →
      ∃ content, files.read (d.filePath a .secretKey) = .ok (Bytes.ofString content) ∧
        (Spells (Text.trim content) k.octets ↔ '+' ∉ content.toList) := by
  refine ⟨fun b => decode_eq_ok_iff, fun b => spells_iff.symm, fun a t => ?_,
    fun e => Envelope.isCanonical_iff_of_decode, fun k => ?_, fun a k h => ?_⟩
  · constructor
    · intro h
      obtain ⟨ht, hplus⟩ := h
      refine ⟨(Thumbprint.isCanonical_iff_of_ofHex ht).mpr hplus, ?_⟩
      obtain ⟨b, -, -, rfl⟩ := Thumbprint.ofHex_eq_ok.mp ht
      exact ⟨rfl, rfl⟩
    · rintro ⟨ht, rfl, hv⟩
      exact Thumbprint.ofHex_of_isCanonical ht hv
  · rw [SecretKey.ofHex_eq_ok, spells_iff, plus_mem_trim]
    exact and_right_comm
  · obtain ⟨content, hread, hk⟩ := DirectoryStore.secretKey_eq_found h
    refine ⟨content, hread, ?_⟩
    rw [spells_iff, plus_mem_trim]
    exact and_iff_right (SecretKey.ofHex_eq_ok.mp hk).1

def signedThumbprint : Thumbprint := ⟨"+A+A+A+A+A+A+A+A+A+A+A+A+A+A+A+A+A+A+A+A", .sha1⟩

theorem ofHex_signedThumbprint :
    Thumbprint.ofHex signedThumbprint.value .sha1 = .ok signedThumbprint := by
  refine Thumbprint.ofHex_eq_ok.mpr ⟨List.replicate 20 10, by decide, rfl, ?_⟩
  rw [Text.toUpper_eq]
  decide

theorem not_isCanonical_signedThumbprint : ¬ signedThumbprint.IsCanonical :=
  fun h => absurd (h.digits '+' (by decide)) (by decide)

/-- A plus sign is read as a digit, in octets, in the thumbprint of an envelope and in a key, and
none of them has then the canonical form. -/
theorem a_plus_sign_is_read_as_a_digit :
    (decode "+1" = .ok [1] ∧ ¬ IsDigit '+' ∧ encodeUpper [1] ≠ "+1".toUpper) ∧
    (Envelope.decode (Envelope.encode ⟨[], "RSA", signedThumbprint⟩) =
      .ok ⟨[], "RSA", signedThumbprint⟩ ∧ ¬ signedThumbprint.IsCanonical) ∧
    SecretKey.ofHex "+1+1+1+1+1+1+1+1+1+1+1+1+1+1+1+1" = .ok ⟨List.replicate 16 1⟩ := by
  refine ⟨⟨by decide, by decide, ?_⟩,
    ⟨Envelope.decode_encode ofHex_signedThumbprint, not_isCanonical_signedThumbprint⟩, by decide⟩
  rw [Text.toUpper_eq]
  decide

end Hex

end Strongbox
