/-
  Strongbox.Proofs.InternalProvider.EmptyText — what an empty ciphertext stands for.

  An envelope without a ciphertext is answered with the empty text before a key is looked for, so
  it must be written for nothing else. One way leads to it: an empty text under a named algorithm
  skips the cipher, and nobody asks what the name stands for. Every other text goes through a
  cipher, and no cipher's output is empty.
  - `Ciphertext.eq_nil_iff`: the one text whose ciphertext is empty.
  - `encryptSelfContained_iff_wraps`: exactly which octets are the envelope of a text, what they
    say, and what they are opened to when they have no ciphertext.
-/

import Strongbox.Proofs.InternalProvider

namespace Strongbox.KeyStoreProvider

open Outcome

/-! ## Two ways to a ciphertext -/

/-- The cipher that the name stands for made the ciphertext, with the key of the provider. -/
def Enciphers (k : InternalKey) (random : Random) (text : Bytes) (s : AlgorithmSpec)
    (ciphertext : Bytes) : Prop :=
  ∃ t m, (s.orDefault AlgorithmSpec.defaultAsymmetric).transformation = .ok t ∧
    encryptionKey k.resolver k.context s = .ok m ∧
      Primitives.encrypt random t s.provider m text = .ok ciphertext

variable {k : InternalKey} {random : Random} {text : Bytes} {s : AlgorithmSpec}

theorem encrypt_eq_ok {ciphertext : Bytes} :
    encrypt k random text s = .ok ciphertext ↔ Enciphers k random text s ciphertext := by
  rw [encrypt, bind_eq_ok]
  constructor
  · intro h
    obtain ⟨m, hm, h⟩ := h
    obtain ⟨t, ht, h⟩ := Operations.encrypt_eq_ok.mp h
    exact ⟨t, m, ht, hm, h⟩
  · intro h
    obtain ⟨t, m, ht, hm, h⟩ := h
    exact ⟨m, hm, Operations.encrypt_eq_ok.mpr ⟨t, ht, h⟩⟩

theorem Enciphers.ne_nil {ciphertext : Bytes} (h : Enciphers k random text s ciphertext) :
    ciphertext ≠ [] := by
  obtain ⟨t, m, -, -, h⟩ := h
  exact Primitives.ne_nil_of_encrypt h

theorem Enciphers.transformation {ciphertext : Bytes} (h : Enciphers k random text s ciphertext)
    (hs : s.isBlank = false) : ∃ t, s.transformation = .ok t := by
  obtain ⟨t, m, ht, -, -⟩ := h
  rw [AlgorithmSpec.orDefault_of_not_blank hs] at ht
  exact ⟨t, ht⟩

/-- The cipher runs for a text that is not empty, and for a blank name. -/
theorem runs_iff : text ≠ [] ∨ s.isBlank = true ↔ ¬(s.isBlank = false ∧ text = []) := by
  rw [not_and_or, Bool.not_eq_false, or_comm]

inductive Ciphertext (k : InternalKey) (random : Random) (text : Bytes) (s : AlgorithmSpec) :
    Bytes → Prop where
  /-- The cipher is skipped for an empty text under a named algorithm. -/
  | skipped : text = [] → s.isBlank = false → Ciphertext k random text s []
  | enciphered {ciphertext : Bytes} : text ≠ [] ∨ s.isBlank = true →
      Enciphers k random text s ciphertext → Ciphertext k random text s ciphertext

theorem Ciphertext.eq_nil_iff {ciphertext : Bytes} (h : Ciphertext k random text s ciphertext) :
    ciphertext = [] ↔ text = [] ∧ s.isBlank = false := by
  cases h with
  | skipped h0 hs => exact ⟨fun _ => ⟨h0, hs⟩, fun _ => rfl⟩
  | enciphered hn he => exact iff_of_false he.ne_nil fun h => runs_iff.mp hn h.symm

theorem Ciphertext.enciphers {ciphertext : Bytes} (h : Ciphertext k random text s ciphertext)
    (hn : text ≠ [] ∨ s.isBlank = true) : Enciphers k random text s ciphertext := by
  cases h with
  | enciphered _ he => exact he
  | skipped h0 hs => exact absurd ⟨hs, h0⟩ (runs_iff.mp hn)

theorem encryptSelfContained_eq_ok {data : Bytes} :
    encryptSelfContained k random text s = .ok data ↔
      ∃ c ciphertext, k.resolver.certificate k.context = .ok (.found c) ∧
        Ciphertext k random text s ciphertext ∧ data = Envelope.encode ⟨ciphertext,
          (s.orDefault AlgorithmSpec.defaultAsymmetric).algorithm, c.thumbprint .sha1⟩ := by
  rw [encryptSelfContained_eq]
  constructor
  · intro h
    split at h
    case isTrue h0 =>
      obtain ⟨c, hc, rfl⟩ := wrap_eq_ok.mp h
      exact ⟨c, [], Resolver.certificate_eq_found.mpr hc, .skipped h0.2 h0.1, rfl⟩
    case isFalse h0 =>
      obtain ⟨ciphertext, he, h⟩ := bind_eq_ok.mp h
      obtain ⟨c, hc, rfl⟩ := wrap_eq_ok.mp h
      exact ⟨c, ciphertext, Resolver.certificate_eq_found.mpr hc,
        .enciphered (runs_iff.mpr h0) (encrypt_eq_ok.mp he), rfl⟩
  · intro h
    obtain ⟨c, ciphertext, hc, h, rfl⟩ := h
    have hw : wrap k s ciphertext = .ok _ :=
      wrap_eq_ok.mpr ⟨c, Resolver.certificate_eq_found.mp hc, rfl⟩
    cases h with
    | skipped h0 hs => rw [if_pos ⟨hs, h0⟩, hw]
    | enciphered hn he => rw [if_neg (runs_iff.mp hn), bind_of_ok (encrypt_eq_ok.mpr he), hw]

/-! ## What an envelope says -/

structure Wraps (k : InternalKey) (random : Random) (text : Bytes) (s : AlgorithmSpec)
    (e : Envelope) : Prop where
  transformation : e.transformation = if s.isBlank then "RSA" else s.algorithm
  thumbprint : ∃ c, k.resolver.certificate k.context = .ok (.found c) ∧
    e.thumbprint = c.thumbprint .sha1
  empty_iff : e.ciphertext = [] ↔ text = [] ∧ s.isBlank = false
  /-- A text that is not empty runs the cipher, and so does a blank name. -/
  enciphers : text ≠ [] ∨ s.isBlank = true → Enciphers k random text s e.ciphertext
  /-- A name that stands for nothing is good for the empty text only. -/
  unnamed : s.isBlank = false → (∃ error, s.transformation = .error error) → text = []

theorem Ciphertext.wraps {c : Certificate} (hc : k.resolver.certificate k.context = .ok (.found c))
    {ciphertext : Bytes} (h : Ciphertext k random text s ciphertext) :
    Wraps k random text s ⟨ciphertext,
      (s.orDefault AlgorithmSpec.defaultAsymmetric).algorithm, c.thumbprint .sha1⟩ where
  transformation := s.algorithm_orDefault _
  thumbprint := ⟨c, hc, rfl⟩
  empty_iff := h.eq_nil_iff
  enciphers := h.enciphers
  unnamed := by
    intro hs herror
    obtain ⟨error, herror⟩ := herror
    by_contra h0
    obtain ⟨t, ht⟩ := (h.enciphers (.inl h0)).transformation hs
    rw [herror] at ht
    cases ht

theorem Wraps.ciphertext {e : Envelope} (h : Wraps k random text s e) :
    Ciphertext k random text s e.ciphertext := by
  by_cases h0 : s.isBlank = false ∧ text = []
  · rw [h.empty_iff.mpr h0.symm]
    exact .skipped h0.2 h0.1
  · exact .enciphered (runs_iff.mpr h0) (h.enciphers (runs_iff.mpr h0))

theorem Wraps.opened {data : Bytes} {e : Envelope} (h : Wraps k random text s e)
    (hd : Envelope.decode data = .ok e) (h0 : e.ciphertext = []) {reader : InternalKey}
    {s' : AlgorithmSpec} {answer : Bytes}
    (hopen : decryptSelfContained reader data s' = .ok answer) : answer = text := by
  obtain ⟨a, -, ⟨-, rfl⟩ | ⟨hne, -⟩⟩ := (decryptSelfContained_eq_ok hd).mp hopen
  · exact (h.empty_iff.mp h0).1.symm
  · exact absurd h0 hne

/-- Octets are the envelope of a text exactly when they are written as one that wraps it. They can
be read, and have no ciphertext exactly when the text is empty and the algorithm is named; so
whoever opens an envelope without a ciphertext gets the text that was put into it. -/
theorem encryptSelfContained_iff_wraps {data : Bytes} :
    encryptSelfContained k random text s = .ok data ↔
      ∃ e, Envelope.decode data = .ok e ∧ data = e.encode ∧ Wraps k random text s e ∧
        (e.ciphertext = [] → ∀ (reader : InternalKey) (s' : AlgorithmSpec) (answer : Bytes),
          decryptSelfContained reader data s' = .ok answer → answer = text) := by
  constructor
  · intro h
    obtain ⟨c, ciphertext, hc, hcipher, rfl⟩ := encryptSelfContained_eq_ok.mp h
    have hd := Envelope.decode_encode_thumbprint ciphertext
      (s.orDefault AlgorithmSpec.defaultAsymmetric).algorithm c .sha1
    have hw := hcipher.wraps hc
    exact ⟨_, hd, rfl, hw, fun h0 reader s' answer hopen => hw.opened hd h0 hopen⟩
  · intro h
    obtain ⟨e, -, rfl, hw, -⟩ := h
    obtain ⟨c, hc, ht⟩ := hw.thumbprint
    have htransformation : e.transformation =
        (s.orDefault AlgorithmSpec.defaultAsymmetric).algorithm :=
      hw.transformation.trans (s.algorithm_orDefault _).symm
    refine encryptSelfContained_eq_ok.mpr ⟨c, e.ciphertext, hc, hw.ciphertext, ?_⟩
    rw [← htransformation, ← ht]

/-- The empty text is enciphered under a blank name, and not under one that stands for nothing. -/
theorem wraps_emptyText :
    (∃ data e, encryptSelfContained ⟨writer, tenant⟩ (fun _ => 1) [] { algorithm := " " } =
        .ok data ∧ Envelope.decode data = .ok e ∧ e.transformation = "RSA" ∧
          e.ciphertext ≠ []) ∧
      ∃ data e, encryptSelfContained ⟨writer, tenant⟩ (fun _ => 1) [] { algorithm := "?" } =
        .ok data ∧ Envelope.decode data = .ok e ∧ e.transformation = "?" ∧
          e.ciphertext = [] := by
  have hcert : writer.certificate tenant = .ok (.found Primitives.sampleCertificate) :=
    Resolver.certificate_eq_found.mpr rfl
  constructor
  · have hblank : (AlgorithmSpec.mk " " none).isBlank = true := by decide
    have hs : isSymmetric (AlgorithmSpec.mk " " none) = false := by
      rw [← isSymmetric_orDefault]
      exact isSymmetric_of_transformation (t := .rsaPkcs1) (Transformation.parse_of_toList rfl)
    have hprim : Primitives.encrypt (fun _ => 1) .rsaPkcs1 none
        (.certificate Primitives.sampleCertificate) [] = .ok _ :=
      Primitives.encrypt_rsaPkcs1 rfl rfl (by decide +kernel) (by decide +kernel)
    have he : Enciphers ⟨writer, tenant⟩ (fun _ => 1) [] (AlgorithmSpec.mk " " none) _ :=
      ⟨.rsaPkcs1, _, Transformation.parse_of_toList rfl,
        (encryptionKey_eq_ok_of_asymmetric hs).mpr ⟨_, rfl, rfl⟩, hprim⟩
    have hdata := encryptSelfContained_eq_ok.mpr ⟨_, _, hcert, .enciphered (.inr hblank) he, rfl⟩
    obtain ⟨e, hd, -, hw, -⟩ := encryptSelfContained_iff_wraps.mp hdata
    refine ⟨_, e, hdata, hd, ?_, fun h0 => ?_⟩
    · rw [hw.transformation, hblank, if_pos rfl]
    · exact Bool.false_ne_true ((hw.empty_iff.mp h0).2.symm.trans hblank)
  · have hnamed : (AlgorithmSpec.mk "?" none).isBlank = false := by decide
    have hdata : encryptSelfContained ⟨writer, tenant⟩ (fun _ => 1) [] (.mk "?" none) = .ok _ :=
      encryptSelfContained_eq_ok.mpr ⟨_, _, hcert, .skipped rfl hnamed, rfl⟩
    obtain ⟨e, hd, -, hw, -⟩ := encryptSelfContained_iff_wraps.mp hdata
    refine ⟨_, e, hdata, hd, ?_, hw.empty_iff.mpr ⟨rfl, hnamed⟩⟩
    rw [hw.transformation, hnamed, if_neg Bool.false_ne_true]

end Strongbox.KeyStoreProvider
