/-
  Strongbox.Proofs.X509.Certificate — how certificates are written, as far as they are read.

  Besides the order of attributes, a spelling chooses what of the default values it writes: a
  first version, and that an extension is not critical. And it may hold elements in front of the
  optional fields that reading passes over. A certificate that is written anew has none of these,
  so it is written as it was exactly when the spelling was the shortest.
  - `reads_certificate`: a certificate is read from one of its spellings.
  - `Certificate.Spelling.shortens`: when it is written anew as it was.
-/

import Strongbox.Proofs.X509.Name
import Strongbox.X509.Certificate

namespace Strongbox.X509

open Der Der.Parser

/-! ## Extensions -/

/-- An extension, and whether it says that it is critical or not. -/
structure Extension.Spelling where
  id : Oid
  critical : Option Bool
  value : Bytes

namespace Extension.Spelling

def extension (s : Spelling) : Extension := ⟨s.id, s.critical.getD false, s.value⟩

def encode (s : Spelling) : Bytes :=
  wrap Tag.sequence
    (s.id.encode ++ (s.critical.map encodeBoolean).getD [] ++ wrap Tag.octetString s.value)

def IsShortest (s : Spelling) : Prop := s.critical ≠ some false

theorem shortens (s : Spelling) : Shortens s.extension.encode s.encode s.IsShortest := by
  have hcritical : Shortens (if s.extension.critical then encodeBoolean true else [])
      ((s.critical.map encodeBoolean).getD []) s.IsShortest := by
    obtain ⟨id, critical, value⟩ := s
    cases critical with
    | none => exact (Shortens.refl []).congr (by simp [IsShortest])
    | some v =>
      cases v with
      | true => exact (Shortens.refl _).congr (by simp [IsShortest])
      | false =>
        refine ⟨Nat.zero_le _, ?_⟩
        simp [extension, IsShortest, encodeBoolean, wrap, Element.encode]
  have h := ((Shortens.refl s.id.encode).append hcritical).append
    (Shortens.refl (wrap Tag.octetString s.value))
  exact (h.wrap Tag.sequence).congr (by simp)

end Extension.Spelling

theorem reads_extension :
    Extension.parser.Reads Extension.Spelling.extension Extension.Spelling.encode := by
  refine Reads.inside ?_ Tag.sequence
  intro b e rest h
  obtain ⟨o, mid, ho, h⟩ := bind_eq_some.mp h
  obtain ⟨v, mid', hv, h⟩ := bind_eq_some.mp h
  obtain ⟨c, mid'', hc, h⟩ := bind_eq_some.mp h
  obtain ⟨rfl, rfl⟩ := pure_eq_some.mp h
  obtain ⟨critical, rfl, hmid⟩ := reads_booleanOrFalse hv
  refine ⟨⟨o, critical, c⟩, rfl, ?_⟩
  rw [reads_objectIdentifier.eq ho, hmid, reads_octetString.eq hc]
  simp

/-! ## The signed part -/

theorem reads_version :
    versionParser.Reads Fin.val fun v : Fin 3 => encodeInteger [UInt8.ofNat v.val] := by
  intro b n rest h
  obtain ⟨m, mid, hm, h⟩ := bind_eq_some.mp h
  split at h
  · rename_i hle
    obtain ⟨rfl, rfl⟩ := pure_eq_some.mp h
    exact ⟨⟨n, by omega⟩, rfl, eq_encodeInteger_of_word hm (by omega)⟩
  · cases h

/-- Nothing can be passed over in front of the number zero. -/
theorem reads_contextVersion :
    (contextValue? 0 versionParser).Reads (fun v : Option (Fin 3) => v.map Fin.val)
      fun v => (v.map fun v => wrap 0xA0 (encodeInteger [UInt8.ofNat v.val])).getD [] := by
  intro b o rest h
  obtain ⟨⟨passed, v⟩, rfl, hb⟩ := reads_contextValue? 0 reads_version h
  have hnone : passed.elements = [] := by
    refine List.eq_nil_iff_forall_not_mem.mpr fun e he => ?_
    obtain ⟨k, hk, -⟩ := passed.lower e he
    exact Nat.not_lt_zero k hk
  have hempty : passed.encode = [] := by rw [Passed.encode, hnone, List.flatMap_nil]
  refine ⟨v, rfl, ?_⟩
  simp only [hb, hempty, List.nil_append]
  rfl

theorem reads_serial : serialParser.Reads id encodeInteger := by
  intro b c rest h
  obtain ⟨d, mid, hd, h⟩ := bind_eq_some.mp h
  split at h
  · obtain ⟨rfl, rfl⟩ := pure_eq_some.mp h
    exact reads_integer hd
  · cases h

theorem reads_validity : validityParser.Reads id fun t : Time × Time =>
    wrap Tag.sequence (t.1.encode ++ t.2.encode) := by
  refine Reads.inside ?_ Tag.sequence
  intro b t rest h
  obtain ⟨x, mid, hx, h⟩ := bind_eq_some.mp h
  obtain ⟨y, mid', hy, h⟩ := bind_eq_some.mp h
  obtain ⟨rfl, rfl⟩ := pure_eq_some.mp h
  exact ⟨(x, y), rfl, by rw [reads_time.eq hx, reads_time.eq hy, List.append_assoc]⟩

theorem reads_publicKeyInfo : PublicKeyInfo.parser.Reads id PublicKeyInfo.encode := by
  refine Reads.inside ?_ Tag.sequence
  intro b i rest h
  obtain ⟨a, mid, ha, h⟩ := bind_eq_some.mp h
  obtain ⟨k, mid', hk, h⟩ := bind_eq_some.mp h
  obtain ⟨rfl, rfl⟩ := pure_eq_some.mp h
  refine ⟨⟨a, k⟩, rfl, ?_⟩
  rw [reads_algorithmIdentifier.eq ha, reads_bitString.eq hk, List.append_assoc]

/-- The signed part as it is written: with the default values that are spelled out, the order of
the attributes, and what stands in front of the optional fields. -/
structure Body.Spelling where
  version : Option (Fin 3)
  serial : Bytes
  signature : AlgorithmIdentifier
  issuer : NameSpelling
  notBefore : Time
  notAfter : Time
  subject : NameSpelling
  publicKey : PublicKeyInfo
  beforeIssuerId : Passed 1
  issuerId : Option BitString
  beforeSubjectId : Passed 2
  subjectId : Option BitString
  beforeExtensions : Passed 3
  extensions : Option (List Extension.Spelling)

namespace Body.Spelling

def body (s : Spelling) : Body where
  version := (s.version.map Fin.val).getD 0
  serial := s.serial
  signature := s.signature
  issuer := s.issuer.name
  notBefore := s.notBefore
  notAfter := s.notAfter
  subject := s.subject.name
  publicKey := s.publicKey
  issuerId := s.issuerId
  subjectId := s.subjectId
  extensions := s.extensions.map (List.map Extension.Spelling.extension)

def encodeVersion (s : Spelling) : Bytes :=
  (s.version.map fun v => wrap 0xA0 (encodeInteger [UInt8.ofNat v.val])).getD []

def encodeExtensions (s : Spelling) : Bytes :=
  (s.extensions.map fun es =>
    wrap 0xA3 (wrap Tag.sequence (es.flatMap Extension.Spelling.encode))).getD []

def content (s : Spelling) : Bytes :=
  s.encodeVersion ++ encodeInteger s.serial ++ s.signature.encode ++ s.issuer.encode
    ++ wrap Tag.sequence (s.notBefore.encode ++ s.notAfter.encode) ++ s.subject.encode
    ++ s.publicKey.encode ++ (s.beforeIssuerId.encode ++ encodeContextBits 1 s.issuerId)
    ++ (s.beforeSubjectId.encode ++ encodeContextBits 2 s.subjectId)
    ++ (s.beforeExtensions.encode ++ s.encodeExtensions)

def encode (s : Spelling) : Bytes := wrap Tag.sequence s.content

/-- No default value is spelled out, the attributes stand in order, and nothing is passed over. -/
structure IsShortest (s : Spelling) : Prop where
  version : s.version ≠ some 0
  issuer : s.issuer.IsSorted
  subject : s.subject.IsSorted
  beforeIssuerId : s.beforeIssuerId.elements = []
  beforeSubjectId : s.beforeSubjectId.elements = []
  beforeExtensions : s.beforeExtensions.elements = []
  extensions : ∀ es, s.extensions = some es → ∀ e ∈ es, e.IsShortest

theorem shortens_version (s : Spelling) :
    Shortens (if s.body.version = 0 then []
        else wrap 0xA0 (encodeInteger [UInt8.ofNat s.body.version]))
      s.encodeVersion (s.version ≠ some 0) := by
  rw [body, encodeVersion]
  cases s.version with
  | none => exact (Shortens.refl []).congr (by simp)
  | some v =>
    by_cases hv : v = 0
    · subst hv
      refine ⟨Nat.zero_le _, ?_⟩
      simp [wrap, Element.encode]
    · have hval : v.val ≠ 0 := fun h => hv (Fin.ext h)
      simp only [Option.map_some, Option.getD_some, if_neg hval]
      exact (Shortens.refl _).congr (by simp [hv])

theorem shortens_extensions (s : Spelling) :
    Shortens ((s.body.extensions.map fun es =>
        wrap 0xA3 (wrap Tag.sequence (es.flatMap Extension.encode))).getD [])
      s.encodeExtensions (∀ es, s.extensions = some es → ∀ e ∈ es, e.IsShortest) := by
  rw [body, encodeExtensions]
  cases s.extensions with
  | none => exact (Shortens.refl []).congr (by simp)
  | some es =>
    have h : Shortens ((es.map Extension.Spelling.extension).flatMap Extension.encode)
        (es.flatMap Extension.Spelling.encode) (∀ e ∈ es, e.IsShortest) :=
      Shortens.flatMap fun e _ => e.shortens
    exact ((h.wrap Tag.sequence).wrap 0xA3).congr (by simp)

/-- What stands in front of a field is left out. -/
theorem shortens_passed (p : Passed n) {x y : Bytes} {q : Prop} (h : Shortens y x q) :
    Shortens y (p.encode ++ x) (p.elements = [] ∧ q) := p.shortens.append h

theorem shortens (s : Spelling) : Shortens s.body.encode s.encode s.IsShortest := by
  have h := ((((((((s.shortens_version.append (.refl (encodeInteger s.serial))).append
    (.refl s.signature.encode)).append s.issuer.shortens).append
    (.refl (wrap Tag.sequence (s.notBefore.encode ++ s.notAfter.encode)))).append
    s.subject.shortens).append (.refl s.publicKey.encode)).append
    (shortens_passed s.beforeIssuerId (.refl (encodeContextBits 1 s.issuerId)))).append
    (shortens_passed s.beforeSubjectId (.refl (encodeContextBits 2 s.subjectId)))).append
    (shortens_passed s.beforeExtensions s.shortens_extensions)
  refine (h.wrap Tag.sequence).congr ?_
  constructor
  · rintro ⟨⟨⟨⟨⟨⟨⟨⟨⟨hv, -⟩, -⟩, hi⟩, -⟩, hs⟩, -⟩, h1, -⟩, h2, -⟩, h3, he⟩
    exact ⟨hv, hi, hs, h1, h2, h3, he⟩
  · rintro ⟨hv, hi, hs, h1, h2, h3, he⟩
    exact ⟨⟨⟨⟨⟨⟨⟨⟨⟨hv, trivial⟩, trivial⟩, hi⟩, trivial⟩, hs⟩, trivial⟩, h1, trivial⟩, h2, trivial⟩,
      h3, he⟩

end Body.Spelling

theorem reads_body : Body.parser.Reads Body.Spelling.body Body.Spelling.encode := by
  refine Reads.inside ?_ Tag.sequence
  intro b body rest h
  obtain ⟨version, b1, hversion, h⟩ := bind_eq_some.mp h
  obtain ⟨serial, b2, hserial, h⟩ := bind_eq_some.mp h
  obtain ⟨signature, b3, hsignature, h⟩ := bind_eq_some.mp h
  obtain ⟨issuer, b4, hissuer, h⟩ := bind_eq_some.mp h
  obtain ⟨⟨notBefore, notAfter⟩, b5, hvalidity, h⟩ := bind_eq_some.mp h
  obtain ⟨subject, b6, hsubject, h⟩ := bind_eq_some.mp h
  obtain ⟨publicKey, b7, hkey, h⟩ := bind_eq_some.mp h
  obtain ⟨issuerId, b8, hissuerId, h⟩ := bind_eq_some.mp h
  obtain ⟨subjectId, b9, hsubjectId, h⟩ := bind_eq_some.mp h
  obtain ⟨extensions, b10, hextensions, h⟩ := bind_eq_some.mp h
  obtain ⟨rfl, rfl⟩ := pure_eq_some.mp h
  obtain ⟨v, rfl, e1⟩ := reads_contextVersion hversion
  obtain ⟨si, rfl, e4⟩ := reads_name hissuer
  obtain ⟨ss, rfl, e6⟩ := reads_name hsubject
  obtain ⟨⟨p1, i1⟩, rfl, e8⟩ := reads_contextBitString? 1 hissuerId
  obtain ⟨⟨p2, i2⟩, rfl, e9⟩ := reads_contextBitString? 2 hsubjectId
  obtain ⟨⟨p3, es⟩, rfl, e10⟩ :=
    reads_contextValue? 3 (reads_extension.listOf Tag.sequence) hextensions
  refine ⟨⟨v, serial, signature, si, notBefore, notAfter, ss, publicKey, p1, i1, p2, i2, p3, es⟩,
    rfl, ?_⟩
  rw [e1, reads_serial.eq hserial, reads_algorithmIdentifier.eq hsignature, e4,
    reads_validity.eq hvalidity, e6, reads_publicKeyInfo.eq hkey, e8, e9, e10]
  simp only [Body.Spelling.content, Body.Spelling.encodeVersion, Body.Spelling.encodeExtensions,
    encodeContextBits, List.append_assoc]
  rfl

/-! ## Certificates -/

structure Certificate.Spelling where
  body : Body.Spelling
  algorithm : AlgorithmIdentifier
  signature : BitString

namespace Certificate.Spelling

def certificate (s : Spelling) : Certificate := ⟨s.body.body, s.algorithm, s.signature⟩

def encode (s : Spelling) : Bytes :=
  wrap Tag.sequence (s.body.encode ++ s.algorithm.encode ++ s.signature.encode)

/-- A certificate is written anew as it was exactly when it was written in the shortest way. -/
theorem shortens (s : Spelling) :
    Shortens s.certificate.encode s.encode s.body.IsShortest := by
  have h := (s.body.shortens.append (.refl s.algorithm.encode)).append (.refl s.signature.encode)
  exact (h.wrap Tag.sequence).congr (by simp)

end Certificate.Spelling

theorem reads_certificate :
    Certificate.parser.Reads Certificate.Spelling.certificate Certificate.Spelling.encode := by
  refine Reads.inside ?_ Tag.sequence
  intro b c rest h
  obtain ⟨body, b1, hbody, h⟩ := bind_eq_some.mp h
  obtain ⟨algorithm, b2, halgorithm, h⟩ := bind_eq_some.mp h
  obtain ⟨signature, b3, hsignature, h⟩ := bind_eq_some.mp h
  obtain ⟨rfl, rfl⟩ := pure_eq_some.mp h
  obtain ⟨sb, rfl, hb⟩ := reads_body hbody
  refine ⟨⟨sb, algorithm, signature⟩, rfl, ?_⟩
  rw [hb, reads_algorithmIdentifier.eq halgorithm, reads_bitString.eq hsignature]
  simp

end Strongbox.X509
