/-
  Strongbox.Proofs.Key.Certificate — the armoured certificate and the bare one.

  A bare certificate keeps the octets it was read from, one from armour is written anew. Reading
  from armour gets through to the same octets, whatever their length: the first step holds the
  length of the whole, and the next one all of it. So the two differ in their encoding at most,
  and do so whenever the octets are not the shortest spelling of the certificate.
  - `ofBytes_render_eq_ok_iff`: what an armoured certificate is read as.
  - `a_spelled_default_changes_the_certificate`: a certificate that names the default version.
-/

import Strongbox.Key.Certificate
import Strongbox.Proofs.Outcome
import Strongbox.Proofs.Pem
import Strongbox.Proofs.X509.Certificate

namespace Strongbox.Certificate

open Der Outcome

theorem ofParsed_of_ok {c : X509.Certificate} {e : Bytes} {cert : Certificate}
    (h : ofParsed c e = .ok cert) (e' : Bytes) :
    cert.encoding = e ∧ ofParsed c e' = .ok { cert with encoding := e' } := by
  obtain ⟨key, hkey, h⟩ := bind_eq_ok.mp h
  cases h
  refine ⟨rfl, ?_⟩
  rw [ofParsed, bind_of_ok hkey]
  rfl

theorem ofDer_eq_ok {d : Bytes} {cert : Certificate} :
    ofDer d = .ok cert ↔
      ∃ c, X509.Certificate.parser.whole d = some c ∧ ofParsed c d = .ok cert := by
  rw [ofDer]
  cases X509.Certificate.parser.whole d with
  | none => simp
  | some c => simp

/-! ## Armour -/

theorem length_encodeLength_le {n : Nat} (h : n < lengthLimit) : (encodeLength n).length ≤ 5 := by
  have hw := widthOf_le_four h
  rw [length_encodeLength]
  split <;> omega

/-- The length of an element is read off its front. -/
theorem encodedLength?_take {tag : UInt8} {c : Bytes} (hc : c.length < lengthLimit) {m : Nat}
    (hm : 6 ≤ m) : encodedLength? ((wrap tag c).take m) = some (wrap tag c).length := by
  have hl := length_encodeLength_le hc
  have hfront : (wrap tag c).take m =
      tag :: (encodeLength c.length ++ c.take (m - 1 - (encodeLength c.length).length)) := by
    obtain ⟨m, rfl⟩ : ∃ k, m = k + 1 := ⟨m - 1, by omega⟩
    rw [wrap, Element.encode, List.cons_append, List.take_succ_cons, List.take_append,
      List.take_of_length_le (show (encodeLength c.length).length ≤ m by omega)]
    rfl
  rw [encodedLength?, hfront, List.drop_one, List.tail_cons, readLength_encodeLength hc,
    Option.map_some, length_wrap]
  simp only [List.length_cons, List.length_append, Option.some.injEq]
  omega

/-- What is read from armour is what is read bare. -/
theorem armoured?_render {d : Bytes} {c : X509.Certificate}
    (h : X509.Certificate.parser.whole d = some c) :
    armoured? (Pem.render "CERTIFICATE" d) = some c := by
  have hlabel : Pem.IsLabel (Pem.ascii "CERTIFICATE") := by decide
  have hp := Parser.whole_eq_some.mp h
  obtain ⟨content, hcontent, -⟩ := Parser.inside_eq_some hp
  have hlt := Parser.length_lt_of_contentOf hcontent
  have hd : d = wrap Tag.sequence content := by
    rw [(Parser.reads_contentOf Tag.sequence).eq hcontent, List.append_nil]
  have hne : d ≠ [] := by
    rw [hd]
    exact List.cons_ne_nil _ _
  obtain ⟨m, hm, hheader⟩ := Pem.decodeFirst?_encodeOctets "CERTIFICATE" hne 256
  obtain ⟨k, hk, hall⟩ := Pem.decodeFirst?_encodeOctets "CERTIFICATE" hne
    ((d.length + 255) / 256 * 256)
  have hlength : encodedLength? (d.take m) = some d.length := by
    rw [hd]
    exact encodedLength?_take hlt (by omega)
  have hwhole : d.take k = d := List.take_of_length_le (by omega)
  rw [armoured?, Pem.block?_render hlabel hne]
  simp only [Option.bind_eq_bind, Option.bind_some, guard_true, hheader, hlength, hall, hwhole, hp]
  rfl

theorem ofBytes_render {d : Bytes} {c : X509.Certificate}
    (h : X509.Certificate.parser.whole d = some c) :
    ofBytes (Pem.render "CERTIFICATE" d) = ofParsed c c.encode := by
  rw [ofBytes, if_pos (Pem.looksLike_render _ _), ofPem, armoured?_render h]

/-- A certificate that is read from some octets is read from their armour too, with the shortest
encoding of its structure; it is the same certificate exactly when the octets spell out no default
value, have their attributes in order and hold nothing that reading passes over. -/
theorem ofBytes_render_eq_ok_iff {d : Bytes} {cert : Certificate} (h : ofDer d = .ok cert) :
    ∃ s : X509.Certificate.Spelling, s.encode = d ∧
      X509.Certificate.parser.whole d = some s.certificate ∧
      ofBytes (Pem.render "CERTIFICATE" d) = .ok { cert with encoding := s.certificate.encode } ∧
      (ofBytes (Pem.render "CERTIFICATE" d) = .ok cert ↔ s.body.IsShortest) := by
  obtain ⟨c, hc, hcert⟩ := ofDer_eq_ok.mp h
  obtain ⟨s, rfl, rfl⟩ := X509.reads_certificate.of_whole hc
  obtain ⟨hencoding, hanew⟩ := ofParsed_of_ok hcert s.certificate.encode
  have hread := (ofBytes_render hc).trans hanew
  refine ⟨s, rfl, hc, hread, ?_⟩
  rw [hread, ← s.shortens.eq_iff, ← hencoding, Except.ok.injEq]
  constructor
  · intro he
    exact congrArg Certificate.encoding he
  · intro he
    rw [he]

/-! ## A version spelled out -/

def smallCertificate (version : Option (Fin 3)) : X509.Certificate.Spelling where
  body := {
    version, serial := [1], signature := ⟨ed25519Algorithm, none⟩, issuer := [],
    notBefore := .short ⟨1990, 1, 1, 0, 0, 0⟩, notAfter := .short ⟨2049, 12, 31, 23, 59, 59⟩,
    subject := [],
    publicKey := {
      algorithm := ⟨rsaAlgorithm, some nullElement⟩,
      key := ⟨0, wrap Tag.sequence (encodeInteger [0x0C, 0xA1] ++ encodeInteger [17])⟩ },
    beforeIssuerId := ⟨[], nofun⟩, issuerId := none,
    beforeSubjectId := ⟨[], nofun⟩, subjectId := none,
    beforeExtensions := ⟨[], nofun⟩, extensions := none }
  algorithm := ⟨ed25519Algorithm, none⟩
  signature := ⟨0, []⟩

def smallView (encoding : Bytes) : Certificate where
  encoding
  publicKey := .rsa ⟨3233, 17⟩
  subject := ""
  issuer := ""
  serialNumber := "01"
  notBefore := ⟨1990, 1, 1, 0, 0, 0⟩
  notAfter := ⟨2049, 12, 31, 23, 59, 59⟩

/-- A version that is left out stays left out in armour. -/
theorem ofBytes_render_smallCertificate :
    ofDer (smallCertificate none).encode = .ok (smallView (smallCertificate none).encode) ∧
    ofBytes (Pem.render "CERTIFICATE" (smallCertificate none).encode) =
      .ok (smallView (smallCertificate none).encode) := by
  have h : ofDer (smallCertificate none).encode =
      .ok (smallView (smallCertificate none).encode) := by decide
  have hparsed : X509.Certificate.parser.whole (smallCertificate none).encode =
      some (smallCertificate none).certificate := by decide
  have hanew : (smallCertificate none).certificate.encode = (smallCertificate none).encode := by
    decide
  obtain ⟨s, hs, hwhole, -, hiff⟩ := ofBytes_render_eq_ok_iff h
  rw [hparsed, Option.some.injEq] at hwhole
  refine ⟨h, hiff.mpr (s.shortens.eq_iff.mp ?_)⟩
  rw [hs, ← hwhole, hanew]

/-- The default version, where it is spelled out, is left out in armour, so the certificate that is
read is another one. -/
theorem a_spelled_default_changes_the_certificate :
    ofDer (smallCertificate (some 0)).encode =
      .ok (smallView (smallCertificate (some 0)).encode) ∧
    ofBytes (Pem.render "CERTIFICATE" (smallCertificate (some 0)).encode) =
      .ok (smallView (smallCertificate none).encode) ∧
    (smallCertificate none).encode ≠ (smallCertificate (some 0)).encode := by
  have hwhole : X509.Certificate.parser.whole (smallCertificate (some 0)).encode =
      some (smallCertificate (some 0)).certificate := by decide
  refine ⟨by decide, ?_, by decide⟩
  rw [ofBytes_render hwhole]
  decide

end Strongbox.Certificate
