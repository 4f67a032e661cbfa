/-
  Strongbox.Proofs.Key.Private — private keys from armour and without it.

  An encrypted structure is a sequence, and so is private key information; neither begins like
  armour, and both get through armour whole. So a key is the same from both forms, and a password
  is looked at for an encrypted structure only. Octets of an encoding can begin like armour, with
  a tag that is a blank or a hyphen: the length behind it is then too small for a block.
  - `armoured_render`: a sequence is read back from its armour.
  - `isMalformed_of_looksLike`: an encoding that begins like armour is no key in either form.
  - `ofBytes_encrypt`: a key that was encrypted under a password is opened with it.
  - `same_key_from_armour`: the two forms of a key under every password.
-/

import Strongbox.Key.Private
import Strongbox.Proofs.Bytes
import Strongbox.Proofs.Der.Element
import Strongbox.Proofs.Outcome
import Strongbox.Proofs.Pem.Boundary
import Strongbox.Proofs.Pkcs8.Encrypted
import Strongbox.Proofs.Text.Utf8

namespace Strongbox

open Der Outcome

/-! ## Kinds of failures -/

def KeyDecodeError.IsMalformed (e : KeyDecodeError) : Prop := ∃ reason, e = malformed reason

/-- A failure without the reason that it tells. -/
def KeyDecodeError.kind : KeyDecodeError → KeyDecodeError
  | wrongPassword => wrongPassword
  | malformed _ => malformed ""

/-! ## Encodings that begin like armour -/

namespace Der

/-- An encoding of some value: a tag, on several octets where the first one says so, the length
in the fewest octets, and the content. -/
def IsEncoding (d : Bytes) : Prop :=
  ∃ tag more content, (tag &&& 0x1F ≠ 0x1F → more = []) ∧ content.length < Bytes.capacity 126 ∧
    d = tag :: (more ++ (encodeLength content.length ++ content))

theorem isEncoding_wrap (tag : UInt8) {c : Bytes} (h : c.length < Bytes.capacity 126) :
    IsEncoding (wrap tag c) := ⟨tag, [], c, fun _ => rfl, h, rfl⟩

theorem eq_of_encodeLength_cons {n : Nat} (hn : n < Bytes.capacity 126) {y : UInt8} {rest : Bytes}
    (h : encodeLength n = y :: rest) (hy : y.toNat < 0x80) : n = y.toNat ∧ rest = [] := by
  rw [encodeLength] at h
  split at h
  · cases h
    refine ⟨?_, rfl⟩
    rw [UInt8.toNat_ofNat']
    omega
  · rename_i hlarge
    have hwidth := Bytes.widthOf_le hn
    cases h
    rw [Bytes.ofNatMinimal, Bytes.length_ofNat, UInt8.toNat_ofNat'] at hy
    omega

theorem whole_sequence_eq_none {p : Parser α} {d : Bytes}
    (h : (contentOf Tag.sequence).whole d = none) : (sequence p).whole d = none := by
  cases hp : (sequence p).whole d with
  | none => rfl
  | some a =>
    obtain ⟨c, hc, -⟩ := Parser.inside_eq_some (Parser.whole_eq_some.mp hp)
    rw [Parser.whole_eq_some.mpr hc] at h
    cases h

end Der

namespace Pem

/-- A text that begins like armour begins with a blank in front of such a text, or with two
hyphens. -/
theorem cases_of_looksLike {b : Bytes} (h : looksLike b = true) :
    ∃ x rest, b = x :: rest ∧
      (IsBlank x ∧ looksLike rest = true ∨ x = 45 ∧ ∃ rest', rest = 45 :: rest') := by
  have hbegin : ascii "-----BEGIN" = 45 :: 45 :: [45, 45, 45, 66, 69, 71, 73, 78] := by rfl
  cases b with
  | nil =>
    rw [looksLike, hbegin] at h
    cases h
  | cons x rest =>
    refine ⟨x, rest, rfl, ?_⟩
    rw [looksLike, List.dropWhile_cons] at h
    split at h
    · rename_i hx
      simp only [Bool.or_eq_true, beq_iff_eq, or_assoc] at hx
      exact .inl ⟨hx, h⟩
    · rw [hbegin] at h
      obtain ⟨rest', ht⟩ := exists_of_startsWith h
      cases ht
      exact .inr ⟨rfl, _, rfl⟩

/-- A sequence does not begin like armour. -/
theorem looksLike_wrap_sequence (c : Bytes) : looksLike (wrap Tag.sequence c) = false := by
  refine Bool.eq_false_iff.mpr fun h => ?_
  obtain ⟨x, rest, hx, h⟩ := cases_of_looksLike h
  have htag : Tag.sequence = x := (List.cons.inj hx).1
  rw [← htag] at h
  rcases h with ⟨h, -⟩ | ⟨h, -⟩
  · exact absurd h (by decide)
  · exact absurd h (by decide)

/-- The first octet of such a text is no tag that goes on, and the second one is a small length. -/
theorem begins_of_looksLike {x : UInt8} {b : Bytes} (h : looksLike (x :: b) = true) :
    x &&& 0x1F ≠ 0x1F ∧ ∃ y rest, b = y :: rest ∧ y.toNat ≤ 45 := by
  obtain ⟨_, _, hx, h⟩ := cases_of_looksLike h
  cases hx
  rcases h with ⟨hblank, h⟩ | ⟨rfl, rest, rfl⟩
  · refine ⟨by rcases hblank with rfl | rfl | rfl | rfl | rfl <;> decide, ?_⟩
    obtain ⟨y, rest, rfl, hy⟩ := cases_of_looksLike h
    refine ⟨y, rest, rfl, ?_⟩
    rcases hy with ⟨hy, -⟩ | ⟨rfl, -⟩
    · exact Nat.le_of_lt hy.toNat_lt
    · decide
  · exact ⟨by decide, 45, rest, rfl, by decide⟩

theorem length_le_of_looksLike {d : Bytes} (hd : IsEncoding d) (h : looksLike d = true) :
    d.length ≤ 47 := by
  obtain ⟨tag, more, content, hmore, hlt, rfl⟩ := hd
  obtain ⟨htag, y, rest, hy, hsmall⟩ := begins_of_looksLike h
  rw [hmore htag, List.nil_append] at hy ⊢
  cases hl : encodeLength content.length with
  | nil =>
    have hlen := length_encodeLength content.length
    rw [hl, List.length_nil] at hlen
    split at hlen <;> omega
  | cons z length =>
    rw [hl, List.cons_append] at hy
    obtain ⟨rfl, -⟩ := List.cons.inj hy
    obtain ⟨hn, rfl⟩ := eq_of_encodeLength_cons hlt hl (by omega)
    simp only [List.length_cons, List.length_append, List.length_nil]
    omega

end Pem

namespace PrivateKey

/-! ## Private keys and encrypted ones -/

theorem isMalformed_ofDer (d : Bytes) : FailsAs KeyDecodeError.IsMalformed (ofDer d) := by
  rw [ofDer]
  split
  · exact failsAs_error.mpr ⟨_, rfl⟩
  · split
    · exact failsAs_ok _
    · exact failsAs_ok _
    · exact failsAs_error.mpr ⟨_, rfl⟩

/-- An encrypted structure opens to a key, or the password is wrong. -/
theorem openInfo_cases (i : Pkcs8.EncryptedPrivateKeyInfo) (password : Bytes) :
    (∃ k, openInfo i password = .ok k) ∨ openInfo i password = .error .wrongPassword := by
  rw [openInfo]
  split
  · rename_i k _
    exact .inl ⟨k, rfl⟩
  · exact .inr rfl

theorem ofDer_of_no_sequence {d : Bytes} (h : (contentOf Tag.sequence).whole d = none) :
    ∃ reason, ofDer d = .error (.malformed reason) := by
  rw [ofDer, show Pkcs8.PrivateKeyInfo.parser.whole d = none from whole_sequence_eq_none h]
  exact ⟨_, rfl⟩

theorem exists_content {d : Bytes} {i : Pkcs8.EncryptedPrivateKeyInfo}
    (h : Pkcs8.EncryptedPrivateKeyInfo.parser.whole d = some i) :
    ∃ c, (contentOf Tag.sequence).whole d = some c := by
  obtain ⟨c, hc, -⟩ := Parser.inside_eq_some (Parser.whole_eq_some.mp h)
  exact ⟨c, Parser.whole_eq_some.mpr hc⟩

theorem eq_wrap_of_content {d c : Bytes} (h : (contentOf Tag.sequence).whole d = some c) :
    d = wrap Tag.sequence c := by
  rw [(Parser.reads_contentOf Tag.sequence).eq (Parser.whole_eq_some.mp h), List.append_nil]

/-! ## Armour -/

theorem isMalformed_armoured (b : Bytes) : FailsAs KeyDecodeError.IsMalformed (armoured b) := by
  rw [armoured]
  split
  · exact failsAs_error.mpr ⟨_, rfl⟩
  · split
    · exact failsAs_error.mpr ⟨_, rfl⟩
    · split
      · exact failsAs_ok _
      · exact failsAs_error.mpr ⟨_, rfl⟩

theorem armoured_eq_ok {b content : Bytes} {label : String} :
    armoured b = .ok (label, content) ↔ Text.Utf8.defect? b = none ∧
      (∃ block, Pem.block? b = some block ∧ block.label = label ∧ block.decode? = some content) ∧
      ∃ c, (contentOf Tag.sequence).whole content = some c := by
  constructor
  · intro h
    rw [armoured] at h
    split at h
    · cases h
    · rename_i hutf8
      split at h
      · cases h
      · rename_i hread
        obtain ⟨block, hblock, hcontent⟩ := Option.bind_eq_some_iff.mp hread
        obtain ⟨content', hdecode, he⟩ := Option.map_eq_some_iff.mp hcontent
        cases he
        split at h
        · rename_i c hc
          cases h
          exact ⟨hutf8, ⟨block, hblock, rfl, hdecode⟩, c, hc⟩
        · cases h
  · rintro ⟨hutf8, ⟨block, hblock, rfl, hdecode⟩, c, hc⟩
    simp only [armoured, hutf8, hblock, Option.bind_some, hdecode, Option.map_some, hc]

structure IsKeyLabel (label : String) : Prop where
  isLabel : Pem.IsLabel (Pem.ascii label)
  ascii : ∀ x ∈ Pem.ascii label, x.toNat < 128

theorem isKeyLabel_plain : IsKeyLabel "PRIVATE KEY" := ⟨by decide, by decide +kernel⟩

theorem isKeyLabel_encrypted : IsKeyLabel "ENCRYPTED PRIVATE KEY" := ⟨by decide, by decide +kernel⟩

/-- A sequence is read back from its armour. -/
theorem armoured_render {label : String} (hlabel : IsKeyLabel label) {d c : Bytes}
    (h : (contentOf Tag.sequence).whole d = some c) :
    armoured (Pem.render label d) = .ok (label, d) := by
  have hne : d ≠ [] := by
    rw [eq_wrap_of_content h]
    exact List.cons_ne_nil _ _
  refine armoured_eq_ok.mpr ⟨?_, ⟨_, Pem.block?_render hlabel.isLabel hne, rfl, ?_⟩, c, h⟩
  · exact Text.Utf8.defect?_of_ascii fun x hx => Pem.ascii_of_mem_render hlabel.ascii hx
  · exact Pem.decode?_encodeOctets label

theorem armoured_render_ne_ok {d : Bytes} (h : (contentOf Tag.sequence).whole d = none)
    (read : String × Bytes) : armoured (Pem.render "PRIVATE KEY" d) ≠ .ok read := by
  intro hread
  obtain ⟨-, ⟨block, hblock, -, hdecode⟩, c, hc⟩ := armoured_eq_ok.mp hread
  by_cases hne : d = []
  · have hempty : Pem.block? (Pem.render "PRIVATE KEY" []) = none := by
      rw [Pem.render_eq, Base64.encodeOctets_nil, Pem.lines, Bytes.chunks]
      rfl
    rw [hne, hempty] at hblock
    cases hblock
  · rw [Pem.block?_render isKeyLabel_plain.isLabel hne, Option.some.injEq] at hblock
    rw [← hblock, Pem.decode?_encodeOctets, Option.some.injEq] at hdecode
    rw [← hdecode, h] at hc
    cases hc

/-! ## The two forms -/

theorem ofBytes_of_looksLike {b : Bytes} (h : Pem.looksLike b = true) (password : Bytes) :
    ofBytes b password = armoured b >>= fun r =>
      if r.1 = "ENCRYPTED PRIVATE KEY" then decrypt r.2 password
      else if r.1 = "PRIVATE KEY" then ofDer r.2
      else .error (.malformed ("unexpected PEM label " ++ Text.quoted r.1)) := by
  rw [ofBytes, if_pos h]
  rfl

theorem ofBytes_of_not_looksLike {b : Bytes} (h : Pem.looksLike b = false)
    (hnone : Pkcs8.EncryptedPrivateKeyInfo.parser.whole b = none) (password : Bytes) :
    ofBytes b password = ofDer b := by
  rw [ofBytes, if_neg (by rw [h]; exact Bool.false_ne_true), hnone]

/-- An encrypted structure is opened in both forms. -/
theorem ofBytes_encrypted {d : Bytes} {i : Pkcs8.EncryptedPrivateKeyInfo}
    (h : Pkcs8.EncryptedPrivateKeyInfo.parser.whole d = some i) (password : Bytes) :
    ofBytes d password = openInfo i password ∧
    ofBytes (Pem.render "ENCRYPTED PRIVATE KEY" d) password = openInfo i password := by
  obtain ⟨c, hc⟩ := exists_content h
  constructor
  · have hlooks : Pem.looksLike d = false := by
      rw [eq_wrap_of_content hc]
      exact Pem.looksLike_wrap_sequence c
    rw [ofBytes, if_neg (by rw [hlooks]; exact Bool.false_ne_true), h]
  · rw [ofBytes_of_looksLike (Pem.looksLike_render _ _), armoured_render isKeyLabel_encrypted hc,
      ok_bind, if_pos rfl, decrypt, h]

/-- A key that was encrypted under a password is opened with it, for every scheme in use. -/
theorem ofBytes_encrypt {a : AlgorithmIdentifier} (ha : a.IsReadable)
    {derivation : Pkcs8.KeyDerivation} {size : Nat} {vector : Bytes}
    (hscheme : Pkcs8.scheme? a = some (.aesCbc derivation size vector)) {password key : Bytes}
    (hkey : derivation.derive? password size = some key) {info : Bytes} {k : PrivateKey}
    (hinfo : ofDer info = .ok k)
    (hlength : (Pkcs8.EncryptedPrivateKeyInfo.encode a (Aes.Cbc.encrypt key vector info)).length <
      lengthLimit) :
    ofBytes (Pkcs8.EncryptedPrivateKeyInfo.encode a (Aes.Cbc.encrypt key vector info)) password =
      .ok k := by
  have hread := Pkcs8.EncryptedPrivateKeyInfo.parser_encode ha hscheme hlength
  have hopen := Pkcs8.EncryptedPrivateKeyInfo.decrypt?_encrypt hscheme hkey info
  rw [(ofBytes_encrypted hread password).1, openInfo, hopen, Option.map_some, hinfo]

/-- Other octets are read from armour as they are without, reasons of failures apart. -/
theorem exists_ofBytes_render (d : Bytes) :
    ∃ x, (∀ password, ofBytes (Pem.render "PRIVATE KEY" d) password = x) ∧
      x.mapError KeyDecodeError.kind = (ofDer d).mapError KeyDecodeError.kind := by
  cases hseq : (contentOf Tag.sequence).whole d with
  | some c =>
    have hne : "PRIVATE KEY" ≠ "ENCRYPTED PRIVATE KEY" := by decide
    refine ⟨ofDer d, fun password => ?_, rfl⟩
    rw [ofBytes_of_looksLike (Pem.looksLike_render _ _), armoured_render isKeyLabel_plain hseq,
      ok_bind, if_neg hne, if_pos rfl]
  | none =>
    obtain ⟨reason, hd⟩ := ofDer_of_no_sequence hseq
    cases harmoured : armoured (Pem.render "PRIVATE KEY" d) with
    | ok read => exact absurd harmoured (armoured_render_ne_ok hseq read)
    | error e =>
      obtain ⟨reason', rfl⟩ := isMalformed_armoured _ e harmoured
      refine ⟨.error (.malformed reason'), fun password => ?_, by rw [hd]; rfl⟩
      rw [ofBytes_of_looksLike (Pem.looksLike_render _ _), harmoured]
      rfl

/-- What is read like a bare structure does not fail for a password. -/
theorem ne_wrongPassword_of_kind_eq {x : Except KeyDecodeError PrivateKey} {d : Bytes}
    (h : x.mapError KeyDecodeError.kind = (ofDer d).mapError KeyDecodeError.kind) :
    x ≠ .error .wrongPassword := by
  rintro rfl
  obtain ⟨e, he, hkind⟩ := mapError_eq_error.mp h.symm
  obtain ⟨reason, rfl⟩ := isMalformed_ofDer d e he
  cases hkind

/-- An encoding that begins like armour is no key, in armour or not. -/
theorem isMalformed_of_looksLike {d : Bytes} (hd : IsEncoding d) (h : Pem.looksLike d = true) :
    (∃ reason, ofDer d = .error (.malformed reason)) ∧
    ∃ reason, ∀ password, ofBytes d password = .error (.malformed reason) := by
  constructor
  · refine ofDer_of_no_sequence ?_
    cases hseq : (contentOf Tag.sequence).whole d with
    | none => rfl
    | some c =>
      rw [eq_wrap_of_content hseq, Pem.looksLike_wrap_sequence] at h
      cases h
  · have hlength := Pem.length_le_of_looksLike hd h
    cases harmoured : armoured d with
    | error e =>
      obtain ⟨reason, rfl⟩ := isMalformed_armoured _ e harmoured
      refine ⟨reason, fun password => ?_⟩
      rw [ofBytes_of_looksLike h, harmoured]
      rfl
    | ok read =>
      -- The boundaries with the label of a key alone are longer.
      obtain ⟨label, content⟩ := read
      obtain ⟨-, ⟨block, hblock, rfl, -⟩, -⟩ := armoured_eq_ok.mp harmoured
      have hle := Pem.le_length_of_block? hblock
      have hplain : block.label ≠ "PRIVATE KEY" := by
        intro hl
        rw [hl, show (Pem.ascii "PRIVATE KEY").length = 11 by rfl] at hle
        omega
      have hencrypted : block.label ≠ "ENCRYPTED PRIVATE KEY" := by
        intro hl
        rw [hl, show (Pem.ascii "ENCRYPTED PRIVATE KEY").length = 21 by rfl] at hle
        omega
      refine ⟨"unexpected PEM label " ++ Text.quoted block.label, fun password => ?_⟩
      rw [ofBytes_of_looksLike h, harmoured, ok_bind, if_neg hencrypted, if_neg hplain]

/-- Octets that are no encrypted structure are read as private key information, whatever the
password. -/
theorem exists_ofBytes_plain {d : Bytes} (hd : IsEncoding d ∨ Pem.looksLike d = false)
    (h : Pkcs8.EncryptedPrivateKeyInfo.parser.whole d = none) :
    ∃ x, (∀ password, ofBytes d password = x) ∧
      x.mapError KeyDecodeError.kind = (ofDer d).mapError KeyDecodeError.kind := by
  cases hlooks : Pem.looksLike d with
  | false => exact ⟨ofDer d, ofBytes_of_not_looksLike hlooks h, rfl⟩
  | true =>
    have hd : IsEncoding d := hd.resolve_right (by rw [hlooks]; exact Bool.noConfusion)
    obtain ⟨⟨reason, hbare⟩, reason', hread⟩ := isMalformed_of_looksLike hd hlooks
    exact ⟨.error (.malformed reason'), hread, by rw [hbare]; rfl⟩

/-- An encrypted structure is opened alike from armour and without, to a key or as under a wrong
password. Any other encoding is read as private key information in both forms, whatever the
password, and fails as malformed alone. The same holds of octets that are no encoding, unless they
begin like armour themselves. -/
theorem same_key_from_armour {d : Bytes} (hd : IsEncoding d ∨ Pem.looksLike d = false)
    (password : Bytes) :
    (∀ i, Pkcs8.EncryptedPrivateKeyInfo.parser.whole d = some i →
      ofBytes (Pem.render "ENCRYPTED PRIVATE KEY" d) password = ofBytes d password ∧
      ((∃ k, ofBytes d password = .ok k) ∨ ofBytes d password = .error .wrongPassword)) ∧
    (Pkcs8.EncryptedPrivateKeyInfo.parser.whole d = none →
      (ofBytes (Pem.render "PRIVATE KEY" d) password).mapError KeyDecodeError.kind =
        (ofBytes d password).mapError KeyDecodeError.kind ∧
      (ofDer d).mapError KeyDecodeError.kind =
        (ofBytes d password).mapError KeyDecodeError.kind ∧
      (∀ password', ofBytes d password' = ofBytes d password ∧
        ofBytes (Pem.render "PRIVATE KEY" d) password' =
          ofBytes (Pem.render "PRIVATE KEY" d) password) ∧
      ofBytes d password ≠ .error .wrongPassword ∧
      ofBytes (Pem.render "PRIVATE KEY" d) password ≠ .error .wrongPassword) := by
  constructor
  · intro i hi
    obtain ⟨hbare, harmoured⟩ := ofBytes_encrypted hi password
    rw [hbare, harmoured]
    exact ⟨rfl, openInfo_cases i password⟩
  · intro hnone
    obtain ⟨x, hbare, hx⟩ := exists_ofBytes_plain hd hnone
    obtain ⟨y, harmoured, hy⟩ := exists_ofBytes_render d
    rw [hbare, harmoured]
    refine ⟨hy.trans hx.symm, hx.symm, fun password' => ?_, ne_wrongPassword_of_kind_eq hx,
      ne_wrongPassword_of_kind_eq hy⟩
    rw [hbare, harmoured]
    exact ⟨rfl, rfl⟩

def seedInfo (seed : Bytes) : Bytes :=
  wrap Tag.sequence (encodeInteger [0] ++ AlgorithmIdentifier.encode ⟨ed25519Algorithm, none⟩
    ++ wrap Tag.octetString (wrap Tag.octetString seed))

/-- An encrypted structure of the first generation. -/
def retiredInfo : Bytes :=
  wrap Tag.sequence (AlgorithmIdentifier.encode ⟨Pkcs8.pkcs5 3, some ⟨Tag.sequence,
    wrap Tag.octetString (List.replicate 8 0) ++ encodeInteger [1]⟩⟩ ++ wrap Tag.octetString [])

def sampleSalt : Bytes := List.replicate 8 1

def sampleVector : Bytes := List.replicate 16 2

/-- AES with keys of 32 octets, which are derived with SHA-256 in 2048 iterations. -/
def aesScheme : AlgorithmIdentifier :=
  let prf : AlgorithmIdentifier := ⟨Oid.ofArcs [1, 2, 840, 113549, 2, 9], some nullElement⟩
  let derivation : AlgorithmIdentifier := ⟨Pkcs8.pkcs5 12, some ⟨Tag.sequence,
    wrap Tag.octetString sampleSalt ++ encodeInteger [8, 0] ++ prf.encode⟩⟩
  let cipher : AlgorithmIdentifier :=
    ⟨Oid.ofArcs [2, 16, 840, 1, 101, 3, 4, 1, 42], some ⟨Tag.octetString, sampleVector⟩⟩
  ⟨Pkcs8.pkcs5 13, some ⟨Tag.sequence, derivation.encode ++ cipher.encode⟩⟩

/-- The structure of a seed of ones, encrypted under a password. -/
def encryptedInfo (password : Bytes) : Bytes :=
  let key := Password.pbkdf2 .sha256 password sampleSalt 2048 32
  Pkcs8.EncryptedPrivateKeyInfo.encode aesScheme
    (Aes.Cbc.encrypt key sampleVector (seedInfo (List.replicate 32 1)))

theorem isReadable_aesScheme : aesScheme.IsReadable where
  arcs := by decide
  parameters := by
    intro e he
    cases he
    exact ⟨by decide, by decide⟩
  length_lt := by decide

theorem length_encryptedInfo (password : Bytes) :
    (encryptedInfo password).length < lengthLimit := by
  have hinfo : (seedInfo (List.replicate 32 1)).length = 48 := by decide
  have hscheme : aesScheme.encode.length = 89 := by decide
  rw [encryptedInfo, Pkcs8.EncryptedPrivateKeyInfo.encode, length_wrap, List.length_append,
    hscheme, length_wrap, Aes.Cbc.length_encrypt, hinfo]
  decide

theorem scheme?_aesScheme : Pkcs8.scheme? aesScheme =
    some (.aesCbc (.pbkdf2 sampleSalt 2048 none (.hash .sha256)) 32 sampleVector) := by rfl

theorem ofBytes_encryptedInfo (password : Bytes) :
    ofBytes (encryptedInfo password) password = .ok (.ed25519 ⟨List.replicate 32 1⟩) :=
  ofBytes_encrypt isReadable_aesScheme scheme?_aesScheme rfl (by decide)
    (length_encryptedInfo password)

/-- A plain key is read under every password, and one that was encrypted is opened with its
password. A structure whose scheme is out of use is recognised in both forms and not opened. -/
theorem same_key_from_armour_seed :
    ofBytes (seedInfo (List.replicate 32 1)) [] = .ok (.ed25519 ⟨List.replicate 32 1⟩) ∧
    ofBytes (Pem.render "PRIVATE KEY" (seedInfo (List.replicate 32 1))) (Bytes.ofString "secret") =
      .ok (.ed25519 ⟨List.replicate 32 1⟩) ∧
    ofBytes (Pem.render "ENCRYPTED PRIVATE KEY" (encryptedInfo (Bytes.ofString "secret")))
      (Bytes.ofString "secret") = .ok (.ed25519 ⟨List.replicate 32 1⟩) ∧
    ofBytes (Pem.render "ENCRYPTED PRIVATE KEY" retiredInfo) [] = .error .wrongPassword := by
  have hplain : ofBytes (seedInfo (List.replicate 32 1)) (Bytes.ofString "secret") =
      .ok (.ed25519 ⟨List.replicate 32 1⟩) := by decide
  have hnone : (Pkcs8.EncryptedPrivateKeyInfo.parser.whole
      (seedInfo (List.replicate 32 1))).isNone = true := by decide
  have hsome : (Pkcs8.EncryptedPrivateKeyInfo.parser.whole retiredInfo).isSome = true := by
    decide
  have hencoding : IsEncoding (seedInfo (List.replicate 32 1)) :=
    isEncoding_wrap Tag.sequence (by decide +kernel)
  obtain ⟨i, hi⟩ := Option.isSome_iff_exists.mp hsome
  obtain ⟨-, hseed⟩ := same_key_from_armour (.inl hencoding) (Bytes.ofString "secret")
  obtain ⟨hretired, -⟩ := same_key_from_armour (d := retiredInfo) (.inr (by decide)) []
  obtain ⟨hencrypted, -⟩ := same_key_from_armour (d := encryptedInfo (Bytes.ofString "secret"))
    (.inr (Pem.looksLike_wrap_sequence _)) (Bytes.ofString "secret")
  obtain ⟨hkind, -, hsame, -⟩ := hseed (Option.isNone_iff_eq_none.mp hnone)
  refine ⟨(hsame []).1.trans hplain, ?_, ?_, (hretired i hi).1.trans (by decide)⟩
  · rw [hplain] at hkind
    exact mapError_eq_ok.mp hkind
  · have hread := Pkcs8.EncryptedPrivateKeyInfo.parser_encode isReadable_aesScheme
      scheme?_aesScheme (length_encryptedInfo (Bytes.ofString "secret"))
    exact (hencrypted _ hread).1.trans (ofBytes_encryptedInfo _)

end PrivateKey

end Strongbox
