/-
  Strongbox.Proofs.Pkcs8.Encrypted — what was encrypted under a password is decrypted under it.

  A scheme in use names a cipher with keys of one of three sizes and a derivation that makes keys
  of any size, since the digests behind it have theirs. So the octets that are encrypted with the
  derived key come out again, whichever derivation it is.
  - `length_of_derive?`: a cipher key has the size that it was derived for.
  - `parser_encode`: an encrypted structure is read from its encoding.
  - `decrypt?_encrypt`: the octets come back under the password.
-/

import Strongbox.Pkcs8.Encrypted
import Strongbox.Proofs.Aes.Cbc
import Strongbox.Proofs.Der.Value
import Strongbox.Proofs.Thumbprint

namespace Strongbox

/-! ## Derived keys -/

def Digest.HashFunction.IsSized (h : HashFunction) : Prop :=
  0 < h.size ∧ ∀ b, (h.run b).length = h.size

theorem Password.length_pbkdf2Fold {code : Bytes → Bytes} {size : Nat}
    (hcode : ∀ b, (code b).length = size) (n : Nat) (u : Bytes) {acc : Bytes}
    (hacc : acc.length = size) : (pbkdf2Fold code n u acc).length = size := by
  induction n generalizing u acc with
  | zero => exact hacc
  | succ n ih =>
    refine ih _ ?_
    rw [Bytes.length_xor, hacc, hcode, Nat.min_self]

theorem Password.length_pbkdf2 {h : Digest.HashFunction} (hsized : h.IsSized)
    (password salt : Bytes) (iterations size : Nat) :
    (pbkdf2 h password salt iterations size).length = size := by
  obtain ⟨hpos, hrun⟩ := hsized
  have hcode (b : Bytes) : (Digest.hmac h password b).length = h.size := hrun _
  have hblock : ∀ b ∈ (List.range ((size + h.size - 1) / h.size)).map (fun i =>
      pbkdf2Block (Digest.hmac h password) salt iterations (i + 1)), b.length = h.size := by
    intro b hb
    obtain ⟨i, -, rfl⟩ := List.mem_map.mp hb
    exact length_pbkdf2Fold hcode _ _ (hcode _)
  have hblocks := Bytes.length_flatten hblock
  have henough : size ≤ h.size * ((size + h.size - 1) / h.size) := by
    have hdiv := Nat.div_add_mod (size + h.size - 1) h.size
    have hmod := Nat.mod_lt (size + h.size - 1) hpos
    omega
  rw [List.length_map, List.length_range] at hblocks
  rw [pbkdf2, List.length_take, hblocks, Nat.min_eq_left henough]

namespace Pkcs8

open Der Der.Parser

def Prf.IsSized : Prf → Prop
  | retired => True
  | hash h => h.IsSized

theorem isSized_of_mem_prfs : ∀ p ∈ prfs, p.2.IsSized := by
  have hlength := @Digest.Sha2.length_run
  rw [prfs]
  simp only [List.map_cons, List.map_nil, List.forall_mem_cons]
  exact ⟨trivial, ⟨by decide, fun b => hlength _ _⟩, ⟨by decide, fun b => hlength _ _⟩,
    ⟨by decide, fun b => hlength _ _⟩, ⟨by decide, fun b => hlength _ _⟩, List.forall_mem_nil _⟩

def KeyDerivation.IsSized : KeyDerivation → Prop
  | pbkdf2 _ _ _ prf => prf.IsSized
  | scrypt .. => True

/-- A cipher key has the size that it was derived for. -/
theorem KeyDerivation.length_of_derive? {d : KeyDerivation} (hd : d.IsSized) {password key : Bytes}
    {size : Nat} (h : d.derive? password size = some key) : key.length = size := by
  cases d with
  | pbkdf2 salt iterations keySize prf =>
    cases prf with
    | retired => cases h
    | hash hash =>
      obtain ⟨-, hkey⟩ := Option.ite_none_right_eq_some.mp h
      cases hkey
      exact Password.length_pbkdf2 hd password salt iterations size
  | scrypt salt cost width lanes keySize =>
    obtain ⟨-, hkey⟩ := Option.ite_none_right_eq_some.mp h
    cases hkey
    exact Password.length_pbkdf2 ⟨by decide, fun b => Digest.Sha2.length_run _ b⟩ password _ 1 size

/-! ## Schemes in use -/

theorem mem_of_lookup [BEq α] [LawfulBEq α] {k : α} {v : β} {table : List (α × β)}
    (h : table.lookup k = some v) : (k, v) ∈ table := by
  obtain ⟨front, back, rfl, -⟩ := List.lookup_eq_some_iff.mp h
  exact List.mem_append_right front List.mem_cons_self

theorem ensures_prf : prf.Ensures Prf.IsSized := by
  refine .next fun b => ?_
  split
  · exact ensures_pure trivial
  refine .next fun a => ?_
  simp only
  split
  · exact ensures_failure_bind
  split
  · rename_i p hp
    exact ensures_pure (isSized_of_mem_prfs _ (mem_of_lookup hp))
  · exact ensures_failure

theorem ensures_pbkdf2Parser : pbkdf2Parser.Ensures KeyDerivation.IsSized := by
  refine Ensures.inside ?_ Tag.sequence
  refine .next fun salt => .next fun iterations => ?_
  simp only
  split
  · exact ensures_failure_bind
  · exact .next fun keySize => ensures_prf.bind fun p hp => ensures_pure hp

theorem ensures_scryptParser : scryptParser.Ensures KeyDerivation.IsSized :=
  Ensures.inside (.next fun _ => .next fun _ => .next fun _ => .next fun _ => .next fun _ =>
    ensures_pure trivial) Tag.sequence

theorem of_parametersOf {p : Parser α} {P : α → Prop} (hp : p.Ensures P) {a : AlgorithmIdentifier}
    {x : α} (h : parametersOf p a = some x) : P x := by
  obtain ⟨e, -, he⟩ := Option.bind_eq_some_iff.mp h
  exact hp (whole_eq_some.mp he)

theorem isSized_of_derivation? {a : AlgorithmIdentifier} {d : KeyDerivation}
    (h : derivation? a = some d) : d.IsSized := by
  rw [derivation?] at h
  split at h
  · exact of_parametersOf ensures_pbkdf2Parser h
  · split at h
    · exact of_parametersOf ensures_scryptParser h
    · cases h

/-- A cipher has keys of two columns at least. -/
theorem columns_of_cipher? {a : AlgorithmIdentifier} {size : Nat} {vector : Bytes}
    (h : cipher? a = some (size, vector)) : ∃ width, 0 < width ∧ size = 4 * width := by
  obtain ⟨size', hsize, h⟩ := Option.bind_eq_some_iff.mp h
  obtain ⟨vector', -, h⟩ := Option.bind_eq_some_iff.mp h
  obtain ⟨-, h⟩ := Option.ite_none_right_eq_some.mp h
  cases h
  have hall : ∀ c ∈ ciphers, 0 < c.2 / 4 ∧ c.2 = 4 * (c.2 / 4) := by decide
  exact ⟨size / 4, hall _ (mem_of_lookup hsize)⟩

/-- What a scheme in use takes its key from has a size, and so has its cipher. -/
def Scheme.IsSized : Scheme → Prop
  | retired => True
  | aesCbc d size _ => d.IsSized ∧ ∃ width, 0 < width ∧ size = 4 * width

theorem ensures_secondGeneration : secondGeneration.Ensures Scheme.IsSized := by
  refine Ensures.inside (.next fun a => .next fun b => ?_) Tag.sequence
  split
  · rename_i d size vector hd hc
    exact ensures_pure ⟨isSized_of_derivation? hd, columns_of_cipher? hc⟩
  · exact ensures_failure

theorem isSized_of_scheme? {a : AlgorithmIdentifier} {s : Scheme} (h : scheme? a = some s) :
    s.IsSized := by
  rw [scheme?] at h
  split at h
  · exact of_parametersOf ensures_secondGeneration h
  · split at h
    · refine of_parametersOf (P := Scheme.IsSized) (p := firstGenerationParser) ?_ h
      refine Ensures.inside (.next fun salt => .next fun _ => ?_) Tag.sequence
      split
      · exact ensures_pure trivial
      · exact ensures_failure
    · cases h

/-! ## There and back -/

def EncryptedPrivateKeyInfo.encode (a : AlgorithmIdentifier) (data : Bytes) : Bytes :=
  wrap Tag.sequence (a.encode ++ wrap Tag.octetString data)

theorem EncryptedPrivateKeyInfo.parser_encode {a : AlgorithmIdentifier} (ha : a.IsReadable)
    {s : Scheme} (hs : scheme? a = some s) {data : Bytes}
    (hlength : (encode a data).length < lengthLimit) :
    parser.whole (encode a data) = some ⟨s, data⟩ := by
  have hcontent := length_lt_of_wrap hlength
  have hdata : (wrap Tag.octetString data).length < lengthLimit := by
    rw [List.length_append] at hcontent
    exact Nat.lt_of_add_left_lt hcontent
  refine whole_eq_some.mpr ?_
  rw [encode, ← List.append_nil (wrap _ _)]
  refine inside_wrap (by decide) hcontent (whole_eq_some.mpr ?_) []
  refine bind_eq_some.mpr ⟨a, _, algorithmIdentifier_encode ha _, ?_⟩
  rw [hs]
  refine bind_eq_some.mpr ⟨data, [], ?_, rfl⟩
  rw [← List.append_nil (wrap _ _)]
  exact contentOf_wrap (by decide) (length_lt_of_wrap hdata) []

/-- What is encrypted with the key of a scheme in use comes back under the password. -/
theorem EncryptedPrivateKeyInfo.decrypt?_encrypt {a : AlgorithmIdentifier} {d : KeyDerivation}
    {size : Nat} {vector : Bytes} (hs : scheme? a = some (.aesCbc d size vector))
    {password key : Bytes} (hkey : d.derive? password size = some key) (b : Bytes) :
    decrypt? ⟨.aesCbc d size vector, Aes.Cbc.encrypt key vector b⟩ password = some b := by
  obtain ⟨hd, width, hpos, rfl⟩ := isSized_of_scheme? hs
  refine Option.bind_eq_some_iff.mpr ⟨key, hkey, ?_⟩
  exact Aes.Cbc.decrypt?_encrypt hpos (KeyDerivation.length_of_derive? hd hkey) vector b

end Pkcs8

end Strongbox
