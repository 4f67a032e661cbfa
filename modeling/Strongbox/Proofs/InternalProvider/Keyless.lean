/-
  Strongbox.Proofs.InternalProvider.Keyless — what is opened without a key.

  A thumbprint leads to a certificate, which anybody may hold; only the key that goes with it makes
  its holder the receiver. An envelope with a ciphertext is opened with that key and not otherwise.
  An empty ciphertext is answered before the key is looked for, so an outsider's envelope to a
  third party's certificate is opened by a store that has the certificate only.
  - `opensWithoutKey_iff`: exactly when an envelope is opened although the key is not there.
-/

import Strongbox.Proofs.InternalProvider

namespace Strongbox.KeyStoreProvider

/-- The resolver gives the key that the specification needs under the alias: the secret key of a
symmetric transformation, else the private key. -/
def HasKey (r : Resolver) (a : String) (s : AlgorithmSpec) : Prop :=
  ∃ c, CryptoContext.forAlias a = .ok c ∧
    if isSymmetric s then ∃ key, r.secretKey c = .ok (.found key)
    else ∃ key, r.privateKey c = .ok (.found key)

/-- The octets are opened to the text, and the alias that the thumbprint leads to has no key for
the recorded transformation. -/
def OpensWithoutKey (k : InternalKey) (data : Bytes) (s : AlgorithmSpec) (text : Bytes) : Prop :=
  decryptSelfContained k data s = .ok text ∧ ∃ e a, Envelope.decode data = .ok e ∧
    k.resolver.FirstMatch e.thumbprint a ∧ ¬ HasKey k.resolver a (recorded e s)

theorem Opens.hasKey {r : Resolver} {e : Envelope} {s : AlgorithmSpec} {a : String} {text : Bytes}
    (h : Opens r e s a text) : HasKey r a (recorded e s) := by
  obtain ⟨c, m, hc, hm, -⟩ := h
  refine ⟨c, hc, ?_⟩
  cases hs : isSymmetric (recorded e s) with
  | true =>
    rw [decryptionKey, hs, if_pos rfl] at hm
    obtain ⟨key, hkey, -⟩ := secretKey_eq_ok.mp hm
    rw [if_pos rfl]
    exact ⟨key, Resolver.secretKey_eq_found.mpr hkey⟩
  | false =>
    obtain ⟨key, hkey, -⟩ := (decryptionKey_eq_ok_of_asymmetric hs).mp hm
    rw [if_neg Bool.false_ne_true]
    exact ⟨key, hkey⟩

/-- An envelope is opened without a key exactly when its ciphertext is empty and its thumbprint
leads to an alias that has none, and then the text is empty too. -/
theorem opensWithoutKey_iff {k : InternalKey} {data : Bytes} {s : AlgorithmSpec} {text : Bytes} :
    OpensWithoutKey k data s text ↔ text = [] ∧ ∃ e a, Envelope.decode data = .ok e ∧
      e.ciphertext = [] ∧ k.resolver.FirstMatch e.thumbprint a ∧
        ¬ HasKey k.resolver a (recorded e s) := by
  constructor
  · intro h
    obtain ⟨hopen, e, a, hd, hf, hn⟩ := h
    obtain ⟨b, hb, ⟨h0, rfl⟩ | ⟨-, ho⟩⟩ := (decryptSelfContained_eq_ok hd).mp hopen
    · exact ⟨rfl, e, a, hd, h0, hf, hn⟩
    · cases hf.unique hb
      exact absurd ho.hasKey hn
  · intro h
    obtain ⟨rfl, e, a, hd, h0, hf, hn⟩ := h
    exact ⟨(decryptSelfContained_eq_ok hd).mpr ⟨a, hf, .inl ⟨h0, rfl⟩⟩, e, a, hd, hf, hn⟩

/-- An envelope without a ciphertext, which anybody can write to a certificate. -/
def emptyEnvelope : Envelope := ⟨[], "RSA", Primitives.sampleCertificate.thumbprint .sha1⟩

/-- A store with nothing but the certificate of a third party opens an empty envelope to it. -/
theorem an_empty_envelope_needs_no_key :
    writer.store.aliases = .ok ["tenant"] ∧
      (∀ a password, writer.store.privateKey a password = .ok none) ∧
      (∀ a, writer.store.secretKey a = .ok none) ∧
      OpensWithoutKey ⟨writer, tenant⟩ emptyEnvelope.encode {} [] := by
  have hentry (a : String) :
      (MemoryStore.empty.putCertificate "tenant" Primitives.sampleCertificate).entries.get? a =
        if a = "tenant" then some { certificate := some Primitives.sampleCertificate } else none :=
    Table.get?_insert _ _ _ _
  have hprivate (a : String) (password : Bytes) :
      writer.store.privateKey a password = .ok none := by
    show MemoryStore.openKey _ a password = _
    rw [MemoryStore.openKey, hentry]
    by_cases ha : a = "tenant"
    · rw [if_pos ha]
      rfl
    · rw [if_neg ha]
      rfl
  have hsecret (a : String) : writer.store.secretKey a = .ok none := by
    show Except.ok ((Table.get? _ a).bind _) = _
    rw [hentry]
    split <;> rfl
  refine ⟨rfl, hprivate, hsecret, opensWithoutKey_iff.mpr
    ⟨rfl, emptyEnvelope, "tenant", Envelope.decode_encode_thumbprint _ _ _ _, rfl, ?_, ?_⟩⟩
  · exact ⟨[], [], rfl, ⟨Primitives.sampleCertificate, rfl, isOf_thumbprint _ _⟩, nofun⟩
  · intro h
    obtain ⟨c, -, h⟩ := h
    have hs : isSymmetric (recorded emptyEnvelope {}) = false :=
      isSymmetric_of_transformation (t := .rsaPkcs1) (Transformation.parse_of_toList rfl)
    rw [hs, if_neg Bool.false_ne_true] at h
    obtain ⟨key, hkey⟩ := h
    rw [Resolver.privateKey_eq_found, hprivate] at hkey
    cases hkey

end Strongbox.KeyStoreProvider
