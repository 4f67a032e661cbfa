/-
  Strongbox.Proofs.Config.Providers — the internal providers of a configured service, and that the
  service decrypts with them what it encrypted.

  The key store provider takes the configured alias without the blanks around it, and the symmetric
  one is there if its alias is set.
  - `provides_of_serviceOver`: there are no other providers.
  - `decrypt_encrypt_own`: what a configured service encrypts for itself it decrypts.
-/

import Strongbox.Proofs.Config.DefaultKey
import Strongbox.Proofs.Service.OwnKeys

namespace Strongbox

open Outcome

namespace Config

variable {c : Config} {store : KeyStore} {s : Service}

/-- The providers that the settings describe, under their types. -/
inductive Provides (c : Config) (store : KeyStore) : String → ShippedProvider → Prop where
  | keyStore {k : InternalKey} (hk : InternalKey.ofAlias (c.resolverOver store) c.keyAlias = .ok k) :
      Provides c store KeyStoreProvider.type (.keyStore k)
  | symmetric (k : InternalKey) : Provides c store SymmetricProvider.type (.symmetric k)

/-- A configured service uses no other providers. -/
theorem provides_of_serviceOver (h : c.serviceOver store = .ok s) {type : String}
    {p : InternalProvider} (hp : s.providers.get? type = some p) :
    ∃ q : ShippedProvider, p = q.view ∧ c.Provides store type q := by
  obtain ⟨k, hk, h⟩ := bind_eq_ok.mp h
  obtain ⟨symmetric, hsym, h⟩ := bind_eq_ok.mp h
  obtain ⟨-, rfl⟩ := ite_ok_eq_ok.mp h
  have hown {t : Table InternalProvider}
      (ht : (t.insert KeyStoreProvider.type (KeyStoreProvider.view k)).get? type = some p)
      (hnone : t.get? type = none) :
      ∃ q : ShippedProvider, p = q.view ∧ c.Provides store type q := by
    rw [Table.get?_insert] at ht
    split at ht
    · rename_i htype
      cases ht
      exact ⟨.keyStore k, rfl, htype ▸ .keyStore hk⟩
    · rw [hnone] at ht
      cases ht
  cases symmetric with
  | none => exact hown hp rfl
  | some p' =>
    obtain ⟨k', rfl⟩ := exists_of_symmetricProvider hsym
    have hp' := (Table.get?_insert _ _ _ _).symm.trans hp
    split at hp'
    · rename_i htype
      cases hp'
      exact ⟨.symmetric k', rfl, htype ▸ .symmetric k'⟩
    · exact hown hp' rfl

/-- What a configured service encrypts for itself it decrypts, asked in the same words, when the
configured alias holds a pair of keys, and holds its certificate alone if the ciphertext says how
it is opened. -/
theorem decrypt_encrypt_own (h : c.serviceOver store = .ok s)
    (hlisted : ∀ a d, store.certificate a = .ok (some d) →
      ∃ aliases, store.aliases = .ok aliases ∧ a ∈ aliases) {d : OperationDescriptor}
    (hpair : d.internalProvider.getD s.defaultProvider = KeyStoreProvider.type →
      KeyStoreProvider.isSymmetric d.spec = false →
        s.resolver.HoldsPair (Text.trim c.keyAlias))
    (halone : d.selfContained = true → s.resolver.HoldsAlone (Text.trim c.keyAlias))
    {random : Random} {text sealed : Bytes} (henc : s.encrypt random text d = .ok sealed) :
    s.decrypt sealed d = .ok text := by
  obtain ⟨p, hp, henc⟩ := bind_eq_ok.mp henc
  rw [Service.provider_eq_ok] at hp
  obtain ⟨q, rfl, hq⟩ := provides_of_serviceOver h hp
  refine bind_eq_ok.mpr ⟨q.view, Service.provider_eq_ok.mpr hp, ?_⟩
  obtain ⟨hresolver, -⟩ := exists_key_of_serviceOver h
  generalize d.internalProvider.getD s.defaultProvider = type at hq hpair
  cases hself : d.selfContained with
  | false =>
    rw [hself] at henc
    refine ShippedProvider.decrypt_own ?_ henc
    cases hq with
    | symmetric k => trivial
    | @keyStore k hk =>
      intro hasymmetric
      obtain ⟨context, hcontext, rfl⟩ := KeyStoreProvider.exists_of_ofAlias hk
      rw [InternalKey.isPaired_iff, Resolver.aliasFor_of_forAlias _ hcontext, ← hresolver]
      exact hpair rfl hasymmetric
  | true =>
    rw [hself] at henc
    cases hq with
    | symmetric k => cases henc
    | @keyStore k hk =>
      obtain ⟨context, hcontext, rfl⟩ := KeyStoreProvider.exists_of_ofAlias hk
      rw [hresolver] at hpair halone
      exact KeyStoreProvider.decryptSelfContained_own hcontext (hpair rfl) (halone hself)
        (fun d hd => hlisted _ d hd) henc

end Config

end Strongbox
