/-
  Strongbox.Proofs.Config.DefaultKey — the default key of a configured service, and the key it
  encrypts internal data with.

  Both are given by one setting. The resolver takes the setting as it is written, the key store
  provider without the blanks around it. The store in the configured directory has no entry under
  an alias with blanks, so blanks around the setting leave the service without a default key,
  while its internal encryption goes on with the alias inside them.
  - `exists_internalKey`: which alias is used where.
  - `defaultKey_eq_internalKey_iff`: the two keys agree exactly when nothing is to be trimmed.
  - `a_padded_alias_splits_the_default_key`: an accepted configuration where they do not.
-/

import Strongbox.Config.Environment
import Strongbox.Proofs.InternalProvider
import Strongbox.Proofs.KeyStore.Directory

namespace Strongbox

open Outcome

namespace Resolver

/-! ## What is not found -/

theorem lookupFailed_notFound {r : Resolver} {a b what : String} {e : StoreError}
    {reason : NotFoundReason}
    (h : (r.lookupFailed a what e : Except _ (Resolution α)) = .ok (.notFound b reason)) :
    b = a := by
  cases e with
  | invalidAlias _ =>
    cases h
    rfl
  | _ => cases h

theorem missing_notFound {r : Resolver} {a b : String} {reason reason' : NotFoundReason}
    (h : (r.missing a reason : Except _ (Resolution α)) = .ok (.notFound b reason')) : b = a := by
  unfold missing at h
  split at h
  · cases h
    rfl
  · cases h
    rfl
  · exact lookupFailed_notFound h

theorem ofLookup_notFound {r : Resolver} {a b what : String} {reason reason' : NotFoundReason}
    {answer : Except StoreError (Option α)}
    (h : r.ofLookup a what reason answer = .ok (.notFound b reason')) : b = a := by
  match answer with
  | .ok (some v) => cases h
  | .ok none => exact missing_notFound h
  | .error e => exact lookupFailed_notFound h

/-- A certificate that is not found is reported under the alias of the context. -/
theorem certificate_notFound {r : Resolver} {c : CryptoContext} {b : String}
    {reason : NotFoundReason} (h : r.certificate c = .ok (.notFound b reason)) :
    b = r.aliasFor c := ofLookup_notFound h

theorem privateKey_notFound {r : Resolver} {c : CryptoContext} {b : String}
    {reason : NotFoundReason} (h : r.privateKey c = .ok (.notFound b reason)) :
    b = r.aliasFor c := by
  rw [privateKey] at h
  split at h
  · cases h
  · exact ofLookup_notFound h

/-! ## An alias that no directory has -/

section Refused

variable {files : FileTree} {d : DirectoryStore} {r : Resolver} {c : CryptoContext}

/-- An alias that no file can belong to is one without an entry. -/
theorem certificate_of_not_isAlias (hr : r.store = d.view files)
    (h : DirectoryStore.isAlias (r.aliasFor c) = false) :
    r.certificate c = .ok (.notFound (r.aliasFor c) .missingAlias) := by
  have hc : r.store.certificate (r.aliasFor c) = .error (.invalidAlias (r.aliasFor c)) := by
    rw [hr]
    exact DirectoryStore.lookup_of_not_isAlias h
  rw [certificate, hc]
  rfl

theorem privateKey_of_not_isAlias (hr : r.store = d.view files)
    (h : DirectoryStore.isAlias (r.aliasFor c) = false) :
    r.privateKey c = .ok (.notFound (r.aliasFor c) .missingAlias) := by
  have hk : r.store.privateKey (r.aliasFor c) (r.passwordFor (r.aliasFor c)) =
      .error (.invalidAlias (r.aliasFor c)) := by
    rw [hr]
    exact DirectoryStore.lookup_of_not_isAlias h
  rw [privateKey, hk]
  rfl

/-- In a directory, what is resolved under an alias is what is resolved under the alias without
the blanks around it exactly when there are none. -/
theorem certificate_eq_iff_trim (hr : r.store = d.view files) {c' : CryptoContext}
    (h : r.aliasFor c' = Text.trim (r.aliasFor c)) :
    r.certificate c = r.certificate c' ↔ Text.trim (r.aliasFor c) = r.aliasFor c := by
  constructor
  · intro he
    by_contra hne
    rw [certificate_of_not_isAlias hr (DirectoryStore.not_isAlias_of_trim_ne hne)] at he
    exact hne (h.symm.trans (certificate_notFound he.symm).symm)
  · intro ht
    rw [certificate, certificate, h, ht]

theorem privateKey_eq_iff_trim (hr : r.store = d.view files) {c' : CryptoContext}
    (h : r.aliasFor c' = Text.trim (r.aliasFor c)) :
    r.privateKey c = r.privateKey c' ↔ Text.trim (r.aliasFor c) = r.aliasFor c := by
  constructor
  · intro he
    by_contra hne
    rw [privateKey_of_not_isAlias hr (DirectoryStore.not_isAlias_of_trim_ne hne)] at he
    exact hne (h.symm.trans (privateKey_notFound he.symm).symm)
  · intro ht
    rw [privateKey, privateKey, h, ht]

end Refused

end Resolver

/-! ## The configured service -/

namespace Config

variable {c : Config} {files : FileTree} {s : Service}

theorem service_eq_ok :
    c.service files = .ok s ↔ ∃ d, DirectoryStore.ofRoot files c.keyStoreDirectory = .ok d ∧
      c.serviceOver (d.view files) = .ok s := by
  unfold service store
  cases DirectoryStore.ofRoot files c.keyStoreDirectory with
  | error e => simp [bind, Except.bind]
  | ok d =>
    cases hs : c.serviceOver (d.view files) with
    | error e => simp [bind, Except.bind, hs, throw, throwThe, MonadExceptOf.throw]
    | ok s' => simp [bind, Except.bind, hs, pure, Except.pure]

theorem exists_of_symmetricProvider {r : Resolver} {p : InternalProvider}
    (h : c.symmetricProvider r = .ok (some p)) : ∃ k, p = SymmetricProvider.view k := by
  unfold symmetricProvider at h
  split at h
  · cases h
  · rename_i a ha
    cases hk : InternalKey.ofAlias r a with
    | error e =>
      rw [hk] at h
      cases h
    | ok k =>
      rw [hk] at h
      cases h
      exact ⟨k, rfl⟩

/-- The service keeps the resolver of the settings, and its key store provider has the key of the
configured alias. -/
theorem exists_key_of_serviceOver {store : KeyStore} (h : c.serviceOver store = .ok s) :
    s.resolver = c.resolverOver store ∧ ∃ k,
      InternalKey.ofAlias (c.resolverOver store) c.keyAlias = .ok k ∧
        s.providers.get? KeyStoreProvider.type = some (KeyStoreProvider.view k) := by
  obtain ⟨k, hk, h⟩ := bind_eq_ok.mp h
  obtain ⟨symmetric, hsym, h⟩ := bind_eq_ok.mp h
  obtain ⟨-, rfl⟩ := ite_ok_eq_ok.mp h
  cases symmetric with
  | none => exact ⟨rfl, k, hk, Table.get?_insert _ _ _ _⟩
  | some p =>
    obtain ⟨_, rfl⟩ := exists_of_symmetricProvider hsym
    have hne : KeyStoreProvider.type ≠ SymmetricProvider.type := by decide
    exact ⟨rfl, k, hk, ((Table.get?_insert _ _ _ _).trans (if_neg hne)).trans
      (Table.get?_insert _ _ _ _)⟩

/-- Internal data are encrypted under the configured alias without the blanks around it, and a
context that names no alias, of an owner without one, has the alias as it is configured. -/
theorem exists_internalKey (h : c.service files = .ok s) {ctx : CryptoContext}
    (ha : ctx.keyAlias = none) (ho : c.ownerAliases.get? ctx.owner.value = none) :
    ∃ (d : DirectoryStore) (k : InternalKey), s.resolver.store = d.view files ∧
      s.providers.get? KeyStoreProvider.type = some (KeyStoreProvider.view k) ∧
      k.resolver = s.resolver ∧ s.resolver.aliasFor ctx = c.keyAlias ∧
      s.resolver.aliasFor k.context = Text.trim c.keyAlias := by
  obtain ⟨d, -, hs⟩ := service_eq_ok.mp h
  obtain ⟨hr, k, hk, hget⟩ := exists_key_of_serviceOver hs
  obtain ⟨internal, hc, rfl⟩ := KeyStoreProvider.exists_of_ofAlias hk
  refine ⟨d, _, by rw [hr]; rfl, hget, hr.symm, ?_, Resolver.aliasFor_of_forAlias _ hc⟩
  simp [hr, Resolver.aliasFor, resolverOver, ha, ho]

/-- The default key of a configured service is the one it encrypts internal data with exactly
when the configured alias has no blanks around it; otherwise neither the aliases nor what is
resolved under them agree. -/
theorem defaultKey_eq_internalKey_iff (h : c.service files = .ok s) {ctx : CryptoContext}
    (ha : ctx.keyAlias = none) (ho : c.ownerAliases.get? ctx.owner.value = none) :
    ∃ k : InternalKey, s.providers.get? KeyStoreProvider.type = some (KeyStoreProvider.view k) ∧
      k.resolver = s.resolver ∧
      (s.resolver.aliasFor ctx = k.resolver.aliasFor k.context ↔
        Text.trim c.keyAlias = c.keyAlias) ∧
      (s.resolver.certificate ctx = k.resolver.certificate k.context ↔
        Text.trim c.keyAlias = c.keyAlias) ∧
      (s.resolver.privateKey ctx = k.resolver.privateKey k.context ↔
        Text.trim c.keyAlias = c.keyAlias) := by
  obtain ⟨d, k, hstore, hget, hk, hdefault, hinternal⟩ := exists_internalKey h ha ho
  have htrim : s.resolver.aliasFor k.context = Text.trim (s.resolver.aliasFor ctx) := by
    rw [hinternal, hdefault]
  refine ⟨k, hget, hk, ?_, ?_, ?_⟩
  · rw [hk, hdefault, hinternal, eq_comm]
  · rw [hk, Resolver.certificate_eq_iff_trim hstore htrim, hdefault]
  · rw [hk, Resolver.privateKey_eq_iff_trim hstore htrim, hdefault]

def variablesWith (keyAlias : String) : String → Option String
  | "CSP_KEYSTORE_DIR" => some "ks"
  | "CSP_KEY_ALIAS" => some keyAlias
  | "CSP_KEY_PASSWORD" => some "secret"
  | _ => none

theorem defaultKey_eq_internalKey_unpadded :
    ∃ c s k, ofLookup (variablesWith "tenant") = .ok c ∧
      c.service DirectoryStore.emptyKeyStore = .ok s ∧
      s.providers.get? KeyStoreProvider.type = some (KeyStoreProvider.view k) ∧
      s.resolver.privateKey (.ofOwner ⟨"anyone"⟩) = k.resolver.privateKey k.context := by
  obtain ⟨c, hc, ha, ho⟩ : ∃ c, ofLookup (variablesWith "tenant") = .ok c ∧
      c.keyAlias = "tenant" ∧ c.ownerAliases.get? "anyone" = none := ⟨_, rfl, rfl, rfl⟩
  obtain ⟨s, hs⟩ : ∃ s, c.service DirectoryStore.emptyKeyStore = .ok s := by
    cases hc
    exact ⟨_, service_eq_ok.mpr ⟨⟨"ks"⟩, DirectoryStore.ofRoot_emptyKeyStore, rfl⟩⟩
  obtain ⟨k, hget, -, -, -, hk⟩ :=
    defaultKey_eq_internalKey_iff hs (rfl : (CryptoContext.ofOwner ⟨"anyone"⟩).keyAlias = none) ho
  exact ⟨c, s, k, hc, hs, hget, hk.mpr (by rw [ha]; rfl)⟩

/-- Blanks around the alias are accepted, and then the service looks for its default key under
another alias than it encrypts internal data with. -/
theorem a_padded_alias_splits_the_default_key :
    ∃ c s k, ofLookup (variablesWith " tenant") = .ok c ∧
      c.service DirectoryStore.emptyKeyStore = .ok s ∧
      s.providers.get? KeyStoreProvider.type = some (KeyStoreProvider.view k) ∧
      s.resolver.aliasFor (.ofOwner ⟨"anyone"⟩) = " tenant" ∧
      k.resolver.aliasFor k.context = "tenant" ∧
      s.resolver.certificate (.ofOwner ⟨"anyone"⟩) ≠ k.resolver.certificate k.context ∧
      s.resolver.privateKey (.ofOwner ⟨"anyone"⟩) ≠ k.resolver.privateKey k.context := by
  obtain ⟨c, hc, ha, ho⟩ : ∃ c, ofLookup (variablesWith " tenant") = .ok c ∧
      c.keyAlias = " tenant" ∧ c.ownerAliases.get? "anyone" = none := ⟨_, rfl, rfl, rfl⟩
  obtain ⟨s, hs⟩ : ∃ s, c.service DirectoryStore.emptyKeyStore = .ok s := by
    cases hc
    exact ⟨_, service_eq_ok.mpr ⟨⟨"ks"⟩, DirectoryStore.ofRoot_emptyKeyStore, rfl⟩⟩
  obtain ⟨d, k, hstore, hget, hk, hdefault, hinternal⟩ :=
    exists_internalKey hs (rfl : (CryptoContext.ofOwner ⟨"anyone"⟩).keyAlias = none) ho
  have hne : Text.trim " tenant" ≠ " tenant" := by decide
  rw [ha] at hdefault hinternal
  have htrim : s.resolver.aliasFor k.context =
      Text.trim (s.resolver.aliasFor (.ofOwner ⟨"anyone"⟩)) := by rw [hinternal, hdefault]
  refine ⟨c, s, k, hc, hs, hget, hdefault, by rw [hk, hinternal]; rfl, ?_, ?_⟩
  · rw [hk, Ne, Resolver.certificate_eq_iff_trim hstore htrim, hdefault]
    exact hne
  · rw [hk, Ne, Resolver.privateKey_eq_iff_trim hstore htrim, hdefault]
    exact hne

end Config

end Strongbox
