/-
  Strongbox.Proofs.KeyStore.SecondLookup — from a certificate that was found back to its entry.

  A search by thumbprint names the alias of what it found, and whoever wants the key that goes with
  the certificate makes a context of the alias. The context drops the blanks around it. An alias of
  a directory has none, so its context leads back to the entry. A store in memory takes any text,
  and the context of a padded alias leads to another entry or to none, that of a blank one is
  refused.
  - `ShippedStore.leadsBack_iff_unpadded`: when the context leads back, and where it leads otherwise.
  - `a_padded_alias_is_not_found_again`: a certificate whose context has none.
-/

import Strongbox.Proofs.KeyStore.Search

namespace Strongbox

/-- The alias of the entry has a context, and by it the entry is found: the context is one of the
same alias, and the certificate under it is the entry's. -/
def Resolver.LeadsBack (r : Resolver) (e : CertificateEntry) : Prop :=
  ∃ c, CryptoContext.forAlias e.keyAlias = .ok c ∧ r.aliasFor c = e.keyAlias ∧
    r.certificate c = .ok (.found e.certificate)

def Text.Unpadded (s : String) : Prop := s ≠ "" ∧ trim s = s

theorem DirectoryStore.unpadded_of_isAlias {a : String} (h : isAlias a = true) :
    Text.Unpadded a :=
  ⟨(isAlias_iff.mp h).1, trim_of_isAlias h⟩

theorem CryptoContext.forAlias_of_blank {a : String} (h : Text.trim a = "") :
    forAlias a = .error (.validation "owner identifier must not be blank") := by
  rw [forAlias, OwnerId.make, if_pos h]
  rfl

namespace Resolver

variable {r : Resolver} {e : CertificateEntry}

/-- The certificate is the one that the store has under the alias. -/
theorem certificate_of_byThumbprint {t : Thumbprint} (h : r.byThumbprint t = .ok (.found e)) :
    r.store.certificate e.keyAlias = .ok (some e.certificate) :=
  (byThumbprint_eq_found.mp h).2

/-- What the store has is found again by its alias exactly where there is nothing to trim. -/
theorem leadsBack_iff (h : r.store.certificate e.keyAlias = .ok (some e.certificate)) :
    r.LeadsBack e ↔ Text.Unpadded e.keyAlias := by
  constructor
  · rintro ⟨c, hc, ha, -⟩
    have htrim : Text.trim e.keyAlias = e.keyAlias := (r.aliasFor_of_forAlias hc).symm.trans ha
    exact ⟨htrim ▸ (CryptoContext.forAlias_eq_ok.mp hc).1, htrim⟩
  · rintro ⟨hne, htrim⟩
    have hc := CryptoContext.forAlias_eq_ok.mpr ⟨htrim.symm ▸ hne, rfl⟩
    have ha := (r.aliasFor_of_forAlias hc).trans htrim
    exact ⟨_, hc, ha, certificate_eq_found.mpr (ha.symm ▸ h)⟩

end Resolver

namespace ShippedStore

variable {s : ShippedStore} {r : Resolver} {t : Thumbprint} {e : CertificateEntry}

structure SecondLookup (s : ShippedStore) (r : Resolver) (e : CertificateEntry) : Prop where
  /-- It leads back exactly where there is nothing to trim. -/
  leadsBack_iff : (r.over s.view).LeadsBack e ↔ Text.Unpadded e.keyAlias
  /-- In a directory it always leads back. -/
  directory : ∀ files d, s = .directory files d → (r.over s.view).LeadsBack e
  /-- A blank alias is refused. -/
  blank : Text.trim e.keyAlias = "" →
    CryptoContext.forAlias e.keyAlias = .error (.validation "owner identifier must not be blank")
  /-- Any other alias is looked up without the blanks around it, whatever is asked for. -/
  trimmed : ∀ c, CryptoContext.forAlias e.keyAlias = .ok c →
    (r.over s.view).aliasFor c = Text.trim e.keyAlias

/-- The context of an alias that a search found is one of the same entry exactly when the alias has
no blanks around it, as those of a directory have not. Otherwise it is one of the trimmed alias. -/
theorem leadsBack_iff_unpadded (h : (r.over s.view).byThumbprint t = .ok (.found e)) :
    s.SecondLookup r e := by
  have hc : s.view.certificate e.keyAlias = .ok (some e.certificate) :=
    Resolver.certificate_of_byThumbprint h
  have hback := Resolver.leadsBack_iff (r := r.over s.view) hc
  constructor
  case leadsBack_iff => exact hback
  case directory =>
    rintro files d rfl
    exact hback.mpr (DirectoryStore.unpadded_of_isAlias (DirectoryStore.isAlias_of_lookup hc))
  case blank => exact CryptoContext.forAlias_of_blank
  case trimmed => exact fun c => (r.over s.view).aliasFor_of_forAlias

theorem leadsBack_iff_unpadded_twoCopies :
    (tenantResolver.over (memory twoCopies).view).byThumbprint
        (Primitives.sampleCertificate.thumbprint .sha1) =
      .ok (.found ⟨"tenant", Primitives.sampleCertificate⟩) ∧
    (tenantResolver.over (memory twoCopies).view).LeadsBack
      ⟨"tenant", Primitives.sampleCertificate⟩ := by
  have h : (tenantResolver.over (memory twoCopies).view).byThumbprint
      (Primitives.sampleCertificate.thumbprint .sha1) =
        .ok (.found ⟨"tenant", Primitives.sampleCertificate⟩) :=
    Resolver.byThumbprint_eq_found.mpr ⟨⟨[], ["z"], by decide,
      ⟨Primitives.sampleCertificate, rfl, beq_self_eq_true _⟩, nofun⟩, rfl⟩
  exact ⟨h, (leadsBack_iff_unpadded h).leadsBack_iff.mpr ⟨by decide, by decide⟩⟩

def padded : MemoryStore :=
  (MemoryStore.empty.putCertificate " tenant" Primitives.sampleCertificate).putPrivateKey " tenant"
    (.rsa .ofMersenne) []

/-- The search finds the certificate, but the context of its alias has neither the certificate nor
the private key that are stored under the alias. -/
theorem a_padded_alias_is_not_found_again :
    (tenantResolver.over padded.view).byThumbprint
        (Primitives.sampleCertificate.thumbprint .sha1) =
      .ok (.found ⟨" tenant", Primitives.sampleCertificate⟩) ∧
    padded.view.privateKey " tenant" [] = .ok (some (.rsa .ofMersenne)) ∧
    ∃ c, CryptoContext.forAlias " tenant" = .ok c ∧
      (tenantResolver.over padded.view).certificate c = .ok (.notFound "tenant" .missingAlias) ∧
      (tenantResolver.over padded.view).privateKey c = .ok (.notFound "tenant" .missingAlias) := by
  refine ⟨?_, rfl, _, CryptoContext.forAlias_eq_ok.mpr ⟨by decide, rfl⟩, rfl, rfl⟩
  exact Resolver.byThumbprint_eq_found.mpr ⟨⟨[], [], rfl,
    ⟨Primitives.sampleCertificate, rfl, beq_self_eq_true _⟩, nofun⟩, rfl⟩

end ShippedStore

end Strongbox
