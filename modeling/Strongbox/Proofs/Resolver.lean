/-
  Strongbox.Proofs.Resolver — what it takes for a key to be found.

  A key of a context is found exactly when the store gives it under the context's alias; nothing
  that a store answers otherwise counts as found. A certificate is found by thumbprint under the
  first alias of the listing that holds it, whatever else is stored under that alias.
  - `certificate_eq_found`, `privateKey_eq_found`, `secretKey_eq_found`: found in the store.
  - `byThumbprint_eq_found`: found by thumbprint.
-/

import Strongbox.Proofs.Outcome
import Strongbox.Resolver

namespace Strongbox

open Outcome

/-! ## Contexts of an alias -/

/-- An alias has a context unless it is blank, and the context names it without its blanks. -/
theorem CryptoContext.forAlias_eq_ok {a : String} {c : CryptoContext} :
    forAlias a = .ok c ↔
      Text.trim a ≠ "" ∧ c = { owner := ⟨Text.trim a⟩, keyAlias := some (Text.trim a) } := by
  constructor
  · intro h
    obtain ⟨owner, ho, h⟩ := bind_eq_ok.mp h
    obtain ⟨hn, rfl⟩ := ite_error_eq_ok.mp ho
    exact ⟨hn, (Except.ok.inj h).symm⟩
  · intro h
    obtain ⟨hn, rfl⟩ := h
    exact bind_eq_ok.mpr ⟨⟨Text.trim a⟩, ite_error_eq_ok.mpr ⟨hn, rfl⟩, rfl⟩

@[simp] theorem CryptoContext.forAlias_trim (a : String) : forAlias (Text.trim a) = forAlias a := by
  rw [forAlias, forAlias, OwnerId.make, OwnerId.make, Text.trim_trim]

namespace Resolver

theorem aliasFor_of_forAlias (r : Resolver) {a : String} {c : CryptoContext}
    (h : CryptoContext.forAlias a = .ok c) : r.aliasFor c = Text.trim a := by
  obtain ⟨-, rfl⟩ := CryptoContext.forAlias_eq_ok.mp h
  rfl

/-! ## Keys of a context -/

theorem lookupFailed_ne_found (r : Resolver) (a what : String) (e : StoreError) (v : α) :
    r.lookupFailed a what e ≠ .ok (.found v) := by
  cases e <;> exact nofun

theorem missing_ne_found (r : Resolver) (a : String) (reason : NotFoundReason) (v : α) :
    r.missing a reason ≠ .ok (.found v) := by
  unfold missing
  split
  · exact nofun
  · exact nofun
  · exact lookupFailed_ne_found r a _ _ v

/-- Nothing but a value of the store is found. -/
theorem ofLookup_eq_found (r : Resolver) (a what : String) (reason : NotFoundReason)
    {answer : Except StoreError (Option α)} {v : α} :
    r.ofLookup a what reason answer = .ok (.found v) ↔ answer = .ok (some v) := by
  constructor
  · intro h
    match answer with
    | .ok (some w) =>
      cases h
      rfl
    | .ok none => exact absurd h (missing_ne_found r a reason v)
    | .error e => exact absurd h (lookupFailed_ne_found r a what e v)
  · intro h
    subst h
    rfl

theorem certificate_eq_found {r : Resolver} {c : CryptoContext} {v : Certificate} :
    r.certificate c = .ok (.found v) ↔ r.store.certificate (r.aliasFor c) = .ok (some v) :=
  ofLookup_eq_found ..

theorem secretKey_eq_found {r : Resolver} {c : CryptoContext} {v : SecretKey} :
    r.secretKey c = .ok (.found v) ↔ r.store.secretKey (r.aliasFor c) = .ok (some v) :=
  ofLookup_eq_found ..

def ofKeyLookup (r : Resolver) (a : String) :
    Except StoreError (Option PrivateKey) → Except ServiceError (Resolution PrivateKey)
  | .error (.wrongPassword w) => .ok (.accessDenied a (StoreError.wrongPassword w).message)
  | answer => r.ofLookup a "private key" .noPrivateKey answer

theorem privateKey_eq (r : Resolver) (c : CryptoContext) :
    r.privateKey c = r.ofKeyLookup (r.aliasFor c)
      (r.store.privateKey (r.aliasFor c) (r.passwordFor (r.aliasFor c))) := rfl

theorem privateKey_eq_found {r : Resolver} {c : CryptoContext} {v : PrivateKey} :
    r.privateKey c = .ok (.found v) ↔
      r.store.privateKey (r.aliasFor c) (r.passwordFor (r.aliasFor c)) = .ok (some v) := by
  rw [privateKey_eq]
  unfold ofKeyLookup
  split
  · rename_i h
    rw [h]
    exact ⟨nofun, nofun⟩
  · exact ofLookup_eq_found ..

/-! ## Certificates by thumbprint -/

def HasCertificate (r : Resolver) (t : Thumbprint) (a : String) : Prop :=
  ∃ c, r.store.certificate a = .ok (some c) ∧ t.isOf c.encoding = true

/-- The first alias of the listing that holds a certificate of the thumbprint. -/
def FirstMatch (r : Resolver) (t : Thumbprint) (a : String) : Prop :=
  ∃ before after, r.store.aliases = .ok (before ++ a :: after) ∧ r.HasCertificate t a ∧
    ∀ b ∈ before, ¬ r.HasCertificate t b

def matchOf? (t : Thumbprint) (a : String) :
    Except StoreError (Option Certificate) → Option CertificateEntry
  | .ok (some c) => if t.isOf c.encoding then some ⟨a, c⟩ else none
  | _ => none

theorem matchAt?_eq (r : Resolver) (t : Thumbprint) (a : String) :
    r.matchAt? t a = matchOf? t a (r.store.certificate a) := rfl

theorem matchAt?_eq_some {r : Resolver} {t : Thumbprint} {a : String} {e : CertificateEntry} :
    r.matchAt? t a = some e ↔ e.keyAlias = a ∧
      r.store.certificate a = .ok (some e.certificate) ∧ t.isOf e.certificate.encoding = true := by
  obtain ⟨b, d⟩ := e
  unfold matchAt?
  split
  · rename_i c hc
    rw [hc]
    split
    · rename_i h
      constructor
      · intro he
        cases he
        exact ⟨rfl, rfl, h⟩
      · intro h
        obtain ⟨rfl, hd, -⟩ := h
        cases hd
        rfl
    · rename_i h
      refine ⟨nofun, ?_⟩
      intro h
      obtain ⟨-, hd, ht⟩ := h
      cases hd
      exact absurd ht h
  · rename_i hn
    exact ⟨nofun, fun h => absurd h.2.1 (hn _)⟩

theorem matchAt?_eq_none {r : Resolver} {t : Thumbprint} {a : String} :
    r.matchAt? t a = none ↔ ¬ r.HasCertificate t a := by
  rw [Option.eq_none_iff_forall_ne_some]
  constructor
  · rintro h ⟨c, hc⟩
    exact h ⟨a, c⟩ (matchAt?_eq_some.mpr ⟨rfl, hc⟩)
  · intro h e he
    obtain ⟨-, hc⟩ := matchAt?_eq_some.mp he
    exact h ⟨e.certificate, hc⟩

theorem byThumbprint_eq_found_iff_findSome? {r : Resolver} {t : Thumbprint}
    {e : CertificateEntry} :
    r.byThumbprint t = .ok (.found e) ↔
      ∃ aliases, r.store.aliases = .ok aliases ∧ aliases.findSome? (r.matchAt? t) = some e := by
  unfold byThumbprint
  split
  · rename_i err h
    rw [h]
    exact ⟨nofun, fun ⟨_, hl, _⟩ => nomatch hl⟩
  · rename_i aliases h
    rw [h]
    split
    · rename_i entry hf
      constructor
      · intro he
        cases he
        exact ⟨aliases, rfl, hf⟩
      · intro h
        obtain ⟨_, hl, he⟩ := h
        cases hl
        rw [hf] at he
        cases he
        rfl
    · rename_i hf
      refine ⟨nofun, ?_⟩
      intro h
      obtain ⟨_, hl, he⟩ := h
      cases hl
      rw [hf] at he
      cases he

/-- A certificate is found by thumbprint exactly under the first alias that holds it. -/
theorem byThumbprint_eq_found {r : Resolver} {t : Thumbprint} {e : CertificateEntry} :
    r.byThumbprint t = .ok (.found e) ↔ r.FirstMatch t e.keyAlias ∧
      r.store.certificate e.keyAlias = .ok (some e.certificate) := by
  rw [byThumbprint_eq_found_iff_findSome?]
  constructor
  · intro h
    obtain ⟨aliases, hl, hf⟩ := h
    obtain ⟨before, a, after, rfl, ha, hb⟩ := List.findSome?_eq_some_iff.mp hf
    obtain ⟨rfl, hc, ht⟩ := matchAt?_eq_some.mp ha
    exact ⟨⟨before, after, hl, ⟨_, hc, ht⟩, fun b hm => matchAt?_eq_none.mp (hb b hm)⟩, hc⟩
  · intro h
    obtain ⟨⟨before, after, hl, ⟨c, hc, ht⟩, hb⟩, he⟩ := h
    rw [hc] at he
    cases he
    exact ⟨_, hl, List.findSome?_eq_some_iff.mpr ⟨before, e.keyAlias, after, rfl,
      matchAt?_eq_some.mpr ⟨rfl, hc, ht⟩, fun b hm => matchAt?_eq_none.mpr (hb b hm)⟩⟩

theorem FirstMatch.unique {r : Resolver} {t : Thumbprint} {a b : String} (ha : r.FirstMatch t a)
    (hb : r.FirstMatch t b) : a = b := by
  obtain ⟨_, _, _, ⟨c, hc, _⟩, _⟩ := id ha
  obtain ⟨_, _, _, ⟨d, hd, _⟩, _⟩ := id hb
  have h : r.byThumbprint t = .ok (.found ⟨a, c⟩) := byThumbprint_eq_found.mpr ⟨ha, hc⟩
  have h' : r.byThumbprint t = .ok (.found ⟨b, d⟩) := byThumbprint_eq_found.mpr ⟨hb, hd⟩
  rw [h] at h'
  cases h'
  rfl

/-- The only alias that holds a certificate of the thumbprint is the first one. -/
theorem firstMatch_of_only {r : Resolver} {t : Thumbprint} {a : String} {aliases : List String}
    (hl : r.store.aliases = .ok aliases) (ha : a ∈ aliases) (hm : r.HasCertificate t a)
    (ho : ∀ b ∈ aliases, r.HasCertificate t b → b = a) : r.FirstMatch t a := by
  obtain ⟨before, after, rfl, hn⟩ := List.eq_append_cons_of_mem ha
  refine ⟨before, after, hl, hm, fun b hb hc => ?_⟩
  have := ho b (List.mem_append_left _ hb) hc
  exact hn (this ▸ hb)

end Resolver

end Strongbox
