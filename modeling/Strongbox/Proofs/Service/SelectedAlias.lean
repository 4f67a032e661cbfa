/-
  Strongbox.Proofs.Service.SelectedAlias — a context is the alias that it selects.

  An operation on data of a context asks the resolver for a certificate or for a private key. The
  resolver turns the context into an alias before anything else, and then asks the store for what
  is under that alias, for a private key with the password of that alias. The owner, the use of
  the key and the way the alias was found play no role after that, nor in what a failure says.
  - `Resolver.answersAs_of_agreesAt`: what a resolver reads to answer for a context.
  - `Service.actsAs_of_answersAs`: a service acts by what its resolver answers.
  - `Service.actsAs_of_aliasFor`: contexts that select one alias are served alike.
-/

import Strongbox.Proofs.InternalProvider
import Strongbox.Proofs.Service.Signatures

namespace Strongbox

open Outcome

/-- The stores answer alike for an alias, and for its private key under one password. -/
structure KeyStore.AgreesAt (store store' : KeyStore) (a : String) (password : Bytes) : Prop where
  name : store.name = store'.name
  certificate : store.certificate a = store'.certificate a
  privateKey : store.privateKey a password = store'.privateKey a password
  contains : store.contains a = store'.contains a

theorem KeyStore.AgreesAt.refl (store : KeyStore) (a : String) (password : Bytes) :
    store.AgreesAt store a password := ⟨rfl, rfl, rfl, rfl⟩

/-! ## What a resolver reads -/

namespace Resolver

/-- The password for the private key under an alias is the one registered for the alias, else the
default one. -/
def HasPassword (r : Resolver) (a password : String) : Prop :=
  r.keyPasswords.get? a = some password ∨
    r.keyPasswords.get? a = none ∧ password = r.defaultPassword

theorem exists_hasPassword (r : Resolver) (a : String) : ∃ password, r.HasPassword a password := by
  cases h : r.keyPasswords.get? a with
  | none => exact ⟨_, .inr ⟨h, rfl⟩⟩
  | some password => exact ⟨password, .inl h⟩

theorem passwordFor_eq {r : Resolver} {a password : String} (h : r.HasPassword a password) :
    r.passwordFor a = Bytes.ofString password := by
  rw [passwordFor]
  rcases h with h | ⟨h, rfl⟩
  · rw [h, Option.getD_some]
  · rw [h, Option.getD_none]

section Agreement

variable {r r' : Resolver} {a : String} {password : Bytes}

theorem lookupFailed_of_agreesAt (h : r.store.AgreesAt r'.store a password) (what : String)
    (e : StoreError) : (r.lookupFailed a what e : Except ServiceError (Resolution α)) =
      r'.lookupFailed a what e := by
  have he : r.storeError a what e = r'.storeError a what e := by
    rw [storeError, storeError, h.name]
  cases e with
  | invalidAlias _ => rfl
  | _ => exact congrArg Except.error he

theorem missing_of_agreesAt (h : r.store.AgreesAt r'.store a password) (reason : NotFoundReason) :
    (r.missing a reason : Except ServiceError (Resolution α)) = r'.missing a reason := by
  rw [missing, missing, h.contains]
  match r'.store.contains a with
  | .ok true => rfl
  | .ok false => rfl
  | .error e => exact lookupFailed_of_agreesAt h "entry" e

theorem ofLookup_of_agreesAt (h : r.store.AgreesAt r'.store a password) (what : String)
    (reason : NotFoundReason) (answer : Except StoreError (Option α)) :
    r.ofLookup a what reason answer = r'.ofLookup a what reason answer := by
  match answer with
  | .ok (some v) => rfl
  | .ok none => exact missing_of_agreesAt h reason
  | .error e => exact lookupFailed_of_agreesAt h what e

theorem ofKeyLookup_of_agreesAt (h : r.store.AgreesAt r'.store a password)
    (answer : Except StoreError (Option PrivateKey)) :
    r.ofKeyLookup a answer = r'.ofKeyLookup a answer := by
  unfold ofKeyLookup
  split
  · rfl
  · exact ofLookup_of_agreesAt h ..

end Agreement

structure AnswersAs (r : Resolver) (c : CryptoContext) (r' : Resolver) (c' : CryptoContext) :
    Prop where
  certificate : r.certificate c = r'.certificate c'
  privateKey : r.privateKey c = r'.privateKey c'

/-- An answer depends on the alias of the context, on the password of that alias, and on what the
store says of the two. -/
theorem answersAs_of_agreesAt {r r' : Resolver} {c c' : CryptoContext} {a password : String}
    (ha : r.aliasFor c = a) (ha' : r'.aliasFor c' = a) (hp : r.HasPassword a password)
    (hp' : r'.HasPassword a password)
    (h : r.store.AgreesAt r'.store a (Bytes.ofString password)) : r.AnswersAs c r' c' where
  certificate := by
    rw [Resolver.certificate, Resolver.certificate, ha, ha', h.certificate]
    exact ofLookup_of_agreesAt h ..
  privateKey := by
    rw [privateKey_eq, privateKey_eq, ha, ha', passwordFor_eq hp, passwordFor_eq hp', h.privateKey]
    exact ofKeyLookup_of_agreesAt h _

end Resolver

/-! ## What a hybrid record depends on -/

namespace Hybrid

variable {r r' : Resolver} {c c' : CryptoContext}

theorem build_of_answersAs (h : r.AnswersAs c r' c') (random : Random) (input : Input)
    (symmetric asymmetric : AlgorithmSpec) :
    build r random input symmetric asymmetric c =
      build r' random input symmetric asymmetric c' := by
  rw [build, build, h.certificate]

theorem openRecord_of_answersAs (h : r.AnswersAs c r' c') (output : Output)
    (symmetric asymmetric : AlgorithmSpec) :
    openRecord r output symmetric asymmetric c = openRecord r' output symmetric asymmetric c' := by
  rw [openRecord, openRecord, h.privateKey]

end Hybrid

/-! ## What a service does -/

namespace Service

/-- The services do the same for the contexts: every operation gives the same result, be it a value
or a failure, encryption with the same random octets. -/
structure ActsAs (s : Service) (c : CryptoContext) (s' : Service) (c' : CryptoContext) : Prop where
  certificate : s.certificate c = s'.certificate c'
  sign : ∀ data spec, s.sign data spec c = s'.sign data spec c'
  verify : ∀ data signature spec, s.verify data signature spec c = s'.verify data signature spec c'
  encryptFor : ∀ random text spec,
    s.encryptFor random text spec c = s'.encryptFor random text spec c'
  decryptFrom : ∀ data spec, s.decryptFrom data spec c = s'.decryptFrom data spec c'
  hybridEncrypt : ∀ random input symmetric asymmetric,
    s.hybridEncrypt random input symmetric asymmetric c =
      s'.hybridEncrypt random input symmetric asymmetric c'
  hybridDecrypt : ∀ output symmetric asymmetric,
    s.hybridDecrypt output symmetric asymmetric c = s'.hybridDecrypt output symmetric asymmetric c'

/-- A service reads a context only by asking its resolver. -/
theorem actsAs_of_answersAs {s s' : Service} {c c' : CryptoContext}
    (h : s.resolver.AnswersAs c s'.resolver c') (hh : s'.hybrid = s.hybrid) : s.ActsAs c s' c' := by
  have hcertificate : s.certificate c = s'.certificate c' := by
    rw [Service.certificate, Service.certificate, h.certificate]
  have hprivateKey : s.privateKey c = s'.privateKey c' := by
    rw [Service.privateKey, Service.privateKey, h.privateKey]
  constructor
  case certificate => exact hcertificate
  case sign =>
    intro data spec
    rw [Service.sign, Service.sign, hprivateKey]
  case verify =>
    intro data signature spec
    rw [Service.verify, Service.verify, hcertificate]
  case encryptFor =>
    intro random text spec
    rw [Service.encryptFor, Service.encryptFor, hcertificate]
  case decryptFrom =>
    intro data spec
    rw [Service.decryptFrom, Service.decryptFrom, hprivateKey]
  case hybridEncrypt =>
    intro random input symmetric asymmetric
    rw [Service.hybridEncrypt, Service.hybridEncrypt, requireHybrid, requireHybrid, hh,
      Hybrid.build_of_answersAs h]
  case hybridDecrypt =>
    intro output symmetric asymmetric
    rw [Service.hybridDecrypt, Service.hybridDecrypt, requireHybrid, requireHybrid, hh,
      Hybrid.openRecord_of_answersAs h]

/-- Contexts that select one alias are served alike, whoever owns them and whatever the key is for.
The private key is opened with the password of the alias and no other: a service that is set up
otherwise, with other owners and passwords and over another store, does the same for a context
of that alias when the password of the alias is the same and its store says the same of the two. -/
theorem actsAs_of_aliasFor {s : Service} {c c' : CryptoContext}
    (h : s.resolver.aliasFor c = s.resolver.aliasFor c') :
    s.ActsAs c s c' ∧ (∀ usage, s.ActsAs c s { c with usage }) ∧
      (∀ cert, s.certificate c = .ok cert ↔
        s.resolver.store.certificate (s.resolver.aliasFor c) = .ok (some cert)) ∧
      ∃ password, s.resolver.HasPassword (s.resolver.aliasFor c) password ∧
        (∀ key, s.privateKey c = .ok key ↔ s.resolver.store.privateKey (s.resolver.aliasFor c)
          (Bytes.ofString password) = .ok (some key)) ∧
        ∀ (s' : Service) (d : CryptoContext), s'.hybrid = s.hybrid →
          s'.resolver.aliasFor d = s.resolver.aliasFor c →
          s'.resolver.HasPassword (s.resolver.aliasFor c) password →
          s.resolver.store.AgreesAt s'.resolver.store (s.resolver.aliasFor c)
            (Bytes.ofString password) → s.ActsAs c s' d := by
  obtain ⟨password, hp⟩ := s.resolver.exists_hasPassword (s.resolver.aliasFor c)
  have hall (s' : Service) (d : CryptoContext) (hh : s'.hybrid = s.hybrid)
      (ha : s'.resolver.aliasFor d = s.resolver.aliasFor c)
      (hp' : s'.resolver.HasPassword (s.resolver.aliasFor c) password)
      (hs : s.resolver.store.AgreesAt s'.resolver.store (s.resolver.aliasFor c)
        (Bytes.ofString password)) : s.ActsAs c s' d :=
    actsAs_of_answersAs (Resolver.answersAs_of_agreesAt rfl ha hp hp' hs) hh
  have hsame (d : CryptoContext) (ha : s.resolver.aliasFor d = s.resolver.aliasFor c) :
      s.ActsAs c s d := hall s d rfl ha hp (.refl ..)
  refine ⟨hsame c' h.symm, fun usage => hsame _ rfl, fun cert => certificate_eq_ok,
    password, hp, fun key => ?_, hall⟩
  rw [privateKey_eq_ok, Resolver.passwordFor_eq hp]

/-- A service with a key pair under a password of its own, one of whose owners is mapped to it. -/
def archive : Service where
  resolver := KeyStoreProvider.reader.withOwnerAlias "alice" "tenant"
  providers := .empty
  defaultProvider := ""
  hybrid := true

/-- A service with the same key pair, whose password is that of all keys. -/
def branch : Service where
  resolver :=
    { store := ((MemoryStore.empty.putCertificate "tenant"
        Primitives.sampleCertificate).putPrivateKey "tenant" (.rsa .ofMersenne)
          (Bytes.ofString "old")).view
      defaultAlias := "tenant"
      defaultPassword := "old" }
  providers := .empty
  defaultProvider := ""
  hybrid := true

/-- An owner by the mapping, another one by the alias and for signatures, and a third one by the
default alias of the other service decrypt the same. -/
theorem actsAs_archive :
    archive.decryptFrom Primitives.sampleCiphertext {} (.ofOwner ⟨"alice"⟩) = .ok [7] ∧
      archive.decryptFrom Primitives.sampleCiphertext {}
        { owner := ⟨"bob"⟩, usage := some .signing, keyAlias := some "tenant" } = .ok [7] ∧
      branch.decryptFrom Primitives.sampleCiphertext {} (.ofOwner ⟨"carol"⟩) = .ok [7] := by
  have hdefault : (({} : AlgorithmSpec).orDefault AlgorithmSpec.defaultAsymmetric).transformation =
      .ok .rsaPkcs1 := Transformation.parse_of_toList rfl
  have hsealed : archive.decryptFrom Primitives.sampleCiphertext {} (.ofOwner ⟨"alice"⟩) =
      .ok [7] :=
    bind_eq_ok.mpr ⟨.rsa .ofMersenne, privateKey_eq_ok.mpr rfl,
      Operations.decrypt_eq_ok.mpr ⟨.rsaPkcs1, hdefault, Primitives.decrypt_encrypt
        (.asymmetric rfl Primitives.sampleCertificate_isPairedWith)
        (Primitives.encrypt_sampleCertificate none rfl) rfl⟩⟩
  have hselected : archive.resolver.aliasFor (.ofOwner ⟨"alice"⟩) = archive.resolver.aliasFor
      { owner := ⟨"bob"⟩, usage := some .signing, keyAlias := some "tenant" } := rfl
  obtain ⟨hsame, -, -, password, hp, -, hother⟩ := actsAs_of_aliasFor hselected
  obtain rfl : password = "old" := by
    obtain h | ⟨h, -⟩ := hp
    · exact (Option.some.inj h).symm
    · cases h
  have hbranch := hother branch (.ofOwner ⟨"carol"⟩) rfl rfl (.inr ⟨rfl, rfl⟩)
    ⟨rfl, rfl, rfl, rfl⟩
  refine ⟨hsealed, ?_, ?_⟩
  · rw [← hsame.decryptFrom, hsealed]
  · rw [← hbranch.decryptFrom, hsealed]

end Service

end Strongbox
