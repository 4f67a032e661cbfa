/-
  Strongbox.Proofs.Service.Capabilities — what a service says that it can do, and what it does.

  An operation is refused when the service has not the capability for it. Nothing below a service
  refuses: the failures of stores, contexts, envelopes and primitives are told as failures of
  other kinds, so a chain of their steps is never refused. What is left are the provider that a
  descriptor selects, its own capabilities, and the switch of hybrid encryption. All three are
  fixed when the service is built, and building makes sure of the default provider.
  - `ServiceBuilder.get?_callAll`: the provider in use under a type, after any calls.
  - `ShippedProvider.refused_encryptSelfContained`, `refused_decryptSelfContained`: when a provider
    refuses.
  - `Service.capabilities_truthful`: when an operation of a built service is refused.
-/

import Strongbox.Proofs.Envelope.Reading
import Strongbox.Proofs.Service.InternalData
import Strongbox.Proofs.Table

namespace Strongbox

open Outcome

/-! ## Refusals -/

def Refused (r : Except ServiceError α) : Prop := ∃ reason, r = .error (.notSupported reason)

@[simp] theorem refused_notSupported (reason : String) :
    Refused (.error (.notSupported reason) : Except ServiceError α) := ⟨reason, rfl⟩

@[simp] theorem not_refused_ok (a : α) : ¬ Refused (.ok a) := nofun

theorem not_refused_bind {x : Except ServiceError α} {f : α → Except ServiceError β}
    (hx : ¬ Refused x) (hf : ∀ a, ¬ Refused (f a)) : ¬ Refused (x >>= f) := by
  rintro ⟨reason, h⟩
  rcases Outcome.bind_eq_error.mp h with h | ⟨a, -, h⟩
  · exact hx ⟨reason, h⟩
  · exact hf a ⟨reason, h⟩

theorem Resolution.not_refused_require (r : Resolution α) (what : String) :
    ¬ Refused (r.require what) := by
  cases r <;> exact nofun

/-- What needs a value of a store is refused only by what is done with it. -/
theorem not_refused_require_bind {x : Except ServiceError (Resolution α)} {what : String}
    {f : α → Except ServiceError β} (hx : ¬ Refused x) (hf : ∀ a, ¬ Refused (f a)) :
    ¬ Refused (x >>= fun r => r.require what >>= f) :=
  not_refused_bind hx fun r => not_refused_bind (r.not_refused_require what) hf

/-! ## Below a service -/

theorem CryptoContext.not_refused_forAlias (a : String) : ¬ Refused (forAlias a) := by
  refine not_refused_bind ?_ fun _ => not_refused_ok _
  rw [OwnerId.make]
  split
  · simp [Refused]
  · exact not_refused_ok _

theorem Envelope.not_refused_decode (b : Bytes) : ¬ Refused (decode b) := by
  rintro ⟨reason, h⟩
  obtain ⟨m, hm⟩ := failsMalformed_decode b _ h
  cases hm

namespace Resolver

variable (r : Resolver)

theorem not_refused_lookupFailed (a what : String) (e : StoreError) :
    ¬ Refused (r.lookupFailed a what e : Except _ (Resolution α)) := by
  cases e <;> exact nofun

theorem not_refused_missing (a : String) (reason : NotFoundReason) :
    ¬ Refused (r.missing a reason : Except _ (Resolution α)) := by
  rw [missing]
  split
  · exact nofun
  · exact nofun
  · exact r.not_refused_lookupFailed a _ _

theorem not_refused_ofLookup (a what : String) (reason : NotFoundReason)
    (answer : Except StoreError (Option α)) : ¬ Refused (r.ofLookup a what reason answer) := by
  rw [ofLookup.eq_def]
  split
  · exact nofun
  · exact r.not_refused_missing a reason
  · exact r.not_refused_lookupFailed a what _

theorem not_refused_certificate (c : CryptoContext) : ¬ Refused (r.certificate c) :=
  r.not_refused_ofLookup _ _ _ _

theorem not_refused_secretKey (c : CryptoContext) : ¬ Refused (r.secretKey c) :=
  r.not_refused_ofLookup _ _ _ _

theorem not_refused_privateKey (c : CryptoContext) : ¬ Refused (r.privateKey c) := by
  rw [privateKey]
  split
  · exact nofun
  · exact r.not_refused_ofLookup _ _ _ _

theorem not_refused_byThumbprint (t : Thumbprint) : ¬ Refused (r.byThumbprint t) := by
  rw [byThumbprint]
  split
  · exact nofun
  · split <;> exact nofun

end Resolver

namespace Operations

/-- Whatever a primitive fails with, the operation is not refused. -/
theorem not_refused_finish (a : Activity) (s : AlgorithmSpec) (r : Except PrimitiveError α) :
    ¬ Refused (finish a s r) := by
  cases r <;> exact nofun

theorem not_refused_encrypt (random : Random) (data : Bytes) (key : KeyMaterial)
    (s : AlgorithmSpec) : ¬ Refused (encrypt random data key s) := not_refused_finish _ _ _

theorem not_refused_decrypt (data : Bytes) (key : KeyMaterial) (s : AlgorithmSpec) :
    ¬ Refused (decrypt data key s) := not_refused_finish _ _ _

end Operations

namespace Hybrid

theorem not_refused_build (r : Resolver) (random : Random) (input : Input)
    (symmetric asymmetric : AlgorithmSpec) (c : CryptoContext) :
    ¬ Refused (build r random input symmetric asymmetric c) := by
  rw [build]
  refine not_refused_require_bind (r.not_refused_certificate c) fun _ => ?_
  refine not_refused_bind (Operations.not_refused_finish _ _ _) fun _ => ?_
  exact not_refused_bind (Operations.not_refused_encrypt _ _ _ _) fun _ => not_refused_ok _

theorem not_refused_checkRecorded (role : String) (requested : AlgorithmSpec) (name : String) :
    ¬ Refused (checkRecorded role requested name) := by
  rw [checkRecorded]
  split <;> exact nofun

theorem not_refused_openRecord (r : Resolver) (o : Output) (symmetric asymmetric : AlgorithmSpec)
    (c : CryptoContext) : ¬ Refused (openRecord r o symmetric asymmetric c) := by
  rw [openRecord]
  refine not_refused_bind (not_refused_checkRecorded _ _ _) fun _ => ?_
  refine not_refused_bind (not_refused_checkRecorded _ _ _) fun _ => ?_
  refine not_refused_require_bind (r.not_refused_privateKey c) fun _ => ?_
  refine not_refused_bind (Operations.not_refused_decrypt _ _ _) fun octets => ?_
  refine not_refused_bind ?_ fun _ => Operations.not_refused_finish _ _ _
  cases SecretKey.make octets <;> exact nofun

end Hybrid

/-! ## Providers -/

namespace KeyStoreProvider

variable (k : InternalKey) (r : Resolver) (c : CryptoContext) (s : AlgorithmSpec)

theorem not_refused_secretKey : ¬ Refused (secretKey r c) :=
  not_refused_require_bind (r.not_refused_secretKey c) fun _ => not_refused_ok _

theorem not_refused_encryptionKey : ¬ Refused (encryptionKey r c s) := by
  rw [encryptionKey]
  split
  · exact not_refused_secretKey r c
  · exact not_refused_require_bind (r.not_refused_certificate c) fun _ => not_refused_ok _

theorem not_refused_decryptionKey : ¬ Refused (decryptionKey r c s) := by
  rw [decryptionKey]
  split
  · exact not_refused_secretKey r c
  · exact not_refused_require_bind (r.not_refused_privateKey c) fun _ => not_refused_ok _

theorem not_refused_encrypt (random : Random) (text : Bytes) :
    ¬ Refused (encrypt k random text s) :=
  not_refused_bind (not_refused_encryptionKey _ _ s) fun _ =>
    Operations.not_refused_encrypt _ _ _ _

theorem not_refused_decrypt (data : Bytes) : ¬ Refused (decrypt k data s) :=
  not_refused_bind (not_refused_decryptionKey _ _ s) fun _ => Operations.not_refused_decrypt _ _ _

theorem not_refused_wrap (ciphertext : Bytes) : ¬ Refused (wrap k s ciphertext) :=
  not_refused_require_bind (k.resolver.not_refused_certificate _) fun _ => not_refused_ok _

theorem not_refused_encryptSelfContained (random : Random) (text : Bytes) :
    ¬ Refused (encryptSelfContained k random text s) := by
  rw [encryptSelfContained_eq]
  split
  · exact not_refused_wrap k s []
  · exact not_refused_bind (not_refused_encrypt k s random text) (not_refused_wrap k s)

theorem not_refused_decryptSelfContained (data : Bytes) :
    ¬ Refused (decryptSelfContained k data s) := by
  rw [decryptSelfContained]
  refine not_refused_bind (Envelope.not_refused_decode data) fun e => ?_
  refine not_refused_require_bind (k.resolver.not_refused_byThumbprint _) fun entry => ?_
  split
  · exact not_refused_ok _
  · refine not_refused_bind (CryptoContext.not_refused_forAlias _) fun _ => ?_
    refine not_refused_bind (not_refused_decryptionKey _ _ _) fun _ => ?_
    exact Operations.not_refused_decrypt _ _ _

end KeyStoreProvider

namespace ShippedProvider

/-- The provider makes no ciphertexts that say how they are opened. -/
def OnlyPlain (p : ShippedProvider) : Prop :=
  p.view.capabilities.supports .selfContainedCiphertext = false

theorem not_refused_encrypt (p : ShippedProvider) (random : Random) (text : Bytes)
    (s : AlgorithmSpec) : ¬ Refused (p.view.encrypt random text s) := by
  cases p with
  | keyStore k => exact KeyStoreProvider.not_refused_encrypt k s random text
  | symmetric k =>
    exact not_refused_bind (KeyStoreProvider.not_refused_secretKey _ _) fun _ =>
      Operations.not_refused_encrypt _ _ _ _

theorem not_refused_decrypt (p : ShippedProvider) (data : Bytes) (s : AlgorithmSpec) :
    ¬ Refused (p.view.decrypt data s) := by
  cases p with
  | keyStore k => exact KeyStoreProvider.not_refused_decrypt k s data
  | symmetric k =>
    exact not_refused_bind (KeyStoreProvider.not_refused_secretKey _ _) fun _ =>
      Operations.not_refused_decrypt _ _ _

/-- A self-contained ciphertext is refused exactly when it is not among the capabilities. -/
theorem refused_encryptSelfContained (p : ShippedProvider) (random : Random) (text : Bytes)
    (s : AlgorithmSpec) : Refused (p.view.encryptSelfContained random text s) ↔ p.OnlyPlain := by
  cases p with
  | keyStore k =>
    exact iff_of_false (KeyStoreProvider.not_refused_encryptSelfContained k s random text) nofun
  | symmetric k => exact iff_of_true (refused_notSupported _) rfl

theorem refused_decryptSelfContained (p : ShippedProvider) (data : Bytes) (s : AlgorithmSpec) :
    Refused (p.view.decryptSelfContained data s) ↔ p.OnlyPlain := by
  cases p with
  | keyStore k =>
    exact iff_of_false (KeyStoreProvider.not_refused_decryptSelfContained k s data) nofun
  | symmetric k => exact iff_of_true (refused_notSupported _) rfl

end ShippedProvider

/-! ## Calls on a builder -/

inductive BuilderCall where
  /-- A provider is registered. -/
  | provider (p : ShippedProvider)
  | defaultProvider (type : String)
  | hybrid (on : Bool)
  /-- The operations are given anew; there are only the built-in ones, which hold no state. -/
  | operations

namespace BuilderCall

def provider? : BuilderCall → Option ShippedProvider
  | provider p => some p
  | _ => none

def providers (calls : List BuilderCall) : List ShippedProvider := calls.filterMap provider?

end BuilderCall

namespace ServiceBuilder

def call (b : ServiceBuilder) : BuilderCall → ServiceBuilder
  | .provider p => b.withProvider p.view
  | .defaultProvider type => { b with defaultProvider := type }
  | .hybrid on => { b with hybrid := on }
  | .operations => b

def callAll (b : ServiceBuilder) (calls : List BuilderCall) : ServiceBuilder := calls.foldl call b

/-- Whatever is called in between, the last provider of a type is in use. -/
theorem get?_callAll (b : ServiceBuilder) (calls : List BuilderCall) (type : String) :
    (b.callAll calls).providers.get? type =
      ((ShippedProvider.lastOf? (BuilderCall.providers calls) type).map (·.view)).or
        (b.providers.get? type) := by
  induction calls generalizing b with
  | nil => rfl
  | cons c calls ih =>
    show ((b.call c).callAll calls).providers.get? type = _
    rw [ih]
    cases c with
    | provider p =>
      exact (get?_registerAll (b.withProvider p.view) _ type).symm.trans
        (get?_registerAll b (p :: BuilderCall.providers calls) type)
    | defaultProvider type => rfl
    | hybrid on => rfl
    | operations => rfl

end ServiceBuilder

/-! ## A built service -/

namespace Service

variable {r : Resolver} {calls : List BuilderCall} {s : Service}

/-- The descriptor names a type that no provider was registered under, or it asks a provider for a
self-contained ciphertext that the provider does not make. -/
def Lacks (s : Service) (calls : List BuilderCall) (d : OperationDescriptor) : Prop :=
  (∃ type, d.internalProvider = some type ∧ ∀ p, .provider p ∈ calls → p.view.type ≠ type) ∨
    d.selfContained = true ∧ ∃ p, ShippedProvider.lastOf? (BuilderCall.providers calls)
      (d.internalProvider.getD s.defaultProvider) = some p ∧ p.OnlyPlain

structure Truthful (s : Service) (calls : List BuilderCall) : Prop where
  encrypt : ∀ random text d, Refused (s.encrypt random text d) ↔ s.Lacks calls d
  decrypt : ∀ data d, Refused (s.decrypt data d) ↔ s.Lacks calls d
  /-- The default provider is there. -/
  unnamed : ∀ activity d, d.internalProvider = none → ∃ p, s.provider activity d = .ok p
  selfContained : s.capabilities.supports .selfContainedCiphertext = false →
    ∀ d, d.selfContained = true →
      (∀ random text, Refused (s.encrypt random text d)) ∧ ∀ data, Refused (s.decrypt data d)
  hybridEncrypt : ∀ random input symmetric asymmetric c,
    Refused (s.hybridEncrypt random input symmetric asymmetric c) ↔
      s.capabilities.supports .hybridEncryption = false
  hybridDecrypt : ∀ output symmetric asymmetric c,
    Refused (s.hybridDecrypt output symmetric asymmetric c) ↔
      s.capabilities.supports .hybridEncryption = false
  /-- What is done for a context is never refused. -/
  forContext : ∀ c, ¬ Refused (s.certificate c) ∧ ∀ random data signature spec,
    ¬ Refused (s.sign data spec c) ∧ ¬ Refused (s.verify data signature spec c) ∧
      ¬ Refused (s.encryptFor random data spec c) ∧ ¬ Refused (s.decryptFrom data spec c)

theorem get?_of_build (hs : (({ resolver := r } : ServiceBuilder).callAll calls).build = .ok s)
    (type : String) : s.providers.get? type =
      (ShippedProvider.lastOf? (BuilderCall.providers calls) type).map (·.view) := by
  obtain ⟨-, rfl⟩ := ServiceBuilder.build_eq_ok.mp hs
  show (ServiceBuilder.callAll _ calls).providers.get? type = _
  rw [ServiceBuilder.get?_callAll]
  exact Option.or_none

theorem lastOf?_eq_none {type : String} :
    ShippedProvider.lastOf? (BuilderCall.providers calls) type = none ↔
      ∀ p, .provider p ∈ calls → p.view.type ≠ type := by
  rw [ShippedProvider.lastOf?, List.find?_eq_none]
  simp only [List.mem_reverse, BuilderCall.providers, List.mem_filterMap, beq_iff_eq]
  constructor
  · intro h p hp
    exact h p ⟨_, hp, rfl⟩
  · intro h p hp
    obtain ⟨c, hc, hcp⟩ := hp
    cases c with
    | provider q =>
      obtain rfl : q = p := Option.some.inj hcp
      exact h q hc
    | defaultProvider type => cases hcp
    | hybrid on => cases hcp
    | operations => cases hcp

theorem exists_defaultProvider
    (hs : (({ resolver := r } : ServiceBuilder).callAll calls).build = .ok s) :
    ∃ p, ShippedProvider.lastOf? (BuilderCall.providers calls) s.defaultProvider = some p := by
  have hdefault := ServiceBuilder.isSome_default_of_build hs
  rw [get?_of_build hs, Option.isSome_map] at hdefault
  exact Option.isSome_iff_exists.mp hdefault

/-- Where there is no provider, the descriptor names a type that none was registered under. -/
theorem exists_type_of_lastOf?_eq_none
    (hs : (({ resolver := r } : ServiceBuilder).callAll calls).build = .ok s)
    {d : OperationDescriptor} (hnone : ShippedProvider.lastOf? (BuilderCall.providers calls)
      (d.internalProvider.getD s.defaultProvider) = none) :
    ∃ type, d.internalProvider = some type ∧ ∀ p, .provider p ∈ calls → p.view.type ≠ type := by
  cases htype : d.internalProvider with
  | some type =>
    rw [htype] at hnone
    exact ⟨type, rfl, lastOf?_eq_none.mp hnone⟩
  | none =>
    obtain ⟨p, hp⟩ := exists_defaultProvider hs
    rw [htype, Option.getD_none, hp] at hnone
    cases hnone

/-- What is asked of the selected provider is refused when there is none, which takes a type that
the descriptor names, and otherwise by the provider. -/
theorem refused_provider_bind
    (hs : (({ resolver := r } : ServiceBuilder).callAll calls).build = .ok s) {activity : String}
    {d : OperationDescriptor} {f : InternalProvider → Except ServiceError α} :
    Refused (s.provider activity d >>= f) ↔
      (∃ type, d.internalProvider = some type ∧ ∀ p, .provider p ∈ calls → p.view.type ≠ type) ∨
        ∃ p, ShippedProvider.lastOf? (BuilderCall.providers calls)
          (d.internalProvider.getD s.defaultProvider) = some p ∧ Refused (f p.view) := by
  have hget := get?_of_build hs (d.internalProvider.getD s.defaultProvider)
  cases hlast : ShippedProvider.lastOf? (BuilderCall.providers calls)
      (d.internalProvider.getD s.defaultProvider) with
  | some p =>
    rw [hlast] at hget
    rw [bind_of_ok (provider_eq_ok.mpr hget)]
    constructor
    · intro h
      exact .inr ⟨p, rfl, h⟩
    · rintro (⟨type, htype, hnone⟩ | ⟨q, hq, h⟩)
      · rw [htype, Option.getD_some, lastOf?_eq_none.mpr hnone] at hlast
        cases hlast
      · cases hq
        exact h
  | none =>
    rw [hlast] at hget
    have hrefused : Refused (s.provider activity d >>= f) := by
      rw [provider, hget]
      exact refused_notSupported _
    exact iff_of_true hrefused (.inl (exists_type_of_lastOf?_eq_none hs hlast))

theorem refused_encrypt (hs : (({ resolver := r } : ServiceBuilder).callAll calls).build = .ok s)
    (random : Random) (text : Bytes) (d : OperationDescriptor) :
    Refused (s.encrypt random text d) ↔ s.Lacks calls d := by
  refine (refused_provider_bind hs).trans (or_congr_right ?_)
  cases d.selfContained with
  | false => simp [ShippedProvider.not_refused_encrypt]
  | true => simp [ShippedProvider.refused_encryptSelfContained]

theorem refused_decrypt (hs : (({ resolver := r } : ServiceBuilder).callAll calls).build = .ok s)
    (data : Bytes) (d : OperationDescriptor) :
    Refused (s.decrypt data d) ↔ s.Lacks calls d := by
  refine (refused_provider_bind hs).trans (or_congr_right ?_)
  cases d.selfContained with
  | false => simp [ShippedProvider.not_refused_decrypt]
  | true => simp [ShippedProvider.refused_decryptSelfContained]

theorem lacks_of_selfContained
    (hs : (({ resolver := r } : ServiceBuilder).callAll calls).build = .ok s)
    (hnone : s.capabilities.supports .selfContainedCiphertext = false) {d : OperationDescriptor}
    (hd : d.selfContained = true) : s.Lacks calls d := by
  have hget := get?_of_build hs (d.internalProvider.getD s.defaultProvider)
  cases hlast : ShippedProvider.lastOf? (BuilderCall.providers calls)
      (d.internalProvider.getD s.defaultProvider) with
  | some p =>
    rw [hlast] at hget
    have hall := List.any_eq_false.mp hnone p.view (Table.mem_values_of_get? hget)
    exact .inr ⟨hd, p, hlast, Bool.eq_false_iff.mpr hall⟩
  | none => exact .inl (exists_type_of_lastOf?_eq_none hs hlast)

theorem refused_requireHybrid_bind {activity : String} {x : Except ServiceError α}
    (hx : ¬ Refused x) :
    Refused (s.requireHybrid activity >>= fun _ => x) ↔
      s.capabilities.supports .hybridEncryption = false := by
  show _ ↔ s.hybrid = false
  rw [requireHybrid]
  cases s.hybrid with
  | false => exact iff_of_true (refused_notSupported _) rfl
  | true => exact iff_of_false hx nofun

/-- Whatever was called on the builder, a built service refuses what it says that it cannot do,
and nothing else. -/
theorem capabilities_truthful
    (hs : (({ resolver := r } : ServiceBuilder).callAll calls).build = .ok s) :
    s.Truthful calls where
  encrypt := refused_encrypt hs
  decrypt := refused_decrypt hs
  unnamed activity d hd := by
    obtain ⟨p, hp⟩ := exists_defaultProvider hs
    refine ⟨p.view, provider_eq_ok.mpr ?_⟩
    rw [hd, Option.getD_none, get?_of_build hs, hp]
    rfl
  selfContained hnone d hd := by
    have hlacks := lacks_of_selfContained hs hnone hd
    exact ⟨fun random text => (refused_encrypt hs random text d).mpr hlacks,
      fun data => (refused_decrypt hs data d).mpr hlacks⟩
  hybridEncrypt random input symmetric asymmetric c :=
    refused_requireHybrid_bind (Hybrid.not_refused_build _ _ _ _ _ _)
  hybridDecrypt output symmetric asymmetric c :=
    refused_requireHybrid_bind (Hybrid.not_refused_openRecord _ _ _ _ _)
  forContext c := by
    have hcertificate : ¬ Refused (s.certificate c) :=
      not_refused_bind (s.resolver.not_refused_certificate c) fun r => r.not_refused_require _
    have hprivateKey : ¬ Refused (s.privateKey c) :=
      not_refused_bind (s.resolver.not_refused_privateKey c) fun r => r.not_refused_require _
    refine ⟨hcertificate, fun random data signature spec => ⟨?_, ?_, ?_, ?_⟩⟩
    · exact not_refused_bind hprivateKey fun _ => Operations.not_refused_finish _ _ _
    · exact not_refused_bind hcertificate fun _ => Operations.not_refused_finish _ _ _
    · exact not_refused_bind hcertificate fun _ => Operations.not_refused_encrypt _ _ _ _
    · exact not_refused_bind hprivateKey fun _ => Operations.not_refused_decrypt _ _ _

def secretKeyCalls : List BuilderCall :=
  [.defaultProvider "symmetric", .provider (.symmetric (keyOf "tenant")), .hybrid true,
    .operations, .provider (.symmetric (keyOf "internal")), .hybrid false]

/-- The service refuses self-contained ciphertexts, a type under which there is nothing and hybrid
encryption, but no plain request. -/
theorem capabilities_truthful_secretKey :
    ∃ s, (({ resolver := keyRing } : ServiceBuilder).callAll secretKeyCalls).build = .ok s ∧
      Refused (s.encrypt (fun _ => 1) [] { selfContained := true }) ∧
      Refused (s.decrypt [] { internalProvider := some "keystore" }) ∧
      (∀ output symmetric asymmetric c, Refused (s.hybridDecrypt output symmetric asymmetric c)) ∧
      ∀ text, ¬ Refused (s.encrypt (fun _ => 1) text {}) := by
  obtain ⟨s, hs, hcapabilities⟩ : ∃ s : Service,
      (({ resolver := keyRing } : ServiceBuilder).callAll secretKeyCalls).build = .ok s ∧
        s.capabilities = .none := ⟨_, rfl, rfl⟩
  have h := capabilities_truthful hs
  refine ⟨s, hs, ?_, ?_, ?_, ?_⟩
  · exact (h.selfContained (by rw [hcapabilities]; rfl) _ rfl).left _ _
  · refine (h.decrypt _ _).mpr (.inl ⟨"keystore", rfl, fun p hp => ?_⟩)
    simp only [secretKeyCalls, List.mem_cons, List.not_mem_nil, reduceCtorEq,
      BuilderCall.provider.injEq, or_false, false_or] at hp
    rcases hp with rfl | rfl
    · exact fun hname => absurd hname (by decide)
    · exact fun hname => absurd hname (by decide)
  · intro output symmetric asymmetric c
    exact (h.hybridDecrypt _ _ _ _).mpr (by rw [hcapabilities]; rfl)
  · intro text
    rw [h.encrypt]
    rintro (⟨type, htype, -⟩ | ⟨hself, -⟩)
    · cases htype
    · cases hself

end Service

end Strongbox
