/-
  Strongbox.Proofs.CommandLine.InversePairs — commands that undo each other.

  What a command prints is base64 or a JSON text, and both are read back as they were written. A
  payload is read only in the one form that its octets are written in, blanks around it apart, so
  the text that comes back at the end is the payload without its blanks. Both commands of a pair
  find the context, the provider and the names in the same words, and the service undoes what it
  made.
  - `Session.encrypt_party_eq_ok` and its like: what a command that succeeds asks of the service.
  - `Session.decrypt_encrypt`, `openText_sealText`, `verify_sign`: each pair of commands.
  - `Session.inverse_pairs`: the three of them, for every session.
-/

import Strongbox.CommandLine.Run
import Strongbox.Proofs.Config.Providers
import Strongbox.Proofs.Hybrid.Record
import Strongbox.Proofs.Key.Certificate
import Strongbox.Proofs.Text.Base64

namespace Strongbox

open Outcome

namespace CommandLine

theorem ofService_eq_ok {r : Except ServiceError α} {a : α} :
    ofService r = .ok a ↔ r = .ok a := mapError_eq_ok

/-! ## The same words with another payload -/

def Payload.inline (text : String) : Payload := { inlineText := some text }

theorem Payload.octets_inline {files : FileTree} {missing x : String} {b : Bytes} :
    (inline x).octets files missing = .ok b ↔ Base64.decode x = .ok b := by
  have htext : (inline x).text files "input" missing = .ok x := rfl
  rw [octets, htext, ok_bind]
  cases Base64.decode x with
  | ok b' => simp [pure, Except.pure]
  | error e => simp [throw, throwThe, MonadExceptOf.throw]

def CipherRequest.withPayload (r : CipherRequest) (text : String) : CipherRequest :=
  { r with input := .inline text }

def SignRequest.withPayload (r : SignRequest) (text : String) : SignRequest :=
  { r with input := .inline text }

namespace Session

variable {files : FileTree} {config : Config} {s : Session}

/-! ## What each command takes -/

section Commands

variable {random : Random} {r : CipherRequest} {x y : String}

theorem encrypt_party_eq_ok (hset : r.target.isSet = true) :
    s.encrypt files random (r.withPayload x) = .ok y ↔
      ∃ text c sealed, Base64.decode x = .ok text ∧ r.target.context = .ok c ∧
        s.service.encryptFor random text (s.config.algorithm r.algorithm r.provider) c =
          .ok sealed ∧ Base64.encode sealed = y := by
  simp [encrypt, CipherRequest.withPayload, hset, bind_eq_ok, Payload.octets_inline,
    ofService_eq_ok, pure, Except.pure]

theorem encrypt_own_eq_ok (hset : r.target.isSet = false) :
    s.encrypt files random (r.withPayload x) = .ok y ↔
      ∃ text sealed, Base64.decode x = .ok text ∧
        s.service.encrypt random text (s.descriptor r) = .ok sealed ∧
          Base64.encode sealed = y := by
  simp [encrypt, CipherRequest.withPayload, descriptor, hset, bind_eq_ok, Payload.octets_inline,
    ofService_eq_ok, pure, Except.pure]

theorem decrypt_party_eq_ok (hset : r.target.isSet = true) :
    s.decrypt files (r.withPayload x) = .ok y ↔
      ∃ data c text, Base64.decode x = .ok data ∧ r.target.context = .ok c ∧
        s.service.decryptFrom data (s.config.algorithm r.algorithm r.provider) c = .ok text ∧
          Base64.encode text = y := by
  simp [decrypt, CipherRequest.withPayload, hset, bind_eq_ok, Payload.octets_inline,
    ofService_eq_ok, pure, Except.pure]

theorem decrypt_own_eq_ok (hset : r.target.isSet = false) :
    s.decrypt files (r.withPayload x) = .ok y ↔
      ∃ data text, Base64.decode x = .ok data ∧
        s.service.decrypt data (s.descriptor r) = .ok text ∧ Base64.encode text = y := by
  simp [decrypt, CipherRequest.withPayload, descriptor, hset, bind_eq_ok, Payload.octets_inline,
    ofService_eq_ok, pure, Except.pure]

variable {target : Target} {algorithms : HybridAlgorithms}

theorem sealText_eq_ok {associatedText : Option String} :
    s.sealText files random { input := .inline x, associatedText, target, algorithms } = .ok y ↔
      ∃ text c output, Base64.decode x = .ok text ∧ target.context = .ok c ∧
        s.service.hybridEncrypt random ⟨text, associatedText.map Bytes.ofString⟩
          (s.config.algorithm algorithms.symmetric algorithms.provider)
          (s.config.algorithm algorithms.asymmetric algorithms.provider) c = .ok output ∧
            output.toJson = y := by
  cases associatedText <;>
    simp [sealText, sealInput, bind_eq_ok, Payload.octets_inline, ofService_eq_ok, pure,
      Except.pure]

theorem openText_eq_ok :
    s.openText files { envelope := .inline x, target, algorithms } = .ok y ↔
      ∃ output c text, Hybrid.Output.ofJson x = .ok output ∧ target.context = .ok c ∧
        s.service.hybridDecrypt output
          (s.config.algorithm algorithms.symmetric algorithms.provider)
          (s.config.algorithm algorithms.asymmetric algorithms.provider) c = .ok text ∧
            Base64.encode text = y := by
  simp [openText, Payload.inline, Payload.text, bind_eq_ok, ofService_eq_ok, pure, Except.pure]

theorem sign_eq_ok {r : SignRequest} :
    s.sign files (r.withPayload x) = .ok y ↔
      ∃ data c signature, Base64.decode x = .ok data ∧ r.target.context = .ok c ∧
        s.service.sign data (s.config.algorithm r.algorithm r.provider) c = .ok signature ∧
          Base64.encode signature = y := by
  simp [sign, SignRequest.withPayload, bind_eq_ok, Payload.octets_inline, ofService_eq_ok, pure,
    Except.pure]

theorem verify_eq_ok {r : SignRequest} {valid : Bool} :
    s.verify files { r.withPayload x with signature := y } = .ok valid ↔
      ∃ data signature c, Base64.decode x = .ok data ∧ Base64.decode y = .ok signature ∧
        r.target.context = .ok c ∧
          s.service.verify data signature (s.config.algorithm r.algorithm r.provider) c =
            .ok valid := by
  simp [verify, SignRequest.withPayload, bind_eq_ok, Payload.octets_inline, ofService_eq_ok,
    mapError_eq_ok]

end Commands

/-! ## Pairs -/

theorem exists_of_ofConfig (h : ofConfig files config = .ok s) :
    ∃ d : DirectoryStore, files.isDirectory d.root = true ∧
      s.config.serviceOver (d.view files) = .ok s.service := by
  rw [ofConfig] at h
  split at h
  · rename_i service hservice
    cases h
    obtain ⟨d, hd, hs⟩ := Config.service_eq_ok.mp hservice
    obtain ⟨hroot, rfl⟩ := ite_ok_eq_ok.mp hd
    exact ⟨_, hroot, hs⟩
  · cases h

/-- The aliases whose key pair a request for encryption takes: that of the named party, and
otherwise the configured one, if it is the key store provider that encrypts, under a transformation
with two keys. -/
inductive TakesPair (s : Session) (r : CipherRequest) : String → Prop where
  | party {c : CryptoContext} (hset : r.target.isSet = true) (hc : r.target.context = .ok c) :
      TakesPair s r (s.service.resolver.aliasFor c)
  | own (hset : r.target.isSet = false)
      (htype : (s.descriptor r).internalProvider.getD s.service.defaultProvider =
        KeyStoreProvider.type)
      (hasymmetric : KeyStoreProvider.isSymmetric (s.descriptor r).spec = false) :
      TakesPair s r (Text.trim s.config.keyAlias)

theorem selfContained_descriptor (s : Session) (r : CipherRequest) :
    (s.descriptor r).selfContained = r.selfContained := by
  rw [descriptor]
  split <;> rfl

theorem decrypt_encrypt (hs : ofConfig files config = .ok s) {e e' : Surroundings}
    {r : CipherRequest} {x y : String}
    (hpair : ∀ a, s.TakesPair r a → s.service.resolver.HoldsPair a)
    (halone : r.target.isSet = false → r.selfContained = true →
      s.service.resolver.HoldsAlone (Text.trim s.config.keyAlias))
    (h : s.encrypt e.files e.random (r.withPayload x) = .ok y) :
    s.decrypt e'.files (r.withPayload y) = .ok (Text.trim x) := by
  cases hset : r.target.isSet with
  | true =>
    obtain ⟨text, c, sealed, hx, hc, hsealed, rfl⟩ := (encrypt_party_eq_ok hset).mp h
    have hopened := Service.decryptFrom_encryptFor_own (hpair _ (.party hset hc)) hsealed
    exact (decrypt_party_eq_ok hset).mpr ⟨sealed, c, text, Base64.decode_encode sealed, hc, hopened,
      (Base64.trim_eq_encode_of_decode hx).symm⟩
  | false =>
    obtain ⟨text, sealed, hx, hsealed, rfl⟩ := (encrypt_own_eq_ok hset).mp h
    obtain ⟨d, hroot, hservice⟩ := exists_of_ofConfig hs
    have hopened := Config.decrypt_encrypt_own hservice
      (fun _ _ => DirectoryStore.mem_aliases_of_lookup hroot)
      (fun htype hasymmetric => hpair _ (.own hset htype hasymmetric))
      (fun hself => halone hset ((selfContained_descriptor s r).symm.trans hself)) hsealed
    exact (decrypt_own_eq_ok hset).mpr ⟨sealed, text, Base64.decode_encode sealed, hopened,
      (Base64.trim_eq_encode_of_decode hx).symm⟩

theorem openText_sealText {e e' : Surroundings} {target : Target} {algorithms : HybridAlgorithms}
    {associatedText : Option String} {x y : String}
    (hpair : ∀ c, target.context = .ok c →
      s.service.resolver.HoldsPair (s.service.resolver.aliasFor c))
    (h : s.sealText e.files e.random
      { input := .inline x, associatedText, target, algorithms } = .ok y) :
    s.openText e'.files { envelope := .inline y, target, algorithms } = .ok (Text.trim x) := by
  obtain ⟨text, c, output, hx, hc, hsealed, rfl⟩ := sealText_eq_ok.mp h
  have hopened := Service.hybridDecrypt_hybridEncrypt_own (hpair c hc) hsealed
  exact openText_eq_ok.mpr ⟨output, c, text, Hybrid.Output.ofJson_toJson output, hc, hopened,
    (Base64.trim_eq_encode_of_decode hx).symm⟩

theorem verify_sign {e e' : Surroundings} {r : SignRequest} {x y : String}
    (hpair : ∀ c, r.target.context = .ok c →
      s.service.resolver.HoldsPair (s.service.resolver.aliasFor c))
    (hverifies : ∀ c key data, r.target.context = .ok c →
      s.service.privateKey c = .ok (.ed25519 key) → Base64.decode x = .ok data →
        key.Verifies data)
    (h : s.sign e.files (r.withPayload x) = .ok y) :
    s.verify e'.files { r.withPayload x with signature := y } = .ok true := by
  obtain ⟨data, c, signature, hx, hc, hsigned, rfl⟩ := sign_eq_ok.mp h
  have hverified := Service.verify_sign_own (hpair c hc)
    (fun key hkey => hverifies c key data hc (Service.privateKey_eq_ok.mpr hkey) hx) hsigned
  exact verify_eq_ok.mpr ⟨data, signature, c, hx, Base64.decode_encode signature, hc, hverified⟩

/-- The second command of a pair gives back what the first one was given, or finds the signature
valid, when the aliases whose keys it takes hold pairs, and when the alias of a self-contained
ciphertext holds its certificate alone. -/
theorem inverse_pairs (hs : ofConfig files config = .ok s) (e e' : Surroundings) (x y : String) :
    (∀ r : CipherRequest, (∀ a, s.TakesPair r a → s.service.resolver.HoldsPair a) →
      (r.target.isSet = false → r.selfContained = true →
        s.service.resolver.HoldsAlone (Text.trim s.config.keyAlias)) →
      s.encrypt e.files e.random (r.withPayload x) = .ok y →
        s.decrypt e'.files (r.withPayload y) = .ok (Text.trim x)) ∧
    (∀ (target : Target) (algorithms : HybridAlgorithms) (associatedText : Option String),
      (∀ c, target.context = .ok c →
        s.service.resolver.HoldsPair (s.service.resolver.aliasFor c)) →
      s.sealText e.files e.random { input := .inline x, associatedText, target, algorithms } =
        .ok y →
        s.openText e'.files { envelope := .inline y, target, algorithms } = .ok (Text.trim x)) ∧
    (∀ r : SignRequest, (∀ c, r.target.context = .ok c →
        s.service.resolver.HoldsPair (s.service.resolver.aliasFor c)) →
      (∀ c key data, r.target.context = .ok c → s.service.privateKey c = .ok (.ed25519 key) →
        Base64.decode x = .ok data → key.Verifies data) →
      s.sign e.files (r.withPayload x) = .ok y →
        s.verify e'.files { r.withPayload x with signature := y } = .ok true ∧
          (s.run e' (.verify { r.withPayload x with signature := y })).exit = 0) := by
  refine ⟨fun r hpair halone h => decrypt_encrypt hs hpair halone h,
    fun _ _ _ hpair h => openText_sealText hpair h, fun r hpair hverifies h => ?_⟩
  have hvalid : s.verify e'.files { r.withPayload x with signature := y } = .ok true :=
    verify_sign hpair hverifies h
  refine ⟨hvalid, ?_⟩
  rw [run, hvalid]
  rfl

/-! ## A directory with one key pair -/

def encodeNatural (n : Nat) : Bytes :=
  let b := Bytes.ofNatMinimal n
  Der.encodeInteger (if b.headD 0xFF < 0x80 then b else 0 :: b)

def encodeNumbers (ns : List Nat) : Bytes :=
  Der.wrap Der.Tag.sequence (ns.flatMap encodeNatural)

/-- A certificate of the key of two Mersenne primes, as it is written. -/
def tenantSpelling : X509.Certificate.Spelling :=
  let s := Certificate.smallCertificate none
  let k := Rsa.PrivateKey.ofMersenne.publicKey
  { s with body := { s.body with publicKey := { s.body.publicKey with
    key := ⟨0, encodeNumbers [k.modulus, k.exponent]⟩ } } }

def tenantCertificate : Certificate :=
  { Certificate.smallView tenantSpelling.encode with
    publicKey := .rsa Rsa.PrivateKey.ofMersenne.publicKey }

def tenantKey : Bytes :=
  let k := Rsa.PrivateKey.ofMersenne
  Der.wrap Der.Tag.sequence (encodeNatural 0 ++
    Der.AlgorithmIdentifier.encode ⟨rsaAlgorithm, some Der.nullElement⟩ ++
    Der.wrap Der.Tag.octetString (encodeNumbers [0, k.publicKey.modulus, k.publicKey.exponent,
      k.exponent, k.firstPrime, k.secondPrime, 0, 0, 0]))

def tenantFiles : FileTree where
  nodes := [(["ks"], .directory), (["ks", "tenant.crt"], .file tenantSpelling.encode),
    (["ks", "tenant.key"], .file tenantKey)]

def tenantStore : DirectoryStore := ⟨"ks"⟩

theorem isDirectory_tenantFiles : tenantFiles.isDirectory "ks" = true := by decide +kernel

theorem certificate_tenantStore :
    tenantStore.certificate tenantFiles "tenant" = .ok (some tenantCertificate) := by
  decide +kernel

theorem privateKey_tenantStore :
    tenantStore.privateKey tenantFiles "tenant" (Bytes.ofString "secret") =
      .ok (some (.rsa .ofMersenne)) := by
  decide +kernel

theorem aliases_tenantStore : tenantStore.aliases tenantFiles = .ok ["tenant"] := by
  decide +kernel

theorem tenantCertificate_isPairedWith : tenantCertificate.IsPairedWith (.rsa .ofMersenne) where
  publicKey := rfl
  inverts _ h := by
    cases h
    exact Rsa.PrivateKey.ofMersenne_inverts

def tenant : Session where
  config := { keyStoreDirectory := "ks", keyAlias := "tenant", keyPassword := "secret" }
  service := {
    resolver := { store := tenantStore.view tenantFiles, defaultAlias := "tenant",
                  defaultPassword := "secret" }
    providers := Table.empty.insert KeyStoreProvider.type (KeyStoreProvider.view
      ⟨{ store := tenantStore.view tenantFiles, defaultAlias := "tenant",
         defaultPassword := "secret" }, KeyStoreProvider.tenant⟩)
    defaultProvider := KeyStoreProvider.type
    hybrid := true }

theorem ofConfig_tenant : ofConfig tenantFiles tenant.config = .ok tenant := by
  have hservice : tenant.config.service tenantFiles = .ok tenant.service :=
    Config.service_eq_ok.mpr ⟨tenantStore, if_pos isDirectory_tenantFiles, rfl⟩
  rw [ofConfig, hservice]

theorem holdsPair_tenant : tenant.service.resolver.HoldsPair "tenant" :=
  ⟨_, _, certificate_tenantStore, privateKey_tenantStore, tenantCertificate_isPairedWith⟩

theorem holdsAlone_tenant : tenant.service.resolver.HoldsAlone "tenant" := by
  rintro d b - ⟨c, hc, -⟩
  obtain ⟨aliases, hl, hb⟩ :=
    DirectoryStore.mem_aliases_of_lookup isDirectory_tenantFiles hc
  obtain rfl : ["tenant"] = aliases := Except.ok.inj (aliases_tenantStore.symm.trans hl)
  exact List.mem_singleton.mp hb

def tenantSurroundings : Surroundings where
  files := tenantFiles
  lookup := fun _ => none
  random := fun _ => 1
  now := ⟨0, 0⟩

def someone : Target := { owner := some "someone" }

def ownRequest : CipherRequest := { selfContained := true }

def partyRequest : CipherRequest := { target := someone }

def paddedPayload : String := " Bw=="

theorem decode_paddedPayload : Base64.decode paddedPayload = .ok [7] := by decide

theorem transformation_default :
    (({} : AlgorithmSpec).orDefault AlgorithmSpec.defaultAsymmetric).transformation =
      .ok .rsaPkcs1 := Transformation.parse_of_toList rfl

theorem exists_primitive_encrypt :
    ∃ c, Primitives.encrypt tenantSurroundings.random .rsaPkcs1 none
      (.certificate tenantCertificate) [7] = .ok c :=
  ⟨_, Primitives.encrypt_rsaPkcs1 rfl rfl (by decide +kernel) (by decide +kernel)⟩

theorem exists_encrypt_own :
    ∃ y, tenant.encrypt tenantFiles tenantSurroundings.random
      (ownRequest.withPayload paddedPayload) = .ok y := by
  obtain ⟨c, hprim⟩ := exists_primitive_encrypt
  have henc := KeyStoreProvider.encryptSelfContained_of_encrypt
    (k := ⟨tenant.service.resolver, KeyStoreProvider.tenant⟩) (s := {}) transformation_default rfl
    (List.cons_ne_nil _ _) certificate_tenantStore hprim
  obtain ⟨sealed, hsealed⟩ : ∃ sealed, tenant.service.encrypt tenantSurroundings.random [7]
      (tenant.descriptor ownRequest) = .ok sealed :=
    ⟨_, bind_eq_ok.mpr ⟨_, Service.provider_eq_ok.mpr rfl, henc⟩⟩
  exact ⟨_, (encrypt_own_eq_ok rfl).mpr ⟨[7], sealed, decode_paddedPayload, hsealed, rfl⟩⟩

theorem exists_encrypt_party :
    ∃ y, tenant.encrypt tenantFiles tenantSurroundings.random
      (partyRequest.withPayload paddedPayload) = .ok y := by
  obtain ⟨c, hprim⟩ := exists_primitive_encrypt
  have henc : tenant.service.encryptFor tenantSurroundings.random [7] {}
      (.ofOwner ⟨"someone"⟩) = .ok c :=
    bind_eq_ok.mpr ⟨_, Service.certificate_eq_ok.mpr certificate_tenantStore,
      Operations.encrypt_eq_ok.mpr ⟨.rsaPkcs1, transformation_default, hprim⟩⟩
  exact ⟨_, (encrypt_party_eq_ok rfl).mpr ⟨[7], _, c, decode_paddedPayload, rfl, henc, rfl⟩⟩

theorem exists_sealText :
    ∃ y, tenant.sealText tenantFiles tenantSurroundings.random
      { input := .inline paddedPayload, associatedText := some "", target := someone } =
        .ok y := by
  obtain ⟨o, ho⟩ : ∃ o, Hybrid.build tenant.service.resolver tenantSurroundings.random
      ⟨[7], some (Bytes.ofString "")⟩ { algorithm := "AES/GCM/NoPadding" } { algorithm := "RSA" }
      (.ofOwner ⟨"someone"⟩) = .ok o :=
    Hybrid.exists_build (Transformation.parse_of_toList (by decide))
      (Transformation.parse_of_toList (by decide)) rfl rfl
      (Resolver.certificate_eq_found.mpr certificate_tenantStore) rfl (by decide +kernel)
      (by decide +kernel)
  have hsealed : tenant.service.hybridEncrypt tenantSurroundings.random
      ⟨[7], some (Bytes.ofString "")⟩ { algorithm := "AES/GCM/NoPadding" } { algorithm := "RSA" }
      (.ofOwner ⟨"someone"⟩) = .ok o :=
    bind_eq_ok.mpr ⟨(), rfl, ho⟩
  exact ⟨_, sealText_eq_ok.mpr ⟨[7], _, o, decode_paddedPayload, rfl, hsealed, rfl⟩⟩

theorem exists_sign :
    ∃ y, tenant.sign tenantFiles (SignRequest.withPayload {} paddedPayload) = .ok y := by
  obtain ⟨signature, hsigned⟩ := Rsa.Pkcs1.exists_sign Rsa.PrivateKey.ofMersenne_inverts
    (a := .sha256) (by decide +kernel) [7]
  have hscheme : SignatureScheme.parse "SHA256withRSA" = .ok (.rsa .sha256) :=
    SignatureScheme.parse_of_toList (by decide)
  have h : tenant.service.sign [7] { algorithm := "SHA256withRSA" } (.ofOwner ⟨"local"⟩) =
      .ok signature :=
    bind_eq_ok.mpr ⟨_, Service.privateKey_eq_ok.mpr privateKey_tenantStore,
      Operations.finish_eq_ok.mpr
        (bind_eq_ok.mpr ⟨_, hscheme, Primitives.ofRsa_eq_ok.mpr hsigned⟩)⟩
  exact ⟨_, sign_eq_ok.mpr ⟨[7], _, signature, decode_paddedPayload, rfl, h, rfl⟩⟩

/-- A ciphertext for the service itself and one for a party, a hybrid record and a signature. -/
theorem inverse_pairs_tenant :
    (∃ y, tenant.encrypt tenantFiles tenantSurroundings.random
        (ownRequest.withPayload paddedPayload) = .ok y ∧
      tenant.decrypt tenantFiles (ownRequest.withPayload y) = .ok "Bw==") ∧
    (∃ y, tenant.encrypt tenantFiles tenantSurroundings.random
        (partyRequest.withPayload paddedPayload) = .ok y ∧
      tenant.decrypt tenantFiles (partyRequest.withPayload y) = .ok "Bw==") ∧
    (∃ y, tenant.sealText tenantFiles tenantSurroundings.random
        { input := .inline paddedPayload, associatedText := some "", target := someone } = .ok y ∧
      tenant.openText tenantFiles { envelope := .inline y, target := someone } = .ok "Bw==") ∧
    ∃ y, tenant.sign tenantFiles (SignRequest.withPayload {} paddedPayload) = .ok y ∧
      (tenant.run tenantSurroundings
        (.verify { SignRequest.withPayload {} paddedPayload with signature := y })).exit = 0 := by
  have hpairs (y : String) :=
    inverse_pairs ofConfig_tenant tenantSurroundings tenantSurroundings paddedPayload y
  obtain ⟨own, hown⟩ := exists_encrypt_own
  obtain ⟨party, hparty⟩ := exists_encrypt_party
  obtain ⟨record, hrecord⟩ := exists_sealText
  obtain ⟨signature, hsignature⟩ := exists_sign
  refine ⟨⟨own, hown, ?_⟩, ⟨party, hparty, ?_⟩, ⟨record, hrecord, ?_⟩, ⟨signature, hsignature, ?_⟩⟩
  · refine (hpairs own).1 ownRequest ?_ (fun _ _ => holdsAlone_tenant) hown
    rintro a (⟨hset, -⟩ | -)
    · cases hset
    · exact holdsPair_tenant
  · refine (hpairs party).1 partyRequest ?_ nofun hparty
    rintro a (⟨-, hc⟩ | ⟨hset, -, -⟩)
    · cases hc
      exact holdsPair_tenant
    · cases hset
  · refine (hpairs record).2.1 someone {} (some "") ?_ hrecord
    rintro c ⟨⟩
    exact holdsPair_tenant
  · refine ((hpairs signature).2.2 {} ?_ ?_ hsignature).2
    · rintro c ⟨⟩
      exact holdsPair_tenant
    · rintro c key data ⟨⟩ hkey -
      rw [Service.privateKey_eq_ok] at hkey
      cases privateKey_tenantStore.symm.trans hkey

end Session

end CommandLine

end Strongbox
