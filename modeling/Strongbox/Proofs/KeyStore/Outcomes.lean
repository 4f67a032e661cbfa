/-
  Strongbox.Proofs.KeyStore.Outcomes — which error a caller sees for what a store answers.

  The two stores answer a question for a material in five ways (`Answer`): with the material, with
  none, that the alias is none of theirs, that the password is wrong, or with another failure. A
  resolver asks a second time when there is none, and what it says then is required by each
  operation in its own words. Every answer keeps its own kind of error on the way.
  - `ShippedStore.answer_lookup`: what the stores can answer.
  - `Service.store_outcomes`: which error comes of which answer, and that each operation for a
    context ends with it.
-/

import Strongbox.Proofs.KeyStore.Interchange
import Strongbox.Service

namespace Strongbox

open Outcome
open DirectoryStore (Kind)

/-- The failures of a store that neither the alias nor the password accounts for. -/
def StoreError.IsFailure : StoreError → Prop
  | unavailable _ | corrupt _ _ | inputOutput _ => True
  | invalidAlias _ | wrongPassword _ => False

theorem StoreError.IsFailure.ne_wrongPassword {e : StoreError} (h : e.IsFailure) (a : String) :
    e ≠ .wrongPassword a := by
  rintro rfl
  exact h

/-! ## The kinds of material -/

namespace DirectoryStore.Kind

def Value : Kind → Type
  | certificate => Certificate
  | privateKey => PrivateKey
  | secretKey => SecretKey

def noun : Kind → String
  | certificate => "certificate"
  | privateKey => "private key"
  | secretKey => "secret key"

def absence : Kind → NotFoundReason
  | certificate => .noCertificate
  | privateKey => .noPrivateKey
  | secretKey => .noSecretKey

def unresolved (k : Kind) (a : String) (reason : NotFoundReason) : String :=
  "cannot resolve " ++ k.noun ++ " for '" ++ a ++ "': " ++ reason.message

def denial (k : Kind) (a : String) : String :=
  "access to " ++ k.noun ++ " for '" ++ a ++ "' denied: " ++ (StoreError.wrongPassword a).message

def unread (k : Kind) (a store : String) : String :=
  "failed to read " ++ k.noun ++ " '" ++ a ++ "' from " ++ store

end DirectoryStore.Kind

namespace Resolver

def lookup (r : Resolver) (a : String) : (k : Kind) → Except StoreError (Option k.Value)
  | .certificate => r.store.certificate a
  | .privateKey => r.store.privateKey a (r.passwordFor a)
  | .secretKey => r.store.secretKey a

def resolve (r : Resolver) (c : CryptoContext) :
    (k : Kind) → Except ServiceError (Resolution k.Value)
  | .certificate => r.certificate c
  | .privateKey => r.privateKey c
  | .secretKey => r.secretKey c

/-- The material of a context, or the error that a caller sees. -/
def demand (r : Resolver) (c : CryptoContext) (k : Kind) : Except ServiceError k.Value := do
  (← r.resolve c k).require k.noun

variable {r : Resolver} {c : CryptoContext} {k : Kind}

/-- Apart from a wrong password, every kind is resolved in one way. -/
theorem resolve_eq (h : ∀ b, r.lookup (r.aliasFor c) k ≠ .error (.wrongPassword b)) :
    r.resolve c k = r.ofLookup (r.aliasFor c) k.noun k.absence (r.lookup (r.aliasFor c) k) := by
  cases k with
  | certificate => rfl
  | secretKey => rfl
  | privateKey =>
    show r.privateKey c = _
    rw [privateKey]
    split
    · rename_i w hw
      exact absurd hw (h w)
    · rfl

theorem demand_of_found {v : k.Value} (h : r.lookup (r.aliasFor c) k = .ok (some v)) :
    r.demand c k = .ok v := by
  rw [demand, resolve_eq (by rw [h]; exact nofun), h]
  rfl

theorem demand_of_none {b : Bool} (h : r.lookup (r.aliasFor c) k = .ok none)
    (hb : r.store.contains (r.aliasFor c) = .ok b) :
    r.demand c k = .error (.keyResolution
      (k.unresolved (r.aliasFor c) (if b then k.absence else .missingAlias))) := by
  have hm : (r.missing (r.aliasFor c) k.absence : Except _ (Resolution k.Value)) = _ :=
    missing_of_contains hb k.absence
  rw [demand, resolve_eq (by rw [h]; exact nofun), h, ofLookup, hm]
  rfl

theorem demand_of_refused {b : String} (h : r.lookup (r.aliasFor c) k = .error (.invalidAlias b)) :
    r.demand c k = .error (.keyResolution (k.unresolved (r.aliasFor c) .missingAlias)) := by
  rw [demand, resolve_eq (by rw [h]; exact nofun), h]
  rfl

theorem demand_of_denied
    (h : r.lookup (r.aliasFor c) .privateKey = .error (.wrongPassword (r.aliasFor c))) :
    r.demand c .privateKey =
      .error (.keyStoreAccess (Kind.privateKey.denial (r.aliasFor c)) none) := by
  have hr : r.resolve c .privateKey =
      .ok (.accessDenied (r.aliasFor c) (StoreError.wrongPassword (r.aliasFor c)).message) := by
    have hk : r.store.privateKey (r.aliasFor c) (r.passwordFor (r.aliasFor c)) =
        .error (.wrongPassword (r.aliasFor c)) := h
    show r.privateKey c = _
    rw [privateKey, hk]
    rfl
  rw [demand, hr]
  rfl

theorem demand_of_failure {e : StoreError} (he : e.IsFailure)
    (h : r.lookup (r.aliasFor c) k = .error e) :
    r.demand c k = .error (.keyStoreAccess (k.unread (r.aliasFor c) r.store.name)
      (some (.store e))) := by
  have hw : ∀ b, r.lookup (r.aliasFor c) k ≠ .error (.wrongPassword b) := by
    rintro b hb
    rw [h] at hb
    exact he.ne_wrongPassword b (Except.error.inj hb)
  rw [demand, resolve_eq hw, h]
  cases e with
  | invalidAlias => exact he.elim
  | wrongPassword => exact he.elim
  | _ => rfl

end Resolver

/-! ## What the stores answer -/

inductive ShippedStore where
  | memory (entries : MemoryStore)
  | directory (files : FileTree) (store : DirectoryStore)

namespace ShippedStore

def view : ShippedStore → KeyStore
  | memory m => m.view
  | directory files d => d.view files

/-- The alias is one that the store cannot hold anything under. -/
def Refuses : ShippedStore → String → Prop
  | memory _, _ => False
  | directory _ _, a => DirectoryStore.isAlias a = false

/-- What a store can answer for a material under an alias. Where there is none, the store says
whether the alias holds something else. -/
inductive Answer (s : ShippedStore) (a : String) (k : Kind) :
    Except StoreError (Option k.Value) → Prop where
  | found (v : k.Value) : ¬ s.Refuses a → Answer s a k (.ok (some v))
  | none (b : Bool) : ¬ s.Refuses a → s.view.contains a = .ok b → Answer s a k (.ok none)
  | refused : s.Refuses a → Answer s a k (.error (.invalidAlias a))
  | denied : ¬ s.Refuses a → k = .privateKey → Answer s a k (.error (.wrongPassword a))
  | failed (e : StoreError) : ¬ s.Refuses a → e.IsFailure → Answer s a k (.error e)

end ShippedStore

theorem Certificate.ofBytes_ne_wrongPassword (b : Bytes) : ofBytes b ≠ .error .wrongPassword := by
  have hinfo (i : PublicKeyInfo) : PublicKey.ofInfo i ≠ .error .wrongPassword := by
    rw [PublicKey.ofInfo]
    split <;> exact nofun
  have hparsed (c : X509.Certificate) (e : Bytes) : ofParsed c e ≠ .error .wrongPassword := by
    intro h
    cases hk : PublicKey.ofInfo c.body.publicKey with
    | ok k =>
      rw [ofParsed, bind_of_ok hk] at h
      cases h
    | error x =>
      rw [ofParsed, hk] at h
      cases h
      exact hinfo _ hk
  rw [ofBytes]
  split
  · rw [ofPem]
    split
    · exact hparsed _ _
    · exact nofun
  · rw [ofDer]
    split
    · exact hparsed _ _
    · exact nofun

theorem SecretKey.ofHex_ne_wrongPassword (text : String) : ofHex text ≠ .error .wrongPassword := by
  rw [ofHex]
  split
  · rw [make]
    split <;> exact nofun
  · exact nofun

namespace DirectoryStore

variable {files : FileTree} {d : DirectoryStore} {a : String} {k : Kind}

/-- An entry that is read as no value is corrupt, unless its password is wrong. -/
theorem decoded_eq_error {r : Except KeyDecodeError α} {e : StoreError}
    (h : decoded a r = .error e) :
    (∃ reason, e = .corrupt a reason) ∨ r = .error .wrongPassword ∧ e = .wrongPassword a := by
  match r with
  | .ok v => cases h
  | .error .wrongPassword =>
    cases h
    exact .inr ⟨rfl, rfl⟩
  | .error (.malformed reason) =>
    cases h
    exact .inl ⟨reason, rfl⟩

theorem decoded_ne_none (a : String) (r : Except KeyDecodeError α) : decoded a r ≠ .ok none := by
  match r with
  | .ok v => exact nofun
  | .error .wrongPassword => exact nofun
  | .error (.malformed reason) => exact nofun

def material (files : FileTree) (d : DirectoryStore) (a : String) (password : Bytes) :
    (k : Kind) → Except StoreError (Option k.Value)
  | .certificate => d.certificate files a
  | .privateKey => d.privateKey files a password
  | .secretKey => d.secretKey files a

theorem lookup_over_view (r : Resolver) (a : String) (k : Kind) :
    (r.over (d.view files)).lookup a k = d.material files a (r.passwordFor a) k := by
  cases k <;> rfl

/-- Each kind is looked up with a decoding of its own, which makes a value or an error of any
octets; only a private key has a password. -/
theorem exists_decode (files : FileTree) (d : DirectoryStore) (a : String) (password : Bytes)
    (k : Kind) :
    ∃ decode : Bytes → Except StoreError (Option k.Value),
      d.material files a password k = d.lookup files a k decode ∧ (∀ b, decode b ≠ .ok none) ∧
        ∀ b e, decode b = .error e →
          (∃ reason, e = .corrupt a reason) ∨ k = .privateKey ∧ e = .wrongPassword a := by
  cases k with
  | certificate =>
    refine ⟨_, certificate_eq_lookup, fun b => decoded_ne_none _ _, fun b e h => ?_⟩
    obtain hc | ⟨hw, -⟩ := decoded_eq_error h
    · exact .inl hc
    · exact absurd hw (Certificate.ofBytes_ne_wrongPassword b)
  | privateKey =>
    refine ⟨_, privateKey_eq_lookup _, fun b => decoded_ne_none _ _, fun b e h => ?_⟩
    obtain hc | ⟨-, he⟩ := decoded_eq_error h
    · exact .inl hc
    · exact .inr ⟨rfl, he⟩
  | secretKey =>
    refine ⟨_, secretKey_eq_lookup, fun b => ?_, fun b e h => ?_⟩
    · split
      · exact nofun
      · exact decoded_ne_none _ _
    · split at h
      · cases h
        exact .inl ⟨_, rfl⟩
      · obtain hc | ⟨hw, -⟩ := decoded_eq_error h
        · exact .inl hc
        · exact absurd hw (SecretKey.ofHex_ne_wrongPassword _)

/-- Under an alias of its own a directory finds nothing, cannot read, or decodes some octets. -/
theorem lookup_of_isAlias (h : isAlias a = true) (decode : Bytes → Except StoreError (Option α)) :
    d.lookup files a k decode = .ok none ∨
      (∃ m, d.lookup files a k decode = .error (.inputOutput m)) ∨
        ∃ b, d.lookup files a k decode = decode b := by
  cases hread : files.read (d.filePath a k) with
  | ok b => exact .inr (.inr ⟨b, lookup_of_file h hread⟩)
  | error e =>
    by_cases he : e = .notFound
    · subst he
      exact .inl (lookup_of_notFound h hread)
    · exact .inr (.inl ⟨_, lookup_of_unreadable h he hread⟩)

end DirectoryStore

namespace ShippedStore

variable {s : ShippedStore} {a : String} {k : Kind}

theorem answer_memory (m : MemoryStore) (r : Resolver) (a : String) (k : Kind) :
    (memory m).Answer a k ((r.over m.view).lookup a k) := by
  have hsome {v : Option k.Value} : (memory m).Answer a k (.ok v) := by
    cases v with
    | none => exact .none _ id rfl
    | some v => exact .found v id
  cases k with
  | certificate => exact hsome
  | secretKey => exact hsome
  | privateKey =>
    show (memory m).Answer a .privateKey (m.openKey a (r.passwordFor a))
    rw [MemoryStore.openKey]
    split
    · exact hsome
    · split
      · exact hsome
      · exact .denied id rfl

theorem answer_directory (files : FileTree) (d : DirectoryStore) (r : Resolver) (a : String)
    (k : Kind) : (directory files d).Answer a k ((r.over (d.view files)).lookup a k) := by
  obtain ⟨decode, hl, -, herror⟩ := DirectoryStore.exists_decode files d a (r.passwordFor a) k
  rw [DirectoryStore.lookup_over_view, hl]
  cases ha : DirectoryStore.isAlias a with
  | false =>
    rw [DirectoryStore.lookup_of_not_isAlias ha]
    exact .refused ha
  | true =>
    have hr : ¬ (directory files d).Refuses a := by
      show ¬ DirectoryStore.isAlias a = false
      rw [ha]
      exact nofun
    have hcontains : d.contains files a = .ok _ := DirectoryStore.contains_of_isAlias ha
    have hlookup : d.lookup files a k decode = .ok none ∨ _ :=
      DirectoryStore.lookup_of_isAlias ha decode
    obtain h | ⟨m, h⟩ | ⟨b, h⟩ := hlookup
    · rw [h]
      exact .none _ hr hcontains
    · rw [h]
      exact .failed _ hr trivial
    · rw [h]
      cases hd : decode b with
      | ok v =>
        cases v with
        | none => exact .none _ hr hcontains
        | some v => exact .found v hr
      | error e =>
        obtain ⟨reason, rfl⟩ | ⟨hk, rfl⟩ := herror b e hd
        · exact .failed _ hr trivial
        · exact .denied hr hk

theorem answer_lookup (s : ShippedStore) (r : Resolver) (a : String) (k : Kind) :
    s.Answer a k ((r.over s.view).lookup a k) := by
  cases s with
  | memory m => exact answer_memory m r a k
  | directory files d => exact answer_directory files d r a k

/-! ## Errors -/

def Reason (s : ShippedStore) (a : String) (k : Kind) (reason : NotFoundReason) : Prop :=
  (s.Refuses a ∨ s.view.contains a = .ok false) ∧ reason = .missingAlias ∨
    ¬ (s.Refuses a ∨ s.view.contains a = .ok false) ∧ reason = k.absence

structure Exact (s : ShippedStore) (r : Resolver) (c : CryptoContext) (k : Kind) : Prop where
  found : ∀ v, r.demand c k = .ok v ↔ r.lookup (r.aliasFor c) k = .ok (some v)
  unresolved : ∀ m, r.demand c k = .error (.keyResolution m) ↔
    (r.lookup (r.aliasFor c) k = .ok none ∨ s.Refuses (r.aliasFor c)) ∧
      ∃ reason, s.Reason (r.aliasFor c) k reason ∧ m = k.unresolved (r.aliasFor c) reason
  denied : ∀ m, r.demand c k = .error (.keyStoreAccess m none) ↔
    r.lookup (r.aliasFor c) k = .error (.wrongPassword (r.aliasFor c)) ∧
      m = k.denial (r.aliasFor c)
  failed : ∀ m cause, r.demand c k = .error (.keyStoreAccess m (some cause)) ↔
    ∃ e, r.lookup (r.aliasFor c) k = .error e ∧ e.IsFailure ∧ cause = .store e ∧
      m = k.unread (r.aliasFor c) s.view.name

theorem reason_of_refuses (hr : s.Refuses a) {reason : NotFoundReason} :
    s.Reason a k reason ↔ reason = .missingAlias := by
  simp [Reason, hr]

theorem reason_of_contains {b : Bool} (hr : ¬ s.Refuses a) (hb : s.view.contains a = .ok b)
    {reason : NotFoundReason} :
    s.Reason a k reason ↔ reason = if b then k.absence else .missingAlias := by
  cases b <;> simp [Reason, hr, hb]

/-- Every answer comes to its own outcome. -/
theorem exact_over (s : ShippedStore) (r : Resolver) (c : CryptoContext) (k : Kind) :
    s.Exact (r.over s.view) c k := by
  have answer := answer_lookup s r ((r.over s.view).aliasFor c) k
  generalize hl : (r.over s.view).lookup ((r.over s.view).aliasFor c) k = x at answer
  cases answer with
  | found v hr =>
    have hd := Resolver.demand_of_found hl
    constructor <;> simp [hd, hl, hr]
  | none b hr hb =>
    have hd := Resolver.demand_of_none hl hb
    constructor <;> simp [hd, hl, reason_of_contains hr hb, eq_comm]
  | refused hr =>
    have hd := Resolver.demand_of_refused hl
    constructor <;> simp [hd, hl, hr, reason_of_refuses hr, StoreError.IsFailure, eq_comm]
  | denied hr hk =>
    subst hk
    have hd := Resolver.demand_of_denied hl
    constructor <;> simp [hd, hl, hr, StoreError.IsFailure, eq_comm]
  | failed e hr he =>
    have hd := Resolver.demand_of_failure he hl
    have hw := he.ne_wrongPassword ((r.over s.view).aliasFor c)
    have hn : (r.over s.view).store.name = s.view.name := rfl
    constructor <;> simp [hd, hl, hr, he, hw, hn, and_comm, eq_comm]

end ShippedStore

/-! ## Operations for a context -/

def Service.over (sv : Service) (store : KeyStore) : Service :=
  { sv with resolver := sv.resolver.over store }

namespace Service

/-- The error of a material that an operation needs is the error of the operation, whatever it is
to work on. -/
structure Surfaces (sv : Service) (c : CryptoContext) : Prop where
  privateKey : ∀ e, sv.resolver.demand c .privateKey = .error e → ∀ data spec,
    sv.sign data spec c = .error e ∧ sv.decryptFrom data spec c = .error e
  certificate : ∀ e, sv.resolver.demand c .certificate = .error e → sv.certificate c = .error e ∧
    ∀ random data signature spec, sv.verify data signature spec c = .error e ∧
      sv.encryptFor random data spec c = .error e

theorem surfaces (sv : Service) (c : CryptoContext) : sv.Surfaces c := by
  constructor
  · intro e h data spec
    have hk : sv.privateKey c = .error e := h
    rw [sign, decryptFrom, hk]
    exact ⟨rfl, rfl⟩
  · intro e h
    have hc : sv.certificate c = .error e := h
    refine ⟨hc, fun random data signature spec => ?_⟩
    rw [verify, encryptFor, hc]
    exact ⟨rfl, rfl⟩

/-- Each answer of a store has its own outcome, and where that is an error, it is the one that
the operations for the context end with. -/
theorem store_outcomes (s : ShippedStore) (sv : Service) (c : CryptoContext) :
    (∀ k, s.Exact (sv.over s.view).resolver c k) ∧ (sv.over s.view).Surfaces c :=
  ⟨fun k => s.exact_over sv.resolver c k, (sv.over s.view).surfaces c⟩

end Service

end Strongbox
