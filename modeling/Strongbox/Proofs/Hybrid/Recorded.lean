/-
  Strongbox.Proofs.Hybrid.Recorded — a record is opened with the algorithms that it names.

  Both names that are asked for are compared with the recorded ones before a key is looked for.
  This is the only refusal there is: whatever fails behind it is a failure of the store, of the
  look-up or of a primitive. Names that agree stand for one transformation, so a record of any
  origin is opened by the transformations it names, or not at all.
  - `openRecord_as_recorded`: when opening is refused, how else it fails, and what it gives.
-/

import Strongbox.Proofs.Hybrid.RoundTrip

namespace Strongbox

open Outcome

/-! ## Failures behind the names -/

def ServiceError.IsOfKeys : ServiceError → Prop
  | keyResolution _ | keyStoreAccess _ _ | cryptoOperation _ _ => True
  | _ => False

theorem Resolution.failsAs_require (r : Resolution α) (what : String) :
    FailsAs ServiceError.IsOfKeys (r.require what) := by
  cases r with
  | found v => exact failsAs_ok v
  | notFound a reason => exact failsAs_error.mpr trivial
  | accessDenied a reason => exact failsAs_error.mpr trivial

namespace Resolver

variable (r : Resolver)

theorem failsAs_lookupFailed (a what : String) (e : StoreError) :
    FailsAs ServiceError.IsOfKeys (r.lookupFailed a what e : Except _ (Resolution α)) := by
  cases e with
  | invalidAlias b => exact failsAs_ok _
  | _ => exact failsAs_error.mpr trivial

theorem failsAs_missing (a : String) (reason : NotFoundReason) :
    FailsAs ServiceError.IsOfKeys (r.missing a reason : Except _ (Resolution α)) := by
  rw [missing]
  cases r.store.contains a with
  | ok b => cases b <;> exact failsAs_ok _
  | error e => exact r.failsAs_lookupFailed a "entry" e

theorem failsAs_ofLookup (a what : String) (reason : NotFoundReason)
    (answer : Except StoreError (Option α)) :
    FailsAs ServiceError.IsOfKeys (r.ofLookup a what reason answer) := by
  match answer with
  | .ok (some v) => exact failsAs_ok _
  | .ok none => exact r.failsAs_missing a reason
  | .error e => exact r.failsAs_lookupFailed a what e

theorem failsAs_privateKey (c : CryptoContext) :
    FailsAs ServiceError.IsOfKeys (r.privateKey c) := by
  rw [privateKey_eq]
  unfold ofKeyLookup
  split
  · exact failsAs_ok _
  · exact r.failsAs_ofLookup _ _ _ _

end Resolver

theorem Operations.failsAs_finish (a : Activity) (s : AlgorithmSpec)
    (x : Except PrimitiveError α) : FailsAs ServiceError.IsOfKeys (finish a s x) := by
  intro e h
  obtain ⟨cause, -, rfl⟩ := finish_eq_error.mp h
  trivial

namespace Hybrid

/-! ## Names that agree -/

/-- The name that is asked for, or the default for a blank one, is the recorded name, the case of
ASCII letters and the blanks around both apart. -/
def Agrees (requested : AlgorithmSpec) (default recorded : String) : Prop :=
  (Text.trim (requested.orDefault default).algorithm).toLower = (Text.trim recorded).toLower

def Output.HasSymmetric (o : Output) (s : AlgorithmSpec) : Prop :=
  Agrees s AlgorithmSpec.defaultSymmetric o.symmetricAlgorithm

def Output.HasAsymmetric (o : Output) (a : AlgorithmSpec) : Prop :=
  Agrees a AlgorithmSpec.defaultAsymmetric o.asymmetricAlgorithm

def disagreement (role : String) (requested : AlgorithmSpec) (recorded : String) : String :=
  role ++ " algorithm '" ++ requested.algorithm ++ "' does not match the envelope's '" ++ recorded
    ++ "'"

theorem checkRecorded_of_agrees {requested : AlgorithmSpec} {default recorded : String}
    (role : String) (h : Agrees requested default recorded) :
    checkRecorded role (requested.orDefault default) recorded = .ok () :=
  checkRecorded_eq_ok.mpr (Text.sameLetters_iff.mpr h)

theorem checkRecorded_of_not_agrees {requested : AlgorithmSpec} {default recorded : String}
    (role : String) (h : ¬ Agrees requested default recorded) :
    checkRecorded role (requested.orDefault default) recorded =
      .error (.validation (disagreement role (requested.orDefault default) recorded)) := by
  rw [checkRecorded, if_neg fun hs => h (Text.sameLetters_iff.mp hs), disagreement]

theorem Agrees.transformation_eq_ok {requested : AlgorithmSpec} {default recorded : String}
    (h : Agrees requested default recorded) {t : Transformation} :
    (requested.orDefault default).transformation = .ok t ↔
      Transformation.parse recorded = .ok t := by
  constructor
  · exact Transformation.parse_of_sameLetters (Text.sameLetters_iff.mpr h)
  · exact Transformation.parse_of_sameLetters (Text.sameLetters_iff.mpr h.symm)

/-! ## Behind the comparison -/

def openAgreed (r : Resolver) (o : Output) (symmetric asymmetric : AlgorithmSpec)
    (c : CryptoContext) : Except ServiceError Bytes := do
  let privateKey ← (← r.privateKey c).require "private key"
  let octets ← Operations.decrypt o.wrappedKey (.privateKey privateKey) asymmetric
  let key ← (SecretKey.make octets).mapError fun e =>
    ServiceError.cryptoOperation "unwrapped data key is not a valid AES key" (some (.keyDecode e))
  Operations.openText o.ciphertext key o.nonce (o.associatedData.getD []) symmetric

/-- The private key of the context gives the data key back by the transformation, and the data
key the text by AES-GCM. -/
def Unwraps (r : Resolver) (o : Output) (symmetric asymmetric : Option String) (c : CryptoContext)
    (t : Transformation) (text : Bytes) : Prop :=
  ∃ k, r.privateKey c = .ok (.found k) ∧ ∃ key : SecretKey,
    Primitives.decrypt t asymmetric (.privateKey k) o.wrappedKey = .ok key.octets ∧
      Primitives.openText symmetric key o.nonce o.ciphertext (o.associatedData.getD []) = .ok text

variable {r : Resolver} {o : Output} {s a : AlgorithmSpec} {c : CryptoContext}

theorem openRecord_eq (r : Resolver) (o : Output) (s a : AlgorithmSpec) (c : CryptoContext) :
    openRecord r o s a c =
      (checkRecorded "symmetric" (s.orDefault AlgorithmSpec.defaultSymmetric)
        o.symmetricAlgorithm >>= fun _ =>
      checkRecorded "asymmetric" (a.orDefault AlgorithmSpec.defaultAsymmetric)
        o.asymmetricAlgorithm >>= fun _ =>
      openAgreed r o (s.orDefault AlgorithmSpec.defaultSymmetric)
        (a.orDefault AlgorithmSpec.defaultAsymmetric) c) := rfl

theorem openRecord_of_agrees (hs : o.HasSymmetric s) (ha : o.HasAsymmetric a) :
    openRecord r o s a c = openAgreed r o (s.orDefault AlgorithmSpec.defaultSymmetric)
      (a.orDefault AlgorithmSpec.defaultAsymmetric) c := by
  rw [openRecord_eq, bind_of_ok (checkRecorded_of_agrees _ hs),
    bind_of_ok (checkRecorded_of_agrees _ ha)]

theorem failsAs_openAgreed (r : Resolver) (o : Output) (s a : AlgorithmSpec) (c : CryptoContext) :
    FailsAs ServiceError.IsOfKeys (openAgreed r o s a c) := by
  refine (r.failsAs_privateKey c).bind fun found => (found.failsAs_require _).bind fun k => ?_
  refine (Operations.failsAs_finish _ _ _).bind fun octets => FailsAs.bind ?_ fun key => ?_
  · cases SecretKey.make octets with
    | ok key => exact failsAs_ok key
    | error e => exact failsAs_error.mpr trivial
  · exact Operations.failsAs_finish _ _ _

theorem openAgreed_eq_ok {text : Bytes} :
    openAgreed r o (s.orDefault AlgorithmSpec.defaultSymmetric)
        (a.orDefault AlgorithmSpec.defaultAsymmetric) c = .ok text ↔
      (s.orDefault AlgorithmSpec.defaultSymmetric).transformation = .ok .aesGcm ∧
        ∃ t, (a.orDefault AlgorithmSpec.defaultAsymmetric).transformation = .ok t ∧
          Unwraps r o s.provider a.provider c t text := by
  rw [openAgreed, Resolution.require_bind_eq_ok]
  constructor
  · rintro ⟨k, hk, h⟩
    obtain ⟨octets, hd, h⟩ := bind_eq_ok.mp h
    obtain ⟨key, hmake, ho⟩ := bind_eq_ok.mp h
    obtain ⟨-, rfl⟩ := SecretKey.make_eq_ok.mp (mapError_eq_ok.mp hmake)
    obtain ⟨t, ht, hd⟩ := Operations.decrypt_eq_ok.mp hd
    rw [AlgorithmSpec.orDefault_orDefault (by decide)] at ht
    obtain ⟨hg, ho⟩ := Operations.openText_eq_ok.mp ho
    rw [AlgorithmSpec.provider_orDefault] at hd ho
    exact ⟨hg, t, ht, k, hk, key, hd, ho⟩
  · rintro ⟨hg, t, ht, k, hk, key, hd, ho⟩
    obtain ⟨-, -, hsize, -⟩ := Primitives.openText_eq_ok.mp ho
    refine ⟨k, hk, bind_eq_ok.mpr ⟨key.octets, ?_, bind_eq_ok.mpr ⟨key, ?_, ?_⟩⟩⟩
    · refine Operations.decrypt_eq_ok.mpr ⟨t, ?_, ?_⟩
      · rw [AlgorithmSpec.orDefault_orDefault (by decide), ht]
      · rw [AlgorithmSpec.provider_orDefault, hd]
    · exact mapError_eq_ok.mpr (SecretKey.make_eq_ok.mpr ⟨hsize, rfl⟩)
    · refine Operations.openText_eq_ok.mpr ⟨hg, ?_⟩
      rw [AlgorithmSpec.provider_orDefault, ho]

/-! ## Opening a record -/

theorem openRecord_of_other_symmetric (h : ¬ o.HasSymmetric s) :
    openRecord r o s a c = .error (.validation (disagreement "symmetric"
      (s.orDefault AlgorithmSpec.defaultSymmetric) o.symmetricAlgorithm)) := by
  rw [openRecord_eq, checkRecorded_of_not_agrees _ h]
  rfl

theorem openRecord_of_other_asymmetric (hs : o.HasSymmetric s) (ha : ¬ o.HasAsymmetric a) :
    openRecord r o s a c = .error (.validation (disagreement "asymmetric"
      (a.orDefault AlgorithmSpec.defaultAsymmetric) o.asymmetricAlgorithm)) := by
  rw [openRecord_eq, bind_of_ok (checkRecorded_of_agrees _ hs), checkRecorded_of_not_agrees _ ha]
  rfl

/-- A record that is opened has the names that are asked for. -/
theorem hasNames_of_openRecord {text : Bytes} (h : openRecord r o s a c = .ok text) :
    o.HasSymmetric s ∧ o.HasAsymmetric a := by
  by_cases hs : o.HasSymmetric s
  · refine ⟨hs, Classical.byContradiction fun ha => ?_⟩
    rw [openRecord_of_other_asymmetric hs ha] at h
    cases h
  · rw [openRecord_of_other_symmetric hs] at h
    cases h

structure AsRecorded (r : Resolver) (o : Output) (s a : AlgorithmSpec) (c : CryptoContext) :
    Prop where
  /-- It is refused exactly when a name does not agree. -/
  refused : (∃ reason, openRecord r o s a c = .error (.validation reason)) ↔
    ¬ (o.HasSymmetric s ∧ o.HasAsymmetric a)
  /-- The refusal is about the symmetric name first. -/
  symmetric : ¬ o.HasSymmetric s →
    openRecord r o s a c = .error (.validation (disagreement "symmetric"
      (s.orDefault AlgorithmSpec.defaultSymmetric) o.symmetricAlgorithm))
  asymmetric : o.HasSymmetric s → ¬ o.HasAsymmetric a →
    openRecord r o s a c = .error (.validation (disagreement "asymmetric"
      (a.orDefault AlgorithmSpec.defaultAsymmetric) o.asymmetricAlgorithm))
  /-- Any other failure is one behind the names. -/
  failed : o.HasSymmetric s → o.HasAsymmetric a →
    FailsAs ServiceError.IsOfKeys (openRecord r o s a c)
  /-- It gives what the recorded transformations give: AES-GCM under the data key, and for the
  data key another one, which has a key pair. -/
  opened : ∀ text, openRecord r o s a c = .ok text ↔
    o.HasSymmetric s ∧ o.HasAsymmetric a ∧
      Transformation.parse o.symmetricAlgorithm = .ok .aesGcm ∧
      ∃ t, Transformation.parse o.asymmetricAlgorithm = .ok t ∧ t.isSymmetric = false ∧
        Unwraps r o s.provider a.provider c t text

/-- A record is opened with the transformations that it names, and refused exactly when others are
asked for, whatever the context, the store and its keys are. -/
theorem openRecord_as_recorded (r : Resolver) (o : Output) (s a : AlgorithmSpec)
    (c : CryptoContext) : AsRecorded r o s a c := by
  have hfail (hs : o.HasSymmetric s) (ha : o.HasAsymmetric a) :
      FailsAs ServiceError.IsOfKeys (openRecord r o s a c) := by
    rw [openRecord_of_agrees hs ha]
    exact failsAs_openAgreed r o _ _ c
  constructor
  case refused =>
    constructor
    · rintro ⟨reason, h⟩ ⟨hs, ha⟩
      exact hfail hs ha _ h
    · intro h
      by_cases hs : o.HasSymmetric s
      · exact ⟨_, openRecord_of_other_asymmetric hs fun ha => h ⟨hs, ha⟩⟩
      · exact ⟨_, openRecord_of_other_symmetric hs⟩
  case symmetric => exact openRecord_of_other_symmetric
  case asymmetric => exact openRecord_of_other_asymmetric
  case failed => exact hfail
  case opened =>
    intro text
    constructor
    · intro h
      obtain ⟨hs, ha⟩ := hasNames_of_openRecord h
      rw [openRecord_of_agrees hs ha] at h
      obtain ⟨hg, t, ht, hu⟩ := openAgreed_eq_ok.mp h
      obtain ⟨k, -, key, hd, -⟩ := id hu
      exact ⟨hs, ha, hs.transformation_eq_ok.mp hg, t, ha.transformation_eq_ok.mp ht,
        Primitives.isSymmetric_of_decrypt_privateKey hd, hu⟩
    · rintro ⟨hs, ha, hg, t, ht, -, hu⟩
      rw [openRecord_of_agrees hs ha]
      exact openAgreed_eq_ok.mpr
        ⟨hs.transformation_eq_ok.mpr hg, t, ha.transformation_eq_ok.mpr ht, hu⟩

end Hybrid

end Strongbox
