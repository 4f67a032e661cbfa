/-
  Strongbox.Proofs.Operations.Verification — the answers of verifying a signature.

  Verifying refuses what cannot be checked: a name without a scheme, a foreign provider, a key of
  another kind and a signature of another size than the key's. Everything else gets an answer, and
  it is yes where the scheme accepts the signature. A signature that the scheme could not have made
  is no failure: its number may be too large, the key too small for the digest, or its octets no
  point, which no sum of points of the curve is ever written as.
  - `Ed25519.exists_point_of_accepts`: an accepted signature begins with a point.
  - `Operations.verify_answers`: when verifying fails, and what it answers otherwise.
-/

import Strongbox.Proofs.Ed25519.Curve
import Strongbox.Proofs.Operations.Failures
import Strongbox.Proofs.Service.Schemes

namespace Strongbox

open Outcome Check

/-! ## What the schemes accept -/

namespace Ed25519

variable {k : PublicKey} {data signature : Bytes}

/-- The number that a signature and what is signed lead to. -/
def PublicKey.challenge (k : PublicKey) (data signature : Bytes) : Nat :=
  littleEndian (Digest.sha512 (signature.take 32 ++ k.octets ++ data)) % groupOrder

/-- The number of the signature is below the group's order, and that many base points less the
challenge's many points of the key are its point. -/
def PublicKey.Accepts (k : PublicKey) (data signature : Bytes) : Prop :=
  ∃ a, Point.ofBytes? k.octets = some a ∧ littleEndian (signature.drop 32) < groupOrder ∧
    ((Point.base.times (littleEndian (signature.drop 32))).add
      (a.negate.times (k.challenge data signature))).toBytes = signature.take 32

theorem verify_eq_true : verify k data signature = true ↔ k.Accepts data signature := by
  rw [verify, PublicKey.Accepts]
  cases Point.ofBytes? k.octets with
  | none =>
    constructor
    · intro h
      cases h
    · rintro ⟨_, h, -⟩
      cases h
  | some a =>
    simp only [Bool.and_eq_true, decide_eq_true_eq, beq_iff_eq, Option.some.injEq,
      exists_eq_left', PublicKey.challenge]

theorem exists_point_of_accepts (h : k.Accepts data signature) :
    ∃ p, Point.ofBytes? (signature.take 32) = some p := by
  obtain ⟨a, ha, -, hp⟩ := h
  rw [← hp]
  exact Point.exists_ofBytes?_toBytes
    ((Point.onCurve_base.times _).add ((Point.onCurve_of_ofBytes? ha).negate.times _))

end Ed25519

def Rsa.PublicKey.Accepts (k : Rsa.PublicKey) (a : Digest.Algorithm) (data signature : Bytes) :
    Prop :=
  signature.toNat < k.modulus ∧
    Rsa.Pkcs1.signedOctets? k.size a data = some (Bytes.ofNat k.size (k.apply signature.toNat))

def PublicKey.signatureSize : PublicKey → Nat
  | rsa k => k.size
  | ed25519 _ => 64

namespace SignatureScheme

def fits : SignatureScheme → PublicKey → Bool
  | rsa _, .rsa _ => true
  | ed25519, .ed25519 _ => true
  | _, _ => false

def Accepts (data signature : Bytes) : SignatureScheme → PublicKey → Prop
  | rsa a, .rsa k => k.Accepts a data signature
  | ed25519, .ed25519 k => k.Accepts data signature
  | _, _ => False

/-- No signature has a number that large, is one of a key that small, or begins with something
other than a point. -/
inductive Hopeless (signature : Bytes) : SignatureScheme → PublicKey → Prop where
  | number {a : Digest.Algorithm} {k : Rsa.PublicKey} :
      k.modulus ≤ signature.toNat → Hopeless signature (rsa a) (.rsa k)
  | room {a : Digest.Algorithm} {k : Rsa.PublicKey} :
      k.size < (Rsa.Pkcs1.digestHeader a).length + a.size + 11 →
        Hopeless signature (rsa a) (.rsa k)
  | scalar {k : Ed25519.PublicKey} :
      Ed25519.groupOrder ≤ Ed25519.littleEndian (signature.drop 32) →
        Hopeless signature ed25519 (.ed25519 k)
  | point {k : Ed25519.PublicKey} :
      Ed25519.Point.ofBytes? (signature.take 32) = none → Hopeless signature ed25519 (.ed25519 k)

theorem Hopeless.not_accepts {s : SignatureScheme} {key : PublicKey} {signature : Bytes}
    (h : Hopeless signature s key) (data : Bytes) : ¬ s.Accepts data signature key := by
  cases h with
  | number h =>
    rintro ⟨hlt, -⟩
    exact absurd hlt (Nat.not_lt.mpr h)
  | @room a k h =>
    rintro ⟨-, hs⟩
    rw [Rsa.Pkcs1.signedOctets?, if_pos] at hs
    · cases hs
    · rwa [List.length_append, Digest.Algorithm.length_digest]
  | scalar h =>
    rintro ⟨_, -, hlt, -⟩
    exact absurd hlt (Nat.not_lt.mpr h)
  | point h =>
    intro ha
    obtain ⟨p, hp⟩ := Ed25519.exists_point_of_accepts ha
    rw [h] at hp
    cases hp

def named? (name : String) : Option SignatureScheme := ofName? (Text.trim name).toUpper

def unnamed (name : String) : PrimitiveError := .algorithmNotAvailable (Text.trim name)

theorem parse_eq (name : String) :
    parse name = (named? name).elim (.error (unnamed name)) .ok := by
  rw [parse, named?]
  cases ofName? (Text.trim name).toUpper <;> rfl

theorem parse_eq_ok {name : String} {s : SignatureScheme} :
    parse name = .ok s ↔ named? name = some s := by
  rw [parse_eq]
  cases named? name with
  | none => exact ⟨nofun, nofun⟩
  | some t => rw [Option.elim_some, Except.ok.injEq, Option.some.injEq]

end SignatureScheme

/-! ## The checks of verifying -/

namespace Check

def unfit (s : SignatureScheme) (key : PublicKey) : Check PrimitiveError :=
  fault (s.fits key = false) (Primitives.mismatch s key.algorithm)

def malformation (signature : Bytes) : PublicKey → PrimitiveError
  | .rsa k => .invalidParameters s!"RSA signature must be {k.size} bytes, got {signature.length}"
  | .ed25519 _ => .invalidParameters "malformed Ed25519 signature: not 64 bytes"

def malformed (key : PublicKey) (signature : Bytes) : Check PrimitiveError :=
  fault (signature.length ≠ key.signatureSize) (malformation signature key)

def ofVerification (spec : AlgorithmSpec) (key : PublicKey) (signature : Bytes) :
    List (Check PrimitiveError) :=
  needing (SignatureScheme.named? spec.algorithm) (SignatureScheme.unnamed spec.algorithm) fun s =>
    [foreignProvider spec.provider, unfit s key, malformed key signature]

end Check

namespace Primitives

variable {s : SignatureScheme} {provider : Option String} {key : PublicKey}
  {data signature : Bytes}

theorem checked_verify : Checked [foreignProvider provider, unfit s key, malformed key signature]
    (verify s provider key data signature) := by
  refine .step (fun _ => checkProvider_eq_error) fun _ _ => ?_
  cases s with
  | ed25519 =>
    cases key with
    | ed25519 k => exact .of_pass (fun e h => nomatch h.1) (.guard fun _ => .ok _)
    | rsa k => exact .of_fault fun e => and_iff_right rfl
  | rsa a =>
    cases key with
    | ed25519 k => exact .of_fault fun e => and_iff_right rfl
    | rsa k => exact .of_pass (fun e h => nomatch h.1) (.guard fun _ => .ok _)

theorem verify_answer {b : Bool} (h : verify s provider key data signature = .ok b) :
    b = true ↔ s.Accepts data signature key := by
  obtain ⟨⟨⟩, -, h⟩ := bind_eq_ok.mp h
  cases s with
  | ed25519 =>
    cases key with
    | rsa k => cases h
    | ed25519 k =>
      obtain ⟨-, rfl⟩ := ite_error_eq_ok.mp h
      exact Ed25519.verify_eq_true
  | rsa a =>
    cases key with
    | ed25519 k => cases h
    | rsa k =>
      obtain ⟨hl, rfl⟩ := ite_error_eq_ok.mp h
      rw [Rsa.Pkcs1.verify_eq_true, and_iff_right (not_not.mp hl)]
      rfl

end Primitives

namespace Operations

inductive Unverifiable (spec : AlgorithmSpec) (key : PublicKey) (signature : Bytes) : Prop where
  | name : SignatureScheme.named? spec.algorithm = none → Unverifiable spec key signature
  | provider : Primitives.IsForeign spec.provider → Unverifiable spec key signature
  | kind {s : SignatureScheme} : SignatureScheme.named? spec.algorithm = some s →
      s.fits key = false → Unverifiable spec key signature
  | size : signature.length ≠ key.signatureSize → Unverifiable spec key signature

structure Answers (data signature : Bytes) (key : PublicKey) (spec : AlgorithmSpec) : Prop where
  /-- It fails exactly for one of the four reasons. -/
  refused : (∃ e, verify data signature key spec = .error e) ↔ Unverifiable spec key signature
  /-- The failure is that of the first check that does not pass. -/
  failed : ∀ e, verify data signature key spec = .error e ↔
    Reported .verifying spec (ofVerification spec key signature) e
  /-- Everything else is answered, and the answer says whether the scheme accepts. -/
  answered : ∀ b, verify data signature key spec = .ok b ↔
    ¬ Unverifiable spec key signature ∧ ∃ s, SignatureScheme.named? spec.algorithm = some s ∧
      (b = true ↔ s.Accepts data signature key)
  /-- It is no for what the scheme could not have made. -/
  hopeless : ∀ s, SignatureScheme.named? spec.algorithm = some s → s.Hopeless signature key →
    ¬ Unverifiable spec key signature → verify data signature key spec = .ok false

variable {data signature : Bytes} {key : PublicKey} {spec : AlgorithmSpec}

theorem verify_eq_error {e : ServiceError} : verify data signature key spec = .error e ↔
    Reported .verifying spec (ofVerification spec key signature) e :=
  finish_eq_error_of_checked (.needed (SignatureScheme.parse_eq _) fun _ _ =>
    Primitives.checked_verify)

/-- One of the checks does not pass exactly for one of the four reasons. -/
theorem exists_first_ofVerification :
    (∃ cause, First (ofVerification spec key signature) cause) ↔
      Unverifiable spec key signature := by
  rw [exists_first, ofVerification, needing]
  cases hs : SignatureScheme.named? spec.algorithm with
  | none =>
    simp only [Option.elim_none, List.mem_singleton, exists_eq_left, exists_fault]
    exact ⟨fun _ => .name hs, fun _ => trivial⟩
  | some s =>
    simp only [Option.elim_some, List.mem_cons, List.not_mem_nil, or_false, exists_eq_or_imp,
      exists_eq_left, foreignProvider, unfit, malformed, exists_fault]
    constructor
    · rintro (h | h | h | h)
      · cases h
      · exact .provider h
      · exact .kind hs h
      · exact .size h
    · rintro (h | h | ⟨h, hf⟩ | h)
      · rw [hs] at h
        cases h
      · exact .inr (.inl h)
      · rw [hs] at h
        cases h
        exact .inr (.inr (.inl hf))
      · exact .inr (.inr (.inr h))

theorem exists_verify_eq_error (data : Bytes) :
    (∃ e, verify data signature key spec = .error e) ↔ Unverifiable spec key signature := by
  rw [← exists_first_ofVerification]
  constructor
  · rintro ⟨e, h⟩
    obtain ⟨cause, hc, -⟩ := verify_eq_error.mp h
    exact ⟨cause, hc⟩
  · rintro ⟨cause, hc⟩
    exact ⟨_, verify_eq_error.mpr ⟨cause, hc, rfl⟩⟩

theorem exists_scheme_of_verify {b : Bool} (h : verify data signature key spec = .ok b) :
    ∃ s, SignatureScheme.named? spec.algorithm = some s ∧
      (b = true ↔ s.Accepts data signature key) := by
  obtain ⟨s, hs, hv⟩ := bind_eq_ok.mp (finish_eq_ok.mp h)
  exact ⟨s, SignatureScheme.parse_eq_ok.mp hs, Primitives.verify_answer hv⟩

theorem verify_eq_ok {b : Bool} : verify data signature key spec = .ok b ↔
    ¬ Unverifiable spec key signature ∧ ∃ s, SignatureScheme.named? spec.algorithm = some s ∧
      (b = true ↔ s.Accepts data signature key) := by
  rw [← exists_verify_eq_error data]
  constructor
  · intro h
    refine ⟨?_, exists_scheme_of_verify h⟩
    rintro ⟨e, he⟩
    rw [h] at he
    cases he
  · rintro ⟨hn, s, hs, hb⟩
    cases hv : verify data signature key spec with
    | error e => exact absurd ⟨e, hv⟩ hn
    | ok b' =>
      obtain ⟨s', hs', hb'⟩ := exists_scheme_of_verify hv
      rw [hs] at hs'
      cases hs'
      rw [Bool.eq_iff_iff.mpr (hb'.trans hb.symm)]

/-- Verifying has three answers: a failure for what cannot be checked, and else whether the scheme
accepts the signature, which it does with none that it could not have made. -/
theorem verify_answers (data signature : Bytes) (key : PublicKey) (spec : AlgorithmSpec) :
    Answers data signature key spec := by
  constructor
  case refused => exact exists_verify_eq_error data
  case failed => exact fun e => verify_eq_error
  case answered => exact fun b => verify_eq_ok
  case hopeless =>
    intro s hs hh hv
    exact verify_eq_ok.mpr ⟨hv, s, hs, ⟨nofun, fun h => absurd h (hh.not_accepts data)⟩⟩

end Operations

end Strongbox
