/-
  Strongbox.Proofs.Operations — operations by name that succeed.

  An operation succeeds exactly when its name stands for a transformation and the primitive
  succeeds; the security provider plays no other role than its check.
  - `decrypt_encrypt`: names of one transformation undo each other, with the keys of a pair.
-/

import Strongbox.Operations
import Strongbox.Proofs.Primitives
import Strongbox.Proofs.Text.Name

namespace Strongbox

open Outcome

/-! ## Names and defaults -/

namespace AlgorithmSpec

@[simp] theorem provider_orDefault (s : AlgorithmSpec) (name : String) :
    (s.orDefault name).provider = s.provider := by
  rw [orDefault]
  split <;> rfl

theorem orDefault_of_blank {s : AlgorithmSpec} (h : s.isBlank = true) (name : String) :
    (s.orDefault name).algorithm = name := by
  rw [orDefault, if_pos h]

theorem orDefault_of_not_blank {s : AlgorithmSpec} (h : s.isBlank = false) (name : String) :
    s.orDefault name = s := by
  rw [orDefault, if_neg (by rw [h]; exact Bool.false_ne_true)]

theorem algorithm_orDefault (s : AlgorithmSpec) (name : String) :
    (s.orDefault name).algorithm = if s.isBlank then name else s.algorithm := by
  rw [orDefault]
  split <;> rfl

/-- The name of a specification with a default is not blank, so a default changes it no more. -/
theorem isBlank_orDefault {name : String} (hn : Text.isBlank name = false) (s : AlgorithmSpec) :
    Text.isBlank (s.orDefault name).algorithm = false := by
  cases h : s.isBlank with
  | true => rw [orDefault_of_blank h, hn]
  | false => rw [orDefault_of_not_blank h]; exact h

theorem orDefault_orDefault {name : String} (hn : Text.isBlank name = false) (s : AlgorithmSpec) :
    (s.orDefault name).orDefault name = s.orDefault name :=
  orDefault_of_not_blank (isBlank_orDefault hn s) name

end AlgorithmSpec

theorem Primitives.checkProvider_unlessBlank (label : String) :
    checkProvider (Text.unlessBlank label) = checkProvider (some label) := by
  unfold Text.unlessBlank
  split
  · rename_i h
    have ht : Text.trim label = "" := (Text.trim_eq_empty_iff label).mpr h
    have h0 : Text.trim "" = "" := rfl
    simp only [checkProvider, Option.getD_none, Option.getD_some, ht, h0, true_or, if_true]
  · rfl

theorem Primitives.checkProvider_label (provider : Option String) :
    checkProvider (some (provider.getD "")) = checkProvider provider := by
  rw [checkProvider, checkProvider, Option.getD_some]

theorem Transformation.parse_of_toList {name : String} {t : Transformation}
    (h : ofName? (String.ofList ((Text.trim name).toList.map Char.toUpper)) = some t) :
    parse name = .ok t := by
  rw [parse, Text.toUpper_eq, h]

theorem Transformation.parse_of_sameLetters {name name' : String} {t : Transformation}
    (h : Text.sameLetters (Text.trim name) (Text.trim name') = true) (ht : parse name = .ok t) :
    parse name' = .ok t := by
  rw [parse, Text.toUpper_of_sameLetters h] at ht
  rw [parse]
  cases ho : ofName? (Text.trim name').toUpper with
  | some u => simp only [ho] at ht ⊢; exact ht
  | none => simp only [ho] at ht; cases ht

namespace Operations

theorem finish_eq_ok {a : Activity} {spec : AlgorithmSpec} {r : Except PrimitiveError α} {x : α} :
    finish a spec r = .ok x ↔ r = .ok x := mapError_eq_ok

/-- A failure tells the activity, the name and the provider, and keeps its cause. -/
theorem finish_eq_error {a : Activity} {spec : AlgorithmSpec} {r : Except PrimitiveError α}
    {e : ServiceError} :
    finish a spec r = .error e ↔ ∃ cause, r = .error cause ∧
      e = .cryptoOperation (summary a spec) (some (.primitive cause)) := mapError_eq_error

theorem encrypt_eq_ok {random : Random} {data c : Bytes} {key : KeyMaterial} {s : AlgorithmSpec} :
    encrypt random data key s = .ok c ↔
      ∃ t, (s.orDefault AlgorithmSpec.defaultAsymmetric).transformation = .ok t ∧
        Primitives.encrypt random t s.provider key data = .ok c := by
  rw [encrypt, finish_eq_ok, bind_eq_ok, AlgorithmSpec.provider_orDefault]

theorem decrypt_eq_ok {data text : Bytes} {key : KeyMaterial} {s : AlgorithmSpec} :
    decrypt data key s = .ok text ↔
      ∃ t, (s.orDefault AlgorithmSpec.defaultAsymmetric).transformation = .ok t ∧
        Primitives.decrypt t s.provider key data = .ok text := by
  rw [decrypt, finish_eq_ok, bind_eq_ok, AlgorithmSpec.provider_orDefault]

/-- A ciphertext is decrypted under any name of the transformation it was made with. -/
theorem decrypt_encrypt {random : Random} {data c : Bytes} {key key' : KeyMaterial}
    {s s' : AlgorithmSpec} {t : Transformation} (h : encrypt random data key s = .ok c)
    (ht : (s.orDefault AlgorithmSpec.defaultAsymmetric).transformation = .ok t)
    (ht' : (s'.orDefault AlgorithmSpec.defaultAsymmetric).transformation = .ok t)
    (hk : KeyMaterial.Pair t key key') (hp : Primitives.checkProvider s'.provider = .ok ()) :
    decrypt c key' s' = .ok data := by
  obtain ⟨u, hu, hc⟩ := encrypt_eq_ok.mp h
  rw [ht] at hu
  cases hu
  exact decrypt_eq_ok.mpr ⟨t, ht', Primitives.decrypt_encrypt hk hc hp⟩

theorem requireSealing_eq_ok {s : AlgorithmSpec} :
    requireSealing s = .ok () ↔ s.transformation = .ok .aesGcm := by
  rw [requireSealing, bind_eq_ok]
  constructor
  · rintro ⟨t, ht, h⟩
    cases t with
    | aesGcm => exact ht
    | rsaPkcs1 => cases h
    | rsaOaep digest => cases h
  · exact fun h => ⟨_, h, rfl⟩

theorem sealText_eq_ok {data c : Bytes} {key : SecretKey} {nonce associated : Bytes}
    {s : AlgorithmSpec} :
    sealText data key nonce associated s = .ok c ↔ s.transformation = .ok .aesGcm ∧
      Primitives.sealText s.provider key nonce data associated = .ok c := by
  rw [sealText, finish_eq_ok, bind_eq_ok, ← requireSealing_eq_ok]
  exact ⟨fun ⟨⟨⟩, h⟩ => h, fun h => ⟨(), h⟩⟩

theorem openText_eq_ok {data text : Bytes} {key : SecretKey} {nonce associated : Bytes}
    {s : AlgorithmSpec} :
    openText data key nonce associated s = .ok text ↔ s.transformation = .ok .aesGcm ∧
      Primitives.openText s.provider key nonce data associated = .ok text := by
  rw [openText, finish_eq_ok, bind_eq_ok, ← requireSealing_eq_ok]
  exact ⟨fun ⟨⟨⟩, h⟩ => h, fun h => ⟨(), h⟩⟩

theorem openText_sealText {data c : Bytes} {key : SecretKey} {nonce associated : Bytes}
    {s s' : AlgorithmSpec} (h : sealText data key nonce associated s = .ok c)
    (ht : s'.transformation = .ok .aesGcm) (hp : Primitives.checkProvider s'.provider = .ok ()) :
    openText c key nonce associated s' = .ok data := by
  obtain ⟨-, hc⟩ := sealText_eq_ok.mp h
  exact openText_eq_ok.mpr ⟨ht, Primitives.openText_sealText hc hp⟩

end Operations

end Strongbox
