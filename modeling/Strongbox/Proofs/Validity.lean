/-
  Strongbox.Proofs.Validity — what a value keeps to, however it was made.

  An owner and an alias are trimmed and not blank, a provider is absent or not blank, and a
  thumbprint is canonical. The constructors and builders see to it, and they make every value
  that keeps to it. A reader of JSON text sees to nothing and takes every value of the type. So
  what is made is valid as long as all that is read is. For thumbprints there is one more way to
  an invalid value, a hexadecimal text with a plus sign.
  - `Made`, for each type: what its constructors, its builders and its reader make.
  - `isValid_of_made`, for each type: nothing invalid is made where nothing invalid is read.
  - `Service.provider_withInternalProvider`: a builder turns a blank type into the default one.
  - `valid_unless_read`: the five types, and what a blank type selects.
-/

import Mathlib.Data.Set.Basic
import Strongbox.Proofs.CanonicalHex
import Strongbox.Proofs.Records
import Strongbox.Proofs.Service.Capabilities

namespace Strongbox

open Json Json.Read Outcome

/-! ## Texts -/

namespace Text

structure IsTrimmed (s : String) : Prop where
  notBlank : isBlank s = false
  trimmed : trim s = s

theorem isTrimmed_trim {s : String} (h : trim s ≠ "") : IsTrimmed (trim s) where
  notBlank := by rwa [← Bool.not_eq_true, ← trim_eq_empty_iff, trim_trim]
  trimmed := trim_trim s

theorem IsTrimmed.trim_ne_empty {s : String} (h : IsTrimmed s) : trim s ≠ "" := by
  rw [Ne, trim_eq_empty_iff, h.notBlank]
  exact Bool.false_ne_true

def NotBlank (s : Option String) : Prop := ∀ p ∈ s, isBlank p = false

theorem notBlank_unlessBlank (s : String) : NotBlank (unlessBlank s) := by
  unfold unlessBlank
  split
  · exact nofun
  · rename_i h
    intro p hp
    rwa [← Option.some.inj hp, ← Bool.not_eq_true]

theorem unlessBlank_of_notBlank {s : String} (h : isBlank s = false) : unlessBlank s = some s := by
  rw [unlessBlank, h, if_neg Bool.false_ne_true]

theorem unlessBlank_of_blank {s : String} (h : isBlank s = true) : unlessBlank s = none :=
  if_pos h

end Text

/-! ## Reading -/

def Json.Read.ReadsOnly (reader : Scanner α) (texts : Set Bytes) (p : α → Prop) : Prop :=
  ∀ text ∈ texts, ∀ a, whole reader text = .ok a → p a

/-- What is made where some texts can be read is valid exactly under a condition on the texts.
Without texts it is whatever is valid, and with all texts every value. -/
structure ValidUnlessRead (made : Set Bytes → α → Prop) (valid : α → Prop) (texts : Set Bytes)
    (condition : Prop) : Prop where
  valid_iff : (∀ a, made texts a → valid a) ↔ condition
  built : ∀ a, made ∅ a ↔ valid a
  read : ∀ a, made Set.univ a

theorem ValidUnlessRead.of_made {made : Set Bytes → α → Prop} {valid : α → Prop}
    {texts : Set Bytes} (condition : Set Bytes → Prop)
    (hvalid : ∀ texts, condition texts → ∀ a, made texts a → valid a)
    (hcondition : ∀ texts, (∀ a, made texts a → valid a) → condition texts)
    (hempty : condition ∅) (hmade : ∀ a, valid a → made ∅ a) (hread : ∀ a, made Set.univ a) :
    ValidUnlessRead made valid texts (condition texts) where
  valid_iff := ⟨hcondition texts, hvalid texts⟩
  built a := ⟨hvalid ∅ hempty a, hmade a⟩
  read := hread

variable {texts : Set Bytes}

/-! ## Owners -/

namespace OwnerId

def IsValid (o : OwnerId) : Prop := Text.IsTrimmed o.value

/-- The owners that a name makes, or that one of the texts is read as. -/
inductive Made (texts : Set Bytes) : OwnerId → Prop where
  | make {name : String} {o : OwnerId} (h : make name = .ok o) : Made texts o
  | read {text : Bytes} {o : OwnerId} (ht : text ∈ texts) (h : whole reader text = .ok o) :
      Made texts o

theorem isValid_of_made (hr : ReadsOnly reader texts IsValid) {o : OwnerId} (h : o.Made texts) :
    o.IsValid := by
  cases h with
  | make h =>
    obtain ⟨hn, rfl⟩ := ite_error_eq_ok.mp h
    exact Text.isTrimmed_trim hn
  | read ht h => exact hr _ ht _ h

theorem IsValid.made {o : OwnerId} (h : o.IsValid) : o.Made texts := by
  have hmake : make o.value = .ok o := ite_error_eq_ok.mpr ⟨h.trim_ne_empty, by rw [h.trimmed]⟩
  exact .make hmake

theorem validUnlessRead (texts : Set Bytes) :
    ValidUnlessRead Made IsValid texts (ReadsOnly reader texts IsValid) := by
  refine .of_made (ReadsOnly reader · IsValid) ?_ ?_ nofun ?_ ?_
  · intro texts hr o
    exact isValid_of_made hr
  · intro texts h text ht o hr
    exact h o (.read ht hr)
  · intro o h
    exact h.made
  · intro o
    exact .read trivial (whole_of_takes o.reader_takes)

end OwnerId

/-! ## Contexts -/

namespace CryptoContext

structure IsValid (c : CryptoContext) : Prop where
  owner : c.owner.IsValid
  keyAlias : ∀ a ∈ c.keyAlias, Text.IsTrimmed a

inductive Made (texts : Set Bytes) : CryptoContext → Prop where
  | ofOwner {o : OwnerId} (h : o.Made texts) : Made texts (ofOwner o)
  | forAlias {a : String} {c : CryptoContext} (h : forAlias a = .ok c) : Made texts c
  | withUsage {c : CryptoContext} (h : Made texts c) (u : KeyUsage) : Made texts (c.withUsage u)
  | withAlias {c : CryptoContext} (h : Made texts c) (a : String) : Made texts (c.withAlias a)
  | read {text : Bytes} {c : CryptoContext} (ht : text ∈ texts) (h : whole reader text = .ok c) :
      Made texts c

theorem isValid_ofOwner {o : OwnerId} (h : o.IsValid) : (ofOwner o).IsValid := ⟨h, nofun⟩

theorem isValid_of_forAlias {a : String} {c : CryptoContext} (h : forAlias a = .ok c) :
    c.IsValid := by
  obtain ⟨hn, rfl⟩ := forAlias_eq_ok.mp h
  refine ⟨Text.isTrimmed_trim hn, fun b hb => ?_⟩
  rw [← Option.some.inj hb]
  exact Text.isTrimmed_trim hn

theorem IsValid.withUsage {c : CryptoContext} (h : c.IsValid) (u : KeyUsage) :
    (c.withUsage u).IsValid := ⟨h.owner, h.keyAlias⟩

/-- Whatever alias is given, and whatever the one before was. -/
theorem IsValid.withAlias {c : CryptoContext} (h : c.IsValid) (a : String) :
    (c.withAlias a).IsValid := by
  rw [CryptoContext.withAlias]
  refine ⟨h.owner, fun b hb => ?_⟩
  dsimp only at hb
  split at hb
  · cases hb
  · rename_i hn
    rw [← Option.some.inj hb]
    exact Text.isTrimmed_trim hn

theorem isValid_of_made (ho : ReadsOnly OwnerId.reader texts OwnerId.IsValid)
    (hr : ReadsOnly reader texts IsValid) {c : CryptoContext} (h : c.Made texts) : c.IsValid := by
  induction h with
  | ofOwner h => exact isValid_ofOwner (OwnerId.isValid_of_made ho h)
  | forAlias h => exact isValid_of_forAlias h
  | withUsage _ u ih => exact ih.withUsage u
  | withAlias _ a ih => exact ih.withAlias a
  | read ht h => exact hr _ ht _ h

theorem withAlias_eq {a : String} (h : Text.IsTrimmed a) (c : CryptoContext) :
    c.withAlias a = { c with keyAlias := some a } := by
  rw [CryptoContext.withAlias, if_neg h.trim_ne_empty, h.trimmed]

theorem IsValid.made {c : CryptoContext} (h : c.IsValid) : c.Made texts := by
  obtain ⟨owner, usage, keyAlias⟩ := c
  have howner : (ofOwner owner).Made texts := .ofOwner h.owner.made
  have husage : Made texts { owner, usage } := by
    cases usage with
    | none => exact howner
    | some u => exact howner.withUsage u
  cases keyAlias with
  | none => exact husage
  | some a =>
    have halias := husage.withAlias a
    rwa [withAlias_eq (h.keyAlias a rfl)] at halias

/-- A context takes its owner over, so owners that are read count as well. -/
theorem validUnlessRead (texts : Set Bytes) : ValidUnlessRead Made IsValid texts
    (ReadsOnly OwnerId.reader texts OwnerId.IsValid ∧ ReadsOnly reader texts IsValid) := by
  refine .of_made (fun texts => ReadsOnly OwnerId.reader texts OwnerId.IsValid ∧
    ReadsOnly reader texts IsValid) ?_ ?_ ⟨nofun, nofun⟩ ?_ ?_
  · intro texts hr c
    exact isValid_of_made hr.1 hr.2
  · intro texts h
    constructor
    · intro text ht o ho
      exact (h _ (.ofOwner (.read ht ho))).owner
    · intro text ht c hr
      exact h c (.read ht hr)
  · intro c h
    exact h.made
  · intro c
    exact .read trivial (whole_of_takes c.reader_takes)

end CryptoContext

/-! ## Specifications and descriptors -/

namespace AlgorithmSpec

def IsValid (s : AlgorithmSpec) : Prop := Text.NotBlank s.provider

/-- A specification begins with a name, which is empty by default. -/
inductive Made (texts : Set Bytes) : AlgorithmSpec → Prop where
  | ofName (name : String) : Made texts { algorithm := name }
  | withProvider {s : AlgorithmSpec} (h : Made texts s) (p : String) : Made texts (s.withProvider p)
  | orDefault {s : AlgorithmSpec} (h : Made texts s) (name : String) : Made texts (s.orDefault name)
  | read {text : Bytes} {s : AlgorithmSpec} (ht : text ∈ texts) (h : whole reader text = .ok s) :
      Made texts s

theorem isValid_of_made (hr : ReadsOnly reader texts IsValid) {s : AlgorithmSpec}
    (h : s.Made texts) : s.IsValid := by
  induction h with
  | ofName name => exact nofun
  | withProvider _ p _ => exact Text.notBlank_unlessBlank p
  | orDefault _ name ih => rwa [IsValid, provider_orDefault]
  | read ht h => exact hr _ ht _ h

theorem IsValid.made {s : AlgorithmSpec} (h : s.IsValid) : s.Made texts := by
  obtain ⟨name, provider⟩ := s
  cases provider with
  | none => exact .ofName name
  | some p =>
    have hname : Made texts { algorithm := name } := .ofName name
    have hp := hname.withProvider p
    rwa [withProvider, Text.unlessBlank_of_notBlank (h p rfl)] at hp

theorem validUnlessRead (texts : Set Bytes) :
    ValidUnlessRead Made IsValid texts (ReadsOnly reader texts IsValid) := by
  refine .of_made (ReadsOnly reader · IsValid) ?_ ?_ nofun ?_ ?_
  · intro texts hr s
    exact isValid_of_made hr
  · intro texts h text ht s hr
    exact h s (.read ht hr)
  · intro s h
    exact h.made
  · intro s
    exact .read trivial (whole_of_takes s.reader_takes)

end AlgorithmSpec

namespace OperationDescriptor

structure IsValid (d : OperationDescriptor) : Prop where
  spec : d.spec.IsValid
  internalProvider : Text.NotBlank d.internalProvider

inductive Made (texts : Set Bytes) : OperationDescriptor → Prop where
  | ofSpec {s : AlgorithmSpec} (h : s.Made texts) : Made texts { spec := s }
  | withSelfContained {d : OperationDescriptor} (h : Made texts d) (on : Bool) :
      Made texts (d.withSelfContained on)
  | withInternalProvider {d : OperationDescriptor} (h : Made texts d) (type : String) :
      Made texts (d.withInternalProvider type)
  | read {text : Bytes} {d : OperationDescriptor} (ht : text ∈ texts)
      (h : whole reader text = .ok d) : Made texts d

theorem isValid_of_made (hs : ReadsOnly AlgorithmSpec.reader texts AlgorithmSpec.IsValid)
    (hr : ReadsOnly reader texts IsValid) {d : OperationDescriptor} (h : d.Made texts) :
    d.IsValid := by
  induction h with
  | ofSpec h => exact ⟨AlgorithmSpec.isValid_of_made hs h, nofun⟩
  | withSelfContained _ on ih => exact ⟨ih.spec, ih.internalProvider⟩
  | withInternalProvider _ type ih => exact ⟨ih.spec, Text.notBlank_unlessBlank type⟩
  | read ht h => exact hr _ ht _ h

theorem IsValid.made {d : OperationDescriptor} (h : d.IsValid) : d.Made texts := by
  obtain ⟨s, on, type⟩ := d
  have hplain : Made texts { spec := s, selfContained := on } :=
    (Made.ofSpec h.spec.made).withSelfContained on
  cases type with
  | none => exact hplain
  | some type =>
    have htype := hplain.withInternalProvider type
    rwa [withInternalProvider, Text.unlessBlank_of_notBlank (h.internalProvider type rfl)] at htype

/-- A descriptor takes its specification over, so specifications that are read count as well. -/
theorem validUnlessRead (texts : Set Bytes) : ValidUnlessRead Made IsValid texts
    (ReadsOnly AlgorithmSpec.reader texts AlgorithmSpec.IsValid ∧
      ReadsOnly reader texts IsValid) := by
  refine .of_made (fun texts => ReadsOnly AlgorithmSpec.reader texts AlgorithmSpec.IsValid ∧
    ReadsOnly reader texts IsValid) ?_ ?_ ⟨nofun, nofun⟩ ?_ ?_
  · intro texts hr d
    exact isValid_of_made hr.1 hr.2
  · intro texts h
    constructor
    · intro text ht s hs
      exact (h _ (.ofSpec (.read ht hs))).spec
    · intro text ht d hr
      exact h d (.read ht hr)
  · intro d h
    exact h.made
  · intro d
    exact .read trivial (whole_of_takes d.reader_takes)

end OperationDescriptor

/-! ## Thumbprints -/

namespace Thumbprint

/-- The thumbprints of encodings, and those that one of the texts is read as, as JSON or as
hexadecimal. -/
inductive Made (texts : Set Bytes) (hexes : Set String) : Thumbprint → Prop where
  | compute (encoding : Bytes) (a : Digest.Algorithm) : Made texts hexes (compute encoding a)
  | ofHex {hex : String} {a : Digest.Algorithm} {t : Thumbprint} (hh : hex ∈ hexes)
      (h : ofHex hex a = .ok t) : Made texts hexes t
  | read {text : Bytes} {t : Thumbprint} (ht : text ∈ texts) (h : whole reader text = .ok t) :
      Made texts hexes t

/-- Whatever the texts are read as, as thumbprints, they have no plus sign. -/
def Unsigned (hexes : Set String) : Prop :=
  ∀ hex ∈ hexes, ∀ a t, ofHex hex a = .ok t → '+' ∉ hex.toList

theorem isCanonical_of_made {hexes : Set String} (hu : Unsigned hexes)
    (hr : ReadsOnly reader texts IsCanonical) {t : Thumbprint} (h : t.Made texts hexes) :
    t.IsCanonical := by
  cases h with
  | compute encoding a => exact isCanonical_compute encoding a
  | ofHex hh h => exact (isCanonical_iff_of_ofHex h).mpr (hu _ hh _ _ h)
  | read ht h => exact hr _ ht _ h

/-- A canonical thumbprint is made from its value, which has no plus sign. -/
theorem IsCanonical.made {t : Thumbprint} (h : t.IsCanonical) :
    t.Made texts {hex | '+' ∉ hex.toList} := by
  obtain ⟨b, -, hv⟩ := isCanonical_iff.mp h
  have hvalue : t.value = (Text.trim t.value).toUpper := by
    rw [hv, Hex.trim_encodeUpper, Hex.toUpper_encodeUpper]
  obtain ⟨ht, hplus⟩ := ofHex_of_isCanonical h hvalue
  exact .ofHex hplus ht

theorem isCanonical_of_made_iff {hexes : Set String} :
    (∀ t, Made texts hexes t → t.IsCanonical) ↔
      Unsigned hexes ∧ ReadsOnly reader texts IsCanonical := by
  constructor
  · intro h
    constructor
    · intro hex hh a t ht
      exact (isCanonical_iff_of_ofHex ht).mp (h t (.ofHex hh ht))
    · intro text ht t hr
      exact h t (.read ht hr)
  · intro h _
    exact isCanonical_of_made h.1 h.2

theorem validUnlessRead (texts : Set Bytes) :
    ValidUnlessRead (Made · {hex | '+' ∉ hex.toList}) IsCanonical texts
      (ReadsOnly reader texts IsCanonical) := by
  have hu : Unsigned {hex | '+' ∉ hex.toList} := fun _ hplus _ _ _ => hplus
  refine .of_made (ReadsOnly reader · IsCanonical) ?_ ?_ nofun ?_ ?_
  · intro texts hr t
    exact isCanonical_of_made hu hr
  · intro texts h text ht t hr
    exact h t (.read ht hr)
  · intro t h
    exact h.made
  · intro t
    exact .read trivial (whole_of_takes t.reader_takes)

end Thumbprint

/-! ## Blank providers -/

theorem Primitives.checkProvider_of_blank {p : String} (h : Text.isBlank p = true) :
    checkProvider (some p) = .ok () :=
  if_pos (Or.inl ((Text.trim_eq_empty_iff p).mpr h))

namespace Service

theorem refused_provider {s : Service} {activity : String} {d : OperationDescriptor} :
    Refused (s.provider activity d) ↔
      s.providers.get? (d.internalProvider.getD s.defaultProvider) = none := by
  rw [provider]
  cases s.providers.get? (d.internalProvider.getD s.defaultProvider) with
  | some p => simp
  | none => simp

/-- A blank type that is given to a builder selects the default provider, which is there. -/
theorem provider_withInternalProvider {b : ServiceBuilder} {s : Service} (hs : b.build = .ok s)
    {type : String} (h : Text.isBlank type = true) (activity : String) (d : OperationDescriptor) :
    ∃ p, s.providers.get? s.defaultProvider = some p ∧
      s.provider activity (d.withInternalProvider type) = .ok p := by
  obtain ⟨p, hp⟩ := Option.isSome_iff_exists.mp (ServiceBuilder.isSome_default_of_build hs)
  refine ⟨p, hp, provider_eq_ok.mpr ?_⟩
  rw [OperationDescriptor.withInternalProvider, Text.unlessBlank_of_blank h, Option.getD_none, hp]

end Service

/-! ## Every type -/

/-- Constructors and builders make exactly the valid values of the five types, a plus sign in the
hexadecimal text of a thumbprint apart. Readers make every value, so what is made is valid when
nothing invalid is read, and only then. A blank security provider always stands for the default. A
blank type of an internal provider does so if a builder was given it; if it was read, it is refused
unless a provider is registered under that very type. -/
theorem valid_unless_read (texts : Set Bytes) (hexes : Set String) :
    ValidUnlessRead OwnerId.Made OwnerId.IsValid texts
      (ReadsOnly OwnerId.reader texts OwnerId.IsValid) ∧
    ValidUnlessRead CryptoContext.Made CryptoContext.IsValid texts
      (ReadsOnly OwnerId.reader texts OwnerId.IsValid ∧
        ReadsOnly CryptoContext.reader texts CryptoContext.IsValid) ∧
    ValidUnlessRead AlgorithmSpec.Made AlgorithmSpec.IsValid texts
      (ReadsOnly AlgorithmSpec.reader texts AlgorithmSpec.IsValid) ∧
    ValidUnlessRead OperationDescriptor.Made OperationDescriptor.IsValid texts
      (ReadsOnly AlgorithmSpec.reader texts AlgorithmSpec.IsValid ∧
        ReadsOnly OperationDescriptor.reader texts OperationDescriptor.IsValid) ∧
    ValidUnlessRead (Thumbprint.Made · {hex | '+' ∉ hex.toList}) Thumbprint.IsCanonical texts
      (ReadsOnly Thumbprint.reader texts Thumbprint.IsCanonical) ∧
    ((∀ t, Thumbprint.Made texts hexes t → t.IsCanonical) ↔
      Thumbprint.Unsigned hexes ∧ ReadsOnly Thumbprint.reader texts Thumbprint.IsCanonical) ∧
    ∀ blank, Text.isBlank blank = true →
      Primitives.checkProvider (some blank) = .ok () ∧
      ∀ (b : ServiceBuilder) (s : Service), b.build = .ok s → ∀ activity (d : OperationDescriptor),
        (∃ p, s.providers.get? s.defaultProvider = some p ∧
          s.provider activity (d.withInternalProvider blank) = .ok p) ∧
        (Refused (s.provider activity { d with internalProvider := some blank }) ↔
          s.providers.get? blank = none) := by
  refine ⟨OwnerId.validUnlessRead texts, CryptoContext.validUnlessRead texts,
    AlgorithmSpec.validUnlessRead texts, OperationDescriptor.validUnlessRead texts,
    Thumbprint.validUnlessRead texts, Thumbprint.isCanonical_of_made_iff,
    fun blank h => ⟨?_, fun b s hs a d => ⟨?_, ?_⟩⟩⟩
  · exact Primitives.checkProvider_of_blank h
  · exact Service.provider_withInternalProvider hs h a d
  · exact Service.refused_provider

def emptyType : OperationDescriptor where
  spec := { algorithm := "RSA" }
  internalProvider := some ""

theorem refused_emptyType :
    ∃ s, (ServiceBuilder.registerAll { resolver := Service.keyRing }
        Service.keyRingProviders).build = .ok s ∧
      ∀ activity, Refused (s.provider activity emptyType) := by
  obtain ⟨s, hs⟩ : ∃ s, (ServiceBuilder.registerAll { resolver := Service.keyRing }
      Service.keyRingProviders).build = .ok s := ⟨_, rfl⟩
  refine ⟨s, hs, fun _ => Service.refused_provider.mpr ?_⟩
  obtain ⟨-, rfl⟩ := ServiceBuilder.build_eq_ok.mp hs
  exact (ServiceBuilder.get?_registerAll _ _ _).trans rfl

def blankOwner : OwnerId := ⟨" "⟩

/-- An empty type and a blank owner are read, and a plus sign is read in a thumbprint. -/
theorem an_empty_type_is_read :
    (whole OperationDescriptor.reader emptyType.toJson.octets = .ok emptyType ∧
      ¬ emptyType.IsValid ∧
      ∃ s, (ServiceBuilder.registerAll { resolver := Service.keyRing }
          Service.keyRingProviders).build = .ok s ∧
        ∀ activity, Refused (s.provider activity emptyType)) ∧
    (whole OwnerId.reader blankOwner.toJson.octets = .ok blankOwner ∧ ¬ blankOwner.IsValid) ∧
    (Thumbprint.ofHex Hex.signedThumbprint.value .sha1 = .ok Hex.signedThumbprint ∧
      ¬ Hex.signedThumbprint.IsCanonical) := by
  have htype : Text.isBlank "" = true := by decide
  have howner : Text.isBlank " " = true := by decide
  refine ⟨⟨whole_of_takes emptyType.reader_takes, fun h => ?_, refused_emptyType⟩,
    ⟨whole_of_takes blankOwner.reader_takes, fun h => ?_⟩,
    ⟨Hex.ofHex_signedThumbprint, Hex.not_isCanonical_signedThumbprint⟩⟩
  · exact Bool.false_ne_true ((h.internalProvider "" rfl).symm.trans htype)
  · exact Bool.false_ne_true (h.notBlank.symm.trans howner)

end Strongbox
