/-
  Strongbox.Proofs.Service.Overrides — names that are given one after the other.

  A context is given an alias and a descriptor the type of a provider, any number of times and
  between other calls. Each call writes the name anew, a blank one as none, and never looks at the
  name that was there. So the last call counts: where it gives a blank name, an earlier name is not
  kept but taken back, and the key is chosen as if none had been named.
  - `Text.lastGiven_eq_lastNamed_iff`: when the last call leaves the last name that is not blank.
  - `CryptoContext.keyAlias_callAll`, `OperationDescriptor.internalProvider_callAll`: what any calls
    leave.
  - `CryptoContext.goesByName`, `OperationDescriptor.goesByName`: the key that is chosen then.
  - `named_unless_taken_back`: contexts of an owner and of an alias, and descriptors.
-/

import Strongbox.Proofs.Validity

namespace Strongbox

open Outcome

/-! ## Names in a sequence -/

namespace Text

/-- The last of the names that is not blank, and without one the name from before. -/
def lastNamed (before : Option String) (names : List String) : Option String :=
  (names.filterMap unlessBlank).getLast?.or before

/-- The last of the names, none if it is blank, and without any names the one from before. -/
def lastGiven (before : Option String) (names : List String) : Option String :=
  (names.getLast?.map unlessBlank).getD before

structure TakenBack (before : Option String) (names : List String) : Prop where
  named : lastNamed before names ≠ none
  blank : names.getLast?.any isBlank = true

instance (before : Option String) (names : List String) : Decidable (TakenBack before names) :=
  decidable_of_iff (lastNamed before names ≠ none ∧ names.getLast?.any isBlank = true)
    ⟨fun h => ⟨h.1, h.2⟩, fun h => ⟨h.named, h.blank⟩⟩

variable {before : Option String} {names : List String}

theorem lastGiven_concat (name : String) : lastGiven before (names ++ [name]) = unlessBlank name := by
  simp [lastGiven]

theorem lastNamed_concat (name : String) :
    lastNamed before (names ++ [name]) = (unlessBlank name).or (lastNamed before names) := by
  unfold lastNamed
  cases h : unlessBlank name <;> simp [h]

theorem lastGiven_of_takenBack (h : TakenBack before names) : lastGiven before names = none := by
  have hblank := h.blank
  unfold lastGiven
  cases hlast : names.getLast? with
  | none => simp [hlast] at hblank
  | some name =>
    rw [hlast, Option.any_some] at hblank
    rw [Option.map_some, Option.getD_some, unlessBlank_of_blank hblank]

/-- The last call leaves the last name that is not blank, unless it takes that name back. -/
theorem lastGiven_eq_lastNamed_iff :
    lastGiven before names = lastNamed before names ↔ ¬ TakenBack before names := by
  constructor
  · intro h ht
    exact ht.named (h.symm.trans (lastGiven_of_takenBack ht))
  · intro h
    rcases List.eq_nil_or_concat names with rfl | ⟨front, name, rfl⟩
    · rfl
    · rw [List.concat_eq_append] at h ⊢
      rw [lastGiven_concat, lastNamed_concat]
      by_cases hblank : isBlank name = true
      · -- A blank name takes nothing back only where nothing was named.
        have hnone : lastNamed before (front ++ [name]) = none := by
          by_cases hn : lastNamed before (front ++ [name]) = none
          · exact hn
          · exact absurd ⟨hn, by simpa using hblank⟩ h
        rw [lastNamed_concat] at hnone
        rw [hnone, unlessBlank_of_blank hblank]
      · rw [unlessBlank_of_notBlank (Bool.eq_false_iff.mpr hblank), Option.some_or]

/-- Calls that write a name anew or leave it alone leave the last name given. -/
theorem foldl_eq_lastGiven {act : σ → β → σ} {seen : σ → Option String} {name? : β → Option String}
    (hstep : ∀ s x, seen (act s x) = ((name? x).map unlessBlank).getD (seen s)) (s : σ)
    (xs : List β) : seen (xs.foldl act s) = lastGiven (seen s) (xs.filterMap name?) := by
  have h := Table.foldl_eq_getLast? act (fun s => some (seen s)) (fun x => (name? x).map unlessBlank)
    (fun s x => by rw [hstep, Option.or_some]) s xs
  rw [Option.or_some, Option.some.injEq, ← List.map_filterMap, List.getLast?_map] at h
  exact h

end Text

open Text (lastNamed lastGiven TakenBack)

/-! ## Contexts -/

namespace CryptoContext

inductive Call where
  | usage (u : KeyUsage)
  | keyAlias (a : String)

def Call.usage? : Call → Option KeyUsage
  | usage u => some u
  | keyAlias _ => none

def Call.alias? : Call → Option String
  | usage _ => none
  | keyAlias a => some (Text.trim a)

def call (c : CryptoContext) : Call → CryptoContext
  | .usage u => c.withUsage u
  | .keyAlias a => c.withAlias a

def callAll (c : CryptoContext) (calls : List Call) : CryptoContext := calls.foldl call c

def aliases (calls : List Call) : List String := calls.filterMap Call.alias?

theorem keyAlias_withAlias (c : CryptoContext) (a : String) :
    (c.withAlias a).keyAlias = Text.unlessBlank (Text.trim a) := by
  unfold withAlias Text.unlessBlank
  simp [← Text.trim_eq_empty_iff, Text.trim_trim]

theorem keyAlias_call (c : CryptoContext) (x : Call) :
    (c.call x).keyAlias = (x.alias?.map Text.unlessBlank).getD c.keyAlias := by
  cases x with
  | usage u => rfl
  | keyAlias a => rw [call, keyAlias_withAlias, Call.alias?, Option.map_some, Option.getD_some]

theorem owner_callAll (c : CryptoContext) (calls : List Call) :
    (c.callAll calls).owner = c.owner := by
  refine List.foldlRecOn (motive := fun b => b.owner = c.owner) calls call rfl fun b hb x _ => ?_
  cases x <;> exact hb

theorem usage_callAll (c : CryptoContext) (calls : List Call) :
    (c.callAll calls).usage = (calls.filterMap Call.usage?).getLast?.or c.usage := by
  refine Table.foldl_eq_getLast? call usage Call.usage? (fun c x => ?_) c calls
  cases x <;> rfl

theorem keyAlias_callAll (c : CryptoContext) (calls : List Call) :
    (c.callAll calls).keyAlias = lastGiven c.keyAlias (aliases calls) :=
  Text.foldl_eq_lastGiven keyAlias_call c calls

/-- What some calls leave of a context that had an alias before or had none. It goes by the last
alias named, and so does every resolver, exactly when the alias was not taken back. If it was, every
resolver looks for the key of the owner. -/
structure GoesByName (before : Option String) (c : CryptoContext) (calls : List Call) : Prop where
  owner : (c.callAll calls).owner = c.owner
  usage : (c.callAll calls).usage = (calls.filterMap Call.usage?).getLast?.or c.usage
  keyAlias_iff : (c.callAll calls).keyAlias = lastNamed before (aliases calls) ↔
    ¬ TakenBack before (aliases calls)
  aliasFor_iff : ∀ a, lastNamed before (aliases calls) = some a →
    ((∀ r : Resolver, r.aliasFor (c.callAll calls) = a) ↔ ¬ TakenBack before (aliases calls))
  takenBack : TakenBack before (aliases calls) → (c.callAll calls).keyAlias = none ∧
    ∀ r : Resolver, r.aliasFor (c.callAll calls) = r.aliasFor (ofOwner c.owner)

theorem aliasFor_of_keyAlias {c : CryptoContext} {a : String} (h : c.keyAlias = some a)
    (r : Resolver) : r.aliasFor c = a := by
  rw [Resolver.aliasFor, h, Option.getD_some]

theorem aliasFor_of_no_keyAlias {c : CryptoContext} (h : c.keyAlias = none) (r : Resolver) :
    r.aliasFor c = r.aliasFor (ofOwner c.owner) := by
  rw [Resolver.aliasFor, h]
  rfl

/-- No alias is the one that all resolvers have for an owner. -/
theorem exists_aliasFor_ne (o : OwnerId) (a : String) :
    ∃ r : Resolver, r.aliasFor (ofOwner o) ≠ a := by
  obtain ⟨r, hr⟩ : ∃ r : Resolver, r.aliasFor (ofOwner o) = a ++ "x" :=
    ⟨{ store := MemoryStore.empty.view, defaultAlias := a ++ "x", defaultPassword := "" }, rfl⟩
  refine ⟨r, fun h => ?_⟩
  have hlength := congrArg String.length (hr.symm.trans h)
  simp at hlength

theorem goesByName (c : CryptoContext) (calls : List Call) : GoesByName c.keyAlias c calls := by
  have hgiven := c.keyAlias_callAll calls
  have howner := c.owner_callAll calls
  have htaken (h : TakenBack c.keyAlias (aliases calls)) : (c.callAll calls).keyAlias = none :=
    hgiven.trans (Text.lastGiven_of_takenBack h)
  refine ⟨howner, c.usage_callAll calls, ?_, ?_, ?_⟩
  · rw [hgiven]
    exact Text.lastGiven_eq_lastNamed_iff
  · intro a ha
    constructor
    · intro h ht
      obtain ⟨r, hr⟩ := exists_aliasFor_ne c.owner a
      rw [← howner, ← aliasFor_of_no_keyAlias (htaken ht)] at hr
      exact hr (h r)
    · intro h
      rw [Text.lastGiven_eq_lastNamed_iff.mpr h, ha] at hgiven
      exact aliasFor_of_keyAlias hgiven
  · intro h
    refine ⟨htaken h, fun r => ?_⟩
    rw [aliasFor_of_no_keyAlias (htaken h), howner]

end CryptoContext

/-! ## Descriptors -/

/-- A service need not have a provider under a type. -/
theorem ServiceBuilder.exists_build_without (type : String) :
    ∃ (b : ServiceBuilder) (s : Service), b.build = .ok s ∧ s.providers.get? type = none := by
  obtain ⟨p, hp⟩ : ∃ p : InternalProvider, p.type = type ++ "x" :=
    ⟨{ KeyStoreProvider.view (Service.keyOf "tenant") with type := type ++ "x" }, rfl⟩
  have hne : type ≠ p.type := by
    intro h
    have hlength := congrArg String.length (h.trans hp)
    simp at hlength
  obtain ⟨b, hb, hdefault⟩ : ∃ b : ServiceBuilder,
      b.providers = Table.empty.insert p.type p ∧ b.defaultProvider = p.type :=
    ⟨(ServiceBuilder.withProvider { resolver := Service.keyRing, defaultProvider := p.type } p),
      rfl, rfl⟩
  have hget (k : String) : b.providers.get? k = if k = p.type then some p else none := by
    rw [hb, Table.get?_insert]
    rfl
  refine ⟨b, _, ServiceBuilder.build_eq_ok.mpr ⟨?_, rfl⟩, ?_⟩
  · rw [Table.contains, hget, hdefault, if_pos rfl]
    rfl
  · exact (hget type).trans (if_neg hne)

namespace OperationDescriptor

inductive Call where
  | selfContained (on : Bool)
  | internalProvider (type : String)

def Call.selfContained? : Call → Option Bool
  | selfContained on => some on
  | internalProvider _ => none

def Call.type? : Call → Option String
  | selfContained _ => none
  | internalProvider type => some type

def call (d : OperationDescriptor) : Call → OperationDescriptor
  | .selfContained on => d.withSelfContained on
  | .internalProvider type => d.withInternalProvider type

def callAll (d : OperationDescriptor) (calls : List Call) : OperationDescriptor :=
  calls.foldl call d

def types (calls : List Call) : List String := calls.filterMap Call.type?

theorem spec_callAll (d : OperationDescriptor) (calls : List Call) :
    (d.callAll calls).spec = d.spec := by
  refine List.foldlRecOn (motive := fun b => b.spec = d.spec) calls call rfl fun b hb x _ => ?_
  cases x <;> exact hb

theorem selfContained_callAll (d : OperationDescriptor) (calls : List Call) :
    (d.callAll calls).selfContained =
      (calls.filterMap Call.selfContained?).getLast?.getD d.selfContained := by
  have h := Table.foldl_eq_getLast? call (fun d => some d.selfContained) Call.selfContained?
    (fun d x => by cases x <;> rfl) d calls
  rw [Option.or_some, Option.some.injEq] at h
  exact h

theorem internalProvider_callAll (d : OperationDescriptor) (calls : List Call) :
    (d.callAll calls).internalProvider = lastGiven d.internalProvider (types calls) := by
  refine Text.foldl_eq_lastGiven (fun d x => ?_) d calls
  cases x <;> rfl

/-- What some calls leave of a descriptor. It goes by the last type named, and so does every
service, exactly when the type was not taken back. If it was, every service uses its default
provider. -/
structure GoesByName (d : OperationDescriptor) (calls : List Call) : Prop where
  spec : (d.callAll calls).spec = d.spec
  selfContained : (d.callAll calls).selfContained =
    (calls.filterMap Call.selfContained?).getLast?.getD d.selfContained
  internalProvider_iff :
    (d.callAll calls).internalProvider = lastNamed d.internalProvider (types calls) ↔
      ¬ TakenBack d.internalProvider (types calls)
  provider_iff : ∀ type, lastNamed d.internalProvider (types calls) = some type →
    ((∀ (b : ServiceBuilder) (s : Service), b.build = .ok s → ∀ activity p,
        s.provider activity (d.callAll calls) = .ok p ↔ s.providers.get? type = some p) ↔
      ¬ TakenBack d.internalProvider (types calls))
  takenBack : TakenBack d.internalProvider (types calls) →
    (d.callAll calls).internalProvider = none ∧
      ∀ (b : ServiceBuilder) (s : Service), b.build = .ok s →
        ∃ p, s.providers.get? s.defaultProvider = some p ∧
          ∀ activity, s.provider activity (d.callAll calls) = .ok p

theorem provider_of_no_type {b : ServiceBuilder} {s : Service} (hs : b.build = .ok s)
    {d : OperationDescriptor} (h : d.internalProvider = none) :
    ∃ p, s.providers.get? s.defaultProvider = some p ∧
      ∀ activity, s.provider activity d = .ok p := by
  obtain ⟨p, hp⟩ := Option.isSome_iff_exists.mp (ServiceBuilder.isSome_default_of_build hs)
  refine ⟨p, hp, fun activity => Service.provider_eq_ok.mpr ?_⟩
  rw [h, Option.getD_none, hp]

theorem goesByName (d : OperationDescriptor) (calls : List Call) : GoesByName d calls := by
  have hgiven := d.internalProvider_callAll calls
  have htaken (h : TakenBack d.internalProvider (types calls)) :
      (d.callAll calls).internalProvider = none := hgiven.trans (Text.lastGiven_of_takenBack h)
  refine ⟨d.spec_callAll calls, d.selfContained_callAll calls, ?_, ?_, ?_⟩
  · rw [hgiven]
    exact Text.lastGiven_eq_lastNamed_iff
  · intro type htype
    constructor
    · intro h ht
      obtain ⟨b, s, hs, hnone⟩ := ServiceBuilder.exists_build_without type
      obtain ⟨p, -, hp⟩ := provider_of_no_type hs (htaken ht)
      have hget := (h b s hs "" p).mp (hp "")
      rw [hnone] at hget
      cases hget
    · intro h b s hs activity p
      rw [Text.lastGiven_eq_lastNamed_iff.mpr h, htype] at hgiven
      rw [Service.provider_eq_ok, hgiven, Option.getD_some]
  · intro h
    exact ⟨htaken h, fun b s hs => provider_of_no_type hs (htaken h)⟩

end OperationDescriptor

/-! ## Contexts of an owner and of an alias -/

/-- The last name that is given counts, for the alias of a context as for the provider type of a
descriptor. If it is blank, it is not ignored: a name that was given before is taken back, and the
key is chosen as if none had been named. Otherwise the last name that is not blank decides, which is
the alias itself for a context that was made from one, and the key is nobody else's. -/
theorem named_unless_taken_back (o : OwnerId) (a : String) (calls : List CryptoContext.Call)
    (d : OperationDescriptor) (changes : List OperationDescriptor.Call) :
    CryptoContext.GoesByName none (.ofOwner o) calls ∧
    (∀ c, CryptoContext.forAlias a = .ok c →
      CryptoContext.GoesByName (some (Text.trim a)) c calls) ∧
    OperationDescriptor.GoesByName d changes := by
  refine ⟨CryptoContext.goesByName (.ofOwner o) calls, fun c h => ?_, d.goesByName changes⟩
  obtain ⟨-, rfl⟩ := CryptoContext.forAlias_eq_ok.mp h
  exact CryptoContext.goesByName { owner := ⟨Text.trim a⟩, keyAlias := some (Text.trim a) } calls

/-- A context of a padded alias is given a blank alias and then another one, and all resolvers use
that one. Given in the other order they leave it none. -/
theorem named_unless_taken_back_partner :
    ∃ c, CryptoContext.forAlias " partner" = .ok c ∧
      (∀ r : Resolver, r.aliasFor (c.callAll
        [.usage .signing, .keyAlias " ", .keyAlias "archive "]) = "archive") ∧
      (c.callAll [.keyAlias "archive ", .usage .signing, .keyAlias " "]).keyAlias = none := by
  obtain ⟨c, hc⟩ : ∃ c, CryptoContext.forAlias " partner" = .ok c := ⟨_, rfl⟩
  have hkept := (named_unless_taken_back ⟨"alice"⟩ " partner"
    [.usage .signing, .keyAlias " ", .keyAlias "archive "] {} []).2.1 c hc
  have htaken := (named_unless_taken_back ⟨"alice"⟩ " partner"
    [.keyAlias "archive ", .usage .signing, .keyAlias " "] {} []).2.1 c hc
  refine ⟨c, hc, ?_, ?_⟩
  · exact (hkept.aliasFor_iff "archive" (by decide)).mpr (by decide)
  · exact (htaken.takenBack (by decide)).1

/-- The alias of a partner and the type of a provider are named, and a blank name takes each of them
back: the default alias of the resolver and the default provider of the service are used instead. -/
theorem a_blank_name_takes_one_back :
    (∃ c, CryptoContext.forAlias "partner" = .ok c ∧
      lastNamed (some "partner") (CryptoContext.aliases [.keyAlias " "]) = some "partner" ∧
      (c.callAll [.keyAlias " "]).keyAlias = none ∧
      Service.keyRing.aliasFor (c.callAll [.keyAlias " "]) = "tenant") ∧
    lastNamed none (OperationDescriptor.types
      [.internalProvider "symmetric", .internalProvider " "]) = some "symmetric" ∧
    ∃ s p, (ServiceBuilder.registerAll { resolver := Service.keyRing }
        Service.keyRingProviders).build = .ok s ∧
      (∃ q, s.providers.get? "symmetric" = some q) ∧ p.type = "keystore" ∧
      ∀ activity, s.provider activity (OperationDescriptor.callAll {}
        [.internalProvider "symmetric", .internalProvider " "]) = .ok p := by
  obtain ⟨c, hc⟩ : ∃ c : CryptoContext, c = { owner := ⟨"partner"⟩, keyAlias := some "partner" } :=
    ⟨_, rfl⟩
  have hforgotten : (c.callAll [.keyAlias " "]).keyAlias = none := by
    rw [CryptoContext.keyAlias_callAll, hc]
    decide
  refine ⟨⟨c, ?_, by decide, hforgotten, ?_⟩, by decide, ?_⟩
  · rw [CryptoContext.forAlias_eq_ok, hc]
    decide
  · rw [CryptoContext.aliasFor_of_no_keyAlias hforgotten]
    rfl
  · obtain ⟨s, hs⟩ : ∃ s, (ServiceBuilder.registerAll { resolver := Service.keyRing }
        Service.keyRingProviders).build = .ok s := ⟨_, rfl⟩
    have hnone : (OperationDescriptor.callAll {}
        [.internalProvider "symmetric", .internalProvider " "]).internalProvider = none := by
      decide
    obtain ⟨-, rfl⟩ := ServiceBuilder.build_eq_ok.mp hs
    refine ⟨_, KeyStoreProvider.view (Service.keyOf "tenant"), hs,
      ⟨SymmetricProvider.view (Service.keyOf "internal"), ?_⟩, rfl, fun activity => ?_⟩
    · exact (ServiceBuilder.get?_registerAll _ _ _).trans rfl
    · rw [Service.provider_eq_ok, hnone]
      exact (ServiceBuilder.get?_registerAll _ _ _).trans rfl

end Strongbox
