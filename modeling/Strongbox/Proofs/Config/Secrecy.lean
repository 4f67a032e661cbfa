/-
  Strongbox.Proofs.Config.Secrecy — what is told of the passwords in the variables.

  Two variables hold passwords. Diagnostics of the settings show which aliases have one and nothing
  else of either variable. A failure names the variable it is about; that of a pair without its
  sign shows the whole item, and since commas separate items, such an item can be the rest of a
  password.
  - `heldBy_of_ofLookup`: what the settings of some variables are made of.
  - `ofLookup_eq_noSign`: when reading fails for want of a sign, and at which item.
  - `told_of_passwords`: two readings that differ in the passwords only.
  - `a_password_tail_is_told`: two passwords with a comma that give different messages.
-/

import Strongbox.Config.Environment
import Strongbox.Proofs.Outcome
import Strongbox.Proofs.Text.Pieces
import Strongbox.Proofs.Text.Quoted

namespace Strongbox

open Outcome

/-- A list of steps fails at the first step that does. -/
theorem Outcome.mapM_eq_error {f : α → Except ε β} {xs : List α} {e : ε} :
    xs.mapM f = .error e ↔ ∃ before x after, xs = before ++ x :: after ∧
      (∀ y ∈ before, ∃ b, f y = .ok b) ∧ f x = .error e := by
  induction xs with
  | nil => exact iff_of_false nofun fun ⟨before, x, after, h, _⟩ => by simp at h
  | cons x xs ih =>
    rw [List.mapM_cons, bind_eq_error]
    constructor
    · rintro (h | ⟨b, hb, h⟩)
      · exact ⟨[], x, xs, rfl, nofun, h⟩
      · obtain h | ⟨bs, -, h⟩ := bind_eq_error.mp h
        · obtain ⟨before, y, after, rfl, hbefore, hy⟩ := ih.mp h
          exact ⟨x :: before, y, after, rfl, List.forall_mem_cons.mpr ⟨⟨b, hb⟩, hbefore⟩, hy⟩
        · cases h
    · rintro ⟨before, y, after, hxs, hbefore, hy⟩
      cases before with
      | nil =>
        cases hxs
        exact .inl hy
      | cons z before =>
        obtain ⟨rfl, rfl⟩ := List.cons.inj hxs
        obtain ⟨⟨b, hb⟩, hbefore⟩ := List.forall_mem_cons.mp hbefore
        exact .inr ⟨b, hb, bind_eq_error.mpr (.inl (ih.mpr ⟨before, y, after, rfl, hbefore, hy⟩))⟩

def ConfigError.field? : ConfigError → Option String
  | missing name => some name
  | invalid field _ => some field
  | _ => none

namespace Config

variable {l l' : String → Option String} {c c' : Config} {name : String} {e : ConfigError}

/-! ## Failures name what they are about -/

theorem field?_of_required {l : String → Option String} {name : String} {e : ConfigError}
    (h : required l name = .error e) : e.field? = some name := by
  rw [required] at h
  split at h
  · cases h
  · cases h
    rfl

theorem field?_of_pair {item : String} (h : pair name item = .error e) :
    e.field? = some name := by
  rw [pair] at h
  split at h
  · cases h
    rfl
  · split at h
    · cases h
      rfl
    · cases h

def items (value : String) : List String :=
  ((Text.splitOnChar ',' value).map Text.trim).filter (· != "")

theorem pairs_eq_error {value : String} :
    pairs name value = .error e ↔ ∃ before i after, items value = before ++ i :: after ∧
      (∀ j ∈ before, ∃ kv, pair name j = .ok kv) ∧ pair name i = .error e := by
  rw [← mapM_eq_error]
  show ((items value).mapM (pair name) >>= _) = _ ↔ _
  rw [bind_eq_error]
  exact or_iff_left fun ⟨kvs, _, h⟩ => nomatch h

theorem field?_of_pairs {value : String} (h : pairs name value = .error e) :
    e.field? = some name := by
  obtain ⟨_, i, _, -, -, hi⟩ := pairs_eq_error.mp h
  exact field?_of_pair hi

theorem field?_of_boolean {value : String} (h : boolean name value = .error e) :
    e.field? = some name := by
  rw [boolean] at h
  split at h
  · cases h
  · split at h
    · cases h
    · cases h
      rfl

theorem field?_of_optional {default : α} {read : String → String → Except ConfigError α}
    (hread : ∀ v e, read name v = .error e → e.field? = some name)
    (h : optional l name default read = .error e) : e.field? = some name := by
  rw [optional] at h
  split at h
  · exact hread _ _ h
  · cases h

theorem field?_of_validate (h : validate c = .error e) :
    e.field? = some "key_alias" ∨ e.field? = some "internal_provider" := by
  rw [validate] at h
  split at h
  · cases h
    exact .inl rfl
  · split at h
    · cases h
      exact .inr rfl
    · cases h

/-! ## What is read -/

structure HeldBy (l : String → Option String) (c : Config) : Prop where
  keyStoreDirectory : required l "CSP_KEYSTORE_DIR" = .ok c.keyStoreDirectory
  keyAlias : required l "CSP_KEY_ALIAS" = .ok c.keyAlias
  keyPassword : required l "CSP_KEY_PASSWORD" = .ok c.keyPassword
  securityProvider : value? l "CSP_SECURITY_PROVIDER" = c.securityProvider
  internalProvider :
    (value? l "CSP_INTERNAL_PROVIDER").getD KeyStoreProvider.type = c.internalProvider
  symmetricKeyAlias : value? l "CSP_SYMMETRIC_KEY_ALIAS" = c.symmetricKeyAlias
  ownerAliases : optional l "CSP_OWNER_ALIASES" .empty pairs = .ok c.ownerAliases
  keyPasswords : optional l "CSP_KEY_PASSWORDS" .empty pairs = .ok c.keyPasswords
  hybridEnabled : optional l "CSP_HYBRID_ENABLED" true boolean = .ok c.hybridEnabled

theorem eq_of_validate (h : validate c = .ok c') : c' = c := by
  rw [validate] at h
  split at h
  · cases h
  · exact (ite_error_eq_ok.mp h).2

theorem heldBy_of_ofLookup (h : ofLookup l = .ok c) : HeldBy l c := by
  obtain ⟨directory, hdirectory, h⟩ := bind_eq_ok.mp h
  obtain ⟨keyAlias, halias, h⟩ := bind_eq_ok.mp h
  obtain ⟨password, hpassword, h⟩ := bind_eq_ok.mp h
  obtain ⟨owners, howners, h⟩ := bind_eq_ok.mp h
  obtain ⟨passwords, hpasswords, h⟩ := bind_eq_ok.mp h
  obtain ⟨hybrid, hhybrid, h⟩ := bind_eq_ok.mp h
  obtain rfl := eq_of_validate h
  exact ⟨hdirectory, halias, hpassword, rfl, rfl, rfl, howners, hpasswords, hhybrid⟩

def noSign (item : String) : ConfigError :=
  .invalid "CSP_KEY_PASSWORDS" ("expected key=value, got " ++ Text.quoted item)

/-- Reading the variables comes as far as an item of the passwords that has no sign. -/
structure StopsAt (l : String → Option String) (item : String) : Prop where
  keyStoreDirectory : ∃ v, required l "CSP_KEYSTORE_DIR" = .ok v
  keyAlias : ∃ v, required l "CSP_KEY_ALIAS" = .ok v
  keyPassword : ∃ v, required l "CSP_KEY_PASSWORD" = .ok v
  ownerAliases : ∃ t, optional l "CSP_OWNER_ALIASES" .empty pairs = .ok t
  /-- It is the first item that is no pair. -/
  first : ∃ value before after, value? l "CSP_KEY_PASSWORDS" = some value ∧
    items value = before ++ item :: after ∧
    ∀ other ∈ before, ∃ kv, pair "CSP_KEY_PASSWORDS" other = .ok kv
  sign : '=' ∉ item.toList

theorem message_noSign_inj {i i' : String} :
    (noSign i).message = (noSign i').message ↔ i = i' := by
  show _ ++ (_ ++ Text.quoted i) = _ ++ (_ ++ Text.quoted i') ↔ i = i'
  rw [String.append_right_inj, String.append_right_inj, Text.quoted_inj]

theorem pair_eq_noSign {i j : String} :
    pair "CSP_KEY_PASSWORDS" j = .error (noSign i) ↔ j = i ∧ '=' ∉ i.toList := by
  rw [pair]
  constructor
  · intro h
    split at h
    · rename_i hsplit
      rw [Except.error.injEq, noSign, ConfigError.invalid.injEq, String.append_right_inj,
        Text.quoted_inj] at h
      obtain ⟨-, rfl⟩ := h
      exact ⟨rfl, Text.splitAtChar?_eq_none.mp hsplit⟩
    · split at h
      · rw [Except.error.injEq, noSign, ConfigError.invalid.injEq] at h
        have hlength := congrArg String.length h.2
        rw [String.length_append, show "empty key or value".length = 18 by decide,
          show "expected key=value, got ".length = 24 by decide] at hlength
        omega
      · cases h
  · rintro ⟨rfl, hsign⟩
    rw [Text.splitAtChar?_eq_none.mpr hsign]
    rfl

theorem passwords_eq_noSign {item : String} :
    optional l "CSP_KEY_PASSWORDS" .empty pairs = .error (noSign item) ↔
      (∃ value before after, value? l "CSP_KEY_PASSWORDS" = some value ∧
        items value = before ++ item :: after ∧
        ∀ other ∈ before, ∃ kv, pair "CSP_KEY_PASSWORDS" other = .ok kv) ∧
      '=' ∉ item.toList := by
  rw [optional]
  constructor
  · intro h
    split at h
    · rename_i value hvalue
      obtain ⟨before, other, after, hitems, hbefore, hother⟩ := pairs_eq_error.mp h
      obtain ⟨rfl, hsign⟩ := pair_eq_noSign.mp hother
      exact ⟨⟨value, before, after, hvalue, hitems, hbefore⟩, hsign⟩
    · cases h
  · rintro ⟨⟨value, before, after, hvalue, hitems, hbefore⟩, hsign⟩
    rw [hvalue]
    exact pairs_eq_error.mpr
      ⟨before, item, after, hitems, hbefore, pair_eq_noSign.mpr ⟨rfl, hsign⟩⟩

/-- Reading fails for want of a sign exactly when it comes to an item that has none. -/
theorem ofLookup_eq_noSign {item : String} :
    ofLookup l = .error (noSign item) ↔ StopsAt l item := by
  constructor
  · intro h
    -- A failure about another variable is not this one.
    have hother {name : String} (hfield : (noSign item).field? = some name)
        (hne : "CSP_KEY_PASSWORDS" ≠ name) : StopsAt l item :=
      absurd (Option.some.inj hfield) hne
    obtain h | ⟨directory, hdirectory, h⟩ := bind_eq_error.mp h
    · exact hother (field?_of_required h) (by decide)
    obtain h | ⟨keyAlias, halias, h⟩ := bind_eq_error.mp h
    · exact hother (field?_of_required h) (by decide)
    obtain h | ⟨password, hpassword, h⟩ := bind_eq_error.mp h
    · exact hother (field?_of_required h) (by decide)
    obtain h | ⟨owners, howners, h⟩ := bind_eq_error.mp h
    · exact hother (field?_of_optional (fun _ _ => field?_of_pairs) h) (by decide)
    obtain h | ⟨passwords, -, h⟩ := bind_eq_error.mp h
    · obtain ⟨hfirst, hsign⟩ := passwords_eq_noSign.mp h
      exact ⟨⟨_, hdirectory⟩, ⟨_, halias⟩, ⟨_, hpassword⟩, ⟨_, howners⟩, hfirst, hsign⟩
    obtain h | ⟨hybrid, -, h⟩ := bind_eq_error.mp h
    · exact hother (field?_of_optional (fun _ _ => field?_of_boolean) h) (by decide)
    obtain hfield | hfield := field?_of_validate h
    · exact hother hfield (by decide)
    · exact hother hfield (by decide)
  · intro h
    obtain ⟨directory, hdirectory⟩ := h.keyStoreDirectory
    obtain ⟨keyAlias, halias⟩ := h.keyAlias
    obtain ⟨password, hpassword⟩ := h.keyPassword
    obtain ⟨owners, howners⟩ := h.ownerAliases
    rw [ofLookup, bind_of_ok hdirectory, bind_of_ok halias, bind_of_ok hpassword,
      bind_of_ok howners, passwords_eq_noSign.mpr ⟨h.first, h.sign⟩]
    rfl

/-! ## Two readings -/

def passwordVariables : List String := ["CSP_KEY_PASSWORD", "CSP_KEY_PASSWORDS"]

/-- The variables hold the same, passwords apart. -/
def AgreeButPasswords (l l' : String → Option String) : Prop :=
  ∀ name ∉ passwordVariables, l name = l' name

theorem value?_congr (h : l name = l' name) : value? l name = value? l' name := by
  rw [value?, value?, h]

theorem required_congr (h : l name = l' name) : required l name = required l' name := by
  rw [required, required, value?_congr h]

theorem optional_congr {default : α} {read : String → String → Except ConfigError α}
    (h : l name = l' name) : optional l name default read = optional l' name default read := by
  rw [optional, optional, value?_congr h]

/-- Settings that differ in the passwords only, and not in which aliases have one, show alike. -/
theorem shown_eq_of_heldBy (h : AgreeButPasswords l l') (hc : HeldBy l c) (hc' : HeldBy l' c')
    (hkeys : c.keyPasswords.keys = c'.keyPasswords.keys) : c.shown = c'.shown := by
  have hdirectory : c.keyStoreDirectory = c'.keyStoreDirectory := Except.ok.inj <| by
    rw [← hc.keyStoreDirectory, ← hc'.keyStoreDirectory, required_congr (h _ (by decide))]
  have halias : c.keyAlias = c'.keyAlias := Except.ok.inj <| by
    rw [← hc.keyAlias, ← hc'.keyAlias, required_congr (h _ (by decide))]
  have hsecurity : c.securityProvider = c'.securityProvider := by
    rw [← hc.securityProvider, ← hc'.securityProvider, value?_congr (h _ (by decide))]
  have hinternal : c.internalProvider = c'.internalProvider := by
    rw [← hc.internalProvider, ← hc'.internalProvider, value?_congr (h _ (by decide))]
  have hsymmetric : c.symmetricKeyAlias = c'.symmetricKeyAlias := by
    rw [← hc.symmetricKeyAlias, ← hc'.symmetricKeyAlias, value?_congr (h _ (by decide))]
  have howners : c.ownerAliases = c'.ownerAliases := Except.ok.inj <| by
    rw [← hc.ownerAliases, ← hc'.ownerAliases, optional_congr (h _ (by decide))]
  have hhybrid : c.hybridEnabled = c'.hybridEnabled := Except.ok.inj <| by
    rw [← hc.hybridEnabled, ← hc'.hybridEnabled, optional_congr (h _ (by decide))]
  rw [shown, shown, hdirectory, halias, hsecurity, hinternal, hsymmetric, howners, hkeys, hhybrid]

/-- Of two readings that differ in the passwords only: settings show alike when the same aliases
have a password, and where both fail for want of a sign, the messages are the same exactly when
the items are. -/
theorem told_of_passwords (h : AgreeButPasswords l l') :
    (∀ c c', ofLookup l = .ok c → ofLookup l' = .ok c' →
      c.keyPasswords.keys = c'.keyPasswords.keys → c.shown = c'.shown) ∧
    ∀ i i', StopsAt l i → StopsAt l' i' → ∃ e e', ofLookup l = .error e ∧
      ofLookup l' = .error e' ∧ (e.message = e'.message ↔ i = i') := by
  constructor
  · intro c c' hc hc' hkeys
    exact shown_eq_of_heldBy h (heldBy_of_ofLookup hc) (heldBy_of_ofLookup hc') hkeys
  · intro i i' hi hi'
    exact ⟨noSign i, noSign i', ofLookup_eq_noSign.mpr hi, ofLookup_eq_noSign.mpr hi',
      message_noSign_inj⟩

def variablesWithPasswords (passwords : String) : String → Option String
  | "CSP_KEYSTORE_DIR" => some "ks"
  | "CSP_KEY_ALIAS" => some "tenant"
  | "CSP_KEY_PASSWORD" => some "secret"
  | "CSP_KEY_PASSWORDS" => some passwords
  | _ => none

theorem agree_variablesWithPasswords (p q : String) :
    AgreeButPasswords (variablesWithPasswords p) (variablesWithPasswords q) := by
  intro name hname
  unfold variablesWithPasswords
  split
  · rfl
  · rfl
  · rfl
  · exact absurd (by decide) hname
  · rfl

theorem stopsAt_variablesWithPasswords (p item : String)
    (hitems : items p = ["tenant=pa", item]) (hp : Text.isBlank p = false)
    (hsign : '=' ∉ item.toList) : StopsAt (variablesWithPasswords p) item where
  keyStoreDirectory := ⟨_, rfl⟩
  keyAlias := ⟨_, rfl⟩
  keyPassword := ⟨_, rfl⟩
  ownerAliases := ⟨_, rfl⟩
  first := by
    refine ⟨p, ["tenant=pa"], [], ?_, hitems, ?_⟩
    · exact (Option.filter_eq_some_iff).mpr ⟨rfl, by rw [hp]; rfl⟩
    · intro other hother
      obtain rfl := List.mem_singleton.mp hother
      exact ⟨("tenant", "pa"), rfl⟩
  sign := hsign

/-- Two passwords of one alias show alike, and so do two readings that stop at one item. -/
theorem told_of_passwords_tenant :
    (∃ c c', ofLookup (variablesWithPasswords "tenant=pa") = .ok c ∧
      ofLookup (variablesWithPasswords "tenant = other,") = .ok c' ∧ c.shown = c'.shown) ∧
    ∃ e e', ofLookup (variablesWithPasswords "tenant=pa,ss") = .error e ∧
      ofLookup (variablesWithPasswords " tenant=pa, ss ") = .error e' ∧ e.message = e'.message := by
  constructor
  · obtain ⟨c, hc, hkeys⟩ : ∃ c, ofLookup (variablesWithPasswords "tenant=pa") = .ok c ∧
        c.keyPasswords.keys = ["tenant"] := ⟨_, rfl, rfl⟩
    obtain ⟨c', hc', hkeys'⟩ : ∃ c, ofLookup (variablesWithPasswords "tenant = other,") = .ok c ∧
        c.keyPasswords.keys = ["tenant"] := ⟨_, rfl, rfl⟩
    have h := (told_of_passwords (agree_variablesWithPasswords _ _)).left c c' hc hc'
    exact ⟨c, c', hc, hc', h (hkeys.trans hkeys'.symm)⟩
  · have hstops := stopsAt_variablesWithPasswords "tenant=pa,ss" "ss" (by decide)
      (by decide) (by decide)
    have hstops' := stopsAt_variablesWithPasswords " tenant=pa, ss " "ss"
      (by decide) (by decide) (by decide)
    obtain ⟨e, e', he, he', hsame⟩ :=
      (told_of_passwords (agree_variablesWithPasswords _ _)).right "ss" "ss" hstops hstops'
    exact ⟨e, e', he, he', hsame.mpr rfl⟩

/-- What stands behind the comma of a password is told: two passwords that begin alike give
different messages, each with the rest of its password. -/
theorem a_password_tail_is_told :
    AgreeButPasswords (variablesWithPasswords "tenant=pa,ss")
        (variablesWithPasswords "tenant=pa,tt") ∧
      StopsAt (variablesWithPasswords "tenant=pa,ss") "ss" ∧
      StopsAt (variablesWithPasswords "tenant=pa,tt") "tt" ∧
      ∃ e e', ofLookup (variablesWithPasswords "tenant=pa,ss") = .error e ∧
        ofLookup (variablesWithPasswords "tenant=pa,tt") = .error e' ∧ e.message ≠ e'.message ∧
        e.message =
          "invalid value for CSP_KEY_PASSWORDS: expected key=value, got \x22ss\x22" := by
  have hstops := stopsAt_variablesWithPasswords "tenant=pa,ss" "ss" (by decide)
    (by decide) (by decide)
  have hstops' := stopsAt_variablesWithPasswords "tenant=pa,tt" "tt" (by decide)
    (by decide) (by decide)
  refine ⟨agree_variablesWithPasswords _ _, hstops, hstops', noSign "ss", noSign "tt",
    ofLookup_eq_noSign.mpr hstops, ofLookup_eq_noSign.mpr hstops', ?_, by decide +kernel⟩
  rw [Ne, message_noSign_inj]
  decide

end Config

end Strongbox
