/-
  Strongbox.Proofs.Config.PairLists — pairs in the value of a variable.

  Two variables hold pairs. The text of one is cut at its commas, the pieces are trimmed, the empty
  ones are left out, and each of the others is cut at its first equals sign. Blanks can stand around
  every part, so the reading is stated of all the spellings of some pairs; what is no pair is told
  from the piece as it stands in the text.
  - `pair_trim_eq_ok`: a piece is read the same with or without the blanks around it.
  - `pairs_render`: all spellings of some pairs are read as those pairs.
  - `exists_pairs_eq_ok`: a text is read exactly when no piece of it is a bad one.
  - `ofLookup_eq_map`: what one variable with pairs makes of the settings.
  - `pair_variable_read`: both results for the settings as a whole.
-/

import Strongbox.Proofs.Config.Secrecy
import Strongbox.Proofs.Table

namespace Strongbox

open Outcome

/-- A list of steps succeeds exactly when every step does. -/
theorem Outcome.exists_mapM_eq_ok {f : α → Except ε β} {xs : List α} :
    (∃ ys, xs.mapM f = .ok ys) ↔ ∀ x ∈ xs, ∃ y, f x = .ok y := by
  induction xs with
  | nil => exact iff_of_true ⟨[], rfl⟩ nofun
  | cons x xs ih =>
    rw [List.forall_mem_cons, ← ih, List.mapM_cons]
    constructor
    · rintro ⟨ys, h⟩
      obtain ⟨y, hy, h⟩ := bind_eq_ok.mp h
      obtain ⟨ys, hys, -⟩ := bind_eq_ok.mp h
      exact ⟨⟨y, hy⟩, ys, hys⟩
    · rintro ⟨⟨y, hy⟩, ys, hys⟩
      exact ⟨y :: ys, by rw [hy, hys]; rfl⟩

namespace Config

open Text (isBlank trim Pieces)

variable {l : String → Option String} {c : Config} {name : String}

/-! ## One piece -/

theorem pair_eq_ok {piece key value : String} :
    pair name piece = .ok (key, value) ↔
      (Text.splitAtChar? '=' piece).map (Prod.map trim trim) = some (key, value) ∧
        key ≠ "" ∧ value ≠ "" := by
  rw [pair]
  cases hsplit : Text.splitAtChar? '=' piece with
  | none => simp
  | some parts =>
    obtain ⟨k, v⟩ := parts
    simp only [Option.map_some, Prod.map_apply, Option.some.injEq, Prod.mk.injEq]
    rw [ite_error_eq_ok, not_or, Prod.mk.injEq]
    constructor
    · rintro ⟨hne, rfl, rfl⟩
      exact ⟨⟨rfl, rfl⟩, hne⟩
    · rintro ⟨⟨rfl, rfl⟩, hne⟩
      exact ⟨hne, rfl, rfl⟩

/-- A piece is read the same with or without the blanks around it. -/
theorem pair_trim_eq_ok {piece : String} {kv : String × String} :
    pair name (trim piece) = .ok kv ↔ pair name piece = .ok kv := by
  obtain ⟨key, value⟩ := kv
  rw [pair_eq_ok, pair_eq_ok, Text.splitAtChar?_trim (by decide)]

/-- The piece has no equals sign, or nothing but blanks on one side of the first one. -/
def IsBadPiece (piece : String) : Prop :=
  '=' ∉ piece.toList ∨ ∃ k v, '=' ∉ k.toList ∧ piece = k ++ "=" ++ v ∧
    (isBlank k = true ∨ isBlank v = true)

theorem exists_pair_eq_ok {piece : String} :
    (∃ kv, pair name (trim piece) = .ok kv) ↔ ¬ IsBadPiece piece := by
  simp only [pair_trim_eq_ok, Prod.exists, pair_eq_ok, IsBadPiece]
  cases hsplit : Text.splitAtChar? '=' piece with
  | none => simp [Text.splitAtChar?_eq_none.mp hsplit]
  | some parts =>
    obtain ⟨k, v⟩ := parts
    obtain ⟨hk, rfl⟩ := Text.splitAtChar?_eq_some.mp hsplit
    have hbad : (∃ k' v', '=' ∉ k'.toList ∧ k ++ String.singleton '=' ++ v = k' ++ "=" ++ v' ∧
        (isBlank k' = true ∨ isBlank v' = true)) ↔ isBlank k = true ∨ isBlank v = true := by
      constructor
      · rintro ⟨k', v', hk', he, hblank⟩
        have hsame := Text.splitAtChar?_eq_some.mpr ⟨hk', he⟩
        rw [hsplit, Option.some.injEq, Prod.mk.injEq] at hsame
        obtain ⟨rfl, rfl⟩ := hsame
        exact hblank
      · exact fun hblank => ⟨k, v, hk, rfl, hblank⟩
    have hsign : '=' ∈ (k ++ String.singleton '=' ++ v).toList := by simp
    rw [hbad, or_iff_right (not_not_intro hsign)]
    simp [Text.trim_eq_empty_iff]

/-! ## The pieces of a text -/

/-- A piece of a text between two of its commas. -/
def IsPieceOf (text piece : String) : Prop := ∃ ps, Pieces ',' text ps ∧ piece ∈ ps

theorem isPieceOf_iff {text piece : String} {ps : List String} (h : Pieces ',' text ps) :
    IsPieceOf text piece ↔ piece ∈ ps := by
  constructor
  · rintro ⟨qs, hqs, hpiece⟩
    rw [← Text.splitOnChar_eq_iff] at h hqs
    rw [← h, hqs]
    exact hpiece
  · exact fun hpiece => ⟨ps, h, hpiece⟩

/-- The items of a text are its pieces that are not blank, trimmed. -/
theorem items_eq {text : String} {ps : List String} (h : Pieces ',' text ps) :
    items text = (ps.filter fun p => !isBlank p).map trim := by
  have hempty : (· != "") ∘ trim = fun p => !isBlank p := by
    funext p
    rw [Function.comp_apply, bne, Bool.not_inj_iff, Bool.eq_iff_iff, beq_iff_eq,
      Text.trim_eq_empty_iff]
  rw [items, Text.splitOnChar_eq_iff.mpr h, List.filter_map, hempty]

/-- A text is read exactly when none of its pieces is a bad one. -/
theorem exists_pairs_eq_ok (name text : String) : (∃ t, pairs name text = .ok t) ↔
    ∀ piece, IsPieceOf text piece → isBlank piece = false → ¬ IsBadPiece piece := by
  have hmapM : (∃ t, pairs name text = .ok t) ↔ ∃ kvs, (items text).mapM (pair name) = .ok kvs := by
    constructor
    · rintro ⟨t, ht⟩
      obtain ⟨kvs, hkvs, -⟩ := bind_eq_ok.mp ht
      exact ⟨kvs, hkvs⟩
    · rintro ⟨kvs, hkvs⟩
      exact ⟨_, bind_of_ok hkvs _⟩
  obtain ⟨ps, hps⟩ := Text.exists_pieces ',' text
  rw [hmapM, exists_mapM_eq_ok, items_eq hps]
  simp only [isPieceOf_iff hps, List.forall_mem_map, List.mem_filter, Bool.not_eq_true', and_imp,
    exists_pair_eq_ok]

/-! ## Spellings -/

structure Blanks where
  text : String
  isBlank : Text.isBlank text = true := by decide

structure Pair where
  key : String
  value : String
  key_ne_empty : key ≠ "" := by decide
  value_ne_empty : value ≠ "" := by decide
  trim_key : Text.trim key = key := by decide
  trim_value : Text.trim value = value := by decide
  comma_not_mem_key : ',' ∉ key.toList := by decide
  comma_not_mem_value : ',' ∉ value.toList := by decide
  /-- The first equals sign ends the key; a value may have others. -/
  sign_not_mem_key : '=' ∉ key.toList := by decide

/-- What can stand between two commas. -/
inductive Item where
  | blanks (b : Blanks)
  | pair (p : Pair) (front afterKey beforeValue back : Blanks)

namespace Item

def text : Item → String
  | blanks b => b.text
  | pair p front afterKey beforeValue back =>
    (front.text ++ p.key ++ afterKey.text) ++ "=" ++ (beforeValue.text ++ p.value ++ back.text)

def pair? : Item → Option (String × String)
  | blanks _ => none
  | pair p _ _ _ _ => some (p.key, p.value)

end Item

def render (is : List Item) : String := ",".intercalate (is.map Item.text)

def pairsOf (is : List Item) : List (String × String) := is.filterMap Item.pair?

theorem Blanks.not_mem (b : Blanks) {c : Char} (hc : Text.isBlankChar c = false) :
    c ∉ b.text.toList := Text.not_mem_of_isBlank hc b.isBlank

theorem Item.comma_not_mem (i : Item) : ',' ∉ i.text.toList := by
  have hblank (b : Blanks) : ',' ∉ b.text.toList := b.not_mem (by decide)
  cases i with
  | blanks b => exact hblank b
  | pair p front afterKey beforeValue back =>
    simp [Item.text, hblank, p.comma_not_mem_key, p.comma_not_mem_value]

theorem pair_text (name : String) (p : Pair) (front afterKey beforeValue back : Blanks) :
    pair name (Item.pair p front afterKey beforeValue back).text = .ok (p.key, p.value) := by
  have hsign (b : Blanks) : '=' ∉ b.text.toList := b.not_mem (by decide)
  have hkey : '=' ∉ (front.text ++ p.key ++ afterKey.text).toList := by
    simp [hsign, p.sign_not_mem_key]
  have hsplit : Text.splitAtChar? '=' (Item.pair p front afterKey beforeValue back).text =
      some (front.text ++ p.key ++ afterKey.text, beforeValue.text ++ p.value ++ back.text) :=
    Text.splitAtChar?_eq_some.mpr ⟨hkey, rfl⟩
  refine pair_eq_ok.mpr ⟨?_, p.key_ne_empty, p.value_ne_empty⟩
  rw [hsplit, Option.map_some, Prod.map_apply, Text.trim_blanks front.isBlank afterKey.isBlank,
    Text.trim_blanks beforeValue.isBlank back.isBlank, p.trim_key, p.trim_value]

theorem Item.isBlank_text_pair (p : Pair) (front afterKey beforeValue back : Blanks) :
    isBlank (Item.pair p front afterKey beforeValue back).text = false := by
  rw [Bool.eq_false_iff]
  intro h
  exact Text.not_mem_of_isBlank (show Text.isBlankChar '=' = false by decide) h
    (by simp [Item.text])

/-- Items that are not blank are read one by one. -/
theorem mapM_pair_text (name : String) (is : List Item) :
    (((is.map Item.text).filter fun p => !isBlank p).map trim).mapM (pair name) =
      .ok (pairsOf is) := by
  induction is with
  | nil => rfl
  | cons i is ih =>
    cases i with
    | blanks b =>
      rw [List.map_cons, List.filter_cons_of_neg (by simp [Item.text, b.isBlank])]
      exact ih
    | pair p front afterKey beforeValue back =>
      have hp := pair_trim_eq_ok.mpr (pair_text name p front afterKey beforeValue back)
      rw [List.map_cons, List.filter_cons_of_pos (by simp [Item.isBlank_text_pair]), List.map_cons,
        List.mapM_cons, bind_of_ok hp, bind_of_ok ih]
      rfl

/-- All spellings of some pairs are read as those pairs. -/
theorem pairs_render (name : String) (is : List Item) :
    pairs name (render is) = .ok (.ofList (pairsOf is)) := by
  cases is with
  | nil => rfl
  | cons i is =>
    have hpieces : Pieces ',' (render (i :: is)) ((i :: is).map Item.text) := by
      refine ⟨by simp, ?_, rfl⟩
      intro p hp
      obtain ⟨j, -, rfl⟩ := List.mem_map.mp hp
      exact j.comma_not_mem
    have hread := mapM_pair_text name (i :: is)
    rw [← items_eq hpieces] at hread
    exact bind_of_ok hread _

/-! ## The settings -/

inductive PairVariable where
  | ownerAliases
  | keyPasswords

namespace PairVariable

def variableName : PairVariable → String
  | ownerAliases => "CSP_OWNER_ALIASES"
  | keyPasswords => "CSP_KEY_PASSWORDS"

def put (v : PairVariable) (c : Config) (t : Table String) : Config :=
  match v with
  | ownerAliases => { c with ownerAliases := t }
  | keyPasswords => { c with keyPasswords := t }

end PairVariable

def without (name : String) (l : String → Option String) : String → Option String :=
  fun other => if other = name then none else l other

theorem without_of_ne {other : String} (h : other ≠ name) : without name l other = l other :=
  if_neg h

theorem validate_of_ofLookup (h : ofLookup l = .ok c) : validate c = .ok c := by
  obtain ⟨directory, hdirectory, h⟩ := bind_eq_ok.mp h
  obtain ⟨keyAlias, halias, h⟩ := bind_eq_ok.mp h
  obtain ⟨password, hpassword, h⟩ := bind_eq_ok.mp h
  obtain ⟨owners, howners, h⟩ := bind_eq_ok.mp h
  obtain ⟨passwords, hpasswords, h⟩ := bind_eq_ok.mp h
  obtain ⟨hybrid, hhybrid, h⟩ := bind_eq_ok.mp h
  obtain rfl := eq_of_validate h
  exact h

/-- Pairs are not validated, apart from what they are read from. -/
theorem validate_put (v : PairVariable) (t : Table String) (h : validate c = .ok c) :
    validate (v.put c t) = .ok (v.put c t) := by
  rw [validate] at h
  split at h
  · cases h
  · rename_i halias
    obtain ⟨hprovider, -⟩ := ite_error_eq_ok.mp h
    cases v with
    | ownerAliases => simp [validate, PairVariable.put, halias, hprovider]
    | keyPasswords => simp [validate, PairVariable.put, halias, hprovider]

/-- Where the other variables are accepted, the pairs of one decide whether all are. -/
theorem ofLookup_eq_map {v : PairVariable} (h : ofLookup (without v.variableName l) = .ok c) :
    ofLookup l = (optional l v.variableName .empty pairs).map (v.put c) := by
  have held := heldBy_of_ofLookup h
  have hvalid (t : Table String) := validate_put v t (validate_of_ofLookup h)
  -- What the variables without pairs hold does not hang on the one that was left out.
  have hread {name : String} (hname : name ∉ ["CSP_OWNER_ALIASES", "CSP_KEY_PASSWORDS"]) :
      without v.variableName l name = l name := by
    refine without_of_ne ?_
    rintro rfl
    cases v <;> exact hname (by decide)
  have hdirectory : required l "CSP_KEYSTORE_DIR" = .ok c.keyStoreDirectory :=
    (required_congr (hread (by decide))).symm.trans held.keyStoreDirectory
  have halias : required l "CSP_KEY_ALIAS" = .ok c.keyAlias :=
    (required_congr (hread (by decide))).symm.trans held.keyAlias
  have hpassword : required l "CSP_KEY_PASSWORD" = .ok c.keyPassword :=
    (required_congr (hread (by decide))).symm.trans held.keyPassword
  have hsecurity : value? l "CSP_SECURITY_PROVIDER" = c.securityProvider :=
    (value?_congr (hread (by decide))).symm.trans held.securityProvider
  have hinternal : (value? l "CSP_INTERNAL_PROVIDER").getD KeyStoreProvider.type =
      c.internalProvider := by
    rw [← value?_congr (hread (by decide))]
    exact held.internalProvider
  have hsymmetric : value? l "CSP_SYMMETRIC_KEY_ALIAS" = c.symmetricKeyAlias :=
    (value?_congr (hread (by decide))).symm.trans held.symmetricKeyAlias
  have hhybrid : optional l "CSP_HYBRID_ENABLED" true boolean = .ok c.hybridEnabled :=
    (optional_congr (hread (by decide))).symm.trans held.hybridEnabled
  rw [ofLookup, bind_of_ok hdirectory, bind_of_ok halias, bind_of_ok hpassword]
  cases v with
  | ownerAliases =>
    have hpasswords : optional l "CSP_KEY_PASSWORDS" .empty pairs = .ok c.keyPasswords :=
      (optional_congr (without_of_ne (by decide))).symm.trans held.keyPasswords
    rw [PairVariable.variableName]
    cases optional l "CSP_OWNER_ALIASES" .empty pairs with
    | error e => rfl
    | ok t =>
      rw [ok_bind, bind_of_ok hpasswords, bind_of_ok hhybrid, hsecurity, hinternal, hsymmetric]
      exact hvalid t
  | keyPasswords =>
    have howners : optional l "CSP_OWNER_ALIASES" .empty pairs = .ok c.ownerAliases :=
      (optional_congr (without_of_ne (by decide))).symm.trans held.ownerAliases
    rw [PairVariable.variableName, bind_of_ok howners]
    cases optional l "CSP_KEY_PASSWORDS" .empty pairs with
    | error e => rfl
    | ok t =>
      rw [ok_bind, bind_of_ok hhybrid, hsecurity, hinternal, hsymmetric]
      exact hvalid t

/-- A blank variable counts as absent, and has no pairs either way. -/
theorem optional_pairs {text : String} (h : l name = some text) :
    optional l name .empty pairs = pairs name text := by
  cases hblank : isBlank text with
  | false =>
    have hvalue : value? l name = some text := by
      rw [value?, h]
      exact Option.filter_eq_some_iff.mpr ⟨rfl, by rw [hblank]; rfl⟩
    rw [optional, hvalue]
  | true =>
    have hvalue : value? l name = none := by
      rw [value?, h]
      exact Option.filter_eq_none_iff.mpr fun v hv => by cases hv; simp [hblank]
    have hpieces : Pieces ',' text [text] := by
      refine ⟨by simp, ?_, by simp⟩
      simpa using Text.not_mem_of_isBlank (by decide) hblank
    have hitems : items text = [] := by simp [items_eq hpieces, hblank]
    rw [optional, hvalue, pairs, ← items, hitems]
    rfl

/-- Pairs are refused as an invalid value of the variable, whatever is wrong with them. -/
theorem exists_reason_of_pairs {text : String} {e : ConfigError} (h : pairs name text = .error e) :
    ∃ reason, e = .invalid name reason := by
  obtain ⟨_, i, _, -, -, hi⟩ := pairs_eq_error.mp h
  rw [pair] at hi
  split at hi
  · cases hi
    exact ⟨_, rfl⟩
  · split at hi
    · cases hi
      exact ⟨_, rfl⟩
    · cases hi

/-- Where the other variables are accepted, every spelling of some pairs is read as the last value
of each key, and nothing else of the settings changes. Any text is refused as an invalid value
exactly when one of its pieces is neither blank nor a pair, and is accepted otherwise. -/
theorem pair_variable_read (v : PairVariable) (h : ofLookup (without v.variableName l) = .ok c) :
    (∀ is : List Item, l v.variableName = some (render is) →
      ∃ t, ofLookup l = .ok (v.put c t) ∧
        ∀ key, t.get? key = ((pairsOf is).filterMap (Table.valueUnder key)).getLast?) ∧
    ∀ text, l v.variableName = some text →
      ((∃ reason, ofLookup l = .error (.invalid v.variableName reason)) ↔
        ∃ piece, IsPieceOf text piece ∧ isBlank piece = false ∧ IsBadPiece piece) ∧
      ((∃ t, ofLookup l = .ok (v.put c t)) ↔
        ∀ piece, IsPieceOf text piece → isBlank piece = false → ¬ IsBadPiece piece) := by
  have hread {text : String} (htext : l v.variableName = some text) :
      ofLookup l = (pairs v.variableName text).map (v.put c) := by
    rw [ofLookup_eq_map h, optional_pairs htext]
  constructor
  · intro is his
    refine ⟨.ofList (pairsOf is), ?_, Table.get?_ofList _⟩
    rw [hread his, pairs_render]
    rfl
  · intro text htext
    have hbad : (∃ piece, IsPieceOf text piece ∧ isBlank piece = false ∧ IsBadPiece piece) ↔
        ¬ ∃ t, pairs v.variableName text = .ok t := by
      rw [exists_pairs_eq_ok]
      simp
    rw [hread htext, hbad, ← exists_pairs_eq_ok v.variableName]
    cases hpairs : pairs v.variableName text with
    | ok t => simp [Except.map]
    | error e =>
      obtain ⟨reason, rfl⟩ := exists_reason_of_pairs hpairs
      simp [Except.map]

def noBlanks : Blanks := { text := "" }

def oneBlank : Blanks := { text := " " }

def threePairs : List Item :=
  [.pair { key := "alice", value := "a" } oneBlank noBlanks oneBlank noBlanks,
    .blanks oneBlank,
    .pair { key := "bob", value := "b" } noBlanks noBlanks noBlanks noBlanks,
    .pair { key := "alice", value := "c=d" } noBlanks oneBlank noBlanks noBlanks]

/-- The last password of an alias counts, and a piece without a sign is refused. -/
theorem pair_variable_read_threePairs :
    (∃ c t, ofLookup (variablesWithPasswords " alice= a, ,bob=b,alice =c=d") =
        .ok (PairVariable.keyPasswords.put c t) ∧
      t.get? "alice" = some "c=d" ∧ t.get? "bob" = some "b") ∧
    ∃ reason, ofLookup (variablesWithPasswords "alice=a,bob") =
      .error (.invalid "CSP_KEY_PASSWORDS" reason) := by
  constructor
  · obtain ⟨c, hc⟩ : ∃ c, ofLookup (without PairVariable.keyPasswords.variableName
        (variablesWithPasswords " alice= a, ,bob=b,alice =c=d")) = .ok c := ⟨_, rfl⟩
    have hspelled : variablesWithPasswords " alice= a, ,bob=b,alice =c=d" "CSP_KEY_PASSWORDS" =
        some (render threePairs) := by decide
    obtain ⟨t, ht, hlast⟩ := (pair_variable_read .keyPasswords hc).left threePairs hspelled
    exact ⟨c, t, ht, (hlast "alice").trans (by decide),
      (hlast "bob").trans (by decide)⟩
  · obtain ⟨c, hc⟩ : ∃ c, ofLookup (without PairVariable.keyPasswords.variableName
        (variablesWithPasswords "alice=a,bob")) = .ok c := ⟨_, rfl⟩
    refine ((pair_variable_read .keyPasswords hc).right "alice=a,bob" rfl).left.mpr
      ⟨"bob", ?_, by decide, .inl (by decide)⟩
    exact ⟨["alice=a", "bob"], ⟨by simp, by decide, by decide⟩, by simp⟩

end Config

end Strongbox
