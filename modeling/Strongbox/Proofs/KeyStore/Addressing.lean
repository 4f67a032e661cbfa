/-
  Strongbox.Proofs.KeyStore.Addressing — from an alias to its files, and back from the files to
  the aliases.

  The file of a kind under an alias has the alias and an extension for a name. No character of an
  alias leads out of the directory, so the file is a child of it; any other text is refused before
  a file is asked for. The listing goes the other way and takes the last dot of a name for that of
  the extension. An alias may have dots of its own and even end like a file, but no extension has
  one, so the two ways undo each other: no file belongs to two entries, and an alias is contained
  exactly when it is listed.
  - `fileName_inj`: entries of one name are the same.
  - `contains_iff_listed`: what is contained is what is listed.
  - `addresses_and_lists`: both ways, for every directory that was opened.
-/

import Strongbox.Proofs.KeyStore.Directory

namespace Strongbox.DirectoryStore

variable {files : FileTree} {d : DirectoryStore} {a a' : String} {k k' : Kind}

/-! ## The texts that are aliases -/

/-- A text of letters and digits of ASCII, dots, underscores and hyphens, which does not begin with
a dot. -/
structure Addressable (a : String) : Prop where
  ne_empty : a ≠ ""
  no_dot : a.toList.head? ≠ some '.'
  plain : ∀ c ∈ a.toList, ('A' ≤ c ∧ c ≤ 'Z') ∨ ('a' ≤ c ∧ c ≤ 'z') ∨ ('0' ≤ c ∧ c ≤ '9') ∨
    c = '.' ∨ c = '_' ∨ c = '-'

theorem isAlphanum_iff {c : Char} :
    c.isAlphanum = true ↔ ('A' ≤ c ∧ c ≤ 'Z') ∨ ('a' ≤ c ∧ c ≤ 'z') ∨ ('0' ≤ c ∧ c ≤ '9') := by
  delta Char.isAlphanum Char.isAlpha Char.isUpper Char.isLower Char.isDigit
  simp only [Bool.or_eq_true, Bool.and_eq_true, decide_eq_true_eq, ge_iff_le, or_assoc]
  rfl

theorem startsWith_dot_iff : a.startsWith "." = true ↔ a.toList.head? = some '.' := by
  rw [String.startsWith_string_iff]
  cases a.toList with
  | nil => simp
  | cons c cs => simp [eq_comm]

theorem isAlias_iff_addressable : isAlias a = true ↔ Addressable a := by
  simp only [isAlias_iff, Bool.eq_false_iff, ne_eq, startsWith_dot_iff, Bool.or_eq_true, beq_iff_eq,
    isAlphanum_iff, or_assoc]
  constructor
  · rintro ⟨hne, hdot, hplain⟩
    exact ⟨hne, hdot, hplain⟩
  · intro h
    exact ⟨h.ne_empty, h.no_dot, h.plain⟩

theorem isAlias_eq_false_iff : isAlias a = false ↔ ¬ Addressable a := by
  rw [Bool.eq_false_iff, Ne, isAlias_iff_addressable]

/-! ## From an alias to a file -/

theorem path_eq_ok_iff {path : String} :
    d.path a k = .ok path ↔ Addressable a ∧ path = d.filePath a k := by
  rw [← isAlias_iff_addressable]
  by_cases h : isAlias a = true
  · rw [path_of_isAlias h, Except.ok.injEq, eq_comm, and_iff_right h]
  · rw [path_of_not_isAlias (Bool.eq_false_iff.mpr h)]
    exact ⟨nofun, fun hp => absurd hp.1 h⟩

theorem extension_inj (h : k.extension = k'.extension) : k = k' := by
  cases k <;> cases k' <;> first | rfl | exact absurd h (by decide)

theorem fileName_inj (ha : isAlias a = true) (ha' : isAlias a' = true)
    (h : fileName a k = fileName a' k') : a = a' ∧ k = k' := by
  -- the alias is read back from the name
  have hof : aliasOf? (fileName a k) = some a := aliasOf?_eq_some.mpr ⟨ha, k, rfl⟩
  have hof' : aliasOf? (fileName a' k') = some a' := aliasOf?_eq_some.mpr ⟨ha', k', rfl⟩
  obtain rfl : a = a' := by
    rw [h, hof'] at hof
    exact (Option.some.inj hof).symm
  refine ⟨rfl, extension_inj ?_⟩
  rw [fileName, fileName, ← String.toList_inj, String.toList_append,
    String.toList_append (t := k'.extension)] at h
  exact String.toList_inj.mp (List.append_cancel_left h)

structure Addresses (d : DirectoryStore) : Prop where
  /-- A path is formed for the plain texts only. -/
  formed : ∀ a k path, d.path a k = .ok path ↔
    Addressable a ∧ path = Path.join d.root (a ++ "." ++ k.extension)
  /-- It has one step more than the directory. -/
  child : ∀ a k path, d.path a k = .ok path →
    Path.ofString path = Path.ofString d.root ++ [a ++ "." ++ k.extension]
  /-- Whatever it leads to stands in the directory, under the name of the entry. -/
  confined : ∀ a k path files root steps node, d.path a k = .ok path →
    FileTree.reach files d.root = .ok (root, .directory) → files.reach path = .ok (steps, node) →
      steps = root ++ [a ++ "." ++ k.extension]
  /-- No two entries have a file in common. -/
  apart : ∀ a k path a' k' path', d.path a k = .ok path → d.path a' k' = .ok path' →
    Path.ofString path = Path.ofString path' → a = a' ∧ k = k'
  /-- Any other text is refused, whatever the files are. -/
  refused : ∀ a, ¬ Addressable a → ∀ files password,
    d.contains files a = .error (.invalidAlias a) ∧
    d.certificate files a = .error (.invalidAlias a) ∧
    d.privateKey files a password = .error (.invalidAlias a) ∧
    d.secretKey files a = .error (.invalidAlias a)

theorem contains_of_not_isAlias (h : isAlias a = false) :
    d.contains files a = .error (.invalidAlias a) := by
  simp [contains, Kind.all, path_of_not_isAlias h, bind, Except.bind]

theorem addresses (d : DirectoryStore) : d.Addresses := by
  have isName {a : String} (h : Addressable a) (k : Kind) : Path.IsName (fileName a k) :=
    isName_fileName (isAlias_iff_addressable.mpr h) k
  have child {a path : String} {k : Kind} (h : d.path a k = .ok path) :
      Path.ofString path = Path.ofString d.root ++ [fileName a k] := by
    obtain ⟨ha, rfl⟩ := path_eq_ok_iff.mp h
    exact Path.ofString_join d.root (isName ha k)
  constructor
  case formed => exact fun a k path => path_eq_ok_iff
  case child => exact fun a k path => child
  case confined =>
    intro a k path files root steps node h hroot hreach
    obtain ⟨ha, rfl⟩ := path_eq_ok_iff.mp h
    exact FileTree.steps_of_reach_join hroot (isName ha k) hreach
  case apart =>
    intro a k path a' k' path' h h' he
    rw [child h, child h'] at he
    obtain ⟨ha, -⟩ := path_eq_ok_iff.mp h
    obtain ⟨ha', -⟩ := path_eq_ok_iff.mp h'
    exact fileName_inj (isAlias_iff_addressable.mpr ha) (isAlias_iff_addressable.mpr ha')
      (List.singleton_inj.mp (List.append_cancel_left he))
  case refused =>
    intro a h files password
    have ha := isAlias_eq_false_iff.mpr h
    exact ⟨contains_of_not_isAlias ha, lookup_of_not_isAlias ha, lookup_of_not_isAlias ha,
      lookup_of_not_isAlias ha⟩

/-! ## From the files to the aliases -/

theorem contains_eq_true_iff :
    d.contains files a = .ok true ↔
      isAlias a = true ∧ ∃ k, files.isFile (d.filePath a k) = true := by
  by_cases h : isAlias a = true
  · rw [contains_of_isAlias h, Except.ok.injEq, List.any_eq_true, and_iff_right h]
    exact exists_congr fun k => and_iff_right k.mem_all
  · rw [contains_of_not_isAlias (Bool.eq_false_iff.mpr h)]
    exact ⟨nofun, fun hf => absurd hf.1 h⟩

/-- An alias with a file shows that the directory is still there. -/
theorem isDirectory_of_contains (hne : d.root ≠ "") (h : d.contains files a = .ok true) :
    files.isDirectory d.root = true := by
  obtain ⟨ha, k, hf⟩ := contains_eq_true_iff.mp h
  rw [FileTree.isFile, FileTree.node, filePath] at hf
  cases hr : files.reach (Path.join d.root (fileName a k)) with
  | error e =>
    rw [hr] at hf
    cases hf
  | ok reached => exact FileTree.isDirectory_of_reach_join hne (isName_fileName ha k) hr

/-- What is contained is what is listed. -/
theorem contains_iff_listed (hne : d.root ≠ "") :
    d.contains files a = .ok true ↔ ∃ l, d.aliases files = .ok l ∧ a ∈ l := by
  constructor
  · intro h
    obtain ⟨t, hl, hm⟩ := mem_aliases (isDirectory_of_contains hne h)
    exact ⟨t.keys, hl, (hm a).mpr (contains_eq_true_iff.mp h)⟩
  · rintro ⟨l, hl, ha⟩
    obtain ⟨t, ht, hm⟩ := mem_aliases (isDirectory_of_aliases hl)
    cases hl.symm.trans ht
    exact contains_eq_true_iff.mpr ((hm a).mp ha)

structure ListsContained (files : FileTree) (d : DirectoryStore) : Prop where
  listed : (∃ l, d.aliases files = .ok l) ↔ files.isDirectory d.root = true
  increasing : ∀ l, d.aliases files = .ok l → l.Pairwise (· < ·)
  contained : ∀ a, d.contains files a = .ok true ↔ ∃ l, d.aliases files = .ok l ∧ a ∈ l

theorem listsContained (files : FileTree) (hne : d.root ≠ "") : ListsContained files d := by
  constructor
  case listed =>
    refine ⟨fun ⟨l, hl⟩ => isDirectory_of_aliases hl, fun hroot => ?_⟩
    obtain ⟨t, hl, -⟩ := mem_aliases hroot
    exact ⟨t.keys, hl⟩
  case increasing =>
    intro l hl
    obtain ⟨t, ht, -⟩ := mem_aliases (isDirectory_of_aliases hl)
    cases hl.symm.trans ht
    exact t.pairwise_keys
  case contained => exact fun a => contains_iff_listed hne

theorem root_ne_empty {root : String} (h : ofRoot files root = .ok d) : d.root ≠ "" := by
  rw [ofRoot] at h
  split at h
  · rename_i hroot
    cases h
    rintro rfl
    cases hroot
  · cases h

/-- A directory that was opened addresses each entry by a file of its own among its children, and
whatever its files become, it lists in order exactly the aliases that it contains. -/
theorem addresses_and_lists {root : String} (h : ofRoot files root = .ok d) :
    d.Addresses ∧ ∀ present, ListsContained present d :=
  ⟨d.addresses, fun present => listsContained present (root_ne_empty h)⟩

/-- A key, a certificate whose alias ends like the name of the key, and what is no entry: a
directory in the place of a certificate, a name that begins with a dot and a name without a
kind. -/
def dottedFiles : FileTree :=
  ⟨[(["ks"], .directory), (["ks", "b.key.crt"], .file []), (["ks", "b.key"], .file []),
    (["ks", "a.crt"], .directory), (["ks", ".hidden.crt"], .file []),
    (["ks", "notes.txt"], .file [])]⟩

theorem addresses_and_lists_dottedFiles :
    ofRoot dottedFiles "ks" = .ok ⟨"ks"⟩ ∧ aliases dottedFiles ⟨"ks"⟩ = .ok ["b", "b.key"] ∧
    contains dottedFiles ⟨"ks"⟩ "b.key" = .ok true ∧ contains dottedFiles ⟨"ks"⟩ "a" ≠ .ok true ∧
    contains dottedFiles ⟨"ks"⟩ "../ks/b" = .error (.invalidAlias "../ks/b") := by
  have hopen : ofRoot dottedFiles "ks" = .ok ⟨"ks"⟩ := by decide +kernel
  have hl : aliases dottedFiles ⟨"ks"⟩ = .ok ["b", "b.key"] := by decide +kernel
  obtain ⟨haddresses, hlists⟩ := addresses_and_lists hopen
  have hcontained := (hlists dottedFiles).contained
  refine ⟨hopen, hl, (hcontained "b.key").mpr ⟨_, hl, by decide⟩, ?_, ?_⟩
  · intro h
    obtain ⟨l, hl', ha⟩ := (hcontained "a").mp h
    cases hl.symm.trans hl'
    exact absurd ha (by decide)
  · exact (haddresses.refused "../ks/b" (isAlias_eq_false_iff.mp (by decide +kernel))
      dottedFiles []).1

end Strongbox.DirectoryStore
