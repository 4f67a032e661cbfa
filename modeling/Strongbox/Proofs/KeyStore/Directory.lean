/-
  Strongbox.Proofs.KeyStore.Directory — what a directory answers for the entries of an alias.

  The file of a kind under an alias is read where it is regular, and an alias is listed when it
  has one. Where no regular file is, the entry is missing only if the place of the file is free:
  something else in the place, or a name that no file can have, is a failure to read.
  - `aliasOf?_eq_some`: the files that belong to an alias.
  - `mem_aliases`: the aliases that are listed.
  - `read_of_free`, `read_of_not_free`: what the system says where no regular file is.
  - `lookup_of_file`, `lookup_of_free`, `lookup_of_not_free`: the answer for an entry.
-/

import Mathlib.Data.List.TakeDrop
import Strongbox.KeyStore.Directory
import Strongbox.Proofs.FileTree
import Strongbox.Proofs.Table
import Strongbox.Proofs.Text.Name

namespace Strongbox.DirectoryStore

variable {files : FileTree} {d : DirectoryStore} {a : String} {k : Kind}

/-! ## Names of files -/

def fileName (a : String) (k : Kind) : String := a ++ "." ++ k.extension

def filePath (d : DirectoryStore) (a : String) (k : Kind) : String :=
  Path.join d.root (fileName a k)

theorem path_of_isAlias (h : isAlias a = true) : d.path a k = .ok (d.filePath a k) := if_pos h

theorem path_of_not_isAlias (h : isAlias a = false) : d.path a k = .error (.invalidAlias a) := by
  rw [path, h]
  rfl

theorem isAlias_iff :
    isAlias a = true ↔ a ≠ "" ∧ a.startsWith "." = false ∧
      ∀ c ∈ a.toList, (c.isAlphanum || c == '.' || c == '_' || c == '-') = true := by
  rw [isAlias, Bool.and_eq_true, Bool.and_eq_true, List.all_eq_true, bne_iff_ne,
    Bool.not_eq_true', and_assoc]

theorem isBlankChar_eq_false_of_isAlias {c : Char}
    (h : (c.isAlphanum || c == '.' || c == '_' || c == '-') = true) : Text.isBlankChar c = false := by
  have hn : c.toNat = 45 ∨ c.toNat = 46 ∨ (48 ≤ c.toNat ∧ c.toNat ≤ 57) ∨
      (65 ≤ c.toNat ∧ c.toNat ≤ 90) ∨ c.toNat = 95 ∨ (97 ≤ c.toNat ∧ c.toNat ≤ 122) := by
    delta Char.isAlphanum Char.isAlpha Char.isUpper Char.isLower Char.isDigit at h
    simp only [Bool.or_eq_true, Bool.and_eq_true, decide_eq_true_eq, beq_iff_eq, ge_iff_le,
      UInt32.le_iff_toNat_le] at h
    rcases h with ((((h | h) | h) | rfl) | rfl) | rfl
    · exact .inr (.inr (.inr (.inl h)))
    · exact .inr (.inr (.inr (.inr (.inr h))))
    · exact .inr (.inr (.inl h))
    · exact .inr (.inl rfl)
    · exact .inr (.inr (.inr (.inr (.inl rfl))))
    · exact .inl rfl
  simp only [Text.isBlankChar, Bool.or_eq_false_iff, Bool.and_eq_false_iff, decide_eq_false_iff_not,
    beq_eq_false_iff_ne]
  omega

theorem trim_of_isAlias (h : isAlias a = true) : Text.trim a = a := by
  obtain ⟨-, -, hc⟩ := isAlias_iff.mp h
  exact Text.trim_eq_self fun c hm => isBlankChar_eq_false_of_isAlias (hc c hm)

theorem not_isAlias_of_trim_ne (h : Text.trim a ≠ a) : isAlias a = false :=
  Bool.eq_false_iff.mpr (mt trim_of_isAlias h)

theorem Kind.mem_all (k : Kind) : k ∈ all := by cases k <;> decide

theorem Kind.plain_extension (k : Kind) :
    ∀ c ∈ k.extension.toList, c.isAlphanum = true ∧ c ≠ '.' := by
  have h : (k.extension.toList.all fun c => c.isAlphanum && c != '.') = true := by
    cases k <;> decide
  intro c hc
  simpa using List.all_eq_true.mp h c hc

/-- The file of an alias is one that a directory can hold under its name. -/
theorem isName_fileName (h : isAlias a = true) (k : Kind) : Path.IsName (fileName a k) := by
  obtain ⟨hne, -, hc⟩ := isAlias_iff.mp h
  have hlen : 3 < (fileName a k).toList.length := by
    have ha : 0 < a.toList.length :=
      List.length_pos_iff.mpr fun h0 => hne (String.toList_eq_nil_iff.mp h0)
    have hk : k.extension.toList.length = 3 := by cases k <;> rfl
    rw [fileName, String.toList_append, String.toList_append, List.length_append,
      List.length_append, hk]
    omega
  have hshort {w : String} (hw : w.toList.length ≤ 3) : fileName a k ≠ w := by
    rintro rfl
    omega
  refine ⟨hshort (by decide), hshort (by decide), hshort (by decide), ?_⟩
  intro hm
  rw [fileName, String.toList_append, String.toList_append, List.mem_append, List.mem_append] at hm
  rcases hm with (hm | hm) | hm
  · exact absurd (hc _ hm) (by decide)
  · exact absurd hm (by decide)
  · exact absurd (k.plain_extension _ hm).1 (by decide)

/-- A name is split at its last dot. -/
theorem splitExtension?_append {stem e : String} (hs : stem ≠ "") (he : '.' ∉ e.toList) :
    splitExtension? (stem ++ "." ++ e) = some (stem, e) := by
  have hr : (stem ++ "." ++ e).toList.reverse = e.toList.reverse ++ '.' :: stem.toList.reverse := by
    simp
  have hp : ∀ c ∈ e.toList.reverse, (c != '.') = true := by
    intro c hc
    rw [bne_iff_ne]
    rintro rfl
    exact he (List.mem_reverse.mp hc)
  have hspan : (stem ++ "." ++ e).toList.reverse.span (· != '.') =
      (e.toList.reverse, '.' :: stem.toList.reverse) := by
    rw [List.span_eq_takeWhile_dropWhile, hr, List.takeWhile_append_of_pos hp,
      List.dropWhile_append_of_pos hp]
    simp
  rw [splitExtension?]
  simp only [hspan]
  split
  · rename_i h
    cases h
  · rename_i h
    have hnil : stem.toList.reverse = [] := (List.cons.inj (Prod.mk.inj h).2).2
    exact absurd (String.toList_eq_nil_iff.mp (List.reverse_eq_nil_iff.mp hnil)) hs
  · rename_i h
    cases h
    simp

theorem eq_of_splitExtension? {n stem e : String} (h : splitExtension? n = some (stem, e)) :
    n = stem ++ "." ++ e := by
  rw [splitExtension?, List.span_eq_takeWhile_dropWhile] at h
  split at h
  · cases h
  · cases h
  · rename_i e' c stem' hne hspan
    cases h
    obtain ⟨ht, hd⟩ := Prod.mk.inj hspan
    have hc : c = '.' := by
      have hh := List.head_dropWhile_not (· != '.') (l := n.toList.reverse) (by rw [hd]; simp)
      simpa [hd] using hh
    subst hc
    have hn : n.toList.reverse = e' ++ '.' :: stem' := by
      rw [← ht, ← hd, List.takeWhile_append_dropWhile]
    rw [← String.toList_inj, ← List.reverse_reverse n.toList, hn]
    simp

theorem aliasOf?_eq_some {n : String} :
    aliasOf? n = some a ↔ isAlias a = true ∧ ∃ k, n = fileName a k := by
  constructor
  · intro h
    rw [aliasOf?] at h
    split at h
    · rename_i stem e hs
      split at h
      · rename_i hk
        cases h
        obtain ⟨he, ha⟩ := Bool.and_eq_true_iff.mp hk
        obtain ⟨k, -, hke⟩ := List.any_eq_true.mp he
        rw [beq_iff_eq] at hke
        refine ⟨ha, k, ?_⟩
        rw [eq_of_splitExtension? hs, fileName, hke]
      · cases h
    · cases h
  · intro h
    obtain ⟨ha, k, rfl⟩ := h
    have hs : splitExtension? (fileName a k) = some (a, k.extension) :=
      splitExtension?_append (isAlias_iff.mp ha).1 fun hm => (k.plain_extension _ hm).2 rfl
    have hk : Kind.all.any (·.extension == k.extension) = true :=
      List.any_eq_true.mpr ⟨k, k.mem_all, beq_iff_eq.mpr rfl⟩
    rw [aliasOf?, hs]
    simp only [hk, ha, Bool.and_self, if_true]

/-! ## Listed aliases -/

theorem mem_aliases (hroot : files.isDirectory d.root = true) :
    ∃ t : Table Unit, d.aliases files = .ok t.keys ∧
      ∀ a, a ∈ t.keys ↔ isAlias a = true ∧ ∃ k, files.isFile (d.filePath a k) = true := by
  obtain ⟨names, hl⟩ := FileTree.exists_list_of_isDirectory hroot
  rw [aliases, hl]
  refine ⟨_, rfl, fun a => ?_⟩
  rw [Table.mem_keys_ofList, List.map_map]
  constructor
  · intro h
    obtain ⟨b, hb, rfl⟩ := List.mem_map.mp h
    obtain ⟨n, hn, hb⟩ := List.mem_filterMap.mp hb
    obtain ⟨ha, k, rfl⟩ := aliasOf?_eq_some.mp hb
    exact ⟨ha, k, (List.mem_filter.mp hn).2⟩
  · intro h
    obtain ⟨ha, k, hf⟩ := h
    obtain ⟨names', hl', hm⟩ := FileTree.mem_list_of_isFile hroot (isName_fileName ha k) hf
    rw [hl] at hl'
    cases hl'
    exact List.mem_map.mpr ⟨a, List.mem_filterMap.mpr
      ⟨_, List.mem_filter.mpr ⟨hm, hf⟩, aliasOf?_eq_some.mpr ⟨ha, k, rfl⟩⟩, rfl⟩

theorem isDirectory_of_aliases {l : List String} (h : d.aliases files = .ok l) :
    files.isDirectory d.root = true := by
  rw [aliases] at h
  split at h
  · cases h
  · rename_i names hnames
    exact FileTree.isDirectory_of_list hnames

theorem contains_of_isAlias (h : isAlias a = true) :
    d.contains files a = .ok (Kind.all.any fun k => files.isFile (d.filePath a k)) := by
  simp [contains, Kind.all, path_of_isAlias h, bind, Except.bind, pure, Except.pure]

/-! ## Entries -/

def lookup (files : FileTree) (d : DirectoryStore) (a : String) (k : Kind)
    (decode : Bytes → Except StoreError (Option α)) : Except StoreError (Option α) := do
  match (← d.content files a k) with
  | none => return none
  | some b => decode b

theorem certificate_eq_lookup : d.certificate files a =
    d.lookup files a .certificate fun b => decoded a (Certificate.ofBytes b) := rfl

theorem privateKey_eq_lookup (password : Bytes) : d.privateKey files a password =
    d.lookup files a .privateKey fun b => decoded a (PrivateKey.ofBytes b password) := rfl

theorem secretKey_eq_lookup : d.secretKey files a =
    d.lookup files a .secretKey fun b =>
      match Text.Utf8.defect? b with
      | some e => throw (.corrupt a ("secret key file is not UTF-8: " ++ e.message))
      | none => decoded a (SecretKey.ofHex ((Bytes.toString? b).getD "")) := rfl

/-- The place of a file is free for one: its name is not too long for a file, and no directory
has it. -/
def Free (files : FileTree) (d : DirectoryStore) (a : String) (k : Kind) : Prop :=
  isAlias a = true →
    (fileName a k).utf8ByteSize ≤ 255 ∧ files.isDirectory (d.filePath a k) = false

variable {decode : Bytes → Except StoreError (Option α)}

theorem lookup_of_not_isAlias (h : isAlias a = false) :
    d.lookup files a k decode = .error (.invalidAlias a) := by
  simp [lookup, content, path_of_not_isAlias h, bind, Except.bind]

theorem lookup_of_file {b : Bytes} (h : isAlias a = true)
    (hf : files.read (d.filePath a k) = .ok b) : d.lookup files a k decode = decode b := by
  simp [lookup, content, path_of_isAlias h, hf, bind, Except.bind, pure, Except.pure]

theorem lookup_of_notFound (h : isAlias a = true)
    (hf : files.read (d.filePath a k) = .error .notFound) :
    d.lookup files a k decode = .ok none := by
  simp [lookup, content, path_of_isAlias h, hf, bind, Except.bind, pure, Except.pure]

theorem lookup_of_unreadable {e : FileError} (h : isAlias a = true) (he : e ≠ .notFound)
    (hf : files.read (d.filePath a k) = .error e) :
    d.lookup files a k decode = .error (.inputOutput e.message) := by
  cases e with
  | notFound => exact absurd rfl he
  | _ =>
    simp [lookup, content, path_of_isAlias h, hf, bind, Except.bind, throw, throwThe,
      MonadExceptOf.throw]

theorem isAlias_of_lookup {v : α} (h : d.lookup files a k decode = .ok (some v)) :
    isAlias a = true := by
  by_contra hn
  rw [lookup_of_not_isAlias (Bool.eq_false_iff.mpr hn)] at h
  cases h

/-- What is found under an alias is in a regular file, so the alias is listed. -/
theorem mem_aliases_of_lookup (hroot : files.isDirectory d.root = true) {v : α}
    (h : d.lookup files a k decode = .ok (some v)) :
    ∃ aliases, d.aliases files = .ok aliases ∧ a ∈ aliases := by
  have ha : isAlias a = true := isAlias_of_lookup h
  have hf : files.isFile (d.filePath a k) = true := by
    cases hread : files.read (d.filePath a k) with
    | ok b => rw [FileTree.isFile, FileTree.node_of_read hread]
    | error e =>
      by_cases he : e = .notFound
      · rw [lookup_of_notFound ha (he ▸ hread)] at h
        cases h
      · rw [lookup_of_unreadable ha he hread] at h
        cases h
  obtain ⟨t, hl, hm⟩ := mem_aliases hroot
  exact ⟨t.keys, hl, (hm a).mpr ⟨ha, k, hf⟩⟩

section NoFile

variable (hroot : files.isDirectory d.root = true) (h : isAlias a = true)
  (hf : files.isFile (d.filePath a k) = false)
include hroot h hf

/-- What reading finds in the place of a file that is not there. -/
theorem read_of_no_file :
    files.read (d.filePath a k) =
      if 255 < (fileName a k).utf8ByteSize then .error .nameTooLong
      else if files.isDirectory (d.filePath a k) = true then .error .isDirectory
      else .error .notFound := by
  obtain ⟨p, hr⟩ := FileTree.exists_reach_of_isDirectory hroot
  have hnode := FileTree.node_join hr (isName_fileName h k)
  rw [filePath] at hf ⊢
  rw [FileTree.isFile] at hf
  rw [FileTree.read, FileTree.isDirectory]
  rw [hnode] at hf ⊢
  by_cases hl : 255 < (fileName a k).utf8ByteSize
  · simp only [if_pos hl]
  · simp only [if_neg hl] at hf ⊢
    cases hfind : files.find? (p ++ [fileName a k]) with
    | none => simp
    | some node =>
      cases node with
      | directory => simp
      | file b =>
        rw [hfind] at hf
        cases hf

theorem read_of_free (hfree : Free files d a k) :
    files.read (d.filePath a k) = .error .notFound := by
  obtain ⟨hl, hd⟩ := hfree h
  rw [read_of_no_file hroot h hf, if_neg (Nat.not_lt.mpr hl), if_neg (by rw [hd]; decide)]

/-- What stands in the way is the name or a directory. -/
theorem read_of_not_free (hfree : ¬ Free files d a k) :
    ∃ e, (e = .nameTooLong ∨ e = .isDirectory) ∧ files.read (d.filePath a k) = .error e := by
  have hread := read_of_no_file hroot h hf
  by_cases hl : 255 < (fileName a k).utf8ByteSize
  · rw [if_pos hl] at hread
    exact ⟨.nameTooLong, .inl rfl, hread⟩
  · have hd : files.isDirectory (d.filePath a k) = true := by
      by_contra hd
      exact hfree fun _ => ⟨Nat.not_lt.mp hl, Bool.eq_false_iff.mpr hd⟩
    rw [if_neg hl, if_pos hd] at hread
    exact ⟨.isDirectory, .inr rfl, hread⟩

theorem lookup_of_free (hfree : Free files d a k) : d.lookup files a k decode = .ok none :=
  lookup_of_notFound h (read_of_free hroot h hf hfree)

theorem lookup_of_not_free (hfree : ¬ Free files d a k) :
    ∃ e : FileError, (e = .nameTooLong ∨ e = .isDirectory) ∧
      d.lookup files a k decode = .error (.inputOutput e.message) := by
  obtain ⟨e, he, hread⟩ := read_of_not_free hroot h hf hfree
  refine ⟨e, he, lookup_of_unreadable h ?_ hread⟩
  rcases he with rfl | rfl <;> exact nofun

end NoFile

def emptyKeyStore : FileTree := ⟨[(["ks"], .directory)]⟩

theorem isDirectory_emptyKeyStore : emptyKeyStore.isDirectory "ks" = true := by decide +kernel

theorem ofRoot_emptyKeyStore : ofRoot emptyKeyStore "ks" = .ok ⟨"ks"⟩ :=
  if_pos isDirectory_emptyKeyStore

end Strongbox.DirectoryStore
