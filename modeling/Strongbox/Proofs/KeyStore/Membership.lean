/-
  Strongbox.Proofs.KeyStore.Membership — an alias that a directory does not contain, and what is
  read under it.

  A directory contains an alias when one of its three files is regular, and it finds nothing of a
  kind when the system says that the file is not there. The two are the same question as long as
  nothing else stands in the place of a file. A directory of the name, or a name that is too long
  for a file, is no regular file, so the alias is neither contained nor listed; but the system
  refuses to read it in words of its own, and the store takes them for a failure.
  - `material_eq_none_iff`: when nothing is found.
  - `resolve_of_free`, `resolve_of_not_free`: what is resolved under an alias that is not contained.
  - `membership`: where membership agrees with reading, and what a caller sees where it does not.
  - `a_directory_for_a_certificate_is_no_missing_entry`: an alias that is not contained and fails.
-/

import Strongbox.Proofs.KeyStore.Addressing
import Strongbox.Proofs.KeyStore.Outcomes

namespace Strongbox.DirectoryStore

variable {files : FileTree} {d : DirectoryStore} {a : String} {k : Kind}

/-! ## What is contained and what is read -/

/-- Whatever is asked for under the alias, with whatever password, there is none. -/
def FindsNothing (files : FileTree) (d : DirectoryStore) (a : String) : Prop :=
  d.certificate files a = .ok none ∧ (∀ password, d.privateKey files a password = .ok none) ∧
    d.secretKey files a = .ok none

theorem findsNothing_iff :
    d.FindsNothing files a ↔ ∀ password k, d.material files a password k = .ok none := by
  constructor
  · rintro ⟨hc, hp, hs⟩ password k
    cases k with
    | certificate => exact hc
    | privateKey => exact hp password
    | secretKey => exact hs
  · intro h
    exact ⟨h [] .certificate, fun password => h password .privateKey, h [] .secretKey⟩

theorem contains_eq_false_iff (ha : isAlias a = true) :
    d.contains files a = .ok false ↔ ∀ k, files.isFile (d.filePath a k) = false := by
  rw [contains_of_isAlias ha, Except.ok.injEq, List.any_eq_false]
  simp only [Bool.not_eq_true]
  exact ⟨fun h k => h k k.mem_all, fun h k _ => h k⟩

/-- The system says that a file is not there when it is no regular one and its place is free. -/
theorem read_eq_notFound_iff (hroot : files.isDirectory d.root = true) (ha : isAlias a = true) :
    files.read (d.filePath a k) = .error .notFound ↔
      files.isFile (d.filePath a k) = false ∧ d.Free files a k := by
  constructor
  · intro h
    have hf : files.isFile (d.filePath a k) = false := by
      rw [FileTree.isFile]
      split
      · rename_i b hb
        rw [FileTree.read, hb] at h
        cases h
      · rfl
    refine ⟨hf, ?_⟩
    by_contra hfree
    obtain ⟨e, he, hread⟩ := read_of_not_free hroot ha hf hfree
    rw [h] at hread
    rcases he with rfl | rfl <;> cases hread
  · rintro ⟨hf, hfree⟩
    exact read_of_free hroot ha hf hfree

/-- Nothing of a kind is found when the file is not there; what is there is decoded, or is a
failure. -/
theorem material_eq_none_iff (hroot : files.isDirectory d.root = true) (ha : isAlias a = true)
    (password : Bytes) :
    d.material files a password k = .ok none ↔
      files.isFile (d.filePath a k) = false ∧ d.Free files a k := by
  obtain ⟨decode, hl, hvalue, -⟩ := exists_decode files d a password k
  rw [hl, ← read_eq_notFound_iff hroot ha]
  cases hread : files.read (d.filePath a k) with
  | ok b =>
    rw [lookup_of_file ha hread]
    exact iff_of_false (hvalue b) (by intro h; cases h)
  | error e =>
    by_cases he : e = .notFound
    · subst he
      exact iff_of_true (lookup_of_notFound ha hread) rfl
    · rw [lookup_of_unreadable ha he hread]
      exact iff_of_false (by intro h; cases h) fun h => he (Except.error.inj h)

theorem findsNothing_iff_free (hroot : files.isDirectory d.root = true) (ha : isAlias a = true) :
    d.FindsNothing files a ↔ d.contains files a = .ok false ∧ ∀ k, d.Free files a k := by
  rw [findsNothing_iff, contains_eq_false_iff ha]
  simp only [material_eq_none_iff hroot ha]
  exact ⟨fun h => ⟨fun k => (h [] k).1, fun k => (h [] k).2⟩, fun h _ k => ⟨h.1 k, h.2 k⟩⟩

/-! ## What is resolved -/

section Unlisted

variable {r : Resolver} {c : CryptoContext} (hroot : files.isDirectory d.root = true)
  (ha : isAlias (r.aliasFor c) = true) (hc : d.contains files (r.aliasFor c) = .ok false)
include hroot ha hc

/-- Under an alias that is not contained there is no entry, if the place of the file is free. -/
theorem resolve_of_free (hfree : d.Free files (r.aliasFor c) k) :
    (r.over (d.view files)).resolve c k = .ok (.notFound (r.aliasFor c) .missingAlias) := by
  have hf := (contains_eq_false_iff ha).mp hc k
  have hl : (r.over (d.view files)).lookup ((r.over (d.view files)).aliasFor c) k = .ok none := by
    rw [lookup_over_view]
    exact (material_eq_none_iff hroot ha _).mpr ⟨hf, hfree⟩
  rw [Resolver.resolve_eq (by rw [hl]; exact nofun), hl]
  exact Resolver.missing_of_contains (r := r.over (d.view files)) hc k.absence

/-- Otherwise the store fails. -/
theorem resolve_of_not_free (hfree : ¬ d.Free files (r.aliasFor c) k) :
    ∃ e : FileError, (e = .nameTooLong ∨ e = .isDirectory) ∧
      (r.over (d.view files)).resolve c k =
        .error (.keyStoreAccess (k.unread (r.aliasFor c) d.name)
          (some (.store (.inputOutput e.message)))) := by
  have hf := (contains_eq_false_iff ha).mp hc k
  obtain ⟨decode, hdecode, -⟩ :=
    exists_decode files d (r.aliasFor c) (r.passwordFor (r.aliasFor c)) k
  obtain ⟨e, he, hfails⟩ : ∃ e : FileError, _ ∧
      d.lookup files (r.aliasFor c) k decode = .error (.inputOutput e.message) :=
    lookup_of_not_free hroot ha hf hfree
  have hl : (r.over (d.view files)).lookup ((r.over (d.view files)).aliasFor c) k =
      .error (.inputOutput e.message) := by
    rw [lookup_over_view]
    exact hdecode.trans hfails
  refine ⟨e, he, ?_⟩
  rw [Resolver.resolve_eq (by rw [hl]; exact nofun), hl]
  rfl

end Unlisted

structure Membership (files : FileTree) (d : DirectoryStore) (a : String) : Prop where
  /-- Where nothing is found the alias is not contained. -/
  contained : d.FindsNothing files a → d.contains files a = .ok false
  /-- The two are the same exactly where the alias is contained or nothing stands in the places of
  its files. -/
  agrees_iff : (d.contains files a = .ok false ↔ d.FindsNothing files a) ↔
    d.contains files a = .ok true ∨ ∀ k, d.Free files a k
  /-- An alias that is not contained has no entry for a caller, if the place is free. -/
  missing : d.contains files a = .ok false → ∀ (r : Resolver) c k, r.aliasFor c = a →
    d.Free files a k → (r.over (d.view files)).resolve c k = .ok (.notFound a .missingAlias)
  /-- Where the place is not free the caller is told that the store could not be read. -/
  unreadable : d.contains files a = .ok false → ∀ (r : Resolver) c k, r.aliasFor c = a →
    ¬ d.Free files a k → ∃ e : FileError, (e = .nameTooLong ∨ e = .isDirectory) ∧
      (r.over (d.view files)).resolve c k = .error (.keyStoreAccess (k.unread a d.name)
        (some (.store (.inputOutput e.message))))

/-- An alias is contained or not as reading finds it, except that something else in the place of a
file makes reading fail where the alias is not contained. -/
theorem membership (hroot : files.isDirectory d.root = true) (ha : isAlias a = true) :
    Membership files d a := by
  have hiff := findsNothing_iff_free (d := d) hroot ha
  constructor
  case contained => exact fun h => (hiff.mp h).1
  case agrees_iff =>
    rw [hiff]
    cases hc : d.contains files a with
    | error e =>
      rw [contains_of_isAlias ha] at hc
      cases hc
    | ok b =>
      cases b with
      | true => simp
      | false => simp
  case missing =>
    rintro hc r c k rfl hfree
    exact resolve_of_free hroot ha hc hfree
  case unreadable =>
    rintro hc r c k rfl hfree
    exact resolve_of_not_free hroot ha hc hfree

theorem isDirectory_dottedFiles : dottedFiles.isDirectory "ks" = true := by decide +kernel

/-- Under an alias without files nothing is found, and that is what a caller sees. -/
theorem membership_nobody :
    dottedFiles.isDirectory "ks" = true ∧ isAlias "nobody" = true ∧
    contains dottedFiles ⟨"ks"⟩ "nobody" = .ok false ∧ FindsNothing dottedFiles ⟨"ks"⟩ "nobody" ∧
    (Mirrors.emptyResolver.over (view dottedFiles ⟨"ks"⟩)).privateKey
        { owner := ⟨"anyone"⟩, keyAlias := some "nobody" } =
      .ok (.notFound "nobody" .missingAlias) := by
  have ha : isAlias "nobody" = true := by decide +kernel
  have hc : contains dottedFiles ⟨"ks"⟩ "nobody" = .ok false := by decide +kernel
  have hfree (k : Kind) : Free dottedFiles ⟨"ks"⟩ "nobody" k := fun _ => by
    cases k <;> decide +kernel
  have h := membership (d := ⟨"ks"⟩) isDirectory_dottedFiles ha
  refine ⟨isDirectory_dottedFiles, ha, hc, (h.agrees_iff.mpr (.inr hfree)).mp hc, ?_⟩
  exact h.missing hc Mirrors.emptyResolver _ .privateKey rfl (hfree .privateKey)

/-- An alias is not listed and not contained, a directory stands in the place of its certificate,
and reading it fails. -/
theorem a_directory_for_a_certificate_is_no_missing_entry :
    isAlias "a" = true ∧ aliases dottedFiles ⟨"ks"⟩ = .ok ["b", "b.key"] ∧
    ¬ (contains dottedFiles ⟨"ks"⟩ "a" = .ok false ↔ FindsNothing dottedFiles ⟨"ks"⟩ "a") ∧
    certificate dottedFiles ⟨"ks"⟩ "a" = .error (.inputOutput "Is a directory (os error 21)") ∧
    (Mirrors.emptyResolver.over (view dottedFiles ⟨"ks"⟩)).certificate
        { owner := ⟨"anyone"⟩, keyAlias := some "a" } =
      .error (.keyStoreAccess "failed to read certificate 'a' from directory:ks"
        (some (.store (.inputOutput "Is a directory (os error 21)")))) := by
  have ha : isAlias "a" = true := by decide +kernel
  have hc : contains dottedFiles ⟨"ks"⟩ "a" = .ok false := by decide +kernel
  have hl : aliases dottedFiles ⟨"ks"⟩ = .ok ["b", "b.key"] := by decide +kernel
  have hread : dottedFiles.read (filePath ⟨"ks"⟩ "a" .certificate) = .error .isDirectory := by
    decide +kernel
  have hcert : certificate dottedFiles ⟨"ks"⟩ "a" =
      .error (.inputOutput "Is a directory (os error 21)") := by
    rw [certificate_eq_lookup]
    exact lookup_of_unreadable ha (by decide) hread
  refine ⟨ha, hl, fun h => ?_, hcert, ?_⟩
  · obtain ⟨hnone, -⟩ := h.mp hc
    rw [hcert] at hnone
    cases hnone
  · show Resolver.ofLookup _ "a" _ _ (certificate dottedFiles ⟨"ks"⟩ "a") = _
    rw [hcert]
    rfl

end Strongbox.DirectoryStore
