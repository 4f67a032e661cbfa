/-
  Strongbox.Proofs.KeyStore.Interchange — one material in memory and in a directory.

  A directory mirrors a store in memory when its regular files decode to what the store holds.
  Under the resolver the two answer alike by thumbprint, and for a context as long as the place
  of the file that is asked for is free. A missing entry whose place is not free is not found in
  memory, but the directory fails: it takes the name that is too long for a file, or the directory
  of that name, for a store that cannot be read.
  - `contains_eq`, `aliases_eq`: the two stores hold and list the same aliases.
  - `resolve_eq_iff_free`: where the two agree under the resolver.
  - `a_long_alias_fails_in_a_directory`: an empty store that answers otherwise than an empty
    directory.
-/

import Strongbox.Proofs.KeyStore.Directory
import Strongbox.Proofs.KeyStore.Memory
import Strongbox.Proofs.Resolver
import Strongbox.Proofs.Text.Utf8

namespace Strongbox

/-! ## Files that decode to what is held -/

/-- A file decodes to a value; where there is no value, there is no regular file. -/
def FileTree.Holds (files : FileTree) (path : String) (decodes : Bytes → α → Prop) :
    Option α → Prop
  | some v => ∃ b, files.read path = .ok b ∧ decodes b v
  | none => files.isFile path = false

theorem FileTree.Holds.isFile_eq {files : FileTree} {path : String} {decodes : Bytes → α → Prop}
    {v : Option α} (h : files.Holds path decodes v) : files.isFile path = v.isSome := by
  cases v with
  | none => exact h
  | some v =>
    obtain ⟨b, hb, -⟩ := h
    rw [FileTree.isFile, FileTree.node_of_read hb]
    rfl

/-- Octets open to a key with its own password, and with another one they say that it is wrong. -/
def ProtectedKey.OpensWith (password : Bytes) (b : Bytes) (p : ProtectedKey) : Prop :=
  PrivateKey.ofBytes b password =
    if p.password = password then .ok p.key else .error .wrongPassword

/-- The regular files of a directory decode to what a store in memory holds, each private key
with the password that is asked for under its alias. -/
structure Mirrors (files : FileTree) (d : DirectoryStore) (m : MemoryStore)
    (passwordFor : String → Bytes) : Prop where
  isDirectory : files.isDirectory d.root = true
  certificate : ∀ a, DirectoryStore.isAlias a = true →
    files.Holds (d.filePath a .certificate) (fun b c => Certificate.ofBytes b = .ok c)
      (m.certificate? a)
  privateKey : ∀ a, DirectoryStore.isAlias a = true →
    files.Holds (d.filePath a .privateKey) (ProtectedKey.OpensWith (passwordFor a))
      (m.privateKey? a)
  secretKey : ∀ a, DirectoryStore.isAlias a = true →
    files.Holds (d.filePath a .secretKey)
      (fun b k => ∃ text, b = Bytes.ofString text ∧ SecretKey.ofHex text = .ok k) (m.secretKey? a)

def Resolver.over (r : Resolver) (store : KeyStore) : Resolver := { r with store }

theorem Resolver.missing_of_contains {r : Resolver} {a : String} {b : Bool}
    (h : r.store.contains a = .ok b) (reason : NotFoundReason) :
    (r.missing a reason : Except _ (Resolution α)) =
      .ok (.notFound a (if b then reason else .missingAlias)) := by
  rw [missing, h]
  cases b <;> rfl

namespace Mirrors

variable {files : FileTree} {d : DirectoryStore} {m : MemoryStore} {passwordFor : String → Bytes}
  {a : String}

/-! ## What is held and listed -/

theorem isFile_any (h : Mirrors files d m passwordFor) (ha : DirectoryStore.isAlias a = true) :
    (DirectoryStore.Kind.all.any fun k => files.isFile (d.filePath a k)) =
      ((m.certificate? a).isSome || (m.privateKey? a).isSome || (m.secretKey? a).isSome) := by
  simp only [DirectoryStore.Kind.all, List.any_cons, List.any_nil, Bool.or_false,
    (h.certificate a ha).isFile_eq, (h.privateKey a ha).isFile_eq, (h.secretKey a ha).isFile_eq,
    Bool.or_assoc]

theorem contains_eq (h : Mirrors files d m passwordFor) (hm : m.Plain)
    (ha : DirectoryStore.isAlias a = true) :
    (d.view files).contains a = .ok (m.entries.contains a) := by
  show d.contains files a = _
  rw [DirectoryStore.contains_of_isAlias ha, h.isFile_any ha, hm.contains_eq]

theorem aliases_eq (h : Mirrors files d m passwordFor) (hm : m.Plain) :
    (d.view files).aliases = m.view.aliases := by
  obtain ⟨t, hd, ht⟩ := DirectoryStore.mem_aliases h.isDirectory
  show d.aliases files = .ok m.entries.keys
  rw [hd]
  refine congrArg Except.ok (Table.keys_eq_of_mem_iff fun a => ?_)
  rw [ht]
  constructor
  · rintro ⟨ha, k, hk⟩
    rw [hm.mem_keys, ← h.isFile_any ha]
    exact List.any_eq_true.mpr ⟨k, k.mem_all, hk⟩
  · intro hk
    have ha := hm.isAlias_of_mem_keys hk
    rw [hm.mem_keys, ← h.isFile_any ha] at hk
    obtain ⟨k, -, hf⟩ := List.any_eq_true.mp hk
    exact ⟨ha, k, hf⟩

/-! ## The answers for an entry -/

/-- How the answers of a directory and of a store in memory go together under an alias. Where
there is no entry, the directory refuses an alias that it cannot hold, and fails if the place of
the file is not free. -/
inductive Answers (files : FileTree) (d : DirectoryStore) (a : String) (k : DirectoryStore.Kind) :
    Except StoreError (Option α) → Except StoreError (Option α) → Prop
  | found (v : α) (free : d.Free files a k) : Answers files d a k (.ok (some v)) (.ok (some v))
  | none (ha : DirectoryStore.isAlias a = true) (free : d.Free files a k) :
      Answers files d a k (.ok none) (.ok none)
  | refused (ha : DirectoryStore.isAlias a = false) :
      Answers files d a k (.error (.invalidAlias a)) (.ok none)
  | failed (message : String) (free : ¬ d.Free files a k) :
      Answers files d a k (.error (.inputOutput message)) (.ok none)

/-- Where a regular file is, its place is free for it. -/
theorem free_of_read {k : DirectoryStore.Kind} {b : Bytes}
    (hroot : files.isDirectory d.root = true) (hb : files.read (d.filePath a k) = .ok b) :
    d.Free files a k := by
  intro ha
  obtain ⟨p, hr⟩ := FileTree.exists_reach_of_isDirectory hroot
  have hnode := FileTree.node_join hr (DirectoryStore.isName_fileName ha k)
  have hf := FileTree.node_of_read hb
  refine ⟨?_, by rw [FileTree.isDirectory, hf]⟩
  by_contra hl
  rw [← DirectoryStore.filePath, hf, if_pos (Nat.not_le.mp hl)] at hnode
  cases hnode

/-- What a directory and a store in memory answer, when the value of the one is in a file of the
other or there is none. -/
theorem answers_lookup {k : DirectoryStore.Kind} {v : Option α} {decodes : Bytes → α → Prop}
    {decode : Bytes → Except StoreError (Option α)}
    (hroot : files.isDirectory d.root = true)
    (hheld : DirectoryStore.isAlias a = true → files.Holds (d.filePath a k) decodes v)
    (hnone : DirectoryStore.isAlias a = false → v = none)
    (hdecode : ∀ b x, decodes b x → decode b = .ok (some x)) :
    Answers files d a k (d.lookup files a k decode) (.ok v) := by
  by_cases ha : DirectoryStore.isAlias a = true
  · have hv := hheld ha
    cases v with
    | some x =>
      obtain ⟨b, hb, hx⟩ := hv
      rw [DirectoryStore.lookup_of_file ha hb, hdecode b x hx]
      exact .found x (free_of_read hroot hb)
    | none =>
      by_cases hfree : d.Free files a k
      · rw [DirectoryStore.lookup_of_free hroot ha hv hfree]
        exact .none ha hfree
      · obtain ⟨e, -, he⟩ : ∃ e : FileError, _ ∧
            d.lookup files a k decode = .error (.inputOutput e.message) :=
          DirectoryStore.lookup_of_not_free hroot ha hv hfree
        rw [he]
        exact .failed _ hfree
  · rw [Bool.not_eq_true] at ha
    rw [DirectoryStore.lookup_of_not_isAlias ha, hnone ha]
    exact .refused ha

theorem answers_certificate (h : Mirrors files d m passwordFor) (hm : m.Plain) (a : String) :
    Answers files d a .certificate ((d.view files).certificate a) (m.view.certificate a) := by
  show Answers files d a .certificate (d.certificate files a) (.ok (m.certificate? a))
  rw [DirectoryStore.certificate_eq_lookup]
  refine answers_lookup h.isDirectory (h.certificate a) ?_ ?_
  · intro ha
    rw [MemoryStore.certificate?, hm.get?_eq_none ha]
    rfl
  · intro b c hc
    rw [hc]
    rfl

theorem answers_secretKey (h : Mirrors files d m passwordFor) (hm : m.Plain) (a : String) :
    Answers files d a .secretKey ((d.view files).secretKey a) (m.view.secretKey a) := by
  show Answers files d a .secretKey (d.secretKey files a) (.ok (m.secretKey? a))
  rw [DirectoryStore.secretKey_eq_lookup]
  refine answers_lookup h.isDirectory (h.secretKey a) ?_ ?_
  · intro ha
    rw [MemoryStore.secretKey?, hm.get?_eq_none ha]
    rfl
  · rintro b k ⟨text, rfl, hk⟩
    simp only [Text.Utf8.defect?_ofString, Bytes.toString?_ofString, Option.getD_some, hk]
    rfl

theorem answers_privateKey (h : Mirrors files d m passwordFor) (hm : m.Plain) (a : String) :
    (d.Free files a .privateKey ∧
      (d.view files).privateKey a (passwordFor a) = .error (.wrongPassword a) ∧
      m.view.privateKey a (passwordFor a) = .error (.wrongPassword a)) ∨
    Answers files d a .privateKey ((d.view files).privateKey a (passwordFor a))
      (m.view.privateKey a (passwordFor a)) := by
  show (_ ∧ d.privateKey files a _ = _ ∧ m.openKey a _ = _) ∨
    Answers files d a .privateKey (d.privateKey files a _) (m.openKey a _)
  rw [DirectoryStore.privateKey_eq_lookup]
  by_cases hw : ∃ p, m.privateKey? a = some p ∧ p.password ≠ passwordFor a
  · left
    obtain ⟨p, hp, hne⟩ := hw
    have ha : DirectoryStore.isAlias a = true := by
      by_contra ha
      rw [MemoryStore.privateKey?, hm.get?_eq_none (Bool.eq_false_iff.mpr ha)] at hp
      cases hp
    have hheld := h.privateKey a ha
    rw [hp] at hheld
    obtain ⟨b, hb, hopen⟩ := hheld
    refine ⟨free_of_read h.isDirectory hb, ?_, MemoryStore.openKey_of_wrong hp hne⟩
    rw [DirectoryStore.lookup_of_file ha hb, hopen, if_neg hne]
    rfl
  · right
    have hown (p : ProtectedKey) (hp : m.privateKey? a = some p) : p.password = passwordFor a := by
      by_contra hne
      exact hw ⟨p, hp, hne⟩
    rw [MemoryStore.openKey_of_own hown]
    have hheld (ha : DirectoryStore.isAlias a = true) :
        files.Holds (d.filePath a .privateKey)
          (fun b k => PrivateKey.ofBytes b (passwordFor a) = .ok k)
          ((m.privateKey? a).map (·.key)) := by
      have hp := h.privateKey a ha
      cases hv : m.privateKey? a with
      | none => rwa [hv] at hp
      | some p =>
        rw [hv] at hp
        obtain ⟨b, hb, hopen⟩ := hp
        exact ⟨b, hb, hopen.trans (if_pos (hown p hv))⟩
    refine answers_lookup h.isDirectory hheld ?_ ?_
    · intro ha
      rw [MemoryStore.privateKey?, hm.get?_eq_none ha]
      rfl
    · intro b k hk
      rw [hk]
      rfl

/-! ## The two stores under the resolver -/

variable {r : Resolver} {k : DirectoryStore.Kind}

/-- The resolver takes the answers of the two stores for the same exactly when the place of the
file is free. -/
theorem ofLookup_eq_iff (h : Mirrors files d m passwordFor) (hm : m.Plain) (what : String)
    (reason : NotFoundReason) {x y : Except StoreError (Option α)}
    (hans : Answers files d a k x y) :
    (r.over m.view).ofLookup a what reason y = (r.over (d.view files)).ofLookup a what reason x ↔
      d.Free files a k := by
  have hmissing : (r.over m.view).ofLookup a what reason (.ok none : Except _ (Option α)) =
      .ok (.notFound a (if m.entries.contains a then reason else .missingAlias)) :=
    Resolver.missing_of_contains rfl reason
  cases hans with
  | found v free => exact ⟨fun _ => free, fun _ => rfl⟩
  | none ha free =>
    refine ⟨fun _ => free, fun _ => ?_⟩
    rw [hmissing]
    exact (Resolver.missing_of_contains (h.contains_eq hm ha) reason).symm
  | refused ha =>
    refine ⟨fun _ hv => absurd hv (by rw [ha]; decide), fun _ => ?_⟩
    rw [hmissing, Table.contains, hm.get?_eq_none ha]
    rfl
  | failed message free =>
    refine ⟨fun he => ?_, fun hfree => absurd hfree free⟩
    rw [hmissing] at he
    cases he

theorem certificate_eq_iff (h : Mirrors files d m passwordFor) (hm : m.Plain)
    (c : CryptoContext) :
    (r.over m.view).certificate c = (r.over (d.view files)).certificate c ↔
      d.Free files (r.aliasFor c) .certificate :=
  ofLookup_eq_iff h hm _ _ (h.answers_certificate hm _)

theorem secretKey_eq_iff (h : Mirrors files d m passwordFor) (hm : m.Plain) (c : CryptoContext) :
    (r.over m.view).secretKey c = (r.over (d.view files)).secretKey c ↔
      d.Free files (r.aliasFor c) .secretKey :=
  ofLookup_eq_iff h hm _ _ (h.answers_secretKey hm _)

theorem privateKey_eq_iff (h : Mirrors files d m r.passwordFor) (hm : m.Plain)
    (c : CryptoContext) :
    (r.over m.view).privateKey c = (r.over (d.view files)).privateKey c ↔
      d.Free files (r.aliasFor c) .privateKey := by
  rw [Resolver.privateKey_eq, Resolver.privateKey_eq]
  show (r.over m.view).ofKeyLookup (r.aliasFor c)
      (m.view.privateKey (r.aliasFor c) (r.passwordFor (r.aliasFor c))) =
    (r.over (d.view files)).ofKeyLookup (r.aliasFor c)
      ((d.view files).privateKey (r.aliasFor c) (r.passwordFor (r.aliasFor c))) ↔ _
  rcases h.answers_privateKey hm (r.aliasFor c) with ⟨free, hd, hv⟩ | hans
  · rw [hd, hv]
    exact ⟨fun _ => free, fun _ => rfl⟩
  · have hiff := ofLookup_eq_iff (r := r) h hm "private key" .noPrivateKey hans
    generalize (d.view files).privateKey (r.aliasFor c) (r.passwordFor (r.aliasFor c)) = x at *
    generalize m.view.privateKey (r.aliasFor c) (r.passwordFor (r.aliasFor c)) = y at *
    cases hans with
    | found v free => exact hiff
    | none ha free => exact hiff
    | refused ha => exact hiff
    | failed message free => exact hiff

/-- The search by thumbprint meets the same certificates in the same order. -/
theorem byThumbprint_eq (h : Mirrors files d m passwordFor) (hm : m.Plain) (t : Thumbprint) :
    (r.over m.view).byThumbprint t = (r.over (d.view files)).byThumbprint t := by
  have hmatch : (r.over m.view).matchAt? t = (r.over (d.view files)).matchAt? t := by
    funext a
    have hans := h.answers_certificate hm a
    rw [Resolver.matchAt?_eq, Resolver.matchAt?_eq]
    show Resolver.matchOf? t a (m.view.certificate a) =
      Resolver.matchOf? t a ((d.view files).certificate a)
    generalize (d.view files).certificate a = x at hans
    generalize m.view.certificate a = y at hans
    cases hans <;> rfl
  have hl : (r.over (d.view files)).store.aliases = .ok m.entries.keys := h.aliases_eq hm
  rw [Resolver.byThumbprint, Resolver.byThumbprint, hl, hmatch]
  rfl

end Mirrors

/-- A directory that mirrors the registrations of a store in memory gives the same resolutions
by thumbprint, and for a context exactly when the place of the file that is asked for is free. -/
theorem resolve_eq_iff_free {rs : List Registration}
    (hrs : ∀ x ∈ rs, DirectoryStore.isAlias x.keyAlias = true) {files : FileTree}
    {d : DirectoryStore} {r : Resolver}
    (h : Mirrors files d (.ofRegistrations rs) r.passwordFor) :
    let memory := r.over (MemoryStore.ofRegistrations rs).view
    let directory := r.over (d.view files)
    (∀ c, (memory.certificate c = directory.certificate c ↔
        d.Free files (r.aliasFor c) .certificate) ∧
      (memory.privateKey c = directory.privateKey c ↔ d.Free files (r.aliasFor c) .privateKey) ∧
      (memory.secretKey c = directory.secretKey c ↔ d.Free files (r.aliasFor c) .secretKey)) ∧
    ∀ t, memory.byThumbprint t = directory.byThumbprint t := by
  have hm := MemoryStore.ofRegistrations_plain hrs
  exact ⟨fun c => ⟨h.certificate_eq_iff hm c, h.privateKey_eq_iff hm c, h.secretKey_eq_iff hm c⟩,
    fun t => h.byThumbprint_eq hm t⟩

theorem DirectoryStore.isFile_eq_false {files : FileTree} {d : DirectoryStore} {a : String}
    {k : Kind} {names : List String} (hroot : files.isDirectory d.root = true)
    (hl : files.list d.root = .ok names) (ha : isAlias a = true) (hn : fileName a k ∉ names) :
    files.isFile (d.filePath a k) = false := by
  rw [Bool.eq_false_iff]
  intro hf
  obtain ⟨names', hl', hm⟩ := FileTree.mem_list_of_isFile hroot (isName_fileName ha k) hf
  rw [hl] at hl'
  cases hl'
  exact hn hm

namespace Mirrors

/-! ## A store of two keys -/

def seedKeyFile : Bytes :=
  [0x30, 0x2E, 0x02, 0x01, 0x00, 0x30, 0x05, 0x06, 0x03, 0x2B, 0x65, 0x70, 0x04, 0x22, 0x04, 0x20]
    ++ List.replicate 32 1

def seedKey : PrivateKey := .ed25519 ⟨List.replicate 32 1⟩

def zeroKey : SecretKey := ⟨List.replicate 16 0⟩

def zeroKeyText : String := "00000000000000000000000000000000"

def twoKeys : List Registration :=
  [.secretKey "tenant" zeroKey, .privateKey "partner" seedKey (Bytes.ofString "secret")]

def twoKeyFiles : FileTree :=
  ⟨[(["ks"], .directory), (["ks", "tenant.aes"], .file (Bytes.ofString zeroKeyText)),
    (["ks", "partner.key"], .file seedKeyFile), (["ks", "notes.txt"], .file [])]⟩

def emptyResolver : Resolver where
  store := MemoryStore.empty.view
  defaultAlias := "tenant"
  defaultPassword := "secret"

theorem get?_twoKeys (a : String) : (MemoryStore.ofRegistrations twoKeys).entries.get? a =
    if a = "partner" then some { privateKey := some ⟨seedKey, Bytes.ofString "secret"⟩ }
    else if a = "tenant" then some { secretKey := some zeroKey } else none := by
  show (((Table.empty : Table MemoryEntry).insert "tenant" { secretKey := some zeroKey }).insert
    "partner" { privateKey := some ⟨seedKey, Bytes.ofString "secret"⟩ }).get? a = _
  rw [Table.get?_insert, Table.get?_insert]
  rfl

theorem eq_of_mem_twoKeyFiles (ha : DirectoryStore.isAlias a = true)
    (h : DirectoryStore.fileName a k ∈ ["tenant.aes", "partner.key", "notes.txt"]) :
    a = "tenant" ∧ k = .secretKey ∨ a = "partner" ∧ k = .privateKey := by
  have hof : DirectoryStore.aliasOf? (DirectoryStore.fileName a k) = some a :=
    DirectoryStore.aliasOf?_eq_some.mpr ⟨ha, k, rfl⟩
  simp only [List.mem_cons, List.not_mem_nil, or_false] at h
  rcases h with h | h | h
  · rw [h, show DirectoryStore.aliasOf? "tenant.aes" = some "tenant" by decide +kernel] at hof
    cases hof
    revert h
    cases k <;> decide
  · rw [h, show DirectoryStore.aliasOf? "partner.key" = some "partner" by decide +kernel] at hof
    cases hof
    revert h
    cases k <;> decide
  · rw [h, show DirectoryStore.aliasOf? "notes.txt" = none by decide] at hof
    cases hof

theorem twoKeyFiles_mirrors :
    Mirrors twoKeyFiles ⟨"ks"⟩ (.ofRegistrations twoKeys) emptyResolver.passwordFor := by
  have hroot : twoKeyFiles.isDirectory "ks" = true := by decide +kernel
  have hl : twoKeyFiles.list "ks" = .ok ["tenant.aes", "partner.key", "notes.txt"] := by
    decide +kernel
  refine ⟨hroot, fun a ha => ?_, fun a ha => ?_, fun a ha => ?_⟩
  · have hv : (MemoryStore.ofRegistrations twoKeys).certificate? a = none := by
      rw [MemoryStore.certificate?, get?_twoKeys]
      split
      · rfl
      · split <;> rfl
    rw [hv]
    refine DirectoryStore.isFile_eq_false hroot hl ha fun hm => ?_
    rcases eq_of_mem_twoKeyFiles ha hm with ⟨-, h⟩ | ⟨-, h⟩ <;> cases h
  · by_cases h : a = "partner"
    · subst h
      refine ⟨seedKeyFile, by decide +kernel, ?_⟩
      rw [ProtectedKey.OpensWith]
      decide
    · have hv : (MemoryStore.ofRegistrations twoKeys).privateKey? a = none := by
        rw [MemoryStore.privateKey?, get?_twoKeys, if_neg h]
        split <;> rfl
      rw [hv]
      refine DirectoryStore.isFile_eq_false hroot hl ha fun hm => ?_
      rcases eq_of_mem_twoKeyFiles ha hm with ⟨-, hk⟩ | ⟨ha, -⟩
      · cases hk
      · exact h ha
  · by_cases h : a = "tenant"
    · subst h
      exact ⟨Bytes.ofString zeroKeyText, by decide +kernel, zeroKeyText, rfl, by decide +kernel⟩
    · have hv : (MemoryStore.ofRegistrations twoKeys).secretKey? a = none := by
        rw [MemoryStore.secretKey?, get?_twoKeys]
        split
        · rfl
        · rfl
      rw [hv]
      refine DirectoryStore.isFile_eq_false hroot hl ha fun hm => ?_
      rcases eq_of_mem_twoKeyFiles ha hm with ⟨ha, -⟩ | ⟨-, hk⟩
      · exact h ha
      · cases hk

/-- A private key under its alias, the secret key of the default alias, and a certificate under
an alias that no directory can hold. -/
theorem resolve_eq_twoKeys :
    let memory := emptyResolver.over (MemoryStore.ofRegistrations twoKeys).view
    let directory := emptyResolver.over (DirectoryStore.view twoKeyFiles ⟨"ks"⟩)
    (∀ x ∈ twoKeys, DirectoryStore.isAlias x.keyAlias = true) ∧
    Mirrors twoKeyFiles ⟨"ks"⟩ (.ofRegistrations twoKeys) emptyResolver.passwordFor ∧
    memory.privateKey { owner := ⟨"anyone"⟩, keyAlias := some "partner" } =
      directory.privateKey { owner := ⟨"anyone"⟩, keyAlias := some "partner" } ∧
    memory.secretKey (.ofOwner ⟨"anyone"⟩) = directory.secretKey (.ofOwner ⟨"anyone"⟩) ∧
    memory.certificate { owner := ⟨"anyone"⟩, keyAlias := some "../partner" } =
      directory.certificate { owner := ⟨"anyone"⟩, keyAlias := some "../partner" } := by
  have hrs : ∀ x ∈ twoKeys, DirectoryStore.isAlias x.keyAlias = true := by decide +kernel
  have h := (resolve_eq_iff_free hrs twoKeyFiles_mirrors).1
  refine ⟨hrs, twoKeyFiles_mirrors, (h _).2.1.mpr ?_, (h _).2.2.mpr ?_, (h _).1.mpr ?_⟩
  · exact fun _ => by decide +kernel
  · exact fun _ => by decide +kernel
  · exact fun ha => absurd ha (by decide +kernel)

/-! ## An empty store -/

theorem emptyKeyStore_mirrors (passwordFor : String → Bytes) :
    Mirrors DirectoryStore.emptyKeyStore ⟨"ks"⟩ (.ofRegistrations []) passwordFor := by
  have hroot := DirectoryStore.isDirectory_emptyKeyStore
  have hl : DirectoryStore.emptyKeyStore.list "ks" = .ok [] := by decide +kernel
  have none_of {a : String} (ha : DirectoryStore.isAlias a = true) (k : DirectoryStore.Kind) :
      DirectoryStore.emptyKeyStore.isFile (DirectoryStore.filePath ⟨"ks"⟩ a k) = false :=
    DirectoryStore.isFile_eq_false hroot hl ha List.not_mem_nil
  exact ⟨hroot, fun a ha => none_of ha _, fun a ha => none_of ha _, fun a ha => none_of ha _⟩

def letters (n : Nat) : String := String.ofList (List.replicate n 'a')

theorem isAlias_letters (n : Nat) : DirectoryStore.isAlias (letters (n + 1)) = true := by
  rw [DirectoryStore.isAlias_iff, letters, List.replicate_succ]
  refine ⟨?_, ?_, ?_⟩
  · intro h
    cases String.ofList_eq_empty_iff.mp h
  · rw [Bool.eq_false_iff, Ne, String.startsWith_string_iff, String.toList_ofList]
    simp
  · intro c hc
    rw [String.toList_ofList, ← List.replicate_succ] at hc
    rw [List.eq_of_mem_replicate hc]
    decide

theorem utf8ByteSize_letters (n : Nat) : (letters n).utf8ByteSize = n := by
  have hascii : ∀ c ∈ List.replicate n 'a', c.toNat < 128 := by
    intro c hc
    rw [List.eq_of_mem_replicate hc]
    decide
  rw [letters, Hex.utf8ByteSize_ofList hascii, List.length_replicate]

/-- The empty directory fails under an alias whose files would have names of more than 255
octets. -/
theorem certificate_letters {n : Nat} (hn : 251 ≤ n) :
    (emptyResolver.over (DirectoryStore.view DirectoryStore.emptyKeyStore ⟨"ks"⟩)).certificate
        { owner := ⟨"anyone"⟩, keyAlias := some (letters (n + 1)) } =
      .error (.keyStoreAccess ("failed to read certificate '" ++ letters (n + 1) ++ "' from " ++
          "directory:ks") (some (.store (.inputOutput FileError.nameTooLong.message)))) := by
  have ha := isAlias_letters n
  have hlong : 255 < (DirectoryStore.fileName (letters (n + 1)) .certificate).utf8ByteSize := by
    have hs : (".".utf8ByteSize + "crt".utf8ByteSize) = 4 := rfl
    rw [DirectoryStore.fileName, String.utf8ByteSize_append, String.utf8ByteSize_append,
      utf8ByteSize_letters, DirectoryStore.Kind.extension]
    omega
  have hf := (emptyKeyStore_mirrors emptyResolver.passwordFor).certificate _ ha
  have hread := DirectoryStore.read_of_no_file DirectoryStore.isDirectory_emptyKeyStore ha hf
  rw [if_pos hlong] at hread
  have hc : (DirectoryStore.view DirectoryStore.emptyKeyStore ⟨"ks"⟩).certificate
      (letters (n + 1)) = .error (.inputOutput FileError.nameTooLong.message) := by
    simp [DirectoryStore.view, DirectoryStore.certificate, DirectoryStore.content,
      DirectoryStore.path_of_isAlias ha, hread, bind, Except.bind, throw, throwThe,
      MonadExceptOf.throw]
  show Resolver.ofLookup _ (letters (n + 1)) _ _
    ((DirectoryStore.view DirectoryStore.emptyKeyStore ⟨"ks"⟩).certificate (letters (n + 1))) = _
  rw [hc]
  rfl

/-- An empty store in memory has no entry under an alias of 252 letters, and the empty directory
that mirrors it fails to be read. -/
theorem a_long_alias_fails_in_a_directory :
    Mirrors DirectoryStore.emptyKeyStore ⟨"ks"⟩ (.ofRegistrations []) emptyResolver.passwordFor ∧
    (emptyResolver.over (MemoryStore.ofRegistrations []).view).certificate
        { owner := ⟨"anyone"⟩, keyAlias := some (letters 252) } =
      .ok (.notFound (letters 252) .missingAlias) ∧
    (emptyResolver.over (DirectoryStore.view DirectoryStore.emptyKeyStore ⟨"ks"⟩)).certificate
        { owner := ⟨"anyone"⟩, keyAlias := some (letters 252) } =
      .error (.keyStoreAccess ("failed to read certificate '" ++ letters 252 ++ "' from " ++
          "directory:ks") (some (.store (.inputOutput "File name too long (os error 36)")))) :=
  ⟨emptyKeyStore_mirrors _, rfl, certificate_letters (Nat.le_refl 251)⟩

end Mirrors

end Strongbox
