/-
  Strongbox.Proofs.KeyStore.Memory — what a store in memory holds after some registrations.

  A registration puts one certificate, private key or secret key under an alias. So every entry
  is under an alias that something was registered for, and holds something.
  - `ofRegistrations_plain`: no registration leaves an empty entry, or one under another alias.
  - `contains_eq`: an alias is contained when it has an entry of some kind.
-/

import Strongbox.KeyStore.Directory
import Strongbox.KeyStore.Memory
import Strongbox.Proofs.Table

namespace Strongbox

inductive Registration where
  | certificate (keyAlias : String) (certificate : Certificate)
  | privateKey (keyAlias : String) (key : PrivateKey) (password : Bytes)
  | secretKey (keyAlias : String) (key : SecretKey)

def Registration.keyAlias : Registration → String
  | certificate a _ => a
  | privateKey a _ _ => a
  | secretKey a _ => a

def MemoryEntry.HasKey (e : MemoryEntry) : Prop :=
  e.certificate.isSome ∨ e.privateKey.isSome ∨ e.secretKey.isSome

namespace MemoryStore

def certificate? (m : MemoryStore) (a : String) : Option Certificate :=
  (m.entries.get? a).bind (·.certificate)

def privateKey? (m : MemoryStore) (a : String) : Option ProtectedKey :=
  (m.entries.get? a).bind (·.privateKey)

def secretKey? (m : MemoryStore) (a : String) : Option SecretKey :=
  (m.entries.get? a).bind (·.secretKey)

theorem openKey_of_wrong {m : MemoryStore} {a : String} {password : Bytes} {p : ProtectedKey}
    (hp : m.privateKey? a = some p) (hne : p.password ≠ password) :
    m.openKey a password = .error (.wrongPassword a) := by
  rw [openKey, ← privateKey?, hp]
  exact if_neg hne

theorem openKey_of_own {m : MemoryStore} {a : String} {password : Bytes}
    (h : ∀ p, m.privateKey? a = some p → p.password = password) :
    m.openKey a password = .ok ((m.privateKey? a).map (·.key)) := by
  rw [openKey, ← privateKey?]
  cases hp : m.privateKey? a with
  | none => rfl
  | some p => exact if_pos (h p hp)

def register (m : MemoryStore) : Registration → MemoryStore
  | .certificate a c => m.putCertificate a c
  | .privateKey a k password => m.putPrivateKey a k password
  | .secretKey a k => m.putSecretKey a k

/-- The store that is built up by some registrations, the first one first. -/
def ofRegistrations (rs : List Registration) : MemoryStore := rs.foldl register empty

/-- Every entry is under an alias that a directory could hold too, and holds something. -/
def Plain (m : MemoryStore) : Prop :=
  ∀ a e, m.entries.get? a = some e → DirectoryStore.isAlias a = true ∧ e.HasKey

theorem empty_plain : empty.Plain := fun _ _ h => nomatch h

/-- An entry that is written with something in it leaves the store plain. -/
theorem plain_update {m : MemoryStore} (hm : m.Plain) {a : String}
    (ha : DirectoryStore.isAlias a = true) {f : MemoryEntry → MemoryEntry}
    (hf : ∀ e, (f e).HasKey) : Plain ⟨m.entries.update a {} f⟩ := by
  intro b e hb
  rw [Table.update, Table.get?_insert] at hb
  by_cases h : b = a
  · rw [if_pos h] at hb
    cases hb
    exact ⟨h ▸ ha, hf _⟩
  · rw [if_neg h] at hb
    exact hm b e hb

theorem register_plain {m : MemoryStore} (hm : m.Plain) {x : Registration}
    (hx : DirectoryStore.isAlias x.keyAlias = true) : (m.register x).Plain := by
  cases x with
  | certificate a c => exact plain_update hm hx fun _ => .inl rfl
  | privateKey a k password => exact plain_update hm hx fun _ => .inr (.inl rfl)
  | secretKey a k => exact plain_update hm hx fun _ => .inr (.inr rfl)

/-- No registration leaves an empty entry, or one under another alias. -/
theorem ofRegistrations_plain {rs : List Registration}
    (h : ∀ x ∈ rs, DirectoryStore.isAlias x.keyAlias = true) : (ofRegistrations rs).Plain := by
  have run (rs : List Registration) (m : MemoryStore) (hm : m.Plain)
      (h : ∀ x ∈ rs, DirectoryStore.isAlias x.keyAlias = true) : (rs.foldl register m).Plain := by
    induction rs generalizing m with
    | nil => exact hm
    | cons x rs ih =>
      rw [List.forall_mem_cons] at h
      exact ih (m.register x) (register_plain hm h.1) h.2
  exact run rs empty empty_plain h

namespace Plain

variable {m : MemoryStore} {a : String}

theorem contains_eq (hm : m.Plain) (a : String) :
    m.entries.contains a =
      ((m.certificate? a).isSome || (m.privateKey? a).isSome || (m.secretKey? a).isSome) := by
  rw [Table.contains, certificate?, privateKey?, secretKey?]
  cases h : m.entries.get? a with
  | none => rfl
  | some e =>
    have hk := (hm a e h).2
    rw [MemoryEntry.HasKey] at hk
    simp only [Option.isSome_some, Option.bind_some, Bool.or_eq_true, eq_comm (a := true),
      or_assoc]
    exact hk

theorem mem_keys (hm : m.Plain) : a ∈ m.entries.keys ↔
    ((m.certificate? a).isSome || (m.privateKey? a).isSome || (m.secretKey? a).isSome) = true := by
  rw [Table.mem_keys, ← contains_eq hm, Table.contains]

theorem isAlias_of_mem_keys (hm : m.Plain) (h : a ∈ m.entries.keys) :
    DirectoryStore.isAlias a = true := by
  obtain ⟨e, he⟩ := Option.isSome_iff_exists.mp (Table.mem_keys.mp h)
  exact (hm a e he).1

theorem get?_eq_none (hm : m.Plain) (h : DirectoryStore.isAlias a = false) :
    m.entries.get? a = none := by
  rw [← Option.isNone_iff_eq_none, ← Option.not_isSome, Bool.not_eq_true', Bool.eq_false_iff]
  intro hs
  have := isAlias_of_mem_keys hm (Table.mem_keys.mpr hs)
  rw [h] at this
  cases this

end Plain

end MemoryStore

end Strongbox
