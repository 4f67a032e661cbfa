/-
  Strongbox.Proofs.KeyStore.LastWrite — a store in memory answers with what was put in last.

  The three kinds of entries under an alias share one record, and a registration changes one part
  of it. What is seen of a record through one kind is what the registration wrote, if it is of that
  kind and for that alias, and else what was there before. So over any sequence the last
  registration of the kind for the alias counts, and the others might as well not have been made.
  - `certificate?_register`, `privateKey?_register`, `secretKey?_register`: what one registration
    changes.
  - `certificate?_ofRegistrations` and the two beside it: what a sequence of them leaves.
  - `mem_keys_ofRegistrations`: the aliases are those that something was registered for.
  - `openKey_of_some`, `openKey_of_none`: what the store says of a kept key and of a missing one.
  - `last_wins`: every answer of the store, after any registrations.
-/

import Strongbox.Proofs.KeyStore.Memory

namespace Strongbox

open DirectoryStore (Kind)

namespace Registration

variable {a : String} {x : Registration}

def kind : Registration → Kind
  | certificate _ _ => .certificate
  | privateKey _ _ _ => .privateKey
  | secretKey _ _ => .secretKey

def isFor (a : String) (k : Kind) (x : Registration) : Bool := x.keyAlias == a && x.kind == k

def certificate? (a : String) : Registration → Option Certificate
  | certificate b c => if b = a then some c else none
  | _ => none

def privateKey? (a : String) : Registration → Option ProtectedKey
  | privateKey b k password => if b = a then some ⟨k, password⟩ else none
  | _ => none

def secretKey? (a : String) : Registration → Option SecretKey
  | secretKey b k => if b = a then some k else none
  | _ => none

theorem certificate?_eq_none (h : x.isFor a .certificate = false) : x.certificate? a = none := by
  cases x with
  | certificate b c => simpa [isFor, kind, keyAlias, certificate?] using h
  | privateKey b k password => rfl
  | secretKey b k => rfl

theorem privateKey?_eq_none (h : x.isFor a .privateKey = false) : x.privateKey? a = none := by
  cases x with
  | certificate b c => rfl
  | privateKey b k password => simpa [isFor, kind, keyAlias, privateKey?] using h
  | secretKey b k => rfl

theorem secretKey?_eq_none (h : x.isFor a .secretKey = false) : x.secretKey? a = none := by
  cases x with
  | certificate b c => rfl
  | privateKey b k password => rfl
  | secretKey b k => simpa [isFor, kind, keyAlias, secretKey?] using h

/-- Sequences with the same registrations of a kind for an alias write the same in it. -/
theorem filterMap_congr {k : Kind} {written : Registration → Option α}
    (hnone : ∀ x : Registration, x.isFor a k = false → written x = none)
    {rs rs' : List Registration} (h : rs'.filter (isFor a k) = rs.filter (isFor a k)) :
    rs'.filterMap written = rs.filterMap written := by
  have hpicked (rs : List Registration) :
      (rs.filter (isFor a k)).filterMap written = rs.filterMap written := by
    rw [List.filterMap_filter]
    congr 1
    funext x
    cases hx : x.isFor a k with
    | true => rfl
    | false => exact (hnone x hx).symm
  rw [← hpicked rs, ← hpicked rs', h]

end Registration

namespace MemoryStore

/-! ## One registration -/

section Step

variable (m : MemoryStore) (a b : String)

theorem part_update (part : MemoryEntry → Option α) (f : MemoryEntry → MemoryEntry) :
    ((m.entries.update b {} f).get? a).bind part =
      if b = a then part (f ((m.entries.get? a).getD {})) else (m.entries.get? a).bind part := by
  rw [Table.get?_update]
  by_cases h : b = a
  · subst h
    simp
  · simp [h, Ne.symm h]

/-- A change leaves a part alone that it does not write and that an empty record lacks. -/
theorem part_update_of_eq {part : MemoryEntry → Option α} (hempty : part {} = none)
    {f : MemoryEntry → MemoryEntry} (hf : ∀ e, part (f e) = part e) :
    ((m.entries.update b {} f).get? a).bind part = (m.entries.get? a).bind part := by
  rw [part_update]
  split
  · rw [hf]
    cases m.entries.get? a with
    | none => exact hempty
    | some e => rfl
  · rfl

theorem certificate?_register (x : Registration) :
    (m.register x).certificate? a = (x.certificate? a).or (m.certificate? a) := by
  cases x with
  | certificate b c =>
    refine (part_update m a b _ _).trans ?_
    by_cases h : b = a <;> simp [Registration.certificate?, certificate?, h]
  | privateKey b k password => exact part_update_of_eq m a b rfl fun _ => rfl
  | secretKey b k => exact part_update_of_eq m a b rfl fun _ => rfl

theorem privateKey?_register (x : Registration) :
    (m.register x).privateKey? a = (x.privateKey? a).or (m.privateKey? a) := by
  cases x with
  | certificate b c => exact part_update_of_eq m a b rfl fun _ => rfl
  | privateKey b k password =>
    refine (part_update m a b _ _).trans ?_
    by_cases h : b = a <;> simp [Registration.privateKey?, privateKey?, h]
  | secretKey b k => exact part_update_of_eq m a b rfl fun _ => rfl

theorem secretKey?_register (x : Registration) :
    (m.register x).secretKey? a = (x.secretKey? a).or (m.secretKey? a) := by
  cases x with
  | certificate b c => exact part_update_of_eq m a b rfl fun _ => rfl
  | privateKey b k password => exact part_update_of_eq m a b rfl fun _ => rfl
  | secretKey b k =>
    refine (part_update m a b _ _).trans ?_
    by_cases h : b = a <;> simp [Registration.secretKey?, secretKey?, h]

theorem mem_keys_register (x : Registration) :
    a ∈ (m.register x).entries.keys ↔ a = x.keyAlias ∨ a ∈ m.entries.keys := by
  cases x with
  | certificate b c => exact Table.mem_keys_update
  | privateKey b k password => exact Table.mem_keys_update
  | secretKey b k => exact Table.mem_keys_update

end Step

/-! ## Any registrations -/

section Run

variable (rs : List Registration) (a : String)

theorem certificate?_ofRegistrations :
    (ofRegistrations rs).certificate? a = (rs.filterMap (·.certificate? a)).getLast? :=
  (Table.foldl_eq_getLast? register (·.certificate? a) _
    (fun m x => certificate?_register m a x) empty rs).trans Option.or_none

theorem privateKey?_ofRegistrations :
    (ofRegistrations rs).privateKey? a = (rs.filterMap (·.privateKey? a)).getLast? :=
  (Table.foldl_eq_getLast? register (·.privateKey? a) _
    (fun m x => privateKey?_register m a x) empty rs).trans Option.or_none

theorem secretKey?_ofRegistrations :
    (ofRegistrations rs).secretKey? a = (rs.filterMap (·.secretKey? a)).getLast? :=
  (Table.foldl_eq_getLast? register (·.secretKey? a) _
    (fun m x => secretKey?_register m a x) empty rs).trans Option.or_none

/-- The aliases are those that something was registered for. -/
theorem mem_keys_ofRegistrations :
    a ∈ (ofRegistrations rs).entries.keys ↔ ∃ x ∈ rs, x.keyAlias = a := by
  have run (m : MemoryStore) : a ∈ (rs.foldl register m).entries.keys ↔
      (∃ x ∈ rs, x.keyAlias = a) ∨ a ∈ m.entries.keys := by
    induction rs generalizing m with
    | nil => simp
    | cons x rs ih =>
      rw [List.foldl_cons, ih, mem_keys_register]
      simp only [List.mem_cons, or_and_right, exists_or, exists_eq_left, eq_comm (a := a)]
      rw [or_left_comm, or_assoc]
  exact (run empty).trans (or_iff_left List.not_mem_nil)

end Run

/-! ## The answers -/

section Answers

variable {m : MemoryStore} {a : String}

theorem openKey_congr {m' : MemoryStore} (h : m.privateKey? a = m'.privateKey? a)
    (password : Bytes) : m.openKey a password = m'.openKey a password := by
  rw [openKey, openKey, ← privateKey?, ← privateKey?, h]

theorem openKey_of_some {p : ProtectedKey} (h : m.privateKey? a = some p) :
    m.openKey a p.password = .ok (some p.key) := by
  have hown : ∀ q, m.privateKey? a = some q → q.password = p.password := by
    intro q hq
    rw [h] at hq
    rw [Option.some.inj hq]
  rw [openKey_of_own hown, h]
  rfl

theorem openKey_of_none (h : m.privateKey? a = none) (password : Bytes) :
    m.openKey a password = .ok none := by
  have hown : ∀ q, m.privateKey? a = some q → q.password = password := by
    intro q hq
    rw [h] at hq
    cases hq
  rw [openKey_of_own hown, h]
  rfl

end Answers

section Views

variable (rs : List Registration) (a : String)

theorem view_certificate_ofRegistrations : (ofRegistrations rs).view.certificate a =
    .ok (rs.filterMap (·.certificate? a)).getLast? :=
  congrArg Except.ok (certificate?_ofRegistrations rs a)

theorem view_secretKey_ofRegistrations : (ofRegistrations rs).view.secretKey a =
    .ok (rs.filterMap (·.secretKey? a)).getLast? :=
  congrArg Except.ok (secretKey?_ofRegistrations rs a)

theorem view_contains_ofRegistrations : (ofRegistrations rs).view.contains a =
    .ok (decide (∃ x ∈ rs, x.keyAlias = a)) := by
  refine congrArg Except.ok ?_
  rw [Table.contains, Bool.eq_iff_iff, decide_eq_true_iff, ← Table.mem_keys,
    mem_keys_ofRegistrations]

end Views

/-- Under an alias, the store that some registrations build up answers with the last ones that were
made for it, and no other registration makes a difference. -/
structure LastWins (rs : List Registration) (a : String) : Prop where
  certificate : (ofRegistrations rs).view.certificate a =
    .ok (rs.filterMap (·.certificate? a)).getLast?
  secretKey : (ofRegistrations rs).view.secretKey a = .ok (rs.filterMap (·.secretKey? a)).getLast?
  /-- The last key opens with the password that it was registered with, -/
  opens : ∀ p, (rs.filterMap (·.privateKey? a)).getLast? = some p →
    (ofRegistrations rs).view.privateKey a p.password = .ok (some p.key)
  /-- and with no other one. -/
  refuses : ∀ p, (rs.filterMap (·.privateKey? a)).getLast? = some p → ∀ password ≠ p.password,
    (ofRegistrations rs).view.privateKey a password = .error (.wrongPassword a)
  absent : (rs.filterMap (·.privateKey? a)).getLast? = none → ∀ password,
    (ofRegistrations rs).view.privateKey a password = .ok none
  contains : (ofRegistrations rs).view.contains a = .ok (decide (∃ x ∈ rs, x.keyAlias = a))
  certificate_congr : ∀ rs' : List Registration,
    rs'.filter (·.isFor a .certificate) = rs.filter (·.isFor a .certificate) →
      (ofRegistrations rs').view.certificate a = (ofRegistrations rs).view.certificate a
  privateKey_congr : ∀ rs' : List Registration,
    rs'.filter (·.isFor a .privateKey) = rs.filter (·.isFor a .privateKey) → ∀ password,
      (ofRegistrations rs').view.privateKey a password =
        (ofRegistrations rs).view.privateKey a password
  secretKey_congr : ∀ rs' : List Registration,
    rs'.filter (·.isFor a .secretKey) = rs.filter (·.isFor a .secretKey) →
      (ofRegistrations rs').view.secretKey a = (ofRegistrations rs).view.secretKey a

/-- Whatever was registered, the store answers with what came last, and lists the aliases that
something was registered for, in order and once each. -/
theorem last_wins (rs : List Registration) : (∀ a, LastWins rs a) ∧
    ∃ as, (ofRegistrations rs).view.aliases = .ok as ∧ as.Pairwise (· < ·) ∧
      ∀ a, a ∈ as ↔ ∃ x ∈ rs, x.keyAlias = a := by
  refine ⟨fun a => ?_, _, rfl, Table.pairwise_keys _, mem_keys_ofRegistrations rs⟩
  exact {
    certificate := view_certificate_ofRegistrations rs a
    secretKey := view_secretKey_ofRegistrations rs a
    opens := fun p hp => openKey_of_some ((privateKey?_ofRegistrations rs a).trans hp)
    refuses := fun p hp password hne =>
      openKey_of_wrong ((privateKey?_ofRegistrations rs a).trans hp) hne.symm
    absent := fun hnone => openKey_of_none ((privateKey?_ofRegistrations rs a).trans hnone)
    contains := view_contains_ofRegistrations rs a
    certificate_congr := by
      intro rs' h
      rw [view_certificate_ofRegistrations, view_certificate_ofRegistrations,
        Registration.filterMap_congr (fun _ => Registration.certificate?_eq_none) h]
    privateKey_congr := by
      intro rs' h password
      refine openKey_congr ?_ password
      rw [privateKey?_ofRegistrations, privateKey?_ofRegistrations,
        Registration.filterMap_congr (fun _ => Registration.privateKey?_eq_none) h]
    secretKey_congr := by
      intro rs' h
      rw [view_secretKey_ofRegistrations, view_secretKey_ofRegistrations,
        Registration.filterMap_congr (fun _ => Registration.secretKey?_eq_none) h] }

end MemoryStore

end Strongbox
