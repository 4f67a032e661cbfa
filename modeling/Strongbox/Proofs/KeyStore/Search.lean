/-
  Strongbox.Proofs.KeyStore.Search — a search by thumbprint finds the least alias, and nothing
  hides it.

  Both stores list their aliases in order, and an alias with a certificate is always listed. So
  the first match of the listing is the least of all matches, whatever the store holds besides:
  an alias without a certificate, or with one that cannot be read, is passed over. The search
  thereby depends on the matches alone.
  - `ShippedStore.lists`: what both stores list.
  - `Resolver.byThumbprint_eq_found_iff`, `Resolver.byThumbprint_eq_notFound_iff`: the answers.
  - `ShippedStore.searches_exactly`: the answers of both stores, and that entries which do not
    match do not change them.
-/

import Strongbox.Proofs.KeyStore.Outcomes
import Strongbox.Proofs.Primitives
import Strongbox.Proofs.Thumbprint

namespace Strongbox

/-! ## Matches -/

namespace KeyStore

def Matches (s : KeyStore) (t : Thumbprint) (a : String) (c : Certificate) : Prop :=
  s.certificate a = .ok (some c) ∧
    Hex.encodeUpper (t.digestAlgorithm.digest c.encoding) = t.value

def IsLeastMatch (s : KeyStore) (t : Thumbprint) (a : String) (c : Certificate) : Prop :=
  s.Matches t a c ∧ ∀ b d, s.Matches t b d → a ≤ b

structure Lists (s : KeyStore) (aliases : List String) : Prop where
  listed : s.aliases = .ok aliases
  sorted : aliases.Pairwise (· < ·)
  complete : ∀ {a c}, s.certificate a = .ok (some c) → a ∈ aliases

/-- Under each alias the two stores answer the same, or neither has a match there. -/
def AgreesOn (s s' : KeyStore) (t : Thumbprint) : Prop :=
  ∀ a, s'.certificate a = s.certificate a ∨ ∀ c, ¬ s.Matches t a c ∧ ¬ s'.Matches t a c

variable {s s' : KeyStore} {t : Thumbprint}

theorem AgreesOn.matches_iff (h : s.AgreesOn s' t) (a : String) (c : Certificate) :
    s'.Matches t a c ↔ s.Matches t a c := by
  rcases h a with he | hn
  · rw [Matches, Matches, he]
  · exact iff_of_false (hn c).2 (hn c).1

end KeyStore

/-! ## The search -/

namespace Resolver

variable {r : Resolver} {aliases : List String} {t : Thumbprint} {a : String}

theorem hasCertificate_iff : r.HasCertificate t a ↔ ∃ c, r.store.Matches t a c := by
  simp only [HasCertificate, KeyStore.Matches, Thumbprint.isOf_iff]

/-- The first match of a listing in order is the least of all. -/
theorem firstMatch_iff (h : r.store.Lists aliases) :
    r.FirstMatch t a ↔ r.HasCertificate t a ∧ ∀ b, r.HasCertificate t b → a ≤ b := by
  have hlisted {b : String} (hb : r.HasCertificate t b) : b ∈ aliases := by
    obtain ⟨c, hc, -⟩ := hb
    exact h.complete hc
  constructor
  · rintro ⟨before, after, hl, ha, hbefore⟩
    refine ⟨ha, fun b hb => ?_⟩
    cases h.listed.symm.trans hl
    -- Nothing before `a` matches, and what is listed behind it is greater.
    rcases List.mem_append.mp (hlisted hb) with hm | hm
    · exact absurd hb (hbefore b hm)
    · rcases List.mem_cons.mp hm with rfl | hm
      · exact String.not_lt.mp (String.lt_irrefl b)
      · have hlt : a < b := (List.pairwise_cons.mp (List.pairwise_append.mp h.sorted).2.1).1 b hm
        exact String.not_lt.mp (String.lt_asymm hlt)
  · rintro ⟨ha, hleast⟩
    obtain ⟨before, after, rfl⟩ := List.append_of_mem (hlisted ha)
    refine ⟨before, after, h.listed, ha, fun b hm hb => ?_⟩
    -- A match listed before `a` would be less than the least one.
    have hlt : b < a := (List.pairwise_append.mp h.sorted).2.2 b hm a List.mem_cons_self
    exact String.not_lt.mpr (hleast b hb) hlt

theorem byThumbprint_eq_found_iff (h : r.store.Lists aliases) {c : Certificate} :
    r.byThumbprint t = .ok (.found ⟨a, c⟩) ↔ r.store.IsLeastMatch t a c := by
  rw [byThumbprint_eq_found, firstMatch_iff h]
  simp only [hasCertificate_iff]
  constructor
  · rintro ⟨⟨⟨d, hd⟩, hleast⟩, hc⟩
    cases hd.1.symm.trans hc
    exact ⟨hd, fun b e hb => hleast b ⟨e, hb⟩⟩
  · rintro ⟨hc, hleast⟩
    exact ⟨⟨⟨c, hc⟩, fun b ⟨d, hd⟩ => hleast b d hd⟩, hc.1⟩

theorem byThumbprint_of_aliases (hl : r.store.aliases = .ok aliases) (t : Thumbprint) :
    (∃ e, r.byThumbprint t = .ok (.found e)) ∨
      r.byThumbprint t = .ok (.notFound t.shown .noCertificate) ∧
        ∀ b ∈ aliases, ¬ r.HasCertificate t b := by
  unfold byThumbprint
  simp only [hl]
  cases hf : aliases.findSome? (r.matchAt? t) with
  | some e => exact .inl ⟨e, rfl⟩
  | none =>
    exact .inr ⟨rfl, fun b hb => matchAt?_eq_none.mp (List.findSome?_eq_none_iff.mp hf b hb)⟩

theorem byThumbprint_eq_notFound_iff (h : r.store.Lists aliases) :
    r.byThumbprint t = .ok (.notFound t.shown .noCertificate) ↔
      ∀ a c, ¬ r.store.Matches t a c := by
  rcases byThumbprint_of_aliases h.listed t with ⟨⟨a, c⟩, he⟩ | ⟨hnone, hn⟩
  · have hleast := (byThumbprint_eq_found_iff h).mp he
    rw [he]
    exact ⟨nofun, fun hn => absurd hleast.1 (hn a c)⟩
  · refine ⟨fun _ a c hc => ?_, fun _ => hnone⟩
    exact hn a (h.complete hc.1) (hasCertificate_iff.mpr ⟨c, hc⟩)

/-- Stores that agree where something matches give the same answer. -/
theorem byThumbprint_congr {r' : Resolver} {aliases' : List String} (h : r.store.Lists aliases)
    (h' : r'.store.Lists aliases') (hs : r.store.AgreesOn r'.store t) :
    r'.byThumbprint t = r.byThumbprint t := by
  have hm := hs.matches_iff
  rcases byThumbprint_of_aliases h.listed t with ⟨⟨a, c⟩, he⟩ | ⟨hnone, -⟩
  · rw [he, byThumbprint_eq_found_iff h']
    obtain ⟨hc, hleast⟩ := (byThumbprint_eq_found_iff h).mp he
    exact ⟨(hm a c).mpr hc, fun b d hd => hleast b d ((hm b d).mp hd)⟩
  · rw [hnone, byThumbprint_eq_notFound_iff h']
    intro a c hc
    exact (byThumbprint_eq_notFound_iff h).mp hnone a c ((hm a c).mp hc)

end Resolver

/-! ## The two stores -/

theorem MemoryStore.certificate_putSecretKey (m : MemoryStore) (a : String) (k : SecretKey) (b : String) :
    (m.putSecretKey a k).view.certificate b = m.view.certificate b := by
  show Except.ok (((m.putSecretKey a k).entries.get? b).bind (·.certificate)) =
    .ok ((m.entries.get? b).bind (·.certificate))
  rw [MemoryStore.putSecretKey, Table.update, Table.get?_insert]
  by_cases hb : b = a
  · subst hb
    rw [if_pos rfl]
    cases m.entries.get? b <;> rfl
  · rw [if_neg hb]

namespace ShippedStore

/-- Both stores list in order, and every alias with a certificate. -/
theorem lists {s : ShippedStore} {aliases : List String} (hl : s.view.aliases = .ok aliases) :
    s.view.Lists aliases := by
  cases s with
  | memory m =>
    cases hl
    refine ⟨rfl, m.entries.pairwise_keys, fun {a c} h => Table.mem_keys.mpr ?_⟩
    obtain ⟨e, he, -⟩ := Option.bind_eq_some_iff.mp (Except.ok.inj h)
    rw [he]
    rfl
  | directory files d =>
    have hd : d.aliases files = .ok aliases := hl
    have hroot := DirectoryStore.isDirectory_of_aliases hd
    refine ⟨hl, ?_, fun {a c} h => ?_⟩
    · obtain ⟨table, ht, -⟩ := DirectoryStore.mem_aliases hroot
      cases ht.symm.trans hd
      exact table.pairwise_keys
    · obtain ⟨aliases', hl', ha⟩ := DirectoryStore.mem_aliases_of_lookup hroot h
      cases hl'.symm.trans hd
      exact ha

structure Searches (s : ShippedStore) (r : Resolver) (t : Thumbprint) : Prop where
  /-- A search does not fail, and it is denied nothing. -/
  answers : (∃ e, (r.over s.view).byThumbprint t = .ok (.found e)) ∨
    (r.over s.view).byThumbprint t = .ok (.notFound t.shown .noCertificate)
  found : ∀ a c, (r.over s.view).byThumbprint t = .ok (.found ⟨a, c⟩) ↔
    s.view.IsLeastMatch t a c
  notFound : (r.over s.view).byThumbprint t = .ok (.notFound t.shown .noCertificate) ↔
    ∀ a c, ¬ s.view.Matches t a c
  /-- Whatever is put in, taken out or spoilt where nothing matches, the answer stays. -/
  frame : ∀ (s' : ShippedStore) (r' : Resolver) (aliases' : List String),
    s'.view.aliases = .ok aliases' → s.view.AgreesOn s'.view t →
      (r'.over s'.view).byThumbprint t = (r.over s.view).byThumbprint t

/-- A store whose aliases can be listed is searched without fail: the least alias with a readable
certificate of the thumbprint is found, and no other entry has a part in it. -/
theorem searches_exactly {s : ShippedStore} {aliases : List String}
    (hl : s.view.aliases = .ok aliases) (r : Resolver) (t : Thumbprint) : s.Searches r t := by
  have h : (r.over s.view).store.Lists aliases := lists hl
  constructor
  case answers => exact (Resolver.byThumbprint_of_aliases hl t).imp_right And.left
  case found => exact fun a c => Resolver.byThumbprint_eq_found_iff h
  case notFound => exact Resolver.byThumbprint_eq_notFound_iff h
  case frame =>
    intro s' r' aliases' hl' hs
    have h' : (r'.over s'.view).store.Lists aliases' := lists hl'
    exact Resolver.byThumbprint_congr h h' hs

def twoCopies : MemoryStore :=
  (MemoryStore.empty.putCertificate "z" Primitives.sampleCertificate).putCertificate "tenant"
    Primitives.sampleCertificate

theorem eq_of_twoCopies {a : String} {c : Certificate}
    (h : twoCopies.view.certificate a = .ok (some c)) : a = "tenant" ∨ a = "z" := by
  have hl : (memory twoCopies).view.aliases = .ok ["tenant", "z"] := by decide
  simpa using (lists hl).complete h

def spoilt : FileTree := ⟨[(["ks"], .directory), (["ks", "a.crt"], .file [0x30])]⟩

theorem spoilt_unreadable (c : Certificate) :
    DirectoryStore.certificate spoilt ⟨"ks"⟩ "a" ≠ .ok (some c) := by
  have h : (match DirectoryStore.certificate spoilt ⟨"ks"⟩ "a" with
    | .error _ => true
    | .ok _ => false) = true := by decide +kernel
  intro hc
  rw [hc] at h
  cases h

def tenantResolver : Resolver :=
  { store := twoCopies.view, defaultAlias := "tenant", defaultPassword := "" }

/-- Of two copies the first one is found, also behind an alias without a certificate; and where the
only certificate cannot be read nothing is. -/
theorem searches_exactly_twoCopies :
    (memory twoCopies).view.aliases = .ok ["tenant", "z"] ∧
    (tenantResolver.over twoCopies.view).byThumbprint
        (Primitives.sampleCertificate.thumbprint .sha1) =
      .ok (.found ⟨"tenant", Primitives.sampleCertificate⟩) ∧
    (tenantResolver.over (twoCopies.putSecretKey "a" ⟨[]⟩).view).byThumbprint
        (Primitives.sampleCertificate.thumbprint .sha1) =
      .ok (.found ⟨"tenant", Primitives.sampleCertificate⟩) ∧
    (directory spoilt ⟨"ks"⟩).view.aliases = .ok ["a"] ∧
    (tenantResolver.over (directory spoilt ⟨"ks"⟩).view).byThumbprint
        (Primitives.sampleCertificate.thumbprint .sha1) =
      .ok (.notFound (Primitives.sampleCertificate.thumbprint .sha1).shown .noCertificate) := by
  have hl : (memory twoCopies).view.aliases = .ok ["tenant", "z"] := by decide
  have hs : (directory spoilt ⟨"ks"⟩).view.aliases = .ok ["a"] := by decide +kernel
  have hcopies := searches_exactly hl tenantResolver (Primitives.sampleCertificate.thumbprint .sha1)
  have hfound := (hcopies.found "tenant" Primitives.sampleCertificate).mpr ⟨⟨rfl, rfl⟩, ?_⟩
  · have hframe := hcopies.frame (memory (twoCopies.putSecretKey "a" ⟨[]⟩)) tenantResolver _ rfl
      fun a => .inl (MemoryStore.certificate_putSecretKey ..)
    refine ⟨hl, hfound, hframe.trans hfound, hs, ?_⟩
    refine (searches_exactly hs tenantResolver _).notFound.mpr fun a c hc => ?_
    obtain rfl : a = "a" := List.mem_singleton.mp ((lists hs).complete hc.1)
    exact spoilt_unreadable c hc.1
  · intro b d hb
    rcases eq_of_twoCopies hb.1 with rfl | rfl
    · exact String.not_lt.mp (by decide)
    · exact String.not_lt.mp (by decide)

end ShippedStore

end Strongbox
