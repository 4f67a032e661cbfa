/-
  Strongbox.Proofs.X509.Name — how distinguished names are written, as far as they are read.

  The attributes of a set may be written in any order, and reading puts them in that of their
  encodings. So a set has one spelling for each order of its attributes, all of one length.
  - `reads_name`: a name is read from one of its spellings.
  - `NameSpelling.shortens`: it is written anew as it was when each set stood in order.
-/

import Strongbox.Proofs.Der.Value
import Strongbox.X509.Name

namespace Strongbox.X509

open Der Der.Parser

/-! ## Attributes -/

namespace Attribute

def content (a : Attribute) : Bytes := a.type.encode ++ a.value.encode

theorem encode_ne_nil (a : Attribute) : a.encode ≠ [] := List.cons_ne_nil _ _

/-- Attributes of contents that can be read are told apart by their encodings, whatever follows
them. -/
theorem eq_of_encode_append {a b : Attribute} {x y : Bytes} (ha : a.content.length < lengthLimit)
    (hb : b.content.length < lengthLimit) (h : a.encode ++ x = b.encode ++ y) : a = b ∧ x = y := by
  have hread {c : Attribute} {z : Bytes} (hc : c.content.length < lengthLimit) :
      readElement (c.encode ++ z) = some (⟨Tag.sequence, c.content⟩, z) :=
    readElement_wrap (by decide) hc z
  have hxy := hread (z := x) ha
  rw [h, hread hb, Option.some.injEq, Prod.mk.injEq, Element.mk.injEq] at hxy
  obtain ⟨⟨-, hc⟩, rfl⟩ := hxy
  have hshort {c : Attribute} (hc : c.content.length < lengthLimit) :
      c.type.octets.length < lengthLimit := by
    rw [content, List.length_append, Oid.encode, length_wrap] at hc
    omega
  have htype {c : Attribute} (hc : c.content.length < lengthLimit) :
      readElement c.content = some (⟨Tag.objectIdentifier, c.type.octets⟩, c.value.encode) :=
    readElement_wrap (by decide) (hshort hc) c.value.encode
  have ht := htype ha
  rw [← hc, htype hb, Option.some.injEq, Prod.mk.injEq, Element.mk.injEq] at ht
  obtain ⟨⟨-, hoid⟩, hv⟩ := ht
  have hval : a.value = b.value := by
    obtain ⟨⟨t⟩, ⟨ta, ca⟩⟩ := a
    obtain ⟨⟨u⟩, ⟨tb, cb⟩⟩ := b
    have htag : tb = ta := (List.cons.inj hv).1
    subst htag
    have hcontent : cb = ca := wrap_inj (show wrap tb cb = wrap tb ca from hv)
    rw [hcontent]
  refine ⟨?_, rfl⟩
  obtain ⟨⟨t⟩, va⟩ := a
  obtain ⟨⟨u⟩, vb⟩ := b
  simp only at hoid hval
  rw [hoid, hval]

theorem eq_of_flatMap_encode {as bs : List Attribute}
    (ha : ∀ a ∈ as, a.content.length < lengthLimit) (hb : ∀ b ∈ bs, b.content.length < lengthLimit)
    (h : as.flatMap encode = bs.flatMap encode) : as = bs := by
  induction as generalizing bs with
  | nil =>
    cases bs with
    | nil => rfl
    | cons b bs => simp [encode_ne_nil] at h
  | cons a as ih =>
    cases bs with
    | nil => simp [encode_ne_nil] at h
    | cons b bs =>
      rw [List.forall_mem_cons] at ha hb
      rw [List.flatMap_cons, List.flatMap_cons] at h
      obtain ⟨rfl, hrest⟩ := eq_of_encode_append ha.1 hb.1 h
      rw [ih ha.2 hb.2 hrest]

theorem reads : parser.Reads
    (fun a : { a : Attribute // a.content.length < lengthLimit } => a.val)
    fun a => a.val.encode := by
  intro b a rest h
  obtain ⟨c, hc, ha⟩ := inside_eq_some h
  obtain ⟨o, mid, ho, hv⟩ := bind_eq_some.mp ha
  obtain ⟨v, mid', hv, hr⟩ := bind_eq_some.mp hv
  obtain ⟨rfl, rfl⟩ := pure_eq_some.mp hr
  have hcontent : c = content ⟨o, v⟩ := by
    rw [reads_objectIdentifier.eq ho, reads_element.eq hv, List.append_nil]
    rfl
  subst hcontent
  exact ⟨⟨⟨o, v⟩, length_lt_of_contentOf hc⟩, rfl, (reads_contentOf _).eq hc⟩

end Attribute

/-! ## Sets -/

theorem insertSorted?_perm {a : Attribute} {s t : AttributeSet} (h : insertSorted? a s = some t) :
    t.Perm (a :: s) := by
  induction s generalizing t with
  | nil =>
    cases h
    exact .refl _
  | cons b s ih =>
    rw [insertSorted?] at h
    split at h
    · cases h
    · split at h
      · cases h
        exact .refl _
      · obtain ⟨u, hu, rfl⟩ := Option.map_eq_some_iff.mp h
        exact ((ih hu).cons b).trans (.swap a b s)

theorem sorted?_perm {as : List Attribute} {s : AttributeSet} (h : sorted? as = some s) :
    s.Perm as := by
  induction as generalizing s with
  | nil =>
    cases h
    exact .refl _
  | cons a as ih =>
    obtain ⟨t, ht, hs⟩ := Option.bind_eq_some_iff.mp h
    exact (insertSorted?_perm hs).trans ((ih ht).cons a)

/-- A set of attributes, and the order in which it is written. -/
structure SetSpelling where
  written : List Attribute
  attributes : AttributeSet
  sorted : sorted? written = some attributes
  length_lt : ∀ a ∈ written, a.content.length < lengthLimit

namespace SetSpelling

def encode (s : SetSpelling) : Bytes := wrap Tag.set (s.written.flatMap Attribute.encode)

theorem shortens (s : SetSpelling) :
    Shortens (wrap Tag.set (s.attributes.flatMap Attribute.encode)) s.encode
      (s.written = s.attributes) := by
  have hperm := sorted?_perm s.sorted
  refine Shortens.wrap (.of_length_eq (hperm.flatMap_right _).length_eq ?_) _
  constructor
  · intro h
    exact (Attribute.eq_of_flatMap_encode
      (fun a ha => s.length_lt a (hperm.subset ha)) s.length_lt h).symm
  · intro h
    rw [h]

end SetSpelling

theorem reads_attributeSet : attributeSet.Reads SetSpelling.attributes SetSpelling.encode := by
  intro b s rest h
  obtain ⟨as, mid, has, hs⟩ := bind_eq_some.mp h
  obtain ⟨ws, rfl, hb⟩ := Attribute.reads.listOf _ has
  cases ho : sorted? (ws.map (·.val)) with
  | none =>
    rw [ho] at hs
    cases hs
  | some s' =>
    rw [ho] at hs
    obtain ⟨rfl, rfl⟩ := pure_eq_some.mp hs
    refine ⟨⟨ws.map (·.val), s, ho, ?_⟩, rfl, ?_⟩
    · intro a ha
      obtain ⟨w, -, rfl⟩ := List.mem_map.mp ha
      exact w.property
    · rw [hb, SetSpelling.encode, List.flatMap_map]

/-! ## Names -/

abbrev NameSpelling := List SetSpelling

namespace NameSpelling

def name (n : NameSpelling) : Name := n.map SetSpelling.attributes

def encode (n : NameSpelling) : Bytes := wrap Tag.sequence (n.flatMap SetSpelling.encode)

def IsSorted (n : NameSpelling) : Prop := ∀ s ∈ n, s.written = s.attributes

theorem shortens (n : NameSpelling) : Shortens (encodeName n.name) n.encode n.IsSorted := by
  have h : Shortens (n.name.flatMap fun s => wrap Tag.set (s.flatMap Attribute.encode))
      (n.flatMap SetSpelling.encode) n.IsSorted :=
    Shortens.flatMap fun s _ => s.shortens
  exact h.wrap Tag.sequence

end NameSpelling

theorem reads_name : Parser.Reads X509.name NameSpelling.name NameSpelling.encode := by
  intro b n rest h
  exact reads_attributeSet.listOf Tag.sequence h

end Strongbox.X509
