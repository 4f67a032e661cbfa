/-
  Strongbox.Proofs.Der.Element — what was read is what was written.

  A parser takes the writing of a value from the front. Where a value has more than one writing,
  it takes that of a spelling, and the value is what the spelling stands for. A spelling written
  anew from its value never gets longer.
  - `readElement_eq_some`: an element is read exactly from its encoding.
  - `Parser.Reads`: what a parser reads, with its spellings; `Reads.inside` and `Reads.many`
    lift it to contents and lists.
  - `Parser.Ensures`: a property of whatever a parser reads.
  - `Shortens`: a writing and a shorter one, which agree exactly under a condition; `append`,
    `wrap` and `flatMap` lift it to structures.
-/

import Strongbox.Der.Element

namespace Strongbox.Der

/-! ## Elements -/

/-- Reading accepts the element: its tag is known and its content is not too long. -/
structure Element.IsReadable (e : Element) : Prop where
  isKnown : Tag.isKnown e.tag = true
  length_lt : e.content.length < lengthLimit

theorem readLength_eq_some {b rest : Bytes} {n : Nat} (h : readLength b = some (n, rest)) :
    n < lengthLimit ∧ b = encodeLength n ++ rest := by
  cases b with
  | nil => cases h
  | cons x b =>
    rw [readLength] at h
    by_cases hx : x < 0x80
    · rw [if_pos hx] at h
      cases h
      have hlt : x.toNat < 0x80 := UInt8.lt_iff_toNat_lt.mp hx
      refine ⟨Nat.lt_trans hlt (by decide), ?_⟩
      rw [encodeLength, if_pos hlt, UInt8.ofNat_toNat]
      rfl
    · rw [if_neg hx] at h
      simp only at h
      split at h
      · rename_i hk
        obtain ⟨-, -, -, hn, he⟩ := hk
        cases h
        refine ⟨hn, ?_⟩
        rw [he, List.cons_append, List.take_append_drop]
      · cases h

/-- An element is read exactly from its encoding. -/
theorem readElement_eq_some {b rest : Bytes} {e : Element} :
    readElement b = some (e, rest) ↔ e.IsReadable ∧ b = e.encode ++ rest := by
  constructor
  · intro h
    cases b with
    | nil => cases h
    | cons t b =>
      rw [readElement] at h
      split at h
      · cases h
      · rename_i ht
        obtain ⟨⟨n, r⟩, hr, hc⟩ := Option.bind_eq_some_iff.mp h
        obtain ⟨hn, rfl⟩ := readLength_eq_some hr
        simp only at hc
        split at hc
        · rename_i hle
          cases hc
          have hl : (r.take n).length = n := List.length_take_of_le hle
          refine ⟨⟨by simpa using ht, by rw [hl]; exact hn⟩, ?_⟩
          rw [Element.encode, hl]
          simp
        · cases hc
  · rintro ⟨he, rfl⟩
    exact readElement_encode e rest he.isKnown he.length_lt

theorem readElement_wrap {tag : UInt8} (ht : Tag.isKnown tag = true) {c : Bytes}
    (hc : c.length < lengthLimit) (rest : Bytes) :
    readElement (wrap tag c ++ rest) = some (⟨tag, c⟩, rest) :=
  readElement_encode ⟨tag, c⟩ rest ht hc

/-! ## Parsers -/

namespace Parser

variable {p : Parser α} {f : α → Parser β} {b rest : Bytes}

theorem bind_eq_some {c : β} :
    (p >>= f) b = some (c, rest) ↔ ∃ a mid, p b = some (a, mid) ∧ f a mid = some (c, rest) := by
  show (p b).bind (fun r => f r.1 r.2) = _ ↔ _
  rw [Option.bind_eq_some_iff]
  constructor
  · rintro ⟨⟨a, mid⟩, ha, h⟩
    exact ⟨a, mid, ha, h⟩
  · rintro ⟨a, mid, ha, h⟩
    exact ⟨⟨a, mid⟩, ha, h⟩

theorem pure_eq_some {a c : α} : (pure a : Parser α) b = some (c, rest) ↔ c = a ∧ rest = b := by
  show some (a, b) = some (c, rest) ↔ _
  rw [Option.some.injEq, Prod.mk.injEq, eq_comm, eq_comm (a := b)]

theorem get_bind_eq {f : Bytes → Parser β} : ((get : Parser Bytes) >>= f) b = f b b := rfl

theorem whole_eq_some {a : α} : p.whole b = some a ↔ p b = some (a, []) := by
  rw [whole]
  split
  · rename_i h
    rw [h]
    simp
  · rename_i hne
    refine ⟨nofun, fun h => absurd h (hne a)⟩

theorem contentOf_wrap {tag : UInt8} (ht : Tag.isKnown tag = true) {c : Bytes}
    (hc : c.length < lengthLimit) (rest : Bytes) :
    contentOf tag (wrap tag c ++ rest) = some (c, rest) := by
  refine bind_eq_some.mpr ⟨⟨tag, c⟩, rest, readElement_wrap ht hc rest, ?_⟩
  simp only [if_pos]
  rfl

theorem inside_wrap {tag : UInt8} (ht : Tag.isKnown tag = true) {c : Bytes}
    (hc : c.length < lengthLimit) {a : α} (h : p.whole c = some a) (rest : Bytes) :
    inside tag p (wrap tag c ++ rest) = some (a, rest) := by
  refine bind_eq_some.mpr ⟨c, rest, contentOf_wrap ht hc rest, ?_⟩
  rw [h]
  rfl

/-- What the parser reads is the value of a spelling, and it takes the writing of the spelling
from the front. -/
def Reads (p : Parser α) (value : σ → α) (write : σ → Bytes) : Prop :=
  ∀ ⦃b a rest⦄, p b = some (a, rest) → ∃ s, value s = a ∧ b = write s ++ rest

theorem Reads.eq {write : α → Bytes} (hp : p.Reads id write) {a : α}
    (h : p b = some (a, rest)) : b = write a ++ rest := by
  obtain ⟨_, rfl, hb⟩ := hp h
  exact hb

theorem reads_contentOf (tag : UInt8) : (contentOf tag).Reads id (wrap tag) := by
  intro b c rest h
  obtain ⟨e, mid, he, hc⟩ := bind_eq_some.mp h
  obtain ⟨-, rfl⟩ := readElement_eq_some.mp he
  split at hc
  · rename_i ht
    obtain ⟨rfl, rfl⟩ := pure_eq_some.mp hc
    exact ⟨e.content, rfl, by rw [wrap, ← ht]⟩
  · cases hc

theorem length_lt_of_contentOf {tag : UInt8} {c : Bytes} (h : contentOf tag b = some (c, rest)) :
    c.length < lengthLimit := by
  obtain ⟨e, mid, he, hc⟩ := bind_eq_some.mp h
  split at hc
  · obtain ⟨rfl, -⟩ := pure_eq_some.mp hc
    exact (readElement_eq_some.mp he).1.length_lt
  · cases hc

theorem inside_eq_some {tag : UInt8} {a : α} (h : inside tag p b = some (a, rest)) :
    ∃ c, contentOf tag b = some (c, rest) ∧ p c = some (a, []) := by
  obtain ⟨c, mid, hc, ha⟩ := bind_eq_some.mp h
  cases hw : p.whole c with
  | none =>
    rw [hw] at ha
    cases ha
  | some a' =>
    rw [hw] at ha
    obtain ⟨rfl, rfl⟩ := pure_eq_some.mp ha
    exact ⟨c, hc, whole_eq_some.mp hw⟩

section Reads

variable {value : σ → α} {write : σ → Bytes} (hp : p.Reads value write)
include hp

theorem Reads.of_whole {a : α} (h : p.whole b = some a) : ∃ s, value s = a ∧ b = write s := by
  obtain ⟨s, hs, hb⟩ := hp (whole_eq_some.mp h)
  exact ⟨s, hs, by rw [hb, List.append_nil]⟩

theorem Reads.inside (tag : UInt8) :
    (Der.inside tag p).Reads value fun s => wrap tag (write s) := by
  intro b a rest h
  obtain ⟨c, hc, ha⟩ := inside_eq_some h
  obtain ⟨s, hs, rfl⟩ := hp.of_whole (whole_eq_some.mpr ha)
  exact ⟨s, hs, (reads_contentOf tag).eq hc⟩

theorem Reads.many (fuel : Nat) :
    (Der.many p fuel).Reads (List.map value) fun ss => ss.flatMap write := by
  induction fuel with
  | zero =>
    intro b as rest h
    obtain ⟨rfl, rfl⟩ := pure_eq_some.mp h
    exact ⟨[], rfl, rfl⟩
  | succ fuel ih =>
    intro b as rest h
    rw [Der.many, get_bind_eq] at h
    split at h
    · obtain ⟨rfl, rfl⟩ := pure_eq_some.mp h
      exact ⟨[], rfl, rfl⟩
    · obtain ⟨a, mid, ha, h'⟩ := bind_eq_some.mp h
      obtain ⟨as', mid', has, h''⟩ := bind_eq_some.mp h'
      obtain ⟨rfl, rfl⟩ := pure_eq_some.mp h''
      obtain ⟨s, rfl, rfl⟩ := hp ha
      obtain ⟨ss, rfl, rfl⟩ := ih has
      exact ⟨s :: ss, rfl, by simp⟩

theorem Reads.listOf (tag : UInt8) :
    (Der.listOf tag p).Reads (List.map value) fun ss => wrap tag (ss.flatMap write) := by
  refine Reads.inside (p := do Der.many p ((← get).length + 1)) ?_ tag
  intro b as rest h
  exact hp.many (b.length + 1) h

end Reads

section Ensures

variable {q : Parser β} {P : α → Prop} {Q : β → Prop}

/-- Whatever the parser reads has the property. -/
def Ensures (p : Parser α) (P : α → Prop) : Prop := ∀ ⦃b a rest⦄, p b = some (a, rest) → P a

theorem Ensures.bind (hp : p.Ensures P) (hf : ∀ a, P a → (f a).Ensures Q) :
    Ensures (p >>= f) Q := by
  intro b c rest h
  obtain ⟨a, mid, ha, hc⟩ := bind_eq_some.mp h
  exact hf a (hp ha) hc

theorem Ensures.next (hf : ∀ a, (f a).Ensures Q) : Ensures (p >>= f) Q :=
  Ensures.bind (P := fun _ => True) (fun _ _ _ _ => trivial) fun a _ => hf a

theorem ensures_pure {a : α} (h : P a) : Ensures (pure a) P := by
  intro b c rest hc
  obtain ⟨rfl, -⟩ := pure_eq_some.mp hc
  exact h

theorem ensures_failure : Ensures failure P := by
  intro b a rest h
  cases h

theorem ensures_failure_bind : Ensures (failure >>= f) Q :=
  Ensures.bind (P := fun _ => False) ensures_failure fun _ h => h.elim

theorem Ensures.inside (hp : p.Ensures P) (tag : UInt8) : (Der.inside tag p).Ensures P := by
  intro b a rest h
  obtain ⟨c, -, hc⟩ := inside_eq_some h
  exact hp hc

end Ensures

end Parser

/-! ## Writings that get shorter -/

theorem widthOf_mono {m n : Nat} (h : m ≤ n) : Bytes.widthOf m ≤ Bytes.widthOf n := by
  rw [Bytes.widthOf, Bytes.widthOf]
  by_cases hm : m = 0
  · simp [hm]
  · have hn : n ≠ 0 := by omega
    have hlog : m.log2 ≤ n.log2 := (Nat.le_log2 hn).mpr (Nat.le_trans (Nat.log2_self_le hm) h)
    rw [if_neg hm, if_neg hn]
    omega

theorem length_encodeLength (n : Nat) :
    (encodeLength n).length = if n < 0x80 then 1 else Bytes.widthOf n + 1 := by
  rw [encodeLength]
  split
  · rfl
  · simp [Bytes.ofNatMinimal]

theorem length_encodeLength_mono {m n : Nat} (h : m ≤ n) :
    (encodeLength m).length ≤ (encodeLength n).length := by
  have hw := widthOf_mono h
  rw [length_encodeLength, length_encodeLength]
  split <;> split <;> omega

theorem length_wrap (tag : UInt8) (c : Bytes) :
    (wrap tag c).length = 1 + (encodeLength c.length).length + c.length := by
  simp [wrap, Element.encode]
  omega

theorem length_lt_of_wrap {tag : UInt8} {c : Bytes} {n : Nat} (h : (wrap tag c).length < n) :
    c.length < n := by
  rw [length_wrap] at h
  omega

theorem wrap_inj {tag : UInt8} {c d : Bytes} (h : wrap tag c = wrap tag d) : c = d := by
  have hl := congrArg List.length h
  rw [length_wrap, length_wrap] at hl
  have hlen : c.length = d.length := by
    rcases Nat.lt_trichotomy c.length d.length with hlt | he | hgt
    · have := length_encodeLength_mono (Nat.le_of_lt hlt)
      omega
    · exact he
    · have := length_encodeLength_mono (Nat.le_of_lt hgt)
      omega
  rw [wrap, wrap, Element.encode, Element.encode, hlen] at h
  exact List.append_cancel_left h

/-- A writing and a shorter one, which agree exactly under a condition. -/
structure Shortens (y x : Bytes) (p : Prop) : Prop where
  length_le : y.length ≤ x.length
  eq_iff : y = x ↔ p

namespace Shortens

variable {x y x' y' : Bytes} {p q : Prop}

theorem refl (x : Bytes) : Shortens x x True := ⟨Nat.le_refl _, by simp⟩

theorem congr (h : Shortens y x p) (hpq : p ↔ q) : Shortens y x q :=
  ⟨h.length_le, h.eq_iff.trans hpq⟩

theorem of_length_eq (h : y.length = x.length) (hp : y = x ↔ p) : Shortens y x p :=
  ⟨Nat.le_of_eq h, hp⟩

theorem append (h : Shortens y x p) (h' : Shortens y' x' q) :
    Shortens (y ++ y') (x ++ x') (p ∧ q) := by
  have hl := h.length_le
  have hl' := h'.length_le
  refine ⟨by rw [List.length_append, List.length_append]; omega, ?_⟩
  rw [← h.eq_iff, ← h'.eq_iff]
  constructor
  · intro he
    have hs := congrArg List.length he
    rw [List.length_append, List.length_append] at hs
    exact List.append_inj he (by omega)
  · rintro ⟨rfl, rfl⟩
    rfl

theorem wrap (h : Shortens y x p) (tag : UInt8) : Shortens (wrap tag y) (wrap tag x) p := by
  have hl := length_encodeLength_mono h.length_le
  have hle := h.length_le
  refine ⟨by rw [length_wrap, length_wrap]; omega, ?_⟩
  rw [← h.eq_iff]
  exact ⟨wrap_inj, congrArg _⟩

theorem flatMap {value : σ → α} {write : α → Bytes} {spell : σ → Bytes} {p : σ → Prop}
    {ss : List σ} (h : ∀ s ∈ ss, Shortens (write (value s)) (spell s) (p s)) :
    Shortens ((ss.map value).flatMap write) (ss.flatMap spell) (∀ s ∈ ss, p s) := by
  induction ss with
  | nil => exact (refl []).congr (by simp)
  | cons s ss ih =>
    rw [List.forall_mem_cons] at h
    rw [List.map_cons, List.flatMap_cons, List.flatMap_cons]
    exact (h.1.append (ih h.2)).congr List.forall_mem_cons.symm

end Shortens

end Strongbox.Der
