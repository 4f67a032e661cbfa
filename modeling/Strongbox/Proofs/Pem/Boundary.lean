/-
  Strongbox.Proofs.Pem.Boundary — where a block begins, and what one is made of.

  A block is read from the first boundary on, which stands at the beginning or behind a line feed.
  So octets in front of a boundary at the beginning leave it one exactly when they end with a line
  feed. Otherwise reading goes on to the next boundary, and a block that decodes as a whole has
  none: a label is on one line, and the lines of a body have no hyphen.
  - `exists_frame_of_block?`: what is accepted is a frame around some lines.
  - `fromBoundary?_of_decode?`: in a block that decodes there is no second boundary.
  - `boundary?_append`: where a block behind some blanks begins.
-/

import Strongbox.Proofs.Pem

namespace Strongbox.Pem

def boundary? (b : Bytes) : Option Bytes := if startsWith b opening then some b else fromBoundary? b

theorem opening_eq : opening = [45, 45, 45, 45, 45, 66, 69, 71, 73, 78, 32] := by rfl

theorem closing_eq : closing = [45, 45, 45, 45, 45, 69, 78, 68, 32] := by rfl

theorem startsWith_opening_of_ne {x : UInt8} (h : x ≠ 45) (b : Bytes) :
    startsWith (x :: b) opening = false := by
  rw [opening_eq, startsWith, List.isPrefixOf_cons_cons]
  simp [Ne.symm h]

theorem fromBoundary?_eq_some {b t : Bytes} (h : fromBoundary? b = some t) :
    startsWith t opening = true ∧ ∃ front, b = front ++ t := by
  induction b with
  | nil => cases h
  | cons x b ih =>
    rw [fromBoundary?] at h
    split at h
    · cases h
    · split at h
      · rename_i hx
        cases h
        exact ⟨hx.2, [x], rfl⟩
      · obtain ⟨hs, front, rfl⟩ := ih h
        exact ⟨hs, x :: front, rfl⟩

theorem boundary?_eq_some {b t : Bytes} (h : boundary? b = some t) :
    startsWith t opening = true ∧ ∃ front, b = front ++ t := by
  rw [boundary?] at h
  split at h
  · rename_i hs
    cases h
    exact ⟨hs, [], rfl⟩
  · exact fromBoundary?_eq_some h

/-- Only what follows the first boundary counts, -/
theorem split?_of_boundary? {b t : Bytes} (h : boundary? b = some t) : split? b = split? t := by
  obtain ⟨ht, -⟩ := boundary?_eq_some h
  rw [boundary?] at h
  split at h
  · cases h
    rfl
  · rename_i hb
    rw [split?, if_neg hb, h, split?, if_pos ht]

/-- and without one nothing is read. -/
theorem split?_of_no_boundary {b : Bytes} (h : boundary? b = none) : split? b = none := by
  rw [boundary?] at h
  split at h
  · cases h
  · rename_i hb
    rw [split?, if_neg hb, h]
    rfl

theorem split?_congr {b b' : Bytes} (h : boundary? b = boundary? b') : split? b = split? b' := by
  cases hb : boundary? b' with
  | none => rw [split?_of_no_boundary hb, split?_of_no_boundary (h.trans hb)]
  | some t => rw [split?_of_boundary? hb, split?_of_boundary? (h.trans hb)]

theorem block?_congr {b b' : Bytes} (h : boundary? b = boundary? b') : block? b = block? b' := by
  rw [block?, block?, split?_congr h]

/-! ## The frame of a block -/

inductive IsLineEnd : Bytes → Prop
  | feed : IsLineEnd [10]
  | carriage : IsLineEnd [13]
  | both : IsLineEnd [13, 10]

theorem IsLineEnd.eq_of_mem {e : Bytes} (he : IsLineEnd e) {x : UInt8} (h : x ∈ e) :
    x = 10 ∨ x = 13 := by
  cases he with
  | feed => exact .inl (List.mem_singleton.mp h)
  | carriage => exact .inr (List.mem_singleton.mp h)
  | both =>
    rcases List.mem_cons.mp h with rfl | h
    · exact .inr rfl
    · exact .inl (List.mem_singleton.mp h)

theorem afterLineEnd?_eq_some {b rest : Bytes} (h : afterLineEnd? b = some rest) :
    ∃ e, IsLineEnd e ∧ b = e ++ rest := by
  unfold afterLineEnd? at h
  split at h
  · cases h
    exact ⟨_, .both, rfl⟩
  · cases h
    exact ⟨_, .carriage, rfl⟩
  · cases h
    exact ⟨_, .feed, rfl⟩
  · cases h

theorem beforeLineEnd?_eq_some {r rest : Bytes} (h : beforeLineEnd? r = some rest) :
    ∃ e, IsLineEnd e ∧ r = e.reverse ++ rest := by
  unfold beforeLineEnd? at h
  split at h
  · cases h
    exact ⟨_, .both, rfl⟩
  · cases h
    exact ⟨_, .feed, rfl⟩
  · cases h
    exact ⟨_, .carriage, rfl⟩
  · cases h

theorem dropEnding?_eq_some {ending b rest : Bytes} (h : dropEnding? ending b = some rest) :
    b = ending ++ rest := by
  rw [dropEnding?] at h
  split at h
  · rename_i hs
    cases h
    obtain ⟨r, rfl⟩ := List.isPrefixOf_iff_prefix.mp hs
    rw [List.drop_left]
  · cases h

theorem labelLength?_eq_some {n m : Nat} {afterBlank : Bool} {b : Bytes}
    (h : labelLength? n afterBlank b = some m) :
    ∃ k, m = n + k ∧ 10 ∉ b.take k := by
  induction b generalizing n afterBlank with
  | nil =>
    cases h
    exact ⟨0, rfl, List.not_mem_nil⟩
  | cons x b ih =>
    have hmore {afterBlank : Bool} (hx : x ≠ 10) (h : labelLength? (n + 1) afterBlank b = some m) :
        ∃ k, m = n + k ∧ 10 ∉ (x :: b).take k := by
      obtain ⟨k, rfl, hmem⟩ := ih h
      refine ⟨k + 1, by omega, ?_⟩
      simp [hmem, Ne.symm hx]
    rw [labelLength?] at h
    split at h
    · cases h
      exact ⟨0, rfl, List.not_mem_nil⟩
    · split at h
      · rename_i hx
        exact hmore (by rintro rfl; exact absurd hx (by decide)) h
      · split at h
        · rename_i hx
          exact hmore (by rintro rfl; exact absurd hx.1 (by decide)) h
        · cases h

structure Frame where
  label : Bytes
  lineEnd : Bytes
  innerEnd : Bytes
  ending : Bytes
  not_mem_label : 10 ∉ label
  isLineEnd : IsLineEnd lineEnd
  isInnerEnd : IsLineEnd innerEnd
  isEnding : ending = [] ∨ IsLineEnd ending

def Frame.around (f : Frame) (inner : Bytes) : Bytes :=
  opening ++ (f.label ++ (dashes ++ (f.lineEnd ++ (inner ++ (f.innerEnd ++
    (closing ++ (f.label ++ (dashes ++ f.ending))))))))

theorem exists_of_startsWith {b start : Bytes} (h : startsWith b start = true) :
    ∃ rest, b = start ++ rest := by
  obtain ⟨rest, rfl⟩ := List.isPrefixOf_iff_prefix.mp h
  exact ⟨rest, rfl⟩

theorem exists_ending (r : Bytes) : ∃ e, (e = [] ∨ IsLineEnd e) ∧
    r = e.reverse ++ (beforeLineEnd? r).getD r := by
  cases hr : beforeLineEnd? r with
  | none => exact ⟨[], .inl rfl, rfl⟩
  | some rest =>
    obtain ⟨e, he, h⟩ := beforeLineEnd?_eq_some hr
    exact ⟨e, .inr he, h⟩

/-- What is accepted is a frame around some lines, from the first boundary on. -/
theorem exists_frame_of_split? {b inner : Bytes} {label : String}
    (h : split? b = some (label, inner)) :
    ∃ f : Frame, Bytes.toString? f.label = some label ∧ boundary? b = some (f.around inner) := by
  cases hb : boundary? b with
  | none =>
    rw [split?_of_no_boundary hb] at h
    cases h
  | some t =>
    obtain ⟨hs, -⟩ := boundary?_eq_some hb
    rw [split?_of_boundary? hb, split?, if_pos hs] at h
    obtain ⟨t, rfl⟩ := exists_of_startsWith hs
    simp only [Option.bind_eq_bind, Option.bind_some, List.drop_left] at h
    obtain ⟨n, hn, h⟩ := Option.bind_eq_some_iff.mp h
    obtain ⟨k, rfl, hfeed⟩ := labelLength?_eq_some hn
    rw [Nat.zero_add] at h
    split at h
    · cases h
    · rename_i hdashes
      obtain ⟨after, hafter⟩ := exists_of_startsWith (by simpa using hdashes)
      rw [hafter, List.drop_left] at h
      -- The octets behind the first line are taken apart from the end.
      obtain ⟨last, hlast, h⟩ := Option.bind_eq_some_iff.mp h
      obtain ⟨lineEnd, hlineEnd, hline⟩ := afterLineEnd?_eq_some hlast
      obtain ⟨ending, hending, hr⟩ := exists_ending last.reverse
      obtain ⟨r1, h1, h⟩ := Option.bind_eq_some_iff.mp h
      obtain ⟨r2, h2, h⟩ := Option.bind_eq_some_iff.mp h
      obtain ⟨r3, h3, h⟩ := Option.bind_eq_some_iff.mp h
      obtain ⟨r4, h4, h⟩ := Option.bind_eq_some_iff.mp h
      obtain ⟨innerEnd, hinnerEnd, hr4⟩ := beforeLineEnd?_eq_some h4
      obtain ⟨text, htext, h⟩ := Option.bind_eq_some_iff.mp h
      cases h
      rw [dropEnding?_eq_some h1, dropEnding?_eq_some h2, dropEnding?_eq_some h3, hr4] at hr
      refine ⟨⟨t.take k, lineEnd, innerEnd, ending, hfeed, hlineEnd, hinnerEnd, hending⟩, htext, ?_⟩
      have hreverse := congrArg List.reverse hr
      have hdash : dashes.reverse = dashes := by rfl
      simp only [List.reverse_append, List.reverse_reverse, List.append_assoc, hdash] at hreverse
      rw [Frame.around, ← hreverse, ← hline, ← hafter, List.take_append_drop]

theorem exists_frame_of_block? {b : Bytes} {block : Block} (h : block? b = some block) :
    ∃ (f : Frame) (inner : Bytes), f.label = ascii block.label ∧
      boundary? b = some (f.around inner) ∧
      joinLines? (inner.length + 1) inner = some block.body := by
  obtain ⟨⟨label, inner⟩, hsplit, h⟩ := Option.bind_eq_some_iff.mp h
  obtain ⟨body, hbody, h⟩ := Option.bind_eq_some_iff.mp h
  split at h
  · cases h
  · cases h
    obtain ⟨f, hlabel, hf⟩ := exists_frame_of_split? hsplit
    exact ⟨f, inner, Bytes.eq_ofString_of_toString? hlabel, hf, hbody⟩

/-- A block takes as many octets as its boundaries at least. -/
theorem le_length_of_block? {b : Bytes} {block : Block} (h : block? b = some block) :
    30 + 2 * (ascii block.label).length ≤ b.length := by
  obtain ⟨f, inner, hlabel, hf, -⟩ := exists_frame_of_block? h
  obtain ⟨-, front, rfl⟩ := boundary?_eq_some hf
  simp only [Frame.around, opening_eq, closing_eq, dashes_eq, hlabel, List.length_append,
    List.length_cons, List.length_nil]
  omega

/-! ## No second boundary -/

section Silent

variable {a b : Bytes}

/-- Octets that end no line have no boundary behind one, -/
theorem fromBoundary?_append_of_no_feed (ha : 10 ∉ a) (hb : fromBoundary? b = none) :
    fromBoundary? (a ++ b) = none := by
  induction a with
  | nil => exact hb
  | cons x a ih =>
    rw [List.mem_cons, not_or] at ha
    have hx : ¬(x = 10 ∧ startsWith (a ++ b) opening = true) := fun h => ha.1 h.1.symm
    rw [List.cons_append, fromBoundary?, if_neg hx, ih ha.2, ite_self]

/-- and octets without a hyphen begin none. -/
theorem fromBoundary?_append_of_no_hyphen (ha : 45 ∉ a) (hs : startsWith b opening = false)
    (hb : fromBoundary? b = none) : fromBoundary? (a ++ b) = none := by
  induction a with
  | nil => exact hb
  | cons x a ih =>
    rw [List.mem_cons, not_or] at ha
    have hnext : startsWith (a ++ b) opening = false := by
      cases a with
      | nil => exact hs
      | cons y a => exact startsWith_opening_of_ne (fun h => ha.2 (h ▸ List.mem_cons_self)) _
    rw [List.cons_append, fromBoundary?, ih ha.2, hnext]
    simp

end Silent

theorem startsWith_closing_opening (b : Bytes) : startsWith (closing ++ b) opening = false := by
  rw [opening_eq, closing_eq]
  rfl

/-- A frame around lines without a hyphen has no other boundary than its first. -/
theorem Frame.fromBoundary?_around (f : Frame) {inner : Bytes} (h : 45 ∉ inner) :
    fromBoundary? (f.around inner) = none := by
  have hline {e : Bytes} (he : IsLineEnd e) : (45 : UInt8) ∉ e := by
    intro hmem
    rcases he.eq_of_mem hmem with h | h <;> exact absurd h (by decide)
  have hend : fromBoundary? f.ending = none := by
    rw [← List.append_nil f.ending]
    refine fromBoundary?_append_of_no_hyphen ?_ (by rw [opening_eq]; rfl) rfl
    rcases f.isEnding with he | he
    · rw [he]
      exact List.not_mem_nil
    · exact hline he
  have hdashes : (10 : UInt8) ∉ dashes := by decide
  have hopening : (10 : UInt8) ∉ opening := by decide
  have hclosing : (10 : UInt8) ∉ closing := by decide
  have hlast := fromBoundary?_append_of_no_feed hclosing
    (fromBoundary?_append_of_no_feed f.not_mem_label (fromBoundary?_append_of_no_feed hdashes hend))
  have hbody : (45 : UInt8) ∉ f.lineEnd ++ (inner ++ f.innerEnd) := by
    simp only [List.mem_append, not_or]
    exact ⟨hline f.isLineEnd, h, hline f.isInnerEnd⟩
  have hlines := fromBoundary?_append_of_no_hyphen hbody (startsWith_closing_opening _) hlast
  simp only [List.append_assoc] at hlines
  exact fromBoundary?_append_of_no_feed hopening
    (fromBoundary?_append_of_no_feed f.not_mem_label (fromBoundary?_append_of_no_feed hdashes hlines))

/-- Joining lines drops line ends only. -/
theorem mem_of_joinLines? {fuel : Nat} {b body : Bytes} (h : joinLines? fuel b = some body)
    {x : UInt8} (hx : x ∈ b) : x ∈ body ∨ x = 10 ∨ x = 13 := by
  induction fuel generalizing b body with
  | zero => cases h
  | succ fuel ih =>
    rw [joinLines?] at h
    split at h
    · cases h
      obtain ⟨e, he, hb⟩ := exists_ending b.reverse
      rw [← List.mem_reverse, hb, List.mem_append, List.mem_reverse] at hx
      rcases hx with hx | hx
      · rcases he with rfl | he
        · cases hx
        · exact .inr (he.eq_of_mem hx)
      · exact .inl (List.mem_reverse.mpr hx)
    · obtain ⟨rest, hrest, h⟩ := Option.bind_eq_some_iff.mp h
      obtain ⟨e, he, hdrop⟩ := afterLineEnd?_eq_some hrest
      rw [← List.take_append_drop 64 b, hdrop, List.mem_append, List.mem_append] at hx
      split at h
      · rename_i hnil
        cases h
        rcases hx with hx | hx | hx
        · exact .inl hx
        · exact .inr (he.eq_of_mem hx)
        · rw [hnil] at hx
          cases hx
      · obtain ⟨more, hmore, rfl⟩ := Option.map_eq_some_iff.mp h
        rw [List.mem_append]
        rcases hx with hx | hx | hx
        · exact .inl (.inl hx)
        · exact .inr (he.eq_of_mem hx)
        · exact (ih hmore hx).imp_left .inr

/-- In a block that begins with a boundary and decodes as a whole there is no second boundary. -/
theorem fromBoundary?_of_decode? {b content : Bytes} {block : Block}
    (hs : startsWith b opening = true) (hblock : block? b = some block)
    (hdecode : block.decode? = some content) : fromBoundary? b = none := by
  obtain ⟨f, inner, -, hf, hbody⟩ := exists_frame_of_block? hblock
  rw [boundary?, if_pos hs, Option.some.injEq] at hf
  rw [hf]
  refine f.fromBoundary?_around fun hmem => ?_
  rw [Block.decode?] at hdecode
  cases hd : Base64.decodeBytes block.body with
  | error e =>
    rw [hd] at hdecode
    cases hdecode
  | ok out =>
    rcases mem_of_joinLines? hbody hmem with h | h | h
    · rw [Base64.eq_encodeOctets_of_decodeBytes hd] at h
      exact Base64.hyphen_not_mem_encodeOctets out h
    · exact absurd h (by decide)
    · exact absurd h (by decide)

/-! ## Blanks in front -/

def IsBlank (x : UInt8) : Prop := x = 32 ∨ x = 9 ∨ x = 10 ∨ x = 12 ∨ x = 13

instance (x : UInt8) : Decidable (IsBlank x) := inferInstanceAs (Decidable (_ ∨ _))

theorem IsBlank.toNat_lt {x : UInt8} (h : IsBlank x) : x.toNat < 45 := by
  rcases h with rfl | rfl | rfl | rfl | rfl <;> decide

theorem IsBlank.ne_zero {x : UInt8} (h : IsBlank x) : x ≠ 0 := by
  rintro rfl
  exact absurd h (by decide)

theorem IsBlank.ne_hyphen {x : UInt8} (h : IsBlank x) : x ≠ 45 := by
  rintro rfl
  exact absurd h (by decide)

def AreBlank (w : Bytes) : Prop := ∀ x ∈ w, IsBlank x

/-- What stands behind some octets begins a line. -/
def BeginsLine (w : Bytes) : Prop := w = [] ∨ w.getLast? = some 10

instance (w : Bytes) : Decidable (AreBlank w) := List.decidableBAll _ w

instance (w : Bytes) : Decidable (BeginsLine w) := inferInstanceAs (Decidable (_ ∨ _))

/-- Recognition passes over blanks, -/
theorem looksLike_append {w : Bytes} (hw : AreBlank w) (p : Bytes) :
    looksLike (w ++ p) = looksLike p := by
  rw [looksLike, looksLike, List.dropWhile_append_of_pos]
  intro x hx
  rcases hw x hx with rfl | rfl | rfl | rfl | rfl <;> rfl

/-- and reading does to the next line only. -/
theorem fromBoundary?_append {w : Bytes} (hw : AreBlank w) (p : Bytes) :
    fromBoundary? (w ++ p) =
      if w.getLast? = some 10 then boundary? p else fromBoundary? p := by
  induction w with
  | nil => rfl
  | cons x w ih =>
    obtain ⟨hx, hw⟩ := List.forall_mem_cons.mp hw
    rw [List.cons_append, fromBoundary?, if_neg hx.ne_zero, ih hw]
    cases w with
    | nil =>
      simp only [List.nil_append, List.getLast?_nil, List.getLast?_singleton, reduceCtorEq,
        if_false, Option.some.injEq, boundary?]
      by_cases h10 : x = 10 <;> simp [h10]
    | cons y w =>
      have hy : y ≠ 45 := (hw y List.mem_cons_self).ne_hyphen
      rw [List.cons_append, startsWith_opening_of_ne hy, List.getLast?_cons_cons]
      simp

/-- The first boundary behind some blanks is the one at the beginning where a line begins there,
and else the next one. -/
theorem boundary?_append {w : Bytes} (hw : AreBlank w) (p : Bytes) :
    boundary? (w ++ p) = if BeginsLine w then boundary? p else fromBoundary? p := by
  cases w with
  | nil => rw [List.nil_append, if_pos (.inl rfl)]
  | cons x w =>
    have hx : x ≠ 45 := (hw x List.mem_cons_self).ne_hyphen
    rw [boundary?, List.cons_append, startsWith_opening_of_ne hx, ← List.cons_append,
      fromBoundary?_append hw]
    simp [BeginsLine]

end Strongbox.Pem
