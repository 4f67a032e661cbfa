/-
  Strongbox.Proofs.Json.Sequence — a record is read from every text of a list.

  In a list the elements stand for the fields by their order alone. There is one element for each
  field: with fewer a field is missing, and with more the list is not over where it should be.
  This is the relation `Follows`, which goes along the fields and the elements together; the
  reader comes from one place in the text to the next, and what stands there is said by `Ahead`.
  - `record_reads_list`: the reader of a record reads a list as its fields follow the elements.
  - `head?_of_record`: what a record is read from is an object or a list, behind blanks.
-/

import Strongbox.Proofs.Json.Record

namespace Strongbox.Json.Read

open Scanner

/-! ## Places between the elements -/

/-- The first octet of a value is no blank and does not close a list. -/
theorem renders_eq_cons {v : Tree} {b : Bytes} (h : Renders v b) :
    ∃ x b', b = x :: b' ∧ isBlankOctet x = false ∧ x ≠ 93 := by
  cases h with
  | number n =>
    have hd : ∀ d : Fin 10, isBlankOctet (decimalOctet d) = false ∧ decimalOctet d ≠ 93 := by decide
    rw [Numeral.octets]
    split
    · exact ⟨_, _, rfl, rfl, by decide⟩
    · exact ⟨_, _, rfl, hd _⟩
  | string h =>
    obtain ⟨-⟩ := h
    exact ⟨_, _, rfl, rfl, by decide⟩
  | _ => exact ⟨_, _, rfl, rfl, by decide⟩

/-- What stands between the elements of a list: these elements are still to come, and then the
octets `t` behind the list. -/
inductive Ahead (t : Bytes) : List Tree → Bool → Bytes → Prop where
  | closing {first : Bool} {w : Bytes} : Blank w → Ahead t [] first (w ++ 93 :: t)
  | element {v : Tree} {vs : List Tree} {first : Bool} {b before : Bytes} :
    RendersElements v vs b → Continues (b ++ 93 :: t) first before → Ahead t (v :: vs) first before

theorem Ahead.next {t : Bytes} {v : Tree} {vs : List Tree} {first : Bool} {before : Bytes}
    (h : Ahead t (v :: vs) first before) (unclosed ended : Error) :
    ∃ x b after, Renders v b ∧ Ends after ∧ Ahead t vs false after ∧
      nextElement first 93 unclosed ended before = .ok (some x, b ++ after) := by
  cases h with
  | element hb hc =>
    cases hb with
    | one he =>
      obtain ⟨hw, hv, hw'⟩ := he
      rename_i w b w'
      obtain ⟨x, b', rfl, hx, hne⟩ := renders_eq_cons hv
      simp only [List.append_assoc, List.cons_append] at hc
      exact ⟨x, _, w' ++ 93 :: t, hv, ends_of_separator hw' (.inr (.inl rfl)) t, .closing hw',
        nextElement_continues (by decide) hx hne hw hc _ _⟩
    | more he hbs =>
      obtain ⟨hw, hv, hw'⟩ := he
      rename_i bs w b w'
      obtain ⟨x, b', rfl, hx, hne⟩ := renders_eq_cons hv
      simp only [List.append_assoc, List.cons_append] at hc
      exact ⟨x, _, w' ++ 44 :: (bs ++ 93 :: t), hv, ends_of_separator hw' (.inl rfl) _,
        .element hbs (.more hw'), nextElement_continues (by decide) hx hne hw hc _ _⟩

theorem Ahead.end {t : Bytes} {first : Bool} {before : Bytes} (h : Ahead t [] first before)
    (unclosed ended : Error) :
    nextElement first 93 unclosed ended before = .ok (none, 93 :: t) ∧
      endOfList before = .ok ((), t) := by
  cases h with
  | closing hw =>
    constructor
    · rw [nextElement, bind_blank hw]
      exact nextElement_closing first 93 (by decide) _ _ t
    · rw [endOfList, bind_blank hw, bind_ok (peekPastBlanks_cons (by decide) _)]
      exact take_cons _ _

/-- Behind a comma a list is not over, whatever follows. -/
theorem afterComma_fails (s : Bytes) : ∃ e, (do
    match (← peekPastBlanks) with
    | some 93 => throw .trailingComma
    | _ => throw .trailingCharacters : Scanner Unit) s = .error e := by
  rw [bind_ok (peekPastBlanks_ok s)]
  cases (s.dropWhile isBlankOctet).head? with
  | none => exact ⟨_, rfl⟩
  | some x =>
    by_cases hx : x = 93
    · subst hx
      exact ⟨_, rfl⟩
    · refine ⟨.trailingCharacters, congrFun (?_ : _ = (throw .trailingCharacters : Scanner Unit)) _⟩
      split
      · rename_i h
        exact absurd (Option.some.inj h) hx
      · rfl

theorem Ahead.endOfList_fails {t : Bytes} {v : Tree} {vs : List Tree} {first : Bool}
    {before : Bytes} (h : Ahead t (v :: vs) first before) : ∃ e, endOfList before = .error e := by
  have hb : Begins 93 before := by
    cases h with
    | element hb hc =>
      cases hc with
      | first => exact (begins_elements hb).append _
      | more hw => exact .blank hw (.cons rfl (by decide))
  obtain ⟨w, x, s, hw, hx, hne, rfl⟩ := hb
  rw [endOfList, bind_blank hw, bind_ok (peekPastBlanks_cons hx _)]
  by_cases hc : x = 44
  · subst hc
    show ∃ e, (take >>= fun _ => peekPastBlanks >>= fun _ => _ : Scanner Unit) _ = .error e
    rw [bind_ok (take_cons _ _)]
    exact afterComma_fails s
  · refine ⟨.trailingCharacters, congrFun (?_ : _ = (throw .trailingCharacters : Scanner Unit)) _⟩
    split
    · rename_i h
      cases h
    · rename_i h
      exact absurd (Option.some.inj h) hne
    · rename_i h
      exact absurd (Option.some.inj h) hc
    · rfl

/-! ## Elements -/

inductive Follows : List (Field σ) → σ → List Tree → Option σ → Prop where
  | done (s : σ) : Follows [] s [] (some s)
  | surplus (s : σ) (v : Tree) (vs : List Tree) : Follows [] s (v :: vs) none
  | short {f : Field σ} (fs : List (Field σ)) (s : σ) : f.mayLack = false →
    Follows (f :: fs) s [] none
  | fail {f : Field σ} {s : σ} {v : Tree} (fs : List (Field σ)) (vs : List Tree) :
    Reads (f.read s) v none → Follows (f :: fs) s (v :: vs) none
  | cons {f : Field σ} {fs : List (Field σ)} {s s' : σ} {v : Tree} {vs : List Tree}
    {r : Option σ} : Reads (f.read s) v (some s') → Follows fs s' vs r →
      Follows (f :: fs) s (v :: vs) r

def listed (what : String) (total index : Nat) (fields : List (Field σ)) (s : σ)
    (finish : σ → Except Error α) : Scanner α := do
  let s ← elements what total index fields s
  let a ← finish s
  endOfList
  return a

/-- A list is read as its fields follow the elements that are still ahead. -/
theorem listed_gives {fields : List (Field σ)} {s : σ} {vs : List Tree} {r : Option σ}
    (h : Follows fields s vs r) (what : String) (total : Nat) (finish : σ → Except Error α)
    {index : Nat} {before t : Bytes} (ha : Ahead t vs (index == 0) before) :
    Gives (listed what total index fields s finish before)
      (r.bind fun s => (finish s).toOption) t := by
  -- Each field takes one element and leaves the place behind it to the next field.
  induction h generalizing index before with
  | done s =>
    rw [listed, elements, pure_bind, Option.bind_some]
    cases finish s with
    | error e => exact ⟨e, rfl⟩
    | ok a =>
      show (endOfList >>= fun _ => pure a) before = .ok (a, t)
      rw [bind_ok (ha.end .endInList .expectedListEnd).2]
      rfl
  | surplus s v vs =>
    rw [listed, elements, pure_bind]
    cases finish s with
    | error e => exact ⟨e, rfl⟩
    | ok a =>
      show ∃ e, (endOfList >>= fun _ => pure a) before = .error e
      exact bind_fails ha.endOfList_fails
  | short fs s hl =>
    rw [listed, elements]
    refine bind_fails ?_
    rw [bind_ok (ha.end _ _).1]
    simp only [hl]
    exact ⟨_, rfl⟩
  | fail fs vs hr =>
    obtain ⟨x, b, after, hv, hends, -, hn⟩ := ha.next .endInList .expectedListEnd
    rw [listed, elements]
    refine bind_fails ?_
    rw [bind_ok hn]
    exact bind_fails (hr (w := []) nofun hv hends)
  | @cons f fs s s' v vs r hr _ ih =>
    obtain ⟨x, b, after, hv, hends, hnext, hn⟩ := ha.next .endInList .expectedListEnd
    have hread : f.read s (b ++ after) = .ok (s', after) := hr (w := []) nofun hv hends
    have he : listed what total index (f :: fs) s finish before =
        listed what total (index + 1) fs s' finish after := by
      rw [listed, elements, listed, bind_assoc]
      rw [bind_ok hn]
      show (f.read s >>= _ >>= _ : Scanner α) _ = _
      rw [bind_assoc, bind_ok hread]
    rw [he]
    exact ih hnext

/-- The reader of a record reads a list as its fields follow the elements and as the record is
made of what they read. -/
theorem record_reads_list {fields : List (Field σ)} {start : σ} {vs : List Tree} {r : Option σ}
    (h : Follows fields start vs r) (what : String) (finish : σ → Except Error α) :
    Reads (record what fields start finish) (.list vs) (r.bind fun s => (finish s).toOption) := by
  intro w b t hw hb _
  have ha {s : Bytes} (hs : Ahead t vs true s) :
      Gives (record what fields start finish (w ++ 91 :: s))
        (r.bind fun s => (finish s).toOption) t := by
    rw [record, bind_blank hw, bind_ok (peekPastBlanks_cons (by decide) _)]
    show Gives ((take >>= fun _ => listed what fields.length 0 fields start finish) _) _ t
    rw [bind_ok (take_cons _ _)]
    exact listed_gives h what _ finish hs
  cases hb with
  | emptyList hw' =>
    simp only [List.cons_append, List.append_assoc, List.nil_append]
    exact ha (.closing hw')
  | list hb =>
    simp only [List.cons_append, List.append_assoc, List.nil_append]
    exact ha (.element hb .first)

/-! ## What a record begins with -/

theorem head?_of_record {fields : List (Field σ)} {start : σ} {what : String}
    {finish : σ → Except Error α} {b : Bytes} {p : α × Bytes}
    (h : record what fields start finish b = .ok p) :
    ∃ w rest, b = w ++ rest ∧ Blank w ∧
      (rest.head? = some 0x7B ∨ rest.head? = some 0x5B) := by
  have hw : Blank (b.takeWhile isBlankOctet) := blank_of_all List.all_takeWhile
  refine ⟨_, _, List.takeWhile_append_dropWhile.symm, hw, ?_⟩
  have hs := peekPastBlanks_ok b
  cases hx : (b.dropWhile isBlankOctet).head? with
  | none =>
    rw [record, bind_ok hs, hx] at h
    cases h
  | some x =>
    by_cases hbrace : x = 0x7B
    · exact .inl (congrArg some hbrace)
    by_cases hbracket : x = 0x5B
    · exact .inr (congrArg some hbracket)
    have hrefused : ∃ e, record what fields start finish b = .error e := by
      obtain ⟨e, he⟩ := refuse_fails (α := α) what (b.dropWhile isBlankOctet)
      rw [record, bind_ok hs, hx]
      refine ⟨e, (congrFun (?_ : _ = refuse what) _).trans he⟩
      split
      · rename_i hnone
        cases hnone
      · rename_i hx
        exact absurd (Option.some.inj hx) hbrace
      · rename_i hx
        exact absurd (Option.some.inj hx) hbracket
      · rfl
    obtain ⟨e, he⟩ := hrefused
    rw [he] at h
    cases h

end Strongbox.Json.Read
