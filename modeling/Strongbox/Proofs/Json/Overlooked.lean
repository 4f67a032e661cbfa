/-
  Strongbox.Proofs.Json.Overlooked — what the scanner takes where it passes over a value.

  A value that is passed over is not read as text. What the scanner takes is `Loose`: outside the
  strings every octet is one of ASCII, since each is compared with a certain octet or is a digit;
  inside a string every octet is taken that is no quote, backslash or control. There is one lemma
  for each part of the scanner, and the loop over the open lists and objects goes through them.
  - `passString_eq_ok_iff`: the strings that are passed over.
  - `passValue_loose`: what is taken for a value that is passed over.
-/

import Strongbox.Proofs.Json.Record
import Strongbox.Proofs.Json.Spelling

namespace Strongbox.Json.Scanner

/-! ## What scanners ensure -/

def Ensures (sc : Scanner α) (s : Bytes) (P : α → Bytes → Prop) : Prop :=
  ∀ a rest, sc s = .ok (a, rest) → P a rest

namespace Ensures

variable {P : α → Bytes → Prop} {s : Bytes}

theorem throw (e : Error) : Ensures (throw e : Scanner α) s P := nofun

theorem pure {a : α} (h : P a s) : Ensures (Pure.pure a) s P := by
  intro _ _ hs
  cases hs
  exact h

theorem take {P : Unit → Bytes → Prop} {b : UInt8} (h : P () s) :
    Ensures Scanner.take (b :: s) P := by
  intro _ _ hs
  cases hs
  exact h

theorem bind {sc : Scanner β} {f : β → Scanner α}
    (h : Ensures sc s fun b s' => Ensures (f b) s' P) : Ensures (sc >>= f) s P := by
  intro a rest hs
  rw [bind_eq_ok] at hs
  obtain ⟨b, s', hb, hf⟩ := hs
  exact h b s' hb a rest hf

theorem peek {f : Option UInt8 → Scanner α}
    (h : ∀ w s', Blank w → s = w ++ s' → Ensures (f s'.head?) s' P) :
    Ensures (peekPastBlanks >>= f) s P :=
  h _ _ (blank_of_all List.all_takeWhile) List.takeWhile_append_dropWhile.symm

end Ensures

/-! ## Strings -/

theorem passEscape_form {s rest : Bytes} (h : passEscape s = .ok ((), rest)) :
    ∃ e, EscapeForm e ∧ s = e ++ rest := by
  rw [passEscape, bind_ok (get_ok _)] at h
  split at h
  · cases h
  · rename_i b s'
    rw [bind_ok (set_ok _ _)] at h
    split at h
    · rename_i hb
      change (codeUnit >>= fun _ => pure ()) s' = _ at h
      rw [bind_eq_ok] at h
      obtain ⟨n, s₁, hn, h⟩ := h
      obtain ⟨b', hb', rfl⟩ := codeUnit_spells hn
      cases h
      exact ⟨117 :: b', .unit hb', by rw [hb]; rfl⟩
    · split at h
      · cases h
      · rename_i hn
        cases h
        rw [Option.isNone_iff_eq_none] at hn
        exact ⟨[b], .short (Option.isSome_iff_ne_none.mpr hn), rfl⟩

/-- A string is passed over exactly where octets of a string stand before its closing quote. -/
theorem passString_eq_ok_iff {s rest : Bytes} :
    passString s = .ok ((), rest) ↔ ∃ q, StringOctets q ∧ s = q ++ 34 :: rest := by
  constructor
  · intro h
    rw [passString, bind_ok (get_ok _)] at h
    change (stringFrom passedEscape _ [] >>= fun _ => pure ()) s = _ at h
    rw [bind_eq_ok] at h
    obtain ⟨b, s', hb, h⟩ := h
    cases h
    have hu {s r rest : Bytes} (h : passedEscape s = .ok (r, rest)) :
        ∃ e, EscapeForm e ∧ s = e ++ rest := by
      rw [bind_eq_ok] at h
      obtain ⟨_, s', he, h⟩ := h
      cases h
      exact passEscape_form he
    obtain ⟨q, bs, hq, hs, -⟩ := @stringFrom_inside _ (fun e _ => EscapeForm e) hu _ _ _ _ _ hb
    refine ⟨q, ?_, hs⟩
    clear hs hb
    induction hq with
    | nil => exact .nil
    | copied hx _ ih => exact .copied hx ih
    | escaped he _ ih => exact .escaped he ih
  · rintro ⟨q, hq, rfl⟩
    have h := passString_octets hq rest
    rwa [List.append_assoc] at h

/-! ## Octets outside of strings -/

/-- Octets of ASCII but for the insides of strings. -/
inductive Loose : Bytes → Prop where
  | nil : Loose []
  | ascii {x : UInt8} {b : Bytes} : x.toNat < 128 → x ≠ 34 → Loose b → Loose (x :: b)
  | string {q b : Bytes} : StringOctets q → Loose b → Loose (34 :: (q ++ 34 :: b))

theorem loose_append {b b' : Bytes} (h : Loose b) (h' : Loose b') : Loose (b ++ b') := by
  induction h with
  | nil => exact h'
  | ascii hx hq _ ih => exact .ascii hx hq ih
  | string hq _ ih =>
    rw [List.cons_append, List.append_assoc, List.cons_append]
    exact .string hq ih

theorem loose_of_ascii {b : Bytes} (h : ∀ x ∈ b, x.toNat < 128 ∧ x ≠ 34) : Loose b := by
  induction b with
  | nil => exact .nil
  | cons x b ih =>
    rw [List.forall_mem_cons] at h
    exact .ascii h.1.1 h.1.2 (ih h.2)

theorem loose_of_blank {w : Bytes} (hw : Blank w) : Loose w := by
  refine loose_of_ascii fun x hx => ?_
  rcases hw x hx with rfl | rfl | rfl | rfl <;> decide

theorem ascii_of_isDigit {b : UInt8} (h : isDigit b = true) : b.toNat < 128 ∧ b ≠ 34 := by
  simp only [isDigit, Bool.and_eq_true, decide_eq_true_eq, UInt8.le_iff_toNat_le,
    UInt8.reduceToNat] at h
  refine ⟨by omega, ?_⟩
  rintro rfl
  exact absurd h.1 (by decide)

/-! ## Scanners that take loose octets -/

/-- What the scanner takes here is loose, if it succeeds. -/
def TakesLoose (sc : Scanner α) (s : Bytes) : Prop :=
  Ensures sc s fun _ rest => ∃ c, s = c ++ rest ∧ Loose c

namespace TakesLoose

variable {sc : Scanner α} {s : Bytes} {b : UInt8}

theorem pure (a : α) (s : Bytes) : TakesLoose (Pure.pure a) s := Ensures.pure ⟨[], rfl, .nil⟩

theorem throw (e : Error) (s : Bytes) : TakesLoose (throw e : Scanner α) s := Ensures.throw e

theorem behind {c s' : Bytes} (hc : Loose c) (hs : s = c ++ s') (h : TakesLoose sc s') :
    Ensures sc s' fun _ rest => ∃ c, s = c ++ rest ∧ Loose c := by
  intro a rest ha
  obtain ⟨c', rfl, hc'⟩ := h a rest ha
  exact ⟨c ++ c', by rw [hs, List.append_assoc], loose_append hc hc'⟩

theorem bind {f : α → Scanner β} (h : TakesLoose sc s) (hf : ∀ a s', TakesLoose (f a) s') :
    TakesLoose (sc >>= f) s := by
  refine Ensures.bind fun a s' ha => ?_
  obtain ⟨c, hs, hc⟩ := h a s' ha
  exact behind hc hs (hf a s')

theorem peek {f : Option UInt8 → Scanner α} (h : ∀ s, TakesLoose (f s.head?) s) (s : Bytes) :
    TakesLoose (peekPastBlanks >>= f) s := by
  refine Ensures.peek fun w s' hw hs => ?_
  exact behind (loose_of_blank hw) hs (h s')

theorem take (hb : b.toNat < 128 ∧ b ≠ 34) (h : TakesLoose sc s) :
    TakesLoose (Scanner.take >>= fun _ => sc) (b :: s) :=
  Ensures.bind (.take (behind (.ascii hb.1 hb.2 .nil) rfl h))

theorem takeLast (hb : b.toNat < 128 ∧ b ≠ 34) : TakesLoose Scanner.take (b :: s) :=
  Ensures.take ⟨[b], rfl, .ascii hb.1 hb.2 .nil⟩

theorem string {f : Unit → Scanner α} (h : ∀ s, TakesLoose (f ()) s) :
    TakesLoose (Scanner.take >>= fun _ => passString >>= f) (34 :: s) := by
  refine Ensures.bind (.take (.bind fun _ s' hp => ?_))
  obtain ⟨q, hq, rfl⟩ := passString_eq_ok_iff.mp hp
  refine behind (.string hq .nil) ?_ (h s')
  simp only [List.cons_append, List.append_assoc, List.nil_append]

end TakesLoose

/-! ## Words and numbers -/

theorem word_loose {cs : List Char} (hcs : ∀ c ∈ cs, c.toNat < 128 ∧ c.toNat ≠ 34) (s : Bytes) :
    TakesLoose (word cs) s := by
  induction cs generalizing s with
  | nil => exact .pure () s
  | cons c cs ih =>
    rw [List.forall_mem_cons] at hcs
    cases s with
    | nil => nofun
    | cons b s =>
      intro a rest h
      rw [word, bind_ok (get_ok _)] at h
      change (if b.toNat = c.toNat then word cs else _ : Scanner Unit) s = _ at h
      split at h
      · rename_i hb
        obtain ⟨c', rfl, hc'⟩ := ih hcs.2 s a rest h
        refine ⟨b :: c', rfl, .ascii (by omega) ?_ hc'⟩
        rintro rfl
        exact hcs.1.2 hb.symm
      · cases h

theorem takeWhile_isDigit_loose (s : Bytes) : Loose (s.takeWhile isDigit) :=
  loose_of_ascii fun x hx =>
    ascii_of_isDigit (List.all_eq_true.mp List.all_takeWhile x hx)

theorem TakesLoose.of_eq {sc sc' : Scanner α} {s : Bytes} (h : sc s = sc' s)
    (h' : TakesLoose sc' s) : TakesLoose sc s := by
  intro a rest hs
  rw [h] at hs
  exact h' a rest hs

theorem TakesLoose.get {f : Bytes → Scanner α} {s : Bytes} (h : TakesLoose (f s) s) :
    TakesLoose (MonadState.get >>= f) s := .of_eq (bind_ok (get_ok s)) h

theorem TakesLoose.digits {sc : Scanner α} (behind : Scanner α) {s : Bytes}
    (h : sc s = behind (s.dropWhile isDigit)) (h' : ∀ s, TakesLoose behind s) :
    TakesLoose sc s := by
  intro a rest hs
  rw [h] at hs
  obtain ⟨c, hc, hl⟩ := h' _ a rest hs
  refine ⟨s.takeWhile isDigit ++ c, ?_, loose_append (takeWhile_isDigit_loose s) hl⟩
  rw [List.append_assoc, ← hc, List.takeWhile_append_dropWhile]

theorem dropWhile_cons_digit {b : UInt8} (hb : isDigit b = true) (s : Bytes) :
    (b :: s).dropWhile isDigit = s.dropWhile isDigit := by
  rw [List.dropWhile_cons, if_pos hb]

theorem passExponentDigits_loose (s : Bytes) : TakesLoose passExponentDigits s := by
  refine .get ?_
  cases s with
  | nil => exact .throw _ _
  | cons b s =>
    dsimp only
    split
    · rename_i hb
      refine .digits (Pure.pure ()) ?_ (.pure ())
      rw [dropWhile_cons_digit hb]
      rfl
    · exact .throw _ _

theorem passExponent_loose {b : UInt8} (hb : b.toNat < 128 ∧ b ≠ 34) (s : Bytes) :
    TakesLoose passExponent (b :: s) := by
  refine .take hb (.get (.get ?_))
  split
  · rename_i hs
    -- A sign is taken before the digits.
    simp only [Bool.or_eq_true, beq_iff_eq, List.head?_eq_some_iff] at hs
    rcases hs with ⟨s, rfl⟩ | ⟨s, rfl⟩
    · exact .take (by decide) (passExponentDigits_loose s)
    · exact .take (by decide) (passExponentDigits_loose s)
  · exact passExponentDigits_loose s

theorem passExponent?_loose (s : Bytes) : TakesLoose passExponent? s := by
  refine .get ?_
  split
  · rename_i hs
    obtain ⟨s, rfl⟩ := List.head?_eq_some_iff.mp hs
    exact passExponent_loose (by decide) s
  · rename_i hs
    obtain ⟨s, rfl⟩ := List.head?_eq_some_iff.mp hs
    exact passExponent_loose (by decide) s
  · exact .pure () s

theorem passFraction_loose (s : Bytes) : TakesLoose passFraction s := by
  refine .get ?_
  split
  · rename_i hs
    obtain ⟨s, rfl⟩ := List.head?_eq_some_iff.mp (beq_iff_eq.mp hs)
    refine .take (by decide) (.get ?_)
    split
    · exact .throw _ s
    · exact .digits passExponent? rfl passExponent?_loose
  · exact passExponent?_loose s

theorem passNumber_loose (s : Bytes) : TakesLoose passNumber s := by
  refine .get ?_
  cases s with
  | nil => exact .throw _ _
  | cons b s =>
    dsimp only
    split
    · rename_i hb
      split
      · exact .throw _ _
      · refine .digits passFraction ?_ passFraction_loose
        rw [dropWhile_cons_digit hb]
        rfl
    · exact .throw _ _

/-! ## Values -/

theorem passKey_loose (s : Bytes) : TakesLoose passKey s := by
  refine .peek (fun s => ?_) s
  split
  · rename_i hs
    obtain ⟨s, rfl⟩ := List.head?_eq_some_iff.mp hs
    refine .string fun s => .peek (fun s => ?_) s
    split
    · rename_i hs
      obtain ⟨s, rfl⟩ := List.head?_eq_some_iff.mp hs
      exact .takeLast (by decide)
    · exact .throw _ s
    · exact .throw _ s
  · exact .throw _ s
  · exact .throw _ s

theorem passOpening_loose (s : Bytes) : TakesLoose passOpening s := by
  refine .peek (fun s => ?_) s
  cases s with
  | nil => nofun
  | cons b s =>
    rw [List.head?_cons]
    have take {sc : Scanner (Option Frame)} {n : Nat} (hn : n < 128 ∧ n ≠ 34)
        (h : TakesLoose sc s) (hb : b.toNat = n) :
        TakesLoose (Scanner.take >>= fun _ => sc) (b :: s) := by
      refine .take ⟨by omega, ?_⟩ h
      rintro rfl
      exact hn.2 hb.symm
    dsimp only
    split
    · rename_i hb
      exact take (by decide) (.bind (word_loose (by simp) s) fun _ _ => .pure _ _) hb
    · rename_i hb
      exact take (by decide) (.bind (word_loose (by simp) s) fun _ _ => .pure _ _) hb
    · rename_i hb
      exact take (by decide) (.bind (word_loose (by simp) s) fun _ _ => .pure _ _) hb
    · rename_i hb
      exact take (by decide) (.bind (passNumber_loose s) fun _ _ => .pure _ _) hb
    · rename_i hb
      obtain rfl : b = 34 := UInt8.toNat_inj.mp hb
      exact .string fun s => .pure _ s
    · rename_i hb
      exact take (by decide) (.pure _ s) hb
    · rename_i hb
      exact take (by decide) (.pure _ s) hb
    · split
      · exact .bind (passNumber_loose _) fun _ _ => .pure _ _
      · exact .throw _ _

theorem passClosings_loose (frames : List Frame) (after : Bool) (s : Bytes) :
    TakesLoose (passClosings frames after) s := by
  induction frames generalizing after s with
  | nil => exact .pure _ s
  | cons f fs ih =>
    refine .peek (fun s => ?_) s
    cases s with
    | nil => nofun
    | cons b s =>
      rw [List.head?_cons]
      dsimp only
      split
      · rename_i hb
        obtain rfl : b = 44 := of_decide_eq_true (Bool.and_eq_true _ _ ▸ hb).1
        exact .take (by decide) (.pure _ s)
      · split
        · rename_i hb
          subst hb
          exact .take (by cases f <;> decide) (ih true s)
        · split
          · exact .throw _ _
          · exact .pure _ _

theorem passInside_loose {fuel : Nat} (h : ∀ frames s, TakesLoose (passRest fuel frames) s)
    (frames : List Frame) (s : Bytes) : TakesLoose (passInside fuel frames) s := by
  rcases frames with _ | ⟨_ | _, fs⟩
  · exact .pure _ s
  · exact h _ s
  · exact .bind (passKey_loose s) fun _ s => h _ s

/-- What is taken for the rest of a value is loose: each turn of the loop takes an opening or a
scalar, and the closings, the comma and the key behind it. -/
theorem passRest_loose (fuel : Nat) (frames : List Frame) (s : Bytes) :
    TakesLoose (passRest fuel frames) s := by
  induction fuel generalizing frames s with
  | zero => exact .pure () s
  | succ fuel ih =>
    rw [passRest_succ]
    refine .bind (passOpening_loose s) fun o s => ?_
    cases o with
    | none => exact .bind (passClosings_loose _ _ _) fun _ s => passInside_loose ih _ s
    | some f => exact .bind (passClosings_loose _ _ _) fun _ s => passInside_loose ih _ s

theorem passValue_loose (s : Bytes) : TakesLoose passValue s := by
  intro a rest h
  rw [passValue, bind_ok (get_ok _)] at h
  exact passRest_loose _ _ _ a rest h

end Strongbox.Json.Scanner

/-! ## What a record is read from -/

namespace Strongbox.Json.Read

open Scanner

theorem string_quotes (s : Bytes) : Ensures string s fun t rest =>
    ∃ w b, Blank w ∧ Quotes t b ∧ s = w ++ (b ++ rest) := by
  refine .peek fun w s' hw hs => ?_
  split
  · exact .throw _
  · rename_i hq
    obtain ⟨s', rfl⟩ := List.head?_eq_some_iff.mp hq
    refine .bind (.take fun t rest h => ?_)
    obtain ⟨b, hb, rfl⟩ := string_eq_ok_iff.mp h
    exact ⟨w, 34 :: (b ++ [34]), hw, .mk hb, by simp [hs]⟩
  · intro t rest h
    obtain ⟨e, he⟩ := refuse_fails (α := String) "a string" s'
    rw [he] at h
    cases h

theorem colon_blanks (s : Bytes) :
    Ensures colon s fun _ rest => ∃ w, Blank w ∧ s = w ++ 58 :: rest := by
  refine .peek fun w s' hw hs => ?_
  split
  · rename_i hc
    obtain ⟨s', rfl⟩ := List.head?_eq_some_iff.mp hc
    exact .take ⟨w, hw, hs⟩
  · exact .throw _
  · exact .throw _

/-- What stands in front of an element or a member: blanks, and a comma behind another one. -/
inductive Lead : (first : Bool) → Bytes → Prop where
  | first {w : Bytes} : Blank w → Lead true w
  | more {w w' : Bytes} : Blank w → Blank w' → Lead false (w ++ 44 :: w')

/-- Where no more elements follow there are blanks and the closing; otherwise the next element
begins behind its lead. -/
theorem nextElement_lead (first : Bool) (closing : UInt8) (unclosed ended : Error) (s : Bytes) :
    Ensures (nextElement first closing unclosed ended) s fun
      | none, rest => ∃ w, Blank w ∧ s = w ++ rest ∧ rest.head? = some closing
      | some x, rest => ∃ l, Lead first l ∧ s = l ++ rest ∧ rest.head? = some x := by
  refine .peek fun w s' hw hs => ?_
  cases s' with
  | nil => exact .throw _
  | cons b s' =>
    rw [List.head?_cons]
    dsimp only
    split
    · rename_i hb
      exact .pure ⟨w, hw, hs, congrArg some hb⟩
    · split
      · rename_i hc
        simp only [Bool.and_eq_true, decide_eq_true_eq, Bool.not_eq_true'] at hc
        obtain ⟨rfl, rfl⟩ := hc
        refine .bind (.take (.peek fun w' s'' hw' hs' => ?_))
        cases s'' with
        | nil => exact .throw _
        | cons x s'' =>
          rw [List.head?_cons]
          dsimp only
          split
          · exact .throw _
          · refine .pure ⟨_, .more hw hw', ?_, rfl⟩
            rw [hs, hs', List.append_assoc]
            rfl
      · split
        · rename_i hf
          subst hf
          exact .pure ⟨w, .first hw, hs, rfl⟩
        · exact .throw _

end Strongbox.Json.Read
