/-
  Strongbox.Proofs.Json.Pass — a value is passed over to its end, however it is written.

  The scanner keeps the lists and objects that are open as frames and does not recur on the depth
  of a value. Behind a value it goes on with closings and what they leave open (`passAfter`), so
  what is proved of a value is that the scanner comes from its first octet to the place behind it
  inside the same frames, with fuel for the rest (`Passes`). The induction is on the derivation of
  the text.
  - `passes_renders`: one case for each kind of value.
  - `passValue_renders`: a value is passed over, with the blanks in front of it.
-/

import Strongbox.Proofs.Json.Number

namespace Strongbox.Json.Scanner

/-! ## Blanks and words -/

theorem blank_of_all {w : Bytes} (hw : w.all isBlankOctet = true) : Blank w := by
  intro b hb
  have h := List.all_eq_true.mp hw b hb
  simpa [isBlankOctet, or_assoc] using h

theorem isBlankOctet_of_blank {w : Bytes} (hw : Blank w) : ∀ b ∈ w, isBlankOctet b = true := by
  intro b hb
  rcases hw b hb with rfl | rfl | rfl | rfl <;> rfl

theorem peekPastBlanks_blank {w : Bytes} (hw : Blank w) (s : Bytes) :
    peekPastBlanks (w ++ s) = peekPastBlanks s := by
  rw [peekPastBlanks, peekPastBlanks, List.dropWhile_append_of_pos (isBlankOctet_of_blank hw)]

theorem bind_blank {f : Option UInt8 → Scanner α} {w : Bytes} (hw : Blank w) (s : Bytes) :
    (peekPastBlanks >>= f) (w ++ s) = (peekPastBlanks >>= f) s := by
  have hs := peekPastBlanks_ok s
  rw [bind_ok hs, bind_ok ((peekPastBlanks_blank hw s).trans hs)]

theorem word_takes (cs : List Char) (h : ∀ c ∈ cs, c.toNat < 256) :
    Takes (word cs) (cs.map fun c => UInt8.ofNat c.toNat) () := by
  intro rest
  induction cs with
  | nil => rfl
  | cons c cs ih =>
    have hc : (UInt8.ofNat c.toNat).toNat = c.toNat :=
      UInt8.toNat_ofNat_of_lt' (h c List.mem_cons_self)
    rw [List.map_cons, List.cons_append, word, bind_ok (get_ok _)]
    show (if (UInt8.ofNat c.toNat).toNat = c.toNat then word cs else _ : Scanner Unit) _ = _
    rw [if_pos hc, ih fun d hd => h d (List.mem_cons_of_mem _ hd)]

/-! ## What follows a value -/

/-- The octets that can stand behind a value and its blanks inside a list or an object. -/
def IsSeparator (b : UInt8) : Prop := b = 44 ∨ b = 93 ∨ b = 125

theorem ends_of_blank {w : Bytes} (hw : Blank w) : Ends w := by
  intro b hb
  rcases hw b (List.mem_of_mem_head? hb) with rfl | rfl | rfl | rfl <;> decide

theorem ends_of_separator {w : Bytes} (hw : Blank w) {c : UInt8} (hc : IsSeparator c)
    (s : Bytes) : Ends (w ++ c :: s) := by
  intro b hb
  cases w with
  | nil =>
    cases hb
    rcases hc with rfl | rfl | rfl <;> decide
  | cons x w =>
    obtain rfl : x = b := Option.some.inj hb
    rcases hw x List.mem_cons_self with rfl | rfl | rfl | rfl <;> decide

/-- The first octet behind the blanks is another one than `c`. -/
def Begins (c : UInt8) (b : Bytes) : Prop :=
  ∃ w x b', Blank w ∧ isBlankOctet x = false ∧ x ≠ c ∧ b = w ++ x :: b'

theorem Begins.append {c : UInt8} {b : Bytes} (h : Begins c b) (s : Bytes) : Begins c (b ++ s) := by
  obtain ⟨w, x, b', hw, hx, hc, rfl⟩ := h
  exact ⟨w, x, b' ++ s, hw, hx, hc, by rw [List.append_assoc, List.cons_append]⟩

theorem Begins.blank {c : UInt8} {w b : Bytes} (hw : Blank w) (h : Begins c b) : Begins c (w ++ b) := by
  obtain ⟨w', x, b', hw', hx, hc, rfl⟩ := h
  refine ⟨w ++ w', x, b', ?_, hx, hc, (List.append_assoc ..).symm⟩
  intro y hy
  exact (List.mem_append.mp hy).elim (hw y) (hw' y)

theorem Begins.cons {c x : UInt8} {b : Bytes} (hx : isBlankOctet x = false) (hc : x ≠ c) :
    Begins c (x :: b) := ⟨[], x, b, nofun, hx, hc, rfl⟩

/-! ## Tokens -/

theorem begins_number (n : Numeral) {c : UInt8} (hc : isDigit c = false) (hs : c ≠ 45) :
    Begins c n.octets := by
  have hd : isBlankOctet (decimalOctet n.whole.first) = false ∧ decimalOctet n.whole.first ≠ c := by
    constructor
    · exact (by decide : ∀ d : Fin 10, isBlankOctet (decimalOctet d) = false) _
    · rintro rfl
      rw [isDigit_decimalOctet] at hc
      cases hc
  rw [Numeral.octets]
  split
  · exact .cons rfl hs.symm
  · exact .cons hd.1 hd.2

theorem begins_quotes {c : UInt8} (hc : c ≠ 34) {s : String} {b : Bytes} (h : Quotes s b) :
    Begins c b := by
  obtain ⟨h⟩ := h
  exact .cons rfl hc.symm

theorem passKey_takes {k : String} {w b w' : Bytes} (hw : Blank w) (hb : Quotes k b)
    (hw' : Blank w') (s : Bytes) : passKey (w ++ (b ++ (w' ++ 58 :: s))) = .ok ((), s) := by
  obtain ⟨hb⟩ := hb
  rw [passKey, bind_blank hw, List.cons_append, bind_ok (peekPastBlanks_cons (by decide) _)]
  show (take >>= fun _ => passString >>= fun _ => peekPastBlanks >>= _) _ = _
  rw [bind_ok (take_cons _ _), bind_ok (passString_takes hb _), bind_blank hw',
    bind_ok (peekPastBlanks_cons (by decide) _)]
  exact take_cons _ _

theorem passOpening_number (n : Numeral) {s : Bytes} (h : Ends s) :
    passOpening (n.octets ++ s) = .ok (none, s) := by
  have hn := passNumber_unsigned n h
  rw [Numeral.octets]
  cases n.negative with
  | true =>
    rw [if_pos rfl, List.cons_append, passOpening, bind_ok (peekPastBlanks_cons (by decide) _)]
    show (take >>= fun _ => passNumber >>= fun _ => pure none) _ = _
    rw [bind_ok (take_cons _ _), bind_ok hn]
    rfl
  | false =>
    have hd : ∀ d : Fin 10, isBlankOctet (decimalOctet d) = false ∧
        48 ≤ (decimalOctet d).toNat ∧ (decimalOctet d).toNat ≤ 57 := by decide
    obtain ⟨hb, hl, hu⟩ := hd n.whole.first
    have hdigit := isDigit_decimalOctet n.whole.first
    rw [if_neg Bool.false_ne_true]
    rw [Numeral.unsigned, Digits.octets, List.cons_append, List.cons_append] at hn ⊢
    rw [passOpening, bind_ok (peekPastBlanks_cons hb _)]
    refine (congrFun (?_ : _ = (passNumber >>= fun _ => pure none : Scanner (Option Frame))) _).trans
      (bind_ok hn)
    -- The digit is none of the other octets that a value can begin with.
    split
    · rename_i h
      cases h
    · rename_i h
      cases h
      split <;> first | omega | rw [if_pos hdigit]

/-- A word is passed over when its first octet is one that the word is told by. -/
theorem passOpening_word {b : UInt8} (cs : List Char) (hcs : ∀ c ∈ cs, c.toNat < 256)
    (hb : ∀ s, passOpening (b :: s) = (word cs >>= fun _ => pure none : Scanner (Option Frame)) s)
    (s : Bytes) : passOpening (b :: (cs.map fun c => UInt8.ofNat c.toNat) ++ s) = .ok (none, s) := by
  rw [List.cons_append, hb, bind_ok (word_takes cs hcs s)]
  rfl

theorem passOpening_null (s : Bytes) : passOpening ([110, 117, 108, 108] ++ s) = .ok (none, s) :=
  passOpening_word "ull".toList (by simp) (fun _ => rfl) s

theorem passOpening_true (s : Bytes) : passOpening ([116, 114, 117, 101] ++ s) = .ok (none, s) :=
  passOpening_word "rue".toList (by simp) (fun _ => rfl) s

theorem passOpening_false (s : Bytes) :
    passOpening ([102, 97, 108, 115, 101] ++ s) = .ok (none, s) :=
  passOpening_word "alse".toList (by simp) (fun _ => rfl) s

theorem passOpening_octets {q : Bytes} (h : StringOctets q) (s : Bytes) :
    passOpening (34 :: (q ++ [34]) ++ s) = .ok (none, s) := by
  rw [List.cons_append, passOpening, bind_ok (peekPastBlanks_cons (by decide) _)]
  show (take >>= fun _ => passString >>= fun _ => pure none) _ = _
  rw [bind_ok (take_cons _ _), bind_ok (passString_octets h s)]
  rfl

theorem passOpening_string {t : String} {b : Bytes} (h : Quotes t b) (s : Bytes) :
    passOpening (b ++ s) = .ok (none, s) := by
  obtain ⟨h⟩ := h
  exact passOpening_octets (stringOctets_of_spells h) s

theorem passOpening_list (s : Bytes) : passOpening (91 :: s) = .ok (some .list, s) := by
  rw [passOpening, bind_ok (peekPastBlanks_cons (by decide) _)]
  exact bind_ok (take_cons _ _)

theorem passOpening_object (s : Bytes) : passOpening (123 :: s) = .ok (some .object, s) := by
  rw [passOpening, bind_ok (peekPastBlanks_cons (by decide) _)]
  exact bind_ok (take_cons _ _)

/-! ## Closings -/

variable {f : Frame} {fs : List Frame}

theorem passClosings_comma (s : Bytes) :
    passClosings (f :: fs) true (44 :: s) = .ok (f :: fs, s) := by
  rw [passClosings, bind_ok (peekPastBlanks_cons (by decide) _)]
  exact bind_ok (take_cons _ _)

theorem passClosings_closing (after : Bool) (s : Bytes) :
    passClosings (f :: fs) after (f.closing :: s) = passClosings fs true s := by
  have hf : isBlankOctet f.closing = false ∧ ¬ (f.closing = 44 && after) = true := by
    cases f <;> exact ⟨rfl, Bool.false_ne_true⟩
  rw [passClosings, bind_ok (peekPastBlanks_cons hf.1 _)]
  show (if (f.closing = 44 && after) = true then _ else if f.closing = f.closing then
    take >>= fun _ => passClosings fs true else _ : Scanner (List Frame)) _ = _
  rw [if_neg hf.2, if_pos rfl, bind_ok (take_cons _ _)]

/-- Behind an opening a value or a member begins. -/
theorem passClosings_opening {b : Bytes} (h : Begins f.closing b) :
    passClosings (f :: fs) false b = .ok (f :: fs, b.dropWhile isBlankOctet) := by
  obtain ⟨w, x, b', hw, hx, hc, rfl⟩ := h
  rw [passClosings, bind_blank hw, List.dropWhile_append_of_pos (isBlankOctet_of_blank hw),
    List.dropWhile_cons, hx, bind_ok (peekPastBlanks_cons hx _)]
  show (if (x = 44 && false) = true then _ else if x = f.closing then _ else
    if false = true then _ else pure (f :: fs) : Scanner (List Frame)) _ = _
  rw [Bool.and_false, if_neg Bool.false_ne_true, if_neg hc, if_neg Bool.false_ne_true]
  rfl

theorem passClosings_blank {w : Bytes} (hw : Blank w) (after : Bool) (s : Bytes) :
    passClosings (f :: fs) after (w ++ s) = passClosings (f :: fs) after s := by
  rw [passClosings, bind_blank hw]

/-! ## Values inside open frames -/

def passInside (fuel : Nat) : List Frame → Scanner Unit
  | [] => return
  | .list :: fs => passRest fuel (.list :: fs)
  | .object :: fs => do
    passKey
    passRest fuel (.object :: fs)

def passAfter (fuel : Nat) (frames : List Frame) : Scanner Unit := do
  passInside fuel (← passClosings frames true)

theorem passRest_succ (fuel : Nat) (frames : List Frame) :
    passRest (fuel + 1) frames = passOpening >>= fun
      | some f => passClosings (f :: frames) false >>= passInside fuel
      | none => passAfter fuel frames := by
  rw [passRest]
  congr 1
  funext o
  cases o with
  | none =>
    simp only [passAfter]
    congr 1
    funext fs
    rcases fs with _ | ⟨_ | _, _⟩ <;> rfl
  | some f =>
    simp only
    congr 1
    funext fs
    rcases fs with _ | ⟨_ | _, _⟩ <;> rfl

theorem passRest_scalar {fuel : Nat} {frames : List Frame} {s s' : Bytes}
    (h : passOpening s = .ok (none, s')) : passRest (fuel + 1) frames s = passAfter fuel frames s' := by
  rw [passRest_succ, bind_ok h]

theorem passRest_blank {w : Bytes} (hw : Blank w) (fuel : Nat) (frames : List Frame) (s : Bytes) :
    passRest (fuel + 1) frames (w ++ s) = passRest (fuel + 1) frames s := by
  have ho : passOpening (w ++ s) = passOpening s := by rw [passOpening, bind_blank hw]
  rw [passRest_succ]
  show Except.bind (passOpening (w ++ s)) _ = Except.bind (passOpening s) _
  rw [ho]

theorem passAfter_blank {w : Bytes} (hw : Blank w) (fuel : Nat) (s : Bytes) :
    passAfter fuel (f :: fs) (w ++ s) = passAfter fuel (f :: fs) s := by
  show Except.bind (passClosings (f :: fs) true (w ++ s)) _ =
    Except.bind (passClosings (f :: fs) true s) _
  rw [passClosings_blank hw]

theorem passAfter_comma (fuel : Nat) (s : Bytes) :
    passAfter fuel (f :: fs) (44 :: s) = passInside fuel (f :: fs) s := by
  rw [passAfter, bind_ok (passClosings_comma s)]

theorem passAfter_closing (fuel : Nat) (s : Bytes) :
    passAfter fuel (f :: fs) (f.closing :: s) = passAfter fuel fs s := by
  show Except.bind (passClosings (f :: fs) true (f.closing :: s)) _ =
    Except.bind (passClosings fs true s) _
  rw [passClosings_closing]

theorem passRest_empty {w : Bytes} (hw : Blank w) {fuel : Nat} {s : Bytes} {b : UInt8}
    (ho : passOpening (b :: (w ++ f.closing :: s)) = .ok (some f, w ++ f.closing :: s)) :
    passRest (fuel + 1) fs (b :: (w ++ f.closing :: s)) = passAfter fuel fs s := by
  rw [passRest_succ, bind_ok ho]
  show Except.bind (passClosings (f :: fs) false (w ++ f.closing :: s)) _ =
    Except.bind (passClosings fs true s) _
  rw [passClosings_blank hw, passClosings_closing]

theorem passRest_opening {fuel : Nat} {s : Bytes} {b : UInt8}
    (ho : passOpening (b :: s) = .ok (some f, s)) (hs : Begins f.closing s) :
    passRest (fuel + 2) fs (b :: s) = passInside (fuel + 1) (f :: fs) s := by
  rw [passRest_succ, bind_ok ho]
  show (passClosings (f :: fs) false >>= passInside (fuel + 1)) s = _
  rw [bind_ok (passClosings_opening hs)]
  obtain ⟨w, x, b', hw, hx, -, rfl⟩ := hs
  rw [List.dropWhile_append_of_pos (isBlankOctet_of_blank hw), List.dropWhile_cons, hx]
  cases f with
  | list => exact (passRest_blank hw fuel (.list :: fs) _).symm
  | object =>
    have hk : passKey (w ++ x :: b') = passKey (x :: b') := by rw [passKey, bind_blank hw]
    show Except.bind (passKey (x :: b')) _ = Except.bind (passKey (w ++ x :: b')) _
    rw [hk]

/-- A value begins with an octet that tells its kind. -/
theorem begins_renders {v : Tree} {b : Bytes} (h : Renders v b) {c : UInt8}
    (hc : c ∉ [45, 91, 102, 110, 116, 123]) (hd : isDigit c = false)
    (hs : ∀ s, v = .string s → c ≠ 34) : Begins c b := by
  have hne {x : UInt8} (hx : x ∈ [45, 91, 102, 110, 116, 123]) : x ≠ c := fun he => hc (he ▸ hx)
  cases h with
  | null => exact .cons rfl (hne (by decide))
  | yes => exact .cons rfl (hne (by decide))
  | no => exact .cons rfl (hne (by decide))
  | number n => exact begins_number n hd (hne (by decide)).symm
  | string h => exact begins_quotes (hs _ rfl) h
  | emptyList => exact .cons rfl (hne (by decide))
  | list => exact .cons rfl (hne (by decide))
  | emptyObject => exact .cons rfl (hne (by decide))
  | object => exact .cons rfl (hne (by decide))

theorem begins_element {v : Tree} {b : Bytes} (h : RendersElement v b) : Begins 93 b := by
  obtain ⟨hw, hb, -⟩ := h
  exact .blank hw ((begins_renders hb (by decide) rfl fun _ _ => by decide).append _)

theorem begins_elements {v : Tree} {vs : List Tree} {b : Bytes} (h : RendersElements v vs b) :
    Begins 93 b := by
  cases h with
  | one h => exact begins_element h
  | more h _ => exact (begins_element h).append _

theorem begins_member {m : String × Tree} {b : Bytes} (h : RendersMember m b) : Begins 125 b := by
  obtain ⟨hw, hb, -, -⟩ := h
  exact .blank hw ((begins_quotes (by decide) hb).append _)

theorem begins_members {m : String × Tree} {ms : List (String × Tree)} {b : Bytes}
    (h : RendersMembers m ms b) : Begins 125 b := by
  cases h with
  | one h => exact begins_member h
  | more h _ => exact (begins_member h).append _

/-- The scanner goes from a place inside the frames to the place behind a value there, with fuel
for what follows. -/
def Passes (sc : Nat → List Frame → Scanner Unit) (b s : Bytes) (frames : List Frame) : Prop :=
  ∀ fuel, (b ++ s).length < fuel → ∃ fuel', s.length < fuel' ∧
    sc fuel frames (b ++ s) = passAfter fuel' frames s

theorem Begins.lt_of_append {c : UInt8} {b s : Bytes} (h : Begins c b) {fuel : Nat}
    (hl : (b ++ s).length < fuel + 1) : s.length < fuel := by
  obtain ⟨w, x, b', -, -, -, rfl⟩ := h
  simp only [List.length_append, List.length_cons] at hl
  omega

theorem passes_scalar {v : Tree} {b s : Bytes} (hb : Renders v b)
    (ho : passOpening (b ++ s) = .ok (none, s)) : Passes passRest b s fs
  | _ + 1, hl =>
    -- No value begins with a comma.
    have hc : Begins 44 b := begins_renders hb (by decide) rfl fun _ _ => by decide
    ⟨_, hc.lt_of_append hl, passRest_scalar ho⟩

theorem passes_empty {x : UInt8} {w s : Bytes} (ho : ∀ s, passOpening (x :: s) = .ok (some f, s))
    (hw : Blank w) : Passes passRest (x :: (w ++ [f.closing])) s fs := by
  intro fuel hl
  obtain ⟨k, rfl⟩ : ∃ k, fuel = k + 1 := ⟨fuel - 1, by omega⟩
  simp only [List.length_append, List.length_cons] at hl
  refine ⟨k, by omega, ?_⟩
  simp only [List.cons_append, List.append_assoc, List.nil_append]
  exact passRest_empty hw (ho _)

theorem passes_opened {x : UInt8} {b s : Bytes} (ho : ∀ s, passOpening (x :: s) = .ok (some f, s))
    (hb : Begins f.closing b) (h : Passes passInside b (f.closing :: s) (f :: fs)) :
    Passes passRest (x :: (b ++ [f.closing])) s fs := by
  intro fuel hl
  simp only [List.length_append, List.length_cons, List.length_nil] at hl
  obtain ⟨k, rfl⟩ := Nat.exists_eq_add_of_le' (show 2 ≤ fuel by omega)
  obtain ⟨k', hk', hs⟩ := h (k + 1) (by
    simp only [List.length_append, List.length_cons]
    omega)
  refine ⟨k', Nat.lt_of_succ_lt hk', ?_⟩
  simp only [List.cons_append, List.append_assoc, List.nil_append]
  rw [passRest_opening (ho _) (hb.append _), hs, passAfter_closing]

theorem passes_blanks {w b w' s : Bytes} (hw : Blank w) (hw' : Blank w')
    (h : Passes passRest b (w' ++ s) (f :: fs)) :
    Passes passRest (w ++ (b ++ w')) s (f :: fs) := by
  intro fuel hl
  obtain ⟨k, rfl⟩ : ∃ k, fuel = k + 1 := ⟨fuel - 1, by omega⟩
  rw [List.append_assoc, List.append_assoc] at hl ⊢
  obtain ⟨k', hk', hs⟩ := h (k + 1) (by
    rw [List.length_append] at hl
    omega)
  refine ⟨k', ?_, ?_⟩
  · rw [List.length_append] at hk'
    omega
  · rw [passRest_blank hw, hs, passAfter_blank hw']

theorem passes_more {sc : Nat → List Frame → Scanner Unit} {b b' s : Bytes}
    (h : Passes sc b (44 :: (b' ++ s)) (f :: fs))
    (h' : Passes passInside b' s (f :: fs)) :
    Passes sc (b ++ 44 :: b') s (f :: fs) := by
  intro fuel hl
  rw [List.append_assoc, List.cons_append] at hl ⊢
  obtain ⟨k, hk, hs⟩ := h fuel hl
  obtain ⟨k', hk', hs'⟩ := h' k (Nat.lt_of_succ_lt hk)
  refine ⟨k', hk', ?_⟩
  rw [hs, passAfter_comma, hs']

theorem passes_key {k : String} {w b w' b' s : Bytes} (hw : Blank w) (hb : Quotes k b)
    (hw' : Blank w') (h : Passes passRest b' s (.object :: fs)) :
    Passes passInside (w ++ (b ++ (w' ++ 58 :: b'))) s (.object :: fs) := by
  intro fuel hl
  simp only [List.append_assoc, List.cons_append] at hl ⊢
  obtain ⟨k', hk', hs⟩ := h fuel (by
    simp only [List.length_append, List.length_cons] at hl
    rw [List.length_append]
    omega)
  refine ⟨k', hk', ?_⟩
  show (passKey >>= fun _ => passRest fuel (.object :: fs)) _ = _
  rw [bind_ok (passKey_takes hw hb hw' _), hs]

mutual

theorem passes_renders : ∀ {v : Tree} {b : Bytes}, Renders v b → ∀ (fs : List Frame) {s : Bytes},
    Ends s → Passes passRest b s fs
  | _, _, .null, _, _, _ => passes_scalar .null (passOpening_null _)
  | _, _, .yes, _, _, _ => passes_scalar .yes (passOpening_true _)
  | _, _, .no, _, _, _ => passes_scalar .no (passOpening_false _)
  | _, _, .number n, _, _, hs => passes_scalar (.number n) (passOpening_number n hs)
  | _, _, .string h, _, _, _ => passes_scalar (.string h) (passOpening_string h _)
  | _, _, .emptyList hw, _, _, _ => passes_empty (f := .list) passOpening_list hw
  | _, _, .list h, fs, _, _ =>
    passes_opened (f := .list) passOpening_list (begins_elements h) (passes_elements h fs)
  | _, _, .emptyObject hw, _, _, _ => passes_empty (f := .object) passOpening_object hw
  | _, _, .object h, fs, _, _ =>
    passes_opened (f := .object) passOpening_object (begins_members h) (passes_members h fs)

theorem passes_element : ∀ {v : Tree} {b : Bytes}, RendersElement v b →
    ∀ (f : Frame) (fs : List Frame) {c : UInt8} (s : Bytes), IsSeparator c →
      Passes passRest b (c :: s) (f :: fs)
  | _, _, .mk hw hb hw', f, fs, _, s, hc =>
    passes_blanks hw hw' (passes_renders hb (f :: fs) (ends_of_separator hw' hc s))

theorem passes_member : ∀ {m : String × Tree} {b : Bytes}, RendersMember m b →
    ∀ (fs : List Frame) {c : UInt8} (s : Bytes), IsSeparator c →
      Passes passInside b (c :: s) (.object :: fs)
  | _, _, .mk hw hk hw' hv, fs, _, s, hc =>
    passes_key hw hk hw' (passes_element hv .object fs s hc)

theorem passes_elements : ∀ {v : Tree} {vs : List Tree} {b : Bytes}, RendersElements v vs b →
    ∀ (fs : List Frame) {s : Bytes}, Passes passInside b (93 :: s) (.list :: fs)
  | _, _, _, .one h, fs, _ => passes_element h .list fs _ (.inr (.inl rfl))
  | _, _, _, .more h h', fs, _ =>
    passes_more (passes_element h .list fs _ (.inl rfl)) (passes_elements h' fs)

theorem passes_members : ∀ {m : String × Tree} {ms : List (String × Tree)} {b : Bytes},
    RendersMembers m ms b → ∀ (fs : List Frame) {s : Bytes},
      Passes passInside b (125 :: s) (.object :: fs)
  | _, _, _, .one h, fs, _ => passes_member h fs _ (.inr (.inr rfl))
  | _, _, _, .more h h', fs, _ =>
    passes_more (passes_member h fs _ (.inl rfl)) (passes_members h' fs)

end

theorem passValue_renders {v : Tree} {w b s : Bytes} (hw : Blank w) (hb : Renders v b)
    (hs : Ends s) : passValue (w ++ (b ++ s)) = .ok ((), s) := by
  have hl : (b ++ s).length < (w ++ (b ++ s)).length + 1 := by
    simp only [List.length_append]
    omega
  obtain ⟨k, -, hp⟩ := passes_renders hb [] hs _ hl
  rw [passValue, bind_ok (get_ok _), passRest_blank hw, hp]
  rfl

theorem passValue_octets {q : Bytes} (h : StringOctets q) (s : Bytes) :
    passValue (34 :: (q ++ [34]) ++ s) = .ok ((), s) := by
  rw [passValue, bind_ok (get_ok _), passRest_scalar (passOpening_octets h s)]
  rfl

end Strongbox.Json.Scanner
