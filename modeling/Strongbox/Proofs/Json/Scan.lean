/-
  Strongbox.Proofs.Json.Scan — strings are scanned, however they are written between quotes.

  A scanner `Takes` some octets when it reads exactly these and leaves whatever follows them. A
  character stands for itself or is escaped; either way the scanner of the inside of a string
  `Yields` the character's octets and goes on behind it, and so over all characters in turn.
  - `string_takes`: a string is scanned as its text, from every spelling.
  - `passString_octets`: a string is passed over whatever octets stand between its quotes, and so
    (`passString_takes`) from every spelling.
  - `spells_written`: what is written for a text is one of its spellings.
-/

import Strongbox.Json.Scan
import Strongbox.Json.Write
import Strongbox.Proofs.Json.Grammar
import Strongbox.Proofs.Text.Octets

namespace Strongbox.Json.Scanner

/-- The scanner reads these octets, whatever follows them. -/
def Takes (sc : Scanner α) (b : Bytes) (a : α) : Prop := ∀ rest, sc (b ++ rest) = .ok (a, rest)

theorem bind_ok {sc : Scanner α} {f : α → Scanner β} {s s' : Bytes} {a : α}
    (h : sc s = .ok (a, s')) : (sc >>= f) s = f a s' := by
  show Except.bind (sc s) _ = _
  rw [h]
  rfl

@[simp] theorem get_ok (s : Bytes) : (get : Scanner Bytes) s = .ok (s, s) := rfl

@[simp] theorem set_ok (s t : Bytes) : (set t : Scanner PUnit) s = .ok ((), t) := rfl

@[simp] theorem take_cons (b : UInt8) (s : Bytes) : take (b :: s) = .ok ((), s) := rfl

/-- What stands behind the blanks is left, whatever it is. -/
theorem peekPastBlanks_ok (s : Bytes) : peekPastBlanks s =
    .ok ((s.dropWhile isBlankOctet).head?, s.dropWhile isBlankOctet) := rfl

theorem peekPastBlanks_cons {b : UInt8} (h : isBlankOctet b = false) (s : Bytes) :
    peekPastBlanks (b :: s) = .ok (some b, b :: s) := by
  rw [peekPastBlanks, List.dropWhile_cons, h]
  rfl

/-! ## Escapes -/

theorem hexDigit?_of_isHexDigit {n : Nat} {b : UInt8} (h : IsHexDigit n b) :
    hexDigit? b = some n := by
  simp only [hexDigit?, isDigit, Bool.and_eq_true, decide_eq_true_eq, UInt8.le_iff_toNat_le,
    UInt8.reduceToNat]
  rcases h with ⟨hn, hb⟩ | ⟨hl, hn, hb | hb⟩
  · rw [if_pos (by omega)]
    exact congrArg some (by omega)
  · rw [if_neg (by omega), if_pos (by omega)]
    exact congrArg some (by omega)
  · rw [if_neg (by omega), if_neg (by omega), if_pos (by omega)]
    exact congrArg some (by omega)

theorem codeUnit_takes {n : Nat} {b : Bytes} (h : SpellsUnit n b) : Takes codeUnit b n := by
  intro rest
  obtain ⟨ha, hb, hc, hd⟩ := h
  rw [codeUnit, bind_ok (get_ok _)]
  simp only [List.cons_append, List.nil_append, bind_ok (set_ok _ _), hexDigit?_of_isHexDigit ha,
    hexDigit?_of_isHexDigit hb, hexDigit?_of_isHexDigit hc, hexDigit?_of_isHexDigit hd]
  rfl

theorem continuePair_cons (b : UInt8) (s : Bytes) : continuePair b (b :: s) = .ok ((), s) := by
  rw [continuePair, bind_ok (get_ok _)]
  show (if b = b then _ else _ : Scanner Unit) s = _
  rw [if_pos rfl]
  rfl

/-- A character is no half of a surrogate pair. -/
theorem not_surrogate (c : Char) : c.toNat < 0xD800 ∨ 0xDFFF < c.toNat ∧ c.toNat < 0x110000 :=
  c.valid

theorem escapedCodePoint_unit {c : Char} {b : Bytes} (h : SpellsUnit c.toNat b) :
    Takes escapedCodePoint b c := by
  intro rest
  have hl : ¬ (0xDC00 ≤ c.toNat ∧ c.toNat ≤ 0xDFFF) := by
    have := not_surrogate c
    omega
  have hu : c.toNat < 0xD800 ∨ 0xDBFF < c.toNat := by
    have := not_surrogate c
    omega
  rw [escapedCodePoint, bind_ok (codeUnit_takes h rest)]
  simp only [Bool.and_eq_true, Bool.or_eq_true, decide_eq_true_eq, if_neg hl, if_pos hu,
    Char.ofNat_toNat]
  rfl

theorem escapedCodePoint_pair {c : Char} {b b' : Bytes} (hc : 0x10000 ≤ c.toNat)
    (h : SpellsUnit (0xD800 + (c.toNat - 0x10000) / 0x400) b)
    (h' : SpellsUnit (0xDC00 + (c.toNat - 0x10000) % 0x400) b') :
    Takes escapedCodePoint (b ++ 92 :: 117 :: b') c := by
  intro rest
  obtain ⟨x, hx⟩ : ∃ x, c.toNat = 0x10000 + x := Nat.exists_eq_add_of_le hc
  have hlt : x < 0x100000 := by
    have := not_surrogate c
    omega
  rw [hx, Nat.add_sub_cancel_left] at h h'
  have hl : ¬ (0xDC00 ≤ 0xD800 + x / 0x400 ∧ 0xD800 + x / 0x400 ≤ 0xDFFF) := by omega
  have hu : ¬ (0xD800 + x / 0x400 < 0xD800 ∨ 0xDBFF < 0xD800 + x / 0x400) := by omega
  have hl' : ¬ (0xDC00 + x % 0x400 < 0xDC00 ∨ 0xDFFF < 0xDC00 + x % 0x400) := by omega
  have hn : 0x10000 + (0xD800 + x / 0x400 - 0xD800) * 0x400 + (0xDC00 + x % 0x400 - 0xDC00) =
      c.toNat := by omega
  rw [List.append_assoc, List.cons_append, List.cons_append, escapedCodePoint,
    bind_ok (codeUnit_takes h _)]
  simp only [Bool.and_eq_true, Bool.or_eq_true, decide_eq_true_eq, if_neg hl, if_neg hu]
  rw [bind_ok (continuePair_cons 92 _), bind_ok (continuePair_cons 117 _),
    bind_ok (codeUnit_takes h' rest), if_neg hl', hn, Char.ofNat_toNat]
  rfl

theorem escape_takes {c : Char} {e : Bytes} (h : Escapes c e) :
    Takes escape e (String.utf8EncodeChar c) := by
  have hunit {b : Bytes} (h : Takes escapedCodePoint b c) :
      Takes escape (117 :: b) (String.utf8EncodeChar c) := by
    intro rest
    rw [List.cons_append, escape, bind_ok (get_ok _)]
    show (escapedCodePoint >>= fun c => pure (Bytes.ofString (String.singleton c)) : Scanner Bytes)
      (b ++ rest) = _
    rw [bind_ok (h rest), Bytes.ofString_singleton]
    rfl
  cases h with
  | @short b _ h =>
    have hs : ∀ p ∈ shortEscapes, p.1 ≠ 117 ∧ ∃ x, shortEscape? p.1 = some x ∧
        String.utf8EncodeChar p.2 = [x] := by decide
    obtain ⟨hb, x, hx, hc⟩ := hs _ h
    intro rest
    rw [List.singleton_append, escape, bind_ok (get_ok _)]
    show (if b = 117 then _ else _ : Scanner Bytes) rest = _
    rw [if_neg hb, hx, hc]
    rfl
  | unit h => exact hunit (escapedCodePoint_unit h)
  | pair hc h h' => exact hunit (escapedCodePoint_pair hc h h')

/-! ## The inside of a string -/

/-- An octet of a string that stands for itself: neither a quote nor a backslash nor a control
character. -/
def IsCopied (b : UInt8) : Prop := b ≠ 34 ∧ b ≠ 92 ∧ ¬ b < 32

/-- The octets of a character that needs no escape stand for themselves. -/
theorem isCopied_of_mem_utf8EncodeChar {c : Char} (h34 : c.toNat ≠ 34) (h92 : c.toNat ≠ 92)
    (h32 : ¬ c.toNat < 32) {b : UInt8} (hb : b ∈ String.utf8EncodeChar c) : IsCopied b := by
  unfold IsCopied
  rw [Ne, Ne, ← UInt8.toNat_inj, ← UInt8.toNat_inj, UInt8.lt_iff_toNat_lt]
  by_cases ha : c.toNat < 128
  · rw [Bytes.utf8EncodeChar_of_ascii ha, List.mem_singleton] at hb
    have hn : b.toNat = c.toNat := by
      rw [hb, UInt8.toNat_ofNat_of_lt' (Nat.lt_trans ha (by decide))]
    rw [hn]
    exact ⟨h34, h92, h32⟩
  · have hn := Bytes.le_of_mem_utf8EncodeChar (by omega) hb
    refine ⟨?_, ?_, ?_⟩
    · show ¬ b.toNat = 34
      omega
    · show ¬ b.toNat = 92
      omega
    · show ¬ b.toNat < 32
      omega

/-- The octets are read as `bs`, whatever was read before, and the fuel still covers what follows
them. -/
def Yields (u : Scanner Bytes) (b bs : Bytes) : Prop :=
  ∀ (acc s : Bytes) (fuel : Nat), (b ++ s).length < fuel → ∃ fuel', s.length < fuel' ∧
    stringFrom u fuel acc (b ++ s) = stringFrom u fuel' (bs.reverse ++ acc) s

namespace Yields

variable {u : Scanner Bytes} {b b' bs bs' : Bytes}

theorem nil : Yields u [] [] := fun _ _ fuel h => ⟨fuel, h, rfl⟩

theorem append (h : Yields u b bs) (h' : Yields u b' bs') : Yields u (b ++ b') (bs ++ bs') := by
  intro acc s fuel hl
  rw [List.append_assoc] at hl ⊢
  obtain ⟨k, hk, hs⟩ := h acc (b' ++ s) fuel hl
  obtain ⟨k', hk', hs'⟩ := h' (bs.reverse ++ acc) s k hk
  refine ⟨k', hk', ?_⟩
  rw [hs, hs', List.reverse_append, List.append_assoc]

theorem copied {x : UInt8} (h : IsCopied x) : Yields u [x] [x] := by
  intro acc s fuel hl
  obtain ⟨k, rfl⟩ := Nat.exists_eq_add_of_le' (Nat.succ_le_of_lt (Nat.zero_lt_of_lt hl))
  refine ⟨k, Nat.lt_of_succ_lt_succ hl, ?_⟩
  rw [List.singleton_append, stringFrom, bind_ok (get_ok _)]
  show (if x = 34 then _ else if x = 92 then _ else if x < 32 then _ else _ : Scanner Bytes) s = _
  rw [if_neg h.1, if_neg h.2.1, if_neg h.2.2]
  rfl

theorem plain (h : ∀ x ∈ b, IsCopied x) : Yields u b b := by
  induction b with
  | nil => exact nil
  | cons x b ih =>
    exact (copied (h x List.mem_cons_self)).append (ih fun y hy => h y (List.mem_cons_of_mem _ hy))

theorem escaped {e : Bytes} (h : Takes u e bs) : Yields u (92 :: e) bs := by
  intro acc s fuel hl
  obtain ⟨k, rfl⟩ := Nat.exists_eq_add_of_le' (Nat.succ_le_of_lt (Nat.zero_lt_of_lt hl))
  rw [List.cons_append, List.length_cons, List.length_append] at hl
  refine ⟨k, by omega, ?_⟩
  rw [List.cons_append, stringFrom, bind_ok (get_ok _)]
  show (u >>= fun bs => stringFrom u k (bs.reverse ++ acc)) (e ++ s) = _
  rw [bind_ok (h s)]

theorem quoted (h : Yields u b bs) (s : Bytes) :
    stringFrom u ((b ++ 34 :: s).length + 1) [] (b ++ 34 :: s) = .ok (bs, s) := by
  obtain ⟨k, hk, hs⟩ := h [] (34 :: s) _ (Nat.lt_succ_self _)
  obtain ⟨k, rfl⟩ := Nat.exists_eq_add_of_le' (Nat.succ_le_of_lt (Nat.zero_lt_of_lt hk))
  rw [hs, stringFrom, bind_ok (get_ok _)]
  show Except.ok ((bs.reverse ++ []).reverse, s) = _
  rw [List.append_nil, List.reverse_reverse]

end Yields

/-- However some characters are spelled, they are read as their octets. -/
theorem yields_of_spells {cs : List Char} {b : Bytes} (h : Spells cs b) :
    Yields escape b (cs.flatMap String.utf8EncodeChar) := by
  induction h with
  | nil => exact .nil
  | plain h34 h92 h32 _ ih =>
    rw [List.flatMap_cons]
    exact (Yields.plain fun x hx => isCopied_of_mem_utf8EncodeChar h34 h92 h32 hx).append ih
  | escaped he _ ih =>
    rw [List.flatMap_cons]
    exact (Yields.escaped (escape_takes he)).append ih

theorem string_takes {s : String} {b : Bytes} (h : Spells s.toList b) :
    Takes string (b ++ [34]) s := by
  intro rest
  rw [List.append_assoc, List.singleton_append, string, bind_ok (get_ok _),
    bind_ok ((yields_of_spells h).quoted rest), ← Bytes.ofString_eq, Bytes.toString?_ofString]
  rfl

/-! ## Strings that are passed over -/

/-- What stands behind a backslash in a string that is passed over: the letter of a short escape,
or a code unit, be it half of a surrogate pair. -/
inductive EscapeForm : Bytes → Prop where
  | short {b : UInt8} : (shortEscape? b).isSome = true → EscapeForm [b]
  | unit {n : Nat} {b : Bytes} : SpellsUnit n b → EscapeForm (117 :: b)

/-- What stands between the quotes of a string that is passed over: escapes, and copied octets,
which need not be those of a text. -/
inductive StringOctets : Bytes → Prop where
  | nil : StringOctets []
  | copied {x : UInt8} {q : Bytes} : IsCopied x → StringOctets q → StringOctets (x :: q)
  | escaped {e q : Bytes} : EscapeForm e → StringOctets q → StringOctets (92 :: (e ++ q))

abbrev passedEscape : Scanner Bytes := do
  passEscape
  return []

theorem passEscape_takes {e : Bytes} (h : EscapeForm e) : Takes passEscape e () := by
  intro rest
  cases h with
  | @short b hb =>
    have h117 : ¬ b = 117 := by
      rintro rfl
      exact absurd hb (by decide)
    have hn : ¬ (shortEscape? b).isNone = true := by
      rw [Option.isNone_iff_eq_none]
      exact Option.isSome_iff_ne_none.mp hb
    rw [List.singleton_append, passEscape, bind_ok (get_ok _)]
    show (if b = 117 then _ else if (shortEscape? b).isNone then _ else _ : Scanner Unit) rest = _
    rw [if_neg h117, if_neg hn]
    rfl
  | unit h =>
    rw [List.cons_append, passEscape, bind_ok (get_ok _)]
    show (codeUnit >>= fun _ => pure ()) (_ ++ rest) = _
    rw [bind_ok (codeUnit_takes h rest)]
    rfl

theorem passedEscape_takes {e : Bytes} (h : EscapeForm e) : Takes passedEscape e [] := by
  intro rest
  exact bind_ok (passEscape_takes h rest)

theorem exists_yields_of_stringOctets {q : Bytes} (h : StringOctets q) :
    ∃ bs, Yields passedEscape q bs := by
  induction h with
  | nil => exact ⟨[], .nil⟩
  | copied hx _ ih =>
    obtain ⟨bs, hbs⟩ := ih
    exact ⟨_, (Yields.copied hx).append hbs⟩
  | escaped he _ ih =>
    obtain ⟨bs, hbs⟩ := ih
    exact ⟨_, (Yields.escaped (passedEscape_takes he)).append hbs⟩

/-- Whatever octets a string has, it is passed over. -/
theorem passString_octets {q : Bytes} (h : StringOctets q) : Takes passString (q ++ [34]) () := by
  intro rest
  obtain ⟨bs, hbs⟩ := exists_yields_of_stringOctets h
  rw [List.append_assoc, List.singleton_append, passString, bind_ok (get_ok _)]
  show (stringFrom passedEscape _ [] >>= fun _ => pure ()) (q ++ 34 :: rest) = _
  rw [bind_ok (hbs.quoted rest)]
  rfl

theorem stringOctets_append {q q' : Bytes} (h : StringOctets q) (h' : StringOctets q') :
    StringOctets (q ++ q') := by
  induction h with
  | nil => exact h'
  | copied hx _ ih => exact .copied hx ih
  | escaped he _ ih =>
    rw [List.cons_append, List.append_assoc]
    exact .escaped he ih

theorem stringOctets_of_copied {q : Bytes} (h : ∀ x ∈ q, IsCopied x) : StringOctets q := by
  induction q with
  | nil => exact .nil
  | cons x q ih =>
    rw [List.forall_mem_cons] at h
    exact .copied h.1 (ih h.2)

/-- The two halves of a pair are escapes one after the other. -/
theorem stringOctets_of_escapes {c : Char} {e : Bytes} (h : Escapes c e) :
    StringOctets (92 :: e) := by
  have escape {e : Bytes} (h : EscapeForm e) : StringOctets (92 :: e) := by
    have hs := StringOctets.escaped h .nil
    rwa [List.append_nil] at hs
  cases h with
  | short h =>
    have hs : ∀ p ∈ shortEscapes, (shortEscape? p.1).isSome = true := by decide
    exact escape (.short (hs _ h))
  | unit h => exact escape (.unit h)
  | pair _ h h' => exact stringOctets_append (escape (.unit h)) (escape (.unit h'))

theorem stringOctets_of_spells {cs : List Char} {b : Bytes} (h : Spells cs b) : StringOctets b := by
  induction h with
  | nil => exact .nil
  | plain h34 h92 h32 _ ih =>
    exact stringOctets_append
      (stringOctets_of_copied fun x hx => isCopied_of_mem_utf8EncodeChar h34 h92 h32 hx) ih
  | escaped he _ ih => exact stringOctets_append (stringOctets_of_escapes he) ih

theorem passString_takes {cs : List Char} {b : Bytes} (h : Spells cs b) :
    Takes passString (b ++ [34]) () := passString_octets (stringOctets_of_spells h)

/-! ## The spelling of a written text -/

def writtenChar (c : Char) : Bytes := (escapedChar c).flatMap String.utf8EncodeChar

def written (s : String) : Bytes := s.toList.flatMap writtenChar

theorem ofString_quotedString (s : String) :
    Bytes.ofString (quotedString s) = 34 :: (written s ++ [34]) := by
  rw [quotedString, Bytes.ofString_ofList, List.cons_append, List.flatMap_cons,
    List.flatMap_append, written]
  simp only [List.flatMap_assoc]
  rfl

def digitOctet (n : Nat) : UInt8 := UInt8.ofNat (Nat.digitChar n).toNat

theorem isHexDigit_digitOctet : ∀ n < 16, IsHexDigit n (digitOctet n) := by decide

theorem spellsUnit_control {n : Nat} (h : n < 32) :
    SpellsUnit n [48, 48, digitOctet (n / 16), digitOctet (n % 16)] := by
  have hn : ((0 * 16 + 0) * 16 + n / 16) * 16 + n % 16 = n := by omega
  have hs := SpellsUnit.mk (i := 0) (j := 0) (a := 48) (b := 48) (by decide) (by decide)
    (isHexDigit_digitOctet (n / 16) (by omega)) (isHexDigit_digitOctet (n % 16) (by omega))
  rwa [hn] at hs

/-- What a written character can be: the octets of a character that needs no escape, or a
backslash and an escape. -/
theorem writtenChar_cases (c : Char) :
    (writtenChar c = String.utf8EncodeChar c ∧ c.toNat ≠ 34 ∧ c.toNat ≠ 92 ∧ ¬ c.toNat < 32) ∨
    (∃ e, writtenChar c = 92 :: e ∧ Escapes c e) := by
  have short {b : UInt8} {x : Char} (hc : c.toNat = x.toNat) (h : (b, x) ∈ shortEscapes) :
      Escapes c [b] := by
    rw [Char.toNat_inj.mp hc]
    exact .short h
  unfold writtenChar escapedChar
  split
  · rename_i hc
    refine .inr ⟨[34], ?_, short (x := '\x22') hc (by decide)⟩
    rw [List.flatMap_cons, List.flatMap_cons, Bytes.utf8EncodeChar_of_ascii (c := c) (by omega), hc]
    rfl
  · rename_i hc
    refine .inr ⟨[92], ?_, short (x := '\\') hc (by decide)⟩
    rw [List.flatMap_cons, List.flatMap_cons, Bytes.utf8EncodeChar_of_ascii (c := c) (by omega), hc]
    rfl
  · rename_i hc
    exact .inr ⟨[98], rfl, short (x := '\x08') hc (by decide)⟩
  · rename_i hc
    exact .inr ⟨[116], rfl, short (x := '\t') hc (by decide)⟩
  · rename_i hc
    exact .inr ⟨[110], rfl, short (x := '\n') hc (by decide)⟩
  · rename_i hc
    exact .inr ⟨[102], rfl, short (x := '\x0c') hc (by decide)⟩
  · rename_i hc
    exact .inr ⟨[114], rfl, short (x := '\r') hc (by decide)⟩
  · split
    · rename_i hc
      refine .inr ⟨_, ?_, .unit (spellsUnit_control hc)⟩
      have hd : ∀ n < 16, String.utf8EncodeChar (Nat.digitChar n) = [digitOctet n] := by decide
      simp only [List.flatMap_cons, List.flatMap_nil, hd _ (by omega : c.toNat / 16 < 16),
        hd _ (by omega : c.toNat % 16 < 16)]
      rfl
    · rename_i h34 h92 _ _ _ _ _ hc
      rw [List.flatMap_cons, List.flatMap_nil, List.append_nil]
      exact .inl ⟨rfl, h34, h92, hc⟩

/-- What is written for a text is one of its spellings. -/
theorem spells_written (s : String) : Spells s.toList (written s) := by
  rw [written]
  induction s.toList with
  | nil => exact .nil
  | cons c cs ih =>
    rw [List.flatMap_cons]
    rcases writtenChar_cases c with ⟨hw, h34, h92, h32⟩ | ⟨e, hw, he⟩
    · rw [hw]
      exact .plain h34 h92 h32 ih
    · rw [hw, List.cons_append]
      exact .escaped he ih

end Strongbox.Json.Scanner
