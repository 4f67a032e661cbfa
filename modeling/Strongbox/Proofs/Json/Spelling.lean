/-
  Strongbox.Proofs.Json.Spelling — a string is read from its spellings only.

  Between the quotes stand octets that are copied and escapes that are replaced (`Inside`). The
  octets that a string is read as are looked at together, behind the closing quote. An escape
  stands for a whole character, so the copied octets between two escapes are whole characters as
  well: a text is nowhere parted inside a character.
  - `stringFrom_inside`: what the scanner takes up to the closing quote.
  - `string_eq_ok_iff`: a string is read exactly from what spells it.
-/

import Strongbox.Proofs.Json.Scan
import Strongbox.Proofs.Text.Whole

namespace Strongbox.Json.Scanner

theorem bind_eq_ok {sc : Scanner α} {f : α → Scanner β} {s : Bytes} {p : β × Bytes} :
    (sc >>= f) s = .ok p ↔ ∃ a s', sc s = .ok (a, s') ∧ f a s' = .ok p := by
  constructor
  · intro h
    change Except.bind (sc s) _ = _ at h
    cases hs : sc s with
    | error e =>
      rw [hs] at h
      cases h
    | ok q =>
      rw [hs] at h
      exact ⟨q.1, q.2, rfl, h⟩
  · rintro ⟨a, s', hs, h⟩
    rw [bind_ok hs, h]

theorem bind_error {sc : Scanner α} {f : α → Scanner β} {s : Bytes} {e : Error}
    (h : sc s = .error e) : (sc >>= f) s = .error e := by
  show Except.bind (sc s) _ = _
  rw [h]
  rfl

/-! ## Escapes -/

theorem isHexDigit_of_hexDigit? {b : UInt8} {n : Nat} (h : hexDigit? b = some n) :
    IsHexDigit n b := by
  simp only [hexDigit?, isDigit, Bool.and_eq_true, decide_eq_true_eq, UInt8.le_iff_toNat_le,
    UInt8.reduceToNat] at h
  unfold IsHexDigit
  split at h
  · cases h
    omega
  · split at h
    · cases h
      omega
    · split at h
      · cases h
        omega
      · cases h

theorem codeUnit_spells {s rest : Bytes} {n : Nat} (h : codeUnit s = .ok (n, rest)) :
    ∃ b, SpellsUnit n b ∧ s = b ++ rest := by
  rw [codeUnit, bind_ok (get_ok _)] at h
  rcases s with _ | ⟨a, _ | ⟨b, _ | ⟨c, _ | ⟨d, s⟩⟩⟩⟩
  case cons.cons.cons.cons =>
    change (set s >>= fun _ => _ : Scanner Nat) _ = _ at h
    rw [bind_ok (set_ok _ _)] at h
    cases ha : hexDigit? a <;> cases hb : hexDigit? b <;> cases hc : hexDigit? c <;>
      cases hd : hexDigit? d <;> simp only [ha, hb, hc, hd] at h
    case some.some.some.some =>
      cases h
      exact ⟨[a, b, c, d], .mk (isHexDigit_of_hexDigit? ha) (isHexDigit_of_hexDigit? hb)
        (isHexDigit_of_hexDigit? hc) (isHexDigit_of_hexDigit? hd), rfl⟩
    all_goals cases h
  all_goals cases h

theorem continuePair_eq {octet : UInt8} {s rest : Bytes}
    (h : continuePair octet s = .ok ((), rest)) : s = octet :: rest := by
  rw [continuePair, bind_ok (get_ok _)] at h
  split at h
  · cases h
  · rename_i b s'
    rw [bind_ok (set_ok _ _)] at h
    split at h
    · rename_i hb
      cases h
      rw [hb]
    · cases h

theorem lt_of_spellsUnit {n : Nat} {b : Bytes} (h : SpellsUnit n b) : n < 0x10000 := by
  obtain ⟨hi, hj, hk, hl⟩ := h
  unfold IsHexDigit at hi hj hk hl
  omega

theorem escapedCodePoint_escapes {s rest : Bytes} {c : Char}
    (h : escapedCodePoint s = .ok (c, rest)) : ∃ e, Escapes c (117 :: e) ∧ s = e ++ rest := by
  rw [escapedCodePoint, bind_eq_ok] at h
  obtain ⟨n, s₁, hn, h⟩ := h
  obtain ⟨b, hb, rfl⟩ := codeUnit_spells hn
  have hlt := lt_of_spellsUnit hb
  simp only [Bool.and_eq_true, Bool.or_eq_true, decide_eq_true_eq] at h
  split at h
  · cases h
  split at h
  · -- The unit is a character of its own.
    cases h
    refine ⟨b, .unit ?_, rfl⟩
    have hv : n.isValidChar := show n < 0xD800 ∨ 0xDFFF < n ∧ n < 0x110000 by omega
    rwa [Bytes.toNat_charOfNat hv]
  · rw [bind_eq_ok] at h
    obtain ⟨_, s₂, h₁, h⟩ := h
    rw [bind_eq_ok] at h
    obtain ⟨_, s₃, h₂, h⟩ := h
    rw [bind_eq_ok] at h
    obtain ⟨m, s₄, hm, h⟩ := h
    obtain ⟨b', hb', rfl⟩ := codeUnit_spells hm
    obtain rfl := continuePair_eq h₁
    obtain rfl := continuePair_eq h₂
    have hlt' := lt_of_spellsUnit hb'
    split at h
    · cases h
    · obtain ⟨rfl, rfl⟩ := Prod.mk.inj (Except.ok.inj h)
      -- The code point of the pair gives both units back.
      obtain ⟨k, hk⟩ : ∃ k, k = 0x10000 + (n - 0xD800) * 0x400 + (m - 0xDC00) := ⟨_, rfl⟩
      rw [← hk]
      have hv : k.isValidChar := show k < 0xD800 ∨ 0xDFFF < k ∧ k < 0x110000 by omega
      have hc := Bytes.toNat_charOfNat hv
      have hhigh : 0xD800 + (k - 0x10000) / 0x400 = n := by omega
      have hlow : 0xDC00 + (k - 0x10000) % 0x400 = m := by omega
      refine ⟨b ++ 92 :: 117 :: b', .pair (by omega) ?_ ?_, ?_⟩
      · rwa [hc, hhigh]
      · rwa [hc, hlow]
      · simp only [List.append_assoc, List.cons_append]

theorem shortEscapes_of_shortEscape? {b c : UInt8} (h : shortEscape? b = some c) :
    ∃ p ∈ shortEscapes, p.1 = b ∧ String.utf8EncodeChar p.2 = [c] := by
  have hall : ∀ n < 256, (shortEscape? (UInt8.ofNat n)).all (fun c => shortEscapes.any fun p =>
      p.1 == UInt8.ofNat n && String.utf8EncodeChar p.2 == [c]) = true := by decide +kernel
  have hb := hall b.toNat b.toNat_lt
  rw [UInt8.ofNat_toNat, h] at hb
  simpa using hb

theorem escape_escapes {s rest bs : Bytes} (h : escape s = .ok (bs, rest)) :
    ∃ c e, Escapes c e ∧ bs = String.utf8EncodeChar c ∧ s = e ++ rest := by
  rw [escape, bind_ok (get_ok _)] at h
  split at h
  · cases h
  · rename_i b s'
    rw [bind_ok (set_ok _ _)] at h
    split at h
    · rename_i hb
      rw [bind_eq_ok] at h
      obtain ⟨c, s₁, hc, h⟩ := h
      obtain ⟨e, he, rfl⟩ := escapedCodePoint_escapes hc
      cases h
      exact ⟨c, 117 :: e, he, Bytes.ofString_singleton c, by rw [hb]; rfl⟩
    · cases hc : shortEscape? b with
      | none =>
        rw [hc] at h
        cases h
      | some c =>
        rw [hc] at h
        cases h
        obtain ⟨p, hp, rfl, hpc⟩ := shortEscapes_of_shortEscape? hc
        exact ⟨p.2, [p.1], .short hp, hpc.symm, rfl⟩

/-! ## The inside of a string -/

/-- The octets between quotes, and what they are read as: most octets are copied, and an escape is
replaced as `esc` says. -/
inductive Inside (esc : Bytes → Bytes → Prop) : Bytes → Bytes → Prop where
  | nil : Inside esc [] []
  | copied {x : UInt8} {q bs : Bytes} : IsCopied x → Inside esc q bs → Inside esc (x :: q) (x :: bs)
  | escaped {e r q bs : Bytes} : esc e r → Inside esc q bs → Inside esc (92 :: (e ++ q)) (r ++ bs)

/-- What the scanner takes up to the closing quote is the inside of a string. -/
theorem stringFrom_inside {u : Scanner Bytes} {esc : Bytes → Bytes → Prop}
    (hu : ∀ {s r rest}, u s = .ok (r, rest) → ∃ e, esc e r ∧ s = e ++ rest) {fuel : Nat}
    {acc s b rest : Bytes} (h : stringFrom u fuel acc s = .ok (b, rest)) :
    ∃ q bs, Inside esc q bs ∧ s = q ++ 34 :: rest ∧ b = acc.reverse ++ bs := by
  induction fuel generalizing acc s with
  | zero => cases h
  | succ fuel ih =>
    rw [stringFrom, bind_ok (get_ok _)] at h
    split at h
    · cases h
    · rename_i x s'
      rw [bind_ok (set_ok _ _)] at h
      split at h
      · rename_i hx
        cases h
        exact ⟨[], [], .nil, by rw [hx]; rfl, (List.append_nil _).symm⟩
      · rename_i h34
        split at h
        · rename_i hx
          rw [bind_eq_ok] at h
          obtain ⟨r, s₁, hr, h⟩ := h
          obtain ⟨e, he, rfl⟩ := hu hr
          obtain ⟨q, bs, hq, rfl, rfl⟩ := ih h
          refine ⟨92 :: (e ++ q), r ++ bs, .escaped he hq, ?_, ?_⟩
          · rw [hx, List.cons_append, List.append_assoc]
          · rw [List.reverse_append, List.reverse_reverse, List.append_assoc]
        · rename_i h92
          split at h
          · cases h
          · rename_i h32
            obtain ⟨q, bs, hq, rfl, rfl⟩ := ih h
            refine ⟨x :: q, x :: bs, .copied ⟨h34, h92, h32⟩ hq, rfl, ?_⟩
            rw [List.reverse_cons, List.append_assoc]
            rfl

/-! ## Spellings -/

theorem spells_append {cs ds : List Char} {b b' : Bytes} (h : Spells cs b) (h' : Spells ds b') :
    Spells (cs ++ ds) (b ++ b') := by
  induction h with
  | nil => exact h'
  | plain h34 h92 h32 _ ih =>
    rw [List.append_assoc]
    exact .plain h34 h92 h32 ih
  | escaped he _ ih =>
    rw [List.cons_append, List.cons_append, List.append_assoc]
    exact .escaped he ih

theorem spells_of_copied {cs : List Char}
    (h : ∀ x ∈ cs.flatMap String.utf8EncodeChar, IsCopied x) :
    Spells cs (cs.flatMap String.utf8EncodeChar) := by
  induction cs with
  | nil => exact .nil
  | cons c cs ih =>
    rw [List.flatMap_cons] at h ⊢
    have hs := ih fun x hx => h x (List.mem_append_right _ hx)
    by_cases hc : c.toNat < 128
    · have hx : IsCopied (UInt8.ofNat c.toNat) := by
        refine h _ (List.mem_append_left _ ?_)
        rw [Bytes.utf8EncodeChar_of_ascii hc]
        exact List.mem_singleton_self _
      have hn : (UInt8.ofNat c.toNat).toNat = c.toNat :=
        UInt8.toNat_ofNat_of_lt' (Nat.lt_trans hc (by decide))
      unfold IsCopied at hx
      rw [Ne, Ne, ← UInt8.toNat_inj, ← UInt8.toNat_inj, UInt8.lt_iff_toNat_lt, hn] at hx
      exact .plain hx.1 hx.2.1 hx.2.2 hs
    · exact .plain (by omega) (by omega) (by omega) hs

def EscapesOctets (e r : Bytes) : Prop := ∃ c, Escapes c e ∧ r = String.utf8EncodeChar c

/-- The inside of a string that is read as characters spells them. Behind octets `r` that were
copied already, these are whole characters where the next escape begins. -/
theorem spells_of_inside {q bs : Bytes} (h : Inside EscapesOctets q bs) {r : Bytes} {cs : List Char}
    (hr : ∀ x ∈ r, IsCopied x) (hcs : cs.flatMap String.utf8EncodeChar = r ++ bs) :
    Spells cs (r ++ q) := by
  induction h generalizing r cs with
  | nil =>
    rw [List.append_nil] at hcs ⊢
    subst hcs
    exact spells_of_copied hr
  | @copied x q bs hx _ ih =>
    rw [List.append_cons] at hcs ⊢
    refine ih (fun y hy => ?_) hcs
    rcases List.mem_append.mp hy with hy | hy
    · exact hr y hy
    · rwa [List.mem_singleton.mp hy]
  | escaped he _ ih =>
    obtain ⟨c, hc, rfl⟩ := he
    obtain ⟨ds, es, rfl, rfl, hes⟩ := Bytes.flatMap_eq_around hcs
    exact spells_append (spells_of_copied hr) (.escaped hc (ih (r := []) nofun hes.symm))

/-- A string is read from what spells its text, and from nothing else. -/
theorem string_eq_ok_iff {s rest : Bytes} {t : String} :
    string s = .ok (t, rest) ↔ ∃ b, Spells t.toList b ∧ s = b ++ 34 :: rest := by
  constructor
  · intro h
    rw [string, bind_ok (get_ok _), bind_eq_ok] at h
    obtain ⟨b, s', hb, h⟩ := h
    have hu {s r rest : Bytes} (h : escape s = .ok (r, rest)) :
        ∃ e, EscapesOctets e r ∧ s = e ++ rest := by
      obtain ⟨c, e, he, hr, hs⟩ := escape_escapes h
      exact ⟨e, ⟨c, he, hr⟩, hs⟩
    obtain ⟨q, bs, hq, rfl, rfl⟩ := stringFrom_inside hu hb
    cases ht : Bytes.toString? b with
    | none =>
      rw [ht] at h
      cases h
    | some t' =>
      rw [ht] at h
      cases h
      refine ⟨q, ?_, rfl⟩
      have hbs := Bytes.eq_ofString_of_toString? ht
      rw [Bytes.ofString_eq] at hbs
      exact spells_of_inside hq (List.forall_mem_nil IsCopied) hbs.symm
  · rintro ⟨b, hb, rfl⟩
    have h := string_takes hb rest
    rwa [List.append_assoc] at h

end Strongbox.Json.Scanner
