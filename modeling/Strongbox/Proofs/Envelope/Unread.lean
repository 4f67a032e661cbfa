/-
  Strongbox.Proofs.Envelope.Unread — where an envelope need not be text.

  Names and the four strings of an envelope are read as text, and everything between the values is
  of ASCII. Only the value of a member of another name is passed over, and in the strings of such
  a value any octets are taken. So octets that are no text are refused, unless all that is wrong
  with them stands there.
  - `writes_of_decode`: what is decoded is a text, or an object with values that are passed over.
  - `refused_or_unread`: octets that are no text are refused, or have such a value that is none.
  - `decode_unread`: a member whose value is a string of any octets is as if it were not there.
-/

import Strongbox.Proofs.Envelope.Recognition
import Strongbox.Proofs.Json.Overlooked
import Strongbox.Proofs.Text.Utf8

namespace Strongbox

open Json

/-! ## Parts of a JSON text as texts -/

namespace Json

theorem isText_of_blank {w : Bytes} (hw : Blank w) : Bytes.IsText w := by
  refine Bytes.isText_of_ascii fun x hx => ?_
  rcases hw x hx with rfl | rfl | rfl | rfl <;> decide

/-- Blanks end where the first other octet stands. -/
theorem Blank.append_cons_inj {w s t : Bytes} {x y : UInt8} (hw : Blank w)
    (hy : Scanner.isBlankOctet y = false) (h : w ++ x :: s = y :: t) : w = [] ∧ x = y ∧ s = t := by
  cases w with
  | nil => simpa using h
  | cons z w =>
    obtain ⟨rfl, -⟩ := List.cons.inj h
    rw [Scanner.isBlankOctet_of_blank hw z List.mem_cons_self] at hy
    cases hy

theorem isText_of_spellsUnit {n : Nat} {b : Bytes} (h : SpellsUnit n b) : Bytes.IsText b := by
  refine Bytes.isText_of_ascii ?_
  obtain ⟨hi, hj, hk, hl⟩ := h
  have hdigit {n : Nat} {b : UInt8} (h : IsHexDigit n b) : b.toNat < 128 := by
    unfold IsHexDigit at h
    omega
  simpa using ⟨hdigit hi, hdigit hj, hdigit hk, hdigit hl⟩

theorem isText_of_escapes {c : Char} {e : Bytes} (h : Escapes c e) : Bytes.IsText e := by
  cases h with
  | short h =>
    have hs : ∀ p ∈ shortEscapes, p.1.toNat < 128 := by decide
    exact (Bytes.isText_cons (hs _ h)).mpr Bytes.isText_nil
  | unit h => exact (Bytes.isText_cons (by decide)).mpr (isText_of_spellsUnit h)
  | pair _ h h' =>
    refine (Bytes.isText_cons (by decide)).mpr ((isText_of_spellsUnit h).append ?_)
    rw [Bytes.isText_cons (by decide), Bytes.isText_cons (by decide)]
    exact isText_of_spellsUnit h'

theorem isText_of_spells {cs : List Char} {b : Bytes} (h : Spells cs b) : Bytes.IsText b := by
  induction h with
  | nil => exact Bytes.isText_nil
  | @plain c _ _ _ _ _ _ ih => exact .append ⟨[c], by simp⟩ ih
  | escaped he _ ih => exact (Bytes.isText_cons (by decide)).mpr ((isText_of_escapes he).append ih)

theorem isText_of_quotes {s : String} {b : Bytes} (h : Quotes s b) : Bytes.IsText b := by
  obtain ⟨h⟩ := h
  have hq : Bytes.IsText [34] := (Bytes.isText_cons (by decide)).mpr Bytes.isText_nil
  exact (Bytes.isText_cons (by decide)).mpr ((isText_of_spells h).append hq)

/-- Loose octets end with one of ASCII, so no text is parted inside a character behind them. -/
theorem isText_loose_append {v : Bytes} (h : Scanner.Loose v) (s : Bytes) :
    Bytes.IsText (v ++ s) ↔ Bytes.IsText v ∧ Bytes.IsText s := by
  induction h with
  | nil => exact (and_iff_right Bytes.isText_nil).symm
  | ascii hx _ _ ih =>
    rw [List.cons_append, Bytes.isText_cons hx, Bytes.isText_cons hx]
    exact ih
  | @string q b _ _ ih =>
    rw [List.cons_append, Bytes.isText_cons (by decide), Bytes.isText_cons (by decide),
      List.append_assoc]
    constructor
    · intro ht
      obtain ⟨hq, hbs⟩ := Bytes.isText_around (c := '\x22') ht
      obtain ⟨hb, hs⟩ := ih.mp hbs
      exact ⟨hq.append ((Bytes.isText_cons (by decide)).mpr hb), hs⟩
    · rintro ⟨hq, hs⟩
      obtain ⟨hq, hb⟩ := Bytes.isText_around (c := '\x22') hq
      exact hq.append ((Bytes.isText_cons (by decide)).mpr (ih.mpr ⟨hb, hs⟩))

theorem Read.isText_of_lead {first : Bool} {l : Bytes} (h : Read.Lead first l) :
    Bytes.IsText l := by
  cases h with
  | first hw => exact isText_of_blank hw
  | more hw hw' =>
    exact (isText_of_blank hw).append ((Bytes.isText_cons (by decide)).mpr (isText_of_blank hw'))

end Json

namespace Envelope

open Scanner Bytes

/-! ## The members of an object -/

/-- From `before` to `after` stand the members of an object and its closing brace. A member with
one of the four names has a string; the values of the other members, which are passed over, are
`unread` in their order. -/
inductive Members : (unread : List Bytes) → (first : Bool) → (before after : Bytes) → Prop where
  | closing {first : Bool} {w after : Bytes} : Blank w → Members [] first (w ++ 125 :: after) after
  | read {p : Part} {text : String} {unread : List Bytes} {first : Bool}
    {l k w w' v s after : Bytes} : Read.Lead first l → Quotes p.name k → Blank w → Blank w' →
      Quotes text v → Members unread false s after →
        Members unread first (l ++ (k ++ (w ++ 58 :: (w' ++ (v ++ s))))) after
  | unread {name : String} {unread : List Bytes} {first : Bool} {l k w v s after : Bytes} :
    Read.Lead first l → Quotes name k → (∀ p : Part, p.name ≠ name) → Blank w →
      passValue (v ++ s) = .ok ((), s) → Loose v → Members unread false s after →
        Members (v :: unread) first (l ++ (k ++ (w ++ 58 :: (v ++ s)))) after

/-- The octets write an object, with blanks around it, whose values `unread` are passed over. -/
def WritesObject (unread : List Bytes) (b : Bytes) : Prop :=
  ∃ w before after, Blank w ∧ Blank after ∧ Members unread true before after ∧
    b = w ++ 123 :: before

/-- The members are text where the values that are passed over are. -/
theorem Members.isText_iff {unread : List Bytes} {first : Bool} {before after : Bytes}
    (h : Members unread first before after) (ha : IsText after) :
    IsText before ↔ ∀ v ∈ unread, IsText v := by
  induction h with
  | closing hw =>
    rw [isText_append_left (isText_of_blank hw), isText_cons (by decide)]
    exact ⟨fun _ => nofun, fun _ => ha⟩
  | read hl hk hw hw' hv _ ih =>
    rw [isText_append_left (Read.isText_of_lead hl), isText_append_left (isText_of_quotes hk),
      isText_append_left (isText_of_blank hw), isText_cons (by decide),
      isText_append_left (isText_of_blank hw'), isText_append_left (isText_of_quotes hv), ih ha]
  | unread hl hk _ hw _ hv _ ih =>
    rw [isText_append_left (Read.isText_of_lead hl), isText_append_left (isText_of_quotes hk),
      isText_append_left (isText_of_blank hw), isText_cons (by decide), isText_loose_append hv,
      ih ha, List.forall_mem_cons]

theorem WritesObject.isText_iff {unread : List Bytes} {b : Bytes} (h : WritesObject unread b) :
    IsText b ↔ ∀ v ∈ unread, IsText v := by
  obtain ⟨w, before, after, hw, ha, hm, rfl⟩ := h
  rw [isText_append_left (isText_of_blank hw), isText_cons (by decide),
    hm.isText_iff (isText_of_blank ha)]

/-! ## What is decoded -/

theorem read_field (p : Part) (d : Draft) (s : Bytes) :
    Ensures (p.field.read d) s fun _ rest =>
      ∃ w text b, Blank w ∧ Quotes text b ∧ s = w ++ (b ++ rest) := by
  refine .bind fun text rest h => .pure ?_
  obtain ⟨w, b, hw, hb, hs⟩ := Read.string_quotes s text rest h
  exact ⟨w, text, b, hw, hb, hs⟩

/-- Behind the name of a member stands a string for one of the four, and otherwise a value that is
passed over. -/
theorem memberValue_ensures (d : Draft) (name : String) (s : Bytes) :
    Ensures (Read.memberValue (Part.all.map Part.field) d name) s fun _ rest =>
      (∃ (p : Part) (w w' : Bytes) (text : String) (v : Bytes), p.name = name ∧ Blank w ∧
        Blank w' ∧ Quotes text v ∧ s = w ++ 58 :: (w' ++ (v ++ rest))) ∨
      (∀ p : Part, p.name ≠ name) ∧ ∃ w v, Blank w ∧ passValue (v ++ rest) = .ok ((), rest) ∧
        Loose v ∧ s = w ++ 58 :: (v ++ rest) := by
  rw [Read.memberValue, Part.find?_field]
  cases hp : Part.all.find? (·.name == name) with
  | none =>
    have hne (p : Part) : p.name ≠ name := by
      have hmem : p ∈ Part.all := by cases p <;> decide
      exact fun h => List.find?_eq_none.mp hp p hmem (beq_iff_eq.mpr h)
    refine .bind fun _ s' hc => .bind fun _ rest hv => .pure ?_
    obtain ⟨w, hw, rfl⟩ := Read.colon_blanks s _ _ hc
    obtain ⟨v, rfl, hl⟩ := passValue_loose s' _ _ hv
    exact .inr ⟨hne, w, v, hw, hv, hl, rfl⟩
  | some p =>
    have hname : p.name = name := by simpa using List.find?_some hp
    rw [Option.map_some]
    dsimp only
    split
    · exact .throw _
    · refine .bind fun _ s' hc => fun d' rest hr => ?_
      obtain ⟨w, hw, rfl⟩ := Read.colon_blanks s _ _ hc
      obtain ⟨w', text, v, hw', hv, rfl⟩ := read_field p d s' d' rest hr
      exact .inl ⟨p, w, w', text, v, hname, hw, hw', hv, rfl⟩

theorem members_ensures (fuel : Nat) (first : Bool) (d : Draft) (s : Bytes) (hl : s.length < fuel) :
    Ensures (Read.members (Part.all.map Part.field) fuel first d) s fun _ rest =>
      ∃ unread after, rest = 125 :: after ∧ Members unread first s after := by
  induction fuel generalizing first d s with
  | zero => exact absurd hl (Nat.not_lt_zero _)
  | succ fuel ih =>
    intro d' rest h
    have hm := h
    rw [Read.members, bind_eq_ok] at h
    obtain ⟨o, s₁, hn, h⟩ := h
    have hlead := Read.nextElement_lead first 125 _ _ s o s₁ hn
    cases o with
    | none =>
      obtain ⟨w, hw, rfl, hc⟩ := hlead
      obtain ⟨after, rfl⟩ := List.head?_eq_some_iff.mp hc
      cases h
      exact ⟨[], after, rfl, .closing hw⟩
    | some x =>
      obtain ⟨l, hlead, rfl, hx⟩ := hlead
      obtain ⟨s₁, rfl⟩ := List.head?_eq_some_iff.mp hx
      by_cases hq : x = 34
      · subst hq
        rw [Read.members_succ hn, Read.member, bind_eq_ok] at hm
        obtain ⟨d₁, s₂, hm, hmore⟩ := hm
        rw [bind_eq_ok] at hm
        obtain ⟨name, s₃, hname, hvalue⟩ := hm
        obtain ⟨k, hk, rfl⟩ := string_eq_ok_iff.mp hname
        have hrest := ih false d₁ s₂
        rw [List.length_append] at hl
        rcases memberValue_ensures d name s₃ _ _ hvalue with
          ⟨p, w, w', text, v, rfl, hw, hw', hv, rfl⟩ | ⟨hne, w, v, hw, hv, hv', rfl⟩
        · simp only [List.length_cons, List.length_append] at hl
          obtain ⟨unread, after, rfl, hms⟩ := hrest (by omega) _ _ hmore
          have hread := Members.read hlead (.mk hk) hw hw' hv hms
          simp only [List.cons_append, List.append_assoc, List.nil_append] at hread
          exact ⟨unread, after, rfl, hread⟩
        · simp only [List.length_cons, List.length_append] at hl
          obtain ⟨unread, after, rfl, hms⟩ := hrest (by omega) _ _ hmore
          have hread := Members.unread hlead (.mk hk) hne hw hv hv' hms
          simp only [List.cons_append, List.append_assoc, List.nil_append] at hread
          exact ⟨v :: unread, after, rfl, hread⟩
      · simp only [if_neg hq] at h
        cases h

theorem elements_ensures (what : String) (total : Nat) (ps : List Part) (index : Nat) (d : Draft)
    (s : Bytes) :
    Ensures (Read.elements what total index (ps.map Part.field) d) s fun _ rest =>
      ∃ c, IsText c ∧ s = c ++ rest := by
  induction ps generalizing index d s with
  | nil => exact .pure ⟨[], isText_nil, rfl⟩
  | cons p ps ih =>
    refine .bind fun o s₁ hn => ?_
    have hlead := Read.nextElement_lead (index == 0) 93 _ _ s o s₁ hn
    cases o with
    | none => exact .throw _
    | some x =>
      obtain ⟨l, hl, rfl, -⟩ := hlead
      refine .bind fun d₁ s₂ hr => fun d' rest h => ?_
      obtain ⟨w, text, b, hw, hb, rfl⟩ := read_field p d s₁ d₁ s₂ hr
      obtain ⟨c, hc, rfl⟩ := ih (index + 1) d₁ s₂ d' rest h
      refine ⟨l ++ (w ++ (b ++ c)), ?_, by simp only [List.append_assoc]⟩
      exact (Read.isText_of_lead hl).append
        ((isText_of_blank hw).append ((isText_of_quotes hb).append hc))

theorem endOfList_ensures (s : Bytes) :
    Ensures Read.endOfList s fun _ rest => ∃ c, IsText c ∧ s = c ++ rest := by
  refine .peek fun w s' hw hs => ?_
  split
  · exact .throw _
  · rename_i hc
    obtain ⟨s', rfl⟩ := List.head?_eq_some_iff.mp hc
    refine .take ⟨w ++ [93], ?_, by rw [hs, List.append_assoc]; rfl⟩
    exact (isText_of_blank hw).append ((isText_cons (by decide)).mpr isText_nil)
  · rename_i hc
    obtain ⟨s', rfl⟩ := List.head?_eq_some_iff.mp hc
    refine .bind (.take fun _ rest h => ?_)
    obtain ⟨e, he⟩ := Read.afterComma_fails s'
    exact absurd (he.symm.trans h) nofun
  · exact .throw _

theorem lift_ensures {x : Except Json.Error α} {s : Bytes} {P : α → Bytes → Prop}
    (h : ∀ a, P a s) : Ensures (liftM x) s P := by
  intro a rest hs
  cases x with
  | error e => cases hs
  | ok a =>
    cases hs
    exact h a

theorem reader_ensures (s : Bytes) :
    Ensures reader s fun _ rest => Blank rest → IsText s ∨ ∃ unread, WritesObject unread s := by
  rw [reader_eq, Read.record]
  refine .peek fun w s' hw hs => ?_
  split
  · exact .throw _
  · rename_i hc
    obtain ⟨s', rfl⟩ := List.head?_eq_some_iff.mp hc
    refine .bind (.take (.bind fun g s₁ hg => ?_))
    cases hg
    refine .bind fun d s₂ hm => ?_
    obtain ⟨unread, after, rfl, hms⟩ := members_ensures _ true _ s' (Nat.lt_succ_self _) d s₂ hm
    refine .bind (lift_ensures fun t => .bind (.take (.pure fun ha => ?_)))
    exact .inr ⟨unread, w, s', after, hw, ha, hms, hs⟩
  · rename_i hc
    obtain ⟨s', rfl⟩ := List.head?_eq_some_iff.mp hc
    refine .bind (.take (.bind fun d s₁ he => ?_))
    obtain ⟨c, hct, rfl⟩ := elements_ensures _ _ Part.all 0 _ s' d s₁ he
    refine .bind (lift_ensures fun t => .bind fun _ s₂ hend => .pure fun ha => ?_)
    obtain ⟨c', hc', rfl⟩ := endOfList_ensures s₁ _ s₂ hend
    rw [hs, isText_append_left (isText_of_blank hw), isText_cons (by decide),
      isText_append_left hct, isText_append_left hc']
    exact .inl (isText_of_blank ha)
  · intro t rest h
    obtain ⟨e, he⟩ := Read.refuse_fails (α := Texts) "struct EnvelopeRecord" s'
    rw [he] at h
    cases h

/-- What is decoded is a text, or an object with values that are passed over. -/
theorem writes_of_decode {b : Bytes} {e : Envelope} (h : decode b = .ok e) :
    IsText b ∨ ∃ unread, WritesObject unread b := by
  obtain ⟨t, a, ht, -⟩ := decode_eq_ok.mp h
  rw [Read.whole] at ht
  obtain ⟨⟨t', rest⟩, hr, ht⟩ := Outcome.bind_eq_ok.mp ht
  change (if rest.all isBlankOctet = true then _ else _ : Except Json.Error Texts) = _ at ht
  split at ht
  · rename_i hall
    exact reader_ensures b t' rest hr (blank_of_all hall)
  · cases ht

/-- Octets that are no text are refused as malformed and not recognised, or they write an object
and are no text in a value of it that is passed over. -/
theorem refused_or_unread (b : Bytes) (h : toString? b = none) :
    ((∃ m, decode b = .error (.malformedEnvelope m)) ∧ isSelfContained b = false) ∨
      ∃ unread, WritesObject unread b ∧ ∃ v ∈ unread, toString? v = none := by
  rw [toString?_eq_none_iff] at h
  cases hd : decode b with
  | error e =>
    obtain ⟨m, rfl⟩ := failsMalformed_decode b e hd
    refine .inl ⟨⟨m, rfl⟩, ?_⟩
    rw [isSelfContained, hd]
    exact Bool.and_false _
  | ok e =>
    rcases writes_of_decode hd with ht | ⟨unread, hu⟩
    · exact absurd ht h
    · rw [hu.isText_iff] at h
      obtain ⟨v, hv⟩ := Classical.not_forall.mp h
      obtain ⟨hm, hv⟩ := Classical.not_imp.mp hv
      exact .inr ⟨unread, hu, v, hm, toString?_eq_none_iff.mpr hv⟩

/-- No character begins with an octet that leads no sequence. -/
theorem not_isText_cons {x : UInt8} (hx : Text.Utf8.width x = 0) (b : Bytes) :
    ¬ IsText (x :: b) := by
  rintro ⟨cs, h⟩
  cases cs with
  | nil => cases h
  | cons c cs =>
    obtain ⟨a, tail, hc, hs⟩ := Text.Utf8.step_utf8EncodeChar c
    rw [List.flatMap_cons, hc, List.cons_append] at h
    obtain ⟨rfl, -⟩ := List.cons.inj h
    have hs := hs []
    simp [Text.Utf8.step, hx] at hs

theorem Members.of_name {p : Part} {unread : List Bytes} {s after : Bytes}
    (h : Members unread true (34 :: (written p.name ++ 34 :: s)) after) :
    ∃ w w' text v rest, Blank w ∧ Blank w' ∧ Quotes text v ∧ s = w ++ 58 :: (w' ++ (v ++ rest)) := by
  have hstring : string (written p.name ++ 34 :: s) = .ok (p.name, s) :=
    string_eq_ok_iff.mpr ⟨_, spells_written p.name, rfl⟩
  -- The octets determine the name that they spell and what stands behind it.
  have hname {name : String} {l k t : Bytes} (hl : Read.Lead true l) (hk : Quotes name k)
      (hb : 34 :: (written p.name ++ 34 :: s) = l ++ (k ++ t)) : p.name = name ∧ s = t := by
    obtain ⟨hk⟩ := hk
    cases hl with
    | first hl =>
      simp only [List.cons_append, List.append_assoc, List.nil_append] at hb
      obtain ⟨-, -, hb⟩ := hl.append_cons_inj (by decide) hb.symm
      have hstring' := string_eq_ok_iff.mpr ⟨_, hk, hb.symm⟩
      rw [hstring, Except.ok.injEq, Prod.mk.injEq] at hstring'
      exact hstring'
  generalize hb : 34 :: (written p.name ++ 34 :: s) = before at h
  cases h with
  | closing hw =>
    obtain ⟨-, hx, -⟩ := hw.append_cons_inj (by decide) hb.symm
    cases hx
  | read hl hk hw hw' hv _ => exact ⟨_, _, _, _, _, hw, hw', hv, (hname hl hk hb).2⟩
  | unread hl hk hne _ _ _ _ => exact absurd (hname hl hk hb).1 (hne p)

def unreadableText : Bytes :=
  123 :: 34 :: (written "c" ++ 34 :: 58 :: 34 :: 0xFF :: 34 ::
    ofString ",\"t\":\"RSA\",\"tp\":\"DA39A3EE5E6B4B0D3255BFEF95601890AFD80709\",\"tpd\":\"SHA-1\"\x7d")

theorem refused_or_unread_ciphertext : toString? unreadableText = none ∧
    (∃ m, decode unreadableText = .error (.malformedEnvelope m)) ∧
      isSelfContained unreadableText = false := by
  have h : toString? unreadableText = none := by
    rw [toString?_eq_none_iff, unreadableText, isText_cons (by decide), isText_cons (by decide),
      isText_append_left (isText_of_spells (spells_written "c")), isText_cons (by decide),
      isText_cons (by decide), isText_cons (by decide)]
    exact not_isText_cons (by decide) _
  rcases refused_or_unread unreadableText h with hrefused | ⟨unread, hwrites, -⟩
  · exact ⟨h, hrefused⟩
  · -- The value of the first member is read, but no string begins with this octet.
    obtain ⟨w, before, after, hw, -, hm, hb⟩ := hwrites
    obtain ⟨-, -, rfl⟩ := hw.append_cons_inj (by decide) hb.symm
    obtain ⟨w, w', text, v, rest, hw, hw', hv, hs⟩ := Members.of_name (p := .ciphertext) hm
    cases hv with | @mk e hv =>
    obtain ⟨-, -, hs⟩ := hw.append_cons_inj (by decide) hs.symm
    simp only [List.cons_append, List.append_assoc, List.nil_append] at hs
    obtain ⟨-, -, hs⟩ := hw'.append_cons_inj (by decide) hs
    cases e with
    | nil => cases hs
    | cons x e =>
      obtain ⟨rfl, -⟩ := List.cons.inj hs
      exact absurd (isText_of_spells hv) (not_isText_cons (by decide) e)

/-! ## What is passed over -/

theorem member_shortens (d : Draft) (s : Bytes) :
    Ensures (Read.member (Part.all.map Part.field) d) s fun _ rest => rest.length < s.length := by
  refine .bind fun name s₁ hname => fun d' rest hv => ?_
  obtain ⟨k, -, rfl⟩ := string_eq_ok_iff.mp hname
  rcases memberValue_ensures d name s₁ d' rest hv with
    ⟨_, _, _, _, _, _, _, _, _, rfl⟩ | ⟨-, _, _, _, _, _, rfl⟩
  · simp only [List.length_append, List.length_cons]
    omega
  · simp only [List.length_append, List.length_cons]
    omega

/-- More fuel than there are octets makes no difference. -/
theorem members_fuel {fuel fuel' : Nat} (first : Bool) (d : Draft) {s : Bytes}
    (hl : s.length < fuel) (hl' : s.length < fuel') :
    Read.members (Part.all.map Part.field) fuel first d s =
      Read.members (Part.all.map Part.field) fuel' first d s := by
  induction fuel generalizing fuel' first d s with
  | zero => exact absurd hl (Nat.not_lt_zero _)
  | succ fuel ih =>
    obtain ⟨fuel', rfl⟩ : ∃ k, fuel' = k + 1 := ⟨fuel' - 1, by omega⟩
    cases hn : Read.nextElement first 125 .endInObject .expectedObjectEnd s with
    | error e =>
      rw [Read.members, Read.members]
      exact (bind_error hn).trans (bind_error hn).symm
    | ok p =>
      obtain ⟨o, s₁⟩ := p
      have hlead := Read.nextElement_lead first 125 _ _ s o s₁ hn
      cases o with
      | none =>
        rw [Read.members, Read.members, bind_ok hn, bind_ok hn]
      | some x =>
        obtain ⟨l, -, rfl, hx⟩ := hlead
        obtain ⟨s₁, rfl⟩ := List.head?_eq_some_iff.mp hx
        by_cases hq : x = 34
        · subst hq
          rw [Read.members_succ hn, Read.members_succ hn]
          cases hm : Read.member (Part.all.map Part.field) d s₁ with
          | error e => exact (bind_error hm).trans (bind_error hm).symm
          | ok p =>
            obtain ⟨d₁, s₂⟩ := p
            have hs := member_shortens d s₁ d₁ s₂ hm
            simp only [List.length_append, List.length_cons] at hl hl'
            rw [bind_ok hm, bind_ok hm]
            exact ih false d₁ (by omega) (by omega)
        · rw [Read.members, Read.members, bind_ok hn, bind_ok hn]
          simp only [if_neg hq]
          rfl

theorem reader_brace (s : Bytes) : reader (123 :: s) =
    (Read.members (Part.all.map Part.field) (s.length + 1) true ⟨none, none, none, none⟩ >>=
      fun d => do
        let t ← d.finish
        take
        return t) s := by
  rw [reader_eq, Read.record, bind_ok (peekPastBlanks_cons (by decide) _)]
  rfl

/-- A first member that leaves the state as it is makes no difference. -/
theorem decode_of_member {b s : Bytes} (hm : ∀ d, Read.member (Part.all.map Part.field) d b =
    .ok (d, 44 :: 34 :: s)) : decode (123 :: 34 :: b) = decode (123 :: 34 :: s) := by
  have hl : (44 :: 34 :: s).length < b.length :=
    member_shortens _ b _ _ (hm ⟨none, none, none, none⟩)
  have hms (d : Draft) :
      Read.members (Part.all.map Part.field) ((34 :: b).length + 1) true d (34 :: b) =
        Read.members (Part.all.map Part.field) ((34 :: s).length + 1) true d (34 :: s) := by
    rw [List.length_cons, Read.members_succ (Read.nextElement_first 125 (by decide) _ _ b),
      bind_ok (hm d), Read.members_succ (Read.nextElement_comma 125 (by decide) (by decide) _ _ s),
      members_fuel true d (Nat.lt_succ_self _) (Nat.lt_succ_of_lt (Nat.lt_of_succ_lt hl)),
      Read.members_succ (Read.nextElement_first 125 (by decide) _ _ s)]
  have hr : reader (123 :: 34 :: b) = reader (123 :: 34 :: s) := by
    rw [reader_brace, reader_brace]
    show Except.bind _ _ = Except.bind _ _
    rw [hms]
  rw [decode_eq, decode_eq, Read.whole, Read.whole, hr]

/-- A member of another name in front of the members, whose value is a string of any octets, is
as if it were not there. -/
theorem decode_unread {name : String} (hn : ∀ p : Part, p.name ≠ name) {q : Bytes}
    (hq : StringOctets q) (s : Bytes) :
    decode (123 :: 34 :: (written name ++ [34] ++ 58 :: (34 :: (q ++ [34]) ++ 44 :: 34 :: s))) =
      decode (123 :: 34 :: s) := by
  refine decode_of_member fun d => ?_
  have hunknown : (Part.all.map Part.field).find? (·.name == name) = none := by
    rw [Part.find?_field, Option.map_eq_none_iff, List.find?_eq_none]
    exact fun p _ h => hn p (eq_of_beq h)
  have hcolon : Read.colon (58 :: (34 :: (q ++ [34]) ++ 44 :: 34 :: s)) =
      .ok ((), 34 :: (q ++ [34]) ++ 44 :: 34 :: s) := Read.colon_takes _
  rw [Read.member, bind_ok (string_takes (spells_written name) _), Read.memberValue, hunknown]
  show (Read.colon >>= fun _ => passValue >>= fun _ => pure d) _ = _
  rw [bind_ok hcolon, bind_ok (passValue_octets hq _)]
  rfl

/-- The octets of an envelope behind a member whose value is the octet 255 between quotes. -/
def unreadText : Bytes :=
  123 :: 34 :: (written "x" ++ [34] ++
    58 :: (34 :: ([0xFF] ++ [34]) ++ 44 :: 34 :: sampleEnvelope.encode.drop 2))

/-- An envelope with an octet that belongs to no text is decoded and recognised. -/
theorem an_unread_string_need_not_be_text : toString? unreadText = none ∧
    decode unreadText = .ok sampleEnvelope ∧ isSelfContained unreadText = true := by
  have hname : ∀ p : Part, p.name ≠ "x" := by
    intro p
    cases p <;> decide
  have hq : StringOctets [0xFF] := .copied (by unfold IsCopied; decide) .nil
  have henc : 123 :: 34 :: sampleEnvelope.encode.drop 2 = sampleEnvelope.encode := by
    rw [encode_eq, toJson, Value.octets_object_cons]
    rfl
  have hd : decode unreadText = .ok sampleEnvelope := by
    rw [unreadText, decode_unread hname hq, henc]
    exact decode_encode (Thumbprint.ofHex_compute [] .sha1)
  refine ⟨toString?_eq_none_iff.mpr ?_, hd, isSelfContained_eq_true.mpr ⟨rfl, _, hd⟩⟩
  rw [unreadText, isText_cons (by decide), isText_cons (by decide), List.append_assoc,
    isText_append_left (isText_of_spells (spells_written "x")), List.singleton_append,
    isText_cons (by decide), isText_cons (by decide), List.cons_append, isText_cons (by decide)]
  exact not_isText_cons (by decide) _

end Envelope

end Strongbox
