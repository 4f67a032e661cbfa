/-
  Strongbox.Proofs.Envelope.Recognition — which envelopes are recognised as such.

  A text is recognised by its first octet, a brace, and by being decoded. The decoder takes more
  than that: it passes over blanks in front, which are no part of a value, and it reads the four
  texts from a list as well as from an object. So what begins with a blank or with a bracket is
  decoded but not recognised, and nothing else is.
  - `decode_blank`, `head?_of_decode`: blanks in front do not matter, and behind them stands an
    object or a list.
  - `decode_renders_list`: a list is decoded as its four strings mean by their order.
  - `recognised_iff_not_overlooked`: exactly when recognising and decoding agree.
-/

import Strongbox.Proofs.Envelope.Reading
import Strongbox.Proofs.Json.Sequence

namespace Strongbox.Envelope

open Json

/-! ## What stands in front of an envelope -/

/-- Blanks in front of the octets do not matter for the decoder. -/
theorem decode_blank {w : Bytes} (hw : Blank w) (b : Bytes) : decode (w ++ b) = decode b := by
  have hr : reader (w ++ b) = reader b := by
    rw [reader_eq, Read.record]
    exact Scanner.bind_blank hw b
  have hwhole : Read.whole reader (w ++ b) = Read.whole reader b := by
    rw [Read.whole, hr]
    rfl
  rw [decode_eq, decode_eq, hwhole]

/-- What is decoded begins with a brace or a bracket, behind blanks. -/
theorem head?_of_decode {b : Bytes} {e : Envelope} (h : decode b = .ok e) :
    ∃ w rest, b = w ++ rest ∧ Blank w ∧
      (rest.head? = some 0x7B ∨ rest.head? = some 0x5B) := by
  obtain ⟨t, a, ht, -⟩ := decode_eq_ok.mp h
  rw [Read.whole] at ht
  obtain ⟨p, hp, -⟩ := Outcome.bind_eq_ok.mp ht
  rw [reader_eq] at hp
  exact Read.head?_of_record hp

/-! ## Envelopes as lists -/

def fillIn : List Part → Draft → List Tree → Option Draft
  | [], d, [] => some d
  | p :: ps, d, v :: vs => v.text?.bind fun text => fillIn ps (p.put d text) vs
  | _, _, _ => none

theorem fillIn_nil {d d' : Draft} {vs : List Tree} :
    fillIn [] d vs = some d' ↔ vs = [] ∧ d = d' := by
  cases vs with
  | nil => simp [fillIn]
  | cons v vs => simp [fillIn]

theorem fillIn_cons {p : Part} {ps : List Part} {d d' : Draft} {vs : List Tree} :
    fillIn (p :: ps) d vs = some d' ↔
      ∃ text vs', vs = .string text :: vs' ∧ fillIn ps (p.put d text) vs' = some d' := by
  constructor
  · intro h
    cases vs with
    | nil => cases h
    | cons v vs =>
      obtain ⟨text, hv, h⟩ := Option.bind_eq_some_iff.mp h
      cases v with
      | string s =>
        cases hv
        exact ⟨text, vs, rfl, h⟩
      | _ => cases hv
  · rintro ⟨text, vs', rfl, h⟩
    exact h

/-- The fields of the members follow the elements as these are filled in. -/
theorem follows_fillIn (ps : List Part) (d : Draft) (vs : List Tree) :
    Read.Follows (ps.map Part.field) d vs (fillIn ps d vs) := by
  induction ps generalizing d vs with
  | nil =>
    cases vs with
    | nil => exact .done d
    | cons v vs => exact .surplus d v vs
  | cons p ps ih =>
    cases vs with
    | nil => exact .short _ d rfl
    | cons v vs =>
      have hr : Read.Reads (p.field.read d) v (v.text?.map (p.put d)) :=
        Read.Field.of_reads (Read.string_reads v) _ _ _ _ _
      rw [fillIn]
      cases hv : v.text? with
      | none =>
        rw [hv] at hr
        exact .fail _ vs hr
      | some text =>
        rw [hv] at hr
        exact .cons hr (ih _ vs)

/-- The elements of an envelope that is written as a list. -/
def Texts.elements (t : Texts) : List Tree :=
  [.string t.ciphertext, .string t.transformation, .string t.thumbprint, .string t.digestAlgorithm]

theorem whole_list_eq_ok {vs : List Tree} {b : Bytes} (hb : RendersElement (.list vs) b)
    {t : Texts} : Read.whole reader b = .ok t ↔ vs = t.elements := by
  rw [← Read.toOption_eq_some, reader_eq,
    Read.whole_reads (Read.record_reads_list (follows_fillIn _ _ _) _ _) hb,
    Option.bind_eq_some_iff]
  constructor
  · rintro ⟨d, hd, ht⟩
    obtain ⟨c, _, rfl, h₁⟩ := fillIn_cons.mp hd
    obtain ⟨name, _, rfl, h₂⟩ := fillIn_cons.mp h₁
    obtain ⟨tp, _, rfl, h₃⟩ := fillIn_cons.mp h₂
    obtain ⟨tpd, _, rfl, h₄⟩ := fillIn_cons.mp h₃
    obtain ⟨rfl, rfl⟩ := fillIn_nil.mp h₄
    cases ht
    rfl
  · rintro rfl
    exact ⟨⟨some t.ciphertext, some t.transformation, some t.thumbprint, some t.digestAlgorithm⟩,
      rfl, rfl⟩

/-- A list is decoded as the envelope that its four strings mean, however it is written. -/
theorem decode_renders_list {vs : List Tree} {b : Bytes} (hb : RendersElement (.list vs) b)
    {e : Envelope} :
    decode b = .ok e ↔ ∃ (t : Texts) (a : Digest.Algorithm), vs = t.elements ∧
      Base64.decode t.ciphertext = .ok e.ciphertext ∧ t.transformation = e.transformation ∧
        Digest.Algorithm.parse t.digestAlgorithm = .ok a ∧
          Thumbprint.ofHex t.thumbprint a = .ok e.thumbprint := by
  simp only [decode_eq_ok, whole_list_eq_ok hb]

/-! ## Recognition -/

theorem isSelfContained_eq_true {b : Bytes} :
    isSelfContained b = true ↔ b.head? = some 0x7B ∧ ∃ e, decode b = .ok e := by
  rw [isSelfContained, Bool.and_eq_true, beq_iff_eq]
  refine and_congr_right fun _ => ?_
  cases decode b with
  | error x =>
    constructor
    · intro h
      cases h
    · rintro ⟨e, h⟩
      cases h
  | ok e => exact ⟨fun _ => ⟨e, rfl⟩, fun _ => rfl⟩

/-- The octets are an envelope with blanks in front of its object, or one that is a list. -/
def Overlooked (b : Bytes) : Prop :=
  ∃ w rest e, b = w ++ rest ∧ Blank w ∧ decode rest = .ok e ∧
    (w ≠ [] ∧ rest.head? = some 0x7B ∨ rest.head? = some 0x5B)

/-- What is overlooked can be decoded, but does not begin with a brace. -/
theorem Overlooked.decode_ok {b : Bytes} (h : Overlooked b) :
    (∃ e, decode b = .ok e) ∧ b.head? ≠ some 0x7B := by
  obtain ⟨w, rest, e, rfl, hw, he, hhead⟩ := h
  refine ⟨⟨e, (decode_blank hw rest).trans he⟩, ?_⟩
  cases w with
  | nil =>
    rcases hhead with ⟨hne, -⟩ | hlist
    · exact absurd rfl hne
    · rw [List.nil_append, hlist]
      decide
  | cons x w =>
    rw [List.cons_append, List.head?_cons]
    rcases hw x List.mem_cons_self with rfl | rfl | rfl | rfl <;> decide

/-- Octets are recognised exactly when they can be decoded, unless they are an envelope with blanks
in front of its object or one that is a list. -/
theorem recognised_iff_not_overlooked (b : Bytes) :
    (isSelfContained b = true ↔ ∃ e, decode b = .ok e) ↔ ¬ Overlooked b := by
  rw [isSelfContained_eq_true]
  constructor
  · intro h ho
    obtain ⟨hd, hhead⟩ := ho.decode_ok
    exact hhead (h.mpr hd).1
  · intro hn
    refine ⟨fun h => h.2, fun hd => ⟨?_, hd⟩⟩
    obtain ⟨e, he⟩ := hd
    obtain ⟨w, rest, rfl, hw, hhead⟩ := head?_of_decode he
    -- The octets without the blanks would be one of the two overlooked forms.
    have hrest : decode rest = .ok e := (decode_blank hw rest).symm.trans he
    rcases hhead with hbrace | hlist
    · by_cases h0 : w = []
      · rw [h0, List.nil_append, hbrace]
      · exact absurd ⟨w, rest, e, rfl, hw, hrest, .inl ⟨h0, hbrace⟩⟩ hn
    · exact absurd ⟨w, rest, e, rfl, hw, hrest, .inr hlist⟩ hn

def sampleEnvelope : Envelope := ⟨[], "RSA", sampleThumbprint⟩

def listText (t : Texts) : Bytes :=
  91 :: (quoted t.ciphertext ++ 44 :: (quoted t.transformation ++ 44 :: (quoted t.thumbprint ++
    44 :: quoted t.digestAlgorithm)) ++ [93])

theorem listText_renders (t : Texts) : RendersElement (.list t.elements) (listText t) := by
  have text (s : String) : RendersElement (.string s) (quoted s) :=
    rendersElement_of_renders (.string (quotes_quoted s))
  exact rendersElement_of_renders (.list (.more (text _) (.more (text _) (.more (text _)
    (.one (text _))))))

/-- A blank in front of an envelope, or a list in place of its object, is enough for it to be
decoded without being recognised. -/
theorem a_blank_or_a_list_hides_an_envelope :
    (decode (32 :: sampleEnvelope.encode) = .ok sampleEnvelope ∧
      isSelfContained (32 :: sampleEnvelope.encode) = false) ∧
    decode (listText sampleEnvelope.texts) = .ok sampleEnvelope ∧
      isSelfContained (listText sampleEnvelope.texts) = false := by
  have hthumb : Thumbprint.ofHex sampleThumbprint.value .sha1 = .ok sampleThumbprint :=
    Thumbprint.ofHex_compute [] .sha1
  refine ⟨⟨?_, rfl⟩, ?_, rfl⟩
  · have hd : decode sampleEnvelope.encode = .ok sampleEnvelope := decode_encode hthumb
    exact (decode_blank (w := [32]) (by decide) _).trans hd
  · exact (decode_renders_list (listText_renders _)).mpr
      ⟨sampleEnvelope.texts, .sha1, rfl, Base64.decode_encode _, rfl,
        Digest.Algorithm.parse_name .sha1, hthumb⟩

end Strongbox.Envelope
