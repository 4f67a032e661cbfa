/-
  Strongbox.Proofs.Envelope.Reading — an envelope is read from every text of its object.

  Of an object only the members with the four names of an envelope count. Each must occur once,
  with a string, and the strings must be what they are for: base64, the name of a digest algorithm
  and a digest of its size in hexadecimal. The order of the members, the blanks and escapes of the
  text and members of any other name play no role.
  - `decode_renders`: an object of the same known members is decoded as what these record, and
    otherwise refused as malformed.
-/

import Strongbox.Proofs.Envelope
import Strongbox.Proofs.Json.Record

namespace Strongbox.Envelope

open Json Outcome

/-! ## What an object records -/

def valuesOf (ms : List (String × Tree)) (name : String) : List Tree :=
  (ms.filter (·.1 == name)).map (·.2)

def HasOnce (ms : List (String × Tree)) (name text : String) : Prop :=
  valuesOf ms name = [.string text]

def known (ms : List (String × Tree)) : List (String × Tree) :=
  ms.filter fun m => m.1 ∈ ["c", "t", "tp", "tpd"]

/-- The envelope that the members of an object write. -/
def Records (ms : List (String × Tree)) (e : Envelope) : Prop :=
  ∃ c tp tpd a, HasOnce ms "c" c ∧ HasOnce ms "t" e.transformation ∧ HasOnce ms "tp" tp ∧
    HasOnce ms "tpd" tpd ∧ Base64.decode c = .ok e.ciphertext ∧
      Digest.Algorithm.parse tpd = .ok a ∧ Thumbprint.ofHex tp a = .ok e.thumbprint

/-! ## The four members -/

inductive Part where
  | ciphertext
  | transformation
  | thumbprint
  | digestAlgorithm
  deriving DecidableEq

namespace Part

def all : List Part := [ciphertext, transformation, thumbprint, digestAlgorithm]

def name : Part → String
  | ciphertext => "c"
  | transformation => "t"
  | thumbprint => "tp"
  | digestAlgorithm => "tpd"

theorem eq_of_name {p q : Part} (h : p.name = q.name) : p = q := by
  cases p <;> cases q <;> first | rfl | exact absurd h (by decide)

def get (d : Draft) : Part → Option String
  | ciphertext => d.ciphertext
  | transformation => d.transformation
  | thumbprint => d.thumbprint
  | digestAlgorithm => d.digestAlgorithm

def put (p : Part) (d : Draft) (text : String) : Draft :=
  match p with
  | ciphertext => { d with ciphertext := some text }
  | transformation => { d with transformation := some text }
  | thumbprint => { d with thumbprint := some text }
  | digestAlgorithm => { d with digestAlgorithm := some text }

theorem get_put (p q : Part) (d : Draft) (text : String) :
    q.get (p.put d text) = if q = p then some text else q.get d := by
  cases p <;> cases q <;> rfl

theorem draft_ext {d d' : Draft} (h : ∀ p : Part, p.get d = p.get d') : d = d' := by
  obtain ⟨c, t, tp, tpd⟩ := d
  obtain ⟨c', t', tp', tpd'⟩ := d'
  obtain rfl : c = c' := h ciphertext
  obtain rfl : t = t' := h transformation
  obtain rfl : tp = tp' := h thumbprint
  obtain rfl : tpd = tpd' := h digestAlgorithm
  rfl

def field (p : Part) : Read.Field Draft := .of p.name Read.string p.get p.put false

theorem find?_field (k : String) :
    (all.map field).find? (·.name == k) = (all.find? (·.name == k)).map field := by
  rw [List.find?_map]
  rfl

end Part

/-- What the values of a name make of the text that was read for it before. -/
inductive Fills : Option String → List Tree → Option String → Prop where
  | keep (o : Option String) : Fills o [] o
  | set (text : String) : Fills none [.string text] (some text)

theorem fills_nil {o o' : Option String} : Fills o [] o' ↔ o = o' := by
  constructor
  · intro h
    cases h
    rfl
  · intro h
    subst h
    exact .keep o

/-- A value fills what is empty, with its text, and leaves no room for another one. -/
theorem fills_cons {o o' : Option String} {v : Tree} {vs : List Tree} :
    Fills o (v :: vs) o' ↔ o = none ∧ ∃ text, v.text? = some text ∧ Fills (some text) vs o' := by
  constructor
  · intro h
    cases h with
    | set text => exact ⟨rfl, text, rfl, .keep _⟩
  · intro h
    obtain ⟨rfl, text, hv, h⟩ := h
    cases v with
    | string t =>
      cases hv
      cases h
      exact .set text
    | _ => cases hv

theorem valuesOf_cons (k : String) (v : Tree) (ms : List (String × Tree)) (name : String) :
    valuesOf ((k, v) :: ms) name = if k = name then v :: valuesOf ms name else valuesOf ms name := by
  rw [valuesOf, List.filter_cons]
  by_cases h : k = name
  · rw [if_pos h, if_pos (beq_iff_eq.mpr h)]
    rfl
  · rw [if_neg h, if_neg (mt beq_iff_eq.mp h)]
    rfl

section Member

variable {d d' : Draft} {p : Part} {ms : List (String × Tree)}

/-- A member fills the text of its own name, and the other names keep their values. -/
theorem forall_fills_cons {v : Tree} :
    (∀ q : Part, Fills (q.get d) (valuesOf ((p.name, v) :: ms) q.name) (q.get d')) ↔
      Fills (p.get d) (v :: valuesOf ms p.name) (p.get d') ∧
        ∀ q : Part, q ≠ p → Fills (q.get d) (valuesOf ms q.name) (q.get d') := by
  have hown : valuesOf ((p.name, v) :: ms) p.name = v :: valuesOf ms p.name := by
    rw [valuesOf_cons, if_pos rfl]
  have hother {q : Part} (hq : q ≠ p) :
      valuesOf ((p.name, v) :: ms) q.name = valuesOf ms q.name := by
    rw [valuesOf_cons, if_neg fun h => hq (Part.eq_of_name h).symm]
  constructor
  · intro h
    exact ⟨hown ▸ h p, fun q hq => hother hq ▸ h q⟩
  · intro h q
    by_cases hq : q = p
    · rw [hq, hown]
      exact h.1
    · rw [hother hq]
      exact h.2 q hq

theorem forall_fills_put {text : String} :
    (∀ q : Part, Fills (q.get (p.put d text)) (valuesOf ms q.name) (q.get d')) ↔
      Fills (some text) (valuesOf ms p.name) (p.get d') ∧
        ∀ q : Part, q ≠ p → Fills (q.get d) (valuesOf ms q.name) (q.get d') := by
  simp only [Part.get_put]
  constructor
  · intro h
    refine ⟨?_, fun q hq => ?_⟩
    · have hp := h p
      rwa [if_pos rfl] at hp
    · have hq' := h q
      rwa [if_neg hq] at hq'
  · intro h q
    by_cases hq : q = p
    · rw [if_pos hq, hq]
      exact h.1
    · rw [if_neg hq]
      exact h.2 q hq

end Member

theorem exists_puts (d : Draft) (k : String) (v : Tree) :
    ∃ r, Read.Puts (Part.all.map Part.field) d (k, v) r ∧ ∀ ms d', (∃ d₁, r = some d₁ ∧
      ∀ p : Part, Fills (p.get d₁) (valuesOf ms p.name) (p.get d')) ↔
        ∀ p : Part, Fills (p.get d) (valuesOf ((k, v) :: ms) p.name) (p.get d') := by
  have hf := Part.find?_field k
  cases hp : Part.all.find? (·.name == k) with
  | none =>
    rw [hp] at hf
    refine ⟨some d, .unknown hf, fun ms d' => ?_⟩
    have hne (p : Part) : k ≠ p.name := by
      intro h
      have hmem : p ∈ Part.all := by cases p <;> decide
      exact List.find?_eq_none.mp hp p hmem (beq_iff_eq.mpr h.symm)
    simp only [Option.some.injEq, exists_eq_left', valuesOf_cons, if_neg (hne _)]
  | some p =>
    rw [hp] at hf
    have hk : (p.name == k) = true := by simpa using List.find?_some hp
    obtain rfl : p.name = k := eq_of_beq hk
    cases hset : (p.get d).isSome with
    | true =>
      refine ⟨none, .duplicate hf hset, fun ms d' => ⟨nofun, fun h => ?_⟩⟩
      have hfill := (forall_fills_cons.mp h).1
      rw [fills_cons] at hfill
      rw [hfill.1] at hset
      cases hset
    | false =>
      have hnone : p.get d = none := Option.not_isSome_iff_eq_none.mp (Bool.eq_false_iff.mp hset)
      refine ⟨v.text?.map (p.put d), .known hf hset
        (Read.Field.of_reads (Read.string_reads v) _ _ _ _ _), fun ms d' => ?_⟩
      rw [forall_fills_cons, fills_cons]
      constructor
      · intro h
        obtain ⟨d₁, h₁, h⟩ := h
        obtain ⟨text, hv, rfl⟩ := Option.map_eq_some_iff.mp h₁
        obtain ⟨hown, hothers⟩ := forall_fills_put.mp h
        exact ⟨⟨hnone, text, hv, hown⟩, hothers⟩
      · intro h
        obtain ⟨⟨-, text, hv, hown⟩, hothers⟩ := h
        exact ⟨p.put d text, by rw [hv]; rfl, forall_fills_put.mpr ⟨hown, hothers⟩⟩

/-- Some members are collected as the values of each name fill the text for it. -/
theorem exists_collects (d : Draft) (ms : List (String × Tree)) :
    ∃ r, Read.Collects (Part.all.map Part.field) d ms r ∧ ∀ d', r = some d' ↔
      ∀ p : Part, Fills (p.get d) (valuesOf ms p.name) (p.get d') := by
  induction ms generalizing d with
  | nil =>
    refine ⟨some d, .nil d, fun d' => ?_⟩
    simp only [valuesOf, List.filter_nil, List.map_nil, fills_nil, Option.some.injEq]
    exact ⟨fun h p => by rw [h], Part.draft_ext⟩
  | cons m ms ih =>
    obtain ⟨k, v⟩ := m
    obtain ⟨r, hr, hfill⟩ := exists_puts d k v
    cases r with
    | none =>
      refine ⟨none, .fail hr, fun d' => ?_⟩
      rw [← hfill ms d']
      exact ⟨nofun, nofun⟩
    | some d₁ =>
      obtain ⟨r, hc, hr'⟩ := ih d₁
      refine ⟨r, .cons hr hc, fun d' => ?_⟩
      rw [hr', ← hfill ms d']
      simp only [Option.some.injEq, exists_eq_left']

/-! ## The texts of an envelope -/

def Texts.get (t : Texts) : Part → String
  | .ciphertext => t.ciphertext
  | .transformation => t.transformation
  | .thumbprint => t.thumbprint
  | .digestAlgorithm => t.digestAlgorithm

def Draft.finish (d : Draft) : Except Json.Error Texts := do
  let c ← Read.required "c" d.ciphertext
  let t ← Read.required "t" d.transformation
  let tp ← Read.required "tp" d.thumbprint
  let tpd ← Read.required "tpd" d.digestAlgorithm
  return ⟨c, t, tp, tpd⟩

theorem finish_eq_ok {d : Draft} {t : Texts} :
    d.finish = .ok t ↔ ∀ p : Part, p.get d = some (t.get p) := by
  constructor
  · intro h
    obtain ⟨c, hc, h⟩ := bind_eq_ok.mp h
    obtain ⟨t', ht, h⟩ := bind_eq_ok.mp h
    obtain ⟨tp, htp, h⟩ := bind_eq_ok.mp h
    obtain ⟨tpd, htpd, h⟩ := bind_eq_ok.mp h
    cases h
    intro p
    cases p with
    | ciphertext => exact Read.required_eq_ok.mp hc
    | transformation => exact Read.required_eq_ok.mp ht
    | thumbprint => exact Read.required_eq_ok.mp htp
    | digestAlgorithm => exact Read.required_eq_ok.mp htpd
  · intro h
    have hc : d.ciphertext = some t.ciphertext := h .ciphertext
    have ht : d.transformation = some t.transformation := h .transformation
    have htp : d.thumbprint = some t.thumbprint := h .thumbprint
    have htpd : d.digestAlgorithm = some t.digestAlgorithm := h .digestAlgorithm
    rw [Draft.finish, hc, ht, htp, htpd]
    rfl

theorem reader_eq : reader = Read.record "struct EnvelopeRecord" (Part.all.map Part.field)
    ⟨none, none, none, none⟩ Draft.finish := rfl

/-- A text of an object is read as the strings of the four names, each of which occurs once. -/
theorem whole_eq_ok {ms : List (String × Tree)} {b : Bytes}
    (hb : RendersElement (.object ms) b) {t : Texts} :
    Read.whole reader b = .ok t ↔ ∀ p : Part, HasOnce ms p.name (t.get p) := by
  obtain ⟨r, hr, hfill⟩ := exists_collects ⟨none, none, none, none⟩ ms
  have hempty (p : Part) : p.get ⟨none, none, none, none⟩ = none := by cases p <;> rfl
  -- An empty text is filled exactly by a single string.
  have honce {vs : List Tree} {text : String} : Fills none vs (some text) ↔ vs = [.string text] := by
    constructor
    · intro h
      cases h
      rfl
    · intro h
      subst h
      exact .set text
  rw [← Read.toOption_eq_some, reader_eq, Read.whole_reads (Read.record_reads hr _ _) hb,
    Option.bind_eq_some_iff]
  constructor
  · intro h p
    obtain ⟨d, hd, ht⟩ := h
    have hp := (hfill d).mp hd p
    rw [finish_eq_ok.mp (Read.toOption_eq_some.mp ht) p, hempty, honce] at hp
    exact hp
  · intro h
    refine ⟨⟨some t.ciphertext, some t.transformation, some t.thumbprint, some t.digestAlgorithm⟩,
      (hfill _).mpr fun p => ?_, rfl⟩
    have hget : p.get ⟨some t.ciphertext, some t.transformation, some t.thumbprint,
        some t.digestAlgorithm⟩ = some (t.get p) := by cases p <;> rfl
    rw [hget, hempty]
    exact honce.mpr (h p)

/-! ## Decoding -/

theorem decode_eq (b : Bytes) : decode b = (do
    let t ← (Read.whole reader b).mapError fun e => .malformedEnvelope e.message
    let c ← (Base64.decode t.ciphertext).mapError fun e => .malformedEnvelope e.message
    let a ← malformed (Digest.Algorithm.parse t.digestAlgorithm)
    let thumbprint ← malformed (Thumbprint.ofHex t.thumbprint a)
    return { ciphertext := c, transformation := t.transformation, thumbprint }) := by
  rw [decode]
  cases Read.whole reader b with
  | error e => rfl
  | ok t =>
    show (Except.ok t >>= fun t => _ : Except ServiceError Envelope) = (Except.ok t >>= fun t => _)
    rw [ok_bind, ok_bind]
    cases Base64.decode t.ciphertext with
    | error e => rfl
    | ok c => rfl

theorem decode_eq_ok {b : Bytes} {e : Envelope} :
    decode b = .ok e ↔ ∃ t a, Read.whole reader b = .ok t ∧
      Base64.decode t.ciphertext = .ok e.ciphertext ∧ t.transformation = e.transformation ∧
        Digest.Algorithm.parse t.digestAlgorithm = .ok a ∧
          Thumbprint.ofHex t.thumbprint a = .ok e.thumbprint := by
  rw [decode_eq]
  constructor
  · intro h
    obtain ⟨t, ht, h⟩ := bind_eq_ok.mp h
    obtain ⟨c, hc, h⟩ := bind_eq_ok.mp h
    obtain ⟨a, ha, h⟩ := bind_eq_ok.mp h
    obtain ⟨thumbprint, htp, h⟩ := bind_eq_ok.mp h
    cases h
    exact ⟨t, a, mapError_eq_ok.mp ht, mapError_eq_ok.mp hc, rfl, mapError_eq_ok.mp ha,
      mapError_eq_ok.mp htp⟩
  · intro h
    obtain ⟨t, a, ht, hc, htr, ha, htp⟩ := h
    refine bind_eq_ok.mpr ⟨t, mapError_eq_ok.mpr ht, bind_eq_ok.mpr ⟨_, mapError_eq_ok.mpr hc,
      bind_eq_ok.mpr ⟨a, mapError_eq_ok.mpr ha, bind_eq_ok.mpr ⟨_, mapError_eq_ok.mpr htp, ?_⟩⟩⟩⟩
    rw [htr]
    rfl

def FailsMalformed (x : Except ServiceError α) : Prop :=
  ∀ e, x = .error e → ∃ m, e = .malformedEnvelope m

theorem failsMalformed_mapError (x : Except ε α) (f : ε → String) :
    FailsMalformed (x.mapError fun e => .malformedEnvelope (f e)) := by
  intro e h
  cases x with
  | error e' => exact ⟨f e', (Except.error.inj h).symm⟩
  | ok a => cases h

theorem FailsMalformed.bind {x : Except ServiceError α} {f : α → Except ServiceError β}
    (hx : FailsMalformed x) (hf : ∀ a, FailsMalformed (f a)) : FailsMalformed (x >>= f) := by
  intro e h
  rcases bind_eq_error.mp h with h | ⟨a, -, h⟩
  · exact hx e h
  · exact hf a e h

/-- Octets that are no envelope are malformed, whatever is wrong with them. -/
theorem failsMalformed_decode (b : Bytes) : FailsMalformed (decode b) := by
  rw [decode_eq]
  refine (failsMalformed_mapError _ _).bind fun t => (failsMalformed_mapError _ _).bind fun c => ?_
  refine (failsMalformed_mapError _ _).bind fun a => (failsMalformed_mapError _ _).bind fun tp => ?_
  exact nofun

/-! ## The meaning of an object -/

theorem valuesOf_known (ms : List (String × Tree)) (p : Part) :
    valuesOf (known ms) p.name = valuesOf ms p.name := by
  rw [valuesOf, valuesOf, known, List.filter_filter]
  congr 1
  refine List.filter_congr fun m _ => ?_
  by_cases h : m.1 = p.name
  · have hmem : p.name ∈ ["c", "t", "tp", "tpd"] := by cases p <;> decide
    rw [h, decide_eq_true hmem, Bool.and_true]
  · rw [beq_eq_false_iff_ne.mpr h, Bool.false_and]

/-- Objects of the same known members have the same single strings. -/
theorem hasOnce_of_perm {ms ms' : List (String × Tree)} (h : (known ms').Perm (known ms)) (p : Part)
    (text : String) : HasOnce ms' p.name text ↔ HasOnce ms p.name text := by
  have hperm : (valuesOf ms' p.name).Perm (valuesOf ms p.name) := by
    rw [← valuesOf_known ms', ← valuesOf_known ms]
    exact (h.filter _).map _
  constructor
  · intro h
    rw [HasOnce] at h
    rw [h] at hperm
    exact List.singleton_perm.mp hperm |>.symm
  · intro h
    rw [HasOnce] at h
    rw [h] at hperm
    exact List.perm_singleton.mp hperm

/-- An object is decoded as what it records, and otherwise refused as malformed: whatever the
order of its members is, whichever other members it has, and however it is written. -/
theorem decode_renders {ms ms' : List (String × Tree)} (hm : (known ms').Perm (known ms))
    {b : Bytes} (hb : RendersElement (.object ms') b) :
    (∀ e, decode b = .ok e ↔ Records ms e) ∧
      ((¬ ∃ e, Records ms e) → ∃ m, decode b = .error (.malformedEnvelope m)) := by
  have hok (e : Envelope) : decode b = .ok e ↔ Records ms e := by
    rw [decode_eq_ok]
    constructor
    · intro h
      obtain ⟨t, a, ht, hc, htr, ha, htp⟩ := h
      have honce := fun p => (hasOnce_of_perm hm p _).mp ((whole_eq_ok hb).mp ht p)
      refine ⟨t.ciphertext, t.thumbprint, t.digestAlgorithm, a, honce .ciphertext, ?_,
        honce .thumbprint, honce .digestAlgorithm, hc, ha, htp⟩
      rw [← htr]
      exact honce .transformation
    · intro h
      obtain ⟨c, tp, tpd, a, hc, ht, htp, htpd, hcipher, ha, hthumb⟩ := h
      refine ⟨⟨c, e.transformation, tp, tpd⟩, a, (whole_eq_ok hb).mpr fun p => ?_, hcipher, rfl, ha,
        hthumb⟩
      rw [hasOnce_of_perm hm]
      cases p with
      | ciphertext => exact hc
      | transformation => exact ht
      | thumbprint => exact htp
      | digestAlgorithm => exact htpd
  refine ⟨hok, fun hn => ?_⟩
  cases hd : decode b with
  | ok e => exact absurd ⟨e, (hok e).mp hd⟩ hn
  | error x =>
    obtain ⟨m, rfl⟩ := failsMalformed_decode b x hd
    exact ⟨m, rfl⟩

def quoted (s : String) : Bytes := 34 :: (Scanner.written s ++ [34])

theorem quotes_quoted (s : String) : Quotes s (quoted s) := .mk (Scanner.spells_written s)

def memberText (name value : Bytes) : Bytes :=
  [10] ++ (name ++ ([] ++ 58 :: ([32] ++ (value ++ []))))

theorem memberText_renders {k : String} {v : Tree} {name value : Bytes} (hk : Quotes k name)
    (hv : Renders v value) : RendersMember (k, v) (memberText name value) :=
  .mk (by decide) hk (by decide) (.mk (by decide) hv (by decide))

def sampleThumbprint : Thumbprint := Thumbprint.compute [] .sha1

def sampleMembers : List (String × Tree) :=
  [("c", .string ""), ("t", .string "RSA"), ("tp", .string sampleThumbprint.value),
    ("tpd", .string "SHA-1")]

def oddMembers : List (String × Tree) :=
  [("tpd", .string "SHA-1"), ("note", .list [.object [("c", .null)]]), ("c", .string ""),
    ("t", .string "RSA"), ("tp", .string sampleThumbprint.value)]

/-- A text of them that escapes the name of the ciphertext. -/
def oddText : Bytes :=
  [32] ++ (123 :: ((memberText (quoted "tpd") (quoted "SHA-1")
    ++ 44 :: (memberText (quoted "note") (91 :: ([32] ++ (123 :: (memberText (quoted "c")
        [110, 117, 108, 108] ++ [125]) ++ []) ++ [93]))
      ++ 44 :: (memberText [34, 92, 117, 48, 48, 54, 51, 34] (quoted "")
        ++ 44 :: (memberText (quoted "t") (quoted "RSA")
          ++ 44 :: memberText (quoted "tp") (quoted sampleThumbprint.value))))) ++ [125]) ++ [10])

theorem oddText_renders : RendersElement (.object oddMembers) oddText := by
  have hu : SpellsUnit 'c'.toNat [48, 48, 54, 51] :=
    SpellsUnit.mk (i := 0) (j := 0) (k := 6) (l := 3) (by decide) (by decide) (by decide)
      (by decide)
  have hc : Quotes "c" [34, 92, 117, 48, 48, 54, 51, 34] :=
    .mk (b := [92, 117, 48, 48, 54, 51]) (.escaped (.unit hu) .nil)
  have hnote : Renders (.list [.object [("c", .null)]])
      (91 :: ([32] ++ (123 :: (memberText (quoted "c") [110, 117, 108, 108] ++ [125]) ++ []) ++
        [93])) :=
    .list (.one (.mk (by decide) (.object (.one (memberText_renders (quotes_quoted _) .null)))
      (by decide)))
  have text (s : String) : Renders (.string s) (quoted s) := .string (quotes_quoted s)
  exact .mk (by decide) (.object (.more (memberText_renders (quotes_quoted _) (text _))
    (.more (memberText_renders (quotes_quoted _) hnote)
      (.more (memberText_renders hc (text _))
        (.more (memberText_renders (quotes_quoted _) (text _))
          (.one (memberText_renders (quotes_quoted _) (text _)))))))) (by decide)

theorem decode_renders_oddText :
    (known oddMembers).Perm (known sampleMembers) ∧ RendersElement (.object oddMembers) oddText ∧
      decode oddText = .ok ⟨[], "RSA", sampleThumbprint⟩ := by
  have hm : (known oddMembers).Perm (known sampleMembers) :=
    @List.perm_append_comm _ [("tpd", Tree.string "SHA-1")] (sampleMembers.take 3)
  have hr : Records sampleMembers ⟨[], "RSA", sampleThumbprint⟩ :=
    ⟨"", sampleThumbprint.value, "SHA-1", .sha1, rfl, rfl, rfl, rfl, rfl,
      Digest.Algorithm.parse_name .sha1, Thumbprint.ofHex_compute [] .sha1⟩
  exact ⟨hm, oddText_renders, ((decode_renders hm oddText_renders).1 _).mpr hr⟩

end Strongbox.Envelope
