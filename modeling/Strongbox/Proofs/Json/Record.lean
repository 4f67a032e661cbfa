/-
  Strongbox.Proofs.Json.Record — a record is read from every text of an object.

  A reader `Reads` a value when it gives one result on all of its texts, or fails on all of them.
  The members of an object are gathered one by one: an unknown one is passed over, a field that is
  set already or holds another kind of value is refused. This is the relation `Collects`, which
  follows the members; the reader of the record runs along it.
  - `record_reads`: the reader of a record reads an object as its fields collect the members.
  - `whole_reads`: so it does with a whole text.
-/

import Strongbox.Proofs.Json.Pass
import Strongbox.Proofs.Json.Read

namespace Strongbox.Json

def Tree.text? : Tree → Option String
  | .string s => some s
  | _ => none

namespace Read

open Scanner

/-- The answer is the result with what is left, or a failure where there is no result. -/
def Gives (answer : Except Error (α × Bytes)) (r : Option α) (s : Bytes) : Prop :=
  match r with
  | some a => answer = .ok (a, s)
  | none => ∃ e, answer = .error e

/-- On every text of the value the reader gives the result, or fails if there is none. -/
def Reads (reader : Scanner α) (v : Tree) (r : Option α) : Prop :=
  ∀ {w b s : Bytes}, Blank w → Renders v b → Ends s → Gives (reader (w ++ (b ++ s))) r s

theorem bind_fails {sc : Scanner α} {f : α → Scanner β} {s : Bytes} (h : ∃ e, sc s = .error e) :
    ∃ e, (sc >>= f) s = .error e := by
  obtain ⟨e, h⟩ := h
  refine ⟨e, ?_⟩
  show Except.bind (sc s) _ = _
  rw [h]
  rfl

/-- What follows a reader gives the result of the whole. -/
theorem Gives.bind {sc : Scanner α} {f : α → Scanner β} {s s' t : Bytes} {r : Option α}
    {r' : α → Option β} (h : Gives (sc s) r s') (hf : ∀ a, r = some a → Gives (f a s') (r' a) t) :
    Gives ((sc >>= f) s) (r.bind r') t := by
  cases r with
  | none => exact bind_fails h
  | some a =>
    rw [Option.bind_some, bind_ok (show sc s = .ok (a, s') from h)]
    exact hf a rfl

/-! ## Strings -/

theorem refuse_fails (expected : String) (s : Bytes) :
    ∃ e, (refuse expected : Scanner α) s = .error e := by
  cases h : found s with
  | error e => exact bind_fails ⟨e, h⟩
  | ok p =>
    refine ⟨.invalidType p.1 expected, ?_⟩
    rw [refuse, bind_ok h]
    rfl

/-- What begins with no quote is no string. -/
theorem string_fails {s : Bytes} (h : Begins 34 s) : ∃ e, string s = .error e := by
  obtain ⟨w, x, s', hw, hx, hne, rfl⟩ := h
  obtain ⟨e, he⟩ := refuse_fails (α := String) "a string" (x :: s')
  refine ⟨e, ?_⟩
  rw [string, stringAs, bind_blank hw, bind_ok (peekPastBlanks_cons hx _)]
  refine (congrFun (?_ : _ = refuse "a string") _).trans he
  split
  · rename_i h
    cases h
  · rename_i h
    exact absurd (Option.some.inj h) hne
  · rfl

theorem begins_of_text?_eq_none {v : Tree} {b : Bytes} (h : Renders v b) (hv : v.text? = none) :
    Begins 34 b := by
  refine begins_renders h (by decide) rfl ?_
  rintro s rfl
  cases hv

/-- A string is read as its text, and no other value. -/
theorem string_reads (v : Tree) : Reads string v v.text? := by
  intro w b s hw hb hs
  cases hv : v.text? with
  | none => exact string_fails (.blank hw ((begins_of_text?_eq_none hb hv).append s))
  | some t =>
    cases hb with
    | string h =>
      cases hv
      obtain ⟨h⟩ := h
      show string _ = .ok _
      rw [string, stringAs, bind_blank hw, List.cons_append, bind_ok (peekPastBlanks_cons rfl _)]
      show (take >>= fun _ => Scanner.string) _ = _
      rw [bind_ok (take_cons _ _), Scanner.string_takes h s]
    | _ => cases hv

theorem Field.of_reads {reader : Scanner α} {v : Tree} {r : Option α} (h : Reads reader v r)
    (name : String) (get : σ → Option α) (put : σ → α → σ) (mayLack : Bool) (s : σ) :
    Reads ((Field.of name reader get put mayLack).read s) v (r.map (put s)) := by
  intro w b t hw hb ht
  have hr := h hw hb ht
  show Gives ((reader >>= fun a => pure (put s a)) (w ++ (b ++ t))) _ t
  rw [Option.map_eq_bind]
  exact hr.bind fun a _ => rfl

/-! ## Members -/

/-- What a member makes of the state of the record: an unknown name leaves it, a name that is set
already is refused, and so is a value that the field does not read. -/
inductive Puts (fields : List (Field σ)) (s : σ) : String × Tree → Option σ → Prop where
  | unknown {k : String} {v : Tree} : fields.find? (·.name == k) = none →
    Puts fields s (k, v) (some s)
  | duplicate {k : String} {v : Tree} {f : Field σ} : fields.find? (·.name == k) = some f →
    f.isSet s = true → Puts fields s (k, v) none
  | known {k : String} {v : Tree} {f : Field σ} {r : Option σ} :
    fields.find? (·.name == k) = some f → f.isSet s = false → Reads (f.read s) v r →
      Puts fields s (k, v) r

inductive Collects (fields : List (Field σ)) : σ → List (String × Tree) → Option σ → Prop where
  | nil (s : σ) : Collects fields s [] (some s)
  | fail {s : σ} {m : String × Tree} {ms : List (String × Tree)} : Puts fields s m none →
    Collects fields s (m :: ms) none
  | cons {s s' : σ} {m : String × Tree} {ms : List (String × Tree)} {r : Option σ} :
    Puts fields s m (some s') → Collects fields s' ms r → Collects fields s (m :: ms) r

def memberValue (fields : List (Field σ)) (s : σ) (key : String) : Scanner σ :=
  match fields.find? (·.name == key) with
  | none => do
    colon
    passValue
    return s
  | some f => do
    if f.isSet s then throw (.duplicateField key)
    colon
    f.read s

def member (fields : List (Field σ)) (s : σ) : Scanner σ := do
  memberValue fields s (← Scanner.string)

theorem members_succ {fields : List (Field σ)} {fuel : Nat} {first : Bool} {s : σ}
    {before after : Bytes}
    (hn : nextElement first 125 .endInObject .expectedObjectEnd before =
      .ok (some 34, 34 :: after)) :
    members fields (fuel + 1) first s before =
      (member fields s >>= members fields fuel false) after := by
  rw [members, bind_ok hn]
  show (take >>= fun _ => Scanner.string >>= fun key => _ : Scanner σ) _ = _
  rw [bind_ok (take_cons _ _), member, bind_assoc]
  refine congrFun (congrArg (Scanner.string >>= ·) (funext fun key => ?_)) after
  rw [memberValue]
  cases hf : fields.find? (·.name == key) with
  | none =>
    simp only [bind_assoc, pure_bind]
  | some f =>
    by_cases hs : f.isSet s = true
    · simp only [if_pos hs]
      rfl
    · simp only [if_neg hs, bind_assoc]

theorem colon_blank {w : Bytes} (hw : Blank w) (s : Bytes) : colon (w ++ 58 :: s) = .ok ((), s) := by
  rw [colon, bind_blank hw, bind_ok (peekPastBlanks_cons (by decide) _)]
  exact take_cons _ _

theorem memberValue_gives {fields : List (Field σ)} {s : σ} {k : String} {v : Tree} {r : Option σ}
    (h : Puts fields s (k, v) r) {w w' b t : Bytes} (hw : Blank w) (hw' : Blank w')
    (hb : Renders v b) (ht : Ends t) :
    Gives (memberValue fields s k (w ++ 58 :: (w' ++ (b ++ t)))) r t := by
  rw [memberValue]
  cases h with
  | unknown hf =>
    rw [hf]
    show (colon >>= fun _ => passValue >>= fun _ => pure s) _ = _
    rw [bind_ok (colon_blank hw _), bind_ok (passValue_renders hw' hb ht)]
    rfl
  | duplicate hf hs =>
    simp only [hf, if_pos hs]
    exact ⟨_, rfl⟩
  | known hf hs hr =>
    have hs' : ¬ _ = true := Bool.eq_false_iff.mp hs
    simp only [hf, if_neg hs']
    rw [bind_ok (colon_blank hw _)]
    exact hr hw' hb ht

/-- A member makes of the state what it should; what is left begins with the blanks behind its
value. -/
theorem member_gives {fields : List (Field σ)} {s : σ} {m : String × Tree} {r : Option σ}
    (h : Puts fields s m r) {b : Bytes} (hb : RendersMember m b) :
    ∃ w b' w', Blank w ∧ Blank w' ∧ b = w ++ 34 :: b' ∧ ∀ c t, IsSeparator c →
      Gives (member fields s (b' ++ c :: t)) r (w' ++ c :: t) := by
  obtain ⟨hw, ⟨hq⟩, hw₁, ⟨hw₂, hv, hw'⟩⟩ := hb
  rename_i k v w w₁ q w₂ vb w'
  refine ⟨w, q ++ [34] ++ (w₁ ++ 58 :: (w₂ ++ (vb ++ w'))), w', hw, hw', rfl, fun c t hc => ?_⟩
  have hg := memberValue_gives h hw₁ hw₂ hv (ends_of_separator hw' hc t)
  rw [List.append_assoc (q ++ [34]), member, bind_ok (Scanner.string_takes hq _)]
  simp only [List.append_assoc, List.cons_append]
  exact hg

/-- The octets go on with the members that `b` begins: at once, or behind a comma. -/
inductive Continues (b : Bytes) : Bool → Bytes → Prop where
  | first : Continues b true b
  | more {w : Bytes} : Blank w → Continues b false (w ++ 44 :: b)

theorem nextElement_continues {first : Bool} {closing x : UInt8} {w b before : Bytes}
    (hcomma : closing ≠ 44) (hx : isBlankOctet x = false) (hne : x ≠ closing) (hw : Blank w)
    (h : Continues (w ++ x :: b) first before) (unclosed ended : Error) :
    nextElement first closing unclosed ended before = .ok (some x, x :: b) := by
  cases h with
  | first =>
    rw [nextElement, bind_blank hw, bind_ok (peekPastBlanks_cons hx _)]
    simp only [if_neg hne, Bool.not_true, Bool.and_false, Bool.false_eq_true, if_false, if_true]
    rfl
  | more hw' =>
    rw [nextElement, bind_blank hw', bind_ok (peekPastBlanks_cons (by decide) _)]
    simp only [if_neg hcomma.symm]
    show (take >>= fun _ => peekPastBlanks >>= fun _ => _ : Scanner (Option UInt8)) _ = _
    rw [bind_ok (take_cons _ _), bind_blank hw, bind_ok (peekPastBlanks_cons hx _)]
    simp only [if_neg hne]
    rfl

theorem members_end (fields : List (Field σ)) (fuel : Nat) (first : Bool) (s : σ) {w : Bytes}
    (hw : Blank w) (t : Bytes) :
    members fields (fuel + 1) first s (w ++ 125 :: t) = .ok (s, 125 :: t) := by
  have hn : nextElement first 125 .endInObject .expectedObjectEnd (w ++ 125 :: t) =
      .ok (none, 125 :: t) := by
    rw [nextElement, bind_blank hw]
    exact nextElement_closing first 125 (by decide) _ _ t
  rw [members, bind_ok hn]
  rfl

/-- The first of the members fails the reader, or leaves it with the rest behind some blanks. -/
theorem members_step {fields : List (Field σ)} {s : σ} {m : String × Tree} {r : Option σ}
    (hp : Puts fields s m r) {b : Bytes} (hb : RendersMember m b) {c : UInt8} (hc : IsSeparator c)
    {fuel : Nat} {first : Bool} {before t : Bytes} (h : Continues (b ++ c :: t) first before) :
    (r = none → ∃ e, members fields (fuel + 1) first s before = .error e) ∧
      ∀ s', r = some s' → ∃ w, Blank w ∧ members fields (fuel + 1) first s before =
        members fields fuel false s' (w ++ c :: t) := by
  obtain ⟨w, b', w', hw, hw', rfl, hg⟩ := member_gives hp hb
  rw [List.append_assoc, List.cons_append] at h
  rw [members_succ (nextElement_continues (by decide) rfl (by decide) hw h _ _)]
  constructor
  · rintro rfl
    exact bind_fails (hg c t hc)
  · rintro s' rfl
    exact ⟨w', hw', bind_ok (hg c t hc)⟩

theorem members_gives {fields : List (Field σ)} : ∀ {m : String × Tree}
    {ms : List (String × Tree)} {b : Bytes}, RendersMembers m ms b → ∀ {s : σ} {r : Option σ},
    Collects fields s (m :: ms) r → ∀ {fuel : Nat}, ms.length + 1 < fuel → ∀ {first : Bool}
      {before t : Bytes}, Continues (b ++ 125 :: t) first before →
        Gives (members fields fuel first s before) r (125 :: t)
  | _, _, _, .one hb, s, r, hr, fuel + 2, _, first, before, t, hc => by
    cases hr with
    | fail hp => exact (members_step hp hb (.inr (.inr rfl)) hc).1 rfl
    | cons hp hr =>
      cases hr
      obtain ⟨w, hw, hm⟩ := (members_step hp hb (.inr (.inr rfl)) hc).2 _ rfl
      exact hm.trans (members_end _ _ _ _ hw t)
  | _, _, _, .more hb hbs, s, r, hr, fuel + 1, hl, first, before, t, hc => by
    rw [List.append_assoc, List.cons_append] at hc
    cases hr with
    | fail hp => exact (members_step hp hb (.inl rfl) hc).1 rfl
    | cons hp hr =>
      obtain ⟨w, hw, hm⟩ := (members_step hp hb (.inl rfl) hc).2 _ rfl
      rw [hm]
      exact members_gives hbs hr (Nat.lt_of_succ_lt_succ hl) (.more hw)

theorem length_lt_of_renders : ∀ {m : String × Tree} {ms : List (String × Tree)} {b : Bytes},
    RendersMembers m ms b → ms.length < b.length
  | _, _, _, .one hb => by
    obtain ⟨-, -, -, -⟩ := hb
    simp only [List.length_append, List.length_cons, List.length_nil]
    omega
  | _, _, _, .more _ hbs => by
    have := length_lt_of_renders hbs
    simp only [List.length_append, List.length_cons]
    omega

/-- The reader of a record reads an object as its fields collect the members and as the record is
made of what they collect. -/
theorem record_reads {fields : List (Field σ)} {start : σ} {ms : List (String × Tree)}
    {r : Option σ} (h : Collects fields start ms r) (what : String) (finish : σ → Except Error α) :
    Reads (record what fields start finish) (.object ms) (r.bind fun s => (finish s).toOption) := by
  intro w b t hw hb _
  have hm {s : Bytes} (hs : Gives (members fields (s.length + 1) true start s) r (125 :: t)) :
      Gives (record what fields start finish (w ++ 123 :: s))
        (r.bind fun s => (finish s).toOption) t := by
    rw [record, bind_blank hw, bind_ok (peekPastBlanks_cons (by decide) _)]
    show Gives ((take >>= fun _ => get >>= fun _ => _ : Scanner α) _) _ t
    rw [bind_ok (take_cons _ _), bind_ok (get_ok _)]
    refine hs.bind fun s _ => ?_
    cases hf : finish s with
    | error e => exact ⟨e, rfl⟩
    | ok a => rfl
  cases hb with
  | emptyObject hw' =>
    cases h
    simp only [List.cons_append, List.append_assoc, List.nil_append]
    exact hm (members_end fields _ true start hw' t)
  | object hb =>
    simp only [List.cons_append, List.append_assoc, List.nil_append]
    refine hm (members_gives hb h ?_ .first)
    have := length_lt_of_renders hb
    simp only [List.length_append, List.length_cons]
    omega

theorem required_eq_ok {name : String} {o : Option α} {a : α} :
    required name o = .ok a ↔ o = some a := by
  cases o with
  | none => exact ⟨nofun, nofun⟩
  | some b => exact ⟨fun h => congrArg some (Except.ok.inj h), fun h => congrArg _ (Option.some.inj h)⟩

theorem toOption_eq_some {x : Except ε α} {a : α} : x.toOption = some a ↔ x = .ok a := by
  cases x with
  | error e => exact ⟨nofun, nofun⟩
  | ok b => exact ⟨fun h => congrArg _ (Option.some.inj h), fun h => congrArg some (Except.ok.inj h)⟩

theorem whole_reads {reader : Scanner α} {v : Tree} {r : Option α} (h : Reads reader v r)
    {b : Bytes} (hb : RendersElement v b) : (whole reader b).toOption = r := by
  obtain ⟨hw, hb, hw'⟩ := hb
  rename_i w b w'
  have hg := h hw hb (ends_of_blank hw')
  cases r with
  | none =>
    obtain ⟨e, he⟩ := hg
    rw [whole, he]
    rfl
  | some a =>
    have ha : reader (w ++ (b ++ w')) = .ok (a, w') := hg
    have hall : w'.all isBlankOctet = true := List.all_eq_true.mpr (isBlankOctet_of_blank hw')
    rw [whole, ha]
    show (if w'.all isBlankOctet = true then _ else _ : Except Error α).toOption = _
    rw [if_pos hall]
    rfl

end Read

end Strongbox.Json
