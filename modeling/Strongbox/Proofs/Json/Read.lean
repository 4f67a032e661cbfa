/-
  Strongbox.Proofs.Json.Read — records written as JSON objects are read back.

  The members of a written object are gathered one by one: each key is that of a field which is
  not set yet, and the reader of the field takes the written value. This is the relation
  `Gathers`, which follows the members; the reader of the record runs along it.
  - `record_takes`: a record is read from the object whose members its fields gather.
  - `whole_of_takes`: a reader that takes a whole text reads it.
  - `faithful_of_takes`: one that takes what is written tells all values by their texts.
-/

import Strongbox.Json.Read
import Strongbox.Proofs.Json.Scan

namespace Strongbox.Json

/-! ## Written values as octets -/

namespace Value

def octets (v : Value) : Bytes := Bytes.ofString v.compact

theorem octets_string (s : String) : (string s).octets = 34 :: (Scanner.written s ++ [34]) := by
  rw [octets, compact, Scanner.ofString_quotedString]

def memberOctets (m : String × Value) : Bytes :=
  34 :: (Scanner.written m.1 ++ [34]) ++ 58 :: m.2.octets

def moreOctets (ms : List (String × Value)) : Bytes := ms.flatMap fun m => 44 :: memberOctets m

theorem ofString_member (k : String) (v : Value) :
    Bytes.ofString (quotedString k ++ ":" ++ v.compact) = memberOctets (k, v) := by
  rw [Bytes.ofString_append, Bytes.ofString_append, Scanner.ofString_quotedString, memberOctets,
    octets, List.append_assoc]
  rfl

theorem ofString_members (m : String × Value) (ms : List (String × Value)) :
    Bytes.ofString (String.intercalate "," (compactMembers (m :: ms))) =
      memberOctets m ++ moreOctets ms := by
  induction ms generalizing m with
  | nil =>
    rw [compactMembers, compactMembers, String.intercalate_singleton, ofString_member, moreOctets,
      List.flatMap_nil, List.append_nil]
  | cons n ms ih =>
    have hi := ih n
    rw [compactMembers] at hi ⊢
    rw [compactMembers, String.intercalate_cons_cons, Bytes.ofString_append, Bytes.ofString_append,
      ofString_member, hi, moreOctets, moreOctets, List.flatMap_cons, List.append_assoc]
    rfl

theorem octets_object_cons (m : String × Value) (ms : List (String × Value)) :
    (object (m :: ms)).octets = 123 :: (memberOctets m ++ moreOctets ms ++ [125]) := by
  rw [octets, compact, Bytes.ofString_append, Bytes.ofString_append, ofString_members]
  rfl

theorem length_le_length_moreOctets (ms : List (String × Value)) :
    ms.length ≤ (moreOctets ms).length := by
  induction ms with
  | nil => exact Nat.le_refl _
  | cons m ms ih =>
    rw [moreOctets, List.flatMap_cons, List.length_append, List.length_cons, List.length_cons]
    rw [moreOctets] at ih
    omega

end Value

namespace Read

open Scanner

/-! ## Readers of single values -/

theorem stringAs_takes (expected s : String) :
    Takes (stringAs expected) (Value.string s).octets s := by
  intro rest
  rw [Value.octets_string, List.cons_append, stringAs,
    bind_ok (peekPastBlanks_cons (by decide) _)]
  show (take >>= fun _ => Scanner.string) (34 :: (written s ++ [34] ++ rest)) = _
  rw [bind_ok (take_cons _ _), Scanner.string_takes (spells_written s) rest]

theorem string_takes (s : String) : Takes string (Value.string s).octets s :=
  stringAs_takes "a string" s

theorem optional_some {reader : Scanner α} {b : UInt8} {bs : Bytes} {a : α}
    (h : Takes reader (b :: bs) a) (hb : isBlankOctet b = false) (hn : b ≠ 110) :
    Takes (optional reader) (b :: bs) (some a) := by
  intro rest
  rw [List.cons_append, optional, bind_ok (peekPastBlanks_cons hb _)]
  refine (congrFun (?_ : _ = reader >>= fun a => pure (some a)) _).trans ?_
  · split
    · rename_i he
      exact absurd (Option.some.inj he) hn
    · rfl
  · exact bind_ok (h rest)

theorem optional_string_takes {reader : Scanner α} {s : String} {a : α}
    (h : Takes reader (Value.string s).octets a) :
    Takes (optional reader) (Value.string s).octets (some a) := by
  rw [Value.octets_string] at h ⊢
  exact optional_some h (by decide) (by decide)

theorem optional_null_takes (reader : Scanner α) :
    Takes (optional reader) Value.null.octets none := fun _ => rfl

theorem optional_orNull_takes {reader : Scanner α} {text : α → String}
    (h : ∀ a, Takes reader (Value.string (text a)).octets a) (o : Option α) :
    Takes (optional reader) (Value.orNull (fun a => .string (text a)) o).octets o := by
  cases o with
  | none => exact optional_null_takes reader
  | some a => exact optional_string_takes (h a)

theorem boolean_takes (b : Bool) : Takes boolean (Value.boolean b).octets b := by
  cases b <;> exact fun _ => rfl

theorem variant_takes {known : List (String × α)} {name : String} {a : α}
    (h : known.lookup name = some a) : Takes (variant known) (Value.string name).octets a := by
  intro rest
  have hname := stringAs_takes "variant identifier" name rest
  rw [Value.octets_string, List.cons_append] at hname ⊢
  rw [variant, bind_ok (peekPastBlanks_cons (by decide) _)]
  show named known _ = _
  rw [named, bind_ok hname, h]
  rfl

theorem colon_takes : Takes colon [58] () := by
  intro rest
  rw [List.singleton_append, colon, bind_ok (peekPastBlanks_cons (by decide) _)]
  exact take_cons _ _

theorem Field.of_takes {reader : Scanner α} {b : Bytes} {a : α} (h : Takes reader b a)
    (name : String) (get : σ → Option α) (put : σ → α → σ) (mayLack : Bool) (s : σ) :
    Takes ((Field.of name reader get put mayLack).read s) b (put s a) := by
  intro rest
  show (reader >>= fun a => pure (put s a)) (b ++ rest) = _
  rw [bind_ok (h rest)]
  rfl

/-! ## Members -/

/-- The fields gather the members, from one state of the record to another. -/
inductive Gathers (fields : List (Field σ)) : σ → List (String × Value) → σ → Prop where
  | nil (s : σ) : Gathers fields s [] s
  | cons {s s' s'' : σ} {f : Field σ} {k : String} {v : Value} {ms : List (String × Value)} :
    fields.find? (·.name == k) = some f → f.isSet s = false → Takes (f.read s) v.octets s' →
      Gathers fields s' ms s'' → Gathers fields s ((k, v) :: ms) s''

theorem nextElement_closing (first : Bool) (closing : UInt8) (h : isBlankOctet closing = false)
    (unclosed ended : Error) (s : Bytes) :
    nextElement first closing unclosed ended (closing :: s) = .ok (none, closing :: s) := by
  rw [nextElement, bind_ok (peekPastBlanks_cons h _)]
  show (if closing = closing then _ else _ : Scanner (Option UInt8)) _ = _
  rw [if_pos rfl]
  rfl

theorem members_closing (fields : List (Field σ)) (fuel : Nat) (first : Bool) (s : σ) (b : Bytes) :
    members fields fuel first s (125 :: b) = .ok (s, 125 :: b) := by
  cases fuel with
  | zero => rfl
  | succ fuel =>
    rw [members, bind_ok (nextElement_closing first 125 (by decide) _ _ b)]
    rfl

theorem members_member {fields : List (Field σ)} {f : Field σ} {k : String} {v : Value} {s s' : σ}
    (hf : fields.find? (·.name == k) = some f) (hs : f.isSet s = false)
    (hv : Takes (f.read s) v.octets s') {fuel : Nat} {first : Bool} {before rest : Bytes}
    (hn : nextElement first 125 .endInObject .expectedObjectEnd before =
      .ok (some 34, Value.memberOctets (k, v) ++ rest)) :
    members fields (fuel + 1) first s before = members fields fuel false s' rest := by
  have hr : Value.memberOctets (k, v) ++ rest =
      34 :: (written k ++ [34] ++ ([58] ++ (v.octets ++ rest))) := by
    simp only [Value.memberOctets, List.cons_append, List.append_assoc, List.nil_append]
  rw [members, bind_ok hn, hr]
  show (take >>= fun _ => Scanner.string >>= fun key => _ : Scanner σ) _ = _
  rw [bind_ok (take_cons _ _), bind_ok (Scanner.string_takes (spells_written k) _), hf]
  show (if f.isSet s then _ else _ : Scanner σ) _ = _
  rw [if_neg (by rw [hs]; exact Bool.false_ne_true)]
  show (colon >>= fun _ => f.read s >>= fun s' => members fields fuel false s') _ = _
  rw [bind_ok (colon_takes _), bind_ok (hv rest)]

theorem nextElement_first (closing : UInt8) (h : closing ≠ 34) (unclosed ended : Error)
    (s : Bytes) :
    nextElement true closing unclosed ended (34 :: s) = .ok (some 34, 34 :: s) := by
  rw [nextElement, bind_ok (peekPastBlanks_cons (by decide) _)]
  show (if 34 = closing then _ else _ : Scanner (Option UInt8)) _ = _
  rw [if_neg (Ne.symm h)]
  rfl

theorem nextElement_comma (closing : UInt8) (h : closing ≠ 34) (hc : closing ≠ 44)
    (unclosed ended : Error) (s : Bytes) :
    nextElement false closing unclosed ended (44 :: 34 :: s) = .ok (some 34, 34 :: s) := by
  rw [nextElement, bind_ok (peekPastBlanks_cons (by decide) _)]
  show (if 44 = closing then _ else _ : Scanner (Option UInt8)) _ = _
  rw [if_neg (Ne.symm hc)]
  show (take >>= fun _ => peekPastBlanks >>= fun _ => _ : Scanner (Option UInt8)) _ = _
  rw [bind_ok (take_cons _ _), bind_ok (peekPastBlanks_cons (by decide) _)]
  show (if 34 = closing then _ else _ : Scanner (Option UInt8)) _ = _
  rw [if_neg (Ne.symm h)]
  rfl

theorem members_more {fields : List (Field σ)} {s s' : σ} {ms : List (String × Value)}
    (h : Gathers fields s ms s') {fuel : Nat} (hl : ms.length ≤ fuel) (rest : Bytes) :
    members fields fuel false s (Value.moreOctets ms ++ 125 :: rest) = .ok (s', 125 :: rest) := by
  induction h generalizing fuel with
  | nil s => exact members_closing fields fuel false s rest
  | cons hf hs hv _ ih =>
    cases fuel with
    | zero => exact absurd hl (Nat.not_succ_le_zero _)
    | succ fuel =>
      rw [Value.moreOctets, List.flatMap_cons, List.append_assoc]
      refine (members_member hf hs hv (nextElement_comma 125 (by decide) (by decide) _ _ _)).trans ?_
      exact ih (Nat.le_of_succ_le_succ hl)

/-- A record is read from the object whose members its fields gather. -/
theorem record_takes {fields : List (Field σ)} {start s : σ} {ms : List (String × Value)}
    (h : Gathers fields start ms s) {finish : σ → Except Error α} {a : α}
    (ha : finish s = .ok a) (what : String) :
    Takes (record what fields start finish) (Value.object ms).octets a := by
  intro rest
  have hm (b : Bytes) (hb : members fields (b.length + 1) true start b = .ok (s, 125 :: rest)) :
      record what fields start finish (123 :: b) = .ok (a, rest) := by
    rw [record, bind_ok (peekPastBlanks_cons (by decide) _)]
    show (take >>= fun _ => get >>= fun _ => _ : Scanner α) _ = _
    rw [bind_ok (take_cons _ _), bind_ok (get_ok _), bind_ok hb, ha]
    rfl
  cases h with
  | nil => exact hm _ (members_closing fields _ true _ rest)
  | cons hf hs hv hg =>
    rename_i ms
    rw [Value.octets_object_cons, List.cons_append, List.append_assoc, List.append_assoc,
      List.singleton_append]
    refine hm _ ?_
    refine (members_member hf hs hv (nextElement_first 125 (by decide) _ _ _)).trans ?_
    refine members_more hg ?_ rest
    have := Value.length_le_length_moreOctets ms
    simp only [List.length_append]
    omega

/-! ## Whole texts -/

theorem whole_of_takes {reader : Scanner α} {b : Bytes} {a : α} (h : Takes reader b a) :
    whole reader b = .ok a := by
  have h0 := h []
  rw [List.append_nil] at h0
  rw [whole, h0]
  rfl

/-- Every value is read back from its text, and no two values have one text. -/
def Faithful (reader : Scanner α) (toJson : α → Value) : Prop :=
  ∀ a, whole reader (Bytes.ofString (toJson a).compact) = .ok a ∧
    ∀ a', (toJson a').compact = (toJson a).compact ↔ a' = a

/-- A reader that takes what is written is faithful. -/
theorem faithful_of_takes {reader : Scanner α} {toJson : α → Value}
    (h : ∀ a, Takes reader (toJson a).octets a) : Faithful reader toJson := by
  have hw (a : α) : whole reader (Bytes.ofString (toJson a).compact) = .ok a := whole_of_takes (h a)
  refine fun a => ⟨hw a, fun a' => ⟨fun he => ?_, fun he => by rw [he]⟩⟩
  have ha := hw a'
  rw [he, hw a] at ha
  exact (Except.ok.inj ha).symm

end Read

end Strongbox.Json
