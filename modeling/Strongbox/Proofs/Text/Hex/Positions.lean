/-
  Strongbox.Proofs.Text.Hex.Positions — hexadecimal text read by slices at even positions.

  A reader that cuts the text at the offsets 0, 2, 4 in its octets has no slice to read where an
  offset is behind the end or in the middle of a character. Two checks come before the cutting. A
  text of even length has no odd octet left over, and in a text of ASCII every offset is where a
  character begins; so behind the checks every slice is there and holds two characters.
  - `Text.slice?_of_ascii`: the slices of a text of ASCII.
  - `octetOf_pair`: two characters as a number.
  - `mapM_octetAt`, `checked_decodePairs`: what is read from a position on, and what is checked.
  - `decode_checked_by_position`: the whole text, and texts that differ in the case of letters.
-/

import Strongbox.Proofs.Check
import Strongbox.Proofs.Text.Hex
import Strongbox.Proofs.Text.Octets

namespace Strongbox

/-! ## Slices of a text -/

namespace Text

/-- The offset is at the end of the octets, or where a character begins. -/
def isBoundary (b : Bytes) (i : Nat) : Bool :=
  i == 0 || i == b.length || b[i]?.any fun x => x.toNat < 128 || 192 ≤ x.toNat

def slice? (s : String) (i j : Nat) : Option String :=
  let b := Bytes.ofString s
  if i ≤ j ∧ isBoundary b i ∧ isBoundary b j then Bytes.toString? ((b.drop i).take (j - i)) else none

/-- In ASCII every offset is where a character begins. -/
theorem isBoundary_of_ascii {b : Bytes} (h : ∀ x ∈ b, x.toNat < 128) {i : Nat} (hi : i ≤ b.length) :
    isBoundary b i = true := by
  rcases Nat.lt_or_eq_of_le hi with hi | rfl
  · have hx := h _ (List.getElem_mem hi)
    simp [isBoundary, List.getElem?_eq_getElem hi, hx]
  · simp [isBoundary]

theorem slice?_of_ascii {s : String} (h : ∀ c ∈ s.toList, c.toNat < 128) {i j : Nat} (hij : i ≤ j)
    (hj : j ≤ s.toList.length) :
    slice? s i j = some (String.ofList ((s.toList.drop i).take (j - i))) := by
  have hbytes := Bytes.ofString_ofList_of_ascii h
  rw [String.ofList_toList] at hbytes
  have hascii : ∀ x ∈ Bytes.ofString s, x.toNat < 128 := by
    rw [hbytes]
    intro x hx
    obtain ⟨c, hc, rfl⟩ := List.mem_map.mp hx
    have hc := h c hc
    rwa [UInt8.toNat_ofNat_of_lt' (show c.toNat < 256 by omega)]
  have hlength : (Bytes.ofString s).length = s.toList.length := by rw [hbytes, List.length_map]
  have hi := isBoundary_of_ascii hascii (show i ≤ (Bytes.ofString s).length by omega)
  have hj := isBoundary_of_ascii hascii (show j ≤ (Bytes.ofString s).length by omega)
  rw [slice?, if_pos ⟨hij, hi, hj⟩, hbytes, ← List.map_drop, ← List.map_take,
    ← Bytes.ofString_ofList_of_ascii fun c hc => h c (List.mem_of_mem_drop (List.mem_of_mem_take hc)),
    Bytes.toString?_ofString]

end Text

namespace Hex

/-! ## Numbers -/

inductive NumberError where
  | empty
  | digit
  | overflow
  deriving DecidableEq

def NumberError.message : NumberError → String
  | .empty => "cannot parse integer from empty string"
  | .digit => "invalid digit found in string"
  | .overflow => "number too large to fit in target type"

def octetFrom (n : Nat) : List Char → Except NumberError UInt8
  | [] => .ok (UInt8.ofNat n)
  | c :: cs =>
    match digit? c with
    | none => .error .digit
    | some d => if 16 * n + d < 256 then octetFrom (16 * n + d) cs else .error .overflow

/-- The octet that a text of any number of digits writes. A plus sign may stand before them. -/
def octetOf (t : String) : Except NumberError UInt8 :=
  match t.toList with
  | [] => .error .empty
  | c :: cs => octetFrom 0 (if c = '+' ∧ cs ≠ [] then cs else c :: cs)

/-- Two characters are never too few or too many for an octet. -/
theorem octetOf_pair (c d : Char) :
    octetOf (String.ofList [c, d]) = (pair? c d).elim (.error .digit) .ok := by
  rw [octetOf, String.toList_ofList, pair?]
  by_cases hc : c = '+'
  · cases hd : digit? d with
    | none => simp [hc, octetFrom, hd]
    | some l =>
      have hl := (digit?_eq_some.mp hd).2.1
      simp [hc, octetFrom, hd, show l < 256 by omega]
  · cases hh : digit? c with
    | none => cases hd : digit? d <;> simp [hc, octetFrom, hh]
    | some h =>
      have hh16 := (digit?_eq_some.mp hh).2.1
      cases hd : digit? d with
      | none => simp [hc, octetFrom, hh, hd, show h < 256 by omega]
      | some l =>
        have hl16 := (digit?_eq_some.mp hd).2.1
        simp [hc, octetFrom, hh, hd, show h < 256 by omega, show 16 * h + l < 256 by omega]

/-! ## Reading by slices -/

/-- Why reading by slices ends: there is no slice at the position, or the text is refused. -/
inductive Stop where
  | noSlice (position : Nat)
  | refused (message : String)
  deriving DecidableEq

def octetAt (s : String) (i : Nat) : Except Stop UInt8 :=
  match Text.slice? s i (i + 2) with
  | none => .error (.noSlice i)
  | some t =>
    (octetOf t).mapError fun e => .refused s!"invalid hex at position {i}: {e.message}"

def evenPositions (size : Nat) : List Nat := List.range' 0 ((size + 1) / 2) 2

/-- The octets that the text writes, each of them read from its own slice. -/
def decodeSlices (s : String) : Except Stop Bytes :=
  if s.utf8ByteSize % 2 ≠ 0 then .error (.refused "hex string must have even length")
  else if s.toList.any (fun c => c.toNat ≥ 128) then .error (.refused "hex string must be ASCII")
  else (evenPositions s.utf8ByteSize).mapM (octetAt s)

def positionCheck (s : String) (i : Nat) : Check Error :=
  .fault (∀ x, octetAt s i ≠ .ok x) (.badPair i)

def checks (s : String) : List (Check Error) :=
  .fault (s.utf8ByteSize % 2 ≠ 0) .oddLength ::
  .fault (∃ c ∈ s.toList, 128 ≤ c.toNat) .notAscii ::
  (evenPositions s.utf8ByteSize).map (positionCheck s)

theorem half_cons_cons (c d : Char) (cs : List Char) :
    (c :: d :: cs).length / 2 = cs.length / 2 + 1 := by
  simp only [List.length_cons]
  omega

theorem drop_pair {cs rest : List Char} {position : Nat} {c d : Char}
    (h : cs.drop position = c :: d :: rest) : cs.drop (position + 2) = rest := by
  rw [← List.drop_drop, h]
  rfl

/-- A digit that is none is the only reason that a pair is refused for. -/
theorem message_badPair (i : Nat) : (Error.badPair i).message =
    s!"invalid hex at position {i}: {NumberError.digit.message}" := by
  have hjoin : ": " ++ "invalid digit found in string" = ": invalid digit found in string" := rfl
  show "invalid hex at position " ++ toString i ++ ": invalid digit found in string" =
    "invalid hex at position " ++ toString i ++ ": " ++ "invalid digit found in string"
  rw [← hjoin, String.append_assoc, String.append_assoc, String.append_assoc]

section Positions

variable {s : String} {cs : List Char} {position : Nat} (hascii : ∀ c ∈ s.toList, c.toNat < 128)

include hascii

/-- A slice of ASCII holds two characters, which are a pair or none. -/
theorem octetAt_of_ascii {c d : Char} (hcs : s.toList.drop position = c :: d :: cs) :
    octetAt s position =
      (pair? c d).elim (.error (.refused (Error.badPair position).message)) .ok := by
  have hlength := congrArg List.length hcs
  rw [List.length_drop, List.length_cons, List.length_cons] at hlength
  rw [octetAt, Text.slice?_of_ascii hascii (by omega) (by omega), hcs, Nat.add_sub_cancel_left]
  simp only [List.take_succ_cons, List.take_zero, octetOf_pair]
  cases pair? c d with
  | none =>
    rw [message_badPair]
    rfl
  | some x => rfl

/-- Every slice from the position on is there when an even number of characters is left. -/
theorem mapM_octetAt (hcs : s.toList.drop position = cs) (heven : cs.length % 2 = 0) :
    (List.range' position (cs.length / 2) 2).mapM (octetAt s) =
      (decodePairs position cs).mapError fun e => .refused e.message := by
  induction position, cs using decodePairs.induct with
  | case1 position => rfl
  | case2 position c => cases heven
  | case3 position c d cs hp =>
    rw [half_cons_cons, List.range'_succ, List.mapM_cons, octetAt_of_ascii hascii hcs, decodePairs, hp]
    rfl
  | case4 position c d cs x hp ih =>
    rw [List.length_cons, List.length_cons] at heven
    have hrest := ih (drop_pair hcs) (by omega)
    rw [half_cons_cons, List.range'_succ, List.mapM_cons, octetAt_of_ascii hascii hcs, hrest,
      decodePairs, hp]
    cases decodePairs (position + 2) cs <;> rfl

/-- The first position without an octet decides. -/
theorem checked_decodePairs (hcs : s.toList.drop position = cs) (heven : cs.length % 2 = 0) :
    Checked ((List.range' position (cs.length / 2) 2).map (positionCheck s))
      (decodePairs position cs) := by
  induction position, cs using decodePairs.induct with
  | case1 position => exact .ok []
  | case2 position c => cases heven
  | case3 position c d cs hp =>
    rw [half_cons_cons, List.range'_succ, List.map_cons, decodePairs, hp]
    refine Checked.of_fault fun e => and_iff_right ?_
    intro x hx
    rw [octetAt_of_ascii hascii hcs, hp] at hx
    cases hx
  | case4 position c d cs x hp ih =>
    have hoctet := octetAt_of_ascii hascii hcs
    rw [hp] at hoctet
    rw [List.length_cons, List.length_cons] at heven
    have hrest := ih (drop_pair hcs) (by omega)
    rw [half_cons_cons, List.range'_succ, List.map_cons, decodePairs, hp]
    exact .of_pass (fun e he => he.1 x hoctet) (hrest.map (x :: ·))

end Positions

/-! ## The whole text -/

/-- Behind the first two checks the characters are as many as the octets, and the positions are
those of their pairs. -/
theorem evenPositions_of_ascii {s : String} (heven : ¬ s.utf8ByteSize % 2 ≠ 0)
    (hascii : ¬ ∃ c ∈ s.toList, 128 ≤ c.toNat) :
    (∀ c ∈ s.toList, c.toNat < 128) ∧ s.toList.length % 2 = 0 ∧
      evenPositions s.utf8ByteSize = List.range' 0 (s.toList.length / 2) 2 := by
  have hlt : ∀ c ∈ s.toList, c.toNat < 128 := by
    intro c hc
    exact Nat.lt_of_not_le fun hge => hascii ⟨c, hc, hge⟩
  have hsize := utf8ByteSize_ofList hlt
  rw [String.ofList_toList] at hsize
  rw [hsize] at heven
  refine ⟨hlt, by omega, ?_⟩
  rw [evenPositions, hsize, show (s.toList.length + 1) / 2 = s.toList.length / 2 by omega]

/-- A text is read by slices as it is by its characters, so every slice is there. -/
theorem decodeSlices_eq (s : String) :
    decodeSlices s = (decode s).mapError fun e => .refused e.message := by
  rw [decodeSlices, decode]
  by_cases heven : s.utf8ByteSize % 2 ≠ 0
  · rw [if_pos heven, if_pos heven]
    rfl
  rw [if_neg heven, if_neg heven]
  by_cases hascii : s.toList.any (fun c => c.toNat ≥ 128) = true
  · rw [if_pos hascii, if_pos hascii]
    rfl
  rw [if_neg hascii, if_neg hascii]
  simp only [List.any_eq_true, decide_eq_true_eq] at hascii
  obtain ⟨hlt, hpairs, hpositions⟩ := evenPositions_of_ascii heven hascii
  rw [hpositions]
  exact mapM_octetAt hlt List.drop_zero hpairs

theorem checked_decode (s : String) : Checked (checks s) (decode s) := by
  unfold decode
  simp only [List.any_eq_true, decide_eq_true_eq]
  refine Checked.guard fun heven => Checked.guard fun hascii => ?_
  obtain ⟨hlt, hpairs, hpositions⟩ := evenPositions_of_ascii heven hascii
  rw [hpositions]
  exact checked_decodePairs hlt List.drop_zero hpairs

/-- What is written is read as the octets, in lower case and in upper case. A text that differs from
what is written in the case of letters only is one that is read as the octets without a plus sign.
Any text is read by slices as it is by its characters, so no slice is missed. It is refused as its
first check does that does not pass. -/
theorem decode_checked_by_position (s : String) (b : Bytes) :
    decode (encodeLower b) = .ok b ∧
    decode (encodeUpper b) = .ok b ∧
    (Text.sameLetters s (encodeLower b) = true ↔ decode s = .ok b ∧ '+' ∉ s.toList) ∧
    (Text.sameLetters s (encodeUpper b) = true ↔ decode s = .ok b ∧ '+' ∉ s.toList) ∧
    decodeSlices s = (decode s).mapError (fun e => .refused e.message) ∧
    (∀ position, decodeSlices s ≠ .error (.noSlice position)) ∧
    Checked (checks s) (decode s) := by
  refine ⟨decode_encodeLower b, decode_encodeUpper b, ?_, ?_, decodeSlices_eq s, ?_,
    checked_decode s⟩
  · rw [Text.sameLetters_iff_toUpper, toUpper_encodeLower, ← spells_iff_toUpper, spells_iff]
  · rw [Text.sameLetters_iff_toUpper, toUpper_encodeUpper, ← spells_iff_toUpper, spells_iff]
  · intro position h
    rw [decodeSlices_eq] at h
    obtain ⟨e, -, he⟩ := Outcome.mapError_eq_error.mp h
    cases he

-- The size is even, and the cut at offset 2 would be inside the second character.
example : decode "1é1" = .error .notAscii ∧ octetAt "1é1" 0 = .error (.noSlice 0) := ⟨rfl, rfl⟩

end Hex

end Strongbox
