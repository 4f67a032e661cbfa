/-
  Strongbox.Proofs.Pem — armoured octets read back.

  The octets of the body are its text without the line ends, since no symbol is one, and what
  stands at the end of a line is read off before the next line begins. A body can be decoded from
  the front: it is cut between groups of four symbols, so what is decoded is the front of the
  octets.
  - `block?_render`: the block of a written text.
  - `decodeFirst?_encodeOctets`: a body decoded from the front.
-/

import Strongbox.Pem
import Strongbox.Proofs.Text.Base64

namespace Strongbox.Pem

/-! ## Lines -/

def lines (b : Bytes) : Bytes := (Bytes.chunks 64 b).flatMap (· ++ [10])

def innerLines (b : Bytes) : Bytes := (lines b).dropLast

theorem lines_of_le {b : Bytes} (hne : b ≠ []) (h : b.length ≤ 64) : lines b = b ++ [10] := by
  obtain ⟨x, b, rfl⟩ := List.exists_cons_of_ne_nil hne
  have hdrop : b.drop 63 = [] := by
    rw [List.drop_eq_nil_iff]
    simp only [List.length_cons] at h
    omega
  rw [lines, Bytes.chunks, if_neg (by decide), List.take_of_length_le h, hdrop, Bytes.chunks]
  simp

theorem lines_of_lt {b : Bytes} (h : 64 < b.length) :
    lines b = b.take 64 ++ 10 :: lines (b.drop 64) := by
  cases b with
  | nil => cases h
  | cons x b =>
    rw [lines, Bytes.chunks, if_neg (by decide), List.flatMap_cons, List.append_assoc]
    rfl

/-- A body is one line, or a full line and a body. -/
theorem body_induction {p : (b : Bytes) → b ≠ [] → Prop}
    (last : ∀ b (hne : b ≠ []), b.length ≤ 64 → p b hne)
    (more : ∀ b (hne : b ≠ []) (hrest : b.drop 64 ≠ []), 64 < b.length → p (b.drop 64) hrest →
      p b hne) (b : Bytes) (hne : b ≠ []) : p b hne := by
  generalize hn : b.length = n
  induction n using Nat.strongRecOn generalizing b with
  | ind n ih =>
    by_cases h : b.length ≤ 64
    · exact last b hne h
    · have hlen : (b.drop 64).length = b.length - 64 := List.length_drop
      have hrest : b.drop 64 ≠ [] := by
        rw [← List.length_pos_iff]
        omega
      exact more b hne hrest (by omega) (ih _ (by omega) _ hrest rfl)

theorem mem_of_mem_lines {b : Bytes} {x : UInt8} (h : x ∈ lines b) : x ∈ b ∨ x = 10 := by
  by_cases hne : b = []
  · rw [hne, lines, Bytes.chunks] at h
    cases h
  · induction b, hne using body_induction with
    | last b hne hle =>
      rw [lines_of_le hne hle, List.mem_append, List.mem_singleton] at h
      exact h
    | more b hne hrest hlt ih =>
      rw [lines_of_lt hlt, List.mem_append, List.mem_cons] at h
      rcases h with h | h | h
      · exact .inl (List.mem_of_mem_take h)
      · exact .inr h
      · exact (ih h).imp_left List.mem_of_mem_drop

theorem lines_eq {b : Bytes} (hne : b ≠ []) : lines b = innerLines b ++ [10] := by
  have hend : ∃ c, lines b = c ++ [10] := by
    induction b, hne using body_induction with
    | last b hne h => exact ⟨b, lines_of_le hne h⟩
    | more b hne hrest h ih =>
      obtain ⟨c, hc⟩ := ih
      exact ⟨b.take 64 ++ 10 :: c, by rw [lines_of_lt h, hc]; simp⟩
  obtain ⟨c, hc⟩ := hend
  rw [innerLines, hc, List.dropLast_concat]

theorem innerLines_of_le {b : Bytes} (hne : b ≠ []) (h : b.length ≤ 64) : innerLines b = b := by
  rw [innerLines, lines_of_le hne h, List.dropLast_concat]

theorem innerLines_of_lt {b : Bytes} (h : 64 < b.length) :
    innerLines b = b.take 64 ++ 10 :: innerLines (b.drop 64) := by
  have hrest : b.drop 64 ≠ [] := by
    rw [← List.length_pos_iff, List.length_drop]
    omega
  have hl := lines_of_lt h
  rw [lines_eq hrest, ← List.cons_append, ← List.append_assoc] at hl
  rw [innerLines, hl, List.dropLast_concat]

theorem innerLines_ne_nil {b : Bytes} (hne : b ≠ []) : innerLines b ≠ [] := by
  by_cases h : b.length ≤ 64
  · rw [innerLines_of_le hne h]
    exact hne
  · rw [innerLines_of_lt (by omega)]
    simp

theorem beforeLineEnd?_eq_none {r : Bytes} (h : ∀ x, r.head? = some x → x ≠ 10 ∧ x ≠ 13) :
    beforeLineEnd? r = none := by
  cases r with
  | nil => rfl
  | cons x r =>
    obtain ⟨h10, h13⟩ := h x rfl
    rw [beforeLineEnd?]
    · intro r' hr
      exact h10 (List.cons.inj hr).1
    · intro r' hr
      exact h10 (List.cons.inj hr).1
    · intro r' hr
      exact h13 (List.cons.inj hr).1

/-- Octets that do not end a line are joined from their lines. -/
theorem joinLines?_innerLines {b : Bytes} (hne : b ≠ []) (hb : ∀ x ∈ b, x ≠ 10 ∧ x ≠ 13)
    {fuel : Nat} (hfuel : b.length < fuel) : joinLines? fuel (innerLines b) = some b := by
  induction fuel generalizing b with
  | zero => cases hfuel
  | succ fuel ih =>
    by_cases h : b.length ≤ 64
    · have hend : beforeLineEnd? b.reverse = none :=
        beforeLineEnd?_eq_none fun x hx => hb x (List.mem_reverse.mp (List.mem_of_mem_head? hx))
      rw [innerLines_of_le hne h, joinLines?, List.drop_eq_nil_iff.mpr h]
      simp only [hend, Option.getD_none, List.reverse_reverse]
    · have htake : (b.take 64).length = 64 := List.length_take_of_le (by omega)
      have hlen : (b.drop 64).length = b.length - 64 := List.length_drop
      have hrest : b.drop 64 ≠ [] := by
        rw [← List.length_pos_iff]
        omega
      have hmore := ih hrest (fun x hx => hb x (List.mem_of_mem_drop hx)) (by omega)
      rw [innerLines_of_lt (by omega), joinLines?, List.take_left' htake, List.drop_left' htake]
      simp only [afterLineEnd?, Option.bind_eq_bind, Option.bind_some,
        if_neg (innerLines_ne_nil hrest), hmore, Option.map_some, List.take_append_drop]

theorem mem_of_getLast?_innerLines {b : Bytes} (hne : b ≠ []) {x : UInt8}
    (h : (innerLines b).getLast? = some x) : x ∈ b := by
  induction b, hne using body_induction with
  | last b hne hle =>
    rw [innerLines_of_le hne hle] at h
    exact List.mem_of_getLast? h
  | more b hne hrest hlt ih =>
    rw [innerLines_of_lt hlt, List.getLast?_append, List.getLast?_cons] at h
    obtain ⟨y, hy⟩ := Option.isSome_iff_exists.mp
      (List.getLast?_isSome.mpr (innerLines_ne_nil hrest))
    rw [hy] at h
    exact List.mem_of_mem_drop (ih (by rw [hy]; simpa using h))

theorem length_le_innerLines {b : Bytes} (hne : b ≠ []) : b.length ≤ (innerLines b).length := by
  induction b, hne using body_induction with
  | last b hne h => exact Nat.le_of_eq (by rw [innerLines_of_le hne h])
  | more b hne hrest h ih =>
    rw [innerLines_of_lt h, List.length_append, List.length_cons, List.length_take_of_le (by omega)]
    rw [List.length_drop] at ih
    omega

/-! ## Blocks -/

/-- Octets that are read as a label, as far as the hyphen behind them. -/
def IsLabel (label : Bytes) : Prop := labelLength? 0 false (label ++ [45]) = some label.length

instance (label : Bytes) : Decidable (IsLabel label) := inferInstanceAs (Decidable (_ = _))

/-- What stands behind the hyphen makes no difference to a label. -/
theorem labelLength?_congr (n : Nat) (afterBlank : Bool) (label rest rest' : Bytes) :
    labelLength? n afterBlank (label ++ 45 :: rest) =
      labelLength? n afterBlank (label ++ 45 :: rest') := by
  induction label generalizing n afterBlank with
  | nil => rfl
  | cons x label ih => simp only [List.cons_append, labelLength?, ih]

theorem labelLength?_append {label : Bytes} (h : IsLabel label) (rest : Bytes) :
    labelLength? 0 false (label ++ 45 :: rest) = some label.length := by
  rw [labelLength?_congr 0 false label rest []]
  exact h

theorem startsWith_append (start rest : Bytes) : startsWith (start ++ rest) start = true :=
  List.isPrefixOf_iff_prefix.mpr (List.prefix_append start rest)

theorem dropEnding?_append (ending rest : Bytes) :
    dropEnding? ending (ending ++ rest) = some rest := by
  rw [dropEnding?, if_pos (startsWith_append ending rest), List.drop_left]

theorem dashes_eq : dashes = [45, 45, 45, 45, 45] := by rfl

theorem beforeLineEnd?_cons {r : Bytes} (h : ∀ x, r.head? = some x → x ≠ 13) :
    beforeLineEnd? (10 :: r) = some r := by
  rw [beforeLineEnd?]
  rintro r' rfl
  exact h 13 rfl rfl

theorem split?_between {label : String} (hlabel : IsLabel (ascii label)) {inner : Bytes}
    (hinner : ∀ x, inner.getLast? = some x → x ≠ 13) :
    split? (opening ++ (ascii label ++ (dashes ++ 10 :: (inner ++ 10 :: (closing ++
      (ascii label ++ (dashes ++ [10]))))))) = some (label, inner) := by
  have hhead (rest : Bytes) : labelLength? 0 false (ascii label ++ (dashes ++ rest)) =
      some (ascii label).length := by
    rw [dashes_eq, List.cons_append, labelLength?_append hlabel]
  have hreverse : (inner ++ 10 :: (closing ++ (ascii label ++ (dashes ++ [10])))).reverse =
      10 :: (dashes ++ ((ascii label).reverse ++ (closing.reverse ++ 10 :: inner.reverse))) := by
    rw [dashes_eq]
    simp only [List.reverse_append, List.reverse_cons, List.reverse_nil, List.append_assoc,
      List.nil_append, List.cons_append]
  have hlast (rest : Bytes) : beforeLineEnd? (10 :: (dashes ++ rest)) = some (dashes ++ rest) := by
    refine beforeLineEnd?_cons fun x hx => ?_
    rw [dashes_eq] at hx
    cases hx
    decide
  have hbody : beforeLineEnd? (10 :: inner.reverse) = some inner.reverse := by
    refine beforeLineEnd?_cons fun x hx => ?_
    rw [List.head?_reverse] at hx
    exact hinner x hx
  rw [split?, if_pos (startsWith_append _ _)]
  simp only [Option.bind_eq_bind, Option.bind_some, List.drop_left, hhead, List.take_left,
    startsWith_append, Bool.not_true, Bool.false_eq_true, if_false, afterLineEnd?, hreverse, hlast,
    Option.getD_some, dropEnding?_append, hbody, List.reverse_reverse]
  rw [ascii, Bytes.toString?_ofString]
  rfl

theorem render_eq (label : String) (b : Bytes) :
    render label b =
      opening ++ (ascii label ++ (dashes ++ 10 :: (lines (Base64.encodeOctets b) ++
        (closing ++ (ascii label ++ (dashes ++ [10])))))) := by
  simp only [render, lines, Base64.ofString_encode, List.append_assoc, List.cons_append,
    List.nil_append]

theorem ascii_of_mem_render {label : String} (hlabel : ∀ x ∈ ascii label, x.toNat < 128)
    {b : Bytes} {x : UInt8} (h : x ∈ render label b) : x.toNat < 128 := by
  have hopening : ∀ x ∈ opening, x.toNat < 128 := by decide +kernel
  have hclosing : ∀ x ∈ closing, x.toNat < 128 := by decide +kernel
  have hdashes : ∀ x ∈ dashes, x.toNat < 128 := by decide +kernel
  have hbody : ∀ x ∈ Base64.encodeOctets b, x.toNat < 128 :=
    Base64.forall_mem_encodeOctets (p := fun x => x.toNat < 128) (by decide) (by decide) b
  simp only [render_eq, List.mem_append, List.mem_cons, List.not_mem_nil, or_false] at h
  rcases h with h | h | h | rfl | h | h | h | h | rfl
  · exact hopening x h
  · exact hlabel x h
  · exact hdashes x h
  · decide
  · rcases mem_of_mem_lines h with h | rfl
    · exact hbody x h
    · decide
  · exact hclosing x h
  · exact hlabel x h
  · exact hdashes x h
  · decide

theorem split?_render {label : String} (hlabel : IsLabel (ascii label)) {b : Bytes} (hb : b ≠ []) :
    split? (render label b) = some (label, innerLines (Base64.encodeOctets b)) := by
  have hne := Base64.encodeOctets_ne_nil hb
  rw [render_eq, lines_eq hne, List.append_assoc]
  refine split?_between hlabel fun x hx => ?_
  exact (Base64.ne_lineEnd_of_mem_encodeOctets (mem_of_getLast?_innerLines hne hx)).2

theorem block?_render {label : String} (hlabel : IsLabel (ascii label)) {b : Bytes} (hb : b ≠ []) :
    block? (render label b) = some ⟨label, Base64.encodeOctets b⟩ := by
  have hne := Base64.encodeOctets_ne_nil hb
  have hmod : (Base64.encodeOctets b).length % 4 = 0 := by
    rw [Base64.length_encodeOctets, Nat.mul_mod_left]
  have hjoin := joinLines?_innerLines hne (fun x hx => Base64.ne_lineEnd_of_mem_encodeOctets hx)
    (Nat.lt_succ_of_le (length_le_innerLines hne))
  rw [block?, split?_render hlabel hb]
  simp only [Option.bind_eq_bind, Option.bind_some, hjoin, hne, hmod, ne_eq, not_true_eq_false,
    or_self, if_false]

theorem opening_eq_append : opening = ascii "-----BEGIN" ++ [32] := by rfl

theorem looksLike_of_startsWith {b : Bytes} (h : startsWith b (ascii "-----BEGIN") = true) :
    looksLike b = true := by
  have hbegin : ascii "-----BEGIN" = 45 :: [45, 45, 45, 45, 66, 69, 71, 73, 78] := by rfl
  obtain ⟨rest, hb⟩ := List.isPrefixOf_iff_prefix.mp h
  rw [hbegin, List.cons_append] at hb
  rw [looksLike, ← hb, List.dropWhile_cons_of_neg (by decide), hb]
  exact h

theorem looksLike_opening (b : Bytes) : looksLike (opening ++ b) = true := by
  rw [opening_eq_append, List.append_assoc]
  exact looksLike_of_startsWith (startsWith_append _ _)

theorem startsWith_render (label : String) (b : Bytes) :
    startsWith (render label b) (ascii "-----BEGIN") = true := by
  rw [render_eq, opening_eq_append, List.append_assoc]
  exact startsWith_append _ _

theorem looksLike_render (label : String) (b : Bytes) : looksLike (render label b) = true :=
  looksLike_of_startsWith (startsWith_render label b)

/-! ## Bodies -/

section Bodies

variable (label : String) {b : Bytes}

theorem decode?_encodeOctets : Block.decode? ⟨label, Base64.encodeOctets b⟩ = some b := by
  rw [Block.decode?, Base64.decodeBytes_encodeOctets]
  rfl

/-- The length is known from the last group alone. -/
theorem decodedLength?_encodeOctets (hb : b ≠ []) :
    Block.decodedLength? ⟨label, Base64.encodeOctets b⟩ = some b.length := by
  have hpos : 0 < b.length := List.length_pos_iff.mpr hb
  obtain ⟨k, hk⟩ : ∃ k, k = (b.length - 1) / 3 * 3 := ⟨_, rfl⟩
  have hlen := Base64.length_encodeOctets b
  have hstart : (Base64.encodeOctets b).length - 4 = k / 3 * 4 := by omega
  have hlast := (Base64.encodeOctets_cut (show k % 3 = 0 by omega)
    (show k ≤ b.length by omega)).2
  rw [Block.decodedLength?, hstart, hlast, Base64.decodeBytes_encodeOctets]
  simp only [Option.some.injEq, List.length_drop, hlen]
  omega

/-- What is decoded from the front is the front of the octets. -/
theorem decodeFirst?_encodeOctets (hb : b ≠ []) (n : Nat) :
    ∃ m, n ≤ m ∧ Block.decodeFirst? ⟨label, Base64.encodeOctets b⟩ n = some (b.take m) := by
  have hlen := Base64.length_encodeOctets b
  simp only [Block.decodeFirst?, decodedLength?_encodeOctets label hb, Option.bind_eq_bind,
    Option.bind_some, decode?_encodeOctets]
  by_cases hn : n ≥ b.length
  · exact ⟨n, Nat.le_refl n, by rw [if_pos hn, List.take_of_length_le hn]⟩
  rw [if_neg hn, List.length_take]
  by_cases hall : min ((n + 2) / 3 * 4) (Base64.encodeOctets b).length =
      (Base64.encodeOctets b).length
  · exact ⟨b.length, by omega, by rw [if_pos hall, List.take_length]⟩
  -- The cut is between groups, so the symbols before it are those of the octets before it.
  obtain ⟨k, hk⟩ : ∃ k, k = (n + 2) / 3 * 3 := ⟨_, rfl⟩
  have hle : k ≤ b.length := by omega
  have hmod : (b.take k).length % 3 = 0 := by
    rw [List.length_take_of_le hle]
    omega
  have hend : (n + 2) / 3 * 4 = k / 3 * 4 := by omega
  have hfront := (Base64.encodeOctets_cut (show k % 3 = 0 by omega) hle).1
  have hpad : (Base64.encodeOctets (b.take k)).contains Base64.pad = false := by
    rw [List.contains_eq_mem, decide_eq_false_iff_not]
    exact Base64.pad_not_mem_encodeOctets hmod
  refine ⟨k, by omega, ?_⟩
  rw [if_neg hall, hend, hfront, hpad, Base64.decodeBytes_encodeOctets]
  rfl

end Bodies

end Strongbox.Pem
