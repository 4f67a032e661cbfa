/-
  Strongbox.Proofs.Json.Number — a number is passed over to its end.

  Which octets belong to a number is known only behind it: it goes on as long as there are digits,
  a point or an exponent. A text `Ends` a number when it cannot be taken for more of it. The
  scanner's parts for the fraction and the exponent are named, and there is one lemma for each.
  - `passNumber_unsigned`: a number is passed over from behind its sign.
-/

import Strongbox.Proofs.Json.Scan

namespace Strongbox.Json.Scanner

def passExponent? : Scanner Unit := do
  match (← get).head? with
  | some 101 | some 69 => passExponent
  | _ => return

def passExponentDigits : Scanner Unit := do
  match (← get) with
  | b :: rest =>
    unless isDigit b do throw .invalidNumber
    set (rest.dropWhile isDigit)
  | [] => throw .invalidNumber

def passFraction : Scanner Unit := do
  if (← get).head? == some 46 then
    take
    let s ← get
    if (s.takeWhile isDigit).isEmpty then throw .invalidNumber
    set (s.dropWhile isDigit)
  passExponent?

theorem passNumber_cons {b : UInt8} {s : Bytes} (hb : isDigit b = true)
    (h0 : ¬ (b = 48 && (s.head?.map isDigit).getD false) = true) :
    passNumber (b :: s) = passFraction (s.dropWhile isDigit) := by
  rw [passNumber, bind_ok (get_ok _)]
  show (if isDigit b = true then (if _ then _ else set (s.dropWhile isDigit) >>= fun _ =>
    passFraction) else _ : Scanner Unit) (b :: s) = _
  rw [if_pos hb, if_neg h0, bind_ok (set_ok _ _)]

theorem isDigit_decimalOctet : ∀ d : Fin 10, isDigit (decimalOctet d) = true := by decide

def Stops (s : Bytes) : Prop := ∀ b, s.head? = some b → isDigit b = false

theorem dropWhile_digits (ds : List (Fin 10)) {s : Bytes} (h : Stops s) :
    (ds.map decimalOctet ++ s).dropWhile isDigit = s := by
  rw [List.dropWhile_append_of_pos]
  · cases s with
    | nil => rfl
    | cons b s => rw [List.dropWhile_cons, h b rfl]; rfl
  · intro b hb
    obtain ⟨d, -, rfl⟩ := List.mem_map.mp hb
    exact isDigit_decimalOctet d

theorem passExponent_digits (d : Digits) {s : Bytes} (hs : Stops s) (sign : Sign) (b : UInt8) :
    passExponent (b :: (sign.octets ++ (d.octets ++ s))) = .ok ((), s) := by
  have hd : passExponentDigits (d.octets ++ s) = .ok ((), s) := by
    rw [passExponentDigits, bind_ok (get_ok _)]
    show (if isDigit (decimalOctet d.first) = true then
      set ((d.more.map decimalOctet ++ s).dropWhile isDigit) else _ : Scanner Unit) _ = _
    rw [if_pos (isDigit_decimalOctet d.first), dropWhile_digits d.more hs]
    rfl
  rw [passExponent, bind_ok (take_cons _ _)]
  cases sign with
  | none =>
    have hsign : ∀ d : Fin 10, ¬ (some (decimalOctet d) == some 45 ||
        some (decimalOctet d) == some 43) = true := by decide
    rw [Sign.octets, List.nil_append]
    show (if (some (decimalOctet d.first) == some 45 || some (decimalOctet d.first) == some 43) =
      true then _ else _ : Scanner Unit) _ = _
    rw [if_neg (hsign d.first)]
    exact hd
  | plus => exact hd
  | minus => exact hd

/-- The octets do not go on as a number might. -/
def Ends (s : Bytes) : Prop := ∀ b, s.head? = some b → isDigit b = false ∧ b ≠ 46 ∧ b ≠ 101 ∧ b ≠ 69

theorem passExponent?_takes (n : Numeral) {s : Bytes} (h : Ends s) :
    passExponent? (n.exponentOctets ++ s) = .ok ((), s) := by
  have hs : Stops s := fun b hb => (h b hb).1
  rw [passExponent?, bind_ok (get_ok _), Numeral.exponentOctets]
  cases n.exponent with
  | some e =>
    have he := passExponent_digits e.digits hs e.sign
    rw [Option.map_some, Option.getD_some, Exponent.octets, List.cons_append, List.append_assoc]
    cases e.capital with
    | true => exact he 69
    | false => exact he 101
  | none =>
    rw [Option.map_none, Option.getD_none, List.nil_append]
    refine congrFun (?_ : _ = (pure () : Scanner Unit)) s
    split
    · rename_i hb
      exact absurd rfl (h _ hb).2.2.1
    · rename_i hb
      exact absurd rfl (h _ hb).2.2.2
    · rfl

/-- An exponent begins neither as digits nor as a fraction does. -/
theorem head?_exponentOctets (n : Numeral) {s : Bytes} (h : Ends s) (b : UInt8)
    (hb : (n.exponentOctets ++ s).head? = some b) : isDigit b = false ∧ b ≠ 46 := by
  rw [Numeral.exponentOctets] at hb
  cases hn : n.exponent with
  | none =>
    rw [hn] at hb
    exact ⟨(h b hb).1, (h b hb).2.1⟩
  | some e =>
    rw [hn, Option.map_some, Option.getD_some, Exponent.octets, List.cons_append,
      List.head?_cons] at hb
    cases hb
    cases e.capital with
    | true => decide
    | false => decide

theorem stops_exponentOctets (n : Numeral) {s : Bytes} (h : Ends s) :
    Stops (n.exponentOctets ++ s) := fun b hb => (head?_exponentOctets n h b hb).1

theorem stops_fractionOctets (n : Numeral) {s : Bytes} (h : Ends s) :
    Stops (n.fractionOctets ++ (n.exponentOctets ++ s)) := by
  rw [Numeral.fractionOctets]
  cases n.fraction with
  | none => exact stops_exponentOctets n h
  | some d =>
    intro b hb
    cases hb
    rfl

theorem passFraction_takes (n : Numeral) {s : Bytes} (h : Ends s) :
    passFraction (n.fractionOctets ++ (n.exponentOctets ++ s)) = .ok ((), s) := by
  have hx := passExponent?_takes n h
  rw [passFraction, bind_ok (get_ok _), Numeral.fractionOctets]
  cases n.fraction with
  | none =>
    have hp : ¬ ((n.exponentOctets ++ s).head? == some 46) = true := by
      intro hp
      exact (head?_exponentOctets n h 46 (eq_of_beq hp)).2 rfl
    rw [Option.map_none, Option.getD_none, List.nil_append]
    exact (congrFun (if_neg hp) _).trans hx
  | some d =>
    rw [Option.map_some, Option.getD_some, List.cons_append]
    have hd : (d.octets ++ (n.exponentOctets ++ s)).dropWhile isDigit = n.exponentOctets ++ s :=
      dropWhile_digits (d.first :: d.more) (stops_exponentOctets n h)
    have ht : ((d.octets ++ (n.exponentOctets ++ s)).takeWhile isDigit).isEmpty = false := by
      rw [Digits.octets, List.cons_append, List.takeWhile_cons, isDigit_decimalOctet]
      rfl
    show (if ((d.octets ++ (n.exponentOctets ++ s)).takeWhile isDigit).isEmpty = true then _ else
      set ((d.octets ++ (n.exponentOctets ++ s)).dropWhile isDigit) >>= fun _ => passExponent? :
        Scanner Unit) (d.octets ++ (n.exponentOctets ++ s)) = _
    rw [ht, if_neg Bool.false_ne_true, hd, bind_ok (set_ok _ _), hx]

theorem passNumber_unsigned (n : Numeral) {s : Bytes} (h : Ends s) :
    passNumber (n.unsigned ++ s) = .ok ((), s) := by
  have hs := stops_fractionOctets n h
  have h0 : ¬ (decimalOctet n.whole.first = 48 && ((n.whole.more.map decimalOctet ++
      (n.fractionOctets ++ (n.exponentOctets ++ s))).head?.map isDigit).getD false) = true := by
    intro h0
    obtain ⟨hz, hd⟩ := Bool.and_eq_true_iff.mp h0
    have hzero : ∀ d : Fin 10, decimalOctet d = 48 → d = 0 := by decide
    rw [n.alone (hzero _ (of_decide_eq_true hz)), List.map_nil, List.nil_append] at hd
    cases hh : (n.fractionOctets ++ (n.exponentOctets ++ s)).head? with
    | none => rw [hh] at hd; cases hd
    | some b =>
      rw [hh, Option.map_some, Option.getD_some, hs b hh] at hd
      cases hd
  rw [Numeral.unsigned, Digits.octets, List.cons_append, List.cons_append, List.append_assoc,
    List.append_assoc, passNumber_cons (isDigit_decimalOctet _) h0, dropWhile_digits _ hs,
    passFraction_takes n h]

end Strongbox.Json.Scanner
