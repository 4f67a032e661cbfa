/-
  Strongbox.Proofs.Der.Value — how primitive values are written, as far as they are read.

  Numbers, strings of bits and octets, identifiers and times have one writing each. A truth value
  that is false may be written or left out, and in front of an optional element with a
  context-specific number there may be elements with lower ones, which reading passes over.
  - `reads_integer`, `reads_bitString`, `reads_objectIdentifier`, `reads_time`, …: values with one
    writing.
  - `reads_booleanOrFalse`: a truth value with its spellings.
  - `reads_contextValue?`, `reads_contextBitString?`: optional elements with what stands before
    them.
-/

import Strongbox.Der.Time
import Strongbox.Der.Value
import Strongbox.Proofs.Bytes
import Strongbox.Proofs.Der.Element

namespace Strongbox.Der

open Der.Parser

/-! ## Numbers -/

theorem reads_integer : integer.Reads id encodeInteger := by
  intro b c rest h
  obtain ⟨d, mid, hd, hc⟩ := bind_eq_some.mp h
  split at hc
  · obtain ⟨rfl, rfl⟩ := pure_eq_some.mp hc
    exact ⟨c, rfl, (reads_contentOf _).eq hd⟩
  · cases hc

theorem isCanonical_of_integer {b c rest : Bytes} (h : integer b = some (c, rest)) :
    isCanonicalInteger c = true := by
  obtain ⟨d, mid, hd, hc⟩ := bind_eq_some.mp h
  split at hc
  · rename_i hcan
    obtain ⟨rfl, rfl⟩ := pure_eq_some.mp hc
    exact hcan
  · cases hc

theorem eq_singleton_of_toNat_lt {c : Bytes} (hc : isCanonicalInteger c = true)
    (hlt : c.toNat < 128) : c = [UInt8.ofNat c.toNat] := by
  match c with
  | [] => cases hc
  | [x] =>
    have hx : Bytes.toNat [x] = x.toNat := by simp [Bytes.toNat]
    rw [hx, UInt8.ofNat_toNat]
  | x :: y :: rest =>
    exfalso
    have hcap : 1 ≤ Bytes.capacity rest.length := by
      rw [Bytes.capacity_eq]
      exact Nat.one_le_two_pow
    rw [Bytes.toNat_cons, Bytes.toNat_cons, List.length_cons, Bytes.capacity] at hlt
    have hx : x.toNat = 0 := by
      by_contra hx
      have : 1 * (256 * Bytes.capacity rest.length) ≤
          x.toNat * (256 * Bytes.capacity rest.length) :=
        Nat.mul_le_mul_right _ (Nat.pos_of_ne_zero hx)
      omega
    have hy : y.toNat < 128 := by
      by_contra hy
      have : 128 * Bytes.capacity rest.length ≤ y.toNat * Bytes.capacity rest.length :=
        Nat.mul_le_mul_right _ (Nat.not_lt.mp hy)
      omega
    have hx0 : x = 0 := UInt8.toNat_inj.mp hx
    have hy' : y < 0x80 := UInt8.lt_iff_toNat_lt.mpr hy
    rw [isCanonicalInteger, hx0] at hc
    simp [hy'] at hc

/-- A word is written on one octet when it is small. -/
theorem eq_encodeInteger_of_word {bits n : Nat} {b rest : Bytes}
    (h : word bits b = some (n, rest)) (hn : n < 128) :
    b = encodeInteger [UInt8.ofNat n] ++ rest := by
  obtain ⟨m, mid, hm, hw⟩ := bind_eq_some.mp h
  obtain ⟨c, mid', hc, hv⟩ := bind_eq_some.mp hm
  split at hv
  · obtain ⟨rfl, rfl⟩ := pure_eq_some.mp hv
    split at hw
    · obtain ⟨rfl, rfl⟩ := pure_eq_some.mp hw
      rw [← eq_singleton_of_toNat_lt (isCanonical_of_integer hc) hn]
      exact reads_integer.eq hc
    · cases hw
  · cases hv

/-! ## Truth values -/

def booleanOf (content : Bytes) : Parser Bool :=
  match content with
  | [0x00] => return false
  | [0xFF] => return true
  | _ => failure

theorem booleanOf_eq_failure {content : Bytes} (hf : content ≠ [0x00]) (ht : content ≠ [0xFF]) :
    booleanOf content = failure := by
  unfold booleanOf
  split
  · exact absurd rfl hf
  · exact absurd rfl ht
  · rfl

theorem reads_boolean : boolean.Reads id encodeBoolean := by
  intro b v rest h
  obtain ⟨c, mid, hc, hv⟩ := bind_eq_some.mp h
  have hb := (reads_contentOf _).eq hc
  by_cases hf : c = [0x00]
  · subst hf
    obtain ⟨rfl, rfl⟩ := pure_eq_some.mp hv
    exact ⟨false, rfl, hb⟩
  by_cases ht : c = [0xFF]
  · subst ht
    obtain ⟨rfl, rfl⟩ := pure_eq_some.mp hv
    exact ⟨true, rfl, hb⟩
  cases (congrFun (booleanOf_eq_failure hf ht) mid).symm.trans hv

/-- A truth value may be left out when it is false. -/
theorem reads_booleanOrFalse :
    booleanOrFalse.Reads (fun v : Option Bool => v.getD false)
      fun v => (v.map encodeBoolean).getD [] := by
  intro b v rest h
  rw [booleanOrFalse, get_bind_eq] at h
  split at h
  · exact ⟨some v, rfl, reads_boolean.eq h⟩
  · obtain ⟨rfl, rfl⟩ := pure_eq_some.mp h
    exact ⟨none, rfl, rfl⟩

/-! ## Strings and identifiers -/

theorem eq_content_of_ofContent? {c : Bytes} {s : BitString}
    (h : BitString.ofContent? c = some s) : c = s.content := by
  cases c with
  | nil => cases h
  | cons u b =>
    rw [BitString.ofContent?] at h
    split at h
    · cases h
    · cases h
      rfl

theorem reads_bitString : bitString.Reads id BitString.encode := by
  intro b s rest h
  obtain ⟨c, mid, hc, hs⟩ := bind_eq_some.mp h
  cases ho : BitString.ofContent? c with
  | none =>
    rw [ho] at hs
    cases hs
  | some s' =>
    rw [ho] at hs
    obtain ⟨rfl, rfl⟩ := pure_eq_some.mp hs
    rw [eq_content_of_ofContent? ho] at hc
    exact ⟨s, rfl, (reads_contentOf _).eq hc⟩

theorem reads_octetString : octetString.Reads id (wrap Tag.octetString) := reads_contentOf _

theorem reads_objectIdentifier : objectIdentifier.Reads id Oid.encode := by
  intro b o rest h
  obtain ⟨c, mid, hc, ho⟩ := bind_eq_some.mp h
  split at ho
  · obtain ⟨rfl, rfl⟩ := pure_eq_some.mp ho
    exact ⟨⟨c⟩, rfl, (reads_contentOf _).eq hc⟩
  · cases ho

theorem reads_element : element.Reads id Element.encode := by
  intro b e rest h
  exact ⟨e, rfl, (readElement_eq_some.mp h).2⟩

theorem reads_algorithmIdentifier : algorithmIdentifier.Reads id AlgorithmIdentifier.encode := by
  refine Reads.inside ?_ Tag.sequence
  intro b a rest h
  obtain ⟨o, mid, ho, ha⟩ := bind_eq_some.mp h
  have hb := reads_objectIdentifier.eq ho
  rw [get_bind_eq] at ha
  split at ha
  · obtain ⟨rfl, rfl⟩ := pure_eq_some.mp ha
    exact ⟨⟨o, none⟩, rfl, by simpa using hb⟩
  · obtain ⟨e, mid', he, hp⟩ := bind_eq_some.mp ha
    obtain ⟨rfl, rfl⟩ := pure_eq_some.mp hp
    refine ⟨⟨o, some e⟩, rfl, ?_⟩
    rw [hb, reads_element.eq he]
    simp

theorem objectIdentifier_encode {o : Oid} (h : o.arcs?.isSome = true)
    (ho : o.octets.length < lengthLimit) (rest : Bytes) :
    objectIdentifier (o.encode ++ rest) = some (o, rest) := by
  refine bind_eq_some.mpr ⟨o.octets, rest, contentOf_wrap (by decide) ho rest, ?_⟩
  simp only [h, if_pos]
  rfl

/-- Reading accepts the algorithm: its name is well formed, and so are its parameters. -/
structure AlgorithmIdentifier.IsReadable (a : AlgorithmIdentifier) : Prop where
  arcs : a.algorithm.arcs?.isSome = true
  parameters : ∀ e, a.parameters = some e → e.IsReadable
  length_lt : a.encode.length < lengthLimit

theorem algorithmIdentifier_encode {a : AlgorithmIdentifier} (h : a.IsReadable) (rest : Bytes) :
    algorithmIdentifier (a.encode ++ rest) = some (a, rest) := by
  obtain ⟨algorithm, parameters⟩ := a
  obtain ⟨harcs, hparameters, hlength⟩ := h
  have hcontent := length_lt_of_wrap hlength
  simp only at harcs hparameters hcontent
  have hoid : (wrap Tag.objectIdentifier algorithm.octets).length < lengthLimit := by
    rw [List.length_append] at hcontent
    exact Nat.lt_of_add_right_lt hcontent
  have hread := objectIdentifier_encode harcs (length_lt_of_wrap hoid)
  refine inside_wrap (by decide) hcontent (whole_eq_some.mpr ?_) rest
  refine bind_eq_some.mpr ⟨algorithm, _, hread _, ?_⟩
  cases parameters with
  | none => rfl
  | some e =>
    obtain ⟨hknown, hlt⟩ := hparameters e rfl
    have he := readElement_encode e [] hknown hlt
    rw [List.append_nil] at he
    have hne : ¬e.encode.isEmpty = true := Bool.false_ne_true
    rw [Option.map_some, Option.getD_some, get_bind_eq, if_neg hne]
    exact bind_eq_some.mpr ⟨e, [], he, rfl⟩

/-! ## Times -/

namespace Time

theorem eq_of_pairs? {b : Bytes} {ns : List Nat} (h : pairs? b = some ns) :
    b = ns.flatMap (fun n => [UInt8.ofNat (48 + n / 10), UInt8.ofNat (48 + n % 10)]) ∧
      ∀ n ∈ ns, n < 100 := by
  induction b using pairs?.induct generalizing ns with
  | case1 =>
    cases h
    exact ⟨rfl, nofun⟩
  | case2 => cases h
  | case3 x y rest hd ih =>
    rw [pairs?, if_pos hd] at h
    obtain ⟨ms, hms, rfl⟩ := Option.map_eq_some_iff.mp h
    obtain ⟨hrest, hlt⟩ := ih hms
    obtain ⟨hx, hx', hy, hy'⟩ := hd
    rw [UInt8.le_iff_toNat_le] at hx hx' hy hy'
    simp only [UInt8.reduceToNat] at hx hx' hy hy'
    have h10 : 48 + ((x.toNat - 48) * 10 + (y.toNat - 48)) / 10 = x.toNat := by omega
    have h1 : 48 + ((x.toNat - 48) * 10 + (y.toNat - 48)) % 10 = y.toNat := by omega
    refine ⟨?_, ?_⟩
    · rw [List.flatMap_cons, h10, h1, UInt8.ofNat_toNat, UInt8.ofNat_toNat, ← hrest]
      rfl
    · rw [List.forall_mem_cons]
      exact ⟨by omega, hlt⟩
  | case4 x y rest hd =>
    rw [pairs?, if_neg hd] at h
    cases h

theorem eq_content_of_numbers? {b : Bytes} {ns : List Nat} (h : numbers? b = some ns) :
    b = content ns ∧ ∀ n ∈ ns, n < 100 := by
  rw [numbers?] at h
  split at h
  · rename_i hz
    obtain ⟨hb, hlt⟩ := eq_of_pairs? h
    refine ⟨?_, hlt⟩
    have hne : b ≠ [] := by
      rintro rfl
      cases hz
    rw [content, ← hb]
    rw [List.getLast?_eq_some_getLast hne, Option.some.injEq] at hz
    rw [← hz, List.dropLast_concat_getLast]
  · cases h

/-- A time is written in one way in each form. -/
theorem encode_of_ofElement? {e : Element} {t : Time} (h : ofElement? e = some t) :
    e.encode = t.encode := by
  obtain ⟨tag, c⟩ := e
  rw [ofElement?] at h
  split at h
  · rename_i ht
    simp only at ht h
    subst ht
    split at h
    · rename_i y m d hh n s hns
      obtain ⟨rfl, hlt⟩ := eq_content_of_numbers? hns
      simp only [List.forall_mem_cons] at hlt
      obtain ⟨-, ht⟩ := Option.ite_none_right_eq_some.mp h
      cases ht
      have hy : (if y ≥ 50 then 1900 + y else 2000 + y) % 100 = y := by
        split <;> omega
      rw [encode, hy]
      rfl
    · cases h
  · split at h
    · rename_i ht
      simp only at ht h
      subst ht
      split at h
      · rename_i cc y m d hh n s hns
        obtain ⟨rfl, hlt⟩ := eq_content_of_numbers? hns
        simp only [List.forall_mem_cons] at hlt
        obtain ⟨-, ht⟩ := Option.ite_none_right_eq_some.mp h
        cases ht
        have hc : (100 * cc + y) / 100 = cc := by omega
        have hy : (100 * cc + y) % 100 = y := by omega
        rw [encode, hc, hy]
        rfl
      · cases h
    · cases h

end Time

theorem reads_time : time.Reads id Time.encode := by
  intro b t rest h
  obtain ⟨e, mid, he, ht⟩ := bind_eq_some.mp h
  cases ho : Time.ofElement? e with
  | none =>
    rw [ho] at ht
    cases ht
  | some t' =>
    rw [ho] at ht
    obtain ⟨rfl, rfl⟩ := pure_eq_some.mp ht
    exact ⟨t, rfl, by rw [← Time.encode_of_ofElement? ho, reads_element.eq he]⟩

/-! ## Optional elements -/

/-- Elements that reading passes over in front of one with the number `n`: those with lower
context-specific numbers. -/
structure Passed (n : Nat) where
  elements : List Element
  lower : ∀ e ∈ elements, ∃ k < n, Tag.contextNumber? e.tag = some k

namespace Passed

def none (n : Nat) : Passed n := ⟨[], nofun⟩

def encode (p : Passed n) : Bytes := p.elements.flatMap Element.encode

theorem shortens (p : Passed n) : Shortens [] p.encode (p.elements = []) := by
  refine ⟨Nat.zero_le _, ?_⟩
  rw [encode]
  cases p.elements with
  | nil => simp
  | cons e es => simp [Element.encode]

end Passed

theorem discard_eq_some {p : Parser α} {b rest : Bytes} {u : Unit}
    (h : discard p b = some (u, rest)) : ∃ a, p b = some (a, rest) := by
  have hb : discard p b = (p b).bind fun r => some ((), r.2) := rfl
  rw [hb, Option.bind_eq_some_iff] at h
  obtain ⟨⟨a, mid⟩, ha, hr⟩ := h
  cases hr
  exact ⟨a, ha⟩

theorem exists_passed {n fuel : Nat} {b rest : Bytes} {found : Bool}
    (h : passContext n fuel b = some (found, rest)) :
    ∃ p : Passed n, b = p.encode ++ rest ∧
      (found = true → rest.head?.bind Tag.contextNumber? = some n) := by
  induction fuel generalizing b with
  | zero =>
    obtain ⟨rfl, rfl⟩ := pure_eq_some.mp h
    exact ⟨.none n, rfl, nofun⟩
  | succ fuel ih =>
    rw [passContext, get_bind_eq] at h
    cases hk : b.head?.bind Tag.contextNumber? with
    | none =>
      rw [hk] at h
      obtain ⟨rfl, rfl⟩ := pure_eq_some.mp h
      exact ⟨.none n, rfl, nofun⟩
    | some k =>
      rw [hk] at h
      simp only at h
      split at h
      · rename_i he
        obtain ⟨rfl, rfl⟩ := pure_eq_some.mp h
        exact ⟨.none n, rfl, fun _ => he ▸ hk⟩
      · split at h
        · obtain ⟨rfl, rfl⟩ := pure_eq_some.mp h
          exact ⟨.none n, rfl, nofun⟩
        · rename_i hne hgt
          obtain ⟨u, mid, hd, hp⟩ := bind_eq_some.mp h
          obtain ⟨e, he⟩ := discard_eq_some hd
          obtain ⟨p, hmid, hfound⟩ := ih hp
          have hb := reads_element.eq he
          have hek : Tag.contextNumber? e.tag = some k := by
            rw [hb] at hk
            exact hk
          refine ⟨⟨e :: p.elements, ?_⟩, ?_, hfound⟩
          · rw [List.forall_mem_cons]
            exact ⟨⟨k, by omega, hek⟩, p.lower⟩
          · rw [hb, hmid, ← List.append_assoc]
            rfl

theorem exists_passed_of_context? {n : Nat} {b rest : Bytes} {o : Option Element}
    (h : context? n b = some (o, rest)) :
    ∃ p : Passed n, b = p.encode ++ (o.map Element.encode).getD [] ++ rest ∧
      ∀ e, o = some e → Tag.contextNumber? e.tag = some n := by
  rw [context?, get_bind_eq] at h
  obtain ⟨found, mid, hp, hc⟩ := bind_eq_some.mp h
  obtain ⟨p, hb, hfound⟩ := exists_passed hp
  cases found with
  | false =>
    obtain ⟨rfl, rfl⟩ := pure_eq_some.mp hc
    exact ⟨p, by simpa using hb, nofun⟩
  | true =>
    obtain ⟨e, mid', he, ho⟩ := bind_eq_some.mp hc
    obtain ⟨rfl, rfl⟩ := pure_eq_some.mp ho
    have hmid := reads_element.eq he
    refine ⟨p, by rw [hb, hmid]; simp, ?_⟩
    intro e' he'
    cases he'
    have hk := hfound rfl
    rw [hmid] at hk
    exact hk

/-- The number and the form of an element give its tag. -/
theorem eq_of_contextNumber? {t : UInt8} {n : Nat} (h : Tag.contextNumber? t = some n) :
    t = (if Tag.isConstructed t then 0xA0 else 0x80) + UInt8.ofNat n := by
  have hall : ∀ t < 256, (Tag.contextNumber? (UInt8.ofNat t)).all (fun n =>
      UInt8.ofNat t == (if Tag.isConstructed (UInt8.ofNat t) then 0xA0 else 0x80) + UInt8.ofNat n)
        = true := by
    decide +kernel
  have ht := hall t.toNat t.toNat_lt
  rw [UInt8.ofNat_toNat, h, Option.all_some, beq_iff_eq] at ht
  exact ht

theorem reads_contextBitString? (n : Nat) :
    (contextBitString? n).Reads (fun s : Passed n × Option BitString => s.2)
      fun s => s.1.encode ++ (s.2.map fun x => wrap (0x80 + UInt8.ofNat n) x.content).getD [] := by
  intro b o rest h
  obtain ⟨oe, mid, hoe, hc⟩ := bind_eq_some.mp h
  obtain ⟨p, hb, hn⟩ := exists_passed_of_context? hoe
  cases oe with
  | none =>
    obtain ⟨rfl, rfl⟩ := pure_eq_some.mp hc
    exact ⟨(p, none), rfl, hb⟩
  | some e =>
    simp only at hc
    cases hs : BitString.ofContent? e.content with
    | none =>
      rw [hs] at hc
      cases hc
    | some s =>
      rw [hs] at hc
      simp only at hc
      split at hc
      · cases hc
      · rename_i hprim
        obtain ⟨rfl, rfl⟩ := pure_eq_some.mp hc
        have ht := eq_of_contextNumber? (hn e rfl)
        rw [if_neg hprim] at ht
        have he : e.encode = wrap (0x80 + UInt8.ofNat n) s.content := by
          rw [← eq_content_of_ofContent? hs, ← ht]
          rfl
        exact ⟨(p, some s), rfl, by rw [hb, Option.map_some, he]; rfl⟩

theorem reads_contextValue? (n : Nat) {p : Parser α} {value : σ → α} {write : σ → Bytes}
    (hp : p.Reads value write) :
    (contextValue? n p).Reads (fun s : Passed n × Option σ => s.2.map value)
      fun s => s.1.encode ++ (s.2.map fun x => wrap (0xA0 + UInt8.ofNat n) (write x)).getD [] := by
  intro b o rest h
  obtain ⟨oe, mid, hoe, hc⟩ := bind_eq_some.mp h
  obtain ⟨passed, hb, hn⟩ := exists_passed_of_context? hoe
  cases oe with
  | none =>
    obtain ⟨rfl, rfl⟩ := pure_eq_some.mp hc
    exact ⟨(passed, none), rfl, hb⟩
  | some e =>
    simp only at hc
    split at hc
    · cases hc
    · rename_i hcons
      rw [Bool.not_eq_true', Bool.not_eq_false] at hcons
      cases hw : p.whole e.content with
      | none =>
        rw [hw] at hc
        cases hc
      | some a =>
        rw [hw] at hc
        obtain ⟨rfl, rfl⟩ := pure_eq_some.mp hc
        obtain ⟨s, rfl, hs⟩ := hp.of_whole hw
        have ht := eq_of_contextNumber? (hn e rfl)
        rw [if_pos hcons] at ht
        have he : e.encode = wrap (0xA0 + UInt8.ofNat n) (write s) := by
          rw [← hs, ← ht]
          rfl
        exact ⟨(passed, some s), rfl, by rw [hb, Option.map_some, he]; rfl⟩

end Strongbox.Der
