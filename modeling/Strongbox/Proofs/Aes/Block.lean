/-
  Strongbox.Proofs.Aes.Block — what is enciphered is deciphered.

  Every step of a round is undone by the step back, so a round is undone by the round back, and
  the rounds in their order by the rounds back in the opposite order. The first and the last
  round key are for steps of their own, so two of them are needed.
  - `mixBack_mixForward`: the columns are mixed back.
  - `decipher_encipher`: a block is deciphered under the round keys that it was enciphered under.
  - `length_roundKeys`: there are seven more round keys than columns in the key.
-/

import Strongbox.Proofs.Aes.Octets
import Strongbox.Proofs.Bytes

namespace Strongbox.Aes

/-! ## The steps of a round -/

namespace Block

theorem xor_xor (s k : Block) : (s.xor k).xor k = s := by
  refine Vector.ext fun i hi => ?_
  simp only [xor, Vector.getElem_zipWith]
  rw [UInt8.xor_assoc, UInt8.xor_self, UInt8.xor_zero]

@[simp] theorem length_toBytes (s : Block) : s.toBytes.length = 16 := by simp [toBytes]

theorem ofBytes_toBytes (s : Block) : ofBytes s.toBytes = s := by
  refine Vector.ext fun i hi => ?_
  simp [ofBytes, toBytes]

theorem toBytes_ofBytes {b : Bytes} (h : b.length = 16) : (ofBytes b).toBytes = b := by
  refine List.ext_getElem (by simp [h]) fun i hi hb => ?_
  simp [ofBytes, toBytes, hb]

/-- The octet of a column in a row; rows are counted on past the fourth. -/
def cell (s : Block) (c : Fin 4) (r : Nat) : UInt8 := s[4 * c.val + r % 4]

theorem ext_cell {s t : Block} (h : ∀ c r, s.cell c r = t.cell c r) : s = t := by
  refine Vector.ext fun i hi => ?_
  have hc := h ⟨i / 4, by omega⟩ i
  simp only [cell] at hc
  have hi' : 4 * (i / 4) + i % 4 = i := by omega
  simpa only [hi'] using hc

theorem cell_add_four (s : Block) (c : Fin 4) (r : Nat) : s.cell c (r + 4) = s.cell c r := by
  simp only [cell, Nat.add_mod_right]

end Block

theorem substituteBack_map (s : Block) : (s.map substitute).map substituteBack = s := by
  refine Vector.ext fun i hi => ?_
  rw [Vector.getElem_map, Vector.getElem_map, substituteBack_substitute]

theorem shiftRowsBack_shiftRows (s : Block) : shiftRowsBack (shiftRows s) = s := by
  refine Vector.ext fun i hi => ?_
  simp only [shiftRowsBack, shiftRows, Vector.getElem_ofFn]
  congr 1
  omega

theorem cell_mixColumns (m0 m1 m2 m3 : UInt8 → UInt8) (s : Block) (c : Fin 4) (r : Nat) :
    (mixColumns m0 m1 m2 m3 s).cell c r = m0 (s.cell c r) ^^^ m1 (s.cell c (r + 1)) ^^^
      m2 (s.cell c (r + 2)) ^^^ m3 (s.cell c (r + 3)) := by
  have hc : (4 * c.val + r % 4) / 4 = c := by omega
  have hr (k : Nat) : (4 * c.val + r % 4 + k) % 4 = (r + k) % 4 := by omega
  simp only [Block.cell, mixColumns, Vector.getElem_ofFn, hc, hr]
  rfl

theorem double_eq_mul (a : UInt8) : double a = mul 2 a := by
  rw [show (2 : UInt8) = double 1 by rfl, double_mul, one_mul]

theorem triple_eq_mul (a : UInt8) : double a ^^^ a = mul 3 a := by
  rw [double_eq_mul, show (3 : UInt8) = 2 ^^^ 1 by rfl, xor_mul, one_mul]

/-- The factors of mixing and of mixing back around a column: an octet is left of itself, and
nothing of the three others. -/
theorem mix_factors :
    mul 14 2 ^^^ 11 ^^^ 13 ^^^ mul 9 3 = 1 ∧ mul 14 3 ^^^ mul 11 2 ^^^ 13 ^^^ 9 = 0 ∧
      14 ^^^ mul 11 3 ^^^ mul 13 2 ^^^ 9 = 0 ∧ 14 ^^^ 11 ^^^ mul 13 3 ^^^ mul 9 2 = 0 := by
  decide

theorem mix_column (a b c d : UInt8) :
    mul 14 (mul 2 a ^^^ mul 3 b ^^^ c ^^^ d) ^^^ mul 11 (mul 2 b ^^^ mul 3 c ^^^ d ^^^ a) ^^^
      mul 13 (mul 2 c ^^^ mul 3 d ^^^ a ^^^ b) ^^^ mul 9 (mul 2 d ^^^ mul 3 a ^^^ b ^^^ c) = a := by
  have hgroup :
      mul 14 (mul 2 a ^^^ mul 3 b ^^^ c ^^^ d) ^^^ mul 11 (mul 2 b ^^^ mul 3 c ^^^ d ^^^ a) ^^^
        mul 13 (mul 2 c ^^^ mul 3 d ^^^ a ^^^ b) ^^^ mul 9 (mul 2 d ^^^ mul 3 a ^^^ b ^^^ c) =
      mul (mul 14 2 ^^^ 11 ^^^ 13 ^^^ mul 9 3) a ^^^
        mul (mul 14 3 ^^^ mul 11 2 ^^^ 13 ^^^ 9) b ^^^
        mul (14 ^^^ mul 11 3 ^^^ mul 13 2 ^^^ 9) c ^^^
        mul (14 ^^^ 11 ^^^ mul 13 3 ^^^ mul 9 2) d := by
    simp only [mul_xor, xor_mul, mul_assoc]
    ac_rfl
  have hzero (x : UInt8) : mul 0 x = 0 := (isAdditive_mul_right x).zero
  obtain ⟨hself, hfirst, hsecond, hthird⟩ := mix_factors
  rw [hgroup, hself, hfirst, hsecond, hthird, one_mul, hzero, hzero, hzero]
  simp only [UInt8.xor_zero]

theorem mixBack_mixForward (s : Block) : mixBack (mixForward s) = s := by
  refine Block.ext_cell fun c r => ?_
  rw [mixBack, mixForward, cell_mixColumns]
  simp only [cell_mixColumns, id, triple_eq_mul, Nat.add_assoc, Nat.reduceAdd]
  simp only [double_eq_mul]
  rw [show r + 6 = r + 2 + 4 by rfl, show r + 5 = r + 1 + 4 by rfl, Block.cell_add_four,
    Block.cell_add_four, Block.cell_add_four]
  exact mix_column _ _ _ _

/-! ## Rounds -/

def round (s k : Block) : Block := (mixForward (shiftRows (s.map substitute))).xor k

def roundBack (s k : Block) : Block := (shiftRowsBack (mixBack (s.xor k))).map substituteBack

theorem roundBack_round (s k : Block) : roundBack (round s k) k = s := by
  rw [roundBack, round, Block.xor_xor, mixBack_mixForward, shiftRowsBack_shiftRows,
    substituteBack_map]

theorem rounds_concat (s : Block) (ks : List Block) (last : Block) :
    rounds s (ks ++ [last]) = (shiftRows ((ks.foldl round s).map substitute)).xor last := by
  induction ks generalizing s with
  | nil => rfl
  | cons k ks ih =>
    rw [List.cons_append, rounds, ih]
    · rfl
    · exact List.append_ne_nil_of_right_ne_nil ks (List.cons_ne_nil last [])

theorem roundsBack_concat (s : Block) (ks : List Block) (last : Block) :
    roundsBack s (ks ++ [last]) = (ks.foldl roundBack s).xor last := by
  induction ks generalizing s with
  | nil => rfl
  | cons k ks ih =>
    rw [List.cons_append, roundsBack, ih]
    · rfl
    · exact List.append_ne_nil_of_right_ne_nil ks (List.cons_ne_nil last [])

theorem foldl_roundBack (ks : List Block) (s : Block) :
    ks.reverse.foldl roundBack (ks.foldl round s) = s := by
  induction ks generalizing s with
  | nil => rfl
  | cons k ks ih =>
    rw [List.reverse_cons, List.foldl_append, List.foldl_cons, List.foldl_nil, List.foldl_cons, ih,
      roundBack_round]

theorem decipher_encipher {keys : List Block} (h : 2 ≤ keys.length) (s : Block) :
    decipher keys (encipher keys s) = s := by
  cases keys with
  | nil => rfl
  | cons first ks =>
    have hne : ks ≠ [] := by
      rintro rfl
      exact absurd h (Nat.not_succ_le_self 1)
    obtain ⟨middle, last, rfl⟩ := (List.eq_nil_or_concat ks).resolve_left hne
    rw [List.concat_eq_append, encipher, rounds_concat, decipher, List.reverse_cons,
      List.reverse_append, List.reverse_singleton, List.singleton_append, List.cons_append]
    simp only
    rw [roundsBack_concat, Block.xor_xor, shiftRowsBack_shiftRows, substituteBack_map,
      foldl_roundBack, Block.xor_xor]

/-! ## Round keys -/

theorem length_expand (width n count : Nat) (factor : UInt8) (older : List Column) :
    (expand width n count factor older).length = n + older.length := by
  induction n generalizing count factor older with
  | zero => exact (Nat.zero_add _).symm
  | succ n ih =>
    simp only [expand]
    split
    · rw [ih, List.length_cons]
      omega
    · split
      · rw [ih, List.length_cons]
        omega
      · rw [ih, List.length_cons]
        omega

theorem length_of_mem_expand {width : Nat} (hpos : 0 < width) (n count : Nat) (factor : UInt8)
    {older : List Column} (hwidth : width ≤ older.length) (h : ∀ c ∈ older, c.length = 4) :
    ∀ c ∈ expand width n count factor older, c.length = 4 := by
  induction n generalizing count factor older with
  | zero => exact h
  | succ n ih =>
    have hlast : (older.headD []).length = 4 := by
      cases older with
      | nil => exact absurd (Nat.lt_of_lt_of_le hpos hwidth) (Nat.lt_irrefl 0)
      | cons c older => exact h c List.mem_cons_self
    have hbefore : (older.getD (width - 1) []).length = 4 := by
      have hlt : width - 1 < older.length := by omega
      rw [List.getD_eq_getElem?_getD, List.getElem?_eq_getElem hlt, Option.getD_some]
      exact h _ (List.getElem_mem hlt)
    have hstep {c : Column} (hc : c.length = 4) :
        ∀ d ∈ Bytes.xor (older.getD (width - 1) []) c :: older, d.length = 4 := by
      rw [List.forall_mem_cons]
      exact ⟨by rw [Bytes.length_xor, hbefore, hc]; rfl, h⟩
    have hwidth' (c : Column) : width ≤ (c :: older).length := Nat.le_succ_of_le hwidth
    simp only [expand]
    split
    · refine ih _ _ (hwidth' _) (hstep ?_)
      rw [List.length_modify, List.length_map, List.length_append, List.length_drop,
        List.length_take, hlast]
      rfl
    · split
      · exact ih _ _ (hwidth' _) (hstep (by rw [List.length_map, hlast]))
      · exact ih _ _ (hwidth' _) (hstep hlast)

/-- There are seven more round keys than columns in the key. -/
theorem length_roundKeys {key : Bytes} {width : Nat} (hpos : 0 < width)
    (h : key.length = 4 * width) : (roundKeys key).length = width + 7 := by
  obtain ⟨columns, rfl, hlength, hcolumns⟩ := Bytes.exists_flatten h
  have hreverse : columns.reverse.length = width := by rw [List.length_reverse, hlength]
  have hall := length_of_mem_expand hpos (4 * (width + 7) - width) width 1
    (Nat.le_of_eq hreverse.symm) fun c hc => hcolumns c (List.mem_reverse.mp hc)
  have hflat := Bytes.length_flatten fun c hc => hall c (List.mem_reverse.mp hc)
  rw [List.length_reverse, length_expand, hreverse] at hflat
  obtain ⟨pieces, hpieces, hcount, hsize⟩ := Bytes.exists_flatten (n := 16) (m := width + 7)
    (hflat.trans (by omega))
  rw [roundKeys, Bytes.chunks_flatten (by decide) hcolumns]
  simp only [hlength]
  rw [← hpieces, Bytes.chunks_flatten (by decide) hsize, List.length_map, hcount]

end Strongbox.Aes
