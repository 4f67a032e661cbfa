/-
  Strongbox.Proofs.Text.Base64 — octets written as base64 read back.

  The written characters are symbols and padding, all of ASCII and none of them blank, so the
  octets of the text are the characters one by one and trimming leaves the text alone. What is
  left is one case for each length of the last group: a group of three, two or one octets is a
  number, which its symbols spell in base 64. A symbol is read as the value that it is written
  for and the bits behind the last octet must be zero, so each text that is read is a written one.
  - `decode_encode`: every octet string reads back.
  - `trim_eq_encode_of_decode`: nothing else is read, blanks around the text apart.
  - `encodeOctets_append`, `encodeOctets_cut`: the text of octets in parts.
-/

import Strongbox.Proofs.Outcome
import Strongbox.Proofs.Text.Name
import Strongbox.Proofs.Text.Octets
import Strongbox.Text.Base64

namespace Strongbox.Base64

/-! ## Symbols -/

def symbolOctet (n : Nat) : UInt8 := UInt8.ofNat (symbol n).toNat

theorem value?_symbolOctet : ∀ n < 64, value? (symbolOctet n) = some n := by decide

theorem symbolOctet_ne_pad : ∀ n < 64, symbolOctet n ≠ pad := by decide

def IsPlain (c : Char) : Prop := c.toNat < 128 ∧ Text.isBlankChar c = false

theorem isPlain_symbol : ∀ n < 64, IsPlain (symbol n) := by unfold IsPlain; decide

theorem isPlain_pad : IsPlain '=' := by unfold IsPlain; decide

theorem forall_mem_encodeChars {p : Char → Prop} (hsymbol : ∀ n < 64, p (symbol n)) (hpad : p '=')
    (b : Bytes) : ∀ c ∈ encodeChars b, p c := by
  induction b using encodeChars.induct with
  | case1 => exact nofun
  | case2 x =>
    have hx := x.toNat_lt
    simp only [encodeChars, List.forall_mem_cons]
    exact ⟨hsymbol _ (by omega), hsymbol _ (by omega), hpad, hpad, nofun⟩
  | case3 x y =>
    have hx := x.toNat_lt
    have hy := y.toNat_lt
    simp only [encodeChars, List.forall_mem_cons]
    exact ⟨hsymbol _ (by omega), hsymbol _ (by omega), hsymbol _ (by omega), hpad, nofun⟩
  | case4 x y z rest ih =>
    have hx := x.toNat_lt
    have hy := y.toNat_lt
    have hz := z.toNat_lt
    simp only [encodeChars, List.forall_mem_cons]
    exact ⟨hsymbol _ (by omega), hsymbol _ (by omega), hsymbol _ (by omega), hsymbol _ (by omega),
      ih⟩

theorem isPlain_of_mem_encodeChars {b : Bytes} {c : Char} (h : c ∈ encodeChars b) : IsPlain c :=
  forall_mem_encodeChars isPlain_symbol isPlain_pad b c h

/-! ## The text as octets -/

def encodeOctets (b : Bytes) : Bytes := (encodeChars b).map fun c => UInt8.ofNat c.toNat

theorem ofString_encode (b : Bytes) : Bytes.ofString (encode b) = encodeOctets b :=
  Bytes.ofString_ofList_of_ascii fun _ h => (isPlain_of_mem_encodeChars h).1

@[simp] theorem trim_encode (b : Bytes) : Text.trim (encode b) = encode b := by
  refine Text.trim_eq_self fun c hc => ?_
  rw [encode, String.toList_ofList] at hc
  exact (isPlain_of_mem_encodeChars hc).2

/-- Every group of three octets takes four symbols, and so does a shorter last group. -/
theorem length_encodeOctets (b : Bytes) : (encodeOctets b).length = (b.length + 2) / 3 * 4 := by
  rw [encodeOctets, List.length_map]
  induction b using encodeChars.induct with
  | case1 => rfl
  | case2 x => simp only [encodeChars, List.length_cons, List.length_nil]
  | case3 x y => simp only [encodeChars, List.length_cons, List.length_nil]
  | case4 x y z rest ih => simp only [encodeChars, List.length_cons]; omega

@[simp] theorem encodeOctets_nil : encodeOctets [] = [] := rfl

theorem encodeOctets_one (x : UInt8) :
    encodeOctets [x] =
      [symbolOctet (x.toNat * 16 / 64), symbolOctet (x.toNat * 16 % 64), pad, pad] := rfl

theorem encodeOctets_two (x y : UInt8) :
    encodeOctets [x, y] =
      [symbolOctet ((x.toNat * 256 + y.toNat) * 4 / 4096),
        symbolOctet ((x.toNat * 256 + y.toNat) * 4 / 64 % 64),
        symbolOctet ((x.toNat * 256 + y.toNat) * 4 % 64), pad] := rfl

theorem encodeOctets_three (x y z : UInt8) (rest : Bytes) :
    encodeOctets (x :: y :: z :: rest) =
      symbolOctet (((x.toNat * 256 + y.toNat) * 256 + z.toNat) / 262144)
        :: symbolOctet (((x.toNat * 256 + y.toNat) * 256 + z.toNat) / 4096 % 64)
        :: symbolOctet (((x.toNat * 256 + y.toNat) * 256 + z.toNat) / 64 % 64)
        :: symbolOctet (((x.toNat * 256 + y.toNat) * 256 + z.toNat) % 64)
        :: encodeOctets rest := rfl

theorem encodeOctets_ne_nil {b : Bytes} (h : b ≠ []) : encodeOctets b ≠ [] := by
  match b, h with
  | [x], _ => rw [encodeOctets_one]; exact List.cons_ne_nil _ _
  | [x, y], _ => rw [encodeOctets_two]; exact List.cons_ne_nil _ _
  | x :: y :: z :: rest, _ => rw [encodeOctets_three]; exact List.cons_ne_nil _ _

/-! ## Groups as numbers -/

theorem ofNat_two (x y : UInt8) : Bytes.ofNat 2 (x.toNat * 256 + y.toNat) = [x, y] := by
  have hx := x.toNat_lt
  have hy := y.toNat_lt
  have h8 : (x.toNat * 256 + y.toNat) >>> 8 = x.toNat := by
    rw [Nat.shiftRight_eq_div_pow]; omega
  have h0 : UInt8.ofNat (x.toNat * 256 + y.toNat) = y := by
    rw [← UInt8.toNat_inj, UInt8.toNat_ofNat']; omega
  simp only [Bytes.ofNat, Nat.mul_one, Nat.mul_zero, Nat.shiftRight_zero, h8, h0,
    UInt8.ofNat_toNat]

theorem ofNat_three (x y z : UInt8) :
    Bytes.ofNat 3 ((x.toNat * 256 + y.toNat) * 256 + z.toNat) = [x, y, z] := by
  have hx := x.toNat_lt
  have hy := y.toNat_lt
  have hz := z.toNat_lt
  have h16 : ((x.toNat * 256 + y.toNat) * 256 + z.toNat) >>> (8 * 2) = x.toNat := by
    rw [Nat.shiftRight_eq_div_pow]; omega
  have h8 : UInt8.ofNat (((x.toNat * 256 + y.toNat) * 256 + z.toNat) >>> 8) = y := by
    rw [← UInt8.toNat_inj, UInt8.toNat_ofNat', Nat.shiftRight_eq_div_pow]; omega
  have h0 : UInt8.ofNat ((x.toNat * 256 + y.toNat) * 256 + z.toNat) = z := by
    rw [← UInt8.toNat_inj, UInt8.toNat_ofNat']; omega
  simp only [Bytes.ofNat, Nat.mul_one, Nat.mul_zero, Nat.shiftRight_zero, h16, h8, h0,
    UInt8.ofNat_toNat]

theorem sextets_three (n : Nat) :
    ((n / 262144 * 64 + n / 4096 % 64) * 64 + n / 64 % 64) * 64 + n % 64 = n := by omega

/-! ## Reading -/

theorem readSymbol_symbolOctet (offset : Nat) {n : Nat} (h : n < 64) :
    readSymbol offset (symbolOctet n) = .ok n := by
  rw [readSymbol, value?_symbolOctet n h]

theorem readTail_symbolOctet (start i : Nat) (t : Tail) (rest : Bytes) {n : Nat} (h : n < 64)
    (ht : t.pads = 0) :
    readTail start i t (symbolOctet n :: rest) =
      readTail start (i + 1) { t with values := t.values ++ [n], last := symbolOctet n } rest := by
  rw [readTail, if_neg (symbolOctet_ne_pad n h), if_neg (by omega), value?_symbolOctet n h]

theorem readTail_pad (start i : Nat) (t : Tail) (rest : Bytes) (h : 2 ≤ i) :
    readTail start i t (pad :: rest) =
      readTail start (i + 1) { t with pads := t.pads + 1 } rest := by
  rw [readTail, if_pos rfl, if_neg (by omega)]

theorem decodeTail_one (start : Nat) (x : UInt8) :
    decodeTail start (encodeOctets [x]) = .ok [x] := by
  have hx := x.toNat_lt
  have hm : x.toNat * 16 % 64 % 16 = 0 := by omega
  have hn : (x.toNat * 16 / 64 * 64 + x.toNat * 16 % 64) / 16 = x.toNat := by omega
  rw [encodeOctets_one, decodeTail, if_neg (List.cons_ne_nil _ _),
    readTail_symbolOctet _ _ _ _ (by omega) rfl, readTail_symbolOctet _ _ _ _ (by omega) rfl,
    readTail_pad _ _ _ _ (by omega), readTail_pad _ _ _ _ (by omega), readTail]
  simp [bind, Except.bind, hm, hn, pure, Except.pure]

theorem decodeTail_two (start : Nat) (x y : UInt8) :
    decodeTail start (encodeOctets [x, y]) = .ok [x, y] := by
  have hx := x.toNat_lt
  have hy := y.toNat_lt
  obtain ⟨n, hn⟩ : ∃ n, n = x.toNat * 256 + y.toNat := ⟨_, rfl⟩
  have hm : n * 4 % 64 % 4 = 0 := by omega
  have hv : ((n * 4 / 4096 * 64 + n * 4 / 64 % 64) * 64 + n * 4 % 64) / 4 = n := by omega
  have hg : Bytes.ofNat 2 n = [x, y] := by rw [hn, ofNat_two]
  rw [encodeOctets_two, ← hn, decodeTail, if_neg (List.cons_ne_nil _ _),
    readTail_symbolOctet _ _ _ _ (by omega) rfl, readTail_symbolOctet _ _ _ _ (by omega) rfl,
    readTail_symbolOctet _ _ _ _ (by omega) rfl, readTail_pad _ _ _ _ (by omega), readTail]
  simp [bind, Except.bind, hm, hv, pure, Except.pure, hg]

theorem decodeTail_three (start : Nat) (x y z : UInt8) :
    decodeTail start (encodeOctets [x, y, z]) = .ok [x, y, z] := by
  have hx := x.toNat_lt
  have hy := y.toNat_lt
  have hz := z.toNat_lt
  obtain ⟨n, hn⟩ : ∃ n, n = (x.toNat * 256 + y.toNat) * 256 + z.toNat := ⟨_, rfl⟩
  have hg : Bytes.ofNat 3 n = [x, y, z] := by rw [hn, ofNat_three]
  rw [encodeOctets_three, ← hn, encodeOctets_nil, decodeTail, if_neg (List.cons_ne_nil _ _),
    readTail_symbolOctet _ _ _ _ (by omega) rfl, readTail_symbolOctet _ _ _ _ (by omega) rfl,
    readTail_symbolOctet _ _ _ _ (by omega) rfl, readTail_symbolOctet _ _ _ _ (by omega) rfl,
    readTail]
  simp [bind, Except.bind, sextets_three, pure, Except.pure, hg]

theorem decodeQuads_three (start : Nat) (x y z : UInt8) {rest : Bytes} (hr : rest ≠ [])
    (h : decodeQuads (start + 4) (encodeOctets rest) = .ok rest) :
    decodeQuads start (encodeOctets (x :: y :: z :: rest)) = .ok (x :: y :: z :: rest) := by
  have hx := x.toNat_lt
  have hy := y.toNat_lt
  have hz := z.toNat_lt
  obtain ⟨n, hn⟩ : ∃ n, n = (x.toNat * 256 + y.toNat) * 256 + z.toNat := ⟨_, rfl⟩
  have hg : Bytes.ofNat 3 n = [x, y, z] := by rw [hn, ofNat_three]
  obtain ⟨e, more, he⟩ := List.exists_cons_of_ne_nil (encodeOctets_ne_nil hr)
  rw [he] at h
  rw [encodeOctets_three, ← hn, he, decodeQuads, readSymbol_symbolOctet _ (by omega),
    readSymbol_symbolOctet _ (by omega), readSymbol_symbolOctet _ (by omega),
    readSymbol_symbolOctet _ (by omega), h]
  simp [bind, Except.bind, sextets_three, pure, Except.pure, hg]

theorem decodeQuads_encodeOctets (start : Nat) (b : Bytes) :
    decodeQuads start (encodeOctets b) = .ok b := by
  induction b using encodeChars.induct generalizing start with
  | case1 => rfl
  | case2 x => exact decodeTail_one start x
  | case3 x y => exact decodeTail_two start x y
  | case4 x y z rest ih =>
    by_cases hr : rest = []
    · subst hr
      exact decodeTail_three start x y z
    · exact decodeQuads_three start x y z hr (ih (start + 4))

theorem decodeBytes_encodeOctets (b : Bytes) : decodeBytes (encodeOctets b) = .ok b := by
  have hl := length_encodeOctets b
  rw [decodeBytes]
  split
  · rw [if_neg (by omega)]
    exact decodeQuads_encodeOctets 0 b
  · rename_i hn
    have hb : b = [] := by
      refine Classical.byContradiction fun h => ?_
      exact encodeOctets_ne_nil h (List.getLast?_eq_none_iff.mp hn)
    rw [hb]

@[simp] theorem decode_encode (b : Bytes) : decode (encode b) = .ok b := by
  rw [decode, trim_encode, ofString_encode, decodeBytes_encodeOctets]

/-! ## Reading is strict -/

/-- Only what is written as a symbol is read as one. -/
theorem symbolOctet_of_value? {b : UInt8} {v : Nat} (h : value? b = some v) :
    v < 64 ∧ b = symbolOctet v := by
  have hall : ∀ n < 256, ∀ v ∈ value? (UInt8.ofNat n), v < 64 ∧ UInt8.ofNat n = symbolOctet v := by
    decide +kernel
  have hb := hall b.toNat b.toNat_lt v
  rw [UInt8.ofNat_toNat] at hb
  exact hb h

theorem readSymbol_eq_ok {offset : Nat} {b : UInt8} {v : Nat} (h : readSymbol offset b = .ok v) :
    v < 64 ∧ b = symbolOctet v := by
  rw [readSymbol] at h
  split at h
  · rename_i w hw
    cases h
    exact symbolOctet_of_value? hw
  · cases h

/-- The last quad is symbols and then padding. -/
theorem readTail_eq_ok {start i : Nat} {t t' : Tail} {b : Bytes} (h : readTail start i t b = .ok t') :
    ∃ vs n, b = vs.map symbolOctet ++ List.replicate n pad ∧ t'.values = t.values ++ vs ∧
      t'.pads = t.pads + n ∧ (∀ v ∈ vs, v < 64) ∧ (0 < t.pads → vs = []) := by
  induction b generalizing i t with
  | nil =>
    cases h
    exact ⟨[], 0, rfl, (List.append_nil _).symm, rfl, nofun, fun _ => rfl⟩
  | cons x b ih =>
    rw [readTail] at h
    split at h
    · rename_i hx
      split at h
      · cases h
      · obtain ⟨vs, n, rfl, hvalues, hpads, -, hnone⟩ := ih h
        obtain rfl : vs = [] := hnone (Nat.succ_pos _)
        refine ⟨[], n + 1, ?_, hvalues, ?_, nofun, fun _ => rfl⟩
        · rw [hx]
          rfl
        · rw [hpads]
          show t.pads + 1 + n = t.pads + (n + 1)
          omega
    · split at h
      · cases h
      · rename_i hpads
        split at h
        · cases h
        · rename_i v hv
          obtain ⟨hlt, rfl⟩ := symbolOctet_of_value? hv
          obtain ⟨vs, n, rfl, hvalues, hcount, hvs, -⟩ := ih h
          refine ⟨v :: vs, n, rfl, ?_, hcount, List.forall_mem_cons.mpr ⟨hlt, hvs⟩, ?_⟩
          · rw [hvalues, List.append_assoc]
            rfl
          · intro hpos
            exact absurd hpos hpads

theorem exists_ofNat_three {n : Nat} (h : n < 16777216) :
    ∃ x y z : UInt8, Bytes.ofNat 3 n = [x, y, z] ∧
      (x.toNat * 256 + y.toNat) * 256 + z.toNat = n := by
  have hlength := Bytes.length_ofNat 3 n
  have hnumber : Bytes.toNat (Bytes.ofNat 3 n) = n := Bytes.toNat_ofNat h
  match hb : Bytes.ofNat 3 n, hlength with
  | [x, y, z], _ =>
    rw [hb] at hnumber
    simp only [Bytes.toNat, List.foldl_cons, List.foldl_nil, Nat.zero_mul, Nat.zero_add] at hnumber
    exact ⟨x, y, z, rfl, hnumber⟩

theorem exists_ofNat_two {n : Nat} (h : n < 65536) :
    ∃ x y : UInt8, Bytes.ofNat 2 n = [x, y] ∧ x.toNat * 256 + y.toNat = n := by
  have hlength := Bytes.length_ofNat 2 n
  have hnumber : Bytes.toNat (Bytes.ofNat 2 n) = n := Bytes.toNat_ofNat h
  match hb : Bytes.ofNat 2 n, hlength with
  | [x, y], _ =>
    rw [hb] at hnumber
    simp only [Bytes.toNat, List.foldl_cons, List.foldl_nil, Nat.zero_mul, Nat.zero_add] at hnumber
    exact ⟨x, y, rfl, hnumber⟩

/-- Four symbols are the writing of the three octets of their number. -/
theorem encodeOctets_quad {v w x y : Nat} (hv : v < 64) (hw : w < 64) (hx : x < 64) (hy : y < 64)
    (rest : Bytes) : encodeOctets (Bytes.ofNat 3 (((v * 64 + w) * 64 + x) * 64 + y) ++ rest) =
      symbolOctet v :: symbolOctet w :: symbolOctet x :: symbolOctet y :: encodeOctets rest := by
  obtain ⟨n, hn⟩ : ∃ n, n = ((v * 64 + w) * 64 + x) * 64 + y := ⟨_, rfl⟩
  obtain ⟨a, b, c, habc, hnumber⟩ := exists_ofNat_three (n := n) (by omega)
  rw [← hn, habc, List.cons_append, List.cons_append, List.cons_append, List.nil_append,
    encodeOctets_three, hnumber, show n / 262144 = v by omega, show n / 4096 % 64 = w by omega,
    show n / 64 % 64 = x by omega, show n % 64 = y by omega]

/-- Two symbols without bits left over are the writing of one octet. -/
theorem encodeOctets_pair {v w : Nat} (hv : v < 64) (hw : w < 64) (hbits : w % 16 = 0) :
    encodeOctets [UInt8.ofNat ((v * 64 + w) / 16)] = [symbolOctet v, symbolOctet w, pad, pad] := by
  have hoctet : (UInt8.ofNat ((v * 64 + w) / 16)).toNat = (v * 64 + w) / 16 :=
    UInt8.toNat_ofNat_of_lt' (by show _ < 256; omega)
  rw [encodeOctets_one, hoctet, show (v * 64 + w) / 16 * 16 / 64 = v by omega,
    show (v * 64 + w) / 16 * 16 % 64 = w by omega]

/-- Three symbols without bits left over are the writing of two octets. -/
theorem encodeOctets_triple {v w x : Nat} (hv : v < 64) (hw : w < 64) (hx : x < 64)
    (hbits : x % 4 = 0) :
    encodeOctets (Bytes.ofNat 2 (((v * 64 + w) * 64 + x) / 4)) =
      [symbolOctet v, symbolOctet w, symbolOctet x, pad] := by
  obtain ⟨a, b, hab, hn⟩ := exists_ofNat_two (n := ((v * 64 + w) * 64 + x) / 4) (by omega)
  rw [hab, encodeOctets_two, hn, show ((v * 64 + w) * 64 + x) / 4 * 4 / 4096 = v by omega,
    show ((v * 64 + w) * 64 + x) / 4 * 4 / 64 % 64 = w by omega,
    show ((v * 64 + w) * 64 + x) / 4 * 4 % 64 = x by omega]

theorem eq_encodeOctets_of_decodeTail {start : Nat} {b out : Bytes} (hb : b.length ≤ 4)
    (h : decodeTail start b = .ok out) : b = encodeOctets out := by
  rw [decodeTail] at h
  split at h
  · rename_i hnil
    cases h
    exact hnil
  · obtain ⟨t, ht, hjudged⟩ := Outcome.bind_eq_ok.mp h
    rename_i hsome
    clear h hsome
    obtain ⟨vs, n, rfl, hvalues, hpads, hvs, -⟩ := readTail_eq_ok ht
    rw [List.nil_append] at hvalues
    rw [List.length_append, List.length_map, List.length_replicate] at hb
    simp only [hvalues, hpads, Nat.zero_add] at hjudged
    split at hjudged
    · cases hjudged
    · split at hjudged
      · cases hjudged
      · rename_i htwo hfour
        -- two symbols at least, and no more than the quad holds
        have hquad : n + vs.length = 4 := by omega
        split at hjudged
        · rename_i v w
          obtain rfl : n = 2 := by simpa using hquad
          split at hjudged
          · cases hjudged
          · rename_i hbits
            cases hjudged
            exact (encodeOctets_pair (hvs v (by simp)) (hvs w (by simp))
              (Decidable.not_not.mp hbits)).symm
        · rename_i v w x
          obtain rfl : n = 1 := by simpa using hquad
          split at hjudged
          · cases hjudged
          · rename_i hbits
            cases hjudged
            exact (encodeOctets_triple (hvs v (by simp)) (hvs w (by simp)) (hvs x (by simp))
              (Decidable.not_not.mp hbits)).symm
        · rename_i v w x y more
          obtain ⟨rfl, rfl⟩ : n = 0 ∧ more = [] := by
            rw [← List.length_eq_zero_iff]
            simp only [List.length_cons] at hquad
            omega
          cases hjudged
          exact (encodeOctets_quad (hvs v (by simp)) (hvs w (by simp)) (hvs x (by simp))
            (hvs y (by simp)) []).symm
        · cases hjudged

theorem eq_encodeOctets_of_decodeQuads {start : Nat} {b out : Bytes}
    (h : decodeQuads start b = .ok out) : b = encodeOctets out := by
  induction start, b using decodeQuads.induct generalizing out with
  | case1 start a b c d e rest ih =>
    rw [decodeQuads] at h
    obtain ⟨v, hv, h⟩ := Outcome.bind_eq_ok.mp h
    obtain ⟨w, hw, h⟩ := Outcome.bind_eq_ok.mp h
    obtain ⟨x, hx, h⟩ := Outcome.bind_eq_ok.mp h
    obtain ⟨y, hy, h⟩ := Outcome.bind_eq_ok.mp h
    obtain ⟨more, hmore, h⟩ := Outcome.bind_eq_ok.mp h
    cases h
    obtain ⟨hv64, rfl⟩ := readSymbol_eq_ok hv
    obtain ⟨hw64, rfl⟩ := readSymbol_eq_ok hw
    obtain ⟨hx64, rfl⟩ := readSymbol_eq_ok hx
    obtain ⟨hy64, rfl⟩ := readSymbol_eq_ok hy
    rw [encodeOctets_quad hv64 hw64 hx64 hy64, ← ih hmore]
  | case2 start last hlast =>
    rw [decodeQuads] at h
    · refine eq_encodeOctets_of_decodeTail ?_ h
      match last, hlast with
      | [], _ => exact Nat.zero_le _
      | [_], _ => exact Nat.le_of_ble_eq_true rfl
      | [_, _], _ => exact Nat.le_of_ble_eq_true rfl
      | [_, _, _], _ => exact Nat.le_of_ble_eq_true rfl
      | [_, _, _, _], _ => exact Nat.le_refl _
      | a :: b :: c :: d :: e :: rest, hlast => exact absurd rfl (hlast a b c d e rest)
    · exact hlast

theorem eq_encodeOctets_of_decodeBytes {b out : Bytes} (h : decodeBytes b = .ok out) :
    b = encodeOctets out := by
  rw [decodeBytes] at h
  split at h
  · split at h
    · cases h
    · exact eq_encodeOctets_of_decodeQuads h
  · rename_i hlast
    cases h
    exact List.getLast?_eq_none_iff.mp hlast

/-- Blanks around it apart, a text that is read is the one that its octets are written as. -/
theorem trim_eq_encode_of_decode {s : String} {b : Bytes} (h : decode s = .ok b) :
    Text.trim s = encode b := by
  rw [← Bytes.ofString_inj, ofString_encode]
  exact eq_encodeOctets_of_decodeBytes h

/-! ## Texts in parts -/

section Parts

variable {a : Bytes}

theorem encodeOctets_append (h : a.length % 3 = 0) (b : Bytes) :
    encodeOctets (a ++ b) = encodeOctets a ++ encodeOctets b := by
  induction a using encodeChars.induct with
  | case1 => rfl
  | case2 x => cases h
  | case3 x y => cases h
  | case4 x y z rest ih =>
    have hr : rest.length % 3 = 0 := by
      simp only [List.length_cons] at h
      omega
    simp only [List.cons_append, encodeOctets_three, ih hr]

/-- Only a last group of less than three octets is padded. -/
theorem pad_not_mem_encodeOctets (h : a.length % 3 = 0) : pad ∉ encodeOctets a := by
  induction a using encodeChars.induct with
  | case1 => exact List.not_mem_nil
  | case2 x => cases h
  | case3 x y => cases h
  | case4 x y z rest ih =>
    have hr : rest.length % 3 = 0 := by
      simp only [List.length_cons] at h
      omega
    have hx := x.toNat_lt
    have hy := y.toNat_lt
    have hz := z.toNat_lt
    simp only [encodeOctets_three, List.mem_cons, not_or]
    refine ⟨?_, ?_, ?_, ?_, ih hr⟩
    · exact (symbolOctet_ne_pad _ (by omega)).symm
    · exact (symbolOctet_ne_pad _ (by omega)).symm
    · exact (symbolOctet_ne_pad _ (by omega)).symm
    · exact (symbolOctet_ne_pad _ (by omega)).symm

/-- A text is cut between groups where its octets are. -/
theorem encodeOctets_cut {b : Bytes} {k : Nat} (hk : k % 3 = 0) (hle : k ≤ b.length) :
    (encodeOctets b).take (k / 3 * 4) = encodeOctets (b.take k) ∧
    (encodeOctets b).drop (k / 3 * 4) = encodeOctets (b.drop k) := by
  have htake : (b.take k).length = k := List.length_take_of_le hle
  have hfront : (encodeOctets (b.take k)).length = k / 3 * 4 := by
    rw [length_encodeOctets, htake]
    omega
  have hparts := encodeOctets_append (htake.symm ▸ hk) (b.drop k)
  rw [List.take_append_drop] at hparts
  rw [hparts]
  exact ⟨List.take_left' hfront, List.drop_left' hfront⟩

end Parts

theorem forall_mem_encodeOctets {p : UInt8 → Prop} (hsymbol : ∀ n < 64, p (symbolOctet n))
    (hpad : p pad) (b : Bytes) : ∀ x ∈ encodeOctets b, p x := by
  intro x h
  obtain ⟨c, hc, rfl⟩ := List.mem_map.mp h
  exact forall_mem_encodeChars (p := fun c => p (UInt8.ofNat c.toNat)) hsymbol hpad b c hc

/-- No line ends inside a text. -/
theorem ne_lineEnd_of_mem_encodeOctets {b : Bytes} {x : UInt8} (h : x ∈ encodeOctets b) :
    x ≠ 10 ∧ x ≠ 13 :=
  forall_mem_encodeOctets (p := fun x => x ≠ 10 ∧ x ≠ 13) (by decide) (by decide) b x h

theorem hyphen_not_mem_encodeOctets (b : Bytes) : 45 ∉ encodeOctets b := by
  intro h
  exact forall_mem_encodeOctets (p := (· ≠ 45)) (by decide) (by decide) b 45 h rfl

end Strongbox.Base64
