/-
  Strongbox.Aes.Gcm — authenticated encryption with AES (SP 800-38D), for nonces of twelve
  octets and tags of sixteen.

  The text is combined with a key stream, and the tag is a polynomial in the associated data
  and the enciphered text. Opening compares the tag before it gives the text back.
  - `open_seal`: what is sealed opens again with the same key, nonce and associated data.
  - `openText?_eq_some`: nothing else opens.
-/

import Strongbox.Aes.Block

namespace Strongbox.Aes.Gcm

def nonceSize : Nat := 12
def tagSize : Nat := 16

/-- The most octets that a text and associated data may have. -/
def sizeLimit : Nat := 0x1000000000

/-! ## The key stream -/

def streamBlock (keys : List Block) (nonce : Bytes) (i : Nat) : Bytes :=
  (encipher keys (Block.ofBytes (nonce ++ Bytes.ofNat 4 i))).toBytes

/-- A text combined with the key stream from block `i` on. -/
def mask (keys : List Block) (nonce : Bytes) (i : Nat) : Bytes → Bytes
  | [] => []
  | x :: b =>
    Bytes.xor ((x :: b).take 16) (streamBlock keys nonce i) ++ mask keys nonce (i + 1) (b.drop 15)
termination_by b => b.length
decreasing_by simp only [List.length_drop, List.length_cons]; omega

/-! ## The tag -/

/-- The reduction of x¹²⁸, the coefficient of x⁰ being the most significant bit. -/
def reduction : Nat := 0xE1 <<< 120

/-- `z` plus the product of `v` with the `n` low-order bits of `x`, most significant first. -/
def product (x : Nat) : (n : Nat) → (v z : Nat) → Nat
  | 0, _, z => z
  | n + 1, v, z =>
    let next := if v % 2 = 1 then (v >>> 1) ^^^ reduction else v >>> 1
    product x n next (if x.testBit n then z ^^^ v else z)

/-- The product of two polynomials modulo x¹²⁸ + x⁷ + x² + x + 1. -/
def mul (x y : Nat) : Nat := product x 128 y 0

def fill (b : Bytes) : Bytes := b ++ List.replicate ((16 - b.length % 16) % 16) 0

def hash (h : Nat) (b : Bytes) : Nat :=
  (Bytes.chunks 16 b).foldl (fun y block => mul (y ^^^ block.toNat) h) 0

def tag (keys : List Block) (nonce associated sealed : Bytes) : Bytes :=
  let h := Bytes.toNat (encipher keys (Block.ofBytes [])).toBytes
  let lengths := Bytes.ofNat 8 (8 * associated.length) ++ Bytes.ofNat 8 (8 * sealed.length)
  let y := hash h (fill associated ++ fill sealed ++ lengths)
  Bytes.xor (Bytes.ofNat 16 y) (streamBlock keys nonce 1)

/-! ## Sealing and opening -/

def HasRoom (associated text : Bytes) : Prop :=
  associated.length ≤ sizeLimit ∧ text.length ≤ sizeLimit

instance (associated text : Bytes) : Decidable (HasRoom associated text) :=
  inferInstanceAs (Decidable (_ ∧ _))

def sealText (key nonce associated text : Bytes) : Bytes :=
  let keys := roundKeys key
  let sealed := mask keys nonce 2 text
  sealed ++ tag keys nonce associated sealed

/-- The text, unless there is no room for a tag, too much is given or the tag is another. -/
def openText? (key nonce associated data : Bytes) : Option Bytes :=
  let keys := roundKeys key
  let n := data.length - tagSize
  let sealed := data.take n
  if data.length < tagSize ∨ sizeLimit + tagSize < n ∨ sizeLimit < associated.length
      ∨ data.drop n ≠ tag keys nonce associated sealed then none
  else some (mask keys nonce 2 sealed)

/-! ## Opening what was sealed -/

@[simp] theorem length_streamBlock (keys : List Block) (nonce : Bytes) (i : Nat) :
    (streamBlock keys nonce i).length = 16 := by
  simp [streamBlock, Block.toBytes]

@[simp] theorem length_tag (keys : List Block) (nonce associated sealed : Bytes) :
    (tag keys nonce associated sealed).length = 16 := by
  simp [tag, Bytes.xor]

theorem mask_eq_of_ne_nil (keys : List Block) (nonce : Bytes) (i : Nat) {b : Bytes} (h : b ≠ []) :
    mask keys nonce i b =
      Bytes.xor (b.take 16) (streamBlock keys nonce i) ++ mask keys nonce (i + 1) (b.drop 16) := by
  cases b with
  | nil => exact absurd rfl h
  | cons x b => rw [mask, List.drop_succ_cons]

theorem mask_mask (keys : List Block) (nonce : Bytes) (i : Nat) (b : Bytes) :
    mask keys nonce i (mask keys nonce i b) = b := by
  induction h : b.length using Nat.strongRecOn generalizing b i with
  | ind n ih =>
    by_cases hb : b = []
    · simp [hb, mask]
    have hn : 0 < b.length := List.length_pos_iff.mpr hb
    have hx : (Bytes.xor (b.take 16) (streamBlock keys nonce i)).length = min 16 b.length := by
      simp [Bytes.xor]
    have hs : (streamBlock keys nonce i).length = 16 := length_streamBlock keys nonce i
    have ht : (b.take 16).length ≤ (streamBlock keys nonce i).length := by
      rw [List.length_take, hs]; omega
    have hd : (b.drop 16).length = b.length - 16 := List.length_drop
    have hne : mask keys nonce i b ≠ [] := by
      rw [mask_eq_of_ne_nil _ _ _ hb]
      intro h0
      have := congrArg List.length h0
      simp only [List.length_append, hx, List.length_nil] at this
      omega
    rw [mask_eq_of_ne_nil _ _ _ hne, mask_eq_of_ne_nil _ _ _ hb]
    by_cases hl : 16 ≤ b.length
    · rw [List.take_left' (by omega), List.drop_left' (by omega),
        Bytes.xor_xor _ _ ht, ih (b.drop 16).length (by omega) _ _ rfl,
        List.take_append_drop]
    · rw [List.drop_eq_nil_of_le (by omega : b.length ≤ 16), mask, List.append_nil,
        List.take_of_length_le (i := 16) (by omega : _ ≤ 16), List.drop_eq_nil_of_le (by omega), mask,
        List.append_nil, Bytes.xor_xor _ _ ht, List.take_of_length_le (by omega)]

@[simp] theorem length_mask (keys : List Block) (nonce : Bytes) (i : Nat) (b : Bytes) :
    (mask keys nonce i b).length = b.length := by
  fun_induction mask keys nonce i b with
  | case1 => rfl
  | case2 i x b ih => simp [Bytes.xor, ih]; omega

@[simp] theorem length_sealText (key nonce associated text : Bytes) :
    (sealText key nonce associated text).length = text.length + tagSize := by
  simp [sealText, tagSize]

/-- What is sealed opens again with the same key, nonce and associated data. -/
theorem open_seal (key nonce : Bytes) {associated text : Bytes} (h : HasRoom associated text) :
    openText? key nonce associated (sealText key nonce associated text) = some text := by
  obtain ⟨ha, ht⟩ := h
  simp only [openText?, length_sealText, Nat.add_sub_cancel]
  rw [sealText, List.take_left' (by simp), List.drop_left' (by simp)]
  simp [mask_mask]
  omega

/-- What opens was sealed with the same key, nonce and associated data. -/
theorem eq_sealText_of_openText? {key nonce associated data text : Bytes}
    (h : openText? key nonce associated data = some text) :
    data = sealText key nonce associated text := by
  rw [openText?] at h
  split at h
  · cases h
  · rename_i hn
    obtain ⟨-, -, -, ht⟩ : ¬ _ ∧ ¬ _ ∧ ¬ _ ∧ ¬ _ := by simpa only [not_or] using hn
    cases h
    rw [sealText, mask_mask, ← Decidable.not_not.mp ht, List.take_append_drop]

/-- The texts that open are those that were sealed. -/
theorem openText?_eq_some {key nonce associated data text : Bytes}
    (h : HasRoom associated text) :
    openText? key nonce associated data = some text ↔
      data = sealText key nonce associated text := by
  constructor
  · exact eq_sealText_of_openText?
  · rintro rfl
    exact open_seal key nonce h

end Strongbox.Aes.Gcm
