/-
  Strongbox.Text.Blank — blank characters and trimmed texts.

  A character is blank when it has the Unicode property White_Space. A text is blank when
  it holds nothing else, and trimming removes the blanks at both ends. The zero-width
  characters U+200B and U+FEFF are not blank.
  - `trim_trim`: a trimmed text has nothing left to trim.
  - `trim_eq_empty_iff`: a text is blank exactly when trimming leaves nothing.
-/

namespace Strongbox.Text

/-- The Unicode property White_Space. -/
def isBlankChar (c : Char) : Bool :=
  let n := c.toNat
  (0x09 ≤ n && n ≤ 0x0D) || n == 0x20 || n == 0x85 || n == 0xA0 || n == 0x1680
    || (0x2000 ≤ n && n ≤ 0x200A) || n == 0x2028 || n == 0x2029 || n == 0x202F
    || n == 0x205F || n == 0x3000

def trimEnd (cs : List Char) : List Char := (cs.reverse.dropWhile isBlankChar).reverse

def trimChars (cs : List Char) : List Char := trimEnd (cs.dropWhile isBlankChar)

def trim (s : String) : String := String.ofList (trimChars s.toList)

def isBlank (s : String) : Bool := s.toList.all isBlankChar

/-- Equality of texts when the letters A to Z count as a to z. -/
def sameLetters (a b : String) : Bool := a.toLower == b.toLower

/-- The pieces between the occurrences of `sep`, in order; a text without it is one piece. -/
def splitOnChar (sep : Char) (s : String) : List String :=
  go s.toList []
where
  /-- `acc` holds the current piece in reverse. -/
  go : List Char → List Char → List String
    | [], acc => [String.ofList acc.reverse]
    | c :: cs, acc =>
      if c = sep then String.ofList acc.reverse :: go cs [] else go cs (c :: acc)

def splitAtChar? (sep : Char) (s : String) : Option (String × String) :=
  match s.toList.span (· != sep) with
  | (_, []) => none
  | (l, _ :: r) => some (String.ofList l, String.ofList r)

/-! ## Trimmed texts -/

theorem dropWhile_eq_nil_iff_all (p : Char → Bool) (cs : List Char) :
    cs.dropWhile p = [] ↔ cs.all p = true := by
  induction cs with
  | nil => simp
  | cons c cs ih => by_cases h : p c <;> simp [h, ih]

theorem trimChars_eq_nil_iff (cs : List Char) :
    trimChars cs = [] ↔ cs.all isBlankChar = true := by
  rw [trimChars, trimEnd, List.reverse_eq_nil_iff, dropWhile_eq_nil_iff_all, List.all_reverse,
    ← dropWhile_eq_nil_iff_all, ← dropWhile_eq_nil_iff_all]
  constructor
  · intro h
    rcases hd : cs.dropWhile isBlankChar with _ | ⟨c, r⟩
    · rfl
    · have hc : isBlankChar c = false := by
        have := List.head_dropWhile_not isBlankChar (l := cs) (by rw [hd]; simp)
        simpa [hd] using this
      rw [hd, List.dropWhile_cons] at h
      simp [hc] at h
  · intro h
    simp [h]

theorem head?_dropWhile_of_pos {p : Char → Bool} {cs : List Char} {c : Char}
    (h : (cs.dropWhile p).head? = some c) : p c = false := by
  have hne : cs.dropWhile p ≠ [] := by
    intro h0
    rw [h0] at h
    cases h
  have hh := List.head_dropWhile_not p hne
  rw [List.head?_eq_some_head hne, Option.some.injEq] at h
  rw [← h]
  exact hh

theorem dropWhile_eq_self {p : Char → Bool} {cs : List Char}
    (h : ∀ c, cs.head? = some c → p c = false) : cs.dropWhile p = cs := by
  cases cs with
  | nil => rfl
  | cons c cs => rw [List.dropWhile_cons, h c rfl]; rfl

theorem head?_trimEnd {cs : List Char} {c : Char} (h : (trimEnd cs).head? = some c) :
    cs.head? = some c := by
  have hs : cs.reverse.takeWhile isBlankChar ++ (trimEnd cs).reverse = cs.reverse := by
    rw [trimEnd, List.reverse_reverse, List.takeWhile_append_dropWhile]
  have hr := congrArg List.reverse hs
  rw [List.reverse_append, List.reverse_reverse, List.reverse_reverse] at hr
  rw [← hr, List.head?_append, h]
  rfl

theorem trimEnd_trimEnd (cs : List Char) : trimEnd (trimEnd cs) = trimEnd cs := by
  rw [trimEnd, trimEnd, List.reverse_reverse, dropWhile_eq_self fun _ => head?_dropWhile_of_pos]

theorem trimChars_trimChars (cs : List Char) : trimChars (trimChars cs) = trimChars cs := by
  have h : (trimChars cs).dropWhile isBlankChar = trimChars cs :=
    dropWhile_eq_self fun _ h => head?_dropWhile_of_pos (head?_trimEnd h)
  rw [trimChars, h]
  exact trimEnd_trimEnd _

theorem trim_trim (s : String) : trim (trim s) = trim s := by
  rw [trim, trim, String.toList_ofList, trimChars_trimChars]

theorem trim_eq_empty_iff (s : String) : trim s = "" ↔ isBlank s = true := by
  rw [isBlank, ← trimChars_eq_nil_iff, trim, ← String.toList_inj, String.toList_ofList]
  rfl

end Strongbox.Text
