/-
  Strongbox.Table — values under texts, in the order of the texts.

  An entry that is written under a text replaces the one that was there.
  - `get?_insert`: a written entry is read back, and the others stay.
-/

namespace Strongbox

structure Table (α : Type) where
  entries : List (String × α) := []
  /-- The texts increase, so none stands twice. -/
  sorted : entries.Pairwise (fun a b => a.1 < b.1) := by simp

namespace Table

def insertEntry (k : String) (a : α) : List (String × α) → List (String × α)
  | [] => [(k, a)]
  | (l, b) :: rest =>
    if k < l then (k, a) :: (l, b) :: rest
    else if k = l then (k, a) :: rest
    else (l, b) :: insertEntry k a rest

theorem mem_insertEntry {k : String} {a : α} {x : String × α} {es : List (String × α)}
    (h : x ∈ insertEntry k a es) : x = (k, a) ∨ x ∈ es := by
  induction es with
  | nil => simpa [insertEntry] using h
  | cons e rest ih =>
    obtain ⟨l, b⟩ := e
    rw [insertEntry] at h
    split at h
    · simpa using h
    · split at h
      · rcases List.mem_cons.mp h with h | h
        · exact .inl h
        · exact .inr (List.mem_cons_of_mem _ h)
      · rcases List.mem_cons.mp h with h | h
        · exact .inr (by simp [h])
        · rcases ih h with h | h
          · exact .inl h
          · exact .inr (List.mem_cons_of_mem _ h)

theorem sorted_insertEntry (k : String) (a : α) {es : List (String × α)}
    (h : es.Pairwise (fun a b => a.1 < b.1)) :
    (insertEntry k a es).Pairwise (fun a b => a.1 < b.1) := by
  induction es with
  | nil => simp [insertEntry]
  | cons e rest ih =>
    obtain ⟨l, b⟩ := e
    obtain ⟨hl, hr⟩ := List.pairwise_cons.mp h
    rw [insertEntry]
    split
    · rename_i hk
      refine List.pairwise_cons.mpr ⟨fun x hx => ?_, h⟩
      rcases List.mem_cons.mp hx with rfl | hx
      · exact hk
      · exact String.lt_trans hk (hl x hx)
    · rename_i hk
      split
      · rename_i he
        subst he
        exact List.pairwise_cons.mpr ⟨hl, hr⟩
      · rename_i he
        have hlk : l < k := by
          refine Classical.byContradiction fun hc => he ?_
          exact String.le_antisymm (String.not_lt.mp hc) (String.not_lt.mp hk)
        refine List.pairwise_cons.mpr ⟨fun x hx => ?_, ih hr⟩
        rcases mem_insertEntry hx with rfl | hx
        · exact hlk
        · exact hl x hx

def empty : Table α := {}

def insert (t : Table α) (k : String) (a : α) : Table α :=
  ⟨insertEntry k a t.entries, sorted_insertEntry k a t.sorted⟩

def get? (t : Table α) (k : String) : Option α := t.entries.lookup k

def contains (t : Table α) (k : String) : Bool := (t.get? k).isSome

def keys (t : Table α) : List String := t.entries.map (·.1)

def values (t : Table α) : List α := t.entries.map (·.2)

/-- Changes the value under a text, starting from `default` where there is none. -/
def update (t : Table α) (k : String) (default : α) (f : α → α) : Table α :=
  t.insert k (f ((t.get? k).getD default))

/-- The table of some pairs; of equal texts the last one counts. -/
def ofList (kvs : List (String × α)) : Table α := kvs.foldl (fun t (k, a) => t.insert k a) empty

theorem lookup_cons_eq (k l : String) (a : α) (es : List (String × α)) :
    ((k, a) :: es).lookup l = if l = k then some a else es.lookup l := by
  by_cases h : l = k
  · simp [h]
  · simp [List.lookup_cons, h, beq_false_of_ne h]

theorem lookup_insertEntry (k l : String) (a : α) (es : List (String × α)) :
    (insertEntry k a es).lookup l = if l = k then some a else es.lookup l := by
  induction es with
  | nil => rw [insertEntry, lookup_cons_eq]
  | cons e rest ih =>
    obtain ⟨m, b⟩ := e
    rw [insertEntry]
    split
    · rw [lookup_cons_eq]
    · split
      · rename_i he
        subst he
        rw [lookup_cons_eq, lookup_cons_eq]
        split <;> rfl
      · rename_i he
        rw [lookup_cons_eq, lookup_cons_eq, ih]
        by_cases h : l = m
        · simp [h, Ne.symm he]
        · simp [h]

@[simp] theorem get?_insert (t : Table α) (k l : String) (a : α) :
    (t.insert k a).get? l = if l = k then some a else t.get? l :=
  lookup_insertEntry k l a t.entries

end Table

end Strongbox
