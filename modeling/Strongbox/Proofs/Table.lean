/-
  Strongbox.Proofs.Table — the texts of a table.

  The texts of a table are in order and none stands twice, so they are told by which they are.
  - `mem_keys`: the texts are those that an entry is read under.
  - `mem_keys_ofList`: a table of pairs has the texts of the pairs.
  - `keys_eq_of_mem_iff`: tables with the same texts list them alike.
  - `get?_ofList`: a table of pairs holds the last value of each text.
-/

import Strongbox.Table

namespace Strongbox.Table

variable {k l : String}

theorem lookup_isSome {es : List (String × α)} :
    (es.lookup k).isSome = true ↔ k ∈ es.map (·.1) := by
  induction es with
  | nil => simp
  | cons e es ih =>
    obtain ⟨m, a⟩ := e
    rw [lookup_cons_eq, List.map_cons, List.mem_cons]
    by_cases h : k = m
    · simp [h]
    · rw [if_neg h, ih]
      simp [h]

theorem mem_keys {t : Table α} : k ∈ t.keys ↔ (t.get? k).isSome = true := lookup_isSome.symm

theorem mem_values_of_get? {t : Table α} {a : α} (h : t.get? k = some a) : a ∈ t.values := by
  obtain ⟨front, back, hsplit, -⟩ := List.lookup_eq_some_iff.mp h
  refine List.mem_map.mpr ⟨(k, a), ?_, rfl⟩
  rw [hsplit]
  exact List.mem_append_right _ List.mem_cons_self

theorem mem_keys_insert {t : Table α} {a : α} : l ∈ (t.insert k a).keys ↔ l = k ∨ l ∈ t.keys := by
  rw [mem_keys, mem_keys, get?_insert]
  by_cases h : l = k
  · simp [h]
  · simp [h]

theorem mem_keys_ofList {kvs : List (String × α)} : k ∈ (ofList kvs).keys ↔ k ∈ kvs.map (·.1) := by
  have step (kvs : List (String × α)) (t : Table α) :
      k ∈ (kvs.foldl (fun t kv => t.insert kv.1 kv.2) t).keys ↔
        k ∈ kvs.map (·.1) ∨ k ∈ t.keys := by
    induction kvs generalizing t with
    | nil => simp
    | cons kv kvs ih =>
      rw [List.foldl_cons, ih, mem_keys_insert, List.map_cons, List.mem_cons]
      constructor
      · rintro (h | h | h)
        · exact .inl (.inr h)
        · exact .inl (.inl h)
        · exact .inr h
      · rintro ((h | h) | h)
        · exact .inr (.inl h)
        · exact .inl h
        · exact .inr (.inr h)
  refine (step kvs empty).trans ?_
  exact or_iff_left (by simp [keys, empty])

theorem pairwise_keys (t : Table α) : t.keys.Pairwise (· < ·) := List.pairwise_map.mpr t.sorted

theorem nodup_keys (t : Table α) : t.keys.Nodup := by
  refine t.pairwise_keys.imp ?_
  rintro k _ hlt rfl
  exact String.lt_irrefl k hlt

/-- Tables with the same texts list them alike. -/
theorem keys_eq_of_mem_iff {t : Table α} {u : Table β} (h : ∀ k, k ∈ t.keys ↔ k ∈ u.keys) :
    t.keys = u.keys := by
  refine List.Perm.eq_of_pairwise (fun _ _ _ _ hab hba => absurd hba (String.lt_asymm hab))
    t.pairwise_keys u.pairwise_keys ?_
  exact (List.perm_ext_iff_of_nodup t.nodup_keys u.nodup_keys).mpr h

/-! ## The last value counts -/

/-- Where each step writes what is seen of a state or leaves it, the last written value is seen in
the end. -/
theorem foldl_eq_getLast? (act : σ → β → σ) (seen : σ → Option α) (written : β → Option α)
    (hstep : ∀ s x, seen (act s x) = (written x).or (seen s)) (s : σ) (xs : List β) :
    seen (xs.foldl act s) = (xs.filterMap written).getLast?.or (seen s) := by
  induction xs generalizing s with
  | nil => rfl
  | cons x xs ih =>
    rw [List.foldl_cons, ih, hstep]
    cases hx : written x with
    | none => simp [hx]
    | some a =>
      cases hlast : (xs.filterMap written).getLast? with
      | none => simp [hx, List.getLast?_cons, hlast]
      | some b => simp [hx, List.getLast?_cons, hlast]

def valueUnder (k : String) (kv : String × α) : Option α := if kv.1 = k then some kv.2 else none

/-- A table of pairs holds the last value of each text. -/
theorem get?_ofList (kvs : List (String × α)) (k : String) :
    (ofList kvs).get? k = (kvs.filterMap (valueUnder k)).getLast? := by
  have hstep (t : Table α) (kv : String × α) :
      (t.insert kv.1 kv.2).get? k = (valueUnder k kv).or (t.get? k) := by
    rw [get?_insert, valueUnder]
    by_cases h : kv.1 = k
    · simp [h]
    · simp [h, Ne.symm h]
  exact (foldl_eq_getLast? (fun t kv => t.insert kv.1 kv.2) (·.get? k) (valueUnder k) hstep empty
    kvs).trans Option.or_none

theorem get?_update (t : Table α) (k l : String) (default : α) (f : α → α) :
    (t.update k default f).get? l =
      if l = k then some (f ((t.get? k).getD default)) else t.get? l := by
  rw [update, get?_insert]

theorem mem_keys_update {t : Table α} {default : α} {f : α → α} :
    l ∈ (t.update k default f).keys ↔ l = k ∨ l ∈ t.keys := mem_keys_insert

end Strongbox.Table
