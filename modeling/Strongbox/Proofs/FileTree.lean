/-
  Strongbox.Proofs.FileTree — what stands under a name in a directory.

  A path is walked piece by piece, so the walk to a name in a directory is the walk to the
  directory and one step more. A name is a piece that a step really goes to: neither empty nor
  dots that stay or lead up, and without a slash.
  - `walk_append`: a walk goes on from where its first part ends.
  - `Path.ofString_join`, `steps_of_reach_join`: a name in a directory stands in the directory.
  - `node_join`: what a name in a directory leads to.
  - `mem_list_of_isFile`: a directory lists every file that its names lead to.
-/

import Strongbox.FileTree

namespace Strongbox

/-! ## Paths in a directory -/

namespace Path

/-- A piece that leads from a directory to what it holds. -/
structure IsName (w : String) : Prop where
  ne_empty : w ≠ ""
  ne_here : w ≠ "."
  ne_above : w ≠ ".."
  no_slash : '/' ∉ w.toList

theorem IsName.step {w : String} (h : IsName w) (p : Path) : Path.step p w = p ++ [w] := by
  rw [Path.step, if_neg (by simp [h.ne_empty, h.ne_here]), if_neg h.ne_above]

/-- The pieces, with `pieces` for what follows the characters. -/
def piecesBefore (cs : List Char) (pieces : List String) : List String :=
  cs.foldr (fun c acc =>
    match c, acc with
    | '/', acc => "" :: acc
    | c, w :: ws => (String.singleton c ++ w) :: ws
    | c, [] => [String.singleton c]) pieces

theorem pieces_eq (s : String) : pieces s = piecesBefore s.toList [""] := rfl

theorem piecesBefore_cons_slash (cs : List Char) (ws : List String) :
    piecesBefore ('/' :: cs) ws = "" :: piecesBefore cs ws := rfl

theorem piecesBefore_append (cs ds : List Char) (ws : List String) :
    piecesBefore (cs ++ ds) ws = piecesBefore cs (piecesBefore ds ws) := List.foldr_append

theorem piecesBefore_cons {c : Char} (hc : c ≠ '/') {cs : List Char} {w : String}
    {ws us : List String} (h : piecesBefore cs ws = w :: us) :
    piecesBefore (c :: cs) ws = (String.singleton c ++ w) :: us := by
  show (match c, piecesBefore cs ws with
    | '/', acc => "" :: acc
    | c, w :: ws => (String.singleton c ++ w) :: ws
    | c, [] => [String.singleton c]) = _
  rw [h]
  split
  · exact absurd rfl hc
  · rename_i he
    cases he
    rfl
  · rename_i he
    cases he

/-- Only the first of the following pieces is changed. -/
theorem piecesBefore_append_pieces (cs : List Char) (w : String) (ws : List String) :
    ∃ v vs, piecesBefore cs [w] = v :: vs ∧ piecesBefore cs (w :: ws) = v :: (vs ++ ws) := by
  induction cs with
  | nil => exact ⟨w, [], rfl, rfl⟩
  | cons c cs ih =>
    obtain ⟨v, vs, h, h'⟩ := ih
    by_cases hc : c = '/'
    · subst hc
      refine ⟨"", v :: vs, ?_, ?_⟩
      · rw [piecesBefore_cons_slash, h]
      · rw [piecesBefore_cons_slash, h', List.cons_append]
    · exact ⟨_, vs, piecesBefore_cons hc h, piecesBefore_cons hc h'⟩

theorem piecesBefore_of_no_slash {cs : List Char} (h : '/' ∉ cs) :
    piecesBefore cs [""] = [String.ofList cs] := by
  induction cs with
  | nil => rfl
  | cons c cs ih =>
    rw [List.mem_cons, not_or] at h
    obtain ⟨hc, hcs⟩ := h
    have hw : String.singleton c ++ String.ofList cs = String.ofList (c :: cs) := by
      rw [← String.toList_inj]
      simp
    rw [piecesBefore_cons (Ne.symm hc) (ih hcs), hw]

theorem pieces_append_slash (dir : String) {w : String} (hw : '/' ∉ w.toList) :
    pieces (dir ++ "/" ++ w) = pieces dir ++ [w] := by
  obtain ⟨v, vs, h, h'⟩ := piecesBefore_append_pieces dir.toList "" [w]
  have hs : (dir ++ "/" ++ w).toList = dir.toList ++ ('/' :: w.toList) := by simp
  rw [pieces_eq, pieces_eq, hs, piecesBefore_append, piecesBefore_cons_slash,
    piecesBefore_of_no_slash hw, String.ofList_toList, h', h]
  rfl

theorem pieces_slash (dir : String) : pieces (dir ++ "/") = pieces dir ++ [""] := by
  simpa using pieces_append_slash dir (w := "") (by simp)

theorem step_empty (p : Path) : step p "" = p := if_pos (.inl rfl)

/-- Whether a path begins at the root is told by its first character. -/
theorem start_append {dir : String} (h : dir ≠ "") (s : String) :
    start (dir ++ s) = start dir := by
  have hiff : (dir ++ s).startsWith "/" = true ↔ dir.startsWith "/" = true := by
    rw [String.startsWith_string_iff, String.startsWith_string_iff, String.toList_append]
    cases hd : dir.toList with
    | nil => exact absurd (String.toList_eq_nil_iff.mp hd) h
    | cons c cs => simp
  rw [start, start]
  by_cases hd : dir.startsWith "/" = true
  · rw [if_pos hd, if_pos (hiff.mpr hd)]
  · rw [if_neg hd, if_neg (mt hiff.mp hd)]

theorem eq_append_of_endsWith {dir : String} (h : dir.endsWith "/" = true) :
    ∃ stem, dir = stem ++ "/" := by
  rw [String.endsWith_eq_endsWith_toSlice, String.Slice.endsWith_string_iff] at h
  obtain ⟨cs, hcs⟩ := h
  refine ⟨String.ofList cs, ?_⟩
  rw [← String.toList_inj]
  simpa using hcs.symm

/-- The steps to a name in a directory are those to the directory, and the name. -/
theorem ofString_join (dir : String) {w : String} (hw : IsName w) :
    ofString (join dir w) = ofString dir ++ [w] := by
  by_cases hne : dir = ""
  · subst hne
    have hstart : start w = [] := by
      rw [start, if_neg]
      rw [String.startsWith_string_iff]
      intro h
      exact hw.no_slash (h.subset (by decide))
    have hjoin : join "" w = w := by
      rw [join, if_pos (.inl rfl), String.empty_append]
    rw [hjoin, ofString, hstart, pieces_eq, piecesBefore_of_no_slash hw.no_slash,
      String.ofList_toList, List.foldl_cons, List.foldl_nil, hw.step]
    rfl
  · rw [join]
    by_cases hs : dir.endsWith "/" = true
    · obtain ⟨stem, rfl⟩ := eq_append_of_endsWith hs
      rw [if_pos (.inr hs), ofString, ofString, start_append hne, pieces_append_slash stem hw.no_slash,
        pieces_slash, List.foldl_append, List.foldl_append]
      simp only [List.foldl_cons, List.foldl_nil, step_empty, hw.step]
    · rw [if_neg (by simp [hne, hs]), ofString, ofString, String.append_assoc, start_append hne,
        ← String.append_assoc, pieces_append_slash dir hw.no_slash, List.foldl_append,
        List.foldl_cons, List.foldl_nil, hw.step]

end Path

/-! ## Walks -/

namespace FileTree

variable {t : FileTree} {p q : Path} {w dir : String}

/-- A walk goes on from where its first part ends. -/
theorem walk_append (t : FileTree) (p : Path) (ws vs : List String) :
    t.walk p (ws ++ vs) =
      match t.walk p ws with
      | .ok (q, _) => t.walk q vs
      | .error e => .error e := by
  induction ws generalizing p with
  | nil =>
    rw [List.nil_append, walk.eq_1]
    cases hn : t.find? p with
    | some n => rfl
    | none =>
      cases vs with
      | nil => rw [walk, hn]
      | cons v vs => rw [walk, hn]
  | cons u ws ih =>
    rw [List.cons_append, walk, walk]
    match t.find? p with
    | none => rfl
    | some (.file _) => rfl
    | some .directory =>
      by_cases hl : 255 < u.utf8ByteSize
      · simp [hl]
      · simp [hl, ih]

theorem find?_of_walk {ws : List String} {n : FileNode} (h : t.walk p ws = .ok (q, n)) :
    t.find? q = some n := by
  induction ws generalizing p with
  | nil =>
    rw [walk] at h
    split at h
    · rename_i m hm
      cases h
      exact hm
    · cases h
  | cons u ws ih =>
    rw [walk] at h
    split at h
    · split at h
      · cases h
      · exact ih h
    · cases h
    · cases h

theorem find?_of_reach {path : String} {n : FileNode} (h : t.reach path = .ok (q, n)) :
    t.find? q = some n := by
  rw [reach] at h
  split at h
  · cases h
  · exact find?_of_walk h

theorem walk_name (hp : t.find? p = some .directory) (hw : Path.IsName w) :
    t.walk p [w] =
      if 255 < w.utf8ByteSize then .error .nameTooLong
      else match t.find? (p ++ [w]) with
        | some n => .ok (p ++ [w], n)
        | none => .error .notFound := by
  rw [walk, hp]
  by_cases hlong : 255 < w.utf8ByteSize
  · simp only [hw.step, hlong, if_true]
  · cases hf : t.find? (p ++ [w]) with
    | none => simp only [hw.step, hlong, if_false, walk, hf]
    | some n => simp only [hw.step, hlong, if_false, walk, hf]

/-- The walk to a name in a directory goes through the directory. -/
theorem reach_join_eq (t : FileTree) (hne : dir ≠ "") (hw : Path.IsName w) :
    t.reach (Path.join dir w) =
      match t.reach dir with
      | .ok (q, _) => t.walk q [w]
      | .error e => .error e := by
  have hjoin : Path.join dir w ≠ "" := by
    rw [Path.join]
    split <;> simp [hne]
  rw [reach, if_neg hjoin, reach, if_neg hne, Path.join]
  by_cases hs : dir.endsWith "/" = true
  · obtain ⟨stem, rfl⟩ := Path.eq_append_of_endsWith hs
    -- the pieces of the directory end with an empty one, which the walk passes over
    rw [if_pos (.inr hs), Path.start_append hne, Path.pieces_append_slash stem hw.no_slash,
      Path.pieces_slash, walk_append, walk_append]
    cases hq : t.walk (Path.start (stem ++ "/")) (Path.pieces stem) with
    | error e => rfl
    | ok reached =>
      obtain ⟨q, n⟩ := reached
      have hn := find?_of_walk hq
      cases n with
      | file b => simp only [walk, hn]
      | directory =>
        have hshort : ¬ 255 < "".utf8ByteSize := by decide
        simp only [walk, hn, Path.step_empty, hshort, if_false]
  · rw [if_neg (by simp [hne, hs]), String.append_assoc, Path.start_append hne,
      ← String.append_assoc, Path.pieces_append_slash dir hw.no_slash, walk_append]

theorem ne_empty_of_reach {x : Path × FileNode} (hd : t.reach dir = .ok x) : dir ≠ "" := by
  rintro rfl
  cases hd

theorem reach_join (hd : t.reach dir = .ok (p, .directory)) (hw : Path.IsName w) :
    t.reach (Path.join dir w) = t.walk p [w] := by
  rw [reach_join_eq t (ne_empty_of_reach hd) hw, hd]

theorem node_of_read {path : String} {b : Bytes} (h : t.read path = .ok b) :
    t.node path = .ok (.file b) := by
  rw [read] at h
  split at h
  · rename_i c hc
    cases h
    exact hc
  · cases h
  · cases h

theorem exists_reach_of_isDirectory (h : t.isDirectory dir = true) :
    ∃ p, t.reach dir = .ok (p, .directory) := by
  rw [isDirectory, node] at h
  match hr : t.reach dir with
  | .ok (p, .directory) => exact ⟨p, rfl⟩
  | .ok (p, .file b) => rw [hr] at h; cases h
  | .error e => rw [hr] at h; cases h

theorem node_join (hd : t.reach dir = .ok (p, .directory)) (hw : Path.IsName w) :
    t.node (Path.join dir w) =
      if 255 < w.utf8ByteSize then .error .nameTooLong
      else match t.find? (p ++ [w]) with
        | some n => .ok n
        | none => .error .notFound := by
  have hp : t.find? p = some .directory := find?_of_reach hd
  rw [node, reach_join hd hw, walk_name hp hw]
  split
  · rfl
  · split <;> rfl

/-- What a name in a directory leads to stands in the directory. -/
theorem steps_of_reach_join (hd : t.reach dir = .ok (p, .directory)) (hw : Path.IsName w)
    {n : FileNode} (h : t.reach (Path.join dir w) = .ok (q, n)) : q = p ++ [w] := by
  have hp : t.find? p = some .directory := find?_of_reach hd
  rw [reach_join hd hw, walk_name hp hw] at h
  split at h
  · cases h
  · split at h
    · cases h
      rfl
    · cases h

/-- A name leads to something only in a directory. -/
theorem isDirectory_of_reach_join (hne : dir ≠ "") (hw : Path.IsName w) {x : Path × FileNode}
    (h : t.reach (Path.join dir w) = .ok x) : t.isDirectory dir = true := by
  rw [reach_join_eq t hne hw] at h
  cases hr : t.reach dir with
  | error e =>
    rw [hr] at h
    cases h
  | ok reached =>
    obtain ⟨q, n⟩ := reached
    have hn := find?_of_reach hr
    rw [hr] at h
    cases n with
    | directory =>
      rw [isDirectory, node, hr]
      rfl
    | file b =>
      simp only [walk, hn] at h
      cases h

theorem mem_list_of_isFile (hd : t.isDirectory dir = true) (hw : Path.IsName w)
    (hf : t.isFile (Path.join dir w) = true) : ∃ names, t.list dir = .ok names ∧ w ∈ names := by
  obtain ⟨p, hr⟩ := exists_reach_of_isDirectory hd
  rw [list, hr]
  refine ⟨_, rfl, ?_⟩
  rw [isFile, node_join hr hw] at hf
  split at hf
  · rename_i b hb
    split at hb
    · cases hb
    · split at hb
      · rename_i n hn
        cases hb
        have hlookup : t.nodes.lookup (p ++ [w]) = some (.file b) := by
          rw [find?] at hn
          split at hn
          · cases hn
          · exact hn
        obtain ⟨before, after, hnodes, -⟩ := List.lookup_eq_some_iff.mp hlookup
        refine List.mem_filterMap.mpr ⟨(p ++ [w], .file b), by simp [hnodes], ?_⟩
        simp
      · cases hb
  · cases hf

theorem exists_list_of_isDirectory (h : t.isDirectory dir = true) :
    ∃ names, t.list dir = .ok names := by
  obtain ⟨p, hr⟩ := exists_reach_of_isDirectory h
  rw [list, hr]
  exact ⟨_, rfl⟩

/-- What can be listed is a directory. -/
theorem isDirectory_of_list {path : String} {names : List String}
    (h : t.list path = .ok names) : t.isDirectory path = true := by
  rw [list] at h
  split at h
  · rename_i p hr
    rw [isDirectory, node, hr]
    rfl
  · cases h
  · cases h

end FileTree

end Strongbox
