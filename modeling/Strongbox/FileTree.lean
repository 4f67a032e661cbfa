/-
  Strongbox.FileTree — files and directories by their paths.

  A path is read from the working directory, or from the root when it begins with a slash.
  Single dots and repeated slashes do not count, and two dots lead to the directory above. What
  stands before a slash must be a directory, and a name has at most 255 octets.
-/

import Strongbox.Bytes

namespace Strongbox

inductive FileNode where
  | file (content : Bytes)
  | directory
  deriving DecidableEq, Repr

inductive FileError where
  | notFound
  | notDirectory
  | isDirectory
  | nameTooLong
  | notText
  deriving DecidableEq, Repr

def FileError.message : FileError → String
  | notFound => "No such file or directory (os error 2)"
  | notDirectory => "Not a directory (os error 20)"
  | isDirectory => "Is a directory (os error 21)"
  | nameTooLong => "File name too long (os error 36)"
  | notText => "stream did not contain valid UTF-8"

/-- The steps of a path; the first one is a slash when it begins at the root. -/
abbrev Path := List String

namespace Path

/-- A slash between two paths, unless the first one is empty or ends with one. -/
def join (dir name : String) : String :=
  if dir = "" ∨ dir.endsWith "/" then dir ++ name else dir ++ "/" ++ name

def pieces (s : String) : List String :=
  s.toList.foldr (fun c acc =>
    match c, acc with
    | '/', acc => "" :: acc
    | c, w :: ws => (String.singleton c ++ w) :: ws
    | c, [] => [String.singleton c]) [""]

/-- Where a path begins: at the root or in the working directory. -/
def start (s : String) : Path := if s.startsWith "/" then ["/"] else []

/-- One piece further. The root has nothing above it. -/
def step (p : Path) (w : String) : Path :=
  if w = "" ∨ w = "." then p
  else if w = ".." then (if p = ["/"] then p else p.dropLast)
  else p ++ [w]

def ofString (s : String) : Path := (pieces s).foldl step (start s)

def above (s : String) : List Path :=
  let ws := pieces s
  (List.range ws.length).map fun i => (ws.take i).foldl step (start s)

end Path

/-- The known files and directories. The root and the working directory are always there. -/
structure FileTree where
  nodes : List (Path × FileNode) := []
  deriving Repr

namespace FileTree

def find? (t : FileTree) (p : Path) : Option FileNode :=
  if p = [] ∨ p = ["/"] then some .directory else t.nodes.lookup p

/-- Goes on from a path piece by piece. Only a directory leads further. -/
def walk (t : FileTree) (p : Path) : List String → Except FileError (Path × FileNode)
  | [] =>
    match t.find? p with
    | some n => .ok (p, n)
    | none => .error .notFound
  | w :: ws =>
    match t.find? p with
    | some .directory =>
      if 255 < w.utf8ByteSize then .error .nameTooLong else walk t (p.step w) ws
    | some (.file _) => .error .notDirectory
    | none => .error .notFound

/-- What a path leads to, with the steps to it. -/
def reach (t : FileTree) (path : String) : Except FileError (Path × FileNode) :=
  if path = "" then .error .notFound else t.walk (.start path) (Path.pieces path)

def node (t : FileTree) (path : String) : Except FileError FileNode :=
  (t.reach path).map (·.2)

def isDirectory (t : FileTree) (path : String) : Bool :=
  match t.node path with
  | .ok .directory => true
  | _ => false

def isFile (t : FileTree) (path : String) : Bool :=
  match t.node path with
  | .ok (.file _) => true
  | _ => false

def read (t : FileTree) (path : String) : Except FileError Bytes :=
  match t.node path with
  | .ok (.file b) => .ok b
  | .ok .directory => .error .isDirectory
  | .error e => .error e

def readText (t : FileTree) (path : String) : Except FileError String := do
  match Bytes.toString? (← t.read path) with
  | some s => return s
  | none => throw .notText

def list (t : FileTree) (path : String) : Except FileError (List String) :=
  match t.reach path with
  | .ok (p, .directory) =>
    .ok <| t.nodes.filterMap fun (q, _) =>
      if q.dropLast = p then q.getLast? else none
  | .ok (_, .file _) => .error .notDirectory
  | .error e => .error e

/-- Puts a node at a path, and directories above it where nothing is. -/
def insert (t : FileTree) (path : String) (n : FileNode) : FileTree :=
  let p := Path.ofString path
  let missing := ((Path.above path).filter fun q => (t.find? q).isNone).eraseDups
  ⟨(p, n) :: missing.map (·, .directory) ++ t.nodes.filter (·.1 != p)⟩

def erase (t : FileTree) (path : String) : FileTree :=
  let p := Path.ofString path
  ⟨t.nodes.filter fun (q, _) => !p.isPrefixOf q⟩

end FileTree

end Strongbox
