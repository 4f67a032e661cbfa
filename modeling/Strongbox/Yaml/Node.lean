/-
  Strongbox.Yaml.Node — the tree that a YAML text writes.

  A reference stands for the node that was last anchored under its name. It is kept as the
  number of that node, because a node may refer to itself.
-/

import Strongbox.Yaml.Token

namespace Strongbox.Yaml

inductive Node where
  | scalar (tag : Option String) (style : ScalarStyle) (text : String)
  | sequence (items : List Node)
  | mapping (entries : List (Node × Node))
  | reference (number : Nat)

namespace Node

def empty : Node := scalar none .plain ""

end Node

/-- A tree, and the anchored nodes in it by their numbers. -/
structure Document where
  root : Node
  anchored : List (Nat × Node) := []

namespace Document

/-- The node that a reference stands for; any other node stands for itself. -/
def target? (d : Document) : Node → Option Node
  | .reference n => d.anchored.lookup n
  | n => some n

/-! ## Reading -/

/-- The tokens that are left, and what was declared before them. -/
structure Reading where
  tokens : List Token
  /-- The numbers of the names, newest first. -/
  names : List (String × Nat) := []
  anchored : List (Nat × Node) := []
  /-- What the handles of tags stand for. -/
  handles : List (String × String) := []

abbrev Reader := StateT Reading Option

namespace Reader

def peek? : Reader (Option Token) := return (← get).tokens.head?

def drop : Reader Unit := modify fun r => { r with tokens := r.tokens.tail }

def dropIf (t : Token) : Reader Bool := do
  if (← peek?) == some t then drop; return true
  else return false

def sees (ts : List Token) : Reader Bool := return (← peek?).any ts.contains

def anchor (name : String) : Reader Nat := do
  let r ← get
  set { r with names := (name, r.names.length) :: r.names }
  return r.names.length

/-- A tag written out; its handle must be declared. -/
def tagText (handle rest : String) : Reader String := do
  if handle = "" then return rest
  let some text := (← get).handles.lookup handle | failure
  return text ++ rest

def properties : Reader (Option Nat × Option String) := do
  match (← peek?) with
  | some (.anchor name) =>
    drop
    let n ← anchor name
    match (← peek?) with
    | some (.tag handle rest) => drop; return (some n, some (← tagText handle rest))
    | _ => return (some n, none)
  | some (.tag handle rest) =>
    drop
    match (← peek?) with
    | some (.anchor name) =>
      drop
      let n ← anchor name
      return (some n, some (← tagText handle rest))
    | _ => return (none, some (← tagText handle rest))
  | _ => return (none, none)

def keep (number : Option Nat) (node : Node) : Reader Node := do
  match number with
  | some n => modify fun r => { r with anchored := (n, node) :: r.anchored }
  | none => pure ()
  return node

/-- The tag of a scalar; a lone exclamation mark is none. -/
def scalarTag (tag : Option String) : Option String := tag.filter (· != "!")

mutual

/-- The node that comes next. Blocks are allowed only outside of flow collections, and a sequence
that is indented no more than the key it belongs to only in a block mapping. -/
def node : Nat → (block inMapping : Bool) → Reader Node
  | 0, _, _ => failure
  | fuel + 1, block, inMapping => do
    match (← peek?) with
    | some (.reference name) =>
      drop
      let some n := (← get).names.lookup name | failure
      return .reference n
    | _ =>
      let (number, tag) ← properties
      keep number (← content fuel block inMapping tag (number.isSome || tag.isSome))

/-- What stands behind the properties of a node. Nothing need stand there if it has any. -/
def content : Nat → (block inMapping : Bool) → Option String → Bool → Reader Node
  | 0, _, _, _, _ => failure
  | fuel + 1, block, inMapping, tag, hasProperties => do
    match (← peek?) with
    | some (.scalar style text) => drop; return .scalar (scalarTag tag) style text
    | some .flowSequenceStart => drop; return .sequence (← flowItems fuel true)
    | some .flowMappingStart => drop; return .mapping (← flowEntries fuel true)
    | some .blockEntry =>
      if inMapping then return .sequence (← looseItems fuel)
      else if hasProperties then return .scalar tag .plain ""
      else failure
    | some .blockSequenceStart =>
      if block then drop; return .sequence (← blockItems fuel)
      else if hasProperties then return .scalar tag .plain ""
      else failure
    | some .blockMappingStart =>
      if block then drop; return .mapping (← blockEntries fuel)
      else if hasProperties then return .scalar tag .plain ""
      else failure
    | _ => if hasProperties then return .scalar tag .plain "" else failure

/-- A node, or an empty one before a token that cannot begin a node. -/
def nodeUnless : Nat → List Token → (block inMapping : Bool) → Reader Node
  | 0, _, _, _ => failure
  | fuel + 1, stops, block, inMapping => do
    if (← sees stops) then return .empty else node fuel block inMapping

def blockItems : Nat → Reader (List Node)
  | 0 => failure
  | fuel + 1 => do
    if (← dropIf .blockEntry) then
      let item ← nodeUnless fuel [.blockEntry, .blockEnd] true false
      return item :: (← blockItems fuel)
    else if (← dropIf .blockEnd) then return []
    else failure

def looseItems : Nat → Reader (List Node)
  | 0 => failure
  | fuel + 1 => do
    if (← dropIf .blockEntry) then
      let item ← nodeUnless fuel [.blockEntry, .key, .value, .blockEnd] true false
      return item :: (← looseItems fuel)
    else return []

def blockEntries : Nat → Reader (List (Node × Node))
  | 0 => failure
  | fuel + 1 => do
    let stops := [Token.key, .value, .blockEnd]
    let valued := fun (key : Node) => do
      let value ← if (← dropIf .value) then nodeUnless fuel stops true true else pure .empty
      return (key, value) :: (← blockEntries fuel)
    if (← dropIf .key) then valued (← nodeUnless fuel stops true true)
    else if (← dropIf .blockEnd) then return []
    else failure

def flowItems : Nat → (first : Bool) → Reader (List Node)
  | 0, _ => failure
  | fuel + 1, first => do
    if (← dropIf .flowSequenceEnd) then return []
    if !first then guard (← dropIf .flowEntry)
    if (← dropIf .flowSequenceEnd) then return []
    let item ← if (← dropIf .key) then singleEntry fuel else node fuel false false
    return item :: (← flowItems fuel false)

/-- A mapping with one entry, written without braces. Where the key is missing, the token in its
place is lost. -/
def singleEntry : Nat → Reader Node
  | 0 => failure
  | fuel + 1 => do
    let stops := [Token.flowEntry, .flowSequenceEnd]
    let key ← if (← sees (.value :: stops)) then drop; pure .empty else node fuel false false
    let value ← if (← dropIf .value) then nodeUnless fuel stops false false else pure .empty
    return .mapping [(key, value)]

def flowEntries : Nat → (first : Bool) → Reader (List (Node × Node))
  | 0, _ => failure
  | fuel + 1, first => do
    let stops := [Token.flowEntry, .flowMappingEnd]
    if (← dropIf .flowMappingEnd) then return []
    if !first then guard (← dropIf .flowEntry)
    if (← dropIf .flowMappingEnd) then return []
    if (← dropIf .key) then
      let key ← nodeUnless fuel (.value :: stops) false false
      let value ← if (← dropIf .value) then nodeUnless fuel stops false false else pure .empty
      return (key, value) :: (← flowEntries fuel false)
    else
      let key ← node fuel false false
      return (key, .empty) :: (← flowEntries fuel false)

end

def seesDirective : Reader Bool := return match (← peek?) with
  | some (.version _ _) => true
  | some (.tagHandle _ _) => true
  | _ => false

/-- The directives of a document: at most one version, which must be 1.1 or 1.2, and handles. -/
def directives : Nat → (versioned : Bool) → Reader Unit
  | 0, _ => failure
  | fuel + 1, versioned => do
    match (← peek?) with
    | some (.version major minor) =>
      guard (!versioned && major == 1 && (minor == 1 || minor == 2))
      drop
      directives fuel true
    | some (.tagHandle handle text) =>
      let r ← get
      guard (r.handles.lookup handle).isNone
      set { r with tokens := r.tokens.tail, handles := (handle, text) :: r.handles }
      directives fuel versioned
    | _ => return

def defaultHandles : List (String × String) := [("!", "!"), ("!!", "tag:yaml.org,2002:")]

/-- The root of a document. Without directives the mark at its beginning may be missing. -/
def root (fuel : Nat) : Reader Node := do
  if (← seesDirective) || (← sees [.documentStart]) then
    directives fuel false
    guard (← dropIf .documentStart)
    modify fun r => { r with handles := r.handles ++ defaultHandles }
    if (← get).tokens.isEmpty || (← seesDirective) || (← sees [.documentStart, .documentEnd]) then
      return .empty
    else node fuel true false
  else
    modify fun r => { r with handles := defaultHandles }
    node fuel true false

end Reader

/-- The document of some tokens. There must be one, and nothing but end marks behind it. -/
def ofTokens? (ts : List Token) : Option Document := do
  guard (!ts.isEmpty)
  let (root, r) ← (Reader.root (4 * ts.length + 4)).run { tokens := ts }
  guard (r.tokens.all (· == .documentEnd))
  return { root, anchored := r.anchored }

def ofText? (s : String) : Option Document := (Token.ofText? s).bind ofTokens?

end Document

end Strongbox.Yaml
