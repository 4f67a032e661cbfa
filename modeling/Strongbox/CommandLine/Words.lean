/-
  Strongbox.CommandLine.Words — options and commands among the words of a command line.

  An option is written with two hyphens and its name, or with one hyphen and its letter. Its
  value is the next word, or stands behind an equals sign or right behind the letter; a next
  word that begins with a hyphen is no value, unless it is only the hyphen. Letters of switches
  may share a hyphen. Words are read from left to right, and the first mistake counts.
-/

import Strongbox.Text.Blank

namespace Strongbox.CommandLine

inductive OptionKind where
  /-- On when it is given. -/
  | switch
  /-- A switch that may be given repeatedly. -/
  | counter
  | text
  /-- A text that is not empty. -/
  | path
  deriving DecidableEq, Repr

structure OptionForm where
  name : String
  letter : Option Char := none
  kind : OptionKind := .text
  /-- The options that must not be given along with it. -/
  excludes : List String := []

namespace OptionForm

def takesValue (o : OptionForm) : Bool := o.kind == .text || o.kind == .path

end OptionForm

inductive Halt where
  | refused
  | help
  | version
  deriving DecidableEq, Repr

structure Found where
  values : List (String × String) := []

namespace Found

def value? (f : Found) (name : String) : Option String := f.values.lookup name

def has (f : Found) (name : String) : Bool := (f.value? name).isSome

/-- Only a counter may be given again. -/
def add (f : Found) (o : OptionForm) (value : String) : Except Halt Found :=
  if (o.kind == .path && value == "") || (o.kind != .counter && f.has o.name) then .error .refused
  else .ok ⟨f.values ++ [(o.name, value)]⟩

end Found

/-- What may stand in one part of the command line, up to the next command. -/
structure Level where
  options : List OptionForm
  /-- The commands that may follow, each with those that may follow it. If there are any, one must
  follow. -/
  commands : List (String × List String) := []
  isTop : Bool := false

structure Scanned where
  found : Found
  command : Option (String × List String) := none

namespace Level

def isOption (w : String) : Bool := w.startsWith "-" && w != "-"

/-- The option without its hyphens; its value may follow. -/
def long (l : Level) (text : String) (f : Found) : Except Halt (Found × Option OptionForm) :=
  let (name, attached) := match Text.splitAtChar? '=' text with
    | some (name, value) => (name, some value)
    | none => (text, none)
  match l.options.find? (·.name == name), attached with
  | some o, some value =>
    if o.takesValue then (f.add o value).map (·, none) else .error .refused
  | some o, none => if o.takesValue then .ok (f, some o) else (f.add o "").map (·, none)
  | none, none =>
    .error (if name = "help" then .help else if l.isTop && name == "version" then .version
      else .refused)
  | none, some _ => .error .refused

/-- The letters behind a hyphen; the value of the last one may follow. -/
def letters (l : Level) : List Char → Found → Except Halt (Found × Option OptionForm)
  | [], f => .ok (f, none)
  | c :: cs, f =>
    match l.options.find? (·.letter == some c) with
    | none =>
      .error (if c = 'h' then .help else if l.isTop && c == 'V' then .version else .refused)
    | some o =>
      if o.takesValue then
        match cs with
        | [] => .ok (f, some o)
        | '=' :: value => (f.add o (String.ofList value)).map (·, none)
        | value => (f.add o (String.ofList value)).map (·, none)
      else
        match f.add o "" with
        | .ok f => letters l cs f
        | .error e => .error e

def isTopic (l : Level) : List String → Bool
  | [] => true
  | [w] => w == "help" || (l.commands.lookup w).isSome
  | [w, v] =>
    match l.commands.lookup w with
    | none | some [] => false
    | some below => v == "help" || below.contains v
  | _ => false

def command (l : Level) (w : String) (rest : List String) (f : Found) : Except Halt Scanned :=
  if (l.commands.lookup w).isSome then .ok ⟨f, some (w, rest)⟩
  else .error (if w = "help" ∧ !l.commands.isEmpty ∧ l.isTopic rest then .help else .refused)

/-- Reads the words up to the next command. `pending` is an option that waits for its value. -/
def scan (l : Level) (pending : Option OptionForm) (f : Found) : List String → Except Halt Scanned
  | [] => if pending.isSome then .error .refused else .ok ⟨f, none⟩
  | w :: rest =>
    match pending with
    | some o =>
      if isOption w then .error .refused
      else do scan l none (← f.add o w) rest
    | none =>
      if w = "--" then (if rest.isEmpty then .ok ⟨f, none⟩ else .error .refused)
      else if w.startsWith "--" then do
        let (f, pending) ← l.long (w.drop 2).toString f
        scan l pending f rest
      else if isOption w then do
        let (f, pending) ← l.letters (w.toList.drop 1) f
        scan l pending f rest
      else l.command w rest f

/-- No option is given along with one that it excludes. -/
def isConsistent (l : Level) (f : Found) : Bool :=
  l.options.all fun o => !f.has o.name || !o.excludes.any f.has

def read (l : Level) (words : List String) : Except Halt Scanned := do
  let s ← l.scan none {} words
  if s.command.isNone && !l.commands.isEmpty then throw .refused
  if l.isConsistent s.found then return s else throw .refused

end Level

end Strongbox.CommandLine
