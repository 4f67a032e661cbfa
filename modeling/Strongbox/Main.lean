/-
  Strongbox.Main — the program `csp`: gathers what a run depends on, and prints its outcome.
-/

import Std.Time.DateTime
import Strongbox.CommandLine.Run

namespace Strongbox.CommandLine

/-- Adds what a path leads to: a file, or a directory with the files in it. What cannot be read
counts as absent. -/
def gather (files : FileTree) (path : String) : IO FileTree := do
  try
    let place ← IO.FS.realPath path
    if ← place.isDir then
      let names := (← place.readDir).toList.map (·.fileName)
      names.foldlM (fun t name => entry t (Path.join path name)) (files.insert path .directory)
    else entry files path
  catch _ => return files
where
  /-- Adds one file. A directory inside of a directory is noted without what it holds. -/
  entry (files : FileTree) (path : String) : IO FileTree := do
    try
      if ← (← IO.FS.realPath path).isDir then return files.insert path .directory
      else
        let content ← IO.FS.readBinFile path
        return files.insert path (.file content.toList)
    catch _ => return files

/-- The files that a command line depends on: those that it names, and the key store. -/
def gatherFor (lookup : String → Option String) (words : List String) : IO FileTree := do
  match Invocation.ofWords words with
  | .error _ => return {}
  | .ok i =>
    let files ← i.files.foldlM gather {}
    match Session.loadConfig files lookup i.config with
    | .ok c => gather files c.keyStoreDirectory
    | .error _ => return files

def gatherVariables : IO (Table String) := do
  let pairs ← Config.variableNames.mapM fun name => return (name, ← IO.getEnv name)
  return .ofList (pairs.filterMap fun (name, value) => value.map (name, ·))

def currentInstant : IO Instant := do
  let now ← Std.Time.Timestamp.now
  return { seconds := now.toSecondsSinceUnixEpoch.val }

def freshRandom : IO Random := do
  let octets := (← IO.getRandomBytes 65536).toList.toArray
  return fun i => octets[i]?.getD 0

end Strongbox.CommandLine

open Strongbox.CommandLine in
def main (words : List String) : IO UInt32 := do
  let lookup := (← gatherVariables).get?
  let outcome := run
    { files := ← gatherFor lookup words, lookup, random := ← freshRandom, now := ← currentInstant }
    words
  IO.print outcome.output
  if let some trouble := outcome.trouble then IO.eprintln ("ERROR " ++ trouble)
  else if outcome.exit = 2 then IO.eprint usage
  return UInt32.ofNat outcome.exit
