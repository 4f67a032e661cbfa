/-
  Strongbox.CommandLine.Run — a whole run of the program, from its words to its output.
-/

import Strongbox.CommandLine.Session

namespace Strongbox.CommandLine

/-- All that a run depends on besides its words. -/
structure Surroundings where
  files : FileTree
  /-- The variables that are set. -/
  lookup : String → Option String
  random : Random
  now : Instant

/-- The exit status of a run, what it prints, and what it reports when it fails. -/
structure Outcome where
  exit : Nat
  output : String := ""
  trouble : Option String := none
  deriving DecidableEq, Repr

def usage : String :=
  "Usage: csp [--config FILE] [-v] COMMAND [OPTIONS]\n\n" ++
  "Commands:\n" ++
  "  encrypt, decrypt  --data TEXT | --in FILE, --owner, --alias, -a, --provider,\n" ++
  "                    --self-contained, --internal-provider\n" ++
  "  sign              --data TEXT | --in FILE, --owner, --alias, -a, --provider\n" ++
  "  verify            as sign, with --signature TEXT\n" ++
  "  cert              --owner, --alias, --der\n" ++
  "  hybrid seal       --data TEXT | --in FILE | --request FILE, --aad, --owner, --alias,\n" ++
  "                    --symmetric, --asymmetric, --provider\n" ++
  "  hybrid open       --envelope TEXT | --in FILE, --owner, --alias, --symmetric,\n" ++
  "                    --asymmetric, --provider\n"

namespace Outcome

def ofLine : Except Trouble String → Outcome
  | .ok line => { exit := 0, output := line ++ "\n" }
  | .error trouble => { exit := 1, trouble := some (String.intercalate ": " trouble) }

/-- A signature that does not match is no failure, but the exit status tells. -/
def ofVerdict : Except Trouble Bool → Outcome
  | .ok true => { exit := 0, output := "OK: signature is valid\n" }
  | .ok false => { exit := 1, output := "FAIL: signature does not match\n" }
  | .error trouble => ofLine (.error trouble)

def ofHalt : Halt → Outcome
  | .refused => { exit := 2 }
  | .help => { exit := 0, output := usage }
  | .version => { exit := 0, output := "csp 0.1.0\n" }

end Outcome

def Session.run (s : Session) (e : Surroundings) : Command → Outcome
  | .encrypt r => .ofLine (s.encrypt e.files e.random r)
  | .decrypt r => .ofLine (s.decrypt e.files r)
  | .sign r => .ofLine (s.sign e.files r)
  | .verify r => .ofVerdict (s.verify e.files r)
  | .certificate r => .ofLine (s.certificate e.now r)
  | .sealText r => .ofLine (s.sealText e.files e.random r)
  | .openText r => .ofLine (s.openText e.files r)

def run (e : Surroundings) (words : List String) : Outcome :=
  match Invocation.ofWords words with
  | .error h => .ofHalt h
  | .ok i =>
    match Session.load e.files e.lookup i.config with
    | .ok s => s.run e i.command
    | .error trouble => .ofLine (.error trouble)

end Strongbox.CommandLine
