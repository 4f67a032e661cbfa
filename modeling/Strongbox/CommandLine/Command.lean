/-
  Strongbox.CommandLine.Command — the commands and what they are asked to do.
-/

import Strongbox.CommandLine.Words

namespace Strongbox.CommandLine

structure Payload where
  inlineText : Option String := none
  file : Option String := none
  deriving DecidableEq, Repr

structure Target where
  owner : Option String := none
  keyAlias : Option String := none
  deriving DecidableEq, Repr

structure CipherRequest where
  input : Payload := {}
  target : Target := {}
  algorithm : String := ""
  provider : Option String := none
  selfContained : Bool := false
  internalProvider : Option String := none
  deriving DecidableEq, Repr

structure SignRequest where
  input : Payload := {}
  target : Target := {}
  algorithm : String := "SHA256withRSA"
  provider : Option String := none
  deriving DecidableEq, Repr

structure VerifyRequest extends SignRequest where
  signature : String
  deriving DecidableEq, Repr

structure CertificateRequest where
  target : Target := {}
  /-- Whether the encoding is shown too. -/
  withEncoding : Bool := false
  deriving DecidableEq, Repr

structure HybridAlgorithms where
  symmetric : String := "AES/GCM/NoPadding"
  asymmetric : String := "RSA"
  provider : Option String := none
  deriving DecidableEq, Repr

structure SealRequest where
  input : Payload := {}
  /-- A file with a JSON text instead of the input. -/
  request : Option String := none
  associatedText : Option String := none
  target : Target := {}
  algorithms : HybridAlgorithms := {}
  deriving DecidableEq, Repr

structure OpenRequest where
  envelope : Payload := {}
  target : Target := {}
  algorithms : HybridAlgorithms := {}
  deriving DecidableEq, Repr

inductive Command where
  | encrypt (request : CipherRequest)
  | decrypt (request : CipherRequest)
  | sign (request : SignRequest)
  | verify (request : VerifyRequest)
  | certificate (request : CertificateRequest)
  | sealText (request : SealRequest)
  | openText (request : OpenRequest)
  deriving DecidableEq, Repr

namespace Command

def files : Command → List String
  | encrypt r => r.input.file.toList
  | decrypt r => r.input.file.toList
  | sign r => r.input.file.toList
  | verify r => r.input.file.toList
  | certificate _ => []
  | sealText r => r.input.file.toList ++ r.request.toList
  | openText r => r.envelope.file.toList

end Command

structure Invocation where
  config : Option String
  command : Command
  deriving DecidableEq, Repr

/-! ## The levels -/

def generalOptions : List OptionForm :=
  [{ name := "verbose", letter := some 'v', kind := .counter }, { name := "config", kind := .path }]

def inputOptions : List OptionForm :=
  [{ name := "data", excludes := ["in"] }, { name := "in", kind := .path }]

def targetOptions : List OptionForm := [{ name := "owner" }, { name := "alias" }]

def algorithmOptions : List OptionForm :=
  [{ name := "algorithm", letter := some 'a' }, { name := "provider" }]

def hybridOptions : List OptionForm :=
  [{ name := "symmetric" }, { name := "asymmetric" }, { name := "provider" }]

def cipherLevel : Level where
  options := generalOptions ++ inputOptions ++ targetOptions ++ algorithmOptions ++
    [{ name := "self-contained", kind := .switch, excludes := ["owner", "alias"] },
      { name := "internal-provider", excludes := ["owner", "alias"] }]

def signLevel : Level where
  options := generalOptions ++ inputOptions ++ targetOptions ++ algorithmOptions

def verifyLevel : Level where
  options := { name := "signature" } :: signLevel.options

def certificateLevel : Level where
  options := generalOptions ++ targetOptions ++ [{ name := "der", kind := .switch }]

def sealLevel : Level where
  options := generalOptions ++ inputOptions ++ targetOptions ++ hybridOptions ++
    [{ name := "request", kind := .path, excludes := ["data", "in"] }, { name := "aad" }]

def openLevel : Level where
  options := generalOptions ++ targetOptions ++ hybridOptions ++
    [{ name := "envelope", excludes := ["in"] }, { name := "in", kind := .path }]

def hybridLevel : Level where
  options := generalOptions
  commands := [("seal", []), ("open", [])]

def topLevel : Level where
  options := generalOptions
  commands :=
    [("encrypt", []), ("decrypt", []), ("sign", []), ("verify", []), ("cert", []),
      ("hybrid", ["seal", "open"])]
  isTop := true

/-! ## Requests -/

namespace Found

def target (f : Found) : Target := ⟨f.value? "owner", f.value? "alias"⟩

def input (f : Found) : Payload := ⟨f.value? "data", f.value? "in"⟩

def cipherRequest (f : Found) : CipherRequest :=
  { input := f.input, target := f.target, algorithm := (f.value? "algorithm").getD "",
    provider := f.value? "provider", selfContained := f.has "self-contained",
    internalProvider := f.value? "internal-provider" }

def signRequest (f : Found) : SignRequest :=
  { input := f.input, target := f.target,
    algorithm := (f.value? "algorithm").getD "SHA256withRSA", provider := f.value? "provider" }

def hybridAlgorithms (f : Found) : HybridAlgorithms :=
  { symmetric := (f.value? "symmetric").getD "AES/GCM/NoPadding",
    asymmetric := (f.value? "asymmetric").getD "RSA", provider := f.value? "provider" }

def sealRequest (f : Found) : SealRequest :=
  { input := f.input, request := f.value? "request", associatedText := f.value? "aad",
    target := f.target, algorithms := f.hybridAlgorithms }

def openRequest (f : Found) : OpenRequest :=
  { envelope := ⟨f.value? "envelope", f.value? "in"⟩, target := f.target,
    algorithms := f.hybridAlgorithms }

end Found

namespace Invocation

def files (i : Invocation) : List String := i.config.toList ++ i.command.files

/-- A command without commands of its own, with the file that an outer level names. -/
def leaf (l : Level) (outer : Option String) (words : List String)
    (command : Found → Except Halt Command) : Except Halt Invocation := do
  let s ← l.read words
  return { config := (s.found.value? "config").or outer, command := ← command s.found }

def verifyCommand (f : Found) : Except Halt Command :=
  match f.value? "signature" with
  | some signature => .ok (.verify { f.signRequest with signature })
  | none => .error .refused

def hybrid (outer : Option String) (words : List String) : Except Halt Invocation := do
  let s ← hybridLevel.read words
  let outer := (s.found.value? "config").or outer
  match s.command with
  | some ("seal", words) => leaf sealLevel outer words fun f => .ok (.sealText f.sealRequest)
  | some (_, words) => leaf openLevel outer words fun f => .ok (.openText f.openRequest)
  | none => throw .refused

/-- The invocation that the words of a command line ask for. Of several configuration files the
one behind the innermost command counts. -/
def ofWords (words : List String) : Except Halt Invocation := do
  let s ← topLevel.read words
  let outer := s.found.value? "config"
  match s.command with
  | some ("encrypt", words) => leaf cipherLevel outer words fun f => .ok (.encrypt f.cipherRequest)
  | some ("decrypt", words) => leaf cipherLevel outer words fun f => .ok (.decrypt f.cipherRequest)
  | some ("sign", words) => leaf signLevel outer words fun f => .ok (.sign f.signRequest)
  | some ("verify", words) => leaf verifyLevel outer words verifyCommand
  | some ("cert", words) =>
    leaf certificateLevel outer words fun f => .ok (.certificate ⟨f.target, f.has "der"⟩)
  | some (_, words) => hybrid outer words
  | none => throw .refused

end Invocation

end Strongbox.CommandLine
