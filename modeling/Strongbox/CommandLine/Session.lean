/-
  Strongbox.CommandLine.Session — what each command does with a configured service.

  Octets come in and go out as base64. A command first reads its input and then looks at whose
  key it is to use.
-/

import Strongbox.CommandLine.Command
import Strongbox.Config.Environment
import Strongbox.Config.File

namespace Strongbox.CommandLine

/-- The messages of a failure, the outermost first. -/
abbrev Trouble := List String

def ofService (r : Except ServiceError α) : Except Trouble α := r.mapError ServiceError.trace

/-- The text of a file; `what` says what it was wanted for. -/
def fileText (files : FileTree) (what path : String) : Except Trouble String :=
  (files.readText path).mapError fun e => ["failed to read " ++ what ++ ": " ++ path, e.message]

namespace Payload

/-- The text of the input; `what` names its file and `missing` is said when there is none. -/
def text (files : FileTree) (what missing : String) (p : Payload) : Except Trouble String :=
  match p.inlineText, p.file with
  | some text, _ => .ok text
  | none, some path => fileText files what path
  | none, none => ofService (.error (.validation missing))

def octets (files : FileTree) (missing : String) (p : Payload) : Except Trouble Bytes := do
  match Base64.decode (← p.text files "input" missing) with
  | .ok b => return b
  | .error e => throw ["input is not valid base64: " ++ e.message]

end Payload

namespace Target

def defaultOwner : String := "local"

def isSet (t : Target) : Bool := t.owner.isSome || t.keyAlias.isSome

def context (t : Target) : Except Trouble CryptoContext := do
  let owner ← ofService (OwnerId.make (t.owner.getD defaultOwner))
  let c := CryptoContext.ofOwner owner
  return match t.keyAlias with
    | some a => c.withAlias a
    | none => c

end Target

structure Session where
  config : Config
  service : Service

namespace Session

def loadConfig (files : FileTree) (lookup : String → Option String) (path : Option String) :
    Except Trouble Config :=
  match path with
  | some path =>
    (Config.ofFile files path).mapError fun e => ("failed to load config: " ++ path) :: e.trace
  | none =>
    (Config.ofLookup lookup).mapError fun e => "failed to load config from environment" :: e.trace

def ofConfig (files : FileTree) (config : Config) : Except Trouble Session :=
  match config.service files with
  | .ok service => .ok { config, service }
  | .error e => .error ("failed to configure the crypto service" :: e.trace)

def load (files : FileTree) (lookup : String → Option String) (path : Option String) :
    Except Trouble Session := do
  ofConfig files (← loadConfig files lookup path)

def descriptor (s : Session) (r : CipherRequest) : OperationDescriptor :=
  let d : OperationDescriptor :=
    { spec := s.config.algorithm r.algorithm r.provider, selfContained := r.selfContained }
  match r.internalProvider with
  | some p => d.withInternalProvider p
  | none => d

def encrypt (s : Session) (files : FileTree) (random : Random) (r : CipherRequest) :
    Except Trouble String := do
  let text ← r.input.octets files "Plaintext can't be null."
  if r.target.isSet then
    let spec := s.config.algorithm r.algorithm r.provider
    let context ← r.target.context
    return Base64.encode (← ofService (s.service.encryptFor random text spec context))
  else return Base64.encode (← ofService (s.service.encrypt random text (s.descriptor r)))

def decrypt (s : Session) (files : FileTree) (r : CipherRequest) : Except Trouble String := do
  let data ← r.input.octets files "Ciphertext can't be null."
  if r.target.isSet then
    let spec := s.config.algorithm r.algorithm r.provider
    let context ← r.target.context
    return Base64.encode (← ofService (s.service.decryptFrom data spec context))
  else return Base64.encode (← ofService (s.service.decrypt data (s.descriptor r)))

def sign (s : Session) (files : FileTree) (r : SignRequest) : Except Trouble String := do
  let data ← r.input.octets files "Data to sign can't be null."
  let spec := s.config.algorithm r.algorithm r.provider
  return Base64.encode (← ofService (s.service.sign data spec (← r.target.context)))

def verify (s : Session) (files : FileTree) (r : VerifyRequest) : Except Trouble Bool := do
  let data ← r.input.octets files "Data to verify can't be null."
  let signature ← (Base64.decode r.signature).mapError fun e =>
    ["invalid signature encoding", e.message]
  let spec := s.config.algorithm r.algorithm r.provider
  ofService (s.service.verify data signature spec (← r.target.context))

def summary (now : Instant) (withEncoding : Bool) (c : Certificate) : Json.Value :=
  let encoding := if withEncoding then [("der", Json.Value.string (Base64.encode c.encoding))] else []
  let thumbprint := fun (a : Digest.Algorithm) =>
    (a.name, Json.Value.string (c.thumbprint a).value)
  .object (encoding ++
    [("issuer", .string c.issuer), ("key_algorithm", .string c.publicKey.algorithm),
      ("not_after", .string c.notAfter.shown), ("not_before", .string c.notBefore.shown),
      ("serial_number", .string c.serialNumber), ("subject", .string c.subject),
      ("thumbprints", .object [thumbprint .sha1, thumbprint .sha256]),
      ("valid_now", .boolean (c.isValidAt now))])

def certificate (s : Session) (now : Instant) (r : CertificateRequest) : Except Trouble String := do
  let c ← ofService (s.service.certificate (← r.target.context))
  return (summary now r.withEncoding c).indented 0

/-- The input of hybrid encryption: a JSON text in a file, or the octets of the payload. Associated
data among the words replace those in the file. -/
def sealInput (files : FileTree) (r : SealRequest) : Except Trouble Hybrid.Input := do
  let input : Hybrid.Input ← match r.request with
    | some path => do ofService (Hybrid.Input.ofJson (← fileText files "request" path))
    | none => do pure { cleartext := ← r.input.octets files "Plaintext can't be null." }
  return match r.associatedText with
    | some text => { input with associatedData := some (Bytes.ofString text) }
    | none => input

def sealText (s : Session) (files : FileTree) (random : Random) (r : SealRequest) :
    Except Trouble String := do
  let input ← sealInput files r
  let symmetric := s.config.algorithm r.algorithms.symmetric r.algorithms.provider
  let asymmetric := s.config.algorithm r.algorithms.asymmetric r.algorithms.provider
  let context ← r.target.context
  let output ← ofService (s.service.hybridEncrypt random input symmetric asymmetric context)
  return output.toJson

def openText (s : Session) (files : FileTree) (r : OpenRequest) : Except Trouble String := do
  let text ← r.envelope.text files "envelope" "Ciphertext can't be null."
  let output ← ofService (Hybrid.Output.ofJson text)
  let symmetric := s.config.algorithm r.algorithms.symmetric r.algorithms.provider
  let asymmetric := s.config.algorithm r.algorithms.asymmetric r.algorithms.provider
  let context ← r.target.context
  return Base64.encode (← ofService (s.service.hybridDecrypt output symmetric asymmetric context))

end Session

end Strongbox.CommandLine
