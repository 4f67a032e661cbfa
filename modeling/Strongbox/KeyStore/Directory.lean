/-
  Strongbox.KeyStore.Directory — a key store whose entries are the files of a directory.

  Under an alias there may be a certificate in a file with the extension `crt`, a private key
  in one with `key` and a secret key, in hexadecimal, in one with `aes`. An alias has only
  letters and digits of ASCII, dots, underscores and hyphens, and does not begin with a dot. The
  files are read anew for every question.
-/

import Strongbox.FileTree
import Strongbox.KeyStore.Basic
import Strongbox.Table

namespace Strongbox

structure DirectoryStore where
  root : String
  deriving DecidableEq, Repr

namespace DirectoryStore

inductive Kind where
  | certificate
  | privateKey
  | secretKey
  deriving DecidableEq, Repr

def Kind.extension : Kind → String
  | certificate => "crt"
  | privateKey => "key"
  | secretKey => "aes"

def Kind.all : List Kind := [certificate, privateKey, secretKey]

def ofRoot (files : FileTree) (root : String) : Except StoreError DirectoryStore :=
  if files.isDirectory root then .ok ⟨root⟩
  else .error (.unavailable (root ++ " is not a directory"))

def name (s : DirectoryStore) : String := "directory:" ++ s.root

def isAlias (a : String) : Bool :=
  a != "" && !a.startsWith "."
    && a.toList.all fun c => c.isAlphanum || c == '.' || c == '_' || c == '-'

def path (s : DirectoryStore) (a : String) (k : Kind) : Except StoreError String :=
  if isAlias a then .ok (Path.join s.root (a ++ "." ++ k.extension)) else .error (.invalidAlias a)

def content (files : FileTree) (s : DirectoryStore) (a : String) (k : Kind) :
    Except StoreError (Option Bytes) := do
  match files.read (← s.path a k) with
  | .ok b => return some b
  | .error .notFound => return none
  | .error e => throw (.inputOutput e.message)

/-- A name split at its last dot, unless that is the first character. -/
def splitExtension? (file : String) : Option (String × String) :=
  let r := file.toList.reverse
  match r.span (· != '.') with
  | (_, []) => none
  | (_, [_]) => none
  | (e, _ :: stem) => some (String.ofList stem.reverse, String.ofList e.reverse)

def aliasOf? (file : String) : Option String :=
  match splitExtension? file with
  | some (stem, e) => if Kind.all.any (·.extension == e) && isAlias stem then some stem else none
  | none => none

/-- The aliases that have a file, in order and once each. -/
def aliases (files : FileTree) (s : DirectoryStore) : Except StoreError (List String) :=
  match files.list s.root with
  | .error e => .error (.inputOutput e.message)
  | .ok names =>
    let regular := names.filter fun n => files.isFile (Path.join s.root n)
    .ok (Table.ofList ((regular.filterMap aliasOf?).map (·, ()))).keys

def decoded (a : String) (r : Except KeyDecodeError α) : Except StoreError (Option α) :=
  match r with
  | .ok v => .ok (some v)
  | .error .wrongPassword => .error (.wrongPassword a)
  | .error (.malformed reason) => .error (.corrupt a reason)

def certificate (files : FileTree) (s : DirectoryStore) (a : String) :
    Except StoreError (Option Certificate) := do
  match (← s.content files a .certificate) with
  | none => return none
  | some b => decoded a (Certificate.ofBytes b)

def privateKey (files : FileTree) (s : DirectoryStore) (a : String) (password : Bytes) :
    Except StoreError (Option PrivateKey) := do
  match (← s.content files a .privateKey) with
  | none => return none
  | some b => decoded a (PrivateKey.ofBytes b password)

def secretKey (files : FileTree) (s : DirectoryStore) (a : String) :
    Except StoreError (Option SecretKey) := do
  match (← s.content files a .secretKey) with
  | none => return none
  | some b =>
    match Text.Utf8.defect? b with
    | some d => throw (.corrupt a ("secret key file is not UTF-8: " ++ d.message))
    | none => decoded a (SecretKey.ofHex ((Bytes.toString? b).getD ""))

def contains (files : FileTree) (s : DirectoryStore) (a : String) : Except StoreError Bool := do
  let paths ← Kind.all.mapM (s.path a)
  return paths.any files.isFile

/-- The store as the service sees it, over the present files. -/
def view (files : FileTree) (s : DirectoryStore) : KeyStore where
  name := s.name
  aliases := s.aliases files
  certificate := s.certificate files
  privateKey := s.privateKey files
  secretKey := s.secretKey files
  contains := s.contains files

def shown (s : DirectoryStore) : String :=
  Text.shownStructure "DirectoryKeyStore"
    [("root", Text.quotedPath s.root), ("name", Text.quoted s.name)]

end DirectoryStore

end Strongbox
