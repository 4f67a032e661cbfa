/-
  Strongbox.KeyStore.Memory — a key store that is built up in memory.

  Each alias has at most one certificate, one private key with its password and one secret key;
  what is put in later replaces what was there, and leaves the other two alone.
-/

import Strongbox.KeyStore.Basic
import Strongbox.Table

namespace Strongbox

structure ProtectedKey where
  key : PrivateKey
  password : Bytes

structure MemoryEntry where
  certificate : Option Certificate := none
  privateKey : Option ProtectedKey := none
  secretKey : Option SecretKey := none

structure MemoryStore where
  entries : Table MemoryEntry := .empty

namespace MemoryStore

def empty : MemoryStore := {}

def putCertificate (s : MemoryStore) (a : String) (c : Certificate) : MemoryStore :=
  ⟨s.entries.update a {} fun e => { e with certificate := some c }⟩

def putPrivateKey (s : MemoryStore) (a : String) (key : PrivateKey) (password : Bytes) :
    MemoryStore :=
  ⟨s.entries.update a {} fun e => { e with privateKey := some ⟨key, password⟩ }⟩

def putSecretKey (s : MemoryStore) (a : String) (k : SecretKey) : MemoryStore :=
  ⟨s.entries.update a {} fun e => { e with secretKey := some k }⟩

def openKey (s : MemoryStore) (a : String) (password : Bytes) :
    Except StoreError (Option PrivateKey) :=
  match (s.entries.get? a).bind (·.privateKey) with
  | none => .ok none
  | some p => if p.password = password then .ok (some p.key) else .error (.wrongPassword a)

def view (s : MemoryStore) : KeyStore where
  name := "memory"
  aliases := .ok s.entries.keys
  certificate a := .ok ((s.entries.get? a).bind (·.certificate))
  privateKey := s.openKey
  secretKey a := .ok ((s.entries.get? a).bind (·.secretKey))
  contains a := .ok (s.entries.contains a)

def shown (s : MemoryStore) : String :=
  Text.shownStructure "MemoryKeyStore" [("aliases", Text.shownList Text.quoted s.entries.keys)]

end MemoryStore

end Strongbox
