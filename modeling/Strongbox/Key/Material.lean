/-
  Strongbox.Key.Material — whatever an operation may be given as a key.
-/

import Strongbox.Key.Certificate
import Strongbox.Key.Private
import Strongbox.Key.Secret

namespace Strongbox

inductive KeyMaterial where
  | privateKey (key : PrivateKey)
  | publicKey (key : PublicKey)
  | secretKey (key : SecretKey)
  | certificate (certificate : Certificate)

def KeyMaterial.describe : KeyMaterial → String
  | privateKey k => k.algorithm ++ " private key"
  | publicKey k => k.algorithm ++ " public key"
  | secretKey k => s!"AES-{k.bits} key"
  | certificate c => "certificate " ++ c.subject

end Strongbox
