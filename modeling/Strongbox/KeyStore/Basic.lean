/-
  Strongbox.KeyStore.Basic — what every key store offers.
-/

import Strongbox.Key.Material

namespace Strongbox

/-- Certificates, private keys and secret keys under aliases. An entry that is not there is no
failure. -/
structure KeyStore where
  name : String
  aliases : Except StoreError (List String)
  certificate : String → Except StoreError (Option Certificate)
  /-- The private key under an alias, which the password opens. -/
  privateKey : String → Bytes → Except StoreError (Option PrivateKey)
  secretKey : String → Except StoreError (Option SecretKey)
  contains : String → Except StoreError Bool := fun a => aliases.map (·.contains a)

end Strongbox
