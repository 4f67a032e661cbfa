import Strongbox.Aes.Block
import Strongbox.Aes.Cbc
import Strongbox.Aes.Gcm
import Strongbox.Algorithm
import Strongbox.Bytes
import Strongbox.Capability
import Strongbox.CommandLine.Command
import Strongbox.CommandLine.Run
import Strongbox.CommandLine.Session
import Strongbox.CommandLine.Words
import Strongbox.Config.Basic
import Strongbox.Config.Environment
import Strongbox.Config.File
import Strongbox.Context
import Strongbox.Der.Element
import Strongbox.Der.Time
import Strongbox.Der.Value
import Strongbox.Digest.Algorithm
import Strongbox.Digest.Chain
import Strongbox.Digest.Hmac
import Strongbox.Digest.Sha1
import Strongbox.Digest.Sha2
import Strongbox.Ed25519.Curve
import Strongbox.Ed25519.Signature
import Strongbox.Envelope
import Strongbox.Error
import Strongbox.FileTree
import Strongbox.Hybrid.Builder
import Strongbox.Hybrid.Record
import Strongbox.InternalProvider
import Strongbox.Json.Error
import Strongbox.Json.Read
import Strongbox.Json.Scan
import Strongbox.Json.Write
import Strongbox.Key.Certificate
import Strongbox.Key.Material
import Strongbox.Key.Private
import Strongbox.Key.Public
import Strongbox.Key.Secret
import Strongbox.KeyStore.Basic
import Strongbox.KeyStore.Directory
import Strongbox.KeyStore.Memory
import Strongbox.Main
import Strongbox.Number.Power
import Strongbox.Number.Shortest
import Strongbox.Operations
import Strongbox.Password.Pbkdf2
import Strongbox.Password.Scrypt
import Strongbox.Pem
import Strongbox.Pkcs8.Encrypted
import Strongbox.Pkcs8.PrivateKeyInfo
import Strongbox.Primitives
import Strongbox.Proofs.Aes.Block
import Strongbox.Proofs.Aes.Cbc
import Strongbox.Proofs.Aes.Octets
import Strongbox.Proofs.Bytes
import Strongbox.Proofs.CanonicalHex
import Strongbox.Proofs.Check
import Strongbox.Proofs.CommandLine.InversePairs
import Strongbox.Proofs.Config.DefaultKey
import Strongbox.Proofs.Config.PairLists
import Strongbox.Proofs.Config.Providers
import Strongbox.Proofs.Config.Secrecy
import Strongbox.Proofs.Der.Element
import Strongbox.Proofs.Der.Value
import Strongbox.Proofs.Ed25519.Curve
import Strongbox.Proofs.Ed25519.Field
import Strongbox.Proofs.Envelope
import Strongbox.Proofs.Envelope.Reading
import Strongbox.Proofs.Envelope.Recognition
import Strongbox.Proofs.Envelope.Unread
import Strongbox.Proofs.FileTree
import Strongbox.Proofs.Hybrid.Record
import Strongbox.Proofs.Hybrid.Recorded
import Strongbox.Proofs.Hybrid.RoundTrip
import Strongbox.Proofs.InternalProvider
import Strongbox.Proofs.InternalProvider.EmptyText
import Strongbox.Proofs.InternalProvider.Keyless
import Strongbox.Proofs.Json.Grammar
import Strongbox.Proofs.Json.Number
import Strongbox.Proofs.Json.Overlooked
import Strongbox.Proofs.Json.Pass
import Strongbox.Proofs.Json.Read
import Strongbox.Proofs.Json.Record
import Strongbox.Proofs.Json.Scan
import Strongbox.Proofs.Json.Sequence
import Strongbox.Proofs.Json.Spelling
import Strongbox.Proofs.Key.Certificate
import Strongbox.Proofs.Key.LeadingBlanks
import Strongbox.Proofs.Key.Private
import Strongbox.Proofs.KeyStore.Addressing
import Strongbox.Proofs.KeyStore.Directory
import Strongbox.Proofs.KeyStore.Interchange
import Strongbox.Proofs.KeyStore.LastWrite
import Strongbox.Proofs.KeyStore.Membership
import Strongbox.Proofs.KeyStore.Memory
import Strongbox.Proofs.KeyStore.Outcomes
import Strongbox.Proofs.KeyStore.Search
import Strongbox.Proofs.KeyStore.SecondLookup
import Strongbox.Proofs.Number.Prime
import Strongbox.Proofs.Operations
import Strongbox.Proofs.Operations.Failures
import Strongbox.Proofs.Operations.Verification
import Strongbox.Proofs.Outcome
import Strongbox.Proofs.Pem
import Strongbox.Proofs.Pem.Boundary
import Strongbox.Proofs.Pkcs8.Encrypted
import Strongbox.Proofs.Primitives
import Strongbox.Proofs.Primitives.Sealing
import Strongbox.Proofs.Records
import Strongbox.Proofs.Resolver
import Strongbox.Proofs.Rsa.Inverse
import Strongbox.Proofs.Rsa.Padding
import Strongbox.Proofs.Rsa.Signature
import Strongbox.Proofs.Service.Capabilities
import Strongbox.Proofs.Service.InternalData
import Strongbox.Proofs.Service.Overrides
import Strongbox.Proofs.Service.OwnKeys
import Strongbox.Proofs.Service.Parties
import Strongbox.Proofs.Service.Schemes
import Strongbox.Proofs.Service.SelectedAlias
import Strongbox.Proofs.Service.Signatures
import Strongbox.Proofs.Table
import Strongbox.Proofs.Text.Base64
import Strongbox.Proofs.Text.Base64.Canonical
import Strongbox.Proofs.Text.Hex
import Strongbox.Proofs.Text.Hex.Positions
import Strongbox.Proofs.Text.Name
import Strongbox.Proofs.Text.Octets
import Strongbox.Proofs.Text.Pieces
import Strongbox.Proofs.Text.Quoted
import Strongbox.Proofs.Text.Utf8
import Strongbox.Proofs.Text.Whole
import Strongbox.Proofs.Thumbprint
import Strongbox.Proofs.Validity
import Strongbox.Proofs.X509.Certificate
import Strongbox.Proofs.X509.Name
import Strongbox.Random
import Strongbox.Resolution
import Strongbox.Resolver
import Strongbox.Rsa.Key
import Strongbox.Rsa.Oaep
import Strongbox.Rsa.Pkcs1
import Strongbox.Service
import Strongbox.Table
import Strongbox.Text.Base64
import Strongbox.Text.Blank
import Strongbox.Text.Hex
import Strongbox.Text.Printable
import Strongbox.Text.Quoted
import Strongbox.Text.Utf8
import Strongbox.Thumbprint
import Strongbox.Transformation
import Strongbox.X509.Certificate
import Strongbox.X509.Name
import Strongbox.Yaml.Cursor
import Strongbox.Yaml.Node
import Strongbox.Yaml.Scalar
import Strongbox.Yaml.Token
