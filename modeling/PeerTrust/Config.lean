import PeerTrust.Json.Record
import PeerTrust.Revocation.Config
import PeerTrust.Secret
import PeerTrust.Text.Blank

/-!
# Configuration

Two credential stores, one that holds the identity of this side and one that holds the anchors of
trust, and the settings of revocation checks.

* `StoreConfig` says where a store is, how it is opened and of which type it is declared to be;
  `StoreType.parse?` reads a declared type;
* `TrustConfig.ofTexts`, `TrustConfig.ofProperties` and `TrustConfig.ofJson` take a configuration
  from texts, from properties and from a JSON text.
-/

namespace PeerTrust

/-! ## 1. Stores -/

/-- What a store is for. -/
inductive StoreRole where
  /-- It holds certificates and private keys of this side. -/
  | identity
  /-- It holds the certificates of anchors. -/
  | trust
deriving DecidableEq, Repr, Inhabited

/-- The word for a role. -/
def StoreRole.name : StoreRole → String
  | identity => "identity"
  | trust => "trust"

/-- How a store is written. -/
inductive StoreType where
  | pem
  /-- PEM, sealed under a password. -/
  | sealed
deriving DecidableEq, Repr, Inhabited

namespace StoreType

/-- The name of a type. -/
def name : StoreType → String
  | pem => "PEM"
  | sealed => "SEALED"

/-- The type that a text names; case and blanks around it do not matter. -/
def parse? (s : String) : Option StoreType :=
  let word := String.ofList ((Text.trim s).toList.map Char.toUpper)
  if word = "PEM" then some pem
  else if word = "SEALED" then some sealed
  else none

end StoreType

/-- Where a store is, its password, and its type as declared. -/
structure StoreConfig where
  path : String
  password : Option Secret
  type : String
deriving DecidableEq, Repr, Inhabited

/-- A store whose password is a text, an empty one being none. -/
def StoreConfig.ofTexts (path : String) (password : Option String) (type : String) : StoreConfig :=
  ⟨path, Secret.ofPassword password, type⟩

/-! ## 2. Whole configurations -/

/-- Both stores and the settings of revocation checks. -/
structure TrustConfig where
  identity : StoreConfig
  trust : StoreConfig
  revocation : RevocationConfig
deriving DecidableEq, Repr, Inhabited

namespace TrustConfig

/-- A configuration from texts, with standard settings of revocation checks. -/
def ofTexts (keystore : String) (keystorePassword : Option String) (keystoreType : String)
    (truststore : String) (truststorePassword : Option String) (truststoreType : String) :
    TrustConfig where
  identity := .ofTexts keystore keystorePassword keystoreType
  trust := .ofTexts truststore truststorePassword truststoreType
  revocation := .standard

/-- A property that has to be there. -/
inductive Property where
  | keystore
  | keystoreType
  | truststore
  | truststoreType
deriving DecidableEq, Repr, Inhabited

/-- The key of a property. -/
def Property.key : Property → String
  | keystore => "security.keystore"
  | keystoreType => "security.keystoreType"
  | truststore => "security.truststore"
  | truststoreType => "security.truststoreType"

/-- The value of a property that is there and is not blank, or else which one is missing. -/
def required (properties : String → Option String) (p : Property) : Except Property String :=
  match (properties p.key).filter (Text.trim · ≠ "") with
  | some value => .ok value
  | none => .error p

/-- A configuration from properties; passwords may be absent. -/
def ofProperties (properties : String → Option String) : Except Property TrustConfig := do
  return ofTexts
    (← required properties .keystore) (properties "security.keystorePasswd")
    (← required properties .keystoreType)
    (← required properties .truststore) (properties "security.truststorePasswd")
    (← required properties .truststoreType)

end TrustConfig

/-! ## 3. JSON -/

/-- A whole number of seconds. -/
def Json.seconds : Json.Value → Except Json.Error Nat := Json.natural "u64"

/-- A path of a file. -/
def Json.path : Json.Value → Except Json.Error String := Json.text "path string"

/-- How a store stands in a JSON text; a password there may be empty. -/
def StoreConfig.shape : Json.Shape StoreConfig where
  name := "StoreConfig"
  fields := [
    ("path", true, fun v c => do return { c with path := ← Json.path v }),
    ("password", false, fun v c => do
      return { c with password := (← Json.optional (Json.text "a string") v).map .ofText }),
    ("type", true, fun v c => do return { c with type := ← Json.text "a string" v })]

/-- Takes a store. -/
def StoreConfig.ofValue : Json.Value → Except Json.Error StoreConfig :=
  Json.record shape ⟨"", none, ""⟩

/-- How settings of revocation checks stand in a JSON text. -/
def RevocationConfig.shape : Json.Shape RevocationConfig where
  name := "RevocationConfig"
  fields := [
    ("ocsp_timeout", false, fun v c => do return { c with ocspTimeout := ← Json.seconds v }),
    ("crl_timeout", false, fun v c => do return { c with crlTimeout := ← Json.seconds v }),
    ("ocsp_cache_ttl", false, fun v c => do return { c with ocspLifetime := ← Json.seconds v }),
    ("crl_cache_ttl", false, fun v c => do return { c with crlLifetime := ← Json.seconds v }),
    ("crl_paths", false, fun v c => do return { c with crlPaths := ← Json.list Json.path v }),
    ("ocsp_responder_override", false, fun v c => do
      return { c with responder := ← Json.optional Json.url v }),
    ("max_response_bytes", false, fun v c => do
      return { c with maxResponse := ← Json.natural "usize" v })]

/-- Takes settings of revocation checks; the standard ones hold where a field is absent. -/
def RevocationConfig.ofValue : Json.Value → Except Json.Error RevocationConfig :=
  Json.record shape .standard

/-- Settings of revocation checks from a JSON text. -/
def RevocationConfig.ofJson (s : String) : Except Json.Error RevocationConfig :=
  Json.decode ofValue s

/-- How a configuration stands in a JSON text. -/
def TrustConfig.shape : Json.Shape TrustConfig where
  name := "TrustContextConfig"
  fields := [
    ("identity", true, fun v c => do return { c with identity := ← StoreConfig.ofValue v }),
    ("trust", true, fun v c => do return { c with trust := ← StoreConfig.ofValue v }),
    ("revocation", false, fun v c => do return { c with revocation := ← RevocationConfig.ofValue v })]

/-- A configuration from a JSON text. -/
def TrustConfig.ofJson (s : String) : Except Json.Error TrustConfig :=
  Json.decode (Json.record shape ⟨⟨"", none, ""⟩, ⟨"", none, ""⟩, .standard⟩) s

end PeerTrust
