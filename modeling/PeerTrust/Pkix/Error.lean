import PeerTrust.Asn1.Oid

/-!
# Why a chain is not accepted

* `Pkix.Purpose` is what a certificate is presented for;
* `Pkix.Error` lists what may be wrong with a chain, `Error.message` words it;
* `Error.rank` says how telling an error is. Where several ways to an anchor fail, the most telling
  error is reported (`Error.orWorse`), save that some errors end the search (`Error.endsSearch`).
-/

namespace PeerTrust.Pkix

/-! ## 1. Purposes -/

/-- What a certificate is presented for. -/
inductive Purpose where
  | clientAuth
  | serverAuth
deriving DecidableEq, Repr, Inhabited

/-- The identifier of a purpose. -/
def Purpose.oid : Purpose → Oid
  | clientAuth => Oid.clientAuth
  | serverAuth => Oid.serverAuth

/-- The words for a purpose. -/
def Purpose.name : Purpose → String
  | clientAuth => "client authentication"
  | serverAuth => "server authentication"

/-- The words for an identifier of a purpose, or else its numbers. -/
def Purpose.nameOf (o : Oid) : String :=
  if o = Oid.clientAuth then clientAuth.name
  else if o = Oid.serverAuth then serverAuth.name
  else ", ".intercalate (o.standardArcs.map toString)

/-! ## 2. Errors -/

/-- What may be wrong with a chain. -/
inductive Error where
  | badEncoding
  | badTime
  | trailingData
  | extensionTwice
  | unsupportedVersion
  | unsupportedCriticalExtension
  | algorithmMismatch
  | reversedValidity
  | notYetValid (now start : Nat)
  | expired (now stop : Nat)
  | caAsEndEntity
  | endEntityAsCa
  | pathTooLongForIssuer
  | pathTooDeep
  | wrongPurpose (required : Purpose) (presented : List Oid)
  | unknownIssuer
  | badSignature
  | unsupportedAlgorithm (algorithm : Bytes) (supported : List Bytes)
  | unsupportedAlgorithmForKey (algorithm key : Bytes)
  | nameConstraintViolated
  | malformedName
  | malformedConstraint
  | malformedMask
  | wrongName (expected : String) (presented : List String)
  | tooManySignatures
  | tooManySteps
  | tooManyComparisons
deriving DecidableEq, Repr, Inhabited

namespace Error

/-- How telling an error is. -/
def rank : Error → Nat
  | tooManySignatures | tooManySteps | tooManyComparisons => 300
  | notYetValid _ _ | expired _ _ => 290
  | wrongName _ _ => 280
  | badSignature => 260
  | algorithmMismatch => 250
  | wrongPurpose _ _ => 240
  | nameConstraintViolated => 230
  | pathTooLongForIssuer => 220
  | caAsEndEntity | endEntityAsCa => 210
  | reversedValidity => 190
  | malformedMask => 180
  | unsupportedAlgorithmForKey _ _ => 150
  | unsupportedAlgorithm _ _ => 140
  | unsupportedCriticalExtension | unsupportedVersion => 130
  | pathTooDeep => 61
  | malformedName => 60
  | malformedConstraint => 50
  | trailingData => 40
  | extensionTwice => 30
  | badTime => 20
  | badEncoding => 10
  | unknownIssuer => 0

/-- The more telling of two errors, the first one where they are alike. -/
def orWorse (e other : Error) : Error := if other.rank ≤ e.rank then e else other

/-- Whether a search ends with this error, whatever ways remain. -/
def endsSearch : Error → Bool
  | tooManySignatures | tooManySteps | tooManyComparisons => true
  | _ => false

/-! ## 3. Wording -/

/-- Octets as a list of numbers. -/
def octetsText (b : Bytes) : String :=
  "[" ++ ", ".intercalate (b.map fun x => toString x.toNat) ++ "]"

/-- Texts joined with commas, the last one with `or`. -/
def alternatives (texts : List String) : String :=
  match texts.reverse with
  | [] => ""
  | [text] => text
  | last :: others => ", ".intercalate others.reverse ++ " or " ++ last

/-- What a certificate is valid for instead of a name. -/
def validNames : List String → String
  | [] => "is not valid for any names (according to its subjectAltName extension)"
  | names => "is only valid for " ++ alternatives names

/-- The wording of an error that has no wording of its own. -/
def other (name : String) : String := s!"Other(OtherError({name}))"

/-- The wording of an error. -/
def message : Error → String
  | badEncoding | badTime | trailingData => "BadEncoding"
  | extensionTwice => other "ExtensionValueInvalid"
  | unsupportedVersion => other "UnsupportedCertVersion"
  | unsupportedCriticalExtension => other "UnsupportedCriticalExtension"
  | algorithmMismatch => other "SignatureAlgorithmMismatch"
  | reversedValidity => "Expired"
  | notYetValid now start =>
    s!"certificate not valid yet: verification time {now} (UNIX), but " ++
      s!"certificate is not valid before {start} ({start - now} seconds in future)"
  | expired now stop =>
    s!"certificate expired: verification time {now} (UNIX), but " ++
      s!"certificate is not valid after {stop} ({now - stop} seconds ago)"
  | caAsEndEntity => other "CaUsedAsEndEntity"
  | endEntityAsCa => other "EndEntityUsedAsCa"
  | pathTooLongForIssuer => other "PathLenConstraintViolated"
  | pathTooDeep => other "MaximumPathDepthExceeded"
  | wrongPurpose required presented =>
    s!"certificate does not allow extended key usage for {required.name}, allows " ++
      ", ".intercalate (presented.map Purpose.nameOf)
  | unknownIssuer => "UnknownIssuer"
  | badSignature => "BadSignature"
  | unsupportedAlgorithm algorithm supported =>
    "UnsupportedSignatureAlgorithmContext \x7b signature_algorithm_id: " ++ octetsText algorithm ++
      ", supported_algorithms: [" ++ ", ".intercalate (supported.map fun b => "0x" ++ b.toHex) ++
      "] \x7d"
  | unsupportedAlgorithmForKey algorithm key =>
    "UnsupportedSignatureAlgorithmForPublicKeyContext \x7b signature_algorithm_id: " ++
      octetsText algorithm ++ ", public_key_algorithm_id: " ++ octetsText key ++ " \x7d"
  | nameConstraintViolated => other "NameConstraintViolation"
  | malformedName => other "MalformedDnsIdentifier"
  | malformedConstraint => other "MalformedNameConstraint"
  | malformedMask => other "InvalidNetworkMaskConstraint"
  | wrongName expected presented =>
    s!"certificate not valid for name \"{expected}\"; certificate " ++ validNames presented
  | tooManySignatures => other "MaximumSignatureChecksExceeded"
  | tooManySteps => other "MaximumPathBuildCallsExceeded"
  | tooManyComparisons => other "MaximumNameConstraintComparisonsExceeded"

end Error

end PeerTrust.Pkix
