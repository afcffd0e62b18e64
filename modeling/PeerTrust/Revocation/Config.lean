import PeerTrust.Url

/-!
# Settings of revocation checks

`RevocationConfig` holds the limits and sources of revocation checks; `RevocationConfig.standard`
is what holds where nothing is set.
-/

namespace PeerTrust

/-- Limits and sources of revocation checks; times are in seconds. -/
structure RevocationConfig where
  /-- How long a responder may take. -/
  ocspTimeout : Nat
  /-- How long the download of a CRL may take. -/
  crlTimeout : Nat
  /-- How long an answer of a responder is kept that promises no newer one. -/
  ocspLifetime : Nat
  /-- How long a CRL is kept that promises no newer one. -/
  crlLifetime : Nat
  /-- The files of CRLs at hand. -/
  crlPaths : List String
  /-- The responder that is asked in place of those a certificate names. -/
  responder : Option Url
  /-- The most octets of an answer. -/
  maxResponse : Nat
deriving DecidableEq, Repr, Inhabited

/-- The settings where nothing is set. -/
def RevocationConfig.standard : RevocationConfig where
  ocspTimeout := 10
  crlTimeout := 30
  ocspLifetime := 3600
  crlLifetime := 24 * 3600
  crlPaths := []
  responder := none
  maxResponse := 10 * 1024 * 1024

end PeerTrust
