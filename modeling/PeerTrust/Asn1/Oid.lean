import PeerTrust.Bytes

/-!
# Object identifiers

An object identifier is kept as the content octets of its encoding, so that comparing two needs no
decoding.

* `Oid.arcs` splits the content into numbers: the first octet gives two of them, the quotient and
  the remainder by forty, and every later number is written in groups of seven bits;
* `Oid.standardArcs` takes the first group of seven bits for two numbers, as newer readers do;
* `Oid.toText` joins the former with dots;
* `Oid.ofArcs` is the encoding of numbers, for the identifiers this library knows by name.
-/

namespace PeerTrust

/-- An object identifier, as the content octets of its encoding. -/
structure Oid where
  octets : Bytes
deriving DecidableEq, Repr, Inhabited

namespace Oid

/-! ## 1. Reading -/

/-- The numbers written in groups of seven bits, `n` being the start of the current one. -/
def groups : (n : Option Nat) → Bytes → List Nat
  | none, [] => []
  | some n, [] => [n]
  | n, x :: rest =>
    let m := 128 * n.getD 0 + x.toNat % 128
    if x < 128 then m :: groups none rest else groups (some m) rest

/-- The numbers of the identifier. -/
def arcs (o : Oid) : List Nat :=
  match o.octets with
  | [] => []
  | [0] => [0]
  | x :: rest => x.toNat / 40 :: x.toNat % 40 :: groups none rest

/-- The numbers of the identifier where the first group, of any length, stands for two of them; a
group that is cut short says nothing, and numbers are kept in 64 bits. -/
def standardArcs (o : Oid) : List Nat :=
  let complete := (o.octets.reverse.dropWhile (128 ≤ ·)).reverse
  match (groups none complete).map (· % 2 ^ 64) with
  | [] => []
  | n :: rest => min (n / 40) 2 :: (n - 40 * min (n / 40) 2) :: rest

/-- The numbers of the identifier, joined with dots. -/
def toText (o : Oid) : String := ".".intercalate (o.arcs.map toString)

/-! ## 2. Writing -/

/-- The groups of seven bits of a number, the last one first; `fuel` bounds their count. -/
def groupsOf : (fuel n : Nat) → (last : Bool) → Bytes
  | 0, _, _ => []
  | fuel + 1, n, last =>
    let octet := UInt8.ofNat (n % 128) ||| (if last then 0 else 128)
    if n < 128 then [octet] else octet :: groupsOf fuel (n / 128) false

/-- The octets of one number. -/
def arcOctets (n : Nat) : Bytes := (groupsOf (n.log2 + 1) n true).reverse

/-- The identifier with the given numbers. -/
def ofArcs : List Nat → Oid
  | a :: b :: rest => ⟨UInt8.ofNat (40 * a + b) :: rest.flatMap arcOctets⟩
  | _ => ⟨[]⟩

/-! ## 3. Identifiers known by name -/

/-- Key of the RSA cryptosystem. -/
def rsaEncryption : Oid := ofArcs [1, 2, 840, 113549, 1, 1, 1]

/-- Point on an elliptic curve. -/
def ecPublicKey : Oid := ofArcs [1, 2, 840, 10045, 2, 1]

/-- The curve P-256. -/
def curveP256 : Oid := ofArcs [1, 2, 840, 10045, 3, 1, 7]

/-- The curve P-384. -/
def curveP384 : Oid := ofArcs [1, 3, 132, 0, 34]

/-- Key and signature of Ed25519. -/
def ed25519 : Oid := ofArcs [1, 3, 101, 112]

/-- RSA signature over SHA-1. -/
def sha1WithRsa : Oid := ofArcs [1, 2, 840, 113549, 1, 1, 5]

/-- RSA signature over SHA-1, in the older naming. -/
def sha1WithRsaSignature : Oid := ofArcs [1, 3, 14, 3, 2, 29]

/-- RSA signature over SHA-256. -/
def sha256WithRsa : Oid := ofArcs [1, 2, 840, 113549, 1, 1, 11]

/-- RSA signature over SHA-384. -/
def sha384WithRsa : Oid := ofArcs [1, 2, 840, 113549, 1, 1, 12]

/-- RSA signature over SHA-512. -/
def sha512WithRsa : Oid := ofArcs [1, 2, 840, 113549, 1, 1, 13]

/-- RSA signature with probabilistic padding. -/
def rsaPss : Oid := ofArcs [1, 2, 840, 113549, 1, 1, 10]

/-- ECDSA signature over SHA-256. -/
def ecdsaWithSha256 : Oid := ofArcs [1, 2, 840, 10045, 4, 3, 2]

/-- ECDSA signature over SHA-384. -/
def ecdsaWithSha384 : Oid := ofArcs [1, 2, 840, 10045, 4, 3, 3]

/-- The digest SHA-1. -/
def sha1 : Oid := ofArcs [1, 3, 14, 3, 2, 26]

/-- The digest SHA-256. -/
def sha256 : Oid := ofArcs [2, 16, 840, 1, 101, 3, 4, 2, 1]

/-- The digest SHA-384. -/
def sha384 : Oid := ofArcs [2, 16, 840, 1, 101, 3, 4, 2, 2]

/-- The digest SHA-512. -/
def sha512 : Oid := ofArcs [2, 16, 840, 1, 101, 3, 4, 2, 3]

/-- The attribute that holds a common name. -/
def commonName : Oid := ofArcs [2, 5, 4, 3]

/-- The extension that says whether an entity issues certificates. -/
def basicConstraints : Oid := ofArcs [2, 5, 29, 19]

/-- The extension that says which distribution points a CRL covers. -/
def issuingDistributionPoint : Oid := ofArcs [2, 5, 29, 28]

/-- The extension that says where the CRLs of a certificate are found. -/
def crlDistributionPoints : Oid := ofArcs [2, 5, 29, 31]

/-- The extension that lists the purposes of a key. -/
def extendedKeyUsage : Oid := ofArcs [2, 5, 29, 37]

/-- The extension that says where services of the issuer are found. -/
def authorityInfoAccess : Oid := ofArcs [1, 3, 6, 1, 5, 5, 7, 1, 1]

/-- The access method of an OCSP responder, and the root of the OCSP identifiers. -/
def ocsp : Oid := ofArcs [1, 3, 6, 1, 5, 5, 7, 48, 1]

/-- The basic form of an OCSP response. -/
def ocspBasic : Oid := ofArcs [1, 3, 6, 1, 5, 5, 7, 48, 1, 1]

/-- The nonce of an OCSP request or response. -/
def ocspNonce : Oid := ofArcs [1, 3, 6, 1, 5, 5, 7, 48, 1, 2]

/-- The purpose of authenticating a server. -/
def serverAuth : Oid := ofArcs [1, 3, 6, 1, 5, 5, 7, 3, 1]

/-- The purpose of authenticating a client. -/
def clientAuth : Oid := ofArcs [1, 3, 6, 1, 5, 5, 7, 3, 2]

/-- The purpose of signing OCSP responses. -/
def ocspSigning : Oid := ofArcs [1, 3, 6, 1, 5, 5, 7, 3, 9]

end Oid

end PeerTrust
