import PeerTrust.Asn1.Der
import PeerTrust.Asn1.Oid
import PeerTrust.Asn1.Time

/-!
# Structures of certificates, read strictly

OCSP responses and the certificates inside them are read in DER and written again from what was
read. The two octet strings are the same unless a default was spelled out or a set was out of
order, so a structure is kept as its written form, or as parts with a function that writes them.

* `Strict.moment`, `Strict.algorithm`, `Strict.extension` and `Strict.name` are readers of parts;
* `Strict.certificate` reads a certificate and gives its written form.
-/

namespace PeerTrust.X509.Strict

open Der (Reader)
open Der.Reader

/-! ## 1. Parts -/

/-- Whether a tag is one of a known universal type or of another class. -/
def isKnownTag (t : UInt8) : Bool :=
  64 ≤ t || [1, 2, 3, 4, 5, 6, 9, 10, 12, 18, 19, 20, 21, 22, 23, 24, 26, 30, 48, 49].contains t

/-- Any element, as it is written. -/
def any : Reader Bytes := do
  let (raw, tag, _) ← raw
  check (isKnownTag tag)
  return raw

/-- Whether octets are groups of seven bits of numbers of at most 32 bits, the last one complete;
`n` counts the groups of the current number. -/
def areArcs : (n : Nat) → Bytes → Bool
  | n, [] => n = 0
  | n, x :: rest => (n < 4 || x < 16) && areArcs (if x < 128 then 0 else n + 1) rest

/-- An object identifier of three to 39 octets. -/
def oid : Reader Oid := do
  let content ← field Der.tagOid
  check (3 ≤ content.length && content.length ≤ 39 && content.head?.any (· < 120) &&
    areArcs 0 (content.drop 1))
  return ⟨content⟩

/-- An algorithm with its parameters, as they are written. -/
structure Algorithm where
  oid : Oid
  parameters : Option Bytes
deriving DecidableEq, Repr, Inhabited

/-- An algorithm with its parameters. -/
def algorithm : Reader Algorithm :=
  within Der.tagSequence do
    let oid ← oid
    match ← peek with
    | none => return ⟨oid, none⟩
    | some _ => return ⟨oid, some (← any)⟩

/-- The written form of an algorithm. -/
def Algorithm.encode (a : Algorithm) : Bytes :=
  Der.encode Der.tagSequence (Der.encode Der.tagOid a.oid.octets ++ a.parameters.getD [])

/-- A string of bits: the count of unused bits and the octets. -/
def bits : Reader (UInt8 × Bytes) := do
  match ← field Der.tagBits with
  | [] => expect none
  | unused :: data =>
    check (unused ≤ 7 && (unused = 0 || data ≠ []))
    return (unused, data)

/-- A moment: its digits as written, and the seconds since 1970. -/
structure Moment where
  written : Bytes
  seconds : Nat
deriving DecidableEq, Repr, Inhabited

/-- A moment of a year of four digits, in universal time and whole seconds. -/
def moment : Reader Moment := do
  let written ← field Der.tagGeneralizedTime
  let seconds ← expect (Calendar.instant? written)
  return ⟨written, seconds⟩

/-- The written form of a moment. -/
def Moment.encode (m : Moment) : Bytes := Der.encode Der.tagGeneralizedTime m.written

/-- A moment of either form, as it is written. -/
def anyMoment : Reader Bytes := do
  let (raw, tag, content) ← raw
  if tag = Der.tagUtcTime then
    check (Calendar.shortInstant? content).isSome
    return raw
  else
    check (tag = Der.tagGeneralizedTime && (Calendar.instant? content).isSome)
    return raw

/-- An extension. -/
structure Extension where
  oid : Oid
  critical : Bool
  value : Bytes
deriving DecidableEq, Repr, Inhabited

/-- The value of a truth value. -/
def truth? : Bytes → Option Bool
  | [0] => some false
  | [255] => some true
  | _ => none

/-- An extension. -/
def extension : Reader Extension :=
  within Der.tagSequence do
    let oid ← oid
    let critical ← match ← optional Der.tagBoolean with
      | some content => expect (truth? content)
      | none => pure false
    return ⟨oid, critical, ← field Der.tagOctets⟩

/-- The written form of an extension. -/
def Extension.encode (x : Extension) : Bytes :=
  Der.encode Der.tagSequence (Der.encode Der.tagOid x.oid.octets ++
    (if x.critical then Der.encode Der.tagBoolean [255] else []) ++
    Der.encode Der.tagOctets x.value)

/-- Structures of one kind in a sequence. -/
def sequenceOf {α : Type} (r : Reader α) : Reader (List α) := do
  expect (many r (← field Der.tagSequence))

/-- The written form of a sequence. -/
def encodeSequence (parts : List Bytes) : Bytes := Der.encode Der.tagSequence parts.flatten

/-! ## 2. Names -/

/-- One attribute of a name, as it is written. -/
def nameAttribute : Reader Bytes :=
  within Der.tagSequence do
    let oid ← oid
    let value ← any
    return Der.encode Der.tagSequence (Der.encode Der.tagOid oid.octets ++ value)

/-- A set of attributes in the order of their octets; none may occur twice. -/
def attributeSet : Reader Bytes := do
  let members ← expect (many nameAttribute (← field Der.tagSet))
  check (members.eraseDups.length = members.length)
  return Der.encode Der.tagSet (members.mergeSort (· ≤ ·)).flatten

/-- A name, as it is written. -/
def name : Reader Bytes := encodeSequence <$> sequenceOf attributeSet

/-! ## 3. Certificates -/

/-- An integer of a serial number, of at most 21 octets. -/
def serial : Reader Bytes := do
  let content ← field Der.tagInteger
  check (Der.isMinimalInteger content && content.length ≤ 21)
  return content

/-- A public key, as it is written. -/
def publicKey : Reader Bytes :=
  within Der.tagSequence do
    let algorithm ← algorithm
    let (unused, key) ← bits
    return encodeSequence [algorithm.encode, Der.encode Der.tagBits (unused :: key)]

/-- A period of validity, as it is written. -/
def validity : Reader Bytes :=
  within Der.tagSequence do
    let notBefore ← anyMoment
    let notAfter ← anyMoment
    return encodeSequence [notBefore, notAfter]

/-- A version number of at most `last`. -/
def version (last : Nat) : Reader Nat := do
  let n ← expect (Der.natural? (← field Der.tagInteger))
  check (n ≤ last)
  return n

/-- A version number that is left out where it is zero, as it is written. -/
def versionField (last : Nat) : Reader Bytes := do
  match ← explicit 0 (version last) with
  | none | some 0 => return []
  | some n => return Der.encode (Der.tagExplicit 0) (Der.encodeNatural n)

/-- A string of bits under an implicit tag, as it is written. -/
def uniqueId (n : UInt8) : Reader Bytes := do
  match ← tagged n false with
  | none => return []
  | some [] => expect none
  | some (unused :: data) =>
    check (unused ≤ 7 && (unused = 0 || data ≠ []))
    return Der.encode (Der.tagImplicit n) (unused :: data)

/-- Extensions under an explicit tag, as they are written. -/
def extensionsField (n : UInt8) : Reader Bytes := do
  match ← explicit n (sequenceOf extension) with
  | none => return []
  | some xs => return Der.encode (Der.tagExplicit n) (encodeSequence (xs.map (·.encode)))

/-- What the signature of a certificate is over, as it is written. -/
def certificateBody : Reader Bytes :=
  within Der.tagSequence do
    let version ← versionField 2
    let serial ← serial
    let algorithm ← algorithm
    let issuer ← name
    let validity ← validity
    let subject ← name
    let key ← publicKey
    let issuerId ← uniqueId 1
    let subjectId ← uniqueId 2
    let extensions ← extensionsField 3
    return encodeSequence [version, Der.encode Der.tagInteger serial, algorithm.encode, issuer,
      validity, subject, key, issuerId, subjectId, extensions]

/-- A certificate, as it is written. -/
def certificate : Reader Bytes :=
  within Der.tagSequence do
    let body ← certificateBody
    let algorithm ← algorithm
    let (unused, signature) ← bits
    return encodeSequence [body, algorithm.encode, Der.encode Der.tagBits (unused :: signature)]

end PeerTrust.X509.Strict
