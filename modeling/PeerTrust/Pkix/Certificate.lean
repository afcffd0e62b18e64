import PeerTrust.Asn1.Der
import PeerTrust.Asn1.Time
import PeerTrust.Pkix.Error

/-!
# Certificates of chains

The certificates that make up a chain are read more strictly than those of which only parts are
shown: canonical lengths, version three, no unique identifiers, each extension at most once, and
nothing after the end.

* `Pkix.Reader` reads field by field and says what is wrong;
* `Pkix.Certificate` keeps the octets of its parts, which are compared as they are;
* `Pkix.Anchor` is what is trusted without a signature: a name, a key and constraints on names.
  `Anchor.ofDer?` also takes certificates of the first version, and ones with critical extensions
  that are not understood, for an anchor is trusted as it is.
-/

namespace PeerTrust.Pkix

/-! ## 1. Reading -/

/-- Reads a structure off the front of a string, or says what is wrong. -/
abbrev Reader (α : Type) := StateT Bytes (Except Error) α

namespace Reader

/-- The length that no content reaches. -/
def lengthLimit : Nat := 0xffff

/-- The tag and the content of the next element. -/
def element : Reader (UInt8 × Bytes) := fun b =>
  match Der.read? b with
  | none => .error .badEncoding
  | some (tag, content, rest) =>
    if content.length < lengthLimit then .ok ((tag, content), rest) else .error .badEncoding

/-- The content of the next element, which has the given tag. -/
def field (tag : UInt8) : Reader Bytes := do
  let (found, content) ← element
  if found = tag then return content else throw .badEncoding

/-- Runs a reader on a whole string; what is left over is an error. -/
def whole {α : Type} (e : Error) (r : Reader α) (b : Bytes) : Except Error α :=
  match r b with
  | .error e => .error e
  | .ok (x, []) => .ok x
  | .ok (_, _ :: _) => .error e

/-- Runs a reader on the content of the next element, which has the given tag; `e` is the error if
it has not, or if anything is left over. -/
def nested {α : Type} (tag : UInt8) (e : Error) (r : Reader α) : Reader α := fun b =>
  match field tag b with
  | .error _ => .error e
  | .ok (content, rest) => (whole e r content).map (·, rest)

/-- Whether the next element has a tag. -/
def nextIs (tag : UInt8) : Reader Bool := do return (← get).head? = some tag

/-- All that is left. -/
def rest : Reader Bytes := fun b => .ok (b, [])

/-- A string of bits without unused ones. -/
def bits : Reader Bytes :=
  nested Der.tagBits .trailingData do
    match ← rest with
    | 0 :: octets => return octets
    | _ => throw .badEncoding

/-- A truth value; it is false where it is left out. -/
def flag : Reader Bool := do
  if ← nextIs Der.tagBoolean then
    nested Der.tagBoolean .trailingData fun
      | 255 :: r => .ok (true, r)
      | 0 :: r => .ok (false, r)
      | _ => .error .badEncoding
  else return false

/-- A number of one octet. -/
def small : Reader Nat := do
  match Der.natural? (← field Der.tagInteger) with
  | some n => if n < 256 then return n else throw .badEncoding
  | none => throw .badEncoding

/-- A time of a given number of digits, of which some function gives the seconds. -/
def instantOf (digits : Nat) (seconds? : Bytes → Option Nat) : Reader Nat := fun b =>
  match seconds? (b.take (digits + 1)) with
  | some n => .ok (n, b.drop (digits + 1))
  | none => .error .badTime

/-- A time in one of its two forms, in seconds since 1970. -/
def time : Reader Nat := do
  if ← nextIs Der.tagUtcTime then
    nested Der.tagUtcTime .trailingData (instantOf 12 Calendar.shortInstant?)
  else nested Der.tagGeneralizedTime .trailingData (instantOf 14 Calendar.instant?)

end Reader

open Reader

/-! ## 2. Certificates -/

/-- A certificate, by the octets of its parts. -/
structure Certificate where
  /-- The octets that the signature is over. -/
  signed : Bytes
  /-- The algorithm of the signature. -/
  algorithm : Bytes
  signature : Bytes
  issuer : Bytes
  validity : Bytes
  subject : Bytes
  /-- The public key with its algorithm. -/
  key : Bytes
  /-- The extensions that are understood, by the last number of their identifiers. -/
  extensions : List (UInt8 × Bytes)
deriving DecidableEq, Repr, Inhabited

namespace Certificate

/-- The extension of the alternative names of the subject. -/
def altNames (c : Certificate) : Option Bytes := c.extensions.lookup 17

/-- The extension that says whether the subject issues certificates. -/
def basicConstraints (c : Certificate) : Option Bytes := c.extensions.lookup 19

/-- The extension that restricts the names below. -/
def nameConstraints (c : Certificate) : Option Bytes := c.extensions.lookup 30

/-- The extension that lists purposes. -/
def purposes (c : Certificate) : Option Bytes := c.extensions.lookup 37

/-- The numbers of the extensions that are understood. -/
def understood : List UInt8 := [15, 17, 19, 30, 31, 37]

/-- What is kept of the value of an extension: all of it for the uses of a key, else the sequence
that it is. -/
def extensionContent (number : UInt8) (value : Bytes) : Except Error Bytes :=
  if number = 15 then .ok value else whole .badEncoding (field Der.tagSequence) value

/-- Passes over an extension that is not understood, if that is allowed where it is critical. -/
def ignore (lenient critical : Bool) (known : List (UInt8 × Bytes)) :
    Except Error (List (UInt8 × Bytes)) :=
  if critical && !lenient then .error .unsupportedCriticalExtension else .ok known

/-- Adds one extension to those read so far. -/
def addExtension (lenient : Bool) (known : List (UInt8 × Bytes)) (id : Bytes) (critical : Bool)
    (value : Bytes) : Except Error (List (UInt8 × Bytes)) :=
  match id with
  | [0x55, 0x1d, number] =>
    if ¬ understood.contains number then ignore lenient critical known
    else if (known.lookup number).isSome then .error .extensionTwice
    else return (number, ← extensionContent number value) :: known
  | _ => ignore lenient critical known

/-- Reads one extension and adds it to those read so far. -/
def extension (lenient : Bool) (known : List (UInt8 × Bytes)) : Reader (List (UInt8 × Bytes)) := do
  let id ← field Der.tagOid
  let critical ← flag
  let value ← field Der.tagOctets
  addExtension lenient known id critical value

/-- Reads extensions to the end; `fuel` bounds their number. -/
def extensionsFrom (lenient : Bool) :
    (fuel : Nat) → List (UInt8 × Bytes) → Reader (List (UInt8 × Bytes))
  | 0, known => pure known
  | fuel + 1, known => do
    if (← get) = [] then return known
    extensionsFrom lenient fuel (← nested Der.tagSequence .trailingData (extension lenient known))

/-- The extensions at the end of a certificate, if there are any. -/
def extensionsField (lenient : Bool) : Reader (List (UInt8 × Bytes)) := do
  if (← get) = [] then return []
  nested (Der.tagExplicit 3) .trailingData <| nested Der.tagSequence .trailingData fun b =>
    extensionsFrom lenient b.length [] b

/-- Passes over the version, which is the third. -/
def version : Reader Unit :=
  nested (Der.tagExplicit 0) .unsupportedVersion do
    if (← small) ≠ 2 then throw .unsupportedVersion

/-- The signed part of a certificate whose algorithm and signature are known. -/
def body (lenient : Bool) (signed algorithm signature : Bytes) : Reader Certificate := do
  version
  let _ ← field Der.tagInteger
  if (← field Der.tagSequence) ≠ algorithm then throw .algorithmMismatch
  let issuer ← field Der.tagSequence
  let validity ← field Der.tagSequence
  let subject ← field Der.tagSequence
  let key ← field Der.tagSequence
  let extensions ← extensionsField lenient
  return { signed, algorithm, signature, issuer, validity, subject, key, extensions }

/-- The three parts of a certificate: what is signed, as it is written and by its content, the
algorithm and the signature. -/
def parts : Reader ((Bytes × Bytes) × Bytes × Bytes) := do
  let before ← get
  let content ← field Der.tagSequence
  let after ← get
  let algorithm ← field Der.tagSequence
  return ((before.take (before.length - after.length), content), algorithm, ← bits)

/-- The certificate that a string is; `lenient` lets critical extensions pass that are not
understood. -/
def read (lenient : Bool) (der : Bytes) : Except Error Certificate := do
  let ((signed, content), algorithm, signature) ←
    whole .trailingData (nested Der.tagSequence .trailingData parts) der
  whole .trailingData (body lenient signed algorithm signature) content

/-- The certificate that a string is. -/
def ofDer (der : Bytes) : Except Error Certificate := read false der

/-- The public key as it is written. -/
def writtenKey (c : Certificate) : Bytes := Der.encode Der.tagSequence c.key

end Certificate

/-! ## 3. Anchors -/

/-- What is trusted without a signature. -/
structure Anchor where
  subject : Bytes
  /-- The public key with its algorithm. -/
  key : Bytes
  /-- Restrictions on the names below. -/
  nameConstraints : Option Bytes
deriving DecidableEq, Repr, Inhabited

namespace Anchor

/-- The signed part of a certificate of the first version. -/
def firstVersionBody : Reader Anchor := do
  let _ ← field Der.tagInteger
  let _ ← field Der.tagSequence
  let _ ← field Der.tagSequence
  let _ ← field Der.tagSequence
  let subject ← field Der.tagSequence
  return ⟨subject, ← field Der.tagSequence, none⟩

/-- The anchor that a certificate of the first version stands for. -/
def firstVersion : Reader Anchor :=
  nested Der.tagSequence .badEncoding do
    let anchor ← nested Der.tagSequence .badEncoding firstVersionBody
    let _ ← field Der.tagSequence
    let _ ← field Der.tagBits
    return anchor

/-- The anchor that a certificate stands for, if it can be one. -/
def ofDer? (der : Bytes) : Option Anchor :=
  match Certificate.read true der with
  | .ok c => some ⟨c.subject, c.key, c.nameConstraints⟩
  | .error .unsupportedVersion => (whole .badEncoding firstVersion der).toOption
  | .error _ => none

end Anchor

end PeerTrust.Pkix
