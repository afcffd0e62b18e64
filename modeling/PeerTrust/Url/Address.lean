import PeerTrust.Url.Host

/-!
# Addresses

Addresses of four or sixteen octets, apart from URLs.

* `Address.ipv4?` and `Address.ipv6?` read their written forms, which have no shortened numbers;
* `Address.toText` writes an address.
-/

namespace PeerTrust.Address

/-- The octets of four decimal numbers with dots. -/
def ipv4? (cs : List Char) : Option Bytes :=
  (Host.ipv4Pieces? cs).map fun pieces => pieces.flatMap (Bytes.ofNat 2)

/-- The octets of eight hexadecimal numbers with colons. -/
def ipv6? (cs : List Char) : Option Bytes :=
  (Host.ipv6? cs).map fun pieces => pieces.flatMap (Bytes.ofNat 2)

/-- The numbers of two octets each. -/
def pieces : Bytes → List Nat
  | x :: y :: rest => (256 * x.toNat + y.toNat) :: pieces rest
  | _ => []

/-- Octets as decimal numbers with dots. -/
def dotted (b : Bytes) : String := ".".intercalate (b.map fun x => toString x.toNat)

/-- The written form of an address; a long one that stands for a short one shows the latter. -/
def toText (b : Bytes) : String :=
  if b.length = 4 then dotted b
  else if b.take 12 = List.replicate 10 0 ++ [255, 255] then "::ffff:" ++ dotted (b.drop 12)
  else Host.ipv6Text (pieces b)

end PeerTrust.Address
