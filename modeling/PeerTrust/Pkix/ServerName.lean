import PeerTrust.Pkix.DnsName
import PeerTrust.Url.Address

/-!
# Names of servers

* `ServerName` is what a client asks for, `ServerName.parse?` reads it: a DNS name, or else an
  address;
* `ServerName.toText` is its written form.
-/

namespace PeerTrust.Pkix

/-- What a client asks for. -/
inductive ServerName where
  | dns (name : String)
  /-- The octets of an address, four or sixteen of them. -/
  | address (octets : Bytes)
deriving DecidableEq, Repr, Inhabited

namespace ServerName

/-- Reads a name: a DNS name, or else an address. -/
def parse? (s : String) : Option ServerName :=
  if DnsName.isReference (Bytes.ofText s) then some (.dns s)
  else ((Address.ipv4? s.toList).or (Address.ipv6? s.toList)).map .address

/-- What is said of a text that is no name. -/
def invalid : String := "invalid dns name"

/-- The written form of a name. -/
def toText : ServerName → String
  | dns name => name
  | address octets => Address.toText octets

end ServerName

end PeerTrust.Pkix
