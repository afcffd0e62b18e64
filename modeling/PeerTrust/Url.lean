import PeerTrust.Text.Quoted
import PeerTrust.Url.Host

/-!
# URLs

* `Url` holds the parts of a URL, each as it is written;
* `Url.parse` reads a text, leniently: blanks at the ends and line ends anywhere do not count, and
  whatever cannot stand in a part is percent-encoded;
* `Url.toText` writes a URL, so that texts that are read alike are written alike;
* `Url.describe` lists its parts.

Schemes of the web are special: they have a host, their path begins with a slash, a backslash is as
good as a slash, and a port that goes without saying is not kept.
-/

namespace PeerTrust

/-- Where a resource is held: who asks, and at which host and port. -/
structure Authority where
  user : String
  password : Option String
  host : Option Host
  port : Option Nat
deriving DecidableEq, Repr, Inhabited

/-- The parts of a URL. -/
structure Url where
  scheme : String
  authority : Option Authority
  path : String
  query : Option String
  fragment : Option String
deriving DecidableEq, Repr, Inhabited

/-- The written form of an authority. -/
def Authority.toText (a : Authority) : String :=
  let password := (a.password.map (":" ++ ·)).getD ""
  let user := a.user ++ password
  (if user = "" then "" else user ++ "@") ++ (a.host.map Host.toText).getD "" ++
  (a.port.map fun n => ":" ++ toString n).getD ""

namespace Url

/-! ## 1. Schemes -/

/-- The port of a special scheme that goes without saying. -/
def defaultPort? : String → Option Nat
  | "http" | "ws" => some 80
  | "https" | "wss" => some 443
  | "ftp" => some 21
  | _ => none

/-- Whether a scheme is one of those with rules of their own. -/
def isSpecial (scheme : String) : Bool := scheme = "file" || (defaultPort? scheme).isSome

/-- Whether a character may stand in a scheme after its first letter. -/
def isSchemeChar (c : Char) : Bool := c.isAlphanum || c = '+' || c = '-' || c = '.'

/-- The scheme in lower case, and what follows its colon. -/
def scheme? (cs : List Char) : Option (String × List Char) :=
  match cs.takeWhile isSchemeChar, cs.dropWhile isSchemeChar with
  | c :: name, ':' :: rest =>
    if c.isAlpha then some (String.ofList ((c :: name).map Char.toLower), rest) else none
  | _, _ => none

/-! ## 2. Authority -/

/-- Whether a character ends the authority. -/
def endsAuthority (special : Bool) (c : Char) : Bool :=
  c = '/' || c = '?' || c = '#' || (special && c = '\\')

/-- What stands before the last of the given characters, if it occurs, and what stands after it. -/
def splitLast (x : Char) (cs : List Char) : Option (List Char) × List Char :=
  let after := (cs.reverse.takeWhile (· ≠ x)).reverse
  if after.length = cs.length then (none, cs) else (some (cs.take (cs.length - after.length - 1)), after)

/-- The name and the password of a user; an empty password is none. -/
def userInfo (cs : List Char) : String × Option String :=
  let name := Percent.encode Percent.userInfo (cs.takeWhile (· ≠ ':'))
  match cs.dropWhile (· ≠ ':') with
  | [] | [_] => (name, none)
  | _ :: password => (name, some (Percent.encode Percent.userInfo password))

/-- The host, up to the colon before a port that is not in brackets; `inside` tells whether a
bracket is open. -/
def splitHost : (inside : Bool) → List Char → List Char × List Char
  | _, [] => ([], [])
  | inside, c :: rest =>
    if c = ':' ∧ !inside then ([], c :: rest)
    else
      let (host, rest) := splitHost ((inside || c = '[') && c ≠ ']') rest
      (c :: host, rest)

/-- Reads a port, of which only the default one goes without saying. -/
def readPort (scheme : String) (cs : List Char) : Except UrlError (Option Nat) :=
  match Host.digitsToNat? 10 cs with
  | none => .error .invalidPort
  | some n =>
    if 65535 < n then .error .invalidPort
    else if cs = [] ∨ defaultPort? scheme = some n then .ok none
    else .ok (some n)

/-- Reads a host with its port. -/
def hostAndPort (scheme : String) (cs : List Char) :
    Except UrlError (Option Host × Option Nat) := do
  let (host, rest) := splitHost false cs
  if host = [] ∧ (isSpecial scheme ∨ rest ≠ []) then throw .emptyHost
  let parsed ← if isSpecial scheme then Host.parse host else Host.parseOpaque host
  let port ← match rest with
    | [] => pure none
    | _ :: digits => readPort scheme digits
  return (if host = [] then none else some parsed, port)

/-- Reads an authority. -/
def readAuthority (scheme : String) (cs : List Char) : Except UrlError Authority := do
  let (user, rest) := splitLast '@' cs
  let (name, password) := userInfo (user.getD [])
  let (host, port) ← hostAndPort scheme rest
  if host = none ∧ user.isSome then throw .emptyHost
  return { user := name, password, host, port }

/-- The host of a file: none where it is this one. -/
def fileAuthority (cs : List Char) : Except UrlError Authority := do
  if cs = [] then return ⟨"", none, none, none⟩
  match ← Host.parse cs with
  | .domain "localhost" => return ⟨"", none, none, none⟩
  | host => return ⟨"", none, some host, none⟩

/-! ## 3. Paths -/

/-- The segments of a path, between its slashes. -/
def segments (special : Bool) : List Char → List (List Char)
  | [] => [[]]
  | c :: rest =>
    if c = '/' ∨ (special ∧ c = '\\') then [] :: segments special rest
    else
      match segments special rest with
      | [] => [[c]]
      | s :: ss => (c :: s) :: ss

/-- A segment with its escaped dots undone, where it is nothing but dots. -/
def dots (segment : String) : String :=
  (segment.replace "%2e" ".").replace "%2E" "."

/-- Takes segments onto a path, the last one of the path first: one dot stays where it is, two dots
go back, and either leaves an empty segment where it is the last one. -/
def climb : (passed : List String) → List String → List String
  | passed, [] => passed.reverse
  | passed, s :: rest =>
    if dots s = ".." then climb (if rest = [] then "" :: passed.drop 1 else passed.drop 1) rest
    else if dots s = "." then climb (if rest = [] then "" :: passed else passed) rest
    else climb (s :: passed) rest

/-- The path that begins with a slash. -/
def absolutePath (special : Bool) (cs : List Char) : String :=
  let all := (segments special cs).map (Percent.encode Percent.path)
  "/" ++ "/".intercalate (climb [] all)

/-- The path after an authority, or at the start of a special scheme without one. -/
def pathAfter (special : Bool) (cs : List Char) : String :=
  match cs with
  | [] => if special then "/" else ""
  | c :: rest =>
    if c = '/' ∨ (special ∧ c = '\\') then absolutePath special rest else absolutePath special cs

/-- The path of a file has no empty segments at its start. -/
def filePath (cs : List Char) : String :=
  "/" ++ String.ofList ((pathAfter true cs).toList.dropWhile (· = '/'))

/-! ## 4. Whole URLs -/

/-- Cuts the fragment and then the query off. -/
def cut (cs : List Char) : List Char × Option (List Char) × Option (List Char) :=
  let after (x : Char) (cs : List Char) : Option (List Char) :=
    match cs.dropWhile (· ≠ x) with
    | [] => none
    | _ :: rest => some rest
  let main := cs.takeWhile (· ≠ '#')
  (main.takeWhile (· ≠ '?'), after '?' main, after '#' cs)

/-- Whether a character begins a path or continues an authority mark. -/
def isSlash (special : Bool) (c : Char) : Bool := c = '/' || (special && c = '\\')

/-- The authority and the path after the colon of a scheme. -/
def hierarchy (scheme : String) (cs : List Char) : Except UrlError (Option Authority × String) := do
  if scheme = "file" then
    match cs with
    | a :: b :: rest =>
      if isSlash true a ∧ isSlash true b then
        let host := rest.takeWhile (!isSlash true ·)
        return (some (← fileAuthority host), filePath (rest.drop host.length))
      else return (some ⟨"", none, none, none⟩, filePath cs)
    | _ => return (some ⟨"", none, none, none⟩, filePath cs)
  else if isSpecial scheme then
    let rest := cs.dropWhile (isSlash true)
    let held := rest.takeWhile (!endsAuthority true ·)
    return (some (← readAuthority scheme held), pathAfter true (rest.drop held.length))
  else
    match cs with
    | '/' :: '/' :: rest =>
      let held := rest.takeWhile (!endsAuthority false ·)
      return (some (← readAuthority scheme held), pathAfter false (rest.drop held.length))
    | '/' :: rest => return (none, absolutePath false rest)
    | _ => return (none, Percent.encode Percent.control cs)

/-- A text without the characters that do not count. -/
def significant (s : String) : List Char :=
  let blank (c : Char) : Bool := c.toNat ≤ 32
  let cs := ((s.toList.dropWhile blank).reverse.dropWhile blank).reverse
  cs.filter fun c => c ≠ '\t' ∧ c ≠ '\n' ∧ c ≠ '\r'

/-- Reads a URL. -/
def parse (s : String) : Except UrlError Url :=
  match scheme? (significant s) with
  | none => .error .relative
  | some (scheme, rest) => do
    let (main, query, fragment) := cut rest
    let (authority, path) ← hierarchy scheme main
    return { scheme, authority, path
             query := query.map (Percent.encode
               (if isSpecial scheme then Percent.specialQuery else Percent.query))
             fragment := fragment.map (Percent.encode Percent.fragment) }

/-- The written form of a URL. -/
def toText (u : Url) : String :=
  let path := if u.authority = none ∧ u.path.startsWith "//" then "/." ++ u.path else u.path
  u.scheme ++ ":" ++ (u.authority.map fun a => "//" ++ a.toText).getD "" ++ path ++
  (u.query.map ("?" ++ ·)).getD "" ++ (u.fragment.map ("#" ++ ·)).getD ""

/-- The host of a URL. -/
def host? (u : Url) : Option Host := u.authority.bind (·.host)

/-- The port of a URL where one is given. -/
def port? (u : Url) : Option Nat := u.authority.bind (·.port)

/-- Whether a URL has neither an authority nor a path that begins with a slash. -/
def isOpaque (u : Url) : Bool := u.authority = none && !u.path.startsWith "/"

/-- An optional text, in a description of the parts of a URL. -/
def describeText : Option String → String
  | none => "None"
  | some s => s!"Some({Text.quote s})"

/-- An optional host, in a description of the parts of a URL. -/
def describeHost : Option Host → String
  | none => "None"
  | some (.domain name) => s!"Some(Domain({Text.quote name}))"
  | some (.ipv4 address) => s!"Some(Ipv4({Host.ipv4Text address}))"
  | some (.ipv6 pieces) => s!"Some(Ipv6({Host.ipv6Text pieces}))"

/-- A description of the parts of a URL. -/
def describe (u : Url) : String :=
  let user := (u.authority.map (·.user)).getD ""
  let port := match u.port? with
    | none => "None"
    | some n => s!"Some({n})"
  "Url \x7b scheme: " ++ Text.quote u.scheme ++ s!", cannot_be_a_base: {u.isOpaque}" ++
  ", username: " ++ Text.quote user ++
  ", password: " ++ describeText (u.authority.bind (·.password)) ++
  ", host: " ++ describeHost u.host? ++ ", port: " ++ port ++
  ", path: " ++ Text.quote u.path ++ ", query: " ++ describeText u.query ++
  ", fragment: " ++ describeText u.fragment ++ " \x7d"

end Url

end PeerTrust
