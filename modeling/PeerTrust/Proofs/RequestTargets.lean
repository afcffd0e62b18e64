import Mathlib.Data.List.TakeWhile
import PeerTrust.Proofs.Fetches
import PeerTrust.Proofs.Hosts

/-!
# What a request names, and where it goes

A request repeats parts of the URL that it is for: the server goes into a header, the path with the
query is its target. The connection goes to the host and the port of the same URL.

* `Http.serverOf?` reads the header as its receiver does; `Http.serverOf?_written`: it is read as the
  host that is written, with the port that goes without saying where none is;
* `Url.cut_target` reads the target: `Url.PlainPath` leaves the question mark and the number sign
  to it;
* `Url.parse_http` says what is so of every URL that is read;
* `Http.request_names_endpoint` is the result.
-/

namespace PeerTrust

/-! ## 1. The server -/

namespace Http

/-- The port after the name of a server; that of plain requests goes without saying. -/
def portOf? : List Char → Option Nat
  | [] | [':'] => some 80
  | ':' :: digits => Host.digitsToNat? 10 digits
  | _ => none

/-- The host of a name without brackets: an address where it is four decimal numbers. -/
def hostOf (cs : List Char) : Host :=
  match Address.ipv4? cs with
  | some octets => .ipv4 octets.toNat
  | none => .domain (String.ofList cs)

/-- The server that a request names: an address in brackets or a name, with a port after a colon. -/
def serverOf? (header : String) : Option Endpoint :=
  match Host.bracketed? header.toList with
  | some inner =>
    match inner.dropWhile (· ≠ ']') with
    | _ :: rest => (Host.ipv6? (inner.takeWhile (· ≠ ']'))).bind fun pieces =>
        (portOf? rest).map fun port => ⟨.ipv6 pieces, port⟩
    | [] => none
  | none => (portOf? (header.toList.dropWhile (· ≠ ':'))).map fun port =>
      ⟨hostOf (header.toList.takeWhile (· ≠ ':')), port⟩

/-- A port after its colon. -/
def portText (port : Option Nat) : List Char :=
  match port with
  | none => []
  | some n => ':' :: Nat.toDigits 10 n

theorem portOf?_portText (port : Option Nat) : portOf? (portText port) = some (port.getD 80) := by
  cases port with
  | none => rfl
  | some n =>
    cases hdigits : Nat.toDigits 10 n with
    | nil => exact absurd hdigits Nat.toDigits_ne_nil
    | cons c digits =>
      rw [portText, hdigits, portOf?, ← hdigits,
        Host.digitsToNat?_toDigits (by decide) (by decide)]
      · rfl
      · exact List.cons_ne_nil c digits

section Cutting

variable {x : Char} {name : List Char}

theorem decide_ne_of_not_mem (h : x ∉ name) : ∀ c ∈ name, decide (c ≠ x) = true :=
  fun _ hc => decide_eq_true fun heq => h (heq ▸ hc)

theorem takeWhile_ne_of_not_mem (h : x ∉ name) (rest : List Char) :
    (name ++ x :: rest).takeWhile (· ≠ x) = name := by
  rw [List.takeWhile_append_of_pos (decide_ne_of_not_mem h)]
  simp

theorem dropWhile_ne_of_not_mem (h : x ∉ name) (rest : List Char) :
    (name ++ x :: rest).dropWhile (· ≠ x) = x :: rest := by
  rw [List.dropWhile_append_of_pos (decide_ne_of_not_mem h)]
  simp

theorem takeWhile_ne_eq_self (h : x ∉ name) : name.takeWhile (· ≠ x) = name :=
  List.takeWhile_eq_self_iff.mpr (decide_ne_of_not_mem h)

theorem dropWhile_ne_eq_nil (h : x ∉ name) : name.dropWhile (· ≠ x) = [] :=
  List.dropWhile_eq_nil_iff.mpr (decide_ne_of_not_mem h)

end Cutting

/-- A name without brackets and colons is read as the host that it is. -/
theorem serverOf?_name {name : List Char} (hcolon : ':' ∉ name) (hbracket : '[' ∉ name)
    (port : Option Nat) {header : String} (hheader : header.toList = name ++ portText port) :
    serverOf? header = some ⟨hostOf name, port.getD 80⟩ := by
  have hplain : Host.bracketed? (name ++ portText port) = none := by
    cases name with
    | nil => cases port <;> rfl
    | cons c name =>
      have hc : c ≠ '[' := fun heq => hbracket (heq ▸ List.mem_cons_self)
      simp [Host.bracketed?, hc]
  have htake : (name ++ portText port).takeWhile (· ≠ ':') = name := by
    cases port with
    | none => rw [portText, List.append_nil, takeWhile_ne_eq_self hcolon]
    | some n => exact takeWhile_ne_of_not_mem hcolon _
  have hdrop : (name ++ portText port).dropWhile (· ≠ ':') = portText port := by
    cases port with
    | none => rw [portText, List.append_nil, dropWhile_ne_eq_nil hcolon]
    | some n => exact dropWhile_ne_of_not_mem hcolon _
  simp only [serverOf?, hheader, hplain, htake, hdrop, portOf?_portText, Option.map_some]

theorem serverOf?_bracketed {inner : List Char} {pieces : List Nat} (hclosed : ']' ∉ inner)
    (hread : Host.ipv6? inner = some pieces) (port : Option Nat) {header : String}
    (hheader : header.toList = '[' :: (inner ++ ']' :: portText port)) :
    serverOf? header = some ⟨.ipv6 pieces, port.getD 80⟩ := by
  simp only [serverOf?, hheader, Host.bracketed?, takeWhile_ne_of_not_mem hclosed,
    dropWhile_ne_of_not_mem hclosed, hread, portOf?_portText, Option.bind_some, Option.map_some]

theorem mem_joined {c : Char} {ns : List Nat} (h : c ∈ Host.joined ns) :
    c = ':' ∨ ∃ n, c ∈ Nat.toDigits 16 n := by
  induction ns using List.reverseRecOn with
  | nil => simp [Host.joined] at h
  | append_singleton ns n _ =>
    rw [Host.joined_append_singleton, List.mem_append, Host.closed, List.mem_flatMap] at h
    rcases h with ⟨m, -, hm⟩ | hn
    · rw [List.mem_append, List.mem_singleton] at hm
      exact hm.symm.imp id fun hm => ⟨m, hm⟩
    · exact .inr ⟨n, hn⟩

theorem bracket_not_mem_joined (ns : List Nat) : ']' ∉ Host.joined ns := by
  intro h
  rcases mem_joined h with heq | ⟨n, hn⟩
  · cases heq
  · exact Host.ne_of_mem_toDigits (by decide) (by decide) rfl hn rfl

theorem bracket_not_mem_ipv6Text (ns : List Nat) : ']' ∉ (Host.ipv6Text ns).toList := by
  rcases Host.toList_ipv6Text ns with htext | ⟨before, after, zeros, -, -, htext⟩
  · rw [htext]
    exact bracket_not_mem_joined ns
  · rw [htext]
    simp [bracket_not_mem_joined]

theorem mem_ipv4Text {c : Char} {address : Nat} (h : c ∈ (Host.ipv4Text address).toList) :
    c = '.' ∨ ∃ n, c ∈ Nat.toDigits 10 n := by
  obtain ⟨x, y, z, w, hoctets⟩ := Host.exists_four_octets address
  rw [Host.toList_ipv4Text hoctets] at h
  simp only [List.mem_append, List.mem_cons] at h
  rcases h with h | h | h | h | h | h | h
  all_goals first | exact .inl h | exact .inr ⟨_, h⟩

theorem not_mem_ipv4Text {x : Char} (hdot : x ≠ '.') (hdigit : Bytes.hexValue? x = none)
    (address : Nat) : x ∉ (Host.ipv4Text address).toList := by
  intro h
  rcases mem_ipv4Text h with heq | ⟨n, hn⟩
  · exact hdot heq
  · exact Host.ne_of_mem_toDigits (by decide) (by decide) hdigit hn rfl

/-- **The header is read as the host and the port that are written**, also where the port goes
without saying. -/
theorem serverOf?_written {host : Host} (h : host.WellFormed) (port : Option Nat) {header : String}
    (hheader : header.toList = host.toText.toList ++ portText port) :
    serverOf? header = some ⟨host, port.getD 80⟩ := by
  cases h with
  | @domain name plain other =>
    have hhost : hostOf name.toList = .domain name := by
      rw [hostOf, other]
      exact congrArg Host.domain String.ofList_toList
    rw [serverOf?_name (fun hc => (plain _ hc).1 rfl) (fun hc => (plain _ hc).2 rfl) port hheader,
      hhost]
  | @ipv4 address small =>
    have hhost : hostOf (Host.ipv4Text address).toList = .ipv4 address := by
      rw [hostOf, Address.ipv4?_ipv4Text]
      simp only
      rw [Bytes.toNat_ofNat, Nat.mod_eq_of_lt small]
    rw [serverOf?_name (not_mem_ipv4Text (by decide) rfl address)
      (not_mem_ipv4Text (by decide) rfl address) port hheader, hhost]
  | @ipv6 pieces eight small =>
    refine serverOf?_bracketed (bracket_not_mem_ipv6Text pieces) (Host.ipv6?_ipv6Text eight small)
      port ?_
    rw [hheader, Host.toText]
    simp

end Http

/-! ## 2. The target -/

namespace Url

/-- What is escaped is not left, apart from the signs of the escape itself. -/
theorem not_mem_encode {unsafeChar : Char → Bool} {x : Char} (hescaped : unsafeChar x = true)
    (hpercent : x ≠ '%') (hdigit : ∀ n < 16, (Bytes.hexDigit n).toUpper ≠ x) (cs : List Char) :
    x ∉ (Percent.encode unsafeChar cs).toList := by
  rw [Percent.encode, String.toList_ofList, List.mem_flatMap]
  rintro ⟨c, -, hc⟩
  unfold Percent.encodeChar at hc
  split_ifs at hc with hleft
  · obtain rfl := List.mem_singleton.mp hc
    simp [hescaped] at hleft
  · obtain ⟨octet, -, hoctet⟩ := List.mem_flatMap.mp hc
    have hhigh : octet.toNat / 16 < 16 := by
      have := octet.toNat_lt
      omega
    have hlow : octet.toNat % 16 < 16 := Nat.mod_lt _ (by decide)
    simp only [Percent.upperPair, Bytes.hexPair, List.map_cons, List.map_nil, List.mem_cons,
      List.not_mem_nil, or_false] at hoctet
    rcases hoctet with heq | heq | heq
    · exact hpercent heq
    · exact hdigit _ hhigh heq.symm
    · exact hdigit _ hlow heq.symm

theorem mem_climb {s : String} {passed rest : List String} (h : s ∈ climb passed rest) :
    s ∈ passed ∨ s ∈ rest ∨ s = "" := by
  induction rest generalizing passed with
  | nil => exact .inl (List.mem_reverse.mp h)
  | cons t rest ih =>
    have hrest : s ∈ rest ∨ s = "" → s ∈ t :: rest ∨ s = "" := Or.imp_left (List.mem_cons_of_mem t)
    rw [climb] at h
    split_ifs at h with hback hlast hstay hlast
    · rcases ih h with hpassed | hrest'
      · rcases List.mem_cons.mp hpassed with heq | hpassed
        · exact .inr (.inr heq)
        · exact .inl (List.mem_of_mem_drop hpassed)
      · exact .inr (hrest hrest')
    · exact (ih h).imp List.mem_of_mem_drop hrest
    · rcases ih h with hpassed | hrest'
      · exact (List.mem_cons.mp hpassed).elim (fun heq => .inr (.inr heq)) .inl
      · exact .inr (hrest hrest')
    · exact (ih h).imp id hrest
    · rcases ih h with hpassed | hrest'
      · rcases List.mem_cons.mp hpassed with rfl | hpassed
        · exact .inr (.inl List.mem_cons_self)
        · exact .inl hpassed
      · exact .inr (hrest hrest')

theorem not_mem_intercalate {x : Char} {between : List Char} {parts : List (List Char)}
    (hbetween : x ∉ between) (hparts : ∀ part ∈ parts, x ∉ part) :
    x ∉ between.intercalate parts := by
  induction parts with
  | nil => simp
  | cons part parts ih =>
    obtain ⟨hpart, hparts⟩ := List.forall_mem_cons.mp hparts
    by_cases hempty : parts = []
    · rw [hempty, List.intercalate_singleton]
      exact hpart
    · rw [List.intercalate_cons_of_ne_nil hempty, List.mem_append, List.mem_append]
      exact fun h => h.elim (fun h => h.elim hpart hbetween) (ih hparts)

/-- A path from the root on, in which neither a query nor a fragment begins. -/
structure PlainPath (path : String) : Prop where
  rooted : ∃ rest, path = "/" ++ rest
  query : '?' ∉ path.toList
  fragment : '#' ∉ path.toList

theorem not_mem_absolutePath {x : Char} (hpath : Percent.path x = true) (hpercent : x ≠ '%')
    (hslash : x ≠ '/') (hdigit : ∀ n < 16, (Bytes.hexDigit n).toUpper ≠ x) (special : Bool)
    (cs : List Char) : x ∉ (absolutePath special cs).toList := by
  rw [absolutePath, String.toList_append, String.toList_intercalate, List.mem_append]
  have hroot : x ∉ "/".toList := by simpa using hslash
  refine fun h => h.elim hroot (not_mem_intercalate hroot fun part hpart => ?_)
  obtain ⟨segment, hsegment, rfl⟩ := List.mem_map.mp hpart
  rcases mem_climb hsegment with hnone | hmem | rfl
  · cases hnone
  · obtain ⟨written, -, rfl⟩ := List.mem_map.mp hmem
    exact not_mem_encode hpath hpercent hdigit written
  · simp

theorem plainPath_absolutePath (special : Bool) (cs : List Char) :
    PlainPath (absolutePath special cs) where
  rooted := ⟨_, rfl⟩
  query := not_mem_absolutePath (by simp [Percent.path]) (by decide) (by decide) (by decide) _ _
  fragment := not_mem_absolutePath (by simp [Percent.path]) (by decide) (by decide) (by decide) _ _

theorem plainPath_pathAfter (cs : List Char) : PlainPath (pathAfter true cs) := by
  cases cs with
  | nil => exact ⟨⟨"", rfl⟩, by simp [pathAfter], by simp [pathAfter]⟩
  | cons c rest =>
    rw [pathAfter]
    split_ifs <;> exact plainPath_absolutePath _ _

theorem hash_not_mem_query (cs : List Char) :
    '#' ∉ (Percent.encode Percent.specialQuery cs).toList :=
  not_mem_encode (by simp [Percent.specialQuery, Percent.query]) (by decide) (by decide) cs

/-- **A target is read as the path and the query that it is made of.** -/
theorem cut_target {path : String} {query : Option String} (hpath : PlainPath path)
    (hquery : ∀ q ∈ query, '#' ∉ q.toList) :
    cut (path ++ (query.map ("?" ++ ·)).getD "").toList =
      (path.toList, query.map String.toList, none) := by
  have hhash : '#' ∉ (path ++ (query.map ("?" ++ ·)).getD "").toList := by
    rw [String.toList_append, List.mem_append]
    refine fun h => h.elim hpath.fragment fun h => ?_
    cases query with
    | none => simp at h
    | some q => simp [hquery q rfl] at h
  have hmain := Http.takeWhile_ne_eq_self hhash
  have hrest := Http.dropWhile_ne_eq_nil hhash
  cases query with
  | none =>
    simp only [Option.map_none, Option.getD_none, String.append_empty] at hmain hrest ⊢
    simp only [cut, hmain, hrest, Http.takeWhile_ne_eq_self hpath.query,
      Http.dropWhile_ne_eq_nil hpath.query]
  | some q =>
    have htext : (path ++ ((some q).map ("?" ++ ·)).getD "").toList =
        path.toList ++ '?' :: q.toList := by simp
    rw [htext] at hmain hrest ⊢
    simp only [cut, hmain, hrest, Http.takeWhile_ne_of_not_mem hpath.query,
      Http.dropWhile_ne_of_not_mem hpath.query, Option.map_some]

/-! ## 3. URLs that are read -/

/-- What is so of a URL of the web: it has a host, and its parts keep apart. -/
structure Served (url : Url) (a : Authority) (host : Host) : Prop where
  authority : url.authority = some a
  names : a.host = some host
  wellFormed : host.WellFormed
  path : PlainPath url.path
  query : ∀ q ∈ url.query, '#' ∉ q.toList

theorem Served.host?_eq {url : Url} {a : Authority} {host : Host} (h : Served url a host) :
    url.host? = some host := by
  rw [host?, h.authority, Option.bind_some, h.names]

theorem Served.port?_eq {url : Url} {a : Authority} {host : Host} (h : Served url a host) :
    url.port? = a.port := by
  rw [port?, h.authority, Option.bind_some]

theorem isSpecial_http : isSpecial "http" = true := rfl

theorem hostAndPort_http {cs : List Char} {host? : Option Host} {port : Option Nat}
    (h : hostAndPort "http" cs = .ok (host?, port)) :
    ∃ host, host? = some host ∧ host.WellFormed := by
  simp only [hostAndPort, isSpecial_http, true_or, and_true, if_true] at h
  by_cases hempty : (splitHost false cs).1 = []
  · rw [if_pos hempty] at h
    cases h
  · rw [if_neg hempty] at h
    obtain ⟨host, hhost, h⟩ := bind_eq_ok_iff.mp h
    refine ⟨host, ?_, Host.parse_wellFormed hhost⟩
    -- with and without a port
    split at h
    all_goals
      obtain ⟨found, -, h⟩ := bind_eq_ok_iff.mp h
      rw [if_neg hempty] at h
      exact (Prod.mk.inj (Except.ok.inj h)).1.symm

theorem readAuthority_http {cs : List Char} {a : Authority}
    (h : readAuthority "http" cs = .ok a) : ∃ host, a.host = some host ∧ host.WellFormed := by
  rw [readAuthority] at h
  obtain ⟨⟨host?, port⟩, hhost, h⟩ := bind_eq_ok_iff.mp h
  obtain ⟨host, rfl, hwritten⟩ := hostAndPort_http hhost
  simp only [reduceCtorEq, false_and, if_false] at h
  obtain rfl := Except.ok.inj h
  exact ⟨host, rfl, hwritten⟩

theorem hierarchy_http {cs : List Char} {authority : Option Authority} {path : String}
    (h : hierarchy "http" cs = .ok (authority, path)) :
    ∃ a held tail, authority = some a ∧ readAuthority "http" held = .ok a ∧
      path = pathAfter true tail := by
  unfold hierarchy at h
  rw [if_neg (by decide), if_pos isSpecial_http] at h
  obtain ⟨a, ha, h⟩ := bind_eq_ok_iff.mp h
  obtain ⟨rfl, rfl⟩ := Prod.mk.inj (Except.ok.inj h)
  exact ⟨a, _, _, rfl, ha, rfl⟩

/-- **Every URL of the web that is read names a host**, whose written form nothing else shares. -/
theorem parse_http {text : String} {url : Url} (h : parse text = .ok url)
    (hscheme : url.scheme = "http") : ∃ a host, Served url a host := by
  unfold parse at h
  split at h
  · cases h
  · rename_i scheme rest _
    obtain ⟨⟨authority, path⟩, hhierarchy, h⟩ := bind_eq_ok_iff.mp h
    obtain rfl := Except.ok.inj h
    obtain rfl : scheme = "http" := hscheme
    obtain ⟨a, held, tail, rfl, hread, rfl⟩ := hierarchy_http hhierarchy
    obtain ⟨host, hhost, hwritten⟩ := readAuthority_http hread
    refine ⟨a, host, rfl, hhost, hwritten, plainPath_pathAfter tail, fun q hq => ?_⟩
    obtain ⟨written, -, rfl⟩ := Option.map_eq_some_iff.mp hq
    exact hash_not_mem_query written

end Url

/-! ## 4. Requests -/

namespace Http

/-- What a request for a URL names: the server that the connection goes to, and the path of the URL
with its query. Its two parts stand in the text of the URL one after the other, behind the user and
before the fragment, which it lacks. -/
structure Names (url : Url) (request : Request) (endpoint : Endpoint) : Prop where
  scheme : url.scheme = "http"
  server : serverOf? request.host = some endpoint
  target : request.target = url.path ++ (url.query.map ("?" ++ ·)).getD ""
  rooted : ∃ rest, request.target = "/" ++ rest
  parts : Url.cut request.target.toList = (url.path.toList, url.query.map String.toList, none)
  written : ∃ user fragment, (user = "" ∨ ∃ asks, user = asks ++ "@") ∧
    (fragment = "" ∨ ∃ place, fragment = "#" ++ place) ∧
    url.toText = "http://" ++ user ++ request.host ++ request.target ++ fragment

section Requests

variable {url : Url} {body : Option Bytes} {request : Request} {a : Authority} {host : Host}

theorem ofUrl_eq_ok (h : Request.ofUrl url body = .ok request) : url.scheme = "http" ∧
    Request.hostHeader url = .ok request.host ∧ request.target = Request.targetOf url := by
  unfold Request.ofUrl at h
  by_cases hscheme : url.scheme = "http"
  · rw [if_neg (not_not.mpr hscheme)] at h
    obtain ⟨header, hheader, h⟩ := bind_eq_ok_iff.mp h
    by_cases hlong : Request.maxTarget < (Request.targetOf url).utf8ByteSize
    · simp only [if_pos hlong] at h
      cases h
    · simp only [if_neg hlong] at h
      cases body with
      | none =>
        obtain rfl := Except.ok.inj h
        exact ⟨hscheme, hheader, rfl⟩
      | some body =>
        obtain rfl := Except.ok.inj h
        exact ⟨hscheme, hheader, rfl⟩
  · rw [if_pos hscheme] at h
    cases h

/-- The port of a URL as the header and the text of the URL show it. -/
theorem toList_port (port : Option Nat) :
    ((port.map fun n => ":" ++ toString n).getD "").toList = portText port := by
  cases port with
  | none => rfl
  | some n =>
    rw [Option.map_some, Option.getD_some, String.toList_append, Host.toList_toString]
    rfl

theorem hostHeader_of_served (h : Url.Served url a host) : Request.hostHeader url =
    .ok (host.toText ++ (a.port.map fun n => ":" ++ toString n).getD "") := by
  rw [Request.hostHeader, h.host?_eq, h.port?_eq]
  cases a.port <;> rfl

theorem endpoint_of_served (h : Url.Served url a host) (hscheme : url.scheme = "http") :
    Endpoint.ofUrl url = .ok ⟨host, a.port.getD 80⟩ := by
  rw [Endpoint.ofUrl, h.host?_eq, h.port?_eq, hscheme]
  cases a.port <;> rfl

theorem toText_of_served (h : Url.Served url a host) (hscheme : url.scheme = "http") :
    ∃ user fragment, (user = "" ∨ ∃ asks, user = asks ++ "@") ∧
      (fragment = "" ∨ ∃ place, fragment = "#" ++ place) ∧
      url.toText = "http://" ++ user ++
        (host.toText ++ (a.port.map fun n => ":" ++ toString n).getD "") ++
        Request.targetOf url ++ fragment := by
  refine ⟨if a.user ++ (a.password.map (":" ++ ·)).getD "" = "" then ""
    else a.user ++ (a.password.map (":" ++ ·)).getD "" ++ "@",
    (url.fragment.map ("#" ++ ·)).getD "", ?_, ?_, ?_⟩
  · split_ifs
    · exact .inl rfl
    · exact .inr ⟨_, rfl⟩
  · cases url.fragment with
    | none => exact .inl rfl
    | some place => exact .inr ⟨place, rfl⟩
  · rw [Url.toText, h.authority, hscheme]
    apply String.toList_injective
    simp [Authority.toText, h.names, Request.targetOf]

/-- **The request, its header and the connection come from one URL.** A request that comes about for
a URL that was read names the server which is connected to, and asks for the path of the URL with its
query. A URL of another scheme, or without a host, fails over every network alike. -/
theorem request_names_endpoint (url : Url) (body : Option Bytes) :
    (∀ text request, Url.parse text = .ok url → Request.ofUrl url body = .ok request →
      ∃ endpoint, Endpoint.ofUrl url = .ok endpoint ∧ Names url request endpoint) ∧
    (url.scheme ≠ "http" → ∀ n maxBody milliseconds,
      fetch n maxBody url body milliseconds = .error (.unsupportedScheme url)) ∧
    (url.scheme = "http" → url.host? = none → ∀ n maxBody milliseconds,
      fetch n maxBody url body milliseconds = .error (.noHost url)) := by
  refine ⟨fun text request hparse hrequest => ?_, fun hscheme n maxBody milliseconds =>
    fetch_of_unasked (.scheme hscheme) n, fun hscheme hhost n maxBody milliseconds =>
    fetch_of_unasked (.host hscheme hhost) n⟩
  obtain ⟨hscheme, hheader, htarget⟩ := ofUrl_eq_ok hrequest
  obtain ⟨a, host, hserved⟩ := Url.parse_http hparse hscheme
  have hhost := Except.ok.inj (hheader.symm.trans (hostHeader_of_served hserved))
  have hlist : request.host.toList = host.toText.toList ++ portText a.port := by
    rw [hhost, String.toList_append, toList_port]
  obtain ⟨rest, hrest⟩ := hserved.path.rooted
  refine ⟨_, endpoint_of_served hserved hscheme, hscheme,
    serverOf?_written hserved.wellFormed a.port hlist, htarget,
    ⟨rest ++ (url.query.map ("?" ++ ·)).getD "", ?_⟩, ?_, ?_⟩
  · rw [htarget, Request.targetOf, hrest, String.append_assoc]
  · rw [htarget]
    exact Url.cut_target hserved.path hserved.query
  · rw [hhost, htarget]
    exact toText_of_served hserved hscheme

/-- A request for a URL with an address in brackets, a port and a query. -/
theorem request_names_literal : ∃ url request,
    Url.parse "http://[::1]:8080?a" = .ok url ∧ Request.ofUrl url none = .ok request ∧
      request.host = "[::1]:8080" ∧ request.target = "/?a" ∧
      ∃ endpoint, Endpoint.ofUrl url = .ok endpoint ∧ Names url request endpoint ∧
        endpoint = ⟨.ipv6 [0, 0, 0, 0, 0, 0, 0, 1], 8080⟩ := by
  have hquery : Percent.encode Percent.specialQuery ['a'] = "a" := by
    simp [Percent.encode, Percent.encodeChar, Percent.specialQuery, Percent.query, Percent.control]
  have hparse : Url.parse "http://[::1]:8080?a" = .ok
      ⟨"http", some ⟨"", none, some (.ipv6 [0, 0, 0, 0, 0, 0, 0, 1]), some 8080⟩, "/",
        some (Percent.encode Percent.specialQuery ['a']), none⟩ := rfl
  rw [hquery] at hparse
  obtain ⟨endpoint, hendpoint, hnames⟩ := (request_names_endpoint _ none).1 _
    ⟨"GET", "/?a", "[::1]:8080", [], []⟩ hparse rfl
  exact ⟨_, _, hparse, rfl, rfl, rfl, endpoint, hendpoint, hnames,
    (Except.ok.inj hendpoint).symm⟩

end Requests

end Http

end PeerTrust
