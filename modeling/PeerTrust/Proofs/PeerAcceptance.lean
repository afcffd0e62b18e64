import PeerTrust.Proofs.Calls
import PeerTrust.Proofs.PathCompleteness
import PeerTrust.Proofs.SourceOrder
import PeerTrust.Trust.Verifier

/-!
# Why a peer is accepted, and why it is refused

* `PeerVerifier.Use` are the three uses of a verifier, `Use.run` is one of them, whatever error
  wraps the refusal;
* `PeerVerifier.Vouched` follows the checks of links one by one, the state of one being the start
  of the next; the staple is there for the first link only;
* `PeerVerifier.Accepted` and `PeerVerifier.RefusedAt` state what an acceptance rests on and which
  link a refusal is about;
* `checkLinks_eq_ok_iff` and `checkLinks_eq_error_iff` read the loop over the links as those two;
  `outcome_grounded` says what the outcome of every use rests on, and
  `outcome_grounded_below_mid` reads it of a peer below an intermediate issuer, first where CRLs
  vouch for both certificates and then where one of them lists the issuer.
-/

namespace PeerTrust

namespace PeerVerifier

/-! ## 1. The loop over the links -/

section Links

variable {o : Outside} {p : SecurityPolicy} {now : Nat}

/-- Every link is vouched for, the first one with a staple that may be there, the others without
one. -/
inductive Vouched (o : Outside) (p : SecurityPolicy) (now : Nat) :
    (staple : Option Bytes) → List Link → (before after : RevocationState) → Prop where
  | done {staple : Option Bytes} {s : RevocationState} : Vouched o p now staple [] s s
  | next {staple : Option Bytes} {link : Link} {above : List Link} {source : RevocationSource}
      {s s₁ s₂ : RevocationState}
      (checked : s.1.check o p.ocspEnabled link.certificate link.issuer staple now s.2 =
        (.ok source, s₁))
      (rest : Vouched o p now none above s₁ s₂) :
      Vouched o p now staple (link :: above) s s₂

/-- The staple that is there for a link after those below it. -/
def stapleAfter (below : List Link) (staple : Option Bytes) : Option Bytes :=
  if below = [] then staple else none

/-- The first link that is not vouched for, with the state in which its check leaves off. -/
def RefusedAt (o : Outside) (p : SecurityPolicy) (now : Nat) (staple : Option Bytes)
    (links : List Link) (failure : ValidationFailure) (before after : RevocationState) : Prop :=
  ∃ below link above s, links = below ++ link :: above ∧ Vouched o p now staple below before s ∧
    s.1.check o p.ocspEnabled link.certificate link.issuer (stapleAfter below staple) now s.2 =
      (.error failure, after)

/-- **The loop succeeds exactly if every link is vouched for.** -/
theorem checkLinks_eq_ok_iff {staple : Option Bytes} {links : List Link} {k : RevocationChecker}
    {calls : Calls} {s' : RevocationState} :
    checkLinks o p now staple links k calls = (.ok (), s') ↔
      Vouched o p now staple links (k, calls) s' := by
  induction links generalizing staple k calls with
  | nil =>
    constructor
    · intro h
      obtain rfl : (k, calls) = s' := congrArg Prod.snd h
      exact .done
    · intro h
      cases h
      rfl
  | cons link above ih =>
    unfold checkLinks
    constructor
    · intro h
      split at h
      · rename_i source k₁ calls₁ checked
        exact .next checked (ih.mp h)
      · cases h
    · intro h
      cases h with
      | next checked rest =>
        rw [checked]
        exact ih.mpr rest

/-- **The loop fails exactly at the first link that is not vouched for, and stops there.** -/
theorem checkLinks_eq_error_iff {staple : Option Bytes} {links : List Link}
    {k : RevocationChecker} {calls : Calls} {failure : ValidationFailure} {s' : RevocationState} :
    checkLinks o p now staple links k calls = (.error failure, s') ↔
      RefusedAt o p now staple links failure (k, calls) s' := by
  induction links generalizing staple k calls with
  | nil =>
    constructor
    · intro h
      cases h
    · intro h
      obtain ⟨below, link, above, s, hlinks, -, -⟩ := h
      exact absurd hlinks.symm (by simp)
  | cons first above ih =>
    unfold checkLinks
    constructor
    · intro h
      split at h
      · rename_i source k₁ calls₁ checked
        obtain ⟨below, link, above', s, rfl, hv, hfail⟩ := ih.mp h
        refine ⟨first :: below, link, above', s, rfl, .next checked hv, ?_⟩
        simpa [stapleAfter] using hfail
      · rename_i e k₁ calls₁ checked
        cases h
        exact ⟨[], first, above, (k, calls), rfl, .done, checked⟩
    · intro h
      obtain ⟨below, link, above', s, hlinks, hv, hfail⟩ := h
      cases hv with
      | done =>
        obtain ⟨rfl, rfl⟩ := List.cons.inj hlinks
        simp only [stapleAfter, if_true] at hfail
        rw [hfail]
      | next checked rest =>
        obtain ⟨rfl, rfl⟩ := List.cons.inj hlinks
        rw [checked]
        refine ih.mpr ⟨_, link, above', s, rfl, rest, ?_⟩
        simpa [stapleAfter] using hfail

end Links

/-! ## 2. The uses of a verifier -/

/-- A peer is verified outside of a handshake, or inside as a client or as a server. -/
inductive Use where
  | validate (role : PeerRole)
  | verifyClient
  | verifyServer (name : Pkix.ServerName) (staple : Bytes)

namespace Use

/-- On which side the peer is. -/
def role : Use → PeerRole
  | validate role => role
  | verifyClient => .client
  | verifyServer name _ => .server name

/-- The staple that the peer presents. -/
def staple : Use → Option Bytes
  | validate _ | verifyClient => none
  | verifyServer _ staple => some staple

/-- What comes of a use, with the refusal that an error carries, if it carries one. -/
def run (o : Outside) (p : SecurityPolicy) (v : PeerVerifier) (endEntity : Bytes)
    (intermediates : List Bytes) (now : Nat) (k : RevocationChecker) (calls : Calls) :
    Use → Checked (Option ValidationFailure)
  | validate role =>
    Prod.map (·.mapError some) id (v.validate o p role endEntity intermediates now k calls)
  | verifyClient =>
    Prod.map (·.mapError (·.failure?)) id (v.verifyClient o p endEntity intermediates now k calls)
  | verifyServer name staple =>
    Prod.map (·.mapError (·.failure?)) id
      (v.verifyServer o p name endEntity intermediates staple now k calls)

/-- Every use is the one check; no error of it goes without a refusal. -/
theorem run_eq (o : Outside) (p : SecurityPolicy) (v : PeerVerifier) (endEntity : Bytes)
    (intermediates : List Bytes) (now : Nat) (k : RevocationChecker) (calls : Calls) (use : Use) :
    use.run o p v endEntity intermediates now k calls = Prod.map (·.mapError some) id
      (v.check o p use.role endEntity intermediates use.staple now k calls) := by
  have hcarried (r : Except ValidationFailure Unit) :
      (r.mapError HandshakeError.ofFailure).mapError (·.failure?) = r.mapError some := by
    cases r <;> rfl
  cases use with
  | validate role => rfl
  | verifyClient => exact Prod.ext (hcarried _) rfl
  | verifyServer name staple => exact Prod.ext (hcarried _) rfl

end Use

/-! ## 3. What an outcome rests on -/

section Outcome

variable (o : Outside) (p : SecurityPolicy) (v : PeerVerifier) (use : Use) (endEntity : Bytes)
  (intermediates : List Bytes) (now : Nat)

/-- The chain is accepted, and every certificate of a path to an anchor is vouched for. -/
structure Accepted (before after : RevocationState) : Prop where
  chain : v.acceptsChain use.role endEntity intermediates now = .ok ()
  vouched : ∃ links,
    Path.IsPath endEntity intermediates (v.anchors.map (·.certificate)) links ∧
    Vouched o p now use.staple links before after

/-- The chain is accepted, and the first certificate of a path to an anchor that nothing vouches
for is the one that is refused. -/
structure Refused (failure : ValidationFailure) (before after : RevocationState) : Prop where
  chain : v.acceptsChain use.role endEntity intermediates now = .ok ()
  refused : ∃ links,
    Path.IsPath endEntity intermediates (v.anchors.map (·.certificate)) links ∧
    RefusedAt o p now use.staple links failure before after

variable {v endEntity intermediates now} in
/-- Once there is a path below an accepted chain, the links of the path are all that counts. -/
theorem check_of_path {role : PeerRole} {links : List Link}
    (hchain : v.acceptsChain role endEntity intermediates now = .ok ())
    (hpath : v.path endEntity intermediates = .ok links) (staple : Option Bytes)
    (k : RevocationChecker) (calls : Calls) :
    v.check o p role endEntity intermediates staple now k calls =
      checkLinks o p now staple links k calls := by
  rw [PeerVerifier.check, hchain, hpath]

theorem check_ok {k : RevocationChecker} {calls : Calls} {s : RevocationState}
    (h : v.check o p use.role endEntity intermediates use.staple now k calls = (.ok (), s)) :
    Accepted o p v use endEntity intermediates now (k, calls) s := by
  unfold PeerVerifier.check at h
  split at h
  · cases h
  · rename_i hchain
    split at h
    · cases h
    · rename_i links hpath
      exact ⟨hchain, links, Path.isPath_of_build hpath, checkLinks_eq_ok_iff.mp h⟩

theorem check_error {k : RevocationChecker} {calls : Calls} {failure : ValidationFailure}
    {s : RevocationState}
    (h : v.check o p use.role endEntity intermediates use.staple now k calls =
      (.error failure, s)) :
    (∃ detail, failure = .untrusted detail) ∨
      Refused o p v use endEntity intermediates now failure (k, calls) s := by
  unfold PeerVerifier.check at h
  split at h
  · cases h
    exact .inl ⟨_, rfl⟩
  · rename_i hchain
    split at h
    · cases h
      exact .inl ⟨_, rfl⟩
    · rename_i links hpath
      exact .inr ⟨hchain, links, Path.isPath_of_build hpath, checkLinks_eq_error_iff.mp h⟩

/-- **No peer is accepted without a reason**: whichever use succeeds, the chain was accepted at that
time and each certificate of a path to an anchor was vouched for in turn, the staple being offered
for the end entity only. Whichever fails carries a refusal; one that is not about the chain is that
of the first certificate of the path that was not vouched for, and nothing happens after it. -/
theorem outcome_grounded (k : RevocationChecker) (calls : Calls) :
    (∀ s, use.run o p v endEntity intermediates now k calls = (.ok (), s) →
      Accepted o p v use endEntity intermediates now (k, calls) s) ∧
    (∀ e s, use.run o p v endEntity intermediates now k calls = (.error e, s) →
      ∃ failure, e = some failure ∧ ((∃ detail, failure = .untrusted detail) ∨
        Refused o p v use endEntity intermediates now failure (k, calls) s)) := by
  rw [Use.run_eq]
  cases hc : v.check o p use.role endEntity intermediates use.staple now k calls with
  | mk result s₀ =>
    constructor
    · intro s h
      cases result with
      | error failure => cases h
      | ok _ =>
        cases h
        exact check_ok o p v use endEntity intermediates now hc
    · intro e s h
      cases result with
      | ok _ => cases h
      | error failure =>
        cases h
        exact ⟨failure, rfl, check_error o p v use endEntity intermediates now hc⟩

end Outcome

end PeerVerifier

/-! ## 4. A peer below an intermediate issuer -/

namespace PeerSample

open AnswerSample (now silent)
open CrlSample (kept listing signature statedBy)
open PathSample (leaf mid)

/-- A root that can be an anchor. -/
def root : Certificate :=
  PathSample.certificate 1 "root" "root" AnswerSample.root.publicKey.key true
    (signature 0x1e02f9a1860be4229e6da6a74d18b6b358055b45a212d8400c2a451105f49671
      0x23076b57e0eb611291484dc01d9f4e79a667667e04995b378dfc83b65726aecb)

def verifier : PeerVerifier := ⟨(TrustAnchor.ofCertificate? root).toList⟩

theorem anchors_verifier : verifier.anchors.map (·.certificate) = [root] := by decide +kernel

theorem mid_issued : mid.isIssuedBy root = true :=
  (Path.isIssuedBy_congr rfl rfl (by decide) :
    mid.isIssuedBy root = mid.isIssuedBy AnswerSample.root).trans PathSample.mid_issued

theorem path : verifier.path leaf.der [mid.der] = .ok [⟨leaf, mid⟩, ⟨mid, root⟩] := by
  have hreadable : Path.readable [mid.der] = [mid] :=
    Path.readable_of_forall₂ (.cons PathSample.ofDer_mid .nil)
  rw [PeerVerifier.path, anchors_verifier]
  exact PathSample.build_below (by decide) mid_issued hreadable

theorem chain_accepted : verifier.acceptsChain .client leaf.der [mid.der] now = .ok () := by
  decide +kernel

/-- A CRL of the intermediate issuer that lists nothing. -/
def midCrl : Crl :=
  { kept [] (.within .complete) (statedBy mid [])
      (signature 0xb7fe0958afb45f128ce95df3fa95071756a902f271415fc3a09e87606446b478
        0xad5a4f015bc1a898e14bd3f9f940f8ec0ac089284440be52329d810e17d1d047) with
    issuer := mid.subject }

/-- A CRL of the root that lists the intermediate issuer. -/
def revoking : Crl :=
  kept [[2]] (.within .complete) (statedBy root [listing 2])
    (signature 0xb9539ef5beeddd68bbac338bbe3369f5c7f7b7cad4427e71addc21e7d8a0b900
      0xc47fe597ee22b91febd6bda3c2e21f8289044e91271f6e2348317a68e7a8e3a7)

/-- The checker that has the CRL of the intermediate issuer and one of the root. -/
def checker (crl : Crl) : RevocationChecker := ⟨.standard, [midCrl, crl], .empty, .empty⟩

theorem says_leaf {crl : Crl} (h : crl.issuer = root.subject) :
    LocalCrls.check [midCrl, crl] leaf mid now = some (.ok .valid) := by
  have hcovers : midCrl.covers leaf = true := by decide
  have hother : crl.covers leaf = false := by
    rw [Crl.covers, h]
    exact Bool.and_eq_false_iff.mpr (.inl (by decide))
  have hstatus : midCrl.statusOf leaf mid now = .ok .valid := by decide +kernel
  simp [LocalCrls.check, hcovers, hother, hstatus, LocalCrls.verdict]

theorem clean_says_mid : LocalCrls.check [midCrl, CrlSample.clean] mid root now =
    some (.ok .valid) := by decide +kernel

theorem revoking_says_mid : LocalCrls.check [midCrl, revoking] mid root now =
    some (.ok .revoked) := by decide +kernel

/-- Without responders, what CRLs at hand say of a certificate is what becomes of it. -/
theorem check_eq {crl : Crl} {c issuer : Certificate} {s : CrlStatus}
    (h : LocalCrls.check [midCrl, crl] c issuer now = some (.ok s)) :
    (checker crl).check silent false c issuer none now [] =
      (s.decision c .localCrl, checker crl, []) :=
  RevocationChecker.check_of_localCrl (k := checker crl) (.inl ⟨rfl, rfl⟩) h

/-- What comes of the client whose certificate is below the intermediate issuer. -/
def verified (enabled : Bool) (k : RevocationChecker) : Checked (Option ValidationFailure) :=
  PeerVerifier.Use.verifyClient.run silent ⟨enabled⟩ verifier leaf.der [mid.der] now k []

theorem verified_eq (enabled : Bool) (k : RevocationChecker) :
    verified enabled k = Prod.map (·.mapError some) id (PeerVerifier.checkLinks silent ⟨enabled⟩
      now none [⟨leaf, mid⟩, ⟨mid, root⟩] k []) := by
  rw [verified, PeerVerifier.Use.run_eq]
  exact congrArg _ (PeerVerifier.check_of_path silent ⟨enabled⟩ chain_accepted path none k [])

theorem verified_clean :
    verified false (checker CrlSample.clean) = (.ok (), checker CrlSample.clean, []) := by
  have hvouched : PeerVerifier.Vouched silent ⟨false⟩ now none [⟨leaf, mid⟩, ⟨mid, root⟩]
      (checker CrlSample.clean, []) (checker CrlSample.clean, []) :=
    .next (check_eq (says_leaf rfl)) (.next (check_eq clean_says_mid) .done)
  rw [verified_eq, PeerVerifier.checkLinks_eq_ok_iff.mpr hvouched]
  rfl

theorem verified_revoking :
    verified false (checker revoking) =
      (.error (some (.revoked "mid" .localCrl)), checker revoking, []) := by
  have hrefused : PeerVerifier.RefusedAt silent ⟨false⟩ now none [⟨leaf, mid⟩, ⟨mid, root⟩]
      (.revoked "mid" .localCrl) (checker revoking, []) (checker revoking, []) :=
    ⟨[⟨leaf, mid⟩], ⟨mid, root⟩, [], _, rfl, .next (check_eq (says_leaf rfl)) .done,
      check_eq revoking_says_mid⟩
  rw [verified_eq, PeerVerifier.checkLinks_eq_error_iff.mpr hrefused]
  rfl

end PeerSample

open AnswerSample (now silent) in
open PathSample (leaf mid) in
open PeerSample in
theorem PeerVerifier.outcome_grounded_below_mid :
    (verified false (checker CrlSample.clean) = (.ok (), checker CrlSample.clean, []) ∧
      Accepted silent ⟨false⟩ verifier .verifyClient leaf.der [mid.der] now
        (checker CrlSample.clean, []) (checker CrlSample.clean, [])) ∧
    verified false (checker revoking) =
        (.error (some (.revoked "mid" .localCrl)), checker revoking, []) ∧
      Refused silent ⟨false⟩ verifier .verifyClient leaf.der [mid.der] now
        (.revoked "mid" .localCrl) (checker revoking, []) (checker revoking, []) := by
  obtain ⟨haccepted, -⟩ := outcome_grounded silent ⟨false⟩ verifier .verifyClient leaf.der
    [mid.der] now (checker CrlSample.clean) []
  obtain ⟨-, hrefused⟩ := outcome_grounded silent ⟨false⟩ verifier .verifyClient leaf.der
    [mid.der] now (checker revoking) []
  refine ⟨⟨verified_clean, haccepted _ verified_clean⟩, verified_revoking, ?_⟩
  obtain ⟨failure, hfailure, ⟨detail, huntrusted⟩ | hrefused⟩ := hrefused _ _ verified_revoking
  · subst huntrusted
    cases hfailure
  · cases hfailure
    exact hrefused

end PeerTrust
