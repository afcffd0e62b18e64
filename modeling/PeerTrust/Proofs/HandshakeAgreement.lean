import PeerTrust.Handshake
import PeerTrust.Proofs.StapleConfinement

/-!
# Verification inside and outside of handshakes

A peer is verified in three ways, each a sequence of its own: chain, path, links.

* `PeerVerifier.inTurn` is such a sequence, with its own way to raise a refusal;
  `PeerVerifier.enforce` asks for the links, counted from the end entity;
* `PeerVerifier.check_of_empty`: a staple that is empty is none, for a whole path;
* `PeerVerifier.Agree` compares a verification outside of a handshake with one inside: either both
  succeed, or the error of the handshake carries the refusal; and both leave the same state;
* `PeerStep.Twin` are two uses of a verifier of which the one is outside of a handshake and the
  other inside; `PeerStep.run_twins`: runs of twins leave the same state and give the same verdicts;
* `PeerVerifier.validation_agrees` puts these together, down to what a whole handshake comes to.
-/

namespace PeerTrust

namespace PeerVerifier

variable {o : Outside} {p : SecurityPolicy} {v : PeerVerifier} {role : PeerRole}
  {endEntity : Bytes} {intermediates : List Bytes} {staple : Option Bytes} {now : Nat}
  {k : RevocationChecker} {calls : Calls}

/-! ## 1. Sequences -/

/-- Asks for one link after the other, counted from the end entity; a staple is for the one that is
counted zero. -/
def enforceFrom (o : Outside) (p : SecurityPolicy) (now : Nat) (staple : Option Bytes) :
    (depth : Nat) → List Link → RevocationChecker → Calls → Checked ValidationFailure
  | _, [], k, calls => (.ok (), k, calls)
  | depth, link :: rest, k, calls =>
    match k.check o p.ocspEnabled link.certificate link.issuer (if depth = 0 then staple else none)
        now calls with
    | (.ok _, k, calls) => enforceFrom o p now staple (depth + 1) rest k calls
    | (.error e, k, calls) => (.error e, k, calls)

/-- Rebuilds the path, and asks for its links. -/
def enforce (o : Outside) (p : SecurityPolicy) (v : PeerVerifier) (endEntity : Bytes)
    (intermediates : List Bytes) (staple : Option Bytes) (now : Nat) (k : RevocationChecker)
    (calls : Calls) : Checked ValidationFailure :=
  match v.path endEntity intermediates with
  | .error e => (.error (.untrusted e.message), k, calls)
  | .ok links => enforceFrom o p now staple 0 links k calls

/-- The chain comes first, then what is enforced; a refusal of either is raised. -/
def inTurn {ε : Type} (raise : ValidationFailure → ε) (chain : Except Pkix.Error Unit)
    (enforced : Checked ValidationFailure) (k : RevocationChecker) (calls : Calls) : Checked ε :=
  match chain with
  | .error e => (.error (raise (.untrusted s!"invalid peer certificate: {e.message}")), k, calls)
  | .ok () => (enforced.1.mapError raise, enforced.2)

/-- Above the end entity, there is no staple. -/
theorem enforceFrom_succ (staple : Option Bytes) (depth : Nat) (links : List Link)
    (k : RevocationChecker) (calls : Calls) :
    enforceFrom o p now staple (depth + 1) links k calls =
      checkLinks o p now none links k calls := by
  induction links generalizing depth k calls with
  | nil => rfl
  | cons link rest ih =>
    unfold enforceFrom checkLinks
    rw [if_neg (Nat.succ_ne_zero depth)]
    rcases k.check o p.ocspEnabled link.certificate link.issuer none now calls with
      ⟨failure | source, k', calls'⟩
    · rfl
    · exact ih (depth + 1) k' calls'

theorem enforceFrom_zero (staple : Option Bytes) (links : List Link) (k : RevocationChecker)
    (calls : Calls) :
    enforceFrom o p now staple 0 links k calls = checkLinks o p now staple links k calls := by
  cases links with
  | nil => rfl
  | cons link rest =>
    unfold enforceFrom checkLinks
    rw [if_pos rfl]
    rcases k.check o p.ocspEnabled link.certificate link.issuer staple now calls with
      ⟨failure | source, k', calls'⟩
    · rfl
    · exact enforceFrom_succ staple 0 rest k' calls'

/-- **Whatever raises refusals, a verification is the one check.** -/
theorem inTurn_enforce {ε : Type} (raise : ValidationFailure → ε) :
    inTurn raise (v.acceptsChain role endEntity intermediates now)
        (v.enforce o p endEntity intermediates staple now k calls) k calls =
      Prod.map (·.mapError raise) id
        (v.check o p role endEntity intermediates staple now k calls) := by
  unfold check inTurn enforce
  cases v.acceptsChain role endEntity intermediates now with
  | error e => rfl
  | ok _ =>
    simp only
    cases v.path endEntity intermediates with
    | error e => rfl
    | ok links =>
      simp only [enforceFrom_zero]
      rfl

/-! ## 2. Empty staples -/

/-- A staple that is empty is none. -/
theorem checkLinks_of_empty (links : List Link) (k : RevocationChecker) (calls : Calls) :
    checkLinks o p now (some []) links k calls = checkLinks o p now none links k calls := by
  cases links <;> rfl

theorem check_of_empty : v.check o p role endEntity intermediates (some []) now k calls =
    v.check o p role endEntity intermediates none now k calls := by
  unfold check
  simp only [checkLinks_of_empty]

/-! ## 3. Agreement -/

/-- A verification outside of a handshake and one inside agree: both succeed, or both fail, and the
error of the handshake carries just the refusal. They leave the same caches and counts, after the
same calls. -/
structure Agree (outside : Checked ValidationFailure) (inside : Checked HandshakeError) : Prop where
  result : (outside.1 = .ok () ∧ inside.1 = .ok ()) ∨ ∃ failure e,
    outside.1 = .error failure ∧ inside.1 = .error e ∧ e.failure? = some failure
  state : inside.2 = outside.2

/-- A refusal that is raised as an error of a handshake is taken out again. -/
theorem agree_ofFailure (r : Checked ValidationFailure) :
    Agree r (Prod.map (·.mapError .ofFailure) id r) := by
  refine ⟨?_, rfl⟩
  obtain ⟨result, state⟩ := r
  cases result with
  | ok _ => exact .inl ⟨rfl, rfl⟩
  | error failure =>
    exact .inr ⟨failure, _, rfl, rfl, HandshakeError.failure?_ofFailure failure⟩

theorem agree_verifyClient :
    Agree (v.validate o p .client endEntity intermediates now k calls)
      (v.verifyClient o p endEntity intermediates now k calls) :=
  agree_ofFailure _

theorem agree_verifyServer {name : Pkix.ServerName} :
    Agree (v.validate o p (.server name) endEntity intermediates now k calls)
      (v.verifyServer o p name endEntity intermediates [] now k calls) := by
  have h := agree_ofFailure (v.check o p (.server name) endEntity intermediates none now k calls)
  rw [← check_of_empty] at h
  rw [validate, ← check_of_empty]
  exact h

end PeerVerifier

/-! ## 4. Runs -/

namespace PeerStep

variable {o : Outside} {steps steps' : List PeerStep} {step step' : PeerStep}

/-- The verdict on a peer that a use verifies, if it verifies one. -/
def verdict (o : Outside) (state : RevocationState) :
    PeerStep → Option (Except (Option ValidationFailure) Unit)
  | verify v p use endEntity intermediates now =>
    some (use.run o p v endEntity intermediates now state.1 state.2).1
  | cleanup _ => none

/-- The verdicts of uses, one after the other. -/
def verdicts (o : Outside) : RevocationState → List PeerStep →
    List (Option (Except (Option ValidationFailure) Unit))
  | _, [] => []
  | state, step :: steps => step.verdict o state :: verdicts o (apply o state step) steps

/-- Of two uses, the first is outside of a handshake and the second inside, or they are the same. -/
inductive Twin : PeerStep → PeerStep → Prop where
  | same (step : PeerStep) : Twin step step
  | client (v : PeerVerifier) (p : SecurityPolicy) (endEntity : Bytes) (intermediates : List Bytes)
      (now : Nat) : Twin (.verify v p (.validate .client) endEntity intermediates now)
        (.verify v p .verifyClient endEntity intermediates now)
  | server (v : PeerVerifier) (p : SecurityPolicy) (name : Pkix.ServerName) (endEntity : Bytes)
      (intermediates : List Bytes) (now : Nat) :
      Twin (.verify v p (.validate (.server name)) endEntity intermediates now)
        (.verify v p (.verifyServer name []) endEntity intermediates now)

/-- Twins come to the same. -/
theorem Twin.alike (h : Twin step step') (state : RevocationState) :
    apply o state step = apply o state step' ∧
      step.verdict o state = step'.verdict o state := by
  cases h with
  | same => exact ⟨rfl, rfl⟩
  | client v p endEntity intermediates now =>
    simp only [apply, verdict, PeerVerifier.Use.run_eq, PeerVerifier.Use.role,
      PeerVerifier.Use.staple, and_self]
  | server v p name endEntity intermediates now =>
    simp only [apply, verdict, PeerVerifier.Use.run_eq, PeerVerifier.Use.role,
      PeerVerifier.Use.staple, PeerVerifier.check_of_empty, and_self]

/-- **Runs of twins leave the same state, and give the same verdicts.** -/
theorem run_twins (h : List.Forall₂ Twin steps steps') (state : RevocationState) :
    run o state steps = run o state steps' ∧
      verdicts o state steps = verdicts o state steps' := by
  induction h generalizing state with
  | nil => exact ⟨rfl, rfl⟩
  | @cons step step' steps steps' htwin _ ih =>
    obtain ⟨happly, hverdict⟩ := htwin.alike state
    obtain ⟨hrun, hverdicts⟩ := ih (apply o state step)
    constructor
    · rw [run, List.foldl_cons, ← run, hrun, happly]
      rfl
    · rw [verdicts, verdicts, hverdict, hverdicts, happly]

end PeerStep

/-! ## 5. Handshakes -/

namespace Handshake

/-- A client verifies a server as it would now outside of the handshake. -/
theorem clientVerifies_eq (o : Outside) (p : SecurityPolicy) (client : TrustContext)
    (name : Pkix.ServerName) (chain : List Certificate) (calls : Calls) :
    clientVerifies o p client name chain calls =
      Prod.map (·.mapError .untrusted) (·.2)
        (client.verifier.validateNow o p (.server name) (split chain).1 (split chain).2
          client.checker calls) := by
  simp only [clientVerifies, PeerVerifier.verifyServer, PeerVerifier.check_of_empty,
    PeerVerifier.validateNow, PeerVerifier.validate, Prod.map]
  rcases PeerVerifier.check o p client.verifier (.server name) (split chain).1 (split chain).2 none
    (o.clock calls) client.checker calls with ⟨_ | _, _⟩ <;> rfl

/-- A server verifies a client as it would now outside of the handshake. -/
theorem serverVerifies_eq (o : Outside) (p : SecurityPolicy) (server : TrustContext)
    (chain : List Certificate) (calls : Calls) :
    serverVerifies o p server chain calls =
      Prod.map (·.mapError .untrusted) (·.2)
        (server.verifier.validateNow o p .client (split chain).1 (split chain).2
          server.checker calls) := by
  simp only [serverVerifies, PeerVerifier.verifyClient, PeerVerifier.validateNow,
    PeerVerifier.validate, Prod.map]
  rcases PeerVerifier.check o p server.verifier .client (split chain).1 (split chain).2 none
    (o.clock calls) server.checker calls with ⟨_ | _, _⟩ <;> rfl

end Handshake

/-! ## 6. Validation and handshakes -/

theorem PeerVerifier.map_mapError_id (r : Checked ValidationFailure) :
    Prod.map (·.mapError id) id r = r := by
  obtain ⟨_ | _, _⟩ := r <;> rfl

open PeerVerifier in
/-- **Validation outside of a handshake agrees with the handshake.** A client is validated as it is
verified, and a server as it is verified without a staple: from every state, with one verdict, the
refusal being the one that the error of the handshake carries, and into one state after one list of
calls, though each goes its own way through chain, path and links. So it is in whole runs, and in
handshakes, which fail with the error that validation gives at that time. -/
theorem PeerVerifier.validation_agrees (o : Outside) (p : SecurityPolicy) :
    (∀ (v : PeerVerifier) (endEntity : Bytes) (intermediates : List Bytes) (now : Nat)
        (k : RevocationChecker) (calls : Calls),
      Agree (v.validate o p .client endEntity intermediates now k calls)
          (v.verifyClient o p endEntity intermediates now k calls) ∧
        ∀ name, Agree (v.validate o p (.server name) endEntity intermediates now k calls)
          (v.verifyServer o p name endEntity intermediates [] now k calls)) ∧
    (∀ (v : PeerVerifier) (endEntity : Bytes) (intermediates : List Bytes) (now : Nat)
        (k : RevocationChecker) (calls : Calls),
      (∀ role, v.validate o p role endEntity intermediates now k calls =
        inTurn id (v.acceptsChain role endEntity intermediates now)
          (v.enforce o p endEntity intermediates none now k calls) k calls) ∧
      v.verifyClient o p endEntity intermediates now k calls =
        inTurn .ofFailure (v.acceptsChain .client endEntity intermediates now)
          (v.enforce o p endEntity intermediates none now k calls) k calls ∧
      ∀ name staple, v.verifyServer o p name endEntity intermediates staple now k calls =
        inTurn .ofFailure (v.acceptsChain (.server name) endEntity intermediates now)
          (v.enforce o p endEntity intermediates (some staple) now k calls) k calls) ∧
    (∀ (steps steps' : List PeerStep) (state : RevocationState),
      List.Forall₂ PeerStep.Twin steps steps' →
        PeerStep.run o state steps = PeerStep.run o state steps' ∧
          PeerStep.verdicts o state steps = PeerStep.verdicts o state steps') ∧
    ∀ (context : TrustContext) (chain : List Certificate) (calls : Calls),
      Handshake.serverVerifies o p context chain calls =
          Prod.map (·.mapError .untrusted) (·.2)
            (context.verifier.validateNow o p .client (Handshake.split chain).1
              (Handshake.split chain).2 context.checker calls) ∧
        ∀ name, Handshake.clientVerifies o p context name chain calls =
          Prod.map (·.mapError .untrusted) (·.2)
            (context.verifier.validateNow o p (.server name) (Handshake.split chain).1
              (Handshake.split chain).2 context.checker calls) := by
  refine ⟨fun v endEntity intermediates now k calls => ?_,
    fun v endEntity intermediates now k calls => ?_, ?_, fun context chain calls => ?_⟩
  · exact ⟨agree_verifyClient, fun name => agree_verifyServer⟩
  · refine ⟨fun role => ?_, ?_, fun name staple => ?_⟩
    · rw [inTurn_enforce, map_mapError_id]
      rfl
    · rw [inTurn_enforce]
      rfl
    · rw [inTurn_enforce]
      rfl
  · exact fun steps steps' state htwins => PeerStep.run_twins htwins state
  · exact ⟨Handshake.serverVerifies_eq o p context chain calls,
      fun name => Handshake.clientVerifies_eq o p context name chain calls⟩

end PeerTrust
