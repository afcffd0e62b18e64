import PeerTrust.Pkix.Error

/-!
# Searches with bounded work

A search for a chain may be led astray by certificates made for that purpose, so its work is
counted and bounded.

* `Pkix.Work` counts what has been done, `Pkix.Search` is a computation that counts and may fail;
* `Search.spendSignature`, `Search.spendStep` and `Search.spendComparison` count;
* `Search.firstOf` tries one thing after the other, and reports the most telling error where all
  fail.
-/

namespace PeerTrust.Pkix

/-- What a search has done so far. -/
structure Work where
  signatures : Nat
  steps : Nat
  comparisons : Nat
deriving DecidableEq, Repr, Inhabited

/-- Nothing done yet. -/
def Work.none : Work := ⟨0, 0, 0⟩

/-- A computation that counts its work and may fail. -/
abbrev Search (α : Type) := ExceptT Error (StateM Work) α

namespace Search

/-- Counts a signature, of which a hundred may be checked. -/
def spendSignature : Search Unit := do
  let w ← get
  if w.signatures < 100 then set { w with signatures := w.signatures + 1 }
  else throw .tooManySignatures

/-- Counts a step from a certificate to an issuer. -/
def spendStep : Search Unit := do
  let w ← get
  if w.steps < 200000 then set { w with steps := w.steps + 1 } else throw .tooManySteps

/-- Counts a comparison of a name with a constraint. -/
def spendComparison : Search Unit := do
  let w ← get
  if w.comparisons < 250000 then set { w with comparisons := w.comparisons + 1 }
  else throw .tooManyComparisons

/-- Tries one thing after the other until one succeeds; `e` is the most telling error so far. -/
def firstOf {α : Type} (attempt : α → Search Unit) : (e : Error) → List α → Search Unit
  | e, [] => throw e
  | e, x :: rest => do
    match ← ExceptT.lift (attempt x).run with
    | .ok () => return ()
    | .error new => if new.endsSearch then throw new else firstOf attempt (e.orWorse new) rest

end Search

end PeerTrust.Pkix
