import PeerTrust.Bytes

/-!
# Answers kept until they expire

* `Kept` is an answer with the time it was stored and the time at which its source promises a newer
  one, if it does;
* `Kept.isExpired` compares with that time, or else with a lifetime counted from the storing; a
  clock that went back counts as no time passed;
* `Cache` maps keys to kept answers and counts the look-ups that found one and those that did not;
  `Cache.live?` looks up what has not expired, `Cache.store` adds and sweeps once the cache is
  large, `Cache.sweep` drops what has expired.
-/

namespace PeerTrust

/-- An answer that is kept. -/
structure Kept (α : Type) where
  value : α
  storedAt : Nat
  nextUpdate : Option Nat
deriving DecidableEq, Repr, Inhabited

/-- Whether an answer may not be used any more. -/
def Kept.isExpired {α : Type} (lifetime now : Nat) (k : Kept α) : Bool :=
  match k.nextUpdate with
  | some next => next < now
  | none => lifetime < now - k.storedAt

/-- Answers by key, and how often one was found and missed. -/
structure Cache (κ α : Type) where
  entries : List (κ × Kept α)
  hits : Nat
  misses : Nat
deriving DecidableEq, Repr, Inhabited

namespace Cache

variable {κ α : Type} [BEq κ]

/-- A cache that holds nothing. -/
def empty : Cache κ α := ⟨[], 0, 0⟩

/-- The number of answers kept. -/
def size (c : Cache κ α) : Nat := c.entries.length

/-- The answer kept under a key, expired or not. -/
def find? (c : Cache κ α) (key : κ) : Option (Kept α) := c.entries.lookup key

/-- The answer kept under a key, if it has not expired. -/
def live? (c : Cache κ α) (lifetime now : Nat) (key : κ) : Option (Kept α) :=
  (c.find? key).filter (!·.isExpired lifetime now)

/-- One more look-up that found an answer. -/
def countHit (c : Cache κ α) : Cache κ α := { c with hits := c.hits + 1 }

/-- One more look-up that found none. -/
def countMiss (c : Cache κ α) : Cache κ α := { c with misses := c.misses + 1 }

/-- Drops what has expired. -/
def sweep (c : Cache κ α) (lifetime now : Nat) : Cache κ α :=
  { c with entries := c.entries.filter (!·.2.isExpired lifetime now) }

/-- Keeps an answer in place of what was under its key. -/
def insert (c : Cache κ α) (key : κ) (k : Kept α) : Cache κ α :=
  { c with entries := (key, k) :: c.entries.filter (·.1 != key) }

/-- Keeps an answer, and sweeps where more than `limit` answers are kept then. -/
def store (c : Cache κ α) (limit lifetime now : Nat) (key : κ) (k : Kept α) : Cache κ α :=
  let c := c.insert key k
  if limit < c.size then c.sweep lifetime now else c

/-- The counts of a cache, in a description of it. -/
def describe (c : Cache κ α) : String :=
  s!"cache_size: {c.size}, cache_hits: {c.hits}, cache_misses: {c.misses}"

end Cache

end PeerTrust
