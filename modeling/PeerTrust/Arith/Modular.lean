/-!
# Arithmetic modulo a number

* `Modular.pow m b e` is `b ^ e` modulo `m`, by repeated squaring;
* `Modular.inverse p a` is the inverse of `a` modulo a prime `p`, by Fermat's little theorem;
* `Modular.sub m a b` is `a - b` modulo `m` for remainders `a` and `b`.
-/

namespace PeerTrust.Modular

/-- Multiplies `acc` by `b ^ e` modulo `m`. -/
def powAcc (m b e acc : Nat) : Nat :=
  if _h : e = 0 then acc
  else powAcc m (b * b % m) (e / 2) (if e % 2 = 1 then acc * b % m else acc)
termination_by e
decreasing_by omega

/-- The power `b ^ e` modulo `m`. -/
def pow (m b e : Nat) : Nat := powAcc m (b % m) e (1 % m)

/-- The inverse of `a` modulo the prime `p`. -/
def inverse (p a : Nat) : Nat := pow p a (p - 2)

/-- The difference modulo `m` of two remainders. -/
def sub (m a b : Nat) : Nat := (a + m - b) % m

end PeerTrust.Modular
