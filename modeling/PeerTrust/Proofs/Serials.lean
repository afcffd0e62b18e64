import Mathlib.Data.List.Induction
import PeerTrust.Certificate
import PeerTrust.Proofs.Der

/-!
# Serial numbers compare by value

A serial number may be written with more octets than it needs. Compared are normal forms, and they
are the same exactly if the numbers are.

* `Bytes.toNat_cons`, `Bytes.toNat_zeros_append`, `Bytes.toNat_lt`, `Bytes.eq_of_toNat_eq`: octets
  as digits of a number;
* `Serial.toNat_normalize`, `Serial.exists_zeros_append`, `Serial.length_normalize`: a normal form
  has the same value, lacks nothing but zeros, and has the fewest octets but at least one;
* `Serial.normalize_eq_normalize_iff`: so two that are not empty have one normal form exactly if
  they have one value; `Serial.normalize_normalize` and `Serial.normalize_padded` follow.
-/

namespace PeerTrust

/-! ## 1. Octets as digits -/

namespace Bytes

/-- Octets that follow a number shift it up and are added. -/
theorem foldl_eq (b : Bytes) (n : Nat) :
    b.foldl (fun n x => 256 * n + x.toNat) n = n * 256 ^ b.length + toNat b := by
  induction b using List.reverseRecOn with
  | nil => simp [toNat]
  | append_singleton b x ih =>
    have hlast (m : Nat) : (b ++ [x]).foldl (fun n x => 256 * n + x.toNat) m =
        256 * b.foldl (fun n x => 256 * n + x.toNat) m + x.toNat := by simp
    have hpow : 256 ^ (b ++ [x]).length = 256 * 256 ^ b.length := by
      rw [List.length_append, List.length_singleton, Nat.pow_succ, Nat.mul_comm]
    rw [toNat, hlast n, hlast 0, ih, hpow, Nat.mul_add, Nat.mul_left_comm, Nat.add_assoc]
    rfl

theorem toNat_cons (x : UInt8) (b : Bytes) :
    toNat (x :: b) = x.toNat * 256 ^ b.length + toNat b := by
  rw [toNat, List.foldl_cons, Nat.mul_zero, Nat.zero_add, foldl_eq]

theorem toNat_zero_cons (b : Bytes) : toNat (0 :: b) = toNat b := by
  rw [toNat_cons, UInt8.toNat_zero, Nat.zero_mul, Nat.zero_add]

/-- Zeros in front add nothing. -/
theorem toNat_zeros_append (n : Nat) (b : Bytes) : toNat (List.replicate n 0 ++ b) = toNat b := by
  induction n with
  | zero => rfl
  | succ n ih => rw [List.replicate_succ, List.cons_append, toNat_zero_cons, ih]

theorem toNat_lt (b : Bytes) : toNat b < 256 ^ b.length := by
  rw [← ofNat_toNat b, toNat_ofNat, ofNat_length]
  exact Nat.mod_lt _ (Nat.pow_pos (by decide))

/-- Octets of one length are told apart by their value. -/
theorem eq_of_toNat_eq {a b : Bytes} (hlength : a.length = b.length) (h : a.toNat = b.toNat) :
    a = b := by
  rw [← ofNat_toNat a, ← ofNat_toNat b, hlength, h]

end Bytes

/-! ## 2. Normal forms -/

namespace Serial

variable {a b s : Bytes}

@[simp] theorem normalize_eq_nil_iff : normalize s = [] ↔ s = [] := by
  fun_induction normalize s with
  | case1 => simp
  | case2 => simp
  | case3 y rest ih => simp [ih]
  | case4 => simp

/-- A normal form has the value of what it is the form of. -/
theorem toNat_normalize (s : Bytes) : (normalize s).toNat = s.toNat := by
  fun_induction normalize s with
  | case1 => rfl
  | case2 => rfl
  | case3 y rest ih => rw [ih, Bytes.toNat_zero_cons]
  | case4 => rfl

/-- It lacks nothing but zeros in front. -/
theorem exists_zeros_append (s : Bytes) : ∃ n, List.replicate n 0 ++ normalize s = s := by
  fun_induction normalize s with
  | case1 => exact ⟨0, rfl⟩
  | case2 => exact ⟨0, rfl⟩
  | case3 y rest ih =>
    obtain ⟨n, hn⟩ := ih
    exact ⟨n + 1, by rw [List.replicate_succ, List.cons_append, hn]⟩
  | case4 => exact ⟨0, rfl⟩

/-- It has the fewest octets that hold the value, but at least one. -/
theorem length_normalize (h : s ≠ []) :
    (normalize s).length = max 1 (Bytes.widthOf s.toNat) := by
  fun_induction normalize s with
  | case1 => exact absurd rfl h
  | case2 x =>
    have hwidth : Bytes.widthOf (Bytes.toNat [x]) ≤ 1 := Bytes.widthOf_le (Bytes.toNat_lt [x])
    rw [List.length_singleton]
    omega
  | case3 y rest ih => rw [ih (by simp), Bytes.toNat_zero_cons]
  | case4 x y rest hx =>
    -- the first octet counts, so the value needs all of them
    have hlow : 256 ^ (y :: rest).length ≤ Bytes.toNat (x :: y :: rest) := by
      have hpos : 1 ≤ x.toNat := Nat.pos_of_ne_zero fun h0 => hx (UInt8.toNat_inj.mp h0)
      rw [Bytes.toNat_cons]
      calc 256 ^ (y :: rest).length
        _ = 1 * 256 ^ (y :: rest).length := (Nat.one_mul _).symm
        _ ≤ x.toNat * 256 ^ (y :: rest).length := Nat.mul_le_mul_right _ hpos
        _ ≤ _ := Nat.le_add_right _ _
    have hwide : (y :: rest).length < Bytes.widthOf (Bytes.toNat (x :: y :: rest)) :=
      (Nat.pow_lt_pow_iff_right (by decide)).mp
        (Nat.lt_of_le_of_lt hlow (Bytes.lt_pow_widthOf _))
    have hnarrow : Bytes.widthOf (Bytes.toNat (x :: y :: rest)) ≤ (x :: y :: rest).length :=
      Bytes.widthOf_le (Bytes.toNat_lt _)
    simp only [List.length_cons] at hwide hnarrow ⊢
    omega

/-- **Normal forms are the same exactly if the values are.** -/
theorem normalize_eq_normalize_iff (ha : a ≠ []) (hb : b ≠ []) :
    normalize a = normalize b ↔ a.toNat = b.toNat := by
  constructor
  · intro h
    rw [← toNat_normalize a, h, toNat_normalize]
  · intro h
    have hlength : (normalize a).length = (normalize b).length := by
      rw [length_normalize ha, length_normalize hb, h]
    refine Bytes.eq_of_toNat_eq hlength ?_
    rw [toNat_normalize, toNat_normalize, h]

@[simp] theorem normalize_normalize (s : Bytes) : normalize (normalize s) = normalize s := by
  by_cases h : s = []
  · rw [h]
    rfl
  · exact (normalize_eq_normalize_iff (mt normalize_eq_nil_iff.mp h) h).mpr (toNat_normalize s)

/-- However many zeros a number is written with, its normal form is the same. -/
theorem normalize_padded (n : Nat) (h : s ≠ []) :
    normalize (List.replicate n 0 ++ s) = normalize s :=
  (normalize_eq_normalize_iff (List.append_ne_nil_of_right_ne_nil _ h) h).mpr
    (Bytes.toNat_zeros_append n s)

end Serial

end PeerTrust
