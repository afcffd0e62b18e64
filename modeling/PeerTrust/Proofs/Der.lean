import PeerTrust.Asn1.Der

/-!
# There is one encoding

`Der.read?_encode` says that what was written is read back. Here is the other direction: what can
be read was written so, since a length is read in the fewest octets only.

* `Bytes.ofNat_toNat`: octets are the number they denote, in their own width;
* `readLength?_eq_some`, `read?_eq_some_iff`: a length and an element that are read off the front
  are their encodings;
* `complete_field_eq_some_iff`: a whole string is one element of a tag exactly if it is the encoding
  of the content.
-/

namespace PeerTrust

theorem Bytes.ofNat_toNat (b : Bytes) : Bytes.ofNat b.length b.toNat = b := by
  suffices h : ∀ r : Bytes, Bytes.ofNatLow r.length (Bytes.toNat r.reverse) = r by
    have := congrArg List.reverse (h b.reverse)
    simpa [Bytes.ofNat] using this
  intro r
  induction r with
  | nil => rfl
  | cons x r ih =>
    rw [Bytes.toNat_reverse_cons, List.length_cons, Bytes.ofNatLow]
    have hx : x.toNat < 256 := x.toNat_lt
    have hdiv : (256 * Bytes.toNat r.reverse + x.toNat) / 256 = Bytes.toNat r.reverse := by omega
    have hmod : (256 * Bytes.toNat r.reverse + x.toNat) % 256 = x.toNat := by omega
    rw [hdiv, hmod, ih, UInt8.ofNat_toNat]

namespace Der

/-! ## 1. Elements -/

theorem readLength?_eq_some {b rest : Bytes} {n : Nat} (h : readLength? b = some (n, rest)) :
    b = lengthOctets n ++ rest ∧ n < 256 ^ 4 := by
  cases b with
  | nil => cases h
  | cons x tail =>
    simp only [readLength?] at h
    by_cases hx : x < 128
    · rw [if_pos hx] at h
      cases h
      have hlow : x.toNat < 128 := UInt8.lt_iff_toNat_lt.mp hx
      exact ⟨by simp [lengthOctets, hlow], by omega⟩
    · rw [if_neg hx] at h
      have hhigh : 128 ≤ x.toNat := Nat.le_of_not_lt fun hlt => hx (UInt8.lt_iff_toNat_lt.mpr hlt)
      have hoctet : UInt8.ofNat (128 + (x.toNat - 128)) = x := by
        rw [Nat.add_sub_cancel' hhigh, UInt8.ofNat_toNat]
      generalize x.toNat - 128 = width at h hoctet
      generalize hoctets : tail.take width = octets at h
      split at h
      · rename_i hok
        obtain ⟨hfour, hlen, hlong, hwidth⟩ := hok
        simp only [Option.some.injEq, Prod.mk.injEq] at h
        obtain ⟨rfl, rfl⟩ := h
        constructor
        · have hback := Bytes.ofNat_toNat octets
          rw [hlen] at hback
          rw [lengthOctets, if_neg (Nat.not_lt.mpr hlong), hwidth, hoctet, hback, ← hoctets,
            List.cons_append, List.take_append_drop]
        · calc Bytes.toNat octets
            _ < 256 ^ Bytes.widthOf (Bytes.toNat octets) := Bytes.lt_pow_widthOf _
            _ ≤ 256 ^ 4 := Nat.pow_le_pow_right (by decide) (hwidth ▸ hfour)
      · cases h

/-- **What is read off the front is the encoding of what is read.** -/
theorem read?_eq_some_iff {b content rest : Bytes} {tag : UInt8} :
    read? b = some (tag, content, rest) ↔
      tag &&& 0x1f ≠ 0x1f ∧ content.length < 256 ^ 4 ∧ b = encode tag content ++ rest := by
  constructor
  · intro h
    cases b with
    | nil => cases h
    | cons t tail =>
      simp only [read?] at h
      split at h
      · cases h
      · rename_i hlow
        cases hlength : readLength? tail with
        | none => rw [hlength] at h; cases h
        | some found =>
          obtain ⟨n, body⟩ := found
          obtain ⟨htail, hsmall⟩ := readLength?_eq_some hlength
          simp only [hlength] at h
          split at h
          · cases h
          · rename_i hlong
            simp only [Option.some.injEq, Prod.mk.injEq] at h
            obtain ⟨rfl, rfl, rfl⟩ := h
            have hn : (body.take n).length = n := by
              have := List.length_take_le n body
              omega
            refine ⟨hlow, hn.symm ▸ hsmall, ?_⟩
            rw [encode, hn, List.cons_append, List.append_assoc, List.take_append_drop, htail]
  · intro h
    obtain ⟨hlow, hsmall, rfl⟩ := h
    exact read?_encode hlow hsmall rest

/-! ## 2. Readers -/

namespace Reader

theorem field_eq_some_iff {tag : UInt8} {b content rest : Bytes} :
    field tag b = some (content, rest) ↔
      tag &&& 0x1f ≠ 0x1f ∧ content.length < 256 ^ 4 ∧ b = encode tag content ++ rest := by
  rw [← read?_eq_some_iff]
  unfold field
  cases hr : read? b with
  | none => simp
  | some found =>
    obtain ⟨t, content', rest'⟩ := found
    by_cases ht : t = tag
    · simp [ht]
    · simp [ht]

theorem complete_eq_some_iff {α : Type} {r : Reader α} {b : Bytes} {x : α} :
    complete r b = some x ↔ r b = some (x, []) := by
  unfold complete
  split <;> simp_all

/-- **A whole string is an element of a tag exactly if it is the encoding of the content.** -/
theorem complete_field_eq_some_iff {tag : UInt8} {b content : Bytes} :
    complete (field tag) b = some content ↔
      tag &&& 0x1f ≠ 0x1f ∧ content.length < 256 ^ 4 ∧ b = encode tag content := by
  rw [complete_eq_some_iff, field_eq_some_iff, List.append_nil]

end Reader

end Der

end PeerTrust
