import Mathlib.Data.List.Forall2
import PeerTrust.Proofs.Der
import PeerTrust.X509.Strict

/-!
# What was written is read back

`Der.read?_encode` is about one element. Structures are read part by part, and so are these lemmas
put together.

* `Der.Reader.Reads` says that octets are read as something, whatever follows them;
* `Der.Reader.reads_field`, `Der.Reader.reads_within` and `Der.Reader.reads_explicit` are for
  elements, `Der.Reader.explicit_of_absent` for a part that is left out;
* `Der.length_encode_le`: an element is at most six octets longer than its content;
* `X509.Strict.reads_algorithm`, `X509.Strict.reads_extension` and `X509.Strict.reads_serial` are for
  parts of certificates, `X509.Strict.reads_sequenceOf` for several of a kind.
-/

namespace PeerTrust

namespace Der

/-! ## 1. Lengths -/

theorem length_lengthOctets_le {n : Nat} (small : n < 256 ^ 4) : (lengthOctets n).length ≤ 5 := by
  unfold lengthOctets
  split
  · simp
  · have := Bytes.widthOf_le small
    simp only [List.length_cons, Bytes.ofNat_length]
    omega

/-- A tag and a length take six octets at most. -/
theorem length_encode_le (tag : UInt8) {content : Bytes} {n : Nat} (h : content.length ≤ n)
    (small : n < 256 ^ 4) : (encode tag content).length ≤ n + 6 := by
  have := length_lengthOctets_le (Nat.lt_of_le_of_lt h small)
  rw [encode, List.length_cons, List.length_append]
  omega

theorem encode_ne_nil (tag : UInt8) (content : Bytes) : encode tag content ≠ [] := List.cons_ne_nil _ _

/-! ## 2. Readers -/

namespace Reader

variable {α β : Type} {r : Reader α} {f : α → Reader β} {b b' rest : Bytes} {x : α} {y : β}
  {tag : UInt8} {content : Bytes}

/-- What is read first is read first. -/
theorem bind_of_eq_some (h : r b = some (x, rest)) : (r >>= f) b = f x rest := by
  show (r b >>= fun found => f found.1 found.2) = _
  rw [h]
  rfl

/-- Octets are read as something, whatever follows them. -/
def Reads (r : Reader α) (b : Bytes) (x : α) : Prop := ∀ rest, r (b ++ rest) = some (x, rest)

theorem Reads.all (h : Reads r b x) : r b = some (x, []) := by
  have := h []
  rwa [List.append_nil] at this

theorem Reads.bind_append (h : Reads r b x) (rest : Bytes) : (r >>= f) (b ++ rest) = f x rest :=
  bind_of_eq_some (h rest)

theorem Reads.bind_all (h : Reads r b x) : (r >>= f) b = f x [] := bind_of_eq_some h.all

theorem reads_field (low : tag &&& 0x1f ≠ 0x1f) (small : content.length < 256 ^ 4) :
    Reads (field tag) (encode tag content) content :=
  fun _ => field_eq_some_iff.mpr ⟨low, small, rfl⟩

theorem reads_within (low : tag &&& 0x1f ≠ 0x1f) (small : content.length < 256 ^ 4)
    (h : r content = some (x, [])) : Reads (within tag r) (encode tag content) x := by
  intro rest
  simp only [within, reads_field low small rest, complete_eq_some_iff.mpr h, Option.map_some]

theorem check_of_true {ok : Bool} (h : ok = true) (b : Bytes) : check ok b = some ((), b) := by
  rw [h]
  rfl

theorem expect_some (x : α) (b : Bytes) : expect (some x) b = some (x, b) := rfl

/-- Structures that stand one after the other are read one after the other. -/
theorem many_flatten {parts : List Bytes} {xs : List α}
    (h : List.Forall₂ (fun b x => b ≠ [] ∧ Reads r b x) parts xs) :
    many r parts.flatten = some xs := by
  suffices hfuel : ∀ fuel, parts.flatten.length ≤ fuel → manyFuel r fuel parts.flatten = some xs from
    hfuel _ (Nat.le_refl _)
  induction h with
  | nil =>
    intro fuel _
    cases fuel <;> rfl
  | @cons b x parts xs hb _ ih =>
    intro fuel hfuel
    obtain ⟨hne, hreads⟩ := hb
    rw [List.flatten_cons, List.length_append] at hfuel
    have hpos := List.length_pos_iff.mpr hne
    obtain ⟨fuel, rfl⟩ := Nat.exists_eq_add_one.mpr (show 0 < fuel by omega)
    obtain ⟨o, b, rfl⟩ := List.exists_cons_of_ne_nil hne
    have hread := hreads parts.flatten
    rw [List.cons_append] at hread
    simp only [List.flatten_cons, List.cons_append, manyFuel, hread, ih fuel (by omega),
      Option.map_some]

theorem optional_of_head (h : b.head? ≠ some tag) : optional tag b = some (none, b) := by
  cases b with
  | nil => rfl
  | cons t b => exact if_neg fun heq => h (congrArg some heq)

theorem reads_optional (low : tag &&& 0x1f ≠ 0x1f) (small : content.length < 256 ^ 4) :
    Reads (optional tag) (encode tag content) (some content) := by
  intro rest
  have hread := reads_field low small rest
  simp only [encode, List.cons_append] at hread ⊢
  simp only [optional, if_true, hread, Option.map_some]

/-- Nothing is passed over where what comes next is no context-specific element of a lower number. -/
theorem skipBelow_of_head {n : UInt8} (h : ∀ t ∈ b.head?, ¬ (t &&& 0xc0 = 0x80 ∧ t &&& 0x1f < n))
    (fuel : Nat) : skipBelow n fuel b = some ((), b) := by
  cases fuel with
  | zero => rfl
  | succ fuel =>
    cases hhead : b.head? with
    | none => simp only [skipBelow, hhead]
    | some t => simp only [skipBelow, hhead, if_neg (h t (by simp [hhead]))]

/-- The octets of the first three context-specific tags. -/
theorem tag_masks {n : UInt8} (hn : n ∈ [0, 1, 2]) : n < 0x1f ∧ tagImplicit n &&& 0xc0 = 0x80 ∧
    tagExplicit n &&& 0x1f = n ∧ tagExplicit n &&& 0xdf = tagImplicit n := by
  simp only [List.mem_cons, List.not_mem_nil, or_false] at hn
  rcases hn with rfl | rfl | rfl <;> decide

/-- A part under a context-specific tag is absent where what comes next is of another class. -/
theorem explicit_of_absent {n : UInt8} (h : ∀ t ∈ b.head?, t &&& 0xc0 ≠ 0x80) (hn : n ∈ [0, 1, 2]) :
    explicit n r b = some (none, b) := by
  obtain ⟨-, himplicit, -, -⟩ := tag_masks hn
  have hskip := skipBelow_of_head (n := n) (fun t ht hlower => h t ht hlower.1) b.length
  have htagged : tagged n true b = some (none, b) := by
    rw [tagged, bind_of_eq_some (r := remaining) rfl, bind_of_eq_some hskip,
      bind_of_eq_some (r := peek) rfl]
    cases hhead : b.head? with
    | none => rfl
    | some t =>
      have hclass : t &&& 0xdf ≠ tagImplicit n := by
        intro heq
        have hsame : t &&& 0xc0 = (t &&& 0xdf) &&& 0xc0 := by rw [UInt8.and_assoc]; rfl
        exact h t (by simp [hhead]) (by rw [hsame, heq, himplicit])
      simp only [if_neg hclass]
      rfl
  rw [explicit, bind_of_eq_some htagged]
  rfl

theorem reads_explicit {n : UInt8} (hn : n ∈ [0, 1, 2]) (small : content.length < 256 ^ 4)
    (h : r content = some (x, [])) :
    Reads (explicit n r) (encode (tagExplicit n) content) (some x) := by
  intro rest
  obtain ⟨hbound, -, hnumber, hform⟩ := tag_masks hn
  have hlow : tagExplicit n &&& 0x1f ≠ 0x1f := by
    rw [hnumber]
    exact UInt8.ne_of_lt hbound
  have hlower : ¬ (tagExplicit n &&& 0xc0 = 0x80 ∧ tagExplicit n &&& 0x1f < n) := by
    rw [hnumber]
    exact fun h => UInt8.lt_irrefl n h.2
  have hskip : skipBelow n (encode (tagExplicit n) content ++ rest).length
      (encode (tagExplicit n) content ++ rest) = some ((), encode (tagExplicit n) content ++ rest) :=
    skipBelow_of_head (by rintro t ⟨⟩; exact hlower) _
  have htagged : tagged n true (encode (tagExplicit n) content ++ rest) = some (some content, rest) := by
    rw [tagged, bind_of_eq_some (r := remaining) rfl, bind_of_eq_some hskip,
      bind_of_eq_some (r := peek) rfl]
    have hhead : (encode (tagExplicit n) content ++ rest).head? = some (tagExplicit n) := rfl
    have hread := reads_field hlow small rest
    simp only [hhead, hform, if_true, map_eq_pure_bind, bind_of_eq_some hread]
    rfl
  rw [explicit, bind_of_eq_some htagged]
  have hcomplete : expect (complete r content) rest = some (x, rest) := by
    rw [complete_eq_some_iff.mpr h]
    rfl
  simp only [map_eq_pure_bind, bind_of_eq_some hcomplete]
  rfl

end Reader

end Der

/-! ## 3. Parts of certificates -/

namespace X509.Strict

open Der (Reader)
open Der.Reader

variable {o : Oid}

/-- Octets of an object identifier are read as one if this holds of them. -/
def IsReadable (o : Oid) : Prop :=
  (3 ≤ o.octets.length && o.octets.length ≤ 39 && o.octets.head?.any (· < 120) &&
    areArcs 0 (o.octets.drop 1)) = true

instance : Decidable (IsReadable o) := inferInstanceAs (Decidable (_ = true))

theorem IsReadable.small (h : IsReadable o) : o.octets.length ≤ 39 := by
  simp only [IsReadable, Bool.and_eq_true, decide_eq_true_eq] at h
  exact h.1.1.2

theorem reads_oid (h : IsReadable o) : Reads oid (Der.encode Der.tagOid o.octets) o := by
  intro rest
  have hsmall : o.octets.length < 256 ^ 4 := Nat.lt_of_le_of_lt h.small (by decide)
  rw [oid, (reads_field (by decide) hsmall).bind_append, bind_of_eq_some (check_of_true h rest)]
  rfl

theorem length_encode_oid_le (h : IsReadable o) : (Der.encode Der.tagOid o.octets).length ≤ 45 :=
  Der.length_encode_le Der.tagOid h.small (by decide)

theorem reads_algorithm (h : IsReadable o) :
    Reads algorithm (Algorithm.encode ⟨o, none⟩) ⟨o, none⟩ := by
  have hlength := length_encode_oid_le h
  refine reads_within (by decide) (by simp; omega) ?_
  rw [(reads_oid h).bind_append, bind_of_eq_some (r := peek) rfl]
  rfl

theorem reads_extension {x : Extension} (h : IsReadable x.oid)
    (room : x.value.length + 128 ≤ 256 ^ 4) : Reads extension x.encode x := by
  obtain ⟨o, critical, value⟩ := x
  simp only at h room
  have hoid := length_encode_oid_le h
  have hvalue := Der.length_encode_le Der.tagOctets (Nat.le_refl value.length) (by omega)
  have hboolean : (Der.encode Der.tagBoolean [255]).length = 3 := rfl
  have hread : Reads (field Der.tagOctets) (Der.encode Der.tagOctets value) value :=
    reads_field (by decide) (by omega)
  cases critical with
  | false =>
    refine reads_within (by decide) (by simp; omega) ?_
    simp only [List.append_assoc, Bool.false_eq_true, if_false, List.nil_append]
    have habsent : (Der.encode Der.tagOctets value).head? ≠ some Der.tagBoolean :=
      (by decide : some Der.tagOctets ≠ some Der.tagBoolean)
    rw [(reads_oid h).bind_append, bind_of_eq_some (optional_of_head habsent)]
    dsimp only
    rw [pure_bind, hread.bind_all]
    rfl
  | true =>
    refine reads_within (by decide) (by simp [hboolean]; omega) ?_
    simp only [List.append_assoc, if_true]
    have hpresent : Reads (optional Der.tagBoolean) (Der.encode Der.tagBoolean [255]) (some [255]) :=
      reads_optional (by decide) (by decide)
    rw [(reads_oid h).bind_append, hpresent.bind_append]
    dsimp only
    rw [show truth? [255] = some true from rfl,
      bind_of_eq_some (expect_some true _), hread.bind_all]
    rfl

theorem reads_serial {octets : Bytes} (minimal : Der.isMinimalInteger octets = true)
    (short : octets.length ≤ 21) : Reads serial (Der.encode Der.tagInteger octets) octets := by
  intro rest
  have hcheck : (Der.isMinimalInteger octets && decide (octets.length ≤ 21)) = true := by
    simp [minimal, short]
  rw [serial, (reads_field (by decide) (by omega)).bind_append,
    bind_of_eq_some (check_of_true hcheck rest)]
  rfl

theorem reads_sequenceOf {α : Type} {r : Reader α} {parts : List Bytes} {xs : List α}
    (h : List.Forall₂ (fun b x => b ≠ [] ∧ Reads r b x) parts xs)
    (small : parts.flatten.length < 256 ^ 4) : Reads (sequenceOf r) (encodeSequence parts) xs := by
  intro rest
  rw [sequenceOf, encodeSequence, (reads_field (by decide) small).bind_append, many_flatten h]
  rfl

end X509.Strict

end PeerTrust
