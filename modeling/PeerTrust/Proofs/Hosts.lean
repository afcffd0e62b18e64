import Mathlib.Data.List.Forall2
import PeerTrust.Proofs.AddressTexts
import PeerTrust.Proofs.Results

/-!
# Hosts of URLs

What is read as the host of a URL has a written form that nothing else shares.

* `Host.WellFormed` says so: a name is not four numbers with dots, and an address has its length;
* `Host.ipv4?_lt` and `Host.ipv6?_eq_some` bound the addresses that are read;
* `Host.parse_wellFormed` is the result.
-/

namespace PeerTrust

namespace Host

/-! ## 1. Addresses of 32 bits -/

theorem forall₂_of_mapM {α β : Type} {f : α → Option β} {xs : List α} {ys : List β}
    (h : xs.mapM f = some ys) : List.Forall₂ (fun x y => f x = some y) xs ys := by
  induction xs generalizing ys with
  | nil =>
    obtain rfl : [] = ys := Option.some.inj h
    exact .nil
  | cons x xs ih =>
    simp only [List.mapM_cons, Option.bind_eq_bind, Option.bind_eq_some_iff] at h
    obtain ⟨y, hy, ys', hys, hcons⟩ := h
    obtain rfl : y :: ys' = ys := Option.some.inj hcons
    exact .cons hy (ih hys)

theorem octet?_eq_some {cs : List Char} {n : Nat} (h : octet? cs = some n) :
    cs ≠ [] ∧ cs.all Char.isDigit = true ∧ n < 256 := by
  unfold octet? at h
  split at h
  · cases h
  · obtain rfl : 0 = n := Option.some.inj h
    exact ⟨List.cons_ne_nil _ _, rfl, by decide⟩
  · cases h
  · rename_i hempty _ _
    obtain ⟨m, hm, hsmall⟩ := Option.bind_eq_some_iff.mp h
    by_cases hbound : m < 256
    · rw [if_pos hbound] at hsmall
      obtain rfl : m = n := Option.some.inj hsmall
      exact ⟨hempty, isDigit_of_digitsToNat? hm, hbound⟩
    · rw [if_neg hbound] at hsmall
      cases hsmall

theorem ipv4Pieces?_eq_some {cs : List Char} {ns : List Nat} (h : ipv4Pieces? cs = some ns) :
    ∃ parts a b c d, Domain.labels cs = parts ∧
      List.Forall₂ (fun part n => octet? part = some n) parts [a, b, c, d] ∧
      ns = [256 * a + b, 256 * c + d] := by
  simp only [ipv4Pieces?, Option.bind_eq_bind, Option.bind_eq_some_iff] at h
  obtain ⟨octets, hoctets, hns⟩ := h
  split at hns
  · exact ⟨_, _, _, _, _, rfl, forall₂_of_mapM hoctets, (Option.some.inj hns).symm⟩
  · cases hns

/-- A name that does not end in a number is not four numbers with dots. -/
theorem ipv4?_eq_none_of_name {cs : List Char} (h : endsInNumber cs = false) :
    Address.ipv4? cs = none := by
  rw [Address.ipv4?, Option.map_eq_none_iff, Option.eq_none_iff_forall_ne_some]
  intro ns hns
  obtain ⟨parts, a, b, c, d, hparts, hoctets, -⟩ := ipv4Pieces?_eq_some hns
  obtain ⟨p, _, -, hthree, rfl⟩ := List.forall₂_cons_right_iff.mp hoctets
  obtain ⟨q, _, -, htwo, rfl⟩ := List.forall₂_cons_right_iff.mp hthree
  obtain ⟨r, _, -, hone, rfl⟩ := List.forall₂_cons_right_iff.mp htwo
  obtain ⟨last, _, hlast, hnil, rfl⟩ := List.forall₂_cons_right_iff.mp hone
  obtain rfl := List.forall₂_nil_right_iff.mp hnil
  obtain ⟨hne, hdigits, -⟩ := octet?_eq_some hlast
  have hdotted : dottedParts cs = [p, q, r, last] := by
    rw [dottedParts, hparts]
    exact if_neg (by simpa using hne)
  rw [endsInNumber, hdotted] at h
  simp [hne, hdigits] at h

/-- The last number with the octets before it, in any base: numerals are not to be computed here. -/
def withOctets (base : Nat) (others : List Nat) (last : Nat) : Nat :=
  (List.range others.length).foldl (fun n i => n + others.getD i 0 * base ^ (3 - i)) last

theorem withOctets_one (base a last : Nat) : withOctets base [a] last = last + a * base ^ 3 := rfl

theorem withOctets_two (base a b last : Nat) :
    withOctets base [a, b] last = last + a * base ^ 3 + b * base ^ 2 := rfl

theorem withOctets_three (base a b c last : Nat) :
    withOctets base [a, b, c] last = last + a * base ^ 3 + b * base ^ 2 + c * base ^ 1 := rfl

theorem withOctets_lt {others : List Nat} {last : Nat} (hcount : others.length + 1 ≤ 4)
    (hothers : ∀ n ∈ others, n ≤ 255) (hlast : last < 256 ^ (4 - others.length)) :
    withOctets 256 others last < 256 ^ 4 := by
  match others, hcount, hothers, hlast with
  | [], _, _, hlast => exact hlast
  | [a], _, hothers, hlast =>
    have ha := hothers a (by simp)
    simp only [List.length_cons, List.length_nil] at hlast
    rw [withOctets_one]
    omega
  | [a, b], _, hothers, hlast =>
    have ha := hothers a (by simp)
    have hb := hothers b (by simp)
    simp only [List.length_cons, List.length_nil] at hlast
    rw [withOctets_two]
    omega
  | [a, b, c], _, hothers, hlast =>
    have ha := hothers a (by simp)
    have hb := hothers b (by simp)
    have hc := hothers c (by simp)
    simp only [List.length_cons, List.length_nil] at hlast
    rw [withOctets_three]
    omega

theorem ipv4?_lt {cs : List Char} {address : Nat} (h : ipv4? cs = some address) :
    address < 256 ^ 4 := by
  simp only [ipv4?, Option.bind_eq_bind, Option.bind_eq_some_iff] at h
  obtain ⟨numbers, -, last, hlast, h⟩ := h
  obtain ⟨others, rfl⟩ := List.getLast?_eq_some_iff.mp hlast
  rw [List.dropLast_concat] at h
  split_ifs at h with hrefused
  simp only [not_or, Nat.not_lt, Nat.not_le, List.any_eq_true, decide_eq_true_eq, not_exists,
    not_and, List.length_append, List.length_singleton] at hrefused
  obtain ⟨hcount, hothers, hlow⟩ := hrefused
  rw [Option.pure_def, Option.some.injEq] at h
  rw [← h]
  exact withOctets_lt hcount hothers hlow

/-! ## 2. Addresses of 128 bits -/

/-- Pieces of sixteen bits, and no more of them than there is room for. -/
structure Pieces.Fits (p : Pieces) : Prop where
  before : ∀ n ∈ p.before, n < 65536
  after : ∀ after ∈ p.after, ∀ n ∈ after, n < 65536
  count : p.count ≤ 8

theorem Pieces.Fits.push {p : Pieces} {n : Nat} (h : p.Fits) (hcount : p.count < 8)
    (hn : n < 65536) : (p.push n).Fits where
  before m hm := by
    cases hafter : p.after with
    | none =>
      simp only [Pieces.push, hafter, List.mem_append, List.mem_singleton] at hm
      rcases hm with hm | rfl
      · exact h.before m hm
      · exact hn
    | some after =>
      simp only [Pieces.push, hafter] at hm
      exact h.before m hm
  after after' hafter' m hm := by
    cases hafter : p.after with
    | none => simp [Pieces.push, hafter] at hafter'
    | some after =>
      simp only [Pieces.push, hafter, Option.mem_def, Option.some.injEq] at hafter'
      rw [← hafter', List.mem_append, List.mem_singleton] at hm
      rcases hm with hm | rfl
      · exact h.after after hafter m hm
      · exact hn
  count := by
    rw [count_push]
    exact hcount

theorem Pieces.Fits.gap {p : Pieces} (h : p.Fits) (hcount : p.count ≠ 8) (hafter : p.after = none) :
    ({ p with after := some [] } : Pieces).Fits where
  before := h.before
  after after hafter := by
    obtain rfl := Option.some.inj hafter
    exact List.forall_mem_nil _
  count := by
    obtain ⟨before, after⟩ := p
    obtain rfl : after = none := hafter
    have hle := h.count
    rw [count_before] at hle hcount
    have hroom : before.length < 8 := Nat.lt_of_le_of_ne hle hcount
    exact hroom

theorem all?_eq_some {p : Pieces} {ns : List Nat} (hp : p.Fits) (h : p.all? = some ns) :
    ns.length = 8 ∧ ∀ n ∈ ns, n < 65536 := by
  obtain ⟨before, after⟩ := p
  cases after with
  | none =>
    rw [Pieces.all?] at h
    split_ifs at h with hlength
    obtain rfl := Option.some.inj h
    exact ⟨hlength, hp.before⟩
  | some after =>
    have hcount := hp.count
    rw [Pieces.count_after] at hcount
    obtain rfl := Option.some.inj h
    refine ⟨by simp only [List.length_append, List.length_replicate]; omega, fun n hn => ?_⟩
    rw [List.mem_append, List.mem_append, List.mem_replicate] at hn
    rcases hn with (hn | ⟨-, rfl⟩) | hn
    · exact hp.before n hn
    · decide
    · exact hp.after after rfl n hn

theorem foldl_push_fits {p : Pieces} {ns : List Nat} (hp : p.Fits)
    (hcount : p.count + ns.length ≤ 8) (hns : ∀ n ∈ ns, n < 65536) :
    (ns.foldl Pieces.push p).Fits := by
  induction ns generalizing p with
  | nil => exact hp
  | cons n ns ih =>
    obtain ⟨hn, hns⟩ := List.forall_mem_cons.mp hns
    rw [List.length_cons] at hcount
    exact ih (hp.push (by omega) hn) (by rw [count_push]; omega) hns

theorem ipv4Pieces?_fits {cs : List Char} {ns : List Nat} (h : ipv4Pieces? cs = some ns) :
    ns.length = 2 ∧ ∀ n ∈ ns, n < 65536 := by
  obtain ⟨parts, a, b, c, d, -, hoctets, rfl⟩ := ipv4Pieces?_eq_some h
  have hsmall : ∀ n ∈ [a, b, c, d], n < 256 := by
    intro n hn
    obtain ⟨part, hpart⟩ := exists_of_forall₂ hoctets.flip n hn
    exact (octet?_eq_some hpart).2.2
  simp only [List.forall_mem_cons] at hsmall
  refine ⟨rfl, fun n hn => ?_⟩
  rw [List.mem_pair] at hn
  omega

/-- The value of at most four digits. -/
theorem value_lt (cs : List Char) (q : Char → Bool) :
    (digitsToNat? 16 ((cs.take 4).takeWhile q)).getD 0 < 65536 := by
  have hlength : ((cs.take 4).takeWhile q).length ≤ 4 :=
    Nat.le_trans (List.takeWhile_prefix q).length_le (List.length_take_le 4 cs)
  cases hvalue : digitsToNat? 16 ((cs.take 4).takeWhile q) with
  | none => decide
  | some n =>
    calc n < 16 ^ ((cs.take 4).takeWhile q).length := digitsToNat?_lt hvalue
      _ ≤ 16 ^ 4 := Nat.pow_le_pow_right (by decide) hlength

/-- **What is read as pieces fits**, whatever text it is. -/
theorem readPieces?_fits {fuel : Nat} {p q : Pieces} {cs : List Char} (hp : p.Fits)
    (h : readPieces? fuel p cs = some q) : q.Fits := by
  induction fuel generalizing p cs with
  | zero =>
    cases cs with
    | nil =>
      obtain rfl : p = q := Option.some.inj h
      exact hp
    | cons c cs => cases h
  | succ fuel ih =>
    by_cases hempty : cs = []
    · subst hempty
      obtain rfl : p = q := Option.some.inj h
      exact hp
    by_cases hcolon : ∃ rest, cs = ':' :: rest
    · obtain ⟨rest, rfl⟩ := hcolon
      rw [readPieces?.eq_3] at h
      split_ifs at h with hfull hafter
      exact ih (hp.gap hfull (Option.not_isSome_iff_eq_none.mp hafter)) h
    · have hvalue := value_lt cs fun c => (Bytes.hexValue? c).isSome
      rw [readPieces?.eq_4 _ _ _ hempty fun rest hrest => hcolon ⟨rest, hrest⟩] at h
      split_ifs at h with hfull
      have hroom : p.count < 8 := Nat.lt_of_le_of_ne hp.count hfull
      dsimp only at h
      split at h
      · obtain rfl := Option.some.inj h
        exact hp.push hroom hvalue
      · split_ifs at h
        exact ih (hp.push hroom hvalue) h
      · split_ifs at h with hrefused
        obtain ⟨ns, hns, rfl⟩ := Option.map_eq_some_iff.mp h
        obtain ⟨hlength, hsmall⟩ := ipv4Pieces?_fits hns
        exact foldl_push_fits hp (by omega) hsmall
      · cases h

theorem ipv6?_eq_some {cs : List Char} {ns : List Nat} (h : ipv6? cs = some ns) :
    ns.length = 8 ∧ ∀ n ∈ ns, n < 65536 := by
  have hfits {fuel : Nat} {p : Pieces} {cs : List Char} (hp : p.Fits)
      (h : (readPieces? fuel p cs).bind Pieces.all? = some ns) :
      ns.length = 8 ∧ ∀ n ∈ ns, n < 65536 := by
    obtain ⟨q, hq, hall⟩ := Option.bind_eq_some_iff.mp h
    exact all?_eq_some (readPieces?_fits hp hq) hall
  unfold ipv6? at h
  split at h
  · cases h
  · cases h
  · exact hfits ⟨by simp, by simp, by decide⟩ h
  · cases h
  · exact hfits ⟨by simp, by simp, by decide⟩ h

/-! ## 3. Hosts -/

/-- A host as it is read from a URL: a name that is not an address and that nothing ends before it
is complete, or an address of its length. -/
inductive WellFormed : Host → Prop where
  | domain {name : String} (plain : ∀ c ∈ name.toList, c ≠ ':' ∧ c ≠ '[')
      (other : Address.ipv4? name.toList = none) : WellFormed (.domain name)
  | ipv4 {address : Nat} (small : address < 256 ^ 4) : WellFormed (.ipv4 address)
  | ipv6 {pieces : List Nat} (eight : pieces.length = 8) (small : ∀ n ∈ pieces, n < 65536) :
      WellFormed (.ipv6 pieces)

theorem not_isForbidden_of_toAscii? {b : Bytes} {name : String}
    (h : Domain.toAscii? b = some name) : ∀ c ∈ name.toList, Domain.isForbidden c = false := by
  simp only [Domain.toAscii?, Option.bind_eq_bind, Option.bind_eq_some_iff] at h
  obtain ⟨text, -, parts, -, h⟩ := h
  split_ifs at h with hforbidden
  obtain rfl := Option.some.inj h
  rw [String.toList_ofList]
  simpa using hforbidden

theorem parseBracketed_wellFormed {inner : List Char} {host : Host}
    (h : parseBracketed inner = .ok host) : WellFormed host := by
  unfold parseBracketed at h
  split_ifs at h
  split at h
  · rename_i pieces hpieces
    obtain rfl := Except.ok.inj h
    obtain ⟨height, hsmall⟩ := ipv6?_eq_some hpieces
    exact .ipv6 height hsmall
  · cases h

/-- **Every host that is read is well formed.** -/
theorem parse_wellFormed {cs : List Char} {host : Host} (h : parse cs = .ok host) :
    WellFormed host := by
  unfold parse at h
  split at h
  · exact parseBracketed_wellFormed h
  · split at h
    · cases h
    · cases h
    · rename_i name _ hname
      have hplain := not_isForbidden_of_toAscii? hname
      split_ifs at h with hnumber
      · split at h
        · rename_i address haddress
          obtain rfl := Except.ok.inj h
          exact .ipv4 (ipv4?_lt haddress)
        · cases h
      · obtain rfl := Except.ok.inj h
        refine .domain (fun c hc => ?_) (ipv4?_eq_none_of_name (Bool.eq_false_iff.mpr hnumber))
        have hcolon : Domain.isForbidden ':' = true := by simp [Domain.isForbidden]
        have hbracket : Domain.isForbidden '[' = true := by simp [Domain.isForbidden]
        have hsafe := hplain c hc
        refine ⟨fun heq => ?_, fun heq => ?_⟩
        · rw [heq, hcolon] at hsafe
          cases hsafe
        · rw [heq, hbracket] at hsafe
          cases hsafe

end Host

end PeerTrust
