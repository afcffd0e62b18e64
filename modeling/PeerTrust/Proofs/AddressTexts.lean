import Mathlib.Data.List.Induction
import Mathlib.Tactic.Ring
import PeerTrust.Proofs.Der
import PeerTrust.Url.Address

/-!
# Addresses read back from their written forms

* `Host.digitsToNat?_toDigits`: a number is read back in every base;
* `Address.ipv4?_ipv4Text` reads the four decimal numbers of a short address back;
* `Host.ipv6?_ipv6Text` does so for the eight numbers of a long one, also where a run of zeros is
  left out: `Host.toList_ipv6Text` tells the two forms, `Host.eq_of_zeroRuns` that it is zeros
  indeed.
-/

namespace PeerTrust

namespace Host

/-! ## 1. Numbers -/

/-- One more digit of a number. -/
def pushDigit (base n : Nat) (c : Char) : Option Nat :=
  match Bytes.hexValue? c with
  | some d => if d < base then some (base * n + d) else none
  | none => none

theorem digitsToNat?_eq (base : Nat) (cs : List Char) :
    digitsToNat? base cs = cs.foldlM (pushDigit base) 0 := rfl

theorem hexValue?_digitChar {n : Nat} (h : n < 16) : Bytes.hexValue? n.digitChar = some n := by
  revert n
  decide

theorem pushDigit_digitChar {base d : Nat} (n : Nat) (hd : d < base) (hbase : base ≤ 16) :
    pushDigit base n d.digitChar = some (base * n + d) := by
  rw [pushDigit, hexValue?_digitChar (Nat.lt_of_lt_of_le hd hbase)]
  exact if_pos hd

theorem pushDigit_eq_some_iff {base n m : Nat} {c : Char} :
    pushDigit base n c = some m ↔ ∃ d < base, Bytes.hexValue? c = some d ∧ m = base * n + d := by
  unfold pushDigit
  cases Bytes.hexValue? c with
  | none => simp
  | some d => by_cases hd : d < base <;> simp [hd, eq_comm]

/-- **A number is read back from its digits.** -/
theorem digitsToNat?_toDigits {base : Nat} (hbase : 1 < base) (hbase' : base ≤ 16) (n : Nat) :
    digitsToNat? base (Nat.toDigits base n) = some n := by
  induction n using Nat.strongRecOn with
  | ind n ih =>
    rw [Nat.toDigits_eq_if hbase]
    by_cases hsmall : n < base
    · rw [if_pos hsmall, digitsToNat?_eq, List.foldlM_cons, pushDigit_digitChar 0 hsmall hbase']
      simp
    · have hdigit : n % base < base := Nat.mod_lt n (Nat.lt_trans Nat.zero_lt_one hbase)
      have hfront := ih (n / base) (Nat.div_lt_self (by omega) hbase)
      rw [digitsToNat?_eq] at hfront
      rw [if_neg hsmall, digitsToNat?_eq, List.foldlM_append, hfront]
      simp only [Option.bind_eq_bind, Option.bind_some, List.foldlM_cons, List.foldlM_nil,
        pushDigit_digitChar _ hdigit hbase', Nat.div_add_mod]
      rfl

/-- What is read as a number consists of digits, and these bound it. -/
theorem foldlM_pushDigit {base m n : Nat} {cs : List Char}
    (h : cs.foldlM (pushDigit base) m = some n) :
    (∀ c ∈ cs, ∃ d < base, Bytes.hexValue? c = some d) ∧ n < (m + 1) * base ^ cs.length := by
  induction cs generalizing m with
  | nil =>
    obtain rfl : m = n := Option.some.inj h
    exact ⟨fun c hc => absurd hc List.not_mem_nil, by simp⟩
  | cons c cs ih =>
    rw [List.foldlM_cons, Option.bind_eq_bind, Option.bind_eq_some_iff] at h
    obtain ⟨next, hnext, hrest⟩ := h
    obtain ⟨d, hd, hvalue, rfl⟩ := pushDigit_eq_some_iff.mp hnext
    obtain ⟨hdigits, hbound⟩ := ih hrest
    refine ⟨List.forall_mem_cons.mpr ⟨⟨d, hd, hvalue⟩, hdigits⟩, Nat.lt_of_lt_of_le hbound ?_⟩
    calc (base * m + d + 1) * base ^ cs.length
        ≤ (base * m + base) * base ^ cs.length := Nat.mul_le_mul_right _ (by omega)
      _ = (m + 1) * base ^ (c :: cs).length := by rw [List.length_cons]; ring

theorem digitsToNat?_lt {base n : Nat} {cs : List Char} (h : digitsToNat? base cs = some n) :
    n < base ^ cs.length := by
  simpa using (foldlM_pushDigit h).2

theorem isDigit_of_hexValue? {c : Char} {d : Nat} (h : Bytes.hexValue? c = some d) (hd : d < 10) :
    c.isDigit = true := by
  unfold Bytes.hexValue? at h
  split_ifs at h with hdecimal hlower hupper
  · have hlow : 48 ≤ c.val := hdecimal.1
    have hhigh : c.val ≤ 57 := hdecimal.2
    simp [Char.isDigit, hlow, hhigh]
  · have hle : 97 ≤ c.toNat := hlower.1
    have := Option.some.inj h
    omega
  · have hle : 65 ≤ c.toNat := hupper.1
    have := Option.some.inj h
    omega

theorem isDigit_of_digitsToNat? {n : Nat} {cs : List Char} (h : digitsToNat? 10 cs = some n) :
    cs.all Char.isDigit = true := by
  rw [List.all_eq_true]
  intro c hc
  obtain ⟨d, hd, hvalue⟩ := (foldlM_pushDigit h).1 c hc
  exact isDigit_of_hexValue? hvalue hd

theorem ne_of_mem_toDigits {base n : Nat} (hbase : 1 < base) (hbase' : base ≤ 16) {x c : Char}
    (hx : Bytes.hexValue? x = none) (hc : c ∈ Nat.toDigits base n) : c ≠ x := by
  obtain ⟨d, -, hvalue⟩ := (foldlM_pushDigit (digitsToNat?_toDigits hbase hbase' n)).1 c hc
  intro heq
  rw [heq, hx] at hvalue
  cases hvalue

theorem toList_toString (n : Nat) : (toString n).toList = Nat.toDigits 10 n := by
  rw [Nat.toString_eq_ofList_toDigits, String.toList_ofList]

/-! ## 2. Addresses of 32 bits -/

theorem labels_of_not_mem {l : List Char} (h : '.' ∉ l) : Domain.labels l = [l] := by
  induction l with
  | nil => rfl
  | cons c l ih =>
    have hc : c ≠ '.' := fun heq => h (heq ▸ List.mem_cons_self)
    rw [Domain.labels.eq_3 c l hc, ih fun hmem => h (List.mem_cons_of_mem c hmem)]

theorem labels_append {l : List Char} (h : '.' ∉ l) (rest : List Char) :
    Domain.labels (l ++ '.' :: rest) = l :: Domain.labels rest := by
  induction l with
  | nil => rfl
  | cons c l ih =>
    have hc : c ≠ '.' := fun heq => h (heq ▸ List.mem_cons_self)
    rw [List.cons_append, Domain.labels.eq_3 c _ hc, ih fun hmem => h (List.mem_cons_of_mem c hmem)]

theorem octet?_toDigits {n : Nat} (h : n < 256) : octet? (Nat.toDigits 10 n) = some n := by
  revert n
  decide +kernel

theorem toList_ipv4Text {address : Nat} {x y z w : UInt8}
    (h : Bytes.ofNat 4 address = [x, y, z, w]) : (ipv4Text address).toList =
      Nat.toDigits 10 x.toNat ++ '.' :: (Nat.toDigits 10 y.toNat ++
        '.' :: (Nat.toDigits 10 z.toNat ++ '.' :: Nat.toDigits 10 w.toNat)) := by
  rw [ipv4Text, h, String.toList_intercalate]
  simp [List.intercalate_cons_cons]

theorem exists_four_octets (address : Nat) :
    ∃ x y z w, Bytes.ofNat 4 address = [x, y, z, w] := by
  have hlength := Bytes.ofNat_length 4 address
  match hoctets : Bytes.ofNat 4 address with
  | [x, y, z, w] => exact ⟨x, y, z, w, rfl⟩
  | [] | [_] | [_, _] | [_, _, _] | _ :: _ :: _ :: _ :: _ :: _ =>
    rw [hoctets] at hlength
    simp at hlength

end Host

/-- **An address of 32 bits is read back**, as four octets. -/
theorem Address.ipv4?_ipv4Text (address : Nat) :
    Address.ipv4? (Host.ipv4Text address).toList = some (Bytes.ofNat 4 address) := by
  obtain ⟨x, y, z, w, hoctets⟩ := Host.exists_four_octets address
  have hdot (b : UInt8) : '.' ∉ Nat.toDigits 10 b.toNat := fun h =>
    Host.ne_of_mem_toDigits (by decide) (by decide) rfl h rfl
  have hoctet (b : UInt8) : Host.octet? (Nat.toDigits 10 b.toNat) = some b.toNat :=
    Host.octet?_toDigits b.toNat_lt
  have hpair (a b : UInt8) : Bytes.ofNat 2 (256 * a.toNat + b.toNat) = [a, b] := by
    have := Bytes.ofNat_toNat [a, b]
    simpa [Bytes.toNat] using this
  rw [Address.ipv4?, Host.toList_ipv4Text hoctets, Host.ipv4Pieces?, Host.labels_append (hdot x),
    Host.labels_append (hdot y), Host.labels_append (hdot z), Host.labels_of_not_mem (hdot w)]
  simp [hoctet, hpair, hoctets]

namespace Host

/-! ## 3. Addresses of 128 bits -/

section Pieces

variable {p : Pieces} {n fuel : Nat} {ns : List Nat} {tail : List Char}

/-- Pieces with a colon between two of them. -/
def joined (ns : List Nat) : List Char := [':'].intercalate (ns.map (Nat.toDigits 16))

/-- Pieces with a colon after each of them. -/
def closed (ns : List Nat) : List Char := ns.flatMap fun n => Nat.toDigits 16 n ++ [':']

theorem joined_append_singleton (ns : List Nat) (n : Nat) :
    joined (ns ++ [n]) = closed ns ++ Nat.toDigits 16 n := by
  induction ns with
  | nil => exact List.intercalate_singleton
  | cons m ns ih =>
    rw [joined, List.cons_append, List.map_cons, List.intercalate_cons_of_ne_nil (by simp)]
    rw [joined] at ih
    rw [ih]
    simp [closed]

theorem length_le_closed (ns : List Nat) : ns.length ≤ (closed ns).length := by
  induction ns with
  | nil => exact Nat.zero_le _
  | cons n ns ih =>
    simp only [closed, List.flatMap_cons, List.length_append, List.length_cons] at ih ⊢
    omega

theorem colon_not_mem_toDigits (n : Nat) : ':' ∉ Nat.toDigits 16 n := fun h =>
  ne_of_mem_toDigits (by decide) (by decide) rfl h rfl

/-- The digits of a piece are what is taken of it. -/
theorem takeWhile_digits (tail : List Char) (hn : n < 65536)
    (htail : ∀ c ∈ tail.head?, Bytes.hexValue? c = none) :
    ((Nat.toDigits 16 n ++ tail).take 4).takeWhile (fun c => (Bytes.hexValue? c).isSome) =
      Nat.toDigits 16 n := by
  have hlength : (Nat.toDigits 16 n).length ≤ 4 :=
    (Nat.length_toDigits_le_iff (by decide) (by decide)).mpr hn
  have hdigits : ∀ c ∈ Nat.toDigits 16 n, (Bytes.hexValue? c).isSome = true := by
    intro c hc
    obtain ⟨d, -, hvalue⟩ :=
      (foldlM_pushDigit (digitsToNat?_toDigits (by decide) (by decide) n)).1 c hc
    rw [hvalue]
    rfl
  rw [List.take_append, List.take_of_length_le hlength, List.takeWhile_append_of_pos hdigits]
  have hrest : (tail.take (4 - (Nat.toDigits 16 n).length)).takeWhile
      (fun c => (Bytes.hexValue? c).isSome) = [] := by
    cases tail with
    | nil => simp
    | cons c tail =>
      have hc : Bytes.hexValue? c = none := htail c rfl
      cases 4 - (Nat.toDigits 16 n).length <;> simp [hc]
  rw [hrest, List.append_nil]

theorem ne_colon_cons (n : Nat) (tail rest : List Char) :
    Nat.toDigits 16 n ++ tail = ':' :: rest → False := by
  intro h
  cases hdigits : Nat.toDigits 16 n with
  | nil => exact Nat.toDigits_ne_nil hdigits
  | cons c digits =>
    rw [hdigits] at h
    obtain rfl : c = ':' := List.head_eq_of_cons_eq h
    exact colon_not_mem_toDigits n (hdigits ▸ List.mem_cons_self)

theorem readPieces?_last (hcount : p.count ≠ 8) (hn : n < 65536) (fuel : Nat) :
    readPieces? (fuel + 1) p (Nat.toDigits 16 n) = some (p.push n) := by
  have htake := takeWhile_digits [] hn (by simp)
  have hcolon := ne_colon_cons n []
  rw [List.append_nil] at htake hcolon
  rw [readPieces?.eq_4 _ _ _ Nat.toDigits_ne_nil hcolon, if_neg hcount]
  simp only [htake, List.drop_length,
    digitsToNat?_toDigits (show 1 < 16 by decide) (Nat.le_refl 16)]
  rfl

theorem readPieces?_next (hcount : p.count ≠ 8) (hn : n < 65536) (htail : tail ≠ [])
    (fuel : Nat) : readPieces? (fuel + 1) p (Nat.toDigits 16 n ++ ':' :: tail) =
      readPieces? fuel (p.push n) tail := by
  have htake := takeWhile_digits (':' :: tail) hn (by simp; rfl)
  rw [readPieces?.eq_4 _ _ _ (by simp) (ne_colon_cons n _), if_neg hcount]
  simp only [htake, List.drop_left, digitsToNat?_toDigits (show 1 < 16 by decide) (Nat.le_refl 16)]
  exact if_neg htail

theorem readPieces?_gap (hcount : p.count ≠ 8) (hafter : p.after = none) (fuel : Nat) :
    readPieces? (fuel + 1) p (':' :: tail) = readPieces? fuel { p with after := some [] } tail := by
  rw [readPieces?, if_neg hcount, hafter]
  exact if_neg Bool.false_ne_true

theorem Pieces.count_before (before : List Nat) :
    (⟨before, none⟩ : Pieces).count = before.length := rfl

theorem Pieces.count_after (before after : List Nat) :
    (⟨before, some after⟩ : Pieces).count = before.length + (after.length + 1) := rfl

@[simp] theorem count_push (p : Pieces) (n : Nat) : (p.push n).count = p.count + 1 := by
  unfold Pieces.push Pieces.count
  cases p.after with
  | none => simp
  | some after =>
    simp only [Option.map_some, Option.getD_some, List.length_append, List.length_singleton]
    omega

/-- Pieces are read one after another while there is room for them. -/
theorem readPieces?_closed (hcount : p.count + ns.length ≤ 8) (hns : ∀ n ∈ ns, n < 65536)
    (htail : tail ≠ []) (fuel : Nat) :
    readPieces? (fuel + ns.length) p (closed ns ++ tail) =
      readPieces? fuel (ns.foldl Pieces.push p) tail := by
  induction ns generalizing p with
  | nil => rfl
  | cons n ns ih =>
    obtain ⟨hn, hns⟩ := List.forall_mem_cons.mp hns
    rw [List.length_cons] at hcount
    have hroom : p.count ≠ 8 := by omega
    have hnext : closed (n :: ns) ++ tail =
        Nat.toDigits 16 n ++ ':' :: (closed ns ++ tail) := by simp [closed]
    rw [hnext, List.length_cons, ← Nat.add_assoc,
      readPieces?_next hroom hn (List.append_ne_nil_of_right_ne_nil _ htail),
      ih (by rw [count_push]; omega) hns, List.foldl_cons]

theorem count_foldl_push (p : Pieces) (ns : List Nat) :
    (ns.foldl Pieces.push p).count = p.count + ns.length := by
  induction ns generalizing p with
  | nil => rfl
  | cons n ns ih =>
    rw [List.foldl_cons, ih, count_push, List.length_cons]
    omega

theorem readPieces?_joined (hcount : p.count + ns.length ≤ 8) (hns : ∀ n ∈ ns, n < 65536)
    (hfuel : ns.length ≤ fuel) :
    readPieces? fuel p (joined ns) = some (ns.foldl Pieces.push p) := by
  induction ns using List.reverseRecOn with
  | nil => exact readPieces?.eq_1 fuel p
  | append_singleton ns n _ =>
    rw [List.length_append, List.length_singleton] at hcount hfuel
    obtain ⟨fuel, rfl⟩ := Nat.exists_eq_add_of_le' hfuel
    have hfront : ∀ m ∈ ns, m < 65536 := fun m hm => hns m (List.mem_append_left _ hm)
    have hfull := count_foldl_push p ns
    rw [joined_append_singleton, ← Nat.add_assoc, Nat.add_right_comm,
      readPieces?_closed (by omega) hfront Nat.toDigits_ne_nil,
      readPieces?_last (by omega) (hns n (by simp)), List.foldl_append]
    rfl

theorem foldl_push_before (before ns : List Nat) :
    ns.foldl Pieces.push ⟨before, none⟩ = ⟨before ++ ns, none⟩ := by
  induction ns generalizing before with
  | nil => simp
  | cons n ns ih =>
    rw [List.foldl_cons, Pieces.push, ih]
    simp

theorem foldl_push_after (before after ns : List Nat) :
    ns.foldl Pieces.push ⟨before, some after⟩ = ⟨before, some (after ++ ns)⟩ := by
  induction ns generalizing after with
  | nil => simp
  | cons n ns ih =>
    rw [List.foldl_cons, Pieces.push, ih]
    simp

theorem length_le_joined (ns : List Nat) : ns.length ≤ (joined ns).length := by
  induction ns using List.reverseRecOn with
  | nil => exact Nat.zero_le _
  | append_singleton ns n _ =>
    have hfront := length_le_closed ns
    have hlast : 0 < (Nat.toDigits 16 n).length := Nat.length_toDigits_pos
    rw [joined_append_singleton, List.length_append, List.length_append, List.length_singleton]
    omega

theorem joined_append_colon (hns : ns ≠ []) (tail : List Char) :
    joined ns ++ ':' :: tail = closed ns ++ tail := by
  cases ns using List.reverseRecOn with
  | nil => exact absurd rfl hns
  | append_singleton ns n =>
    rw [joined_append_singleton]
    simp [closed]

end Pieces

/-! ### The run of zeros that is left out -/

theorem drop_zeroRuns (ns : List Nat) (i : Nat) : (zeroRuns ns).drop i = zeroRuns (ns.drop i) := by
  induction ns generalizing i with
  | nil => simp [zeroRuns]
  | cons n ns ih =>
    cases i with
    | zero => rfl
    | succ i => exact ih i

/-- As many zeros stand at the start as the first run tells. -/
theorem replicate_headD_zeroRuns (ns : List Nat) :
    List.replicate ((zeroRuns ns).headD 0) 0 ++ ns.drop ((zeroRuns ns).headD 0) = ns := by
  induction ns with
  | nil => rfl
  | cons n ns ih =>
    by_cases hn : n = 0
    · have hhead : (zeroRuns (n :: ns)).headD 0 = (zeroRuns ns).headD 0 + 1 := by
        rw [zeroRuns, List.headD_cons, if_pos hn, Nat.add_comm]
      rw [hhead, List.replicate_succ, List.drop_succ_cons, List.cons_append, ih, hn]
    · have hhead : (zeroRuns (n :: ns)).headD 0 = 0 := by
        rw [zeroRuns, List.headD_cons, if_neg hn]
      rw [hhead]
      rfl

theorem eq_of_zeroRuns {ns : List Nat} {i k : Nat} (h : (zeroRuns ns)[i]? = some k) :
    ns = ns.take i ++ (List.replicate k 0 ++ ns.drop (i + k)) := by
  have hhead : (zeroRuns (ns.drop i)).headD 0 = k := by
    rw [← drop_zeroRuns, List.headD_eq_head?_getD, List.head?_drop, h]
    rfl
  have hrun := replicate_headD_zeroRuns (ns.drop i)
  rw [hhead, List.drop_drop] at hrun
  rw [hrun, List.take_append_drop]

theorem foldl_max_mem (ns : List Nat) (m : Nat) : ns.foldl max m = m ∨ ns.foldl max m ∈ ns := by
  induction ns generalizing m with
  | nil => exact .inl rfl
  | cons n ns ih =>
    rw [List.foldl_cons]
    rcases ih (max m n) with h | h
    · rw [h]
      rcases Nat.le_total m n with hle | hle
      · rw [Nat.max_eq_right hle]
        exact .inr List.mem_cons_self
      · rw [Nat.max_eq_left hle]
        exact .inl rfl
    · exact .inr (List.mem_cons_of_mem n h)

theorem toList_intercalate_pieceText (ns : List Nat) :
    (":".intercalate (ns.map pieceText)).toList = joined ns := by
  rw [String.toList_intercalate, List.map_map, joined]
  congr 2
  funext n
  exact String.toList_ofList

/-- An address is written in full, or with two colons for a run of zeros. -/
theorem toList_ipv6Text (ns : List Nat) : (ipv6Text ns).toList = joined ns ∨
    ∃ before after zeros, 2 ≤ zeros ∧ ns = before ++ (List.replicate zeros 0 ++ after) ∧
      (ipv6Text ns).toList = joined before ++ ':' :: ':' :: joined after := by
  by_cases hshort : (zeroRuns ns).foldl max 0 < 2
  · refine .inl ?_
    rw [ipv6Text, if_pos hshort]
    exact toList_intercalate_pieceText ns
  · refine .inr ?_
    have hlong : 2 ≤ (zeroRuns ns).foldl max 0 := Nat.not_lt.mp hshort
    have hmem : (zeroRuns ns).foldl max 0 ∈ zeroRuns ns := by
      rcases foldl_max_mem (zeroRuns ns) 0 with h | h
      · omega
      · exact h
    generalize hlongest : (zeroRuns ns).foldl max 0 = longest at hlong hmem
    have hstart : (zeroRuns ns).findIdx (· = longest) < (zeroRuns ns).length :=
      List.findIdx_lt_length_of_exists ⟨longest, hmem, by simp⟩
    have hrun : (zeroRuns ns)[(zeroRuns ns).findIdx (· = longest)]? = some longest := by
      rw [List.getElem?_eq_getElem hstart]
      simpa using List.findIdx_getElem (w := hstart)
    refine ⟨_, _, longest, hlong, eq_of_zeroRuns hrun, ?_⟩
    simp only [ipv6Text, hlongest, if_neg (Nat.not_lt.mpr hlong), String.toList_append,
      toList_intercalate_pieceText]
    simp

theorem all?_before {ns : List Nat} (h : ns.length = 8) : Pieces.all? ⟨ns, none⟩ = some ns :=
  if_pos h

theorem all?_after {before after : List Nat} {zeros : Nat}
    (h : before.length + zeros + after.length = 8) : Pieces.all? ⟨before, some after⟩ =
      some (before ++ (List.replicate zeros 0 ++ after)) := by
  have hzeros : 8 - before.length - after.length = zeros := by omega
  rw [← hzeros, ← List.append_assoc]
  rfl

/-- What begins with a digit is read from its first piece on. -/
theorem ipv6?_of_digit {cs : List Char} (hlength : 2 ≤ cs.length)
    (hcolon : ∀ tail, cs = ':' :: tail → False) :
    ipv6? cs = (readPieces? cs.length ⟨[], none⟩ cs).bind Pieces.all? := by
  refine ipv6?.eq_5 cs ?_ ?_ (fun tail => hcolon (':' :: tail)) hcolon
  · rintro rfl
    simp at hlength
  · rintro c rfl
    simp at hlength

theorem joined_ne_colon {ns : List Nat} (hns : ns ≠ []) (tail rest : List Char) :
    joined ns ++ tail = ':' :: rest → False := by
  obtain ⟨n, ns, rfl⟩ := List.exists_cons_of_ne_nil hns
  cases ns with
  | nil =>
    rw [joined, List.map_singleton, List.intercalate_singleton]
    exact ne_colon_cons n tail rest
  | cons m ns =>
    rw [joined, List.map_cons, List.map_cons, List.intercalate_cons_cons, List.append_assoc,
      List.append_assoc]
    exact ne_colon_cons n _ rest

theorem ipv6?_joined {ns : List Nat} (hlength : ns.length = 8) (hns : ∀ n ∈ ns, n < 65536) :
    ipv6? (joined ns) = some ns := by
  have hne : ns ≠ [] := List.ne_nil_of_length_eq_add_one hlength
  have hlong := length_le_joined ns
  have hcolon := joined_ne_colon hne []
  rw [List.append_nil] at hcolon
  have hcount : (⟨[], none⟩ : Pieces).count + ns.length ≤ 8 := by
    rw [Pieces.count_before, hlength, List.length_nil]
  rw [ipv6?_of_digit (by omega) hcolon, readPieces?_joined hcount hns hlong, foldl_push_before,
    List.nil_append, Option.bind_some, all?_before hlength]

/-- The run of zeros stands at the start. -/
theorem ipv6?_gap_first {after : List Nat} {zeros : Nat} (hlength : zeros + after.length = 8)
    (hzeros : 2 ≤ zeros) (hafter : ∀ n ∈ after, n < 65536) :
    ipv6? (':' :: ':' :: joined after) = some (List.replicate zeros 0 ++ after) := by
  have hlong := length_le_joined after
  have hcount : (⟨[], some []⟩ : Pieces).count + after.length ≤ 8 := by
    rw [Pieces.count_after, List.length_nil]
    omega
  rw [ipv6?.eq_3, readPieces?_joined hcount hafter (by simp only [List.length_cons]; omega),
    foldl_push_after, List.nil_append, Option.bind_some, all?_after (by simpa using hlength)]
  rfl

/-- Pieces stand before the run of zeros. -/
theorem ipv6?_gap_later {before after : List Nat} {zeros : Nat} (hzeros : 2 ≤ zeros)
    (hlength : before.length + zeros + after.length = 8) (hne : before ≠ [])
    (hbefore : ∀ n ∈ before, n < 65536) (hafter : ∀ n ∈ after, n < 65536) :
    ipv6? (joined before ++ ':' :: ':' :: joined after) =
      some (before ++ (List.replicate zeros 0 ++ after)) := by
  have hlong := length_le_joined after
  have hfront := length_le_closed before
  obtain ⟨fuel, hfuel⟩ : ∃ fuel, (closed before ++ ':' :: joined after).length =
      fuel + after.length + 1 + before.length := by
    rw [List.length_append, List.length_cons]
    exact ⟨(closed before).length - before.length + ((joined after).length - after.length),
      by omega⟩
  have hshort : 2 ≤ (joined before ++ ':' :: ':' :: joined after).length := by
    rw [List.length_append, List.length_cons, List.length_cons]
    omega
  have hcountBefore : (⟨[], none⟩ : Pieces).count + before.length ≤ 8 := by
    rw [Pieces.count_before, List.length_nil]
    omega
  have hcountGap : (⟨before, none⟩ : Pieces).count ≠ 8 := by
    rw [Pieces.count_before]
    omega
  have hcountAfter : (⟨before, some []⟩ : Pieces).count + after.length ≤ 8 := by
    rw [Pieces.count_after, List.length_nil]
    omega
  rw [ipv6?_of_digit hshort (joined_ne_colon hne _), joined_append_colon hne, hfuel,
    readPieces?_closed hcountBefore hbefore (List.cons_ne_nil _ _), foldl_push_before,
    List.nil_append, readPieces?_gap hcountGap rfl,
    readPieces?_joined hcountAfter hafter (Nat.le_add_left _ _), foldl_push_after,
    List.nil_append, Option.bind_some, all?_after hlength]

theorem ipv6?_gap {before after : List Nat} {zeros : Nat} (hzeros : 2 ≤ zeros)
    (hlength : before.length + zeros + after.length = 8) (hbefore : ∀ n ∈ before, n < 65536)
    (hafter : ∀ n ∈ after, n < 65536) : ipv6? (joined before ++ ':' :: ':' :: joined after) =
      some (before ++ (List.replicate zeros 0 ++ after)) := by
  by_cases hempty : before = []
  · subst hempty
    rw [List.length_nil, Nat.zero_add] at hlength
    exact ipv6?_gap_first hlength hzeros hafter
  · exact ipv6?_gap_later hzeros hlength hempty hbefore hafter

/-- **An address of 128 bits is read back**, also from its short form. -/
theorem ipv6?_ipv6Text {ns : List Nat} (hlength : ns.length = 8) (hns : ∀ n ∈ ns, n < 65536) :
    ipv6? (ipv6Text ns).toList = some ns := by
  rcases toList_ipv6Text ns with htext | ⟨before, after, zeros, hzeros, rfl, htext⟩
  · rw [htext, ipv6?_joined hlength hns]
  · simp only [List.length_append, List.length_replicate, ← Nat.add_assoc] at hlength
    rw [htext, ipv6?_gap hzeros hlength (fun n hn => hns n (by simp [hn]))
      (fun n hn => hns n (by simp [hn]))]

end Host

end PeerTrust
