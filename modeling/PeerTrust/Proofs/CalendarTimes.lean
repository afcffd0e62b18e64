import PeerTrust.Proofs.OcspAcceptance
import PeerTrust.Proofs.CrlAcceptance
import PeerTrust.Trust.Verifier

/-!
# Times that can be written

A certificate, a CRL or an OCSP response states times of a calendar whose years have at most four
digits, so none of them is past the end of the year 9999.

* `Calendar.lastSecond` is that end. `Calendar.seconds?_lt` keeps a date within its year, and
  `Calendar.utcTime?_le` and `Calendar.generalizedTime?_le` bound the two written forms;
* `Certificate.notAfter_le`, `Crl.nextUpdate_le` and `Ocsp.dated_of_decode` carry the bound to all
  that is read of certificates, CRLs and responses. `Der.Reader.Gives` takes it through the fields
  of a response;
* `PeerVerifier.valid_of_acceptsChain`: a chain is accepted only while its end entity is valid,
  hence never past that end.
-/

namespace PeerTrust

namespace Calendar

/-! ## 1. The calendar -/

/-- The last second of the year 9999. -/
def lastSecond : Nat := 253402300799

/-- The first second of a year. -/
def yearStart (year : Nat) : Int := 86400 * ((daysBeforeYear year : Int) - daysBeforeYear 1970)

theorem yearStart_tenThousand : yearStart 10000 = lastSecond + 1 := by decide

theorem daysBeforeMonth_succ (year : Nat) {month : Nat} (h : 1 ≤ month) :
    daysBeforeMonth year (month + 1) = daysBeforeMonth year month + monthLength year month := by
  obtain ⟨m, rfl⟩ := Nat.exists_eq_add_of_le' h
  unfold daysBeforeMonth
  rw [Nat.add_sub_cancel, Nat.add_sub_cancel, List.range_succ, List.foldl_append]
  rfl

theorem daysBeforeMonth_mono (year : Nat) {month last : Nat} (h : 1 ≤ month) (hle : month ≤ last) :
    daysBeforeMonth year month ≤ daysBeforeMonth year last := by
  induction hle with
  | refl => exact Nat.le_refl _
  | step hle ih =>
    rw [daysBeforeMonth_succ year (Nat.le_trans h hle)]
    omega

theorem month_of_monthLength {year month : Nat} (h : 1 ≤ monthLength year month) :
    1 ≤ month ∧ month ≤ 12 := by
  unfold monthLength at h
  split at h <;> omega

theorem daysBeforeMonth_thirteen (year : Nat) :
    daysBeforeMonth year 13 = if isLeap year then 366 else 365 := by
  by_cases hleap : isLeap year
  · simp [daysBeforeMonth, List.range_succ, monthLength, hleap]
  · simp [daysBeforeMonth, List.range_succ, monthLength, hleap]

theorem isLeap_iff {year : Nat} :
    isLeap year = true ↔ 4 ∣ year ∧ (¬ 100 ∣ year ∨ 400 ∣ year) := by
  simp [isLeap, Nat.dvd_iff_mod_eq_zero]

/-- A year ends where the next one starts. -/
theorem daysBeforeYear_succ (year : Nat) :
    daysBeforeYear (year + 1) = daysBeforeYear year + daysBeforeMonth year 13 := by
  rw [daysBeforeMonth_thirteen]
  cases year with
  | zero => rfl
  | succ y =>
    have hsmall : y / 100 ≤ y := Nat.div_le_self y 100
    have h100 : 400 ∣ y + 1 → 100 ∣ y + 1 := Nat.dvd_trans (by decide)
    have h4 : 100 ∣ y + 1 → 4 ∣ y + 1 := Nat.dvd_trans (by decide)
    -- each quotient grows by one exactly in the years that its divisor tells
    simp only [daysBeforeYear, Nat.succ_ne_zero, if_false, Nat.add_sub_cancel, Nat.succ_div,
      isLeap_iff]
    generalize y / 4 = a, y / 100 = b, y / 400 = c at *
    grind

theorem daysBeforeYear_mono {year last : Nat} (h : year ≤ last) :
    daysBeforeYear year ≤ daysBeforeYear last := by
  induction h with
  | refl => exact Nat.le_refl _
  | step _ ih => exact Nat.le_trans ih (daysBeforeYear_succ _ ▸ Nat.le_add_right _ _)

theorem yearStart_mono {year last : Nat} (h : year ≤ last) : yearStart year ≤ yearStart last := by
  have := daysBeforeYear_mono h
  unfold yearStart
  omega

/-- **A date and a time of day are within their year.** -/
theorem seconds?_lt {year month day hour minute second : Nat} {t : Int}
    (h : seconds? year month day hour minute second = some t) : t < yearStart (year + 1) := by
  unfold seconds? at h
  split at h
  · rename_i hok
    obtain ⟨hday, hlength, hhour, hminute, hsecond⟩ := hok
    cases h
    have hmonth := month_of_monthLength (Nat.le_trans hday hlength)
    have hrest : daysBeforeMonth year (month + 1) ≤ daysBeforeMonth year 13 :=
      daysBeforeMonth_mono year (by omega) (by omega)
    rw [daysBeforeMonth_succ year hmonth.1] at hrest
    have hyear := daysBeforeYear_succ year
    unfold yearStart daysOf
    omega
  · cases h

/-! ## 2. Written times -/

theorem twoDigits?_le {x y : UInt8} {n : Nat} (h : twoDigits? x y = some n) : n ≤ 99 := by
  unfold twoDigits? at h
  split at h
  · rename_i hdigits
    obtain ⟨-, hx, -, hy⟩ := hdigits
    have hx := UInt8.le_iff_toNat_le.mp hx
    have hy := UInt8.le_iff_toNat_le.mp hy
    cases h
    change x.toNat ≤ 57 at hx
    change y.toNat ≤ 57 at hy
    omega
  · cases h

/-- A zone is behind by less than thirteen hours. -/
theorem zone?_ge {b : Bytes} {ahead : Int} (h : zone? b = some ahead) : -46800 < ahead := by
  unfold zone? at h
  split at h
  · cases h
    decide
  · simp only [Option.bind_eq_bind, Option.bind_eq_some_iff] at h
    obtain ⟨hours, -, minutes, -, h⟩ := h
    split at h
    · cases h
    · split at h
      · cases h
        omega
      · split at h
        · cases h
          omega
        · cases h
  · cases h

/-- **No time with a year of two digits is past the year 2050.** -/
theorem utcTime?_le {b : Bytes} {t : Int} (h : utcTime? b = some t) : t ≤ lastSecond := by
  unfold utcTime? at h
  split at h
  · simp only [Option.bind_eq_bind, Option.bind_eq_some_iff] at h
    obtain ⟨y, hy, month, -, day, -, hour, -, minute, -, ahead, hzone, s, hs, h⟩ := h
    cases h
    have hy := twoDigits?_le hy
    have hzone := zone?_ge hzone
    have hs := seconds?_lt hs
    have hyear := yearStart_mono
      (show (if 50 ≤ y then 1900 + y else 2000 + y) + 1 ≤ 2050 by split <;> omega)
    have hlast : yearStart 2050 + 46800 ≤ lastSecond := by decide
    omega
  · cases h

/-- **No time with a year of four digits is past the year 9999.** -/
theorem generalizedTime?_le {b : Bytes} {t : Int} (h : generalizedTime? b = some t) :
    t ≤ lastSecond := by
  unfold generalizedTime? at h
  split at h
  · simp only [Option.bind_eq_bind, Option.bind_eq_some_iff] at h
    obtain ⟨century, hcentury, y, hy, month, -, day, -, hour, -, minute, -, second, -, h⟩ := h
    split at h
    · have hcentury := twoDigits?_le hcentury
      have hy := twoDigits?_le hy
      have hyear := yearStart_mono (show 100 * century + y + 1 ≤ 10000 by omega)
      have hlast := yearStart_tenThousand
      have hs := seconds?_lt h
      omega
    · cases h
  · cases h

theorem instant?_le {b : Bytes} {n : Nat} (h : instant? b = some n) : n ≤ lastSecond := by
  unfold instant? at h
  split at h
  · split at h
    · rename_i m ht
      cases h
      exact Int.ofNat_le.mp (generalizedTime?_le ht)
    · cases h
  · cases h

theorem shortInstant?_le {b : Bytes} {n : Nat} (h : shortInstant? b = some n) : n ≤ lastSecond :=
  instant?_le h

end Calendar

open Calendar (lastSecond)

/-! ## 3. Certificates and CRLs -/

namespace X509

theorem readTime?_le {b rest : Bytes} {t : Int} (h : readTime? b = some (t, rest)) :
    t ≤ lastSecond := by
  unfold readTime? at h
  split at h
  · cases h
  · split at h
    · split at h
      · obtain ⟨t', ht, h⟩ := Option.map_eq_some_iff.mp h
        cases h
        exact Calendar.utcTime?_le ht
      · cases h
    · split at h
      · split at h
        · obtain ⟨t', ht, h⟩ := Option.map_eq_some_iff.mp h
          cases h
          exact Calendar.generalizedTime?_le ht
        · cases h
      · cases h

theorem Certificate.readValidity?_le {b rest : Bytes} {notBefore notAfter : Int}
    (h : readValidity? b = some ((notBefore, notAfter), rest)) : notAfter ≤ lastSecond := by
  obtain ⟨_, -, h⟩ := Option.bind_eq_some_iff.mp h
  obtain ⟨_, -, h⟩ := Option.bind_eq_some_iff.mp h
  obtain ⟨_, hstop, h⟩ := Option.bind_eq_some_iff.mp h
  cases h
  exact readTime?_le hstop

theorem Certificate.notAfter_le {b : Bytes} {c : Certificate} (h : read? b = some c) :
    c.notAfter ≤ lastSecond := by
  -- the frame and the signature, then the fields before the validity and those after it
  iterate 8 obtain ⟨_, -, h⟩ := Option.bind_eq_some_iff.mp h
  obtain ⟨_, hvalidity, h⟩ := Option.bind_eq_some_iff.mp h
  iterate 5 obtain ⟨_, -, h⟩ := Option.bind_eq_some_iff.mp h
  cases h
  exact readValidity?_le hvalidity

theorem RevocationList.nextUpdate_le {b : Bytes} {crl : RevocationList} (h : read? b = some crl)
    {t : Int} (ht : crl.nextUpdate = some t) : t ≤ lastSecond := by
  iterate 6 obtain ⟨_, -, h⟩ := Option.bind_eq_some_iff.mp h
  obtain ⟨⟨_, r⟩, -, h⟩ := Option.bind_eq_some_iff.mp h
  obtain ⟨_, -, h⟩ := Option.bind_eq_some_iff.mp h
  cases h
  dsimp only at ht
  cases hnext : readTime? r with
  | none =>
    rw [hnext] at ht
    cases ht
  | some found =>
    rw [hnext] at ht
    cases ht
    exact readTime?_le hnext

end X509

theorem Certificate.notAfter_le {der : Bytes} {c : Certificate} (h : ofDer der = .ok c) :
    c.notAfter ≤ lastSecond := by
  unfold ofDer at h
  split at h
  · cases h
  · rename_i x hread
    cases h
    have := X509.Certificate.notAfter_le hread
    show x.notAfter.toNat ≤ lastSecond
    omega

theorem Crl.nextUpdate_le {content : Bytes} {crl : Crl} (h : parse content = .ok crl) {t : Nat}
    (ht : crl.nextUpdate = some t) : t ≤ lastSecond := by
  obtain ⟨der, -, h⟩ := bind_eq_ok_iff.mp h
  unfold ofDer at h
  split at h
  · cases h
  · rename_i x hread
    cases h
    obtain ⟨seconds, hseconds, rfl⟩ := Option.map_eq_some_iff.mp ht
    have := X509.RevocationList.nextUpdate_le hread hseconds
    omega

/-! ## 4. OCSP responses -/

namespace Der.Reader

variable {α β : Type} {P : α → Prop} {Q : β → Prop}

/-- All that a reader gives has a property. -/
def Gives (P : α → Prop) (r : Reader α) : Prop := ∀ b x rest, r b = some (x, rest) → P x

theorem Gives.pure {x : α} (h : P x) : Gives P (pure x) := by
  intro b y rest hy
  cases hy
  exact h

/-- What comes next may rely on what was read. -/
theorem Gives.bind {r : Reader α} {f : α → Reader β} (h : Gives P r)
    (hf : ∀ x, P x → Gives Q (f x)) : Gives Q (r >>= f) := by
  intro b y rest hy
  obtain ⟨⟨x, middle⟩, hx, hy⟩ := Option.bind_eq_some_iff.mp hy
  exact hf x (h b x middle hx) middle y rest hy

/-- What is passed over does not matter. -/
theorem Gives.after {r : Reader α} {f : α → Reader β} (hf : ∀ x, Gives Q (f x)) :
    Gives Q (r >>= f) :=
  Gives.bind (P := fun _ => True) (fun _ _ _ _ => trivial) fun x _ => hf x

theorem Gives.expect {o : Option α} (h : ∀ x, o = some x → P x) : Gives P (expect o) := by
  intro b x rest hx
  obtain ⟨y, hy, hx⟩ := Option.map_eq_some_iff.mp hx
  cases hx
  exact h _ hy

theorem Gives.complete {r : Reader α} (h : Gives P r) {b : Bytes} {x : α}
    (hx : complete r b = some x) : P x :=
  h b x [] (complete_eq_some_iff.mp hx)

theorem Gives.within (tag : UInt8) {r : Reader α} (h : Gives P r) : Gives P (within tag r) := by
  intro b x rest hx
  unfold Reader.within at hx
  split at hx
  · obtain ⟨y, hy, hx⟩ := Option.map_eq_some_iff.mp hx
    cases hx
    exact h.complete hy
  · cases hx

theorem Gives.explicit (n : UInt8) {r : Reader α} (h : Gives P r) :
    Gives (fun o => ∀ x, o = some x → P x) (explicit n r) := by
  unfold Reader.explicit
  refine .after fun o => ?_
  cases o with
  | none => exact .pure nofun
  | some content =>
    refine Gives.bind (.expect fun x hx => h.complete hx) fun x hx => .pure ?_
    intro y hy
    cases hy
    exact hx

theorem Gives.manyFuel {r : Reader α} (h : Gives P r) {fuel : Nat} {b : Bytes} {xs : List α}
    (hxs : manyFuel r fuel b = some xs) : ∀ x ∈ xs, P x := by
  induction fuel generalizing b xs with
  | zero =>
    cases b with
    | nil =>
      cases hxs
      exact nofun
    | cons octet b => cases hxs
  | succ fuel ih =>
    cases b with
    | nil =>
      cases hxs
      exact nofun
    | cons octet b =>
      unfold Reader.manyFuel at hxs
      split at hxs
      · cases hxs
      · rename_i x rest hx
        obtain ⟨others, hothers, rfl⟩ := Option.map_eq_some_iff.mp hxs
        exact List.forall_mem_cons.mpr ⟨h _ x rest hx, ih hothers⟩

theorem Gives.sequenceOf {r : Reader α} (h : Gives P r) :
    Gives (fun xs => ∀ x ∈ xs, P x) (X509.Strict.sequenceOf r) :=
  .after fun _ => .expect fun _ hxs => h.manyFuel hxs

end Der.Reader

open Der.Reader (Gives)

theorem X509.Strict.moment_le : Gives (fun m => m.seconds ≤ lastSecond) moment :=
  .after fun _ => .bind (.expect fun _ h => Calendar.instant?_le h) fun _ h => .pure h

namespace Ocsp

/-- The times of a statement are of the calendar. -/
structure SingleResponse.Dated (s : SingleResponse) : Prop where
  thisUpdate : s.thisUpdate.seconds ≤ lastSecond
  nextUpdate : ∀ next, s.nextUpdate = some next → next.seconds ≤ lastSecond

theorem SingleResponse.dated_of_reader : Gives Dated reader :=
  Gives.within Der.tagSequence <| .after fun _ => .after fun _ =>
    .bind X509.Strict.moment_le fun _ hthis => .bind (X509.Strict.moment_le.explicit 0)
      fun _ hnext => .after fun _ => .pure ⟨hthis, hnext⟩

theorem ResponseData.dated_of_reader : Gives (fun d => ∀ s ∈ d.responses, s.Dated) reader :=
  Gives.within Der.tagSequence <| .after fun _ => .after fun _ => .after fun _ =>
    .bind SingleResponse.dated_of_reader.sequenceOf fun _ h => .after fun _ => .pure h

theorem BasicResponse.dated_of_reader : Gives (fun r => ∀ s ∈ r.data.responses, s.Dated) reader :=
  Gives.within Der.tagSequence <| .bind ResponseData.dated_of_reader fun _ h =>
    .after fun _ => .after fun _ => .after fun _ => .pure h

/-- **All that a response states has times of the calendar.** -/
theorem dated_of_decode {response : Bytes} {r : BasicResponse} (h : decode response = .ok r)
    {s : SingleResponse} (hs : s ∈ r.data.responses) : s.Dated := by
  obtain ⟨body, -, hbody⟩ := decode_eq_ok_iff.mp h
  exact BasicResponse.dated_of_reader.complete hbody s hs

end Ocsp

/-! ## 5. Chains -/

namespace Pkix

namespace Reader

variable {α β : Type}

theorem bind_eq_ok {r : Reader α} {f : α → Reader β} {b rest : Bytes} {y : β}
    (h : (r >>= f) b = .ok (y, rest)) :
    ∃ x middle, r b = .ok (x, middle) ∧ f x middle = .ok (y, rest) := by
  obtain ⟨⟨x, middle⟩, hx, hy⟩ := bind_eq_ok_iff.mp h
  exact ⟨x, middle, hx, hy⟩

theorem whole_eq_ok {e : Error} {r : Reader α} {b : Bytes} {x : α} (h : whole e r b = .ok x) :
    r b = .ok (x, []) := by
  unfold whole at h
  split at h
  · cases h
  · rename_i hr
    cases h
    exact hr
  · cases h

theorem nested_eq_ok {tag : UInt8} {e : Error} {r : Reader α} {b rest : Bytes} {x : α}
    (h : nested tag e r b = .ok (x, rest)) : ∃ content, r content = .ok (x, []) := by
  unfold nested at h
  split at h
  · cases h
  · rename_i content _ _
    cases hr : whole e r content with
    | error e' =>
      rw [hr] at h
      cases h
    | ok y =>
      rw [hr] at h
      cases h
      exact ⟨content, whole_eq_ok hr⟩

theorem instantOf_eq_ok {digits : Nat} {seconds? : Bytes → Option Nat} {b rest : Bytes} {n : Nat}
    (h : instantOf digits seconds? b = .ok (n, rest)) : ∃ written, seconds? written = some n := by
  unfold instantOf at h
  split at h
  · rename_i hn
    cases h
    exact ⟨_, hn⟩
  · cases h

theorem time_le {b rest : Bytes} {n : Nat} (h : time b = .ok (n, rest)) : n ≤ lastSecond := by
  obtain ⟨short, middle, -, h⟩ := bind_eq_ok h
  cases short with
  | true =>
    obtain ⟨content, h⟩ := nested_eq_ok h
    obtain ⟨written, h⟩ := instantOf_eq_ok h
    exact Calendar.shortInstant?_le h
  | false =>
    obtain ⟨content, h⟩ := nested_eq_ok h
    obtain ⟨written, h⟩ := instantOf_eq_ok h
    exact Calendar.instant?_le h

end Reader

/-- The validity that a certificate states, by its first and its last second. -/
def Certificate.ValidFrom (c : Certificate) (start stop : Nat) : Prop :=
  ∃ rest, Reader.time c.validity = .ok (start, rest) ∧ Reader.time rest = .ok (stop, [])

theorem Certificate.ValidFrom.stop_le {c : Certificate} {start stop : Nat}
    (h : c.ValidFrom start stop) : stop ≤ lastSecond := by
  obtain ⟨rest, -, hstop⟩ := h
  exact Reader.time_le hstop

namespace Chain

theorem checkValidity_eq_ok {now : Nat} {b rest : Bytes}
    (h : checkValidity now b = .ok ((), rest)) :
    ∃ start stop middle, Reader.time b = .ok (start, middle) ∧
      Reader.time middle = .ok (stop, rest) ∧ start ≤ now ∧ now ≤ stop := by
  obtain ⟨start, middle, hstart, h⟩ := Reader.bind_eq_ok h
  obtain ⟨stop, _, hstop, h⟩ := Reader.bind_eq_ok h
  by_cases hreversed : stop < start
  · simp only [if_pos hreversed] at h
    cases h
  · simp only [if_neg hreversed] at h
    by_cases hearly : now < start
    · simp only [if_pos hearly] at h
      cases h
    · simp only [if_neg hearly] at h
      by_cases hlate : stop < now
      · simp only [if_pos hlate] at h
        cases h
      · simp only [if_neg hlate] at h
        cases h
        exact ⟨start, stop, middle, hstart, hstop, by omega, by omega⟩

theorem checkAlone_eq_ok {p : Purpose} {now : Nat} {c : Certificate} {issuersBelow : Option Nat}
    (h : checkAlone p now c issuersBelow = .ok ()) :
    ∃ start stop, c.ValidFrom start stop ∧ start ≤ now ∧ now ≤ stop := by
  obtain ⟨_, hvalidity, -⟩ := bind_eq_ok_iff.mp h
  obtain ⟨start, stop, middle, hstart, hstop, hnow⟩ :=
    checkValidity_eq_ok (Reader.whole_eq_ok hvalidity)
  exact ⟨start, stop, ⟨middle, hstart, hstop⟩, hnow⟩

theorem checkAlone_of_search {p : Purpose} {now : Nat} {anchors : List Anchor}
    {presented : List Bytes} {room : Nat} {head : Certificate} {below : List Certificate}
    {w : Work} (h : ((search p now anchors presented room head below).run.run w).1 = .ok ()) :
    checkAlone p now head (issuersBelow below) = .ok () := by
  unfold search at h
  cases hc : checkAlone p now head (issuersBelow below) with
  | ok _ => rfl
  | error e =>
    rw [hc] at h
    cases h

theorem verifiedEnd_eq_ok {p : Purpose} {anchors : List Anchor} {endEntity : Bytes}
    {presented : List Bytes} {now : Nat} {c : Certificate}
    (h : verifiedEnd p anchors endEntity presented now = .ok c) :
    Certificate.ofDer endEntity = .ok c ∧
      ∃ start stop, c.ValidFrom start stop ∧ start ≤ now ∧ now ≤ stop := by
  obtain ⟨c', hread, h⟩ := bind_eq_ok_iff.mp h
  obtain ⟨_, hsearch, h⟩ := bind_eq_ok_iff.mp h
  cases h
  exact ⟨hread, checkAlone_eq_ok (checkAlone_of_search hsearch)⟩

end Chain

end Pkix

/-- **A chain is accepted only at a time at which its end entity is valid.** -/
theorem PeerVerifier.valid_of_acceptsChain {v : PeerVerifier} {role : PeerRole} {endEntity : Bytes}
    {intermediates : List Bytes} {now : Nat}
    (h : v.acceptsChain role endEntity intermediates now = .ok ()) :
    ∃ c start stop, Pkix.Certificate.ofDer endEntity = .ok c ∧ c.ValidFrom start stop ∧
      start ≤ now ∧ now ≤ stop := by
  unfold acceptsChain at h
  cases role with
  | client =>
    obtain ⟨c, hend, -⟩ := bind_eq_ok_iff.mp h
    obtain ⟨hread, start, stop, hvalid⟩ := Pkix.Chain.verifiedEnd_eq_ok hend
    exact ⟨c, start, stop, hread, hvalid⟩
  | server name =>
    obtain ⟨c, hend, -⟩ := bind_eq_ok_iff.mp h
    obtain ⟨hread, start, stop, hvalid⟩ := Pkix.Chain.verifiedEnd_eq_ok hend
    exact ⟨c, start, stop, hread, hvalid⟩

end PeerTrust
