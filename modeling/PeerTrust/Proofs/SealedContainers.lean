import PeerTrust.Proofs.Der
import PeerTrust.Proofs.OcspAcceptance
import PeerTrust.Proofs.Serials
import PeerTrust.Store.Sealed

/-!
# What a container is, and what opens one

* `Gcm.decrypt?_eq_some_iff`: what decrypts to a text is the encryption of that text;
* `Sealed.IsContainer` says octet by octet what holds a text under a password, `Sealed.Fault` what
  may be wrong with octets, in the order in which they are looked at;
* `Sealed.parts_eq_ok_iff`: what is taken apart is its parts put together, and those alone;
* `Sealed.unwrap_outcome`: octets open, or fail for the first fault that they have;
* `Sealed.unwrapWithin` reads octets by positions, and has no answer where one is past their end;
* `Sealed.wrap_unwrap_exact` puts these together.
-/

namespace PeerTrust

/-! ## 1. Authenticated encryption -/

/-- **A text is decrypted from its encryption alone.** -/
theorem Gcm.decrypt?_eq_some_iff {key nonce associated sealed text : Bytes} :
    decrypt? key nonce associated sealed = some text ↔
      sealed = encrypt key nonce associated text := by
  constructor
  · intro h
    unfold decrypt? at h
    split at h
    · cases h
    · simp only at h
      split at h
      · rename_i htag
        cases h
        rw [encrypt, crypt_crypt, htag, List.take_append_drop]
      · cases h
  · rintro rfl
    exact decrypt?_encrypt key nonce associated text

namespace Sealed

/-! ## 2. Containers -/

/-- Octets hold a text under a password: mark, version, number of rounds, salt, nonce, and the
encryption of the text, with the first thirteen octets as associated data. -/
def IsContainer (s : Bytes) (password : Secret) (content : Bytes) : Prop :=
  ∃ rounds salt nonce, 10000 ≤ rounds ∧ rounds < 2 ^ 32 ∧ salt.length = 32 ∧ nonce.length = 12 ∧
    s = Bytes.ofText "MTLSSEAL" ++ [1] ++ Bytes.ofNat 4 rounds ++ salt ++ nonce ++
      Gcm.encrypt (Pbkdf2.derive password.octets salt rounds) nonce (s.take 13) content

/-- What may be wrong with octets that are to be opened. -/
inductive Fault where
  | unmarked
  | tooShort
  | otherVersion
  | fewRounds
  | noPassword
  | notAuthentic

namespace Fault

/-- What may be wrong whatever the password. -/
def structural : List Fault := [unmarked, tooShort, otherVersion, fewRounds]

/-- The order in which octets are looked at. -/
def inOrder : List Fault := structural ++ [noPassword, notAuthentic]

/-- Octets have a fault. -/
def Applies (s : Bytes) (password : Option Secret) : Fault → Prop
  | unmarked => ¬ Bytes.ofText "MTLSSEAL" <+: s
  | tooShort => s.length < 13 + 32 + 12 + 16
  | otherVersion => s.getD 8 0 ≠ 1
  | fewRounds => Bytes.toNat ((s.drop 9).take 4) < 10000
  | noPassword => password = none
  | notAuthentic => ∀ w content, password = some w → ¬ IsContainer s w content

/-- What is reported of a fault. -/
def error (s : Bytes) : Fault → Error
  | unmarked => .notSealed
  | tooShort => .authentication
  | otherVersion => .unsupportedVersion (s.getD 8 0)
  | fewRounds => .weakRounds (Bytes.toNat ((s.drop 9).take 4))
  | noPassword => .passwordRequired
  | notAuthentic => .authentication

end Fault

/-! ## 3. Parts -/

variable {s : Bytes} {p : Parts} {e : Error} {password : Option Secret} {w : Secret}
  {content : Bytes} {rounds : Nat} {salt nonce : Bytes}

theorem header_length (rounds : Nat) : (header rounds).length = 13 := by
  simp [header, magic, Bytes.ofNat_length]

theorem ofText_mark : Bytes.ofText "MTLSSEAL" = magic := by decide

theorem header_eq (rounds : Nat) :
    header rounds = Bytes.ofText "MTLSSEAL" ++ [1] ++ Bytes.ofNat 4 rounds := by
  rw [header, ofText_mark, version, List.append_assoc, List.singleton_append]

theorem isSealed_iff : isSealed s = true ↔ Bytes.ofText "MTLSSEAL" <+: s := by
  rw [isSealed, List.isPrefixOf_iff_prefix, ofText_mark]

namespace Parts

/-- The octets of parts. -/
def octets (p : Parts) : Bytes := header p.rounds ++ p.salt ++ p.nonce ++ p.ciphertext

/-- Parts are of the sizes that they have in a container. -/
structure Fits (p : Parts) : Prop where
  strong : 10000 ≤ p.rounds
  bounded : p.rounds < 2 ^ 32
  salt : p.salt.length = 32
  nonce : p.nonce.length = 12
  tag : 16 ≤ p.ciphertext.length

/-- The parts of octets, by position. -/
def ofOctets (s : Bytes) : Parts where
  rounds := Bytes.toNat ((s.drop 9).take 4)
  salt := (s.drop 13).take 32
  nonce := ((s.drop 13).drop 32).take 12
  ciphertext := (s.drop 13).drop (32 + 12)

theorem octets_length (p : Parts) :
    p.octets.length = 13 + p.salt.length + p.nonce.length + p.ciphertext.length := by
  simp only [octets, List.length_append, header_length]

theorem take_octets (p : Parts) : p.octets.take 13 = header p.rounds := by
  rw [octets, List.append_assoc, List.append_assoc, List.take_left' (header_length p.rounds)]

theorem drop_octets (p : Parts) : p.octets.drop 13 = p.salt ++ (p.nonce ++ p.ciphertext) := by
  rw [octets, List.append_assoc, List.append_assoc, List.drop_left' (header_length p.rounds)]

theorem rounds_octets (p : Parts) : (p.octets.drop 9).take 4 = Bytes.ofNat 4 p.rounds := by
  have hdrop : p.octets.drop 9 =
      Bytes.ofNat 4 p.rounds ++ (p.salt ++ (p.nonce ++ p.ciphertext)) := by
    simp [octets, header, magic]
  rw [hdrop, List.take_left' (Bytes.ofNat_length 4 p.rounds)]

theorem ofOctets_octets {p : Parts} (h : p.Fits) : ofOctets p.octets = p := by
  have hrounds : Bytes.toNat (Bytes.ofNat 4 p.rounds) = p.rounds := by
    rw [Bytes.toNat_ofNat]
    exact Nat.mod_eq_of_lt h.bounded
  have hboth : p.ciphertext = (p.salt ++ (p.nonce ++ p.ciphertext)).drop (32 + 12) := by
    rw [← List.append_assoc, List.drop_left' (by rw [List.length_append, h.salt, h.nonce])]
  rw [ofOctets, rounds_octets, drop_octets, hrounds, List.take_left' h.salt,
    List.drop_left' h.salt, List.take_left' h.nonce, ← hboth]

end Parts

/-- Octets have no fault of their own. -/
structure Faultless (s : Bytes) : Prop where
  marked : Bytes.ofText "MTLSSEAL" <+: s
  long : 13 + 32 + 12 + 16 ≤ s.length
  version : s.getD 8 0 = 1
  strong : 10000 ≤ Bytes.toNat ((s.drop 9).take 4)

/-- What comes before the salt is what is written for the number of rounds that is found there. -/
theorem Faultless.header_eq_take (h : Faultless s) :
    header (Parts.ofOctets s).rounds = s.take 13 := by
  obtain ⟨rest, rfl⟩ := h.marked
  have hlong := h.long
  have hversion := h.version
  rw [ofText_mark, magic] at hlong hversion
  cases rest with
  | nil => simp at hlong
  | cons found body =>
    obtain rfl : found = 1 := hversion
    have hcount : (body.take 4).length = 4 := by
      simp only [List.length_append, List.length_cons, List.length_nil] at hlong
      rw [List.length_take]
      omega
    -- four octets are the number that they denote
    have hrounds : Bytes.ofNat 4 (Bytes.toNat (body.take 4)) = body.take 4 := by
      have hback := Bytes.ofNat_toNat (body.take 4)
      rwa [hcount] at hback
    rw [header_eq, ofText_mark]
    exact congrArg (magic ++ [1] ++ ·) hrounds

/-- Octets without a fault are those of the parts that are found in them. -/
theorem Faultless.octets_eq (h : Faultless s) : (Parts.ofOctets s).octets = s := by
  have hrest : (Parts.ofOctets s).salt ++ ((Parts.ofOctets s).nonce ++
      (Parts.ofOctets s).ciphertext) = s.drop 13 := by
    simp only [Parts.ofOctets, ← List.drop_drop, List.take_append_drop]
  rw [Parts.octets, List.append_assoc, List.append_assoc, hrest, h.header_eq_take,
    List.take_append_drop]

/-- These are of the sizes that they have in a container. -/
theorem Faultless.fits (h : Faultless s) : (Parts.ofOctets s).Fits := by
  have hlong := h.long
  constructor
  · exact h.strong
  · have hcount : ((s.drop 9).take 4).length = 4 := by
      rw [List.length_take, List.length_drop]
      omega
    have hlt := Bytes.toNat_lt ((s.drop 9).take 4)
    rw [hcount] at hlt
    exact hlt
  · simp only [Parts.ofOctets, List.length_take, List.length_drop]
    omega
  · simp only [Parts.ofOctets, List.length_take, List.length_drop]
    omega
  · simp only [Parts.ofOctets, List.length_drop]
    omega

theorem Parts.Fits.faultless (h : p.Fits) : Faultless p.octets where
  marked := by
    rw [octets, header_eq]
    simp only [List.append_assoc]
    exact List.prefix_append _ _
  long := by
    have htag := h.tag
    rw [octets_length, h.salt, h.nonce]
    omega
  version := by simp [octets, header, magic, PeerTrust.Sealed.version]
  strong := by
    rw [rounds_octets, Bytes.toNat_ofNat, Nat.mod_eq_of_lt h.bounded]
    exact h.strong

/-! ## 4. Opening -/

theorem parts_eq (s : Bytes) : parts s =
    if ¬ Bytes.ofText "MTLSSEAL" <+: s then .error .notSealed
    else if s.length < 13 + 32 + 12 + 16 then .error .authentication
    else if s.getD 8 0 ≠ 1 then .error (.unsupportedVersion (s.getD 8 0))
    else if Bytes.toNat ((s.drop 9).take 4) < 10000 then
      .error (.weakRounds (Bytes.toNat ((s.drop 9).take 4)))
    else .ok (Parts.ofOctets s) := by
  have hoctet : (s.drop 8).headD 0 = s.getD 8 0 := by
    rw [List.headD_eq_head?_getD, List.head?_drop, List.getD_eq_getElem?_getD]
  simp only [parts, hoctet]
  exact if_congr (by simp [← isSealed_iff]) rfl rfl

theorem Faultless.parts_eq (h : Faultless s) : parts s = .ok (Parts.ofOctets s) := by
  rw [Sealed.parts_eq, if_neg (not_not.mpr h.marked), if_neg (Nat.not_lt.mpr h.long),
    if_neg (not_not.mpr h.version), if_neg (Nat.not_lt.mpr h.strong)]

theorem Faultless.not_applies (h : Faultless s) (password : Option Secret) :
    ∀ fault ∈ Fault.structural, ¬ Fault.Applies s password fault := by
  simp only [Fault.structural, List.forall_mem_cons, Fault.Applies, not_not]
  exact ⟨h.marked, Nat.not_lt.mpr h.long, h.version, Nat.not_lt.mpr h.strong, nofun⟩

/-- Octets have no fault of their own, or they are not taken apart for the first that they have. -/
theorem faultless_or_isFirst (s : Bytes) (password : Option Secret) : Faultless s ∨
    ∃ fault, IsFirst (Fault.Applies s password) Fault.structural fault ∧
      parts s = .error (fault.error s) := by
  rw [parts_eq]
  by_cases hunmarked : ¬ Bytes.ofText "MTLSSEAL" <+: s
  case pos =>
    rw [if_pos hunmarked]
    exact .inr ⟨.unmarked, ⟨[], _, rfl, hunmarked, nofun⟩, rfl⟩
  rw [if_neg hunmarked]
  by_cases hshort : s.length < 13 + 32 + 12 + 16
  case pos =>
    rw [if_pos hshort]
    refine .inr ⟨.tooShort, ⟨[.unmarked], _, rfl, hshort, ?_⟩, rfl⟩
    exact List.forall_mem_cons.mpr ⟨hunmarked, nofun⟩
  rw [if_neg hshort]
  by_cases hversion : s.getD 8 0 ≠ 1
  case pos =>
    rw [if_pos hversion]
    refine .inr ⟨.otherVersion, ⟨[.unmarked, .tooShort], _, rfl, hversion, ?_⟩, rfl⟩
    simp only [List.forall_mem_cons]
    exact ⟨hunmarked, hshort, nofun⟩
  rw [if_neg hversion]
  by_cases hweak : Bytes.toNat ((s.drop 9).take 4) < 10000
  case pos =>
    rw [if_pos hweak]
    refine .inr ⟨.fewRounds, ⟨[.unmarked, .tooShort, .otherVersion], _, rfl, hweak, ?_⟩, rfl⟩
    simp only [List.forall_mem_cons]
    exact ⟨hunmarked, hshort, hversion, nofun⟩
  exact .inl ⟨not_not.mp hunmarked, Nat.le_of_not_lt hshort, not_not.mp hversion,
    Nat.le_of_not_lt hweak⟩

/-- **What is taken apart is its parts put together, and those alone.** -/
theorem parts_eq_ok_iff : parts s = .ok p ↔ p.Fits ∧ s = p.octets := by
  constructor
  · intro h
    rcases faultless_or_isFirst s none with hfaultless | ⟨fault, -, herror⟩
    · cases h.symm.trans hfaultless.parts_eq
      exact ⟨hfaultless.fits, hfaultless.octets_eq.symm⟩
    · cases h.symm.trans herror
  · rintro ⟨hfits, rfl⟩
    rw [hfits.faultless.parts_eq, Parts.ofOctets_octets hfits]

theorem fits_of_encrypt {key associated : Bytes} (hstrong : 10000 ≤ rounds)
    (hbounded : rounds < 2 ^ 32) (hsalt : salt.length = 32) (hnonce : nonce.length = 12) :
    Parts.Fits ⟨rounds, salt, nonce, Gcm.encrypt key nonce associated content⟩ :=
  ⟨hstrong, hbounded, hsalt, hnonce, by simp only [Gcm.encrypt_length]; omega⟩

theorem isContainer_iff : IsContainer s w content ↔ ∃ p : Parts, p.Fits ∧ s = p.octets ∧
    p.ciphertext = Gcm.encrypt (deriveKey w p.salt p.rounds) p.nonce (header p.rounds) content := by
  constructor
  · rintro ⟨rounds, salt, nonce, hstrong, hbounded, hsalt, hnonce, hs⟩
    rw [← header_eq] at hs
    -- what comes before the salt is the header that is encrypted along
    have hheader : s.take 13 = header rounds := by
      rw [hs, List.append_assoc, List.append_assoc, List.take_left' (header_length rounds)]
    rw [hheader] at hs
    exact ⟨⟨rounds, salt, nonce, _⟩, fits_of_encrypt hstrong hbounded hsalt hnonce, hs, rfl⟩
  · rintro ⟨p, hfits, rfl, hciphertext⟩
    refine ⟨p.rounds, p.salt, p.nonce, hfits.strong, hfits.bounded, hfits.salt, hfits.nonce, ?_⟩
    rw [p.take_octets, ← header_eq]
    exact congrArg (header p.rounds ++ p.salt ++ p.nonce ++ ·) hciphertext

theorem unwrap_of_parts_error (h : parts s = .error e) (password : Option Secret) :
    unwrap s password = .error e := by
  simp only [unwrap, h, bind, Except.bind]

theorem unwrap_none (h : parts s = .ok p) : unwrap s none = .error .passwordRequired := by
  simp only [unwrap, h, bind, Except.bind]
  rfl

theorem unwrap_some (h : parts s = .ok p) (w : Secret) : unwrap s (some w) =
    match Gcm.decrypt? (deriveKey w p.salt p.rounds) p.nonce (header p.rounds) p.ciphertext with
    | some content => .ok ⟨content⟩
    | none => .error .authentication := by
  simp only [unwrap, h, bind, Except.bind]
  rfl

/-- **A password opens what holds a text under it, and nothing else.** -/
theorem unwrap_eq_ok_iff : unwrap s (some w) = .ok ⟨content⟩ ↔ IsContainer s w content := by
  constructor
  · intro h
    cases hparts : parts s with
    | error e =>
      rw [unwrap_of_parts_error hparts] at h
      cases h
    | ok p =>
      rw [unwrap_some hparts w] at h
      split at h
      · rename_i hdecrypt
        cases h
        obtain ⟨hfits, hs⟩ := parts_eq_ok_iff.mp hparts
        exact isContainer_iff.mpr ⟨p, hfits, hs, Gcm.decrypt?_eq_some_iff.mp hdecrypt⟩
      · cases h
  · intro h
    obtain ⟨p, hfits, hs, hciphertext⟩ := isContainer_iff.mp h
    rw [unwrap_some (parts_eq_ok_iff.mpr ⟨hfits, hs⟩), Gcm.decrypt?_eq_some_iff.mpr hciphertext]

/-- Octets without a fault of their own open under a password, or are not authentic. -/
theorem opens_or_not_authentic (h : parts s = .ok p) (w : Secret) :
    (∃ content, unwrap s (some w) = .ok ⟨content⟩) ∨
      unwrap s (some w) = .error .authentication := by
  rw [unwrap_some h]
  split
  · exact .inl ⟨_, rfl⟩
  · exact .inr rfl

/-- **Octets open, or fail for the first fault that they have.** -/
theorem unwrap_outcome (s : Bytes) (password : Option Secret) :
    ((∃ content, unwrap s password = .ok content) ∧
      ∀ fault ∈ Fault.inOrder, ¬ Fault.Applies s password fault) ∨
    ∃ fault, IsFirst (Fault.Applies s password) Fault.inOrder fault ∧
      unwrap s password = .error (fault.error s) := by
  rcases faultless_or_isFirst s password with hfaultless | ⟨fault, hfirst, herror⟩
  · have hstructural := hfaultless.not_applies password
    cases password with
    | none =>
      exact .inr ⟨.noPassword, ⟨Fault.structural, [.notAuthentic], rfl, rfl, hstructural⟩,
        unwrap_none hfaultless.parts_eq⟩
    | some w =>
      have hpassword : ∀ fault ∈ Fault.structural ++ [.noPassword],
          ¬ Fault.Applies s (some w) fault :=
        List.forall_mem_append.mpr ⟨hstructural, by simp [Fault.Applies]⟩
      rcases opens_or_not_authentic hfaultless.parts_eq w with ⟨content, hok⟩ | herror
      · have hauthentic : ¬ Fault.Applies s (some w) .notAuthentic :=
          fun h => h w content rfl (unwrap_eq_ok_iff.mp hok)
        have hnone : ∀ fault ∈ (Fault.structural ++ [.noPassword]) ++ [.notAuthentic],
            ¬ Fault.Applies s (some w) fault :=
          List.forall_mem_append.mpr ⟨hpassword, by simpa using hauthentic⟩
        exact .inl ⟨⟨_, hok⟩, hnone⟩
      · refine .inr ⟨.notAuthentic, ⟨Fault.structural ++ [.noPassword], [], rfl, ?_, hpassword⟩,
          herror⟩
        rintro w' content ⟨⟩ hcontainer
        rw [unwrap_eq_ok_iff.mpr hcontainer] at herror
        cases herror
  · -- a fault of the octets themselves is looked at before the password
    obtain ⟨before, after, heq, happlies, hbefore⟩ := hfirst
    refine .inr ⟨fault, ⟨before, after ++ [.noPassword, .notAuthentic], ?_, happlies, hbefore⟩,
      unwrap_of_parts_error herror password⟩
    rw [Fault.inOrder, heq, List.append_assoc, List.cons_append]

theorem unwrap_eq_error_iff : unwrap s password = .error e ↔
    ∃ fault, IsFirst (Fault.Applies s password) Fault.inOrder fault ∧ e = fault.error s := by
  rcases unwrap_outcome s password with ⟨⟨content, hok⟩, hnone⟩ | ⟨fault, hfirst, herror⟩
  · refine iff_of_false (fun h => by cases hok.symm.trans h) ?_
    rintro ⟨fault, hfirst, -⟩
    obtain ⟨-, -, -, happlies, -⟩ := id hfirst
    exact hnone fault hfirst.mem happlies
  · constructor
    · intro h
      cases herror.symm.trans h
      exact ⟨fault, hfirst, rfl⟩
    · rintro ⟨fault', hfirst', rfl⟩
      rw [hfirst'.unique hfirst]
      exact herror

/-! ## 5. Positions -/

/-- The octets between two positions, if there are that many. -/
def slice? (b : Bytes) (first last : Nat) : Option Bytes :=
  if first ≤ last ∧ last ≤ b.length then some ((b.take last).drop first) else none

/-- The octets before a position and those from there on, if there are that many. -/
def splitAt? (b : Bytes) (position : Nat) : Option (Bytes × Bytes) :=
  if position ≤ b.length then some (b.take position, b.drop position) else none

/-- Opens a container by positions, one look at its octets after the other. There is no answer where
one of them is past the end. -/
def unwrapWithin (s : Bytes) (password : Option Secret) : Option (Except Error Secret) :=
  if ¬ Bytes.ofText "MTLSSEAL" <+: s then some (.error .notSealed)
  else if s.length < 13 + 32 + 12 + 16 then some (.error .authentication)
  else do
    let found ← s[8]?
    if found ≠ 1 then return .error (.unsupportedVersion found)
    let count ← slice? s 9 13
    let rounds := Bytes.toNat count
    if rounds < 10000 then return .error (.weakRounds rounds)
    match password with
    | none => return .error .passwordRequired
    | some w =>
      let (associated, rest) ← splitAt? s 13
      let (salt, rest) ← splitAt? rest 32
      let (nonce, ciphertext) ← splitAt? rest 12
      match Gcm.decrypt? (deriveKey w salt rounds) nonce associated ciphertext with
      | some content => return .ok ⟨content⟩
      | none => return .error .authentication

theorem splitAt?_of_le {b : Bytes} {position : Nat} (h : position ≤ b.length) :
    splitAt? b position = some (b.take position, b.drop position) := if_pos h

theorem slice?_of_le {b : Bytes} {first last : Nat} (h : first ≤ last) (h' : last ≤ b.length) :
    slice? b first last = some ((b.drop first).take (last - first)) := by
  rw [slice?, if_pos ⟨h, h'⟩, List.drop_take]

/-- **No look at octets is past their end.** -/
theorem unwrapWithin_eq (s : Bytes) (password : Option Secret) :
    unwrapWithin s password = some (unwrap s password) := by
  have hparts := parts_eq s
  unfold unwrapWithin
  by_cases hunmarked : ¬ Bytes.ofText "MTLSSEAL" <+: s
  case pos =>
    rw [if_pos hunmarked] at hparts ⊢
    rw [unwrap_of_parts_error hparts]
  rw [if_neg hunmarked] at hparts ⊢
  by_cases hshort : s.length < 13 + 32 + 12 + 16
  case pos =>
    rw [if_pos hshort] at hparts ⊢
    rw [unwrap_of_parts_error hparts]
  rw [if_neg hshort] at hparts ⊢
  have hfound : s[8]? = some (s.getD 8 0) := by
    rw [List.getD_eq_getElem?_getD, List.getElem?_eq_getElem (by omega), Option.getD_some]
  have hcount : slice? s 9 13 = some ((s.drop 9).take 4) :=
    slice?_of_le (by decide) (by omega)
  simp only [hfound, hcount, Option.bind_eq_bind, Option.bind_some]
  by_cases hversion : s.getD 8 0 ≠ 1
  case pos =>
    rw [if_pos hversion] at hparts ⊢
    rw [unwrap_of_parts_error hparts]
    rfl
  rw [if_neg hversion] at hparts ⊢
  by_cases hweak : Bytes.toNat ((s.drop 9).take 4) < 10000
  case pos =>
    rw [if_pos hweak] at hparts ⊢
    rw [unwrap_of_parts_error hparts]
    rfl
  rw [if_neg hweak] at hparts ⊢
  cases password with
  | none =>
    rw [unwrap_none hparts]
    rfl
  | some w =>
    have hfaultless : Faultless s :=
      ⟨not_not.mp hunmarked, Nat.le_of_not_lt hshort, not_not.mp hversion, Nat.le_of_not_lt hweak⟩
    have hrounds : Bytes.toNat ((s.drop 9).take 4) = (Parts.ofOctets s).rounds := rfl
    have hheader : splitAt? s 13 = some (s.take 13, s.drop 13) := splitAt?_of_le (by omega)
    have hsalt : splitAt? (s.drop 13) 32 = some ((Parts.ofOctets s).salt, (s.drop 13).drop 32) :=
      splitAt?_of_le (by rw [List.length_drop]; omega)
    have hnonce : splitAt? ((s.drop 13).drop 32) 12 =
        some ((Parts.ofOctets s).nonce, (Parts.ofOctets s).ciphertext) := by
      have hrest : ((s.drop 13).drop 32).drop 12 = (Parts.ofOctets s).ciphertext := List.drop_drop
      rw [splitAt?_of_le (by rw [List.length_drop, List.length_drop]; omega), hrest]
      rfl
    rw [unwrap_some hparts, hfaultless.header_eq_take]
    simp only [hrounds, hheader, hsalt, hnonce, Option.bind_some]
    split
    · rfl
    · rfl

/-! ## 6. The codec -/

theorem wrap_eq_ok (hstrong : 10000 ≤ rounds) : wrap content w rounds salt nonce =
    .ok (header rounds ++ salt ++ nonce ++
      Gcm.encrypt (deriveKey w salt rounds) nonce (header rounds) content) :=
  if_neg (Nat.not_lt.mpr hstrong)

/-- **A container is exactly what opens.** -/
theorem wrap_unwrap_exact :
    (∀ content password rounds salt nonce, 10000 ≤ rounds → rounds < 2 ^ 32 → salt.length = 32 →
      nonce.length = 12 → ∃ s, wrap content password rounds salt nonce = .ok s ∧
        s.length = 13 + 32 + 12 + content.length + 16 ∧ unwrap s (some password) = .ok ⟨content⟩) ∧
    (∀ s password content,
      unwrap s (some password) = .ok ⟨content⟩ ↔ IsContainer s password content) ∧
    (∀ s password e, unwrap s password = .error e ↔
      ∃ fault, IsFirst (Fault.Applies s password) Fault.inOrder fault ∧ e = fault.error s) ∧
    (∀ s password, unwrapWithin s password = some (unwrap s password)) ∧
    ∀ s, (∃ fault ∈ Fault.structural, ∀ password, unwrap s password = .error (fault.error s)) ∨
      ∀ w, (∃ content, unwrap s (some w) = .ok ⟨content⟩) ∨
        unwrap s (some w) = .error .authentication := by
  refine ⟨?_, fun _ _ _ => unwrap_eq_ok_iff, fun _ _ _ => unwrap_eq_error_iff, unwrapWithin_eq, ?_⟩
  · intro content password rounds salt nonce hstrong hbounded hsalt hnonce
    refine ⟨_, wrap_eq_ok hstrong, ?_, ?_⟩
    · simp only [List.length_append, header_length, hsalt, hnonce, Gcm.encrypt_length]
      omega
    · exact unwrap_eq_ok_iff.mpr (isContainer_iff.mpr
        ⟨⟨rounds, salt, nonce, _⟩, fits_of_encrypt hstrong hbounded hsalt hnonce, rfl, rfl⟩)
  · intro s
    rcases faultless_or_isFirst s none with hfaultless | ⟨fault, hfirst, herror⟩
    · exact .inr (opens_or_not_authentic hfaultless.parts_eq)
    · exact .inl ⟨fault, hfirst.mem, unwrap_of_parts_error herror⟩

end Sealed

end PeerTrust
