import Mathlib.Data.List.Forall2
import PeerTrust.Json.Value

/-!
# JSON texts that are written

Texts, nothing and objects are written without blanks between the signs, and read back as what they
are.

* `Json.quoted` writes a text, `Json.objectText` an object whose members are written;
* `Json.Writes` says that signs are read as a value wherever they stand: `Json.writes_quoted`,
  `Json.writes_null` and `Json.writes_object`;
* `Json.read_of_writes`: a text that consists of them is read as that value.
-/

namespace PeerTrust.Json

/-! ## 1. Texts -/

/-- The signs of a character between quotation marks. -/
def escaped (c : Char) : List Char :=
  if c = '"' then ['\\', '"']
  else if c = '\\' then ['\\', '\\']
  else if c.toNat < 32 then
    ['\\', 'u', '0', '0', Bytes.hexDigit (c.toNat / 16), Bytes.hexDigit (c.toNat % 16)]
  else [c]

/-- A text between quotation marks. -/
def quoted (s : String) : List Char := '"' :: (s.toList.flatMap escaped ++ ['"'])

theorem hexValue?_hexDigit {n : Nat} (h : n < 16) : Bytes.hexValue? (Bytes.hexDigit n) = some n := by
  revert n
  decide

theorem readUnits?_backslash (fuel : Nat) (cs : List Char) : readUnits? (fuel + 1) ('\\' :: cs) =
    (escape? cs).bind fun found =>
      (readUnits? fuel found.2).map fun units => (found.1 :: units.1, units.2) := by
  rw [readUnits?, if_neg (by decide), if_neg (by decide)]
  cases hescape : escape? cs with
  | none => simp
  | some found => cases hunits : readUnits? fuel found.2 <;> simp [hunits]

theorem readUnits?_ordinary {c : Char} (hquote : c ≠ '"') (hcontrol : ¬ c.toNat < 32)
    (hescape : c ≠ '\\') (fuel : Nat) (cs : List Char) : readUnits? (fuel + 1) (c :: cs) =
      (readUnits? fuel cs).map fun units => (some c :: units.1, units.2) := by
  rw [readUnits?, if_neg hquote, if_neg hcontrol]
  cases hunits : readUnits? fuel cs <;> simp [hescape, hunits]

/-- A character is read from its signs. -/
theorem readUnits?_escaped (c : Char) (fuel : Nat) (rest : List Char) :
    readUnits? (fuel + 1) (escaped c ++ rest) =
      (readUnits? fuel rest).map fun units => (some c :: units.1, units.2) := by
  unfold escaped
  split_ifs with hquote hescape hcontrol
  · rw [List.cons_append, readUnits?_backslash, hquote]
    rfl
  · rw [List.cons_append, readUnits?_backslash, hescape]
    rfl
  · have hzero : Bytes.hexValue? '0' = some 0 := rfl
    have hhigh : Bytes.hexValue? (Bytes.hexDigit (c.toNat / 16)) = some (c.toNat / 16) :=
      hexValue?_hexDigit (by omega)
    have hlow : Bytes.hexValue? (Bytes.hexDigit (c.toNat % 16)) = some (c.toNat % 16) :=
      hexValue?_hexDigit (by omega)
    have hvalue : 16 * (c.toNat / 16) + c.toNat % 16 = c.toNat := Nat.div_add_mod _ _
    have hscalar : c.toNat < 0xd800 ∨ 0xe000 ≤ c.toNat := .inl (by omega)
    have hunit : unit? ('0' :: '0' :: Bytes.hexDigit (c.toNat / 16) ::
        Bytes.hexDigit (c.toNat % 16) :: rest) = some (some c, rest) := by
      simp [unit?, hex4?, hzero, hhigh, hlow, hvalue, hscalar, Char.ofNat_toNat]
    rw [List.cons_append, readUnits?_backslash]
    simp only [List.cons_append, List.nil_append, escape?, hunit, Option.bind_some]
  · exact readUnits?_ordinary hquote hcontrol hescape fuel rest

theorem readUnits?_quoted (cs : List Char) {fuel : Nat} (hfuel : cs.length < fuel)
    (rest : List Char) :
    readUnits? fuel (cs.flatMap escaped ++ '"' :: rest) = some (cs.map some, rest) := by
  induction cs generalizing fuel with
  | nil =>
    obtain ⟨fuel, rfl⟩ := Nat.exists_eq_add_one.mpr hfuel
    rfl
  | cons c cs ih =>
    obtain ⟨fuel, rfl⟩ := Nat.exists_eq_add_one.mpr (Nat.zero_lt_of_lt hfuel)
    rw [List.flatMap_cons, List.append_assoc, readUnits?_escaped,
      ih (by simpa using hfuel)]
    rfl

theorem length_escaped_pos (c : Char) : 0 < (escaped c).length := by
  unfold escaped
  split_ifs <;> simp

theorem length_le_flatMap_escaped (cs : List Char) : cs.length ≤ (cs.flatMap escaped).length := by
  induction cs with
  | nil => exact Nat.zero_le _
  | cons c cs ih =>
    have := length_escaped_pos c
    rw [List.flatMap_cons, List.length_append, List.length_cons]
    omega

/-- **A text that is written between quotation marks is read back.** -/
theorem readString?_quoted (s : String) (rest : List Char) :
    readString? (s.toList.flatMap escaped ++ '"' :: rest) = some (some s, rest) := by
  have hlength := length_le_flatMap_escaped s.toList
  have hfuel : s.toList.length < (s.toList.flatMap escaped ++ '"' :: rest).length + 1 := by
    rw [List.length_append]
    omega
  have hunits : (s.toList.map some).mapM id = some s.toList := by
    rw [List.mapM_map]
    exact List.mapM_pure.trans (by rw [List.map_id']; rfl)
  simp only [readString?, readUnits?_quoted _ hfuel, Option.map_some, hunits, String.ofList_toList]

/-! ## 2. Values -/

/-- Signs are read as a value, whatever follows them. -/
structure Writes (text : List Char) (v : Value) : Prop where
  isIntact : v.isIntact = true
  read : ∀ fuel rest, text.length ≤ fuel → readValue fuel (text ++ rest) = (v, rest)

theorem skipBlanks_sign {c : Char} (h : c ∈ ['"', ':', ',', '\x7b', '\x7d']) (cs : List Char) :
    skipBlanks (c :: cs) = c :: cs := by
  simp only [List.mem_cons, List.not_mem_nil, or_false] at h
  rcases h with rfl | rfl | rfl | rfl | rfl <;> rfl

theorem writes_null : Writes "null".toList .null where
  isIntact := rfl
  read fuel rest hfuel := by
    obtain ⟨fuel, rfl⟩ := Nat.exists_eq_add_one.mpr (Nat.lt_of_lt_of_le (by decide) hfuel)
    rfl

theorem writes_quoted (s : String) : Writes (quoted s) (.string s) where
  isIntact := rfl
  read fuel rest hfuel := by
    obtain ⟨fuel, rfl⟩ := Nat.exists_eq_add_one.mpr (Nat.lt_of_lt_of_le (by simp [quoted]) hfuel)
    have hskip := skipBlanks_sign (c := '"') (by decide)
    simp [readValue, quoted, readString?_quoted, hskip]

/-! ## 3. Objects -/

/-- Members, each a name and the signs of its value, with commas between them. -/
def membersText : List (String × List Char) → List Char
  | [] => []
  | [(name, text)] => quoted name ++ ':' :: text
  | (name, text) :: m :: ms => quoted name ++ ':' :: (text ++ ',' :: membersText (m :: ms))

/-- The signs of an object. -/
def objectText (members : List (String × List Char)) : List Char :=
  '\x7b' :: (membersText members ++ ['\x7d'])

/-- A member is written under its name. -/
def WritesMember (m : String × List Char) (v : String × Value) : Prop := m.1 = v.1 ∧ Writes m.2 v.2

variable {m : String × List Char} {v : String × Value} {ms : List (String × List Char)}
  {vs : List (String × Value)}

/-- The last member of an object is read. -/
theorem readMembers_last (h : WritesMember m v) {fuel : Nat} (hfuel : m.2.length ≤ fuel)
    (rest : List Char) :
    readMembers (fuel + 1) (quoted m.1 ++ ':' :: (m.2 ++ '\x7d' :: rest)) = ([v], true, rest) := by
  obtain ⟨name, value⟩ := v
  obtain ⟨rfl, hwrites⟩ := h
  have hquote := skipBlanks_sign (c := '"') (by decide)
  have hcolon := skipBlanks_sign (c := ':') (by decide)
  have hbrace := skipBlanks_sign (c := '\x7d') (by decide)
  simp [readMembers, quoted, hquote, readString?_quoted, hcolon, hwrites.read fuel _ hfuel,
    hwrites.isIntact, hbrace]

/-- A member is read, and then those after the comma. -/
theorem readMembers_next (h : WritesMember m v) {fuel : Nat} (hfuel : m.2.length ≤ fuel)
    {text rest : List Char} {closed : Bool} (hnext : readMembers fuel text = (vs, closed, rest)) :
    readMembers (fuel + 1) (quoted m.1 ++ ':' :: (m.2 ++ ',' :: text)) = (v :: vs, closed, rest) := by
  obtain ⟨name, value⟩ := v
  obtain ⟨rfl, hwrites⟩ := h
  have hquote := skipBlanks_sign (c := '"') (by decide)
  have hcolon := skipBlanks_sign (c := ':') (by decide)
  have hcomma := skipBlanks_sign (c := ',') (by decide)
  simp [readMembers, quoted, hquote, readString?_quoted, hcolon, hwrites.read fuel _ hfuel,
    hwrites.isIntact, hcomma, hnext]

theorem readMembers_membersText (h : List.Forall₂ WritesMember ms vs) (hne : ms ≠ []) {fuel : Nat}
    (hfuel : (membersText ms).length ≤ fuel) (rest : List Char) :
    readMembers fuel (membersText ms ++ '\x7d' :: rest) = (vs, true, rest) := by
  induction h generalizing fuel with
  | nil => exact absurd rfl hne
  | @cons m v ms vs hm hms ih =>
    cases hms with
    | nil =>
      simp only [membersText, List.length_append, List.length_cons] at hfuel
      obtain ⟨fuel, rfl⟩ := Nat.exists_eq_add_one.mpr (show 0 < fuel by omega)
      rw [membersText, List.append_assoc, List.cons_append, readMembers_last hm (by omega)]
    | @cons m' v' ms' vs' =>
      have htext : membersText (m :: m' :: ms') =
        quoted m.1 ++ ':' :: (m.2 ++ ',' :: membersText (m' :: ms')) := rfl
      simp only [htext, List.length_append, List.length_cons] at hfuel
      obtain ⟨fuel, rfl⟩ := Nat.exists_eq_add_one.mpr (show 0 < fuel by omega)
      have hothers := ih (by simp) (show (membersText (m' :: ms')).length ≤ fuel by omega)
      rw [htext, List.append_assoc, List.cons_append, List.append_assoc, List.cons_append,
        readMembers_next hm (by omega) hothers]

/-- **An object is read from its signs, if its members are.** -/
theorem writes_object (h : List.Forall₂ WritesMember ms vs) :
    Writes (objectText ms) (.object vs true) where
  isIntact := rfl
  read fuel rest hfuel := by
    obtain ⟨fuel, rfl⟩ := Nat.exists_eq_add_one.mpr
      (Nat.lt_of_lt_of_le (by simp [objectText]) hfuel)
    cases h with
    | nil => rfl
    | @cons m v ms vs hm hms =>
      have hfuel' : (membersText (m :: ms)).length ≤ fuel := by
        simp only [objectText, List.length_cons, List.length_append] at hfuel
        omega
      have hread := readMembers_membersText (.cons hm hms) (by simp) hfuel' rest
      obtain ⟨signs, hsigns⟩ : ∃ signs, membersText (m :: ms) = '"' :: signs := by
        cases ms <;> exact ⟨_, rfl⟩
      have hbrace := skipBlanks_sign (c := '\x7b') (by decide)
      have hquote := skipBlanks_sign (c := '"') (by decide)
      rw [hsigns, List.cons_append] at hread
      simp [objectText, readValue, hbrace, hsigns, hquote, hread]

/-- **A text that consists of the signs of a value is read as that value.** -/
theorem read_of_writes {text : List Char} {v : Value} (h : Writes text v) :
    read (String.ofList text) = (v, true) := by
  have hread := h.read (2 * text.length + 2) [] (by omega)
  rw [List.append_nil] at hread
  have hlength : (String.ofList text).length = text.length := by simp
  simp only [read, hlength, String.toList_ofList, hread]
  rfl

end PeerTrust.Json
