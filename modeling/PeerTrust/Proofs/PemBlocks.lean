import PeerTrust.Proofs.Results
import PeerTrust.Text.Pem

/-!
# Blocks that are written are read back

* `Pem.searchFrom_skip` and `Pem.searchFrom_append` are the two things that a search for a mark
  does: it passes over octets that do not begin the mark, and it follows those that do;
* `Pem.search_append`: so it finds the mark after octets that do not begin it;
* `Pem.exists_lines_wrap`: wrapped text is lines that are not empty, with a line end each, so that
  no line end stands there twice in a row (`Pem.search_twice_eq_none`) and there are no headers;
* `Pem.nextParts?_octets` and `Pem.block_written` read one block, `Pem.read_octets` a file of them.
-/

namespace PeerTrust

/-! ## 1. Texts as octets -/

namespace Bytes

theorem ofText_append (s t : String) : ofText (s ++ t) = ofText s ++ ofText t := by
  simp [ofText]

theorem ofText_ofList (cs : List Char) :
    ofText (String.ofList cs) = cs.flatMap String.utf8EncodeChar := by
  simp [ofText, List.utf8Encode]

theorem toText?_ofText (s : String) : toText? (ofText s) = some s := by
  have hoctets : (⟨(ofText s).toArray⟩ : ByteArray) = s.toByteArray := by simp [ofText]
  rw [toText?, hoctets, String.fromUTF8?, dif_pos s.isValidUTF8]
  rfl

end Bytes

namespace Pem

/-! ## 2. Searching for a mark -/

section Search

variable {t : UInt8} {mark seen content rest : Bytes}

/-- At an octet that is not the next one of the mark, a search begins anew. -/
theorem searchFrom_miss {x : UInt8} {todo : Bytes} {matched : Nat} (hx : x ≠ t) :
    searchFrom mark seen (t :: todo) matched (x :: rest) =
      searchFrom mark (x :: seen) mark 0 rest := by
  rw [searchFrom, if_neg hx]

/-- A search passes over octets that do not begin the mark. -/
theorem searchFrom_skip (hmark : mark.head? = some t) (h : t ∉ content) :
    searchFrom mark seen mark 0 (content ++ rest) =
      searchFrom mark (content.reverse ++ seen) mark 0 rest := by
  obtain ⟨todo, rfl⟩ : ∃ todo, mark = t :: todo := List.head?_eq_some_iff.mp hmark
  induction content generalizing seen with
  | nil => rfl
  | cons x content ih =>
    have hx : x ≠ t := fun hx => h (hx ▸ List.mem_cons_self)
    have hcontent : t ∉ content := fun ht => h (List.mem_cons_of_mem x ht)
    rw [List.cons_append, searchFrom_miss hx, ih hcontent, List.reverse_cons, List.append_assoc,
      List.singleton_append]

/-- It follows octets that are the next ones of the mark. -/
theorem searchFrom_append (next todo : Bytes) (matched : Nat) :
    searchFrom mark seen (next ++ todo) matched (next ++ rest) =
      searchFrom mark (next.reverse ++ seen) todo (matched + next.length) rest := by
  induction next generalizing seen matched with
  | nil => rfl
  | cons x next ih =>
    rw [List.cons_append, List.cons_append, searchFrom, if_pos rfl, ih, List.reverse_cons,
      List.append_assoc, List.singleton_append, List.length_cons, Nat.add_assoc, Nat.add_comm 1]

/-- **A search finds the mark after octets that do not begin it.** -/
theorem search_append (hmark : mark.head? = some t) (h : t ∉ content) :
    search mark (content ++ (mark ++ rest)) = some (content, rest) := by
  have hfound : searchFrom mark content.reverse mark 0 (mark ++ rest) =
      searchFrom mark (mark.reverse ++ content.reverse) [] mark.length rest := by
    simpa using searchFrom_append mark [] 0
  rw [search, searchFrom_skip hmark h, List.append_nil, hfound, searchFrom,
    List.drop_left' List.length_reverse, List.reverse_reverse]

/-- **Among lines that are not empty there are no two line ends in a row.** -/
theorem search_twice_eq_none {lineEnd : Bytes} (hend : lineEnd.head? = some t) {lines : List Bytes}
    (hlines : ∀ line ∈ lines, line ≠ [] ∧ t ∉ line) :
    search (lineEnd ++ lineEnd) (lines.flatMap (· ++ lineEnd)) = none := by
  obtain ⟨e, rfl⟩ : ∃ e, lineEnd = t :: e := List.head?_eq_some_iff.mp hend
  -- after a line end, the search waits for another one
  suffices h : ∀ (seen : Bytes) (matched : Nat) (todo : Bytes),
      searchFrom ((t :: e) ++ (t :: e)) seen (t :: todo) matched (lines.flatMap (· ++ t :: e)) =
        none from h [] 0 _
  induction lines with
  | nil => exact fun _ _ _ => rfl
  | cons line lines ih =>
    intro seen matched todo
    obtain ⟨hne, hline⟩ := hlines line List.mem_cons_self
    obtain ⟨x, line, rfl⟩ := List.exists_cons_of_ne_nil hne
    have hx : x ≠ t := fun hx => hline (hx ▸ List.mem_cons_self)
    have hline : t ∉ line := fun ht => hline (List.mem_cons_of_mem x ht)
    have htext : ((x :: line) :: lines).flatMap (· ++ t :: e) =
        x :: (line ++ ((t :: e) ++ lines.flatMap (· ++ t :: e))) := by simp
    rw [htext, searchFrom_miss hx, searchFrom_skip rfl hline, searchFrom_append]
    exact ih (fun line hmem => hlines line (List.mem_cons_of_mem _ hmem)) _ _ _

end Search

/-! ## 3. The data of a block -/

/-- White space, and the octet with which marks begin. -/
def stops : Bytes := [9, 10, 13, 32, 45]

/-- A character of a line of data: it is not white space, and it does not begin a mark. -/
structure IsData (c : Char) : Prop where
  visible : Text.isBlank c = false
  octets : ∀ x ∈ String.utf8EncodeChar c, x ∉ stops

theorem isData_digit {n : Nat} (h : n < 64) : IsData (Base64.digit n) := by
  have hvisible : ∀ n < 64, Text.isBlank (Base64.digit n) = false := by decide +kernel
  have hoctets : ∀ n < 64, ∀ x ∈ String.utf8EncodeChar (Base64.digit n), x ∉ stops := by
    decide +kernel
  exact ⟨hvisible n h, hoctets n h⟩

theorem isData_pad : IsData '=' := ⟨by decide, by decide +kernel⟩

theorem isData_of_mem_encode {contents : Bytes} {c : Char} (h : c ∈ Base64.encode contents) :
    IsData c := by
  fun_induction Base64.encode contents with
  | case1 => cases h
  | case2 x =>
    have hx := x.toNat_lt
    simp only [List.mem_cons, List.not_mem_nil, or_false] at h
    rcases h with rfl | rfl | rfl | rfl
    · exact isData_digit (by omega)
    · exact isData_digit (by omega)
    · exact isData_pad
    · exact isData_pad
  | case3 x y =>
    have hx := x.toNat_lt
    have hy := y.toNat_lt
    simp only [List.mem_cons, List.not_mem_nil, or_false] at h
    rcases h with rfl | rfl | rfl | rfl
    · exact isData_digit (by omega)
    · exact isData_digit (by omega)
    · exact isData_digit (by omega)
    · exact isData_pad
  | case4 x y z rest ih =>
    have hx := x.toNat_lt
    have hy := y.toNat_lt
    have hz := z.toNat_lt
    simp only [List.mem_cons] at h
    rcases h with rfl | rfl | rfl | rfl | h
    · exact isData_digit (by omega)
    · exact isData_digit (by omega)
    · exact isData_digit (by omega)
    · exact isData_digit (by omega)
    · exact ih h

/-- Text is wrapped into lines that are not empty. -/
theorem exists_lines_wrap {fuel : Nat} {cs : List Char} (h : cs.length ≤ fuel) :
    ∃ lines : List (List Char), wrap fuel cs = lines.flatMap (· ++ ['\r', '\n']) ∧
      lines.flatten = cs ∧ [] ∉ lines := by
  induction fuel generalizing cs with
  | zero =>
    obtain rfl : cs = [] := List.length_eq_zero_iff.mp (Nat.le_zero.mp h)
    exact ⟨[], rfl, rfl, List.not_mem_nil⟩
  | succ fuel ih =>
    cases cs with
    | nil => exact ⟨[], rfl, rfl, List.not_mem_nil⟩
    | cons c cs =>
      have hrest : ((c :: cs).drop 64).length ≤ fuel := by
        rw [List.length_drop]
        simp only [List.length_cons] at h ⊢
        omega
      obtain ⟨lines, hwrap, hflatten, hne⟩ := ih hrest
      refine ⟨(c :: cs).take 64 :: lines, ?_, ?_, ?_⟩
      · rw [wrap, hwrap, List.flatMap_cons, List.append_assoc]
        · rfl
        · simp
      · rw [List.flatten_cons, hflatten, List.take_append_drop]
      · simp [hne]

/-- The data of a block as they are written. -/
def written (contents : Bytes) : List Char :=
  wrap (Base64.encode contents).length (Base64.encode contents)

theorem exists_lines_written (contents : Bytes) :
    ∃ lines : List (List Char), written contents = lines.flatMap (· ++ ['\r', '\n']) ∧
      lines.flatten = Base64.encode contents ∧
      ∀ line ∈ lines, line ≠ [] ∧ ∀ c ∈ line, IsData c := by
  obtain ⟨lines, hwrap, hflatten, hne⟩ :=
    exists_lines_wrap (Nat.le_refl (Base64.encode contents).length)
  refine ⟨lines, hwrap, hflatten, fun line hline => ⟨fun h => hne (h ▸ hline), fun c hc => ?_⟩⟩
  exact isData_of_mem_encode (hflatten ▸ List.mem_flatten.mpr ⟨line, hline, hc⟩)

/-- Without white space, they are the data. -/
theorem filter_written (contents : Bytes) :
    (written contents).filter (!Text.isBlank ·) = Base64.encode contents := by
  obtain ⟨lines, hwritten, hflatten, hlines⟩ := exists_lines_written contents
  rw [hwritten, ← hflatten]
  clear hwritten hflatten
  induction lines with
  | nil => rfl
  | cons line lines ih =>
    have hline : line.filter (!Text.isBlank ·) = line := by
      refine List.filter_eq_self.mpr fun c hc => ?_
      rw [((hlines line List.mem_cons_self).2 c hc).visible]
      rfl
    have hend : ['\r', '\n'].filter (!Text.isBlank ·) = [] := by decide
    rw [List.flatMap_cons, List.filter_append, List.filter_append, hline, hend, List.append_nil,
      ih fun line hmem => hlines line (List.mem_cons_of_mem _ hmem), List.flatten_cons]

/-- Their octets are lines, too. -/
theorem exists_lines_octets (contents : Bytes) :
    ∃ lines : List Bytes, Bytes.ofText (String.ofList (written contents)) =
        lines.flatMap (· ++ [13, 10]) ∧
      ∀ line ∈ lines, line ≠ [] ∧ ∀ x ∈ line, x ∉ stops := by
  obtain ⟨lines, hwritten, -, hlines⟩ := exists_lines_written contents
  refine ⟨lines.map (·.flatMap String.utf8EncodeChar), ?_, fun octets hoctets => ?_⟩
  · have hend : ['\r', '\n'].flatMap String.utf8EncodeChar = [13, 10] := by decide
    rw [Bytes.ofText_ofList, hwritten, List.flatMap_assoc, List.flatMap_map]
    simp only [List.flatMap_append, hend]
  · obtain ⟨line, hline, rfl⟩ := List.mem_map.mp hoctets
    obtain ⟨hne, hdata⟩ := hlines line hline
    constructor
    · obtain ⟨c, cs, rfl⟩ := List.exists_cons_of_ne_nil hne
      simp
    · intro x hx
      obtain ⟨c, hc, hx⟩ := List.mem_flatMap.mp hx
      exact (hdata c hc).octets x hx

/-- They begin no mark. -/
theorem dash_notMem_written (contents : Bytes) :
    45 ∉ Bytes.ofText (String.ofList (written contents)) := by
  obtain ⟨lines, hoctets, hlines⟩ := exists_lines_octets contents
  rw [hoctets]
  intro h
  obtain ⟨line, hline, hmem⟩ := List.mem_flatMap.mp h
  rcases List.mem_append.mp hmem with hmem | hmem
  · exact (hlines line hline).2 45 hmem (by decide)
  · exact absurd hmem (by decide)

/-- There are no headers before them. -/
theorem splitHeaders_written (contents : Bytes) :
    splitHeaders (Bytes.ofText (String.ofList (written contents))) =
      ([], Bytes.ofText (String.ofList (written contents))) := by
  obtain ⟨lines, hoctets, hlines⟩ := exists_lines_octets contents
  have hfeeds : search ([10] ++ [10]) (lines.flatMap (· ++ [13, 10])) = none := by
    -- a carriage return is one more octet of its line here
    have hreturns : lines.flatMap (· ++ [13, 10]) =
        (lines.map (· ++ [13])).flatMap (· ++ [10]) := by
      simp [List.flatMap_map]
    rw [hreturns]
    refine search_twice_eq_none rfl fun returned hreturned => ?_
    obtain ⟨line, hline, rfl⟩ := List.mem_map.mp hreturned
    refine ⟨by simp, fun h => ?_⟩
    rcases List.mem_append.mp h with h | h
    · exact (hlines line hline).2 10 h (by decide)
    · exact absurd h (by decide)
  have hboth : search ([13, 10] ++ [13, 10]) (lines.flatMap (· ++ [13, 10])) = none :=
    search_twice_eq_none rfl fun line hline =>
      ⟨(hlines line hline).1, fun h => (hlines line hline).2 13 h (by decide)⟩
  simp only [List.cons_append, List.nil_append] at hfeeds hboth
  rw [hoctets, splitHeaders, hfeeds]
  simp only [hboth, Option.getD_none]

theorem skipSpace_lineEnd (b : Bytes) : skipSpace (13 :: 10 :: b) = skipSpace b := rfl

/-- White space ends where they begin, or where the mark after them does. -/
theorem skipSpace_written (contents : Bytes) {rest : Bytes} (hrest : rest.head? = some 45) :
    skipSpace (Bytes.ofText (String.ofList (written contents)) ++ rest) =
      Bytes.ofText (String.ofList (written contents)) ++ rest := by
  obtain ⟨rest, rfl⟩ := List.head?_eq_some_iff.mp hrest
  obtain ⟨lines, hoctets, hlines⟩ := exists_lines_octets contents
  rw [hoctets]
  cases lines with
  | nil => rfl
  | cons line lines =>
    obtain ⟨hne, hdata⟩ := hlines line List.mem_cons_self
    obtain ⟨x, line, rfl⟩ := List.exists_cons_of_ne_nil hne
    have hx : x ∉ stops := hdata x List.mem_cons_self
    simp only [stops, List.mem_cons, List.not_mem_nil, or_false, not_or] at hx
    simp [skipSpace, hx]

/-! ## 4. Blocks -/

/-- The octets of a block as it is written. -/
def Block.octets (b : Block) : Bytes := Bytes.ofText b.encode

/-- The parts of a block as it is written. -/
def Block.parts (b : Block) : Parts where
  first := Bytes.ofText b.tag
  headers := []
  data := Bytes.ofText (String.ofList (written b.contents))
  last := Bytes.ofText b.tag

/-- What is written of a block, one part after the other. -/
theorem octets_append (b : Block) (rest : Bytes) : b.octets ++ rest =
    Bytes.ofText "-----BEGIN " ++ (Bytes.ofText b.tag ++ (Bytes.ofText "-----" ++ (13 :: 10 ::
      (Bytes.ofText (String.ofList (written b.contents)) ++ (Bytes.ofText "-----END " ++
        (Bytes.ofText b.tag ++ (Bytes.ofText "-----" ++ (13 :: 10 :: rest)))))))) := by
  have hparts (s₁ s₂ s₃ s₄ s₅ s₆ s₇ : String) :
      Bytes.ofText (s₁ ++ s₂ ++ s₃ ++ s₄ ++ s₅ ++ s₆ ++ s₇) ++ rest =
        Bytes.ofText s₁ ++ (Bytes.ofText s₂ ++ (Bytes.ofText s₃ ++ (Bytes.ofText s₄ ++
          (Bytes.ofText s₅ ++ (Bytes.ofText s₆ ++ (Bytes.ofText s₇ ++ rest)))))) := by
    simp only [Bytes.ofText_append, List.append_assoc]
  exact hparts _ _ _ _ _ _ _

/-- The next block is what stands between the marks. -/
theorem nextParts?_of_search {b b₁ b₂ b₃ rest before first body last : Bytes}
    (hbegin : search (Bytes.ofText "-----BEGIN ") b = some (before, b₁))
    (hfirst : search (Bytes.ofText "-----") b₁ = some (first, b₂))
    (hend : search (Bytes.ofText "-----END ") (skipSpace b₂) = some (body, b₃))
    (hlast : search (Bytes.ofText "-----") b₃ = some (last, rest)) :
    nextParts? b =
      some (⟨first, (splitHeaders body).1, (splitHeaders body).2, last⟩, skipSpace rest) := by
  simp only [nextParts?, Option.bind_eq_bind, hbegin, hfirst, hend, hlast, Option.bind_some]
  rfl

/-- **The next block is the one that was written.** -/
theorem nextParts?_octets {b : Block} (htag : 45 ∉ Bytes.ofText b.tag) (rest : Bytes) :
    nextParts? (b.octets ++ rest) = some (b.parts, skipSpace rest) := by
  have hbegin : (Bytes.ofText "-----BEGIN ").head? = some 45 := by decide
  have hdashes : (Bytes.ofText "-----").head? = some 45 := by decide
  have hend : (Bytes.ofText "-----END ").head? = some 45 := by decide
  have hbody (after : Bytes) : search (Bytes.ofText "-----END ")
      (skipSpace (13 :: 10 :: (Bytes.ofText (String.ofList (written b.contents)) ++
        (Bytes.ofText "-----END " ++ after)))) =
      some (Bytes.ofText (String.ofList (written b.contents)), after) := by
    have hafter : (Bytes.ofText "-----END " ++ after).head? = some 45 := by
      rw [List.head?_append, hend]
      rfl
    rw [skipSpace_lineEnd, skipSpace_written b.contents hafter,
      search_append hend (dash_notMem_written b.contents)]
  have hfirst (after : Bytes) : search (Bytes.ofText "-----BEGIN ")
      (Bytes.ofText "-----BEGIN " ++ after) = some ([], after) :=
    search_append hbegin List.not_mem_nil
  rw [octets_append, nextParts?_of_search (hfirst _) (search_append hdashes htag) (hbody _)
    (search_append hdashes htag), splitHeaders_written]
  rfl

theorem splitOn_empty : "".splitOn "\n" = [""] := by
  have hend : String.Pos.Raw.atEnd "" 0 = true := by decide
  rw [String.splitOn, if_neg (by decide), String.splitOnAux, if_pos hend]
  decide

theorem lines_empty : lines "" = [] := by
  rw [lines, splitOn_empty]
  rfl

/-- **Its parts make the block again.** -/
theorem block_written {b : Block} (htag : b.tag ≠ "") : b.parts.block = .ok b := by
  have htext (s : String) : text (Bytes.ofText s) = .ok s := by rw [text, Bytes.toText?_ofText]
  have hnone : text [] = .ok "" := htext ""
  unfold Parts.block Block.parts
  simp only [htext, hnone, lines_empty, bind, Except.bind, htag, ne_eq, not_true_eq_false, if_false,
    String.toList_ofList, filter_written, Base64.decode?_encode, List.find?_nil]
  rfl

/-! ## 5. Files -/

theorem octets_eq_cons (b : Block) : ∃ rest, b.octets = 45 :: rest := by
  have hbegin : Bytes.ofText "-----BEGIN " = 45 :: Bytes.ofText "----BEGIN " := by decide
  have hoctets := octets_append b []
  rw [List.append_nil, hbegin, List.cons_append] at hoctets
  exact ⟨_, hoctets⟩

theorem skipSpace_octets (blocks : List Block) :
    skipSpace (blocks.flatMap Block.octets) = blocks.flatMap Block.octets := by
  cases blocks with
  | nil => rfl
  | cons b blocks =>
    obtain ⟨rest, hrest⟩ := octets_eq_cons b
    rw [List.flatMap_cons, hrest]
    rfl

theorem readFuel_octets {fuel : Nat} {blocks : List Block} (hfuel : blocks.length ≤ fuel)
    (hblocks : ∀ b ∈ blocks, b.tag ≠ "" ∧ 45 ∉ Bytes.ofText b.tag) :
    readFuel fuel (blocks.flatMap Block.octets) = .ok blocks := by
  induction fuel generalizing blocks with
  | zero =>
    obtain rfl : blocks = [] := List.length_eq_zero_iff.mp (Nat.le_zero.mp hfuel)
    rfl
  | succ fuel ih =>
    cases blocks with
    | nil => rfl
    | cons b blocks =>
      obtain ⟨htag, hdashes⟩ := hblocks b List.mem_cons_self
      have hrest := ih (Nat.le_of_succ_le_succ hfuel)
        fun b hmem => hblocks b (List.mem_cons_of_mem _ hmem)
      rw [List.flatMap_cons, readFuel, nextParts?_octets hdashes]
      simp only [block_written htag, skipSpace_octets, hrest, bind, Except.bind]
      rfl

/-- **A file of blocks is read back, whatever the number of its blocks.** -/
theorem read_octets {blocks : List Block}
    (hblocks : ∀ b ∈ blocks, b.tag ≠ "" ∧ 45 ∉ Bytes.ofText b.tag) :
    read (blocks.flatMap Block.octets) = .ok blocks := by
  refine readFuel_octets ?_ hblocks
  clear hblocks
  induction blocks with
  | nil => exact Nat.le_refl 0
  | cons b blocks ih =>
    obtain ⟨rest, hrest⟩ := octets_eq_cons b
    rw [List.flatMap_cons, hrest, List.length_append, List.length_cons, List.length_cons]
    omega

end Pem

end PeerTrust
