import PeerTrust.Proofs.CrlFiles
import PeerTrust.Proofs.Path

/-!
# Which paths are found

The walk takes the first certificate that may be the issuer and does not come back.

* `Path.subperm_readable`: certificates at positions of their own are among the readable ones, none
  more often than it is there;
* `Path.Ascends` is what is left of a path above a certificate; `Path.exists_rest`: a path is left
  if another certificate is taken from which the walk goes on alike;
* `Path.exists_climbs`: so the walk arrives, and `Path.exists_build_of_isPath`: a path is found if
  there is one. A certificate that takes the place of an expired one of the same issuer does no
  harm; `Path.cross_certificate_first`: one by another issuer does.
-/

namespace PeerTrust

open X509.Strict (encodeSequence)

namespace Path

/-! ## 1. Positions -/

/-- The certificate at a position, if there is a readable one. -/
def readAt? (ders : List Bytes) (i : Nat) : Option Certificate :=
  ders[i]?.bind fun der => (Certificate.ofDer der).toOption

theorem readAt?_eq_some_iff {ders : List Bytes} {i : Nat} {c : Certificate} :
    readAt? ders i = some c ↔ PresentedAt ders i c := by
  have hread (der : Bytes) :
      (Certificate.ofDer der).toOption = some c ↔ Certificate.ofDer der = .ok c := by
    cases Certificate.ofDer der <;> simp [Except.toOption]
  simp only [readAt?, Option.bind_eq_some_iff, hread, PresentedAt]

theorem readable_eq (ders : List Bytes) :
    readable ders = (List.range ders.length).filterMap (readAt? ders) := by
  induction ders with
  | nil => rfl
  | cons der ders ih =>
    have hlater : (readAt? (der :: ders)) ∘ Nat.succ = readAt? ders := rfl
    have hfirst : readAt? (der :: ders) 0 = (Certificate.ofDer der).toOption := rfl
    rw [List.length_cons, List.range_succ_eq_map, List.filterMap_cons, List.filterMap_map, hlater,
      hfirst, ← ih]
    rfl

/-- Where all certificates can be read, all are there in their order. -/
theorem readable_of_forall₂ {ders : List Bytes} {cs : List Certificate}
    (h : ders.Forall₂ (fun der c => Certificate.ofDer der = .ok c) cs) : readable ders = cs := by
  induction h with
  | nil => rfl
  | cons hread _ ih =>
    rw [readable, List.filterMap_cons, hread]
    exact congrArg _ ih

/-- **What is presented at positions of its own is readable as often.** -/
theorem subperm_readable {ders : List Bytes} {positions : List Nat}
    {certificates : List Certificate}
    (hnodup : positions.Nodup) (hat : List.Forall₂ (PresentedAt ders) positions certificates) :
    certificates.Subperm (readable ders) := by
  have hmap : positions.map (readAt? ders) = certificates.map some := by
    clear hnodup
    induction hat with
    | nil => rfl
    | cons hfirst _ ih => rw [List.map_cons, List.map_cons, readAt?_eq_some_iff.mpr hfirst, ih]
  have hread : positions.filterMap (readAt? ders) = certificates := by
    calc positions.filterMap (readAt? ders)
        = (positions.map (readAt? ders)).filterMap id := by rw [List.filterMap_map]; rfl
      _ = (certificates.map some).filterMap id := by rw [hmap]
      _ = certificates := by simp
  have hrange : positions ⊆ List.range ders.length := by
    intro i hi
    have hmem : readAt? ders i ∈ certificates.map some := hmap ▸ List.mem_map_of_mem hi
    obtain ⟨c, -, hc⟩ := List.mem_map.mp hmem
    obtain ⟨der, hder, -⟩ := readAt?_eq_some_iff.mp hc.symm
    exact List.mem_range.mpr (List.getElem?_eq_some_iff.mp hder).1
  obtain ⟨ordered, hperm, hsub⟩ := hnodup.subperm hrange
  rw [← hread, readable_eq]
  exact ⟨_, hperm.filterMap _, hsub.filterMap _⟩

/-! ## 2. The walk along a path -/

theorem exists_take? {α : Type} {p : α → Bool} {xs : List α} {x : α} (hx : x ∈ xs)
    (hp : p x = true) : ∃ y others, take? p xs = some (y, others) := by
  have hfind : (xs.find? p).isSome := List.find?_isSome.mpr ⟨x, hx, hp⟩
  have hindex : (xs.findIdx? p).isSome := by
    rw [List.findIdx?_isSome]
    exact List.any_eq_true.mpr ⟨x, hx, hp⟩
  obtain ⟨y, hy⟩ := Option.isSome_iff_exists.mp hfind
  obtain ⟨i, hi⟩ := Option.isSome_iff_exists.mp hindex
  exact ⟨y, swapRemove xs i, by rw [take?, hi, hy]⟩

theorem take?_cons {α : Type} {p : α → Bool} {x : α} (xs : List α) (hp : p x = true) :
    take? p (x :: xs) = some (x, swapRemove (x :: xs) 0) := by
  rw [take?, List.findIdx?_cons, List.find?_cons_of_pos hp, hp]
  rfl

theorem take?_eq_none {α : Type} {p : α → Bool} {xs : List α} (hp : ∀ x ∈ xs, p x = false) :
    take? p xs = none := by
  rw [take?, List.findIdx?_eq_none_iff.mpr hp]

/-- Of an issuer, its name, its key and what that is for matter, so that any certificate of it will
do. -/
theorem isIssuedBy_congr {c x y : Certificate} (hsubject : x.subject = y.subject)
    (hkey : x.publicKey.key = y.publicKey.key)
    (hscheme : c.signatureAlgorithm.scheme? x.publicKey.algorithm =
      c.signatureAlgorithm.scheme? y.publicKey.algorithm) : c.isIssuedBy x = c.isIssuedBy y := by
  simp only [Certificate.isIssuedBy, X509.PublicKey.verify, hsubject, hkey, hscheme]

/-- One of another name is not the issuer. -/
theorem isIssuedBy_of_foreign {c x : Certificate} (h : c.issuer ≠ x.subject) :
    c.isIssuedBy x = false := by
  rw [Certificate.isIssuedBy, decide_eq_false h, Bool.false_and]

/-- So the walk does not arrive where no anchor has the name of the issuer. -/
theorem find?_of_foreign {c : Certificate} {anchors : List Certificate}
    (h : ∀ anchor ∈ anchors, c.issuer ≠ anchor.subject) : anchors.find? c.isIssuedBy = none := by
  refine List.find?_eq_none.mpr fun anchor hanchor => ?_
  rw [isIssuedBy_of_foreign (h anchor hanchor)]
  exact Bool.false_ne_true

/-- From two certificates a walk goes on alike: either it arrives from both, or those of the pool
that may be the issuer are the same. -/
structure GoesOnAlike (pool anchors : List Certificate) (x y : Certificate) : Prop where
  anchored : (∃ anchor ∈ anchors, x.IssuedBy anchor) ↔ ∃ anchor ∈ anchors, y.IssuedBy anchor
  issued : (∀ anchor ∈ anchors, ¬ x.IssuedBy anchor) →
    ∀ z ∈ pool, x.IssuedBy z ↔ y.IssuedBy z

theorem GoesOnAlike.refl (pool anchors : List Certificate) (x : Certificate) :
    GoesOnAlike pool anchors x x := ⟨Iff.rfl, fun _ _ _ => Iff.rfl⟩

/-- Whichever of a pool may be the issuer of a certificate, the walk goes on from it alike. -/
def IssuersAgree (pool anchors : List Certificate) (c : Certificate) : Prop :=
  ∀ x ∈ pool, ∀ y ∈ pool, c.IssuedBy x → c.IssuedBy y → GoesOnAlike pool anchors x y

/-- What is left of a path, from a certificate to an anchor. -/
inductive Ascends (anchors : List Certificate) : Certificate → List Certificate → Prop where
  | last {c anchor : Certificate} (trusted : anchor ∈ anchors) (issued : c.IssuedBy anchor) :
      Ascends anchors c []
  | next {c issuer : Certificate} {above : List Certificate} (issued : c.IssuedBy issuer)
      (rest : Ascends anchors issuer above) : Ascends anchors c (issuer :: above)

variable {anchors : List Certificate}

theorem Ascends.suffix {c x : Certificate} {before after : List Certificate}
    (h : Ascends anchors c (before ++ x :: after)) : Ascends anchors x after := by
  induction before generalizing c with
  | nil =>
    cases h with
    | next _ rest => exact rest
  | cons y before ih =>
    cases h with
    | next _ rest => exact ih rest

/-- Whichever issuer is taken, a path is left from there over what is left of the pool. -/
theorem exists_rest {all pool others above : List Certificate} {taken issuer : Certificate}
    (hpath : Ascends anchors issuer above) (hpool : (issuer :: above).Subperm pool)
    (hperm : (taken :: others).Perm pool) (halike : GoesOnAlike all anchors taken issuer) :
    ∃ next rest, Ascends anchors next rest ∧ GoesOnAlike all anchors taken next ∧
      rest.Subperm others ∧ next :: rest ⊆ issuer :: above ∧ rest.length ≤ above.length := by
  have habove : above.Subperm (taken :: others) :=
    ((List.sublist_cons_self issuer above).subperm.trans hpool).trans hperm.symm.subperm
  by_cases hmem : taken ∈ above
  · -- the path comes to it later, and may as well go on from there at once
    obtain ⟨before, after, rfl⟩ := List.append_of_mem hmem
    have hothers : (before ++ after).Subperm others :=
      (List.subperm_cons taken).mp (List.perm_middle.symm.subperm.trans habove)
    refine ⟨taken, after, hpath.suffix, .refl _ _ _,
      (List.sublist_append_right before after).subperm.trans hothers, ?_, by simp; omega⟩
    intro c hc
    exact List.mem_cons_of_mem issuer (List.mem_append_right before hc)
  · have hothers := habove.erase taken
    rw [List.erase_of_not_mem hmem, List.erase_cons_head] at hothers
    exact ⟨issuer, above, hpath, halike, hothers, List.Subset.refl _, Nat.le_refl _⟩

/-- **A walk arrives if a path is left**, from the current certificate or from one that goes on
alike, where issuers agree along the path. -/
theorem exists_climbs {all pool above : List Certificate} {current c : Certificate}
    (hpath : Ascends anchors c above) (hpool : above.Subperm pool) (hall : pool ⊆ all)
    (halike : GoesOnAlike all anchors current c)
    (hagree : ∀ c' ∈ c :: above, (∀ anchor ∈ anchors, ¬ c'.IssuedBy anchor) →
      IssuersAgree all anchors c') :
    ∃ links, Climbs anchors current pool links ∧ links.length ≤ above.length + 1 := by
  induction hlength : above.length using Nat.strong_induction_on
    generalizing above pool current c with
  | _ n ih =>
  cases hfind : anchors.find? current.isIssuedBy with
  | some found => exact ⟨_, .arrive hfind, by simp⟩
  | none =>
    have hcurrent : ∀ anchor ∈ anchors, ¬ current.IssuedBy anchor := by
      simpa only [Certificate.isIssuedBy_iff] using List.find?_eq_none.mp hfind
    have hc : ¬ ∃ anchor ∈ anchors, c.IssuedBy anchor := by
      rw [← halike.anchored]
      rintro ⟨anchor, hanchor, hissued⟩
      exact hcurrent anchor hanchor hissued
    cases hpath with
    | last trusted issued => exact absurd ⟨_, trusted, issued⟩ hc
    | @next c issuer above issued rest =>
      have hissuer : issuer ∈ pool := hpool.subset List.mem_cons_self
      have hissued : current.IssuedBy issuer :=
        (halike.issued hcurrent issuer (hall hissuer)).mpr issued
      obtain ⟨taken, others, htake⟩ :=
        exists_take? hissuer (Certificate.isIssuedBy_iff.mpr hissued)
      obtain ⟨htaken, hperm⟩ := take?_eq_some htake
      have hmem : taken ∈ pool := hperm.subset List.mem_cons_self
      rw [Certificate.isIssuedBy_iff, halike.issued hcurrent taken (hall hmem)] at htaken
      have hsame : GoesOnAlike all anchors taken issuer :=
        hagree c List.mem_cons_self (fun anchor hanchor h => hc ⟨anchor, hanchor, h⟩) taken
          (hall hmem) issuer (hall hissuer) htaken issued
      obtain ⟨next, rest', hpath', halike', hothers, hsub, hshort⟩ :=
        exists_rest rest hpool hperm hsame
      have hall' : others ⊆ all := fun x hx => hall (hperm.subset (List.mem_cons_of_mem _ hx))
      rw [List.length_cons] at hlength
      obtain ⟨links, hclimbs, hlinks⟩ := ih rest'.length (by omega) hpath' hothers hall' halike'
        (fun c' hc' => hagree c' (List.mem_cons_of_mem c (hsub hc'))) rfl
      exact ⟨_, .climb hfind htake hclimbs, by rw [List.length_cons]; omega⟩

/-- It goes no further than a certificate that no one issued, -/
theorem walk_of_stuck {room : Nat} {current : Certificate} {pool : List Certificate}
    (hbelow : anchors.find? current.isIssuedBy = none)
    (hnone : take? current.isIssuedBy pool = none) :
    walk anchors (room + 1) current pool = .error (.noIssuer current.displayName) := by
  rw [walk, hbelow, hnone]

/-- and does not come back from there. -/
theorem walk_of_taken {room : Nat} {current issuer : Certificate} {pool others : List Certificate}
    {e : PathError} (hbelow : anchors.find? current.isIssuedBy = none)
    (htake : take? current.isIssuedBy pool = some (issuer, others))
    (herror : walk anchors room issuer others = .error e) :
    walk anchors (room + 1) current pool = .error e := by
  rw [walk, hbelow, htake]
  simp only [herror]
  rfl

/-! ## 3. Paths -/

/-- The links of a path ascend from the first certificate to an anchor. -/
theorem ascends_of_linked {link : Link} {rest : List Link}
    (issued : ∀ link' ∈ link :: rest, link'.certificate.IssuedBy link'.issuer)
    (linked : (link :: rest).IsChain fun link' next => link'.issuer = next.certificate)
    (anchored : ∃ last, (link :: rest).getLast? = some last ∧ last.issuer ∈ anchors) :
    Ascends anchors link.certificate (rest.map (·.certificate)) := by
  have hissued : link.certificate.IssuedBy link.issuer := issued link List.mem_cons_self
  induction rest generalizing link with
  | nil =>
    obtain ⟨last, hlast, htrusted⟩ := anchored
    cases hlast
    exact .last htrusted hissued
  | cons next rest ih =>
    obtain ⟨hnext, hrest⟩ := List.isChain_cons_cons.mp linked
    rw [List.getLast?_cons_cons] at anchored
    have hlater : ∀ link' ∈ next :: rest, link'.certificate.IssuedBy link'.issuer :=
      fun link' hlink' => issued link' (List.mem_cons_of_mem link hlink')
    have hby : link.certificate.IssuedBy next.certificate := hnext ▸ hissued
    exact .next hby (ih hlater hrest anchored (hlater next List.mem_cons_self))

/-- **If there is a path, one is found**, where the walk goes on alike from all presented
certificates that may be the issuer of a certificate on it. Certificates that an anchor issued do
not matter. -/
theorem exists_build_of_isPath {endEntity : Bytes} {intermediates : List Bytes} {links : List Link}
    (hpath : IsPath endEntity intermediates anchors links)
    (hagree : ∀ link ∈ links, (∀ anchor ∈ anchors, ¬ link.certificate.IssuedBy anchor) →
      IssuersAgree (readable intermediates) anchors link.certificate) :
    ∃ found, build endEntity intermediates anchors = .ok found := by
  obtain ⟨link, rest, rfl, hread⟩ := hpath.first
  obtain ⟨positions, hnodup, hat⟩ := hpath.presented
  have hascends := ascends_of_linked hpath.issued hpath.linked hpath.anchored
  have halong : ∀ c ∈ link.certificate :: rest.map (·.certificate),
      (∀ anchor ∈ anchors, ¬ c.IssuedBy anchor) →
        IssuersAgree (readable intermediates) anchors c := by
    intro c hc
    obtain ⟨link', hlink', rfl⟩ : ∃ link' ∈ link :: rest, link'.certificate = c :=
      List.mem_map.mp (by simpa using hc)
    exact hagree link' hlink'
  obtain ⟨found, hclimbs, hlength⟩ := exists_climbs hascends (subperm_readable hnodup hat)
    (List.Subset.refl _) (.refl _ _ _) halong
  have hshort : found.length ≤ maxLength := by
    rw [List.length_map] at hlength
    exact Nat.le_trans hlength hpath.short
  refine ⟨found, ?_⟩
  rw [build, hread]
  exact walk_eq_ok_iff.mpr ⟨hclimbs, hshort⟩

end Path

/-! ## 4. An issuer with two certificates -/

namespace PathSample

open AnswerSample (named root)
open CrlSample (algorithm signature octets)

/-- A point of P-256. -/
def point (x y : Nat) : Bytes := 4 :: (Bytes.ofNat 32 x ++ Bytes.ofNat 32 y)

/-- The extensions of a certificate whose subject issues certificates. -/
def authority : Bytes :=
  Der.encode (Der.tagExplicit 3) (encodeSequence [encodeSequence
    [Der.encode Der.tagOid Oid.basicConstraints.octets, Der.encode 1 [255],
      Der.encode Der.tagOctets (encodeSequence [Der.encode 1 [255]])]])

/-- What a certificate states, from the year 2020 to 2040. -/
def stated (serial : UInt8) (issuer subject : String) (key : Bytes) (isCa : Bool) : Bytes :=
  encodeSequence ([Der.encode (Der.tagExplicit 0) (Der.encodeNatural 2),
    Der.encode Der.tagInteger [serial], algorithm, named issuer,
    encodeSequence [Der.encode Der.tagUtcTime (Bytes.ofText "200101000000Z"),
      Der.encode Der.tagUtcTime (Bytes.ofText "400101000000Z")],
    named subject,
    encodeSequence [encodeSequence [Der.encode Der.tagOid Oid.ecPublicKey.octets,
      Der.encode Der.tagOid Oid.curveP256.octets], Der.encode Der.tagBits (0 :: key)]] ++
    if isCa then [authority] else [])

/-- The certificate with a signature. -/
def certificate (serial : UInt8) (issuer subject : String) (key : Bytes) (isCa : Bool)
    (signature : Bytes) : Certificate where
  der := octets (stated serial issuer subject key isCa) signature
  subject := named subject
  issuer := named issuer
  serial := [serial]
  commonName := some subject
  publicKey := ⟨⟨Oid.ecPublicKey, some ⟨.universal, false, 6, Oid.curveP256.octets,
    Der.encode Der.tagOid Oid.curveP256.octets⟩⟩, key⟩
  responderUrls := []
  crlUrls := []
  isCa := isCa
  signsOcsp := false
  notAfter := 2208988800
  signed := stated serial issuer subject key isCa
  signatureAlgorithm := ⟨Oid.ecdsaWithSha256, none⟩
  signature := signature

/-- The key of an issuer below the root. -/
def midKey : Bytes :=
  point 0x6e4a7adfa9734b951903738ee959da7944a5c8cf971ec4845d08361ce7f21c07
    0x9f7dbde0737332b28075ea816b1a30e9c76959810f9a7107a69d25077cb5f969

/-- Its certificate by the root. -/
def mid : Certificate :=
  certificate 2 "root" "mid" midKey true
    (signature 0x8a610e30dbde59e7f6ada50b6084d5e544ef4870ce074749031447a0969bfabc
      0x40dcb69f8efa99fc7620400f10cc3b172e81524904cf3a444e1ce50153b14f03)

/-- A later certificate of it by the root. -/
def renewed : Certificate :=
  certificate 4 "root" "mid" midKey true
    (signature 0x4bec256d379338cb655abc31ebe13ff9fc3abcaa22a508a8e1b1b8ea667fac5e
      0x1dec7c5198d91af61e562ac19556bfe7e019949addb64dbb9f80724dfb9ef76f)

/-- Its certificate by another root, which is not trusted. -/
def cross : Certificate :=
  certificate 3 "old" "mid" midKey true
    (signature 0x884890d53561051c894b628208040e5ad7d84cdd906c34538899506fbe4cee7c
      0x96f09fffea9a5de7cd6249a996425daef8cb8bbd83d3121ef58bf11e29bc5b16)

/-- A certificate that it issued. -/
def leaf : Certificate :=
  certificate 5 "mid" "alice"
    (point 0xaf834b0bfd4c7a4ab0fccf55bfb375bf907f4c9f7a39256555658da9dcd23c3a
      0x1abdc88b6952b0bfcf695ac9ac2f948edc718db8556dc2d299823224d45c15bb)
    false
    (signature 0x48baa2d9e874786e6f91ff2c606d206fce4b06ec5c6eb480da416715df23ad82
      0x9c10797209d60088c87bb3724432de814a0d1bc82f86ea14433ae42145f99d90)

theorem ofDer_leaf : Certificate.ofDer leaf.der = .ok leaf := by decide +kernel

theorem ofDer_mid : Certificate.ofDer mid.der = .ok mid := by decide +kernel

theorem ofDer_renewed : Certificate.ofDer renewed.der = .ok renewed := by decide +kernel

theorem ofDer_cross : Certificate.ofDer cross.der = .ok cross := by decide +kernel

theorem leaf_issued : leaf.isIssuedBy mid = true := by decide +kernel

theorem mid_issued : mid.isIssuedBy root = true := by decide +kernel

theorem renewed_issued : renewed.IssuedBy root :=
  Certificate.isIssuedBy_iff.mp (by decide +kernel)

theorem leaf_issued_cross : leaf.isIssuedBy cross = true :=
  (Path.isIssuedBy_congr rfl rfl rfl : leaf.isIssuedBy cross = leaf.isIssuedBy mid).trans leaf_issued

/-- The path from the one to the root, wherever the other is presented. -/
theorem isPath {intermediates : List Bytes} {i : Nat} (hat : intermediates[i]? = some mid.der) :
    Path.IsPath leaf.der intermediates [root] [⟨leaf, mid⟩, ⟨mid, root⟩] where
  first := ⟨_, _, rfl, ofDer_leaf⟩
  short := by decide
  presented := ⟨[i], List.nodup_singleton i, .cons ⟨_, hat, ofDer_mid⟩ .nil⟩
  issued := by
    intro link hlink
    rcases List.mem_pair.mp hlink with rfl | rfl
    · exact Certificate.isIssuedBy_iff.mp leaf_issued
    · exact Certificate.isIssuedBy_iff.mp mid_issued
  linked := .cons_cons rfl (.singleton _)
  anchored := ⟨_, rfl, List.mem_singleton_self root⟩

/-- It is found below any anchor that issued the one certificate and not the other, if the one can
be read before all others. -/
theorem build_below {anchor : Certificate} {ders : List Bytes} {others : List Certificate}
    (hforeign : leaf.issuer ≠ anchor.subject) (hissued : mid.isIssuedBy anchor = true)
    (hreadable : Path.readable ders = mid :: others) :
    Path.build leaf.der ders [anchor] = .ok [⟨leaf, mid⟩, ⟨mid, anchor⟩] := by
  have hbelow : [anchor].find? leaf.isIssuedBy = none :=
    Path.find?_of_foreign (List.forall_mem_singleton.mpr hforeign)
  have harrive : [anchor].find? mid.isIssuedBy = some anchor := List.find?_cons_of_pos hissued
  have hshort : 2 ≤ Path.maxLength := by decide
  rw [Path.build, ofDer_leaf, hreadable]
  exact Path.walk_eq_ok_iff.mpr
    ⟨.climb hbelow (Path.take?_cons others leaf_issued) (.arrive harrive), hshort⟩

end PathSample

open AnswerSample (root) in
open PathSample in
theorem Path.found_beside_renewed :
    IsPath leaf.der [renewed.der, mid.der] [root] [⟨leaf, mid⟩, ⟨mid, root⟩] ∧
      ∃ found, build leaf.der [renewed.der, mid.der] [root] = .ok found := by
  have hpath : IsPath leaf.der [renewed.der, mid.der] [root] [⟨leaf, mid⟩, ⟨mid, root⟩] :=
    PathSample.isPath (i := 1) rfl
  have hreadable : readable [renewed.der, mid.der] = [renewed, mid] :=
    readable_of_forall₂ (.cons ofDer_renewed (.cons ofDer_mid .nil))
  -- the root issued both certificates of the issuer
  have hanchored : ∀ x ∈ [renewed, mid], x.IssuedBy root := by
    intro x hx
    rcases List.mem_pair.mp hx with rfl | rfl
    · exact renewed_issued
    · exact Certificate.isIssuedBy_iff.mp mid_issued
  refine ⟨hpath, exists_build_of_isPath hpath fun link _ _ x hx y hy _ _ => ?_⟩
  rw [hreadable] at hx hy
  have hx := hanchored x hx
  have hy := hanchored y hy
  exact ⟨by simp [hx, hy], by simp [hx]⟩

open AnswerSample (root) in
open PathSample in
theorem Path.cross_certificate_first :
    IsPath leaf.der [cross.der, mid.der] [root] [⟨leaf, mid⟩, ⟨mid, root⟩] ∧
      cross.subject = mid.subject ∧ cross.publicKey = mid.publicKey ∧
      build leaf.der [cross.der, mid.der] [root] = .error (.noIssuer "mid") ∧
      build leaf.der [mid.der, cross.der] [root] = .ok [⟨leaf, mid⟩, ⟨mid, root⟩] := by
  -- the root issued the one certificate only, and the issuer did not issue its other one
  have hself : cross.isIssuedBy mid = false := isIssuedBy_of_foreign (by decide)
  have hbelow : [root].find? leaf.isIssuedBy = none := find?_of_foreign (by decide)
  refine ⟨PathSample.isPath (i := 1) rfl, rfl, rfl, ?_, ?_⟩
  · have hreadable : readable [cross.der, mid.der] = [cross, mid] :=
      readable_of_forall₂ (.cons ofDer_cross (.cons ofDer_mid .nil))
    have hbelow' : [root].find? cross.isIssuedBy = none := find?_of_foreign (by decide)
    have hnone : take? cross.isIssuedBy [mid] = none := take?_eq_none (by simp [hself])
    rw [build, ofDer_leaf, hreadable]
    exact walk_of_taken hbelow (take?_cons [mid] leaf_issued_cross) (walk_of_stuck hbelow' hnone)
  · have hreadable : readable [mid.der, cross.der] = [mid, cross] :=
      readable_of_forall₂ (.cons ofDer_mid (.cons ofDer_cross .nil))
    exact build_below (by decide) mid_issued hreadable

end PeerTrust
