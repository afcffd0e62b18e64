import Mathlib.Data.List.Nodup
import PeerTrust.Config
import PeerTrust.Proofs.JsonTexts
import PeerTrust.Proofs.Loading
import PeerTrust.Proofs.SealedStores

/-!
# Three ways to configure two stores

The same texts can be given as they are, as properties and in a JSON text.

* `Json.record_of_keeps` takes the members of an object in any order, by what every step keeps;
* `StoreTexts` are the texts of a store, `StoreTexts.config` what they configure and
  `StoreTexts.verbatim` what they configure if an empty password is kept;
* `TrustConfig.GivenBy` and `TrustConfig.WrittenIn` are for properties and for JSON texts that hold
  the texts of two stores, `TrustConfig.jsonText` writes a JSON text for any;
* `TrustConfig.configured_alike` is when the three ways agree. They do not where a password in a JSON
  text is empty: `StoreTexts.loads_alike_iff` tells what comes of it.
-/

namespace PeerTrust

/-! ## 1. Records from objects -/

namespace Json

variable {σ : Type} {shape : Shape σ} {members : List (String × Value)} {start made : σ}
  {seen : List String} {inv : List String → σ → Prop}

/-- A name stands for one value. -/
theorem eq_of_mem (distinct : (members.map Prod.fst).Nodup) {name : String} {v v' : Value}
    (h : (name, v) ∈ members) (h' : (name, v') ∈ members) : v = v' :=
  (Prod.mk.inj (List.inj_on_of_nodup_map distinct h h' rfl)).2

/-- Members are taken one by one, and each step keeps what is said of the fields that are taken and
of the record that is being made. Nothing in the members is malformed. -/
structure Keeps (shape : Shape σ) (members : List (String × Value))
    (inv : List String → σ → Prop) : Prop where
  takes : ∀ {name v required take}, (name, v) ∈ members → (name, required, take) ∈ shape.fields →
    ∀ {seen made}, inv seen made → ∃ made', take v made = .ok made' ∧ inv (name :: seen) made'
  intact : ∀ m ∈ members, m.2.isIntact = true

theorem mem_of_lookup {name : String} {field : Bool × (Value → σ → Except Error σ)}
    (h : shape.fields.lookup name = some field) : (name, field) ∈ shape.fields := by
  obtain ⟨before, after, hfields, -⟩ := List.lookup_eq_some_iff.mp h
  rw [hfields]
  exact List.mem_append_right _ (.head _)

theorem not_mem_of_lookup {name : String} (h : shape.fields.lookup name = none) :
    name ∉ shape.fields.map Prod.fst := by
  intro hmem
  obtain ⟨field, hfield, rfl⟩ := List.mem_map.mp hmem
  simpa using List.lookup_eq_none_iff.mp h field hfield

theorem takeMembers_of_keeps (h : Keeps shape members inv) (distinct : (members.map Prod.fst).Nodup)
    (fresh : ∀ m ∈ members, m.1 ∉ seen) (hinv : inv seen made) :
    ∃ seen' made', takeMembers shape seen made members = .ok (seen', made') ∧ inv seen' made' ∧
      seen ⊆ seen' ∧
      ∀ m ∈ members, m.1 ∈ shape.fields.map Prod.fst → m.1 ∈ seen' := by
  induction members generalizing seen made with
  | nil => exact ⟨seen, made, rfl, hinv, fun _ => id, fun _ hm => absurd hm List.not_mem_nil⟩
  | cons m members ih =>
    obtain ⟨name, v⟩ := m
    obtain ⟨hname, hdistinct⟩ := List.nodup_cons.mp distinct
    have hrest : Keeps shape members inv :=
      ⟨fun hmem => h.takes (.tail _ hmem), fun m hm => h.intact m (.tail _ hm)⟩
    cases hfield : shape.fields.lookup name with
    | none =>
      obtain ⟨seen', made', htaken, hinv', hold, hnew⟩ :=
        ih hrest hdistinct (fun m hm => fresh m (.tail _ hm)) hinv
      refine ⟨seen', made', ?_, hinv', hold, fun m hm hknown => ?_⟩
      · simp only [takeMembers, hfield, h.intact _ (.head _), if_true, htaken]
      · rcases List.mem_cons.mp hm with rfl | hm
        · exact absurd hknown (not_mem_of_lookup hfield)
        · exact hnew m hm hknown
    | some field =>
      obtain ⟨required, take⟩ := field
      obtain ⟨next, htake, hnext⟩ := h.takes (.head _) (mem_of_lookup hfield) hinv
      have hunseen : seen.contains name = false := by simpa using fresh _ (.head _)
      have hfresh : ∀ m ∈ members, m.1 ∉ name :: seen := by
        intro m hm hseen
        rcases List.mem_cons.mp hseen with heq | hseen
        · exact hname (List.mem_map.mpr ⟨m, hm, heq⟩)
        · exact fresh m (.tail _ hm) hseen
      obtain ⟨seen', made', htaken, hinv', hold, hnew⟩ := ih hrest hdistinct hfresh hnext
      refine ⟨seen', made', ?_, hinv', fun _ hm => hold (.tail _ hm), fun m hm hknown => ?_⟩
      · simp only [takeMembers, hfield, hunseen, htake, htaken, bind, Except.bind]
        rfl
      · rcases List.mem_cons.mp hm with rfl | hm
        · exact hold (.head _)
        · exact hnew m hm hknown

/-- **A record is taken from an object whose members it can take, in any order, if no field that must
be there is missing.** -/
theorem record_of_keeps (h : Keeps shape members inv) (distinct : (members.map Prod.fst).Nodup)
    (complete : ∀ field ∈ shape.fields, field.2.1 = true → ∃ v, (field.1, v) ∈ members)
    (hstart : inv [] start) :
    ∃ seen made, record shape start (.object members true) = .ok made ∧ inv seen made ∧
      ∀ m ∈ members, m.1 ∈ shape.fields.map Prod.fst → m.1 ∈ seen := by
  obtain ⟨seen, made, htaken, hmade, -, hseen⟩ :=
    takeMembers_of_keeps h distinct (fun _ _ => List.not_mem_nil) hstart
  have hnone : shape.fields.find? (fun field => field.2.1 && !seen.contains field.1) = none := by
    rw [List.find?_eq_none]
    intro field hfield hmissing
    simp only [Bool.and_eq_true, Bool.not_eq_true', List.contains_eq_mem, decide_eq_false_iff_not]
      at hmissing
    obtain ⟨v, hv⟩ := complete field hfield hmissing.1
    exact hmissing.2 (hseen _ hv (List.mem_map.mpr ⟨field, hfield, rfl⟩))
  refine ⟨seen, made, ?_, hmade, hseen⟩
  simp only [record, htaken, hnone, bind, Except.bind]
  rfl

end Json

/-! ## 2. The texts of a store -/

/-- The texts that say where a store is, how it is opened and of which type it is. -/
structure StoreTexts where
  path : String
  password : Option String
  type : String
deriving DecidableEq, Repr, Inhabited

namespace StoreTexts

variable {t : StoreTexts} {v : Json.Value} {members : List (String × Json.Value)}

/-- The path and the type are more than blanks. -/
structure NotBlank (t : StoreTexts) : Prop where
  path : Text.trim t.path ≠ ""
  type : Text.trim t.type ≠ ""

/-- The store that the texts configure. -/
def config (t : StoreTexts) : StoreConfig := .ofTexts t.path t.password t.type

/-- The store that the texts configure where an empty password counts as a password. -/
def verbatim (t : StoreTexts) : StoreConfig := ⟨t.path, t.password.map .ofText, t.type⟩

theorem config_password_eq_none_iff :
    t.config.password = none ↔ t.password = none ∨ t.password = some "" := by
  cases hpassword : t.password <;> simp [config, StoreConfig.ofTexts, Secret.ofPassword, hpassword]

theorem verbatim_password_eq_none_iff : t.verbatim.password = none ↔ t.password = none := by
  simp [verbatim]

theorem verbatim_eq_config_iff : t.verbatim = t.config ↔ t.password ≠ some "" := by
  constructor
  · intro h hempty
    have hnone : t.verbatim.password = none := by
      rw [h, config_password_eq_none_iff]
      exact .inr hempty
    rw [verbatim_password_eq_none_iff, hempty] at hnone
    cases hnone
  · intro h
    have hkept : t.password.filter (· ≠ "") = t.password := by
      cases hpassword : t.password with
      | none => rfl
      | some p => simpa [hpassword] using h
    simp only [verbatim, config, StoreConfig.ofTexts, Secret.ofPassword, hkept]

/-- Members of an object hold the texts of a store, in any order and with others among them. An
absent password is left out, or null. -/
structure HeldBy (t : StoreTexts) (members : List (String × Json.Value)) : Prop where
  distinct : (members.map Prod.fst).Nodup
  intact : ∀ m ∈ members, m.2.isIntact = true
  path : ("path", .string t.path) ∈ members
  type : ("type", .string t.type) ∈ members
  password : ∀ p, t.password = some p → ("password", .string p) ∈ members
  no_password : t.password = none → ∀ v, ("password", v) ∈ members → v = .null

theorem HeldBy.takes_password (h : t.HeldBy members) (hmem : ("password", v) ∈ members) :
    Json.optional (Json.text "a string") v = .ok t.password := by
  cases hpassword : t.password with
  | none =>
    rw [h.no_password hpassword v hmem]
    rfl
  | some p =>
    rw [Json.eq_of_mem h.distinct hmem (h.password p hpassword)]
    rfl

/-- The fields that are taken hold the texts, the others what they held at the start. -/
def TakenSoFar (t : StoreTexts) (seen : List String) (c : StoreConfig) : Prop :=
  c = ⟨if "path" ∈ seen then t.path else "",
    if "password" ∈ seen then t.password.map .ofText else none,
    if "type" ∈ seen then t.type else ""⟩

theorem HeldBy.keeps (h : t.HeldBy members) :
    Json.Keeps StoreConfig.shape members t.TakenSoFar where
  intact := h.intact
  takes {name v required take} hmem hfield seen made hmade := by
    rw [TakenSoFar] at hmade
    simp only [StoreConfig.shape, List.mem_cons, List.not_mem_nil, or_false] at hfield
    rcases hfield with hfield | hfield | hfield <;> cases hfield
    · rw [Json.eq_of_mem h.distinct hmem h.path]
      exact ⟨{ made with path := t.path }, rfl, by simp [TakenSoFar, hmade]⟩
    · refine ⟨{ made with password := t.password.map .ofText }, ?_, by simp [TakenSoFar, hmade]⟩
      simp only [h.takes_password hmem]
      rfl
    · rw [Json.eq_of_mem h.distinct hmem h.type]
      exact ⟨{ made with type := t.type }, rfl, by simp [TakenSoFar, hmade]⟩

/-- **A store is taken from an object as its texts are, an empty password included.** -/
theorem HeldBy.ofValue_eq (h : t.HeldBy members) :
    StoreConfig.ofValue (.object members true) = .ok t.verbatim := by
  have hcomplete : ∀ field ∈ StoreConfig.shape.fields, field.2.1 = true →
      ∃ v, (field.1, v) ∈ members := by
    intro field hfield hrequired
    simp only [StoreConfig.shape, List.mem_cons, List.not_mem_nil, or_false] at hfield
    rcases hfield with rfl | rfl | rfl
    · exact ⟨_, h.path⟩
    · cases hrequired
    · exact ⟨_, h.type⟩
  have hstart : t.TakenSoFar [] ⟨"", none, ""⟩ := by simp [TakenSoFar]
  obtain ⟨seen, made, hrecord, hmade, hseen⟩ :=
    Json.record_of_keeps h.keeps h.distinct hcomplete hstart
  have hpassword : (if "password" ∈ seen then t.password.map Secret.ofText else none) =
      t.password.map .ofText := by
    split
    · rfl
    · rename_i hunseen
      cases hgiven : t.password with
      | none => rfl
      | some p => exact absurd (hseen _ (h.password p hgiven) (by simp [StoreConfig.shape])) hunseen
  rw [TakenSoFar, if_pos (hseen _ h.path (by simp [StoreConfig.shape])), hpassword,
    if_pos (hseen _ h.type (by simp [StoreConfig.shape]))] at hmade
  rw [StoreConfig.ofValue, hrecord, hmade, verbatim]

end StoreTexts

/-! ## 3. What an empty password does -/

namespace CredentialStore

/-- There is a file of blocks in which nothing is sealed. -/
theorem exists_parse_plain : ∃ content store, parse content = .ok store ∧
    ∀ entry ∈ store.entries, isSealedKey entry = false := by
  have hreads : ReadsAs ([StoreSample.crlBlock].flatMap Pem.Block.octets) [StoreSample.crlBlock] :=
    readsAs_octets (by simp) fun block hblock => by
      rw [List.mem_singleton.mp hblock]
      exact (by decide : "X509 CRL" ≠ "" ∧ 45 ∉ Bytes.ofText "X509 CRL")
  exact ⟨_, ⟨[], [[4, 5]]⟩, hreads.parse_eq (by simp), fun _ hentry => absurd hentry List.not_mem_nil⟩

/-- A store may load with a password and not without, or the other way round: a sealed one is not
opened without a password, and a plain one is refused with one. -/
theorem exists_load_ne {word : String} {type : StoreType} (htype : StoreType.parse? word = some type)
    (role : StoreRole) (path : String) (w : Secret) :
    ∃ files, load role files ⟨path, some w, word⟩ ≠ load role files ⟨path, none, word⟩ := by
  obtain ⟨content, store, hparse, hplain⟩ := exists_parse_plain
  cases type with
  | pem =>
    refine ⟨fun _ => .ok content, ?_⟩
    have hwithout := loadsAs_plain content role (fun _ => .ok content) ⟨path, none, word⟩
      ⟨rfl, htype, rfl⟩
    have hwith : load role (fun _ => .ok content) ⟨path, some w, word⟩ =
        .error (.badFormat role path .pem .nothingSealed) :=
      load_eq_error_iff.mpr (.malformed htype rfl (.needless hparse rfl hplain))
    rw [hwith, hwithout, hparse]
    nofun
  | sealed =>
    have husable : Sealed.Usable 10000 (List.replicate 32 0) (List.replicate 12 0) :=
      ⟨by decide, by decide, List.length_replicate, List.length_replicate⟩
    obtain ⟨s, -, hcontainer⟩ := husable.exists_wrap content w
    refine ⟨fun _ => .ok s, ?_⟩
    have hwith := loadsAs_container hcontainer role (fun _ => .ok s) ⟨path, some w, word⟩
      ⟨rfl, htype, rfl⟩
    have hwithout : load role (fun _ => .ok s) ⟨path, none, word⟩ =
        .error (.badFormat role path .sealed (.notOpened .passwordRequired)) :=
      load_eq_error_iff.mpr (.malformed htype rfl (.closed hcontainer.unwrap_none))
    rw [hwith, hwithout, hparse]
    nofun

end CredentialStore

open CredentialStore in
/-- **Whether an empty password counts matters to loading**, unless the declared type is not supported
at all. -/
theorem StoreTexts.loads_alike_iff {t : StoreTexts} {role : StoreRole} :
    (∀ files, load role files t.verbatim = load role files t.config) ↔
      t.password ≠ some "" ∨ StoreType.parse? t.type = none := by
  constructor
  · intro h
    by_contra hnot
    obtain ⟨hempty, hsupported⟩ := not_or.mp hnot
    obtain ⟨type, htype⟩ := Option.ne_none_iff_exists'.mp hsupported
    obtain ⟨files, hne⟩ := exists_load_ne htype role t.path (.ofText "")
    have hverbatim : t.verbatim = ⟨t.path, some (.ofText ""), t.type⟩ := by
      simp only [verbatim, not_not.mp hempty, Option.map_some]
    have hconfig : t.config = ⟨t.path, none, t.type⟩ := by
      simp only [config, StoreConfig.ofTexts, not_not.mp hempty]
      rfl
    exact hne (by rw [← hverbatim, ← hconfig, h])
  · rintro (hgiven | hunsupported)
    · intro files
      rw [verbatim_eq_config_iff.mpr hgiven]
    · intro files
      have hverbatim : StoreType.parse? t.verbatim.type = none := hunsupported
      have hconfig : StoreType.parse? t.config.type = none := hunsupported
      rw [load_eq_error_iff.mpr (.type hverbatim), load_eq_error_iff.mpr (.type hconfig)]
      rfl

/-- A store that was configured in another way is the one that the texts configure but for an empty
password, and loads alike but for that. -/
structure StoreTexts.Agrees (t : StoreTexts) (c : StoreConfig) : Prop where
  path : c.path = t.path
  type : c.type = t.type
  same : c = t.config ↔ t.password ≠ some ""
  loading : ∀ role, (∀ files, CredentialStore.load role files c =
    CredentialStore.load role files t.config) ↔
      t.password ≠ some "" ∨ StoreType.parse? t.type = none

theorem StoreTexts.agrees (t : StoreTexts) : t.Agrees t.verbatim where
  path := rfl
  type := rfl
  same := verbatim_eq_config_iff
  loading _ := loads_alike_iff

/-! ## 4. Both stores -/

namespace TrustConfig

variable {identity trust : StoreTexts} {members : List (String × Json.Value)}

/-- The configuration from the texts as they are. -/
def ofStores (identity trust : StoreTexts) : TrustConfig :=
  .ofTexts identity.path identity.password identity.type trust.path trust.password trust.type

/-- Properties hold the texts of two stores. -/
structure GivenBy (properties : String → Option String) (identity trust : StoreTexts) : Prop where
  keystore : properties "security.keystore" = some identity.path
  keystorePassword : properties "security.keystorePasswd" = identity.password
  keystoreType : properties "security.keystoreType" = some identity.type
  truststore : properties "security.truststore" = some trust.path
  truststorePassword : properties "security.truststorePasswd" = trust.password
  truststoreType : properties "security.truststoreType" = some trust.type

theorem required_eq_ok {properties : String → Option String} {p : Property} {value : String}
    (h : properties p.key = some value) (hvalue : Text.trim value ≠ "") :
    required properties p = .ok value := by
  have hkept : (some value).filter (Text.trim · ≠ "") = some value := by simp [Option.filter, hvalue]
  simp only [required, h, hkept]

theorem GivenBy.ofProperties_eq {properties : String → Option String}
    (h : GivenBy properties identity trust) (hidentity : identity.NotBlank)
    (htrust : trust.NotBlank) : ofProperties properties = .ok (ofStores identity trust) := by
  simp only [ofProperties, required_eq_ok (p := .keystore) h.keystore hidentity.path,
    required_eq_ok (p := .keystoreType) h.keystoreType hidentity.type,
    required_eq_ok (p := .truststore) h.truststore htrust.path,
    required_eq_ok (p := .truststoreType) h.truststoreType htrust.type,
    h.keystorePassword, h.truststorePassword, bind, Except.bind]
  rfl

/-- Members of an object hold two stores, and no settings of revocation checks. -/
structure HeldBy (identity trust : StoreTexts) (members : List (String × Json.Value)) : Prop where
  distinct : (members.map Prod.fst).Nodup
  intact : ∀ m ∈ members, m.2.isIntact = true
  identity : ∃ ms, identity.HeldBy ms ∧ ("identity", .object ms true) ∈ members
  trust : ∃ ms, trust.HeldBy ms ∧ ("trust", .object ms true) ∈ members
  standard : ∀ v, ("revocation", v) ∉ members

/-- The fields that are taken hold the stores, the others what they held at the start. -/
def TakenSoFar (identity trust : StoreTexts) (seen : List String) (c : TrustConfig) : Prop :=
  c = ⟨if "identity" ∈ seen then identity.verbatim else ⟨"", none, ""⟩,
    if "trust" ∈ seen then trust.verbatim else ⟨"", none, ""⟩, .standard⟩

theorem HeldBy.keeps (h : HeldBy identity trust members) :
    Json.Keeps shape members (TakenSoFar identity trust) where
  intact := h.intact
  takes {name v required take} hmem hfield seen made hmade := by
    obtain ⟨identityMembers, hidentity, hidentityMem⟩ := h.identity
    obtain ⟨trustMembers, htrust, htrustMem⟩ := h.trust
    rw [TakenSoFar] at hmade
    simp only [shape, List.mem_cons, List.not_mem_nil, or_false] at hfield
    rcases hfield with hfield | hfield | hfield <;> cases hfield
    · refine ⟨{ made with identity := identity.verbatim }, ?_, by simp [TakenSoFar, hmade]⟩
      simp only [Json.eq_of_mem h.distinct hmem hidentityMem, hidentity.ofValue_eq]
      rfl
    · refine ⟨{ made with trust := trust.verbatim }, ?_, by simp [TakenSoFar, hmade]⟩
      simp only [Json.eq_of_mem h.distinct hmem htrustMem, htrust.ofValue_eq]
      rfl
    · exact absurd hmem (h.standard v)

/-- A JSON text is an object that holds two stores. -/
def WrittenIn (s : String) (identity trust : StoreTexts) : Prop :=
  ∃ members, Json.read s = (.object members true, true) ∧ HeldBy identity trust members

/-- **The stores of a JSON text are as their texts, an empty password included.** -/
theorem ofJson_eq {s : String} (h : WrittenIn s identity trust) :
    ofJson s = .ok ⟨identity.verbatim, trust.verbatim, .standard⟩ := by
  obtain ⟨members, hread, hheld⟩ := h
  obtain ⟨_, -, hidentity⟩ := hheld.identity
  obtain ⟨_, -, htrust⟩ := hheld.trust
  have hcomplete : ∀ field ∈ shape.fields, field.2.1 = true → ∃ v, (field.1, v) ∈ members := by
    intro field hfield hrequired
    simp only [shape, List.mem_cons, List.not_mem_nil, or_false] at hfield
    rcases hfield with rfl | rfl | rfl
    · exact ⟨_, hidentity⟩
    · exact ⟨_, htrust⟩
    · cases hrequired
  have hstart : TakenSoFar identity trust [] ⟨⟨"", none, ""⟩, ⟨"", none, ""⟩, .standard⟩ := by
    simp [TakenSoFar]
  obtain ⟨seen, made, hrecord, hmade, hseen⟩ :=
    Json.record_of_keeps hheld.keeps hheld.distinct hcomplete hstart
  rw [TakenSoFar, if_pos (hseen _ hidentity (by simp [shape])),
    if_pos (hseen _ htrust (by simp [shape]))] at hmade
  simp only [ofJson, Json.decode, hread, hrecord, hmade, bind, Except.bind]
  rfl

/-! ## 5. JSON texts that are written -/

/-- Members for the texts of a store, each with its signs. -/
def storeMembers (t : StoreTexts) : List (String × List Char × Json.Value) :=
  [("path", Json.quoted t.path, .string t.path),
    ("password", (t.password.map Json.quoted).getD "null".toList,
      (t.password.map Json.Value.string).getD .null),
    ("type", Json.quoted t.type, .string t.type)]

/-- The signs of an object that holds the texts of a store. -/
def storeSigns (t : StoreTexts) : List Char :=
  Json.objectText ((storeMembers t).map fun m => (m.1, m.2.1))

/-- The object that holds the texts of a store. -/
def storeValue (t : StoreTexts) : Json.Value :=
  .object ((storeMembers t).map fun m => (m.1, m.2.2)) true

/-- A JSON text that holds two stores. -/
def jsonText (identity trust : StoreTexts) : String :=
  String.ofList (Json.objectText [("identity", storeSigns identity), ("trust", storeSigns trust)])

theorem writes_store (t : StoreTexts) : Json.Writes (storeSigns t) (storeValue t) := by
  refine Json.writes_object
    (.cons ⟨rfl, Json.writes_quoted _⟩ (.cons ⟨rfl, ?_⟩ (.cons ⟨rfl, Json.writes_quoted _⟩ .nil)))
  cases hpassword : t.password with
  | none => simpa [hpassword] using Json.writes_null
  | some p => simpa [hpassword] using Json.writes_quoted p

theorem heldBy_storeMembers (t : StoreTexts) :
    t.HeldBy ((storeMembers t).map fun m => (m.1, m.2.2)) where
  distinct := by simp [storeMembers]
  intact m hm := by
    simp only [storeMembers, List.map_cons, List.map_nil, List.mem_cons, List.not_mem_nil, or_false]
      at hm
    rcases hm with rfl | rfl | rfl
    · rfl
    · cases t.password <;> rfl
    · rfl
  path := by simp [storeMembers]
  type := by simp [storeMembers]
  password p hp := by simp [storeMembers, hp]
  no_password hnone v hv := by simpa [storeMembers, hnone] using hv

/-- **For any texts there is a JSON text that holds them.** -/
theorem writtenIn_jsonText (identity trust : StoreTexts) :
    WrittenIn (jsonText identity trust) identity trust := by
  have hwrites : List.Forall₂ Json.WritesMember
      [("identity", storeSigns identity), ("trust", storeSigns trust)]
      [("identity", storeValue identity), ("trust", storeValue trust)] :=
    .cons ⟨rfl, writes_store identity⟩ (.cons ⟨rfl, writes_store trust⟩ .nil)
  refine ⟨_, Json.read_of_writes (Json.writes_object hwrites), ?_⟩
  exact {
    distinct := by simp
    intact := by simp [storeValue, Json.Value.isIntact]
    identity := ⟨_, heldBy_storeMembers identity, .head _⟩
    trust := ⟨_, heldBy_storeMembers trust, .tail _ (.head _)⟩
    standard := by simp }

/-! ## 6. Agreement -/

/-- **The three ways to configure two stores agree, but for empty passwords in a JSON text.** Given as
they are or as properties, an empty password is none. -/
theorem configured_alike {identity trust : StoreTexts} (hidentity : identity.NotBlank)
    (htrust : trust.NotBlank) :
    (∀ properties, GivenBy properties identity trust →
      ofProperties properties = .ok (ofStores identity trust)) ∧
    (∀ t ∈ [identity, trust], t.config.password = none ↔ t.password = none ∨ t.password = some "") ∧
    (∃ s, WrittenIn s identity trust) ∧
    ∀ s, WrittenIn s identity trust → ∃ c, ofJson s = .ok c ∧
      identity.Agrees c.identity ∧ trust.Agrees c.trust ∧ c.revocation = .standard ∧
      (c = ofStores identity trust ↔ identity.password ≠ some "" ∧ trust.password ≠ some "") := by
  have hsame : (⟨identity.verbatim, trust.verbatim, .standard⟩ : TrustConfig) =
      ofStores identity trust ↔ identity.password ≠ some "" ∧ trust.password ≠ some "" := by
    rw [← StoreTexts.verbatim_eq_config_iff, ← StoreTexts.verbatim_eq_config_iff]
    constructor
    · intro h
      exact ⟨congrArg TrustConfig.identity h, congrArg TrustConfig.trust h⟩
    · rintro ⟨hidentity, htrust⟩
      rw [hidentity, htrust]
      rfl
  refine ⟨fun _ hgiven => hgiven.ofProperties_eq hidentity htrust,
    fun t _ => StoreTexts.config_password_eq_none_iff, ⟨_, writtenIn_jsonText identity trust⟩,
    fun s hwritten => ⟨_, ofJson_eq hwritten, identity.agrees, trust.agrees, rfl, hsame⟩⟩

theorem configured_alike_sealed : ∃ s c, WrittenIn s ⟨"identity.pem", some "opens", "SEALED"⟩
      ⟨"trust.pem", none, "PEM"⟩ ∧ ofJson s = .ok c ∧
    c = .ofTexts "identity.pem" (some "opens") "SEALED" "trust.pem" none "PEM" := by
  have hidentity : StoreTexts.NotBlank ⟨"identity.pem", some "opens", "SEALED"⟩ :=
    ⟨by decide, by decide⟩
  have htrust : StoreTexts.NotBlank ⟨"trust.pem", none, "PEM"⟩ := ⟨by decide, by decide⟩
  obtain ⟨-, -, ⟨s, hwritten⟩, hjson⟩ := configured_alike hidentity htrust
  obtain ⟨c, hread, -, -, -, hsame⟩ := hjson s hwritten
  exact ⟨s, c, hwritten, hread, hsame.mpr ⟨by decide, by decide⟩⟩

/-- The texts of two stores, the first with an empty password, as properties. -/
def emptyPassword : String → Option String
  | "security.keystore" => some "identity.pem"
  | "security.keystorePasswd" => some ""
  | "security.keystoreType" => some "PEM"
  | "security.truststore" => some "trust.pem"
  | "security.truststoreType" => some "PEM"
  | _ => none

/-- The same texts in JSON. -/
def emptyPasswordJson : String :=
  "\x7b\"identity\":\x7b\"path\":\"identity.pem\",\"password\":\"\",\"type\":\"PEM\"\x7d," ++
    "\"trust\":\x7b\"path\":\"trust.pem\",\"password\":null,\"type\":\"PEM\"\x7d\x7d"

/-- With an empty password, the JSON text has another store than the properties, and there is a file
of which one loads and the other does not. -/
theorem configured_apart : ∃ files,
    ofProperties emptyPassword =
      .ok (.ofTexts "identity.pem" (some "") "PEM" "trust.pem" none "PEM") ∧
    ofProperties emptyPassword = .ok ⟨⟨"identity.pem", none, "PEM"⟩, ⟨"trust.pem", none, "PEM"⟩,
      .standard⟩ ∧
    ofJson emptyPasswordJson = .ok ⟨⟨"identity.pem", some ⟨[]⟩, "PEM"⟩, ⟨"trust.pem", none, "PEM"⟩,
      .standard⟩ ∧
    CredentialStore.load .identity files ⟨"identity.pem", some ⟨[]⟩, "PEM"⟩ ≠
      CredentialStore.load .identity files ⟨"identity.pem", none, "PEM"⟩ := by
  have htype : StoreType.parse? "PEM" = some .pem := rfl
  obtain ⟨files, hne⟩ := CredentialStore.exists_load_ne htype .identity "identity.pem" ⟨[]⟩
  have htext : jsonText ⟨"identity.pem", some "", "PEM"⟩ ⟨"trust.pem", none, "PEM"⟩ =
      emptyPasswordJson := by decide
  refine ⟨files, by decide, by decide, ?_, hne⟩
  rw [← htext, ofJson_eq (writtenIn_jsonText _ _)]
  rfl

end TrustConfig

end PeerTrust
