import PeerTrust.Json.Value
import PeerTrust.Text.Quoted
import PeerTrust.Url

/-!
# Values that a JSON text should hold

* `Json.Error` is what is wrong with a value, `Json.Error.message` its wording;
* `Json.text`, `Json.natural` and `Json.list` take values of one kind;
* `Json.record` takes a record, whose fields may also stand in an array in their order. Faults are
  reported in the order of the text, and missing fields after all else;
* `Json.decode` takes a whole text.
-/

namespace PeerTrust.Json

/-- What is wrong with a value. -/
inductive Error where
  /-- The text is not JSON. -/
  | malformed
  | wrongType (found expected : String)
  | wrongValue (found : Int) (expected : String)
  | wrongLength (found : Nat) (expected : String)
  | missing (field : String)
  | duplicate (field : String)
  | url (cause : UrlError) (text : String)
deriving DecidableEq, Repr, Inhabited

/-- The wording of an error. -/
def Error.message : Error → String
  | malformed => "malformed text"
  | wrongType found expected => s!"invalid type: {found}, expected {expected}"
  | wrongValue found expected => s!"invalid value: integer \x60{found}\x60, expected {expected}"
  | wrongLength found expected => s!"invalid length {found}, expected {expected}"
  | missing field => s!"missing field \x60{field}\x60"
  | duplicate field => s!"duplicate field \x60{field}\x60"
  | url cause text => s!"{cause.message}: {Text.quote text}"

/-- What a number is, in messages. -/
def Number.describe : Number → String
  | whole n => s!"integer \x60{n}\x60"
  | fraction negative x =>
    let sign := if negative then "-" else ""
    s!"floating point \x60{sign}{x.toText}\x60"

/-- What a value is, in messages. -/
def Value.describe : Value → String
  | null => "null"
  | bool b => s!"boolean \x60{b}\x60"
  | number n => n.describe
  | string s => s!"string {Text.quote s}"
  | array _ _ => "sequence"
  | object _ _ => "map"
  | unusable | malformed => "nothing"

/-- The error for a value that is not of the kind expected. -/
def mismatch (v : Value) (expected : String) : Error :=
  match v with
  | .unusable | .malformed => .malformed
  | _ => .wrongType v.describe expected

/-! ## 1. Values of one kind -/

/-- A text. -/
def text (expected : String) : Value → Except Error String
  | .string s => .ok s
  | v => .error (mismatch v expected)

/-- A number without sign of at most 64 bits. -/
def natural (expected : String) : Value → Except Error Nat
  | .number (.whole (.ofNat n)) => .ok n
  | .number (.whole n) => .error (.wrongValue n expected)
  | v => .error (mismatch v expected)

/-- A value, or nothing where it is null. -/
def optional {α : Type} (take : Value → Except Error α) : Value → Except Error (Option α)
  | .null => .ok none
  | v => some <$> take v

/-- A list of values. -/
def list {α : Type} (take : Value → Except Error α) : Value → Except Error (List α)
  | .array items closed => do
    let taken ← items.mapM take
    if closed then return taken else throw .malformed
  | v => .error (mismatch v "a sequence")

/-- A URL. -/
def url (v : Value) : Except Error Url := do
  let s ← text "a string representing an URL" v
  match Url.parse s with
  | .ok u => return u
  | .error e => throw (.url e s)

/-! ## 2. Records -/

/-- How a record is taken: its fields in order, each with whether it must be there and what it does
to a record that is being made. -/
structure Shape (σ : Type) where
  name : String
  fields : List (String × Bool × (Value → σ → Except Error σ))

/-- The words for a shape, in messages. -/
def Shape.describe {σ : Type} (s : Shape σ) : String := s!"struct {s.name}"

/-- Takes members in the order of the text; `seen` are the fields taken already. -/
def takeMembers {σ : Type} (shape : Shape σ) : (seen : List String) → σ → List (String × Value) →
    Except Error (List String × σ)
  | seen, made, [] => .ok (seen, made)
  | seen, made, (name, v) :: rest =>
    match shape.fields.lookup name with
    | none => if v.isIntact then takeMembers shape seen made rest else .error .malformed
    | some (_, take) => do
      if seen.contains name then throw (.duplicate name)
      takeMembers shape (name :: seen) (← take v made) rest

/-- Takes items in the order of the fields; `i` counts the fields passed. -/
def takeItems {σ : Type} (shape : Shape σ) (closed : Bool) : (i : Nat) → σ →
    List (String × Bool × (Value → σ → Except Error σ)) → List Value → Except Error σ
  | _, made, [], items => if closed ∧ items = [] then .ok made else .error .malformed
  | i, made, (_, _, take) :: fields, v :: items => do
    takeItems shape closed (i + 1) (← take v made) fields items
  | i, made, (_, required, _) :: fields, [] =>
    if !closed then .error .malformed
    else if required then
      .error (.wrongLength i s!"{shape.describe} with {shape.fields.length} elements")
    else takeItems shape closed (i + 1) made fields []

/-- Takes a record, beginning with what holds where a field is absent. -/
def record {σ : Type} (shape : Shape σ) (start : σ) : Value → Except Error σ
  | .object members closed => do
    let (seen, made) ← takeMembers shape [] start members
    if !closed then throw .malformed
    match shape.fields.find? fun (name, required, _) => required && !seen.contains name with
    | some (name, _) => throw (.missing name)
    | none => return made
  | .array items closed => takeItems shape closed 0 start shape.fields items
  | v => .error (mismatch v shape.describe)

/-- Takes a whole text. -/
def decode {α : Type} (take : Value → Except Error α) (s : String) : Except Error α := do
  let (v, complete) := read s
  let taken ← take v
  if complete then return taken else throw .malformed

end PeerTrust.Json
