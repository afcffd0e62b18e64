import PeerTrust.Bytes

/-!
# Files

Stores, certificates and CRLs are read from a directory; all that matters of it is what reading a
path gives.

* `Files` is that function, `FileError` the ways in which reading fails;
* `Files.ofEntries` is a directory of files and empty directories.
-/

namespace PeerTrust

/-- Why a path could not be read. -/
inductive FileError where
  | notFound
  | isDirectory
  | notDirectory
deriving DecidableEq, Repr, Inhabited

/-- The wording of the operating system. -/
def FileError.message : FileError → String
  | notFound => "No such file or directory (os error 2)"
  | isDirectory => "Is a directory (os error 21)"
  | notDirectory => "Not a directory (os error 20)"

/-- What reading a path gives. -/
abbrev Files := String → Except FileError Bytes

namespace Files

/-- What a name in a directory stands for. -/
inductive Entry where
  | file (content : Bytes)
  | directory
deriving DecidableEq, Repr, Inhabited

/-- Reading a path in a directory of files and empty directories. -/
def ofEntries (entries : List (String × Entry)) : Files := fun path =>
  let parts := path.splitOn "/"
  match parts.filter fun part => part ≠ "" ∧ part ≠ "." with
  | [] => if path = "" then .error .notFound else .error .isDirectory
  | name :: deeper =>
    match entries.lookup name with
    | none => .error .notFound
    | some (.file content) =>
      if deeper = [] ∧ parts.getLast? = some name then .ok content else .error .notDirectory
    | some .directory => if deeper = [] then .error .isDirectory else .error .notFound

end Files

end PeerTrust
