/-!
# Reading documents

A path names a document in a directory, or the place at which it fails to do so. The names of a
path are followed one by one: an empty name and a single dot stay where they are, two dots lead out
of the directory, and any other name has to be that of a document, after which no name may follow.
Nothing is known of what lies outside the directory except that it is made of directories.

## Main definitions

* `SqlRouting.ReadError` — why a document cannot be read.
* `SqlRouting.Directory` — the documents of a directory.
* `SqlRouting.Directory.read` — the document that a path names.
-/

set_option autoImplicit false

namespace SqlRouting

/-! ## Failures -/

/-- Why a document cannot be read. -/
inductive ReadError
  | notFound
  | permissionDenied
  | notADirectory
  | isADirectory
  | nameTooLong
  | notText
  /-- Anything else, in words. -/
  | described (text : String)
deriving DecidableEq, Repr

/-- A failure in words, with its number if the system gives it one. -/
def ReadError.message : ReadError → String
  | .notFound => "No such file or directory (os error 2)"
  | .permissionDenied => "Permission denied (os error 13)"
  | .notADirectory => "Not a directory (os error 20)"
  | .isADirectory => "Is a directory (os error 21)"
  | .nameTooLong => "File name too long (os error 36)"
  | .notText => "stream did not contain valid UTF-8"
  | .described text => text

/-! ## Directories -/

/-- The documents of a directory. It has no directories within. -/
structure Directory where
  /-- The names of the documents and what they hold. -/
  documents : List (String × String) := []
deriving DecidableEq, Repr

namespace Directory

/-- Where the names of a path lead. -/
inductive Place
  | inside
  | outside
  | document (content : String)
deriving DecidableEq, Repr

/-- The most bytes that a name may have. -/
def nameLimit : Nat := 255

/-- The most bytes that a path may have. -/
def pathLimit : Nat := 4095

/-- Where a name leads from a directory, which is this one or lies outside it. -/
def lookup (directory : Directory) (place : Place) (name : String) : Except ReadError Place :=
  if nameLimit < name.utf8ByteSize then .error .nameTooLong
  else match place, directory.documents.lookup name with
    | .inside, some content => .ok (.document content)
    | _, _ => .error .notFound

/-- Where the next name of a path leads. -/
def follow (directory : Directory) : Place → String → Except ReadError Place
  | .document _, _ => .error .notADirectory
  | place, "" => .ok place
  | place, "." => .ok place
  | _, ".." => .ok .outside
  | place, name => directory.lookup place name

/-- The names of a path, in order. -/
def names (path : String) : List String :=
  (path.toList.splitOn '/').map String.ofList

/-- The document that a path names. A path that begins with a slash starts outside. -/
def read (directory : Directory) (path : String) : Except ReadError String := do
  if path.isEmpty then throw .notFound
  if pathLimit < path.utf8ByteSize then throw .nameTooLong
  let start := if path.startsWith "/" then Place.outside else .inside
  match ← (names path).foldlM directory.follow start with
  | .document content => return content
  | _ => throw .isADirectory

end Directory

end SqlRouting
