/-!
# Files

What the program finds at a path. A tree of files says it for every path: one walks from directory
to directory along the words between the slashes.
-/

namespace Flowscript.CommandLine

/-- A file as the program finds it. -/
inductive File where
  /-- It can be read to its end. -/
  | bytes (content : List UInt8)
  /-- It can be opened and not be read. -/
  | unreadable (message : String)
  /-- It cannot be opened. -/
  | unopenable (message : String)

/-- A cause for which there is nothing to read at a path. -/
inductive PathError where
  | missing
  | forbidden
  | notDirectory
  | isDirectory
  | nameTooLong
deriving DecidableEq

/-- The wording of a cause. -/
def PathError.message : PathError → String
  | .missing => "No such file or directory (os error 2)"
  | .forbidden => "Permission denied (os error 13)"
  | .notDirectory => "Not a directory (os error 20)"
  | .isDirectory => "Is a directory (os error 21)"
  | .nameTooLong => "File name too long (os error 36)"

/-- The file for a cause: a directory can be opened, all else cannot. -/
def PathError.file (cause : PathError) : File :=
  if cause = .isDirectory then .unreadable cause.message else .unopenable cause.message

/-- A place in a tree: the names on the way to it from the root. -/
abbrev Place := List String

/-- Files by their places, and places where directories stand. A directory also stands on the way
to each of these, and at the root. -/
structure FileTree where
  files : List (Place × List UInt8)
  directories : List Place
  /-- Where a path starts that has no slash in front. -/
  current : Place

namespace FileTree

/-- Whether a directory stands at a place. -/
def hasDirectory (tree : FileTree) (place : Place) : Bool :=
  place.isEmpty || tree.directories.any place.isPrefixOf ||
    tree.files.any fun (other, _) => place.isPrefixOf other && place.length < other.length

/-- Whether anything stands at a place. -/
def has (tree : FileTree) (place : Place) : Bool :=
  (tree.files.lookup place).isSome || tree.hasDirectory place

/-- The longest name, in bytes. -/
def maxNameSize : Nat := 255

/-- The longest path, in bytes. -/
def maxPathSize : Nat := 4095

/-- Goes from a place on to a name. Two dots lead back, one dot or no name at all stays. -/
def step (tree : FileTree) (place : Place) (name : String) : Except PathError Place :=
  if !tree.hasDirectory place then .error .notDirectory
  else if name = "" || name = "." then .ok place
  else if name = ".." then .ok place.dropLast
  else if maxNameSize < name.utf8ByteSize then .error .nameTooLong
  else if tree.has (place ++ [name]) then .ok (place ++ [name])
  else .error .missing

/-- The place to which a path leads. -/
def walk (tree : FileTree) (path : String) : Except PathError Place :=
  if path.isEmpty then .error .missing
  else if maxPathSize < path.utf8ByteSize then .error .nameTooLong
  else
    let start := if path.startsWith "/" then [] else tree.current
    (path.splitOn "/").foldlM tree.step start

/-- The file at a path. -/
def file (tree : FileTree) (path : String) : File :=
  match tree.walk path with
  | .error cause => cause.file
  | .ok place =>
    match tree.files.lookup place with
    | some content => .bytes content
    | none => PathError.isDirectory.file

end FileTree
end Flowscript.CommandLine
