/-! Files found by path. -/
namespace Rill

/-- Why a path leads to no text. -/
inductive FileError where
  | notFound
  | notDirectory
  | isDirectory
  | nameTooLong
  /-- The path holds the character that ends texts for the system. -/
  | invalidPath
  | other (reason : String)
deriving DecidableEq, Repr

def FileError.message : FileError → String
  | notFound => "No such file or directory (os error 2)"
  | notDirectory => "Not a directory (os error 20)"
  | isDirectory => "Is a directory (os error 21)"
  | nameTooLong => "File name too long (os error 36)"
  | invalidPath => "file name contained an unexpected NUL byte"
  | other reason => reason

/-- How the text of a file is found. -/
abbrev FileReader := String → Except FileError String

namespace Path

/-- The directory of a file, with the slash that ends it. -/
def directory (path : String) : String :=
  String.ofList (path.toList.reverse.dropWhile (· != '/')).reverse

/-- A path as seen from a directory. Paths that begin with a slash stand for themselves. -/
def resolve (directory path : String) : String :=
  if path.startsWith "/" then path else directory ++ path

end Path

/-- The bytes of the longest name. -/
def nameLimit : Nat := 255

/-- The bytes of the longest path. -/
def pathLimit : Nat := 4095

/-- What stands at a place. -/
inductive Node where
  | text (t : String)
  | directory
deriving DecidableEq, Repr

/-- Where a walk along a path has come. -/
inductive Place where
  /-- At these names, seen from the directory that the walk began in. -/
  | inside (names : List String)
  /-- In one of the directories around that one. -/
  | around
  /-- At these names, seen from the root of the system. -/
  | fromRoot (names : List String)
deriving DecidableEq, Repr

namespace Place

/-- The directory that holds a place. The root is held by itself. -/
def parent : Place → Place
  | inside [] => around
  | inside (n :: ns) => inside (n :: ns).dropLast
  | around => around
  | fromRoot names => fromRoot names.dropLast

/-- The place of a name in a directory, if something can be known of it. -/
def child? (name : String) : Place → Option Place
  | inside names => some (inside (names ++ [name]))
  | around => none
  | fromRoot names => some (fromRoot (names ++ [name]))

end Place

/-- The directories that every system has at its root. -/
def rootDirectories : List String :=
  ["bin", "boot", "dev", "etc", "home", "lib", "media", "mnt", "opt", "proc", "run", "sbin", "srv",
    "sys", "tmp", "usr", "var"]

/-- What every system has at these names from its root. The null device reads as an empty text. -/
def systemNode? : List String → Option Node
  | [] => some .directory
  | [name] => if rootDirectories.contains name then some .directory else none
  | ["dev", "null"] => some (.text "")
  | _ => none

/-- A directory held in memory: texts by the names on the way to them. -/
structure Files where
  texts : List (List String × String)

namespace Files

/-- The files at these paths. -/
def ofList (files : List (String × String)) : Files :=
  ⟨files.map fun (path, text) =>
    ((path.splitOn "/").filter fun name => name != "" && name != ".", text)⟩

/-- What stands at a place. Of the directories around, only that they are there is known. -/
def node? (files : Files) : Place → Option Node
  | .inside names =>
    match files.texts.lookup names with
    | some t => some (.text t)
    | none =>
      if files.texts.any (names.isPrefixOf ·.1) || names.isEmpty then some .directory else none
  | .around => some .directory
  | .fromRoot names => systemNode? names

/-- Follows names from a place. Each name is looked up in what the names before it lead to. -/
def follow (files : Files) (place : Place) : List String → Except FileError String
  | [] =>
    match files.node? place with
    | some (.text t) => .ok t
    | some .directory => .error .isDirectory
    | none => .error .notFound
  | name :: names =>
    match files.node? place with
    | none => .error .notFound
    | some (.text _) => .error .notDirectory
    | some .directory =>
      if name = "" ∨ name = "." then files.follow place names
      else if name = ".." then files.follow place.parent names
      else if nameLimit < name.utf8ByteSize then .error .nameTooLong
      else match place.child? name with
        | some next => files.follow next names
        | none => .error .notFound

/-- The text at a path. -/
def read (files : Files) : FileReader := fun path =>
  if path.contains '\x00' then .error .invalidPath
  else if path.isEmpty then .error .notFound
  else if pathLimit < path.utf8ByteSize then .error .nameTooLong
  else
    let start := if path.startsWith "/" then .fromRoot [] else .inside []
    files.follow start (path.splitOn "/")

end Files
end Rill
