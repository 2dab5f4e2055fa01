/-!
# Files and the paths to them

The command names its files by paths.  `Contents` is what opening a path leads to,
and `Directory.contents` finds it in a working directory that holds some plain
files and nothing else.

A path is walked name by name.  What is no directory can only be the end of the
walk, so a name or a slash after it is an error, and the two names `.` and `..`
lead to directories.  Outside of the working directory there are the directories
that every system has and a few devices, but no files.
-/

namespace AssocCache.CommandLine

/-- Why nothing at a path can be opened. -/
inductive OpenError where
  | missing
  /-- A name on the way belongs to something other than a directory. -/
  | notDirectory
  | nameTooLong
  | denied
  deriving DecidableEq, Repr

/-- The wording of the error. -/
def OpenError.message : OpenError → String
  | .missing => "No such file or directory (os error 2)"
  | .notDirectory => "Not a directory (os error 20)"
  | .nameTooLong => "File name too long (os error 36)"
  | .denied => "Permission denied (os error 13)"

/-- What is found at a path. -/
inductive Contents where
  | file (bytes : List UInt8)
  /-- Something that can be opened and holds no bytes to map, such as a directory. -/
  | unmappable
  | closed (error : OpenError)
  deriving DecidableEq, Repr

/-- A working directory. -/
structure Directory where
  /-- Its files, by their names. -/
  files : List (String × List UInt8)
  /-- The names that lead to the directory above it, the last first. -/
  parent : List String := ["tmp"]

namespace Directory

/-- Where a walk along a path has arrived. -/
inductive Place where
  /-- The working directory. -/
  | inside
  /-- Another directory, by the names that lead to it from the root, the last
  first. -/
  | outside (names : List String)
  /-- Something that is no directory. -/
  | leaf (contents : Contents)
  deriving DecidableEq, Repr

/-- The directories in the root. -/
def rootDirectories : List String :=
  ["bin", "boot", "dev", "etc", "home", "lib", "lib64", "media", "mnt", "opt", "proc", "root",
    "run", "sbin", "srv", "sys", "tmp", "usr", "var"]

/-- The devices, by their names.  Only the one of zeros can be mapped, and it has no
length. -/
def devices : List (String × Contents) :=
  [("null", .unmappable), ("zero", .file []), ("full", .unmappable), ("random", .unmappable),
    ("urandom", .unmappable)]

/-- The place that a name leads to from a directory outside. -/
def enterOutside : List String → String → Option Place
  | [], name => if rootDirectories.contains name then some (.outside [name]) else none
  | ["dev"], name => (devices.lookup name).map .leaf
  | _, _ => none

/-- The bytes a name can have at most. -/
def maxNameLength : Nat := 255

/-- The bytes a path can have at most. -/
def maxPathLength : Nat := 4095

/-- The place that a name other than `.` and `..` leads to. -/
def enter (d : Directory) (place : Place) (name : String) : Except OpenError Place :=
  if maxNameLength < name.utf8ByteSize then .error .nameTooLong
  else
    let found :=
      match place with
      | .inside => (d.files.lookup name).map fun bytes => .leaf (.file bytes)
      | .outside names => enterOutside names name
      | .leaf _ => none
    match found with
    | some place => .ok place
    | none => .error .missing

/-- The directory above a place.  The root is above itself. -/
def above (d : Directory) : Place → Place
  | .inside => .outside d.parent
  | .outside names => .outside names.tail
  | .leaf contents => .leaf contents

/-- Walks along the names of a path.  An empty name is one between two slashes, or
before the first or after the last one. -/
def walk (d : Directory) : Place → List String → Except OpenError Place
  | place, [] => .ok place
  | .leaf _, _ :: _ => .error .notDirectory
  | place, "" :: names => walk d place names
  | place, "." :: names => walk d place names
  | place, ".." :: names => walk d (d.above place) names
  | place, name :: names => do walk d (← enter d place name) names

/-- The place at a path. -/
def resolve (d : Directory) (path : String) : Except OpenError Place :=
  if path = "" then .error .missing
  else if maxPathLength < path.utf8ByteSize then .error .nameTooLong
  else walk d (if path.startsWith "/" then .outside [] else .inside) (path.splitOn "/")

/-- What is found at a path. -/
def contents (d : Directory) (path : String) : Contents :=
  match d.resolve path with
  | .ok (.leaf contents) => contents
  | .ok _ => .unmappable
  | .error error => .closed error

end Directory

end AssocCache.CommandLine
