import IntScript.SourceFile

/-!
# Directories

What a path leads to from a working directory.  A path is walked one name at a time; the
names `.` and the empty one stay in a directory, `..` goes to the directory above it, and
nothing lies below a file.  A path that starts with a slash is walked from the root, which
has no directory above it and is known to hold the empty file `/dev/null` and the directory
`/tmp`, as every POSIX system has them.  Other paths are walked from the working directory,
whose files are not those of the directory above it.
-/

namespace IntScript

/-- What a path can lead to. -/
inductive Entry where
  | file (content : List UInt8)
  | directory (entries : List (String × Entry))

namespace Entry

/-- The root of all paths. -/
def root : Entry :=
  .directory [("dev", .directory [("null", .file [])]), ("tmp", .directory [])]

/-- Walks the names of a path from an entry that lies below the directories `above`, of
which the innermost comes first.  Going up from the root stays there. -/
def walk (above : List Entry) : Entry → List String → Except FileError Entry
  | entry, [] => .ok entry
  | .file _, _ :: _ => .error .notADirectory
  | .directory entries, name :: names =>
    if name = "" ∨ name = "." then
      walk above (.directory entries) names
    else if name = ".." then
      match above with
      | [] => walk [] (.directory entries) names
      | parent :: above => walk above parent names
    else
      match entries.lookup name with
      | none => .error .notFound
      | some entry => walk (.directory entries :: above) entry names

/-- The content of an entry, which has to be a file. -/
def content : Entry → Except FileError (List UInt8)
  | .file content => .ok content
  | .directory _ => .error .isADirectory

end Entry

/-- A working directory, given as its files with their names. -/
abbrev Directory := List (String × List UInt8)

namespace Directory

/-- A working directory as an entry. -/
def entry (files : Directory) : Entry :=
  .directory (files.map fun (name, content) => (name, .file content))

/-- The directories above a working directory, from the innermost: one that is known to hold
nothing else, and the root. -/
def above : List Entry :=
  [.directory [], .root]

/-- What a path leads to from a working directory. -/
def openFile (files : Directory) (path : String) : Except FileError (List UInt8) := do
  if path.isEmpty then
    throw .notFound
  let names := path.splitOn "/"
  let entry ← if path.startsWith "/" then Entry.root.walk [] names else files.entry.walk above names
  entry.content

end Directory

end IntScript
