import RecipeScript.Text.Blank
import RecipeScript.Text.Utf8

/-!
# Files

What the library asks of a file system is little: whether a path leads anywhere, and the bytes of the file that it leads to,
or why there are none. `Files` is that interface. These are two questions, and the second does not settle the first: a file
that may not be read is there all the same, but what lies behind a directory that may not be entered is not found. Only what
can be read is there for certain.

`FileTree` is a file system held in memory: a directory with files and directories below it, and nothing else in the
world. A path is walked from the top, name by name. Every name but the last has to be a directory, so a slash at the end
asks for a directory too; a file used as a directory is a different fault from a missing name.
-/

namespace RecipeScript

/-- Why a file cannot be read. -/
inductive ReadFault where
  | notFound
  | isDirectory
  /-- A file stands where the path needs a directory. -/
  | notDirectory
  /-- A name along the path, or the path as a whole, is longer than names and paths may be. -/
  | nameTooLong
  /-- A path cannot contain the character with the number zero. -/
  | nulInPath
  /-- The bytes are not UTF-8. -/
  | notText
  /-- Any other reason. -/
  | other (reason : String)
deriving DecidableEq, Repr

/-- The fault in words. -/
def ReadFault.message : ReadFault → String
  | notFound => "No such file or directory (os error 2)"
  | isDirectory => "Is a directory (os error 21)"
  | notDirectory => "Not a directory (os error 20)"
  | nameTooLong => "File name too long (os error 36)"
  | nulInPath => "file name contained an unexpected NUL byte"
  | notText => "stream did not contain valid UTF-8"
  | other reason => reason

/-- A file system, as far as it can be asked about. -/
structure Files where
  /-- The bytes of the file at a path. -/
  read : String → Except ReadFault (List UInt8)
  /-- Whether a path leads to a file or a directory. -/
  isThere : String → Bool
  /-- What can be read is there. -/
  isThere_of_read : ∀ {path : String} {bytes : List UInt8}, read path = .ok bytes → isThere path = true

namespace Files

/-- The files of which no more is known than was noted down: of each path whether it leads anywhere, and its bytes. Other
paths lead nowhere. -/
def ofAnswers (answers : List (String × Bool × Except ReadFault (List UInt8))) : Files where
  read path := match answers.lookup path with
    | some (_, bytes) => bytes
    | none => .error .notFound
  isThere path := match answers.lookup path with
    | some (_, .ok _) => true
    | some (isThere, .error _) => isThere
    | none => false
  isThere_of_read {path} {bytes} h := by
    cases hlookup : answers.lookup path with
    | none =>
        rw [hlookup] at h
        cases h
    | some answer =>
        obtain ⟨isThere, read⟩ := answer
        rw [hlookup] at h
        cases h
        rfl

/-- The text of the file at a path. -/
def readText (files : Files) (path : String) : Except ReadFault String := do
  match Utf8.decode (← files.read path) with
  | .ok text => return text
  | .error _ => throw .notText

end Files

/-! ## File trees -/

/-- A directory in memory. Names lead from the top to a file or a directory, and every directory on the way to one is
there as well. -/
structure FileTree where
  /-- The files by their names; of two at one place, the first is the one that is there. -/
  files : List (List String × List UInt8)
  directories : List (List String)

/-- What a place in a tree holds. -/
inductive FileNode where
  | file (bytes : List UInt8)
  | directory
deriving DecidableEq, Repr

namespace FileTree

/-- The tree with nothing in it. -/
def empty : FileTree := ⟨[], []⟩

/-- The parts of a path between its slashes. -/
def partsOfPath (path : String) : List String :=
  (splitOn (· == '/') path.toList).map String.ofList

/-- The names along a path, for a path that only goes down. -/
def namesOfPath (path : String) : List String :=
  (partsOfPath path).filter fun part => part ≠ "" && part ≠ "."

/-- Puts a file at a path, in place of one that was there. -/
def addFile (tree : FileTree) (path : String) (bytes : List UInt8) : FileTree :=
  { tree with files := (namesOfPath path, bytes) :: tree.files }

/-- Adds a directory. -/
def addDirectory (tree : FileTree) (path : String) : FileTree :=
  { tree with directories := namesOfPath path :: tree.directories }

/-- What the given names lead to. -/
def node? (tree : FileTree) (names : List String) : Option FileNode :=
  match tree.files.lookup names with
  | some bytes => some (.file bytes)
  | none =>
    let known := tree.files.map (·.1) ++ tree.directories
    if names.isEmpty || known.any names.isPrefixOf then some .directory else none

/-- The greatest number of bytes in a name. -/
def longestName : Nat := 255

/-- The greatest number of bytes in a path. -/
def longestPath : Nat := 4095

/-- Follows the rest of a path from a directory. Above the top there is nothing but the way up. -/
def follow (tree : FileTree) (here : List String) : List String → Except ReadFault FileNode
  | [] => .ok .directory
  | part :: parts =>
    if part = "" ∨ part = "." then tree.follow here parts
    else if longestName < part.utf8ByteSize then .error .nameTooLong
    else if part = ".." then
      if here ≠ [] then tree.follow here.dropLast parts
      else if parts.all fun part => part = "" || part = "." || part = ".." then .ok .directory
      else .error .notFound
    else
      let names := here ++ [part]
      match tree.node? names with
      | none => .error .notFound
      | some .directory => tree.follow names parts
      | some (.file bytes) => if parts = [] then .ok (.file bytes) else .error .notDirectory

/-- What a path leads to. A path from the root of the machine leads nowhere. -/
def find (tree : FileTree) (path : String) : Except ReadFault FileNode :=
  match path.toList with
  | [] => .error .notFound
  | c :: cs =>
    if '\x00' ∈ c :: cs then .error .nulInPath
    else if longestPath < path.utf8ByteSize then .error .nameTooLong
    else if c = '/' then .error .notFound
    else tree.follow [] (partsOfPath path)

/-- The tree as a file system. -/
def toFiles (tree : FileTree) : Files where
  read path := do
    match ← tree.find path with
    | .file bytes => return bytes
    | .directory => throw .isDirectory
  isThere path := (tree.find path).isOk
  isThere_of_read {path} {bytes} h := by
    cases hfind : tree.find path with
    | ok node => rfl
    | error cause =>
        rw [hfind] at h
        cases h

end FileTree

end RecipeScript
