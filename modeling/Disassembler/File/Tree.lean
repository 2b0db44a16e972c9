import Disassembler.Binary.Word
import Disassembler.File.Path
import Disassembler.Message.Fault

/-!
# File trees

The files and folders that can be reached from a folder, and the operations on
them that can fail.  A place is given by the names on the way to it: the names
below the folder, or else a slash for the root, or two dots for each step up,
and the names below that.
-/

namespace Disassembler

inductive FileError where
  | notFound
  | notFolder
  | isFolder
  | nameTooLong
  | invalidName
  deriving DecidableEq, Repr

namespace FileError

def message : FileError -> String
  | notFound => "no such file or directory"
  | notFolder => "not a directory"
  | isFolder => "is a directory"
  | nameTooLong => "file name too long"
  | invalidName => "invalid argument"

end FileError

structure FileFault where
  action : String
  path : String
  error : FileError
  deriving DecidableEq, Repr

namespace FileFault

def message (f : FileFault) : String :=
  f.action ++ " " ++ f.path ++ ": " ++ f.error.message

def toFault (f : FileFault) : Fault :=
  .plain f.message

end FileFault

/-- What a path leads to. -/
inductive FileEntry where
  | folder
  | file (content : Bytes)
  deriving DecidableEq, Repr

/-- The way from a folder to a place. -/
abbrev Place := List String

/-- The entries that can be reached from a folder. -/
structure FileTree where
  entries : List (Place × FileEntry) := []
  deriving Repr

namespace FileTree

/-! ## Places -/

def root : Place := ["/"]

/-- Whether a place is the folder itself or above it. -/
def isAbove (p : Place) : Bool :=
  p.all fun name => name == ".."

def parent (p : Place) : Place :=
  if p = root then root else if isAbove p then p ++ [".."] else p.dropLast

def isBelow (p : Place) : Bool :=
  match p with
  | [] => false
  | name :: _ => name != "/" && name != ".."

/-! ## Entries -/

/-- The entry at a place.  The folders above are always there. -/
def entry? (t : FileTree) (p : Place) : Option FileEntry :=
  if isAbove p || p == root then some .folder else t.entries.lookup p

def setEntry (t : FileTree) (p : Place) (e : FileEntry) : FileTree :=
  if (t.entries.lookup p).isSome then
    { entries := t.entries.map fun q => if q.1 = p then (p, e) else q }
  else
    { entries := t.entries ++ [(p, e)] }

/-- The entries below the folder, with their paths. -/
def listing (t : FileTree) : List (String × FileEntry) :=
  (t.entries.filter fun q => isBelow q.1).map fun (p, e) => (Text.join "/" p, e)

/-! ## Paths -/

def maxName : Nat := 255

def enter (t : FileTree) (p : Place) (name : String) : Except FileError Place :=
  match t.entry? p with
  | none => .error .notFound
  | some (.file _) => .error .notFolder
  | some .folder =>
      if name.isEmpty || name == "." then .ok p
      else if name == ".." then .ok (parent p)
      else if maxName < name.length then .error .nameTooLong
      else .ok (p ++ [name])

def maxPath : Nat := 4095

def parts (path : String) : Except FileError (List String) :=
  if path.toList.contains (Char.ofNat 0) then .error .invalidName
  else if path.isEmpty then .error .notFound
  else if maxPath < path.length then .error .nameTooLong
  else .ok (Text.split "/" path)

/-- Where the parts of a path lead to.  All but the last have to be folders. -/
def walk (t : FileTree) (path : String) (parts : List String) : Except FileError Place :=
  parts.foldlM t.enter (if Text.startsWith "/" path then root else [])

def locate (t : FileTree) (path : String) : Except FileError Place :=
  (parts path).bind (t.walk path)

def stat (t : FileTree) (path : String) : Except FileError FileEntry :=
  match t.locate path with
  | .error e => .error e
  | .ok p =>
      match t.entry? p with
      | none => .error .notFound
      | some e => .ok e

/-! ## Files -/

def read (t : FileTree) (path : String) : Except FileFault Bytes :=
  match t.stat path with
  | .error e => .error ⟨"open", path, e⟩
  | .ok .folder => .error ⟨"read", path, .isFolder⟩
  | .ok (.file content) => .ok content

/-- The parts of a path without the empty ones at its end. -/
def dropEmptyEnd (parts : List String) : List String :=
  (parts.reverse.dropWhile String.isEmpty).reverse

/-- Where a file can be written.  With a slash at its end, the path is that of a
folder: only the way to it matters. -/
def target (t : FileTree) (path : String) : Except FileError Place := do
  let parts <- parts path
  if parts.getLast? = some "" then
    let _ <- t.walk path ((dropEmptyEnd parts).dropLast ++ ["."])
    .error .isFolder
  else
    let p <- t.walk path parts
    if t.entry? p = some .folder then .error .isFolder else .ok p

/-- Make a file, or replace the content of one. -/
def write (t : FileTree) (path : String) (content : Bytes) : Except FileFault FileTree :=
  match t.target path with
  | .error e => .error ⟨"open", path, e⟩
  | .ok p => .ok (t.setEntry p (.file content))

/-! ## Folders -/

/-- Make a folder in a folder, if it is not there yet. -/
def makeFolder (t : FileTree) (path : String) : Except FileFault FileTree :=
  match t.locate path with
  | .error e => .error ⟨"mkdir", path, e⟩
  | .ok p =>
      match t.entry? p with
      | some .folder => .ok t
      | some (.file _) => .error ⟨"mkdir", path, .notFolder⟩
      | none => .ok (t.setEntry p .folder)

/-- The paths of the folders on the way to a clean path, and the path itself. -/
def ancestors (path : String) : List String :=
  let parts := Text.split "/" path
  (List.range parts.length).map fun n => Text.join "/" (parts.take (n + 1))

def makeFolders (t : FileTree) (path : String) : Except FileFault FileTree :=
  (ancestors path).foldlM makeFolder t

def install (t : FileTree) (path : String) (content : Bytes) : Except FileFault FileTree := do
  let folder := Text.join "/" (Text.split "/" path).dropLast
  let t <- if folder.isEmpty then .ok t else t.makeFolders folder
  t.write path content

end FileTree

end Disassembler
