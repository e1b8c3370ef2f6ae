import BranchingDialogue.Files.Path
import BranchingDialogue.Text.Utf8

/-! Files, directories and links, and where paths lead among them. -/
namespace BranchingDialogue

inductive Entry
  | file (bytes : List Text.Utf8.Byte)
  | folder
  | link (target : String)
  deriving DecidableEq, Repr

/-- Entries by their segments, counted from the root. Of two entries of one path the later counts;
the directories on the way to an entry are there without entries of their own. -/
structure Folder where
  entries : List (List String × Entry) := []
  deriving DecidableEq, Repr, Inhabited

/-- Why nothing can be done at a path. -/
inductive PathError
  | missing
  | notFolder
  | isFolder
  | tooManyLinks
  | nameTooLong
  deriving DecidableEq, Repr

def PathError.message : PathError → String
  | .missing => "ENOENT: no such file or directory"
  | .notFolder => "ENOTDIR: not a directory"
  | .isFolder => "EISDIR: illegal operation on a directory"
  | .tooManyLinks => "ELOOP: too many symbolic links encountered"
  | .nameTooLong => "ENAMETOOLONG: name too long"

namespace Folder

/-- What lies at a path that goes through no link. -/
def at? (f : Folder) (path : List String) : Option Entry :=
  match f.entries.reverse.find? fun e => e.1 = path with
  | some e => some e.2
  | none =>
    if path.isEmpty || f.entries.any fun e => path.isPrefixOf e.1 then some .folder else none

/-- The number of links that a path may go through. -/
def maxLinks : Nat := 40

/-- The number of bytes that a segment may have. -/
def maxSegment : Nat := 255

/-- The number of bytes that a path may have. -/
def maxPath : Nat := 4095

/-- The path without links that leads to the same place, and what lies there. The root lies above
itself. The faults are those of the first segment that cannot be passed. -/
def follow (f : Folder) (links : Nat) (done todo : List String) :
    Except PathError (List String × Entry) :=
  match todo with
  | [] =>
    match f.at? done with
    | some e => .ok (done, e)
    | none => .error .missing
  | s :: rest =>
    if f.at? done ≠ some .folder then .error .notFolder
    else if s = "" ∨ s = "." then follow f links done rest
    else if s = ".." then follow f links done.dropLast rest
    else if s.utf8ByteSize > maxSegment then .error .nameTooLong
    else
      match f.at? (done ++ [s]) with
      | none => .error .missing
      | some (.link target) =>
        match links with
        | 0 => .error .tooManyLinks
        | n + 1 =>
          follow f n (if Path.isAbsolute target then [] else done) (Path.segments target ++ rest)
      | some _ => follow f links (done ++ [s]) rest
  termination_by (links, todo.length)

/-- Where the segments of a path are followed from, seen from a directory. The empty path leads
nowhere, and neither does one with a null byte. -/
def start (home : List String) (path : String) : Except PathError (List String) :=
  if path = "" ∨ path.toList.contains '\x00' then .error .missing
  else if path.utf8ByteSize > maxPath then .error .nameTooLong
  else .ok (if Path.isAbsolute path then [] else home)

/-- What lies at a path seen from a directory, links followed. -/
def find (f : Folder) (home : List String) (path : String) :
    Except PathError (List String × Entry) := do
  f.follow maxLinks (← start home path) (Path.segments path)

/-- The names directly beneath a path, with what lies there. -/
def children (f : Folder) (path : List String) : List (String × Entry) :=
  let names := f.entries.filterMap fun e =>
    if path.isPrefixOf e.1 then (e.1.drop path.length).head? else none
  names.eraseDups.filterMap fun name => (f.at? (path ++ [name])).map fun e => (name, e)

/-- The plain files directly beneath a path in the order of their names. -/
def files (f : Folder) (path : List String) : List (String × List Text.Utf8.Byte) :=
  let found := (f.children path).filterMap fun e =>
    match e.2 with
    | .file bytes => some (e.1, bytes)
    | _ => none
  found.mergeSort fun a b => Text.before a.1 b.1

/-- The plain files of the directory at a path. -/
def scan (f : Folder) (home : List String) (path : String) :
    Except PathError (List (String × List Text.Utf8.Byte)) := do
  match ← f.find home path with
  | (real, .folder) => return f.files real
  | _ => .error .notFolder

def remove (f : Folder) (path : List String) : Folder := ⟨f.entries.filter fun e => e.1 ≠ path⟩

def put (f : Folder) (path : List String) (e : Entry) : Folder := ⟨(f.remove path).entries ++ [(path, e)]⟩

/-- The file with the given text. -/
def textFile (s : String) : Entry := .file (Text.Utf8.encode s.toList)

/-- The place that a path names, links followed on the way there but not at its end. -/
def place (f : Folder) (home : List String) (path : String) : Except PathError (List String) := do
  let ss := Path.segments path
  match ← f.follow maxLinks (← start home path) ss.dropLast, ss.getLast? with
  | (real, .folder), some name =>
    if name.utf8ByteSize > maxSegment then .error .nameTooLong else return real ++ [name]
  | _, _ => .error .notFolder

/-- Moves a file or link, in place of another if there is one. -/
def rename (f : Folder) (home : List String) (source target : String) : Except PathError Folder := do
  let origin ← f.place home source
  let goal ← f.place home target
  match f.at? origin with
  | none => .error .missing
  | some e =>
    if e = .folder ∨ f.at? goal = some .folder then .error .isFolder
    else return (f.remove origin).put goal e

/-- Writes a text to a file, which is made if it is not there; nothing changes where none can be. -/
def writeText (f : Folder) (home : List String) (path text : String) : Folder :=
  match f.find home path, f.place home path with
  | .ok (real, .file _), _ => f.put real (textFile text)
  | .error _, .ok real => f.put real (textFile text)
  | _, _ => f

end Folder
end BranchingDialogue
