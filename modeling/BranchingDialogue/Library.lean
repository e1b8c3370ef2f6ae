import BranchingDialogue.Files.Folder
import BranchingDialogue.Script

/-! The scripts of a directory. -/
namespace BranchingDialogue

/-- The scripts that can be played, the text of every file by script id, and what is wrong with the
files that were left out. -/
structure Library where
  scripts : Table Script := .empty
  texts : Table String := .empty
  errors : List String := []
  deriving Inhabited

namespace Library

def extension : String := ".script"

/-- The script id of a path. -/
def idOf (path : String) : String :=
  String.ofList (Path.baseStem extension.toList path.toList)

/-- The script id of a file in the directory. -/
def idOfName (name : String) : String := String.ofList (Path.stem extension.toList name.toList)

/-- Whether a file holds a script to be played. Drafts have names that begin with an underscore. -/
def isScriptName (name : String) : Bool :=
  extension.toList.isSuffixOf name.toList && name.toList.head? != some '_'

/-- Adds the outcome for one file. Of two files with one id the later counts, but a later failure
leaves the earlier script in place. -/
def addOutcome (lib : Library) (name text : String) : Except Failure Script → Library
  | .ok script =>
    { lib with
      scripts := lib.scripts.put (idOfName name) script
      texts := lib.texts.put (idOfName name) text }
  | .error e =>
    { lib with
      texts := lib.texts.put (idOfName name) text
      errors := lib.errors ++ [name ++ ": " ++ e.message] }

def addText (p : Policy) (lib : Library) (name text : String) : Library × List Notice :=
  let (outcome, notices) := Script.compile p (idOfName name) text
  (lib.addOutcome name text outcome, notices)

/-- A file that cannot be read leaves nothing but a complaint. -/
def addUnread (lib : Library) (name reason : String) : Library :=
  { lib with errors := lib.errors ++ [name ++ ": Failed to read: " ++ reason] }

/-- Adds files in order, of which some are `denied` for a reason. A file that fails does not touch the
others. -/
def addFiles (p : Policy) (denied : String → Option String) :
    Library → List (String × String) → Library × List Notice
  | lib, [] => (lib, [])
  | lib, (name, text) :: rest =>
    let (lib, notices) :=
      match denied name with
      | some reason => (lib.addUnread name reason, [])
      | none => lib.addText p name text
    let (lib, more) := addFiles p denied lib rest
    (lib, notices ++ more)

/-- The texts of the script files among some files. -/
def scriptTexts (files : List (String × List Text.Utf8.Byte)) : List (String × String) :=
  (files.filter fun f => isScriptName f.1).map fun f => (f.1, String.ofList (Text.Utf8.decode f.2))

/-- Why the directory that a label names cannot be listed. A label with a null byte is no path. -/
def reason (label : String) (e : PathError) : String :=
  if label.toList.contains '\x00' then
    "The argument 'path' must be a string, Uint8Array, or URL without null bytes. Received " ++
      Text.shown label
  else e.message ++ ", scandir '" ++ label ++ "'"

/-- The message for a directory that cannot be listed. -/
def unreadable (label : String) (e : PathError) : String :=
  label ++ ": Cannot read script directory: " ++ reason label e

/-- Loads the scripts of the directory at an absolute path, which messages call `label`. Files of the names
that are `denied` cannot be read. -/
def load (p : Policy) (folder : Folder) (path label : String)
    (denied : String → Option String := fun _ => none) : Library × List Notice :=
  match folder.scan [] path with
  | .error e => ({ errors := [unreadable label e] }, [])
  | .ok files => addFiles p denied {} (scriptTexts files)

example : idOfName "ferry.script" = "ferry" ∧ idOfName ".script" = ".script" := by decide +kernel
example : isScriptName "ferry.script" = true ∧ isScriptName "_ferry.script" = false := by decide +kernel

end Library
end BranchingDialogue
