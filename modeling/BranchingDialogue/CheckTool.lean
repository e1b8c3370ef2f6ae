import BranchingDialogue.Files.Folder
import BranchingDialogue.Report

/-! The command that checks one script file and may write it in its canonical form. -/
namespace BranchingDialogue.CheckTool

/-- What the command does, one thing at a time. -/
inductive Action
  | tell (notice : Notice)
  | rename (source target : String)
  | write (path text : String)
  deriving DecidableEq, Repr

/-- What lies at the path that the command is given. -/
inductive Found
  | missing
  | folder
  | file (text : String)
  deriving DecidableEq, Repr

/-- A fault of the file system that ends the command. -/
inductive Crash
  | read (fault : PathError)
  | rename (fault : PathError) (source target : String)
  deriving DecidableEq, Repr

def Crash.message : Crash → String
  | .read fault => fault.message ++ ", read"
  | .rename fault source target =>
    fault.message ++ ", rename '" ++ source ++ "' -> '" ++ target ++ "'"

/-- The actions of the command and how it ends if all of them succeed. -/
structure Plan where
  actions : List Action
  exit : Nat := 0
  crash : Option Crash := none
  deriving DecidableEq, Repr

/-- Ends the command with a complaint. -/
def refuse (before : List Notice) (complaint : String) : Plan where
  actions := (before ++ [Notice.error complaint]).map .tell
  exit := 1

/-- Both rules that may be relaxed give warnings. -/
def policy : Policy := { unknownCommands := .warn, topLevelBlock := .warn }

def flag : String := "--fix"

def usage : String := "Usage: npm run check -- <file.script> [--fix]"

def extension : String := ".script"

/-- Where the text before the change is kept. -/
def oldName (path : String) : String := path ++ ".old"

/-- The changes that bring a file with the given text into canonical form. -/
def fixes (path text formatted : String) : List Action :=
  if formatted = text then [.tell (.log "Already in canonical form")]
  else
    [.rename path (oldName path),
      .tell (.log ("Original saved as: " ++ oldName path)),
      .write path formatted,
      .tell (.log ("Formatted file written: " ++ path))]

/-- What is done with the text of a script file. -/
def planText (fix : Bool) (path text : String) : Plan :=
  match Document.parse text with
  | .error e => refuse [] (path ++ ": " ++ e.message)
  | .ok d =>
    let v := Rules.check policy d.outline
    match v.failure with
    | some o => refuse v.notices (path ++ ": " ++ o.message)
    | none =>
      let count := toString v.warnings.length
      let ok : Notice := .log (path ++ ": OK (" ++ count ++ " warning(s))")
      { actions := (v.notices ++ [ok]).map .tell ++
          if fix then fixes path text d.format else [] }

/-- What is done with a path and what lies there. -/
def planPath (fix : Bool) (path : String) : Found → Plan
  | .missing => refuse [] ("File not found: " ++ path)
  | found =>
    if !extension.toList.isSuffixOf path.toList then refuse [] "File must be a .script file"
    else
      match found with
      | .file text => planText fix path text
      | _ => { actions := [], exit := 1, crash := some (.read .isFolder) }

/-- The one path among the arguments. -/
def path? (args : List String) : Option String :=
  match args.filter (· ≠ flag) with
  | [path] => some path
  | _ => none

/-- What is done for some arguments, where `find` tells what lies at a path. -/
def plan (args : List String) (find : String → Found) : Plan :=
  match path? args with
  | some path => planPath (args.contains flag) path (find path)
  | none => refuse [] usage

/-- What lies at a path seen from a directory. -/
def lookUp (folder : Folder) (home : List String) (path : String) : Found :=
  match folder.find home path with
  | .error _ => .missing
  | .ok (_, .file bytes) => .file (String.ofList (Text.Utf8.decode bytes))
  | .ok _ => .folder

/-- How a run of the command ended. -/
structure Outcome where
  exit : Nat
  notices : List Notice
  folder : Folder
  crash : Option Crash
  deriving DecidableEq, Repr

/-- Does one action in a directory. -/
def act (home : List String) (folder : Folder) : Action → Except Crash (Folder × List Notice)
  | .tell n => .ok (folder, [n])
  | .rename source target =>
    match folder.rename home source target with
    | .ok folder => .ok (folder, [])
    | .error fault => .error (.rename fault source target)
  | .write path text => .ok (folder.writeText home path text, [])

/-- Does the actions of a plan in a directory, up to the first that fails. -/
def perform (home : List String) (p : Plan) (folder : Folder) : List Action → Outcome
  | [] => { exit := p.exit, notices := [], folder, crash := p.crash }
  | a :: as =>
    match act home folder a with
    | .error crash => { exit := 1, notices := [], folder, crash := some crash }
    | .ok (folder, notices) =>
      let rest := perform home p folder as
      { rest with notices := notices ++ rest.notices }

/-- Runs the command in the directory `home`. -/
def run (args : List String) (folder : Folder) (home : List String) : Outcome :=
  let p := plan args (lookUp folder home)
  perform home p folder p.actions

end BranchingDialogue.CheckTool
