import BranchingDialogue.Files.Path
import BranchingDialogue.Json.Print
import BranchingDialogue.Notice
import BranchingDialogue.Rules.Policy

/-! The settings of a server. A setting that is not given has a default where it is used. -/
namespace BranchingDialogue

structure Settings where
  port : Option Number := none
  scriptDir : Option String := none
  quiet : Option Bool := none
  unknownCommands : Option Severity := none
  topLevelBlock : Option Severity := none
  deriving DecidableEq, Repr, Inhabited

namespace Settings

inductive Name
  | port
  | scriptDir
  | quiet
  | unknownCommands
  | topLevelBlock
  deriving DecidableEq, Repr

def Name.ofText? : String → Option Name
  | "port" => some .port
  | "scriptDir" => some .scriptDir
  | "quiet" => some .quiet
  | "unknownCommands" => some .unknownCommands
  | "topLevelBlock" => some .topLevelBlock
  | _ => none

/-- Ports are whole numbers above zero. -/
def port? : Json → Option Number
  | .number x => if (x.toNat?.getD 0) = 0 then none else some x
  | _ => none

def directory? : Json → Option String
  | .string s => if s = "" then none else some s
  | _ => none

def flag? : Json → Option Bool
  | .bool b => some b
  | _ => none

/-- The settings with one more, if the value is one that the setting may have. -/
def set? (s : Settings) (v : Json) : Name → Option Settings
  | .port => (port? v).map fun x => { s with port := some x }
  | .scriptDir => (directory? v).map fun d => { s with scriptDir := some d }
  | .quiet => (flag? v).map fun b => { s with quiet := some b }
  | .unknownCommands => (Severity.ofJson? v).map fun x => { s with unknownCommands := some x }
  | .topLevelBlock => (Severity.ofJson? v).map fun x => { s with topLevelBlock := some x }

/-- Reads one member of a settings object. What is not understood is reported and left out. -/
def setMember (s : Settings) (name : String) (v : Json) : Settings × List Notice :=
  match Name.ofText? name with
  | none => (s, [.warn ("Ignoring unknown config setting \"" ++ name ++ "\"")])
  | some n =>
    match s.set? v n with
    | some s => (s, [])
    | none =>
      (s, [.warn ("Ignoring invalid value for config setting \"" ++ name ++ "\": " ++ v.text)])

def setMembers : Settings → List (String × Json) → Settings × List Notice
  | s, [] => (s, [])
  | s, (name, v) :: ms =>
    let (s, notices) := s.setMember name v
    let (s, more) := s.setMembers ms
    (s, notices ++ more)

def ofJson : Json → Settings × List Notice
  | .object members => setMembers {} members
  | _ => ({}, [.warn "Config file does not hold a JSON object, using defaults"])

/-- The policy of the check, defaults filled in. -/
def policy (s : Settings) : Policy :=
  let standard : Policy := {}
  { unknownCommands := s.unknownCommands.getD standard.unknownCommands
    topLevelBlock := s.topLevelBlock.getD standard.topLevelBlock }

def isQuiet (s : Settings) : Bool := s.quiet.getD false

def standardPort : Number := Number.ofNat 3000

/-- The port to listen on. A text given for it from outside counts before the setting. -/
def portOr (s : Settings) (given : Option String) : Number :=
  match given with
  | some text => Number.ofText text
  | none => s.port.getD standardPort

/-- Where the scripts lie, seen from the directory of the data. -/
def scriptsIn (s : Settings) (root : String) : String :=
  Path.resolve root (s.scriptDir.getD "dialogues")

end Settings
end BranchingDialogue
