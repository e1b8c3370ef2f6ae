import BranchingDialogue.Script.Vocabulary

/-! What can be wrong with a script that was read, and how severely it is taken. -/
namespace BranchingDialogue

inductive Severity
  | allow
  | warn
  | deny
  deriving DecidableEq, Repr

def Severity.ofName? : String → Option Severity
  | "allow" => some .allow
  | "warn" => some .warn
  | "deny" => some .deny
  | _ => none

def Severity.name : Severity → String
  | .allow => "allow"
  | .warn => "warn"
  | .deny => "deny"

/-- How severely the two rules that may be relaxed are taken. -/
structure Policy where
  unknownCommands : Severity := .deny
  topLevelBlock : Severity := .allow
  deriving DecidableEq, Repr, Inhabited

/-- A broken rule, with what broke it. -/
inductive Objection
  | emptyScript
  | markerBeforeStart (marker : String)
  | missingStart
  | emptyStart
  | missingEnd
  | endNotLast
  | sayWithoutText (command : Command)
  | choiceWithoutText (command : Command)
  | choiceWithSpeaker (command : Command)
  | choiceWithoutBlock (command : Command)
  | gotoWithSpeaker (command : Command)
  | gotoWithoutTarget (command : Command)
  | gotoInvalidTarget (text : String)
  | gotoUnknownTarget (marker : String)
  | unreachableAfterGoto (command : Command)
  | setWithoutText (command : Command)
  | ifWithoutText (command : Command)
  | triggerWithSpeaker (command : Command)
  | triggerWithoutText (command : Command)
  | unknownCommand (name : String)
  | duplicateMarker (marker : String)
  | consecutiveMarkers (marker previous : String)
  | topLevelBlock (marker : String)
  deriving DecidableEq, Repr

namespace Objection

/-- The name of the rule. -/
def rule : Objection → String
  | emptyScript => "empty-script"
  | markerBeforeStart _ => "marker-before-start"
  | missingStart => "missing-start"
  | emptyStart => "empty-start"
  | missingEnd => "missing-end"
  | endNotLast => "end-not-last"
  | sayWithoutText _ => "say-without-text"
  | choiceWithoutText _ => "choice-without-text"
  | choiceWithSpeaker _ => "choice-with-prefix"
  | choiceWithoutBlock _ => "choice-without-block"
  | gotoWithSpeaker _ => "goto-with-prefix"
  | gotoWithoutTarget _ => "goto-without-target"
  | gotoInvalidTarget _ => "goto-invalid-target"
  | gotoUnknownTarget _ => "goto-unknown-target"
  | unreachableAfterGoto _ => "unreachable-after-goto"
  | setWithoutText _ => "set-without-text"
  | ifWithoutText _ => "if-without-text"
  | triggerWithSpeaker _ => "trigger-with-prefix"
  | triggerWithoutText _ => "trigger-without-text"
  | unknownCommand _ => "unknown-command"
  | duplicateMarker _ => "duplicate-marker"
  | consecutiveMarkers _ _ => "consecutive-markers"
  | topLevelBlock _ => "top-level-block"

def message : Objection → String
  | emptyScript =>
    "Script is empty. Valid scripts must have " ++ startMarker ++ " and " ++ endMarker ++
      " markers, and at least one command."
  | markerBeforeStart m =>
    "Marker %" ++ m ++ "% shouldn't be declared before the " ++ startMarker ++ " marker."
  | missingStart => "Script must start with a %" ++ startMarker ++ "% marker."
  | emptyStart => "The " ++ startMarker ++ " marker should be followed by at least one command."
  | missingEnd => "Script must end with a %" ++ endMarker ++ "% marker."
  | endNotLast => "The %" ++ endMarker ++ "% marker must be the last line of the script."
  | sayWithoutText c => "SAY command must have text: " ++ c.format
  | choiceWithoutText c => "CHOICE command must have text: " ++ c.format
  | choiceWithSpeaker c =>
    "The CHOICE command doesn't allow a prefix, but one was found: " ++ c.format
  | choiceWithoutBlock c => "A CHOICE must be followed by an indented block: " ++ c.format
  | gotoWithSpeaker c => "The GOTO command doesn't allow a prefix, but one was found: " ++ c.format
  | gotoWithoutTarget c => "The GOTO command requires a marker, but none was found: " ++ c.format
  | gotoInvalidTarget t =>
    "The GOTO command requires a valid marker name, but " ++ t ++ " was found"
  | gotoUnknownTarget m => "The GOTO command points at %" ++ m ++ "%, which is never declared"
  | unreachableAfterGoto c =>
    "Lines after a GOTO command in the same block are unreachable: " ++ c.format
  | setWithoutText c => "SET command must have an assignment: " ++ c.format
  | ifWithoutText c => "IF command must have a condition: " ++ c.format
  | triggerWithSpeaker c =>
    "The TRIGGER command doesn't allow a prefix, but one was found: " ++ c.format
  | triggerWithoutText c => "The TRIGGER command requires an event name: " ++ c.format
  | unknownCommand name => "Unknown command: " ++ name
  | duplicateMarker m => "Marker %" ++ m ++ "% shouldn't be declared more than once"
  | consecutiveMarkers m previous =>
    "Marker %" ++ m ++ "% directly follows %" ++ previous ++ "%; a command must come between them"
  | topLevelBlock m => "Top-level block after marker %" ++ m ++ "%"

end Objection

/-- All rules are strict but the two that the policy sets. -/
def Policy.severity (p : Policy) : Objection → Severity
  | .unknownCommand _ => p.unknownCommands
  | .topLevelBlock _ => p.topLevelBlock
  | _ => .deny

end BranchingDialogue
