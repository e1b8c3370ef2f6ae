import BranchingDialogue.Failure
import BranchingDialogue.Notice

/-! What a check says about a script, for those who only want to know. -/
namespace BranchingDialogue

namespace Rules.Verdict

def messages (v : Verdict) : List String := v.warnings.map (·.message)

/-- What is printed during the check. Warnings come out at once, also those before a failure. -/
def notices (v : Verdict) : List Notice := v.messages.map fun m => .warn ("[validate] " ++ m)

end Rules.Verdict

/-- A report of a failure has no warnings. -/
structure Report where
  failure : Option Failure := none
  warnings : List String := []
  deriving DecidableEq, Repr

namespace Report

def isOk (r : Report) : Bool := r.failure.isNone

/-- The rule that was broken, if the script failed by one. -/
def rule? (r : Report) : Option String :=
  match r.failure with
  | some (.rule o) => some o.rule
  | _ => none

def ofVerdict (v : Rules.Verdict) : Report :=
  match v.failure with
  | some o => { failure := some (.rule o) }
  | none => { warnings := v.messages }

/-- Checks a script that was read. -/
def ofOutline (p : Policy) (o : Outline) : Report × List Notice :=
  let v := Rules.check p o
  (ofVerdict v, v.notices)

/-- Checks a text. One that cannot be read fails like one that breaks a rule. -/
def ofSource (p : Policy) (source : String) : Report × List Notice :=
  match Document.parse source with
  | .error e => ({ failure := some (.parse e) }, [])
  | .ok d => ofOutline p d.outline

end Report
end BranchingDialogue
