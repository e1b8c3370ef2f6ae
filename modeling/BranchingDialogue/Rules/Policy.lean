import BranchingDialogue.Json.Basic
import BranchingDialogue.Rules.Objection

/-! Policies as settings and requests write them. -/
namespace BranchingDialogue

def Severity.ofJson? (v : Json) : Option Severity := v.string?.bind Severity.ofName?

namespace Policy

/-- The severity under a name, or the standard one if nothing is said about it. -/
def severityAt? (v : Json) (name : String) (standard : Severity) : Option Severity :=
  match v.member? name with
  | none => some standard
  | some given => Severity.ofJson? given

/-- The policy that an object describes. An array describes the standard one; what is neither, and
an object with a severity that is none, describes no policy. -/
def ofJson? (v : Json) : Option Policy :=
  match v with
  | .object _ | .array _ =>
    match severityAt? v "unknownCommands" .deny, severityAt? v "topLevelBlock" .allow with
    | some unknownCommands, some topLevelBlock => some { unknownCommands, topLevelBlock }
    | _, _ => none
  | _ => none

end Policy
end BranchingDialogue
