import BranchingDialogue.Playthrough
import BranchingDialogue.Rules.Check
import BranchingDialogue.Uid

/-! Everything that can go wrong between the text of a script and a session on it. -/
namespace BranchingDialogue

inductive Failure
  | parse (failure : ParseFailure)
  | rule (objection : Objection)
  | build (failure : BuildFailure)
  | play (error : PlayError)
  | unknownSession (id : String)
  | unknownScript (id : String)
  | identifier (error : UidError)
  deriving DecidableEq, Repr

namespace Failure

def message : Failure → String
  | parse e => e.message
  | rule o => o.message
  | build e => e.message
  | play e => e.message
  | unknownSession id => "Session not found: " ++ id
  | unknownScript id => "Script not found: " ++ id
  | identifier e => e.message

/-- The status that a request which fails so is answered with; none for a fault of the program itself. -/
def status? : Failure → Option Nat
  | parse _ => some 400
  | rule _ => some 422
  | build _ => some 422
  | play .choicePending => some 409
  | play .noChoice => some 409
  | play .ended => some 409
  | play (.choiceOutOfRange _ _) => some 400
  | play (.unknownMarker _) => some 404
  | play (.missingNode _) => none
  | unknownSession _ => some 404
  | unknownScript _ => some 404
  | identifier _ => none

end Failure
end BranchingDialogue
