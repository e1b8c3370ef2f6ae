import BranchingDialogue.Report

/-! Scripts ready to be played. -/
namespace BranchingDialogue

/-- A script that was read and built, with the warnings of its check. -/
structure Script where
  id : String
  document : Document
  story : Story
  warnings : List String
  deriving Inhabited

namespace Script

/-- The script of a document after its check. -/
def ofVerdict (id : String) (d : Document) (v : Rules.Verdict) : Except Failure Script :=
  match v.failure, Story.build d.outline with
  | some o, _ => .error (.rule o)
  | none, .error e => .error (.build e)
  | none, .ok story => .ok { id, document := d, story, warnings := v.messages }

/-- Reads, checks and builds a text; the first of these that fails is the outcome. The notices of the
check come out in any case. -/
def compile (p : Policy) (id source : String) : Except Failure Script × List Notice :=
  match Document.parse source with
  | .error e => (.error (.parse e), [])
  | .ok d =>
    let v := Rules.check p d.outline
    (ofVerdict id d v, v.notices)

/-- Reads and builds a text without a check. -/
def unchecked (id source : String) : Except Failure Script :=
  match Document.parse source with
  | .error e => .error (.parse e)
  | .ok d =>
    match Story.build d.outline with
    | .error e => .error (.build e)
    | .ok story => .ok { id, document := d, story, warnings := [] }

end Script
end BranchingDialogue
