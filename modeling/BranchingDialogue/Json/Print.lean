import BranchingDialogue.Json.Basic
import BranchingDialogue.Text.Quoted

/-! JSON text without white space. -/
namespace BranchingDialogue.Json

/-- A number in JSON text; what is not finite has no numeral there. -/
def numberText : Number → String
  | .finite s m e => (Number.finite s m e).text
  | _ => "null"

mutual

/-- The text of a value, members in their order. -/
def text : Json → String
  | .null => "null"
  | .bool b => if b then "true" else "false"
  | .number n => numberText n
  | .string s => Text.quote s
  | .array items => "[" ++ itemsText items ++ "]"
  | .object members => "\x7b" ++ membersText members ++ "\x7d"

def itemsText : List Json → String
  | [] => ""
  | [v] => text v
  | v :: vs => text v ++ "," ++ itemsText vs

def membersText : List (String × Json) → String
  | [] => ""
  | [(k, v)] => Text.quote k ++ ":" ++ text v
  | (k, v) :: ms => Text.quote k ++ ":" ++ text v ++ "," ++ membersText ms

end

end BranchingDialogue.Json
