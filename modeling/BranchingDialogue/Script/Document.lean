import BranchingDialogue.Number.Numeral
import BranchingDialogue.Script.Levels

/-! Scripts as text. Reading keeps every line that is not blank; writing a script that was read gives
those lines back. -/
namespace BranchingDialogue

/-- A script: its lines, and whether its text ended with a line ending (if that is known). -/
structure Document where
  outline : Outline
  finalNewline : Option Bool := none
  deriving DecidableEq, Repr, Inhabited

/-- The first line of a text that could not be read, by number and as it stands. -/
structure ParseFailure where
  fault : Fault
  line : Number
  text : String
  deriving DecidableEq, Repr

def ParseFailure.message (e : ParseFailure) : String :=
  "Line " ++ e.line.text ++ ": " ++ e.fault.message ++ ": " ++ Text.quote e.text

/-- Reads one line, white space around it ignored. The failure names the line as the caller does. -/
def Line.ofText (text : String) (number : Number) : Except ParseFailure Line :=
  match Line.read (Text.trim text.toList) with
  | .ok line => .ok line
  | .error fault => .error { fault, line := number, text }

namespace Row

/-- The spaces of one level. -/
def indentWidth : Nat := 4

/-- The leading spaces and tabs, and the rest. A line with a line break inside has no indentation. -/
def splitIndent (cs : List Char) : List Char × List Char :=
  if cs.any Text.isLineBreak then ([], cs)
  else (cs.takeWhile fun c => c == ' ' || c == '\t', cs.dropWhile fun c => c == ' ' || c == '\t')

def chars (r : Row) : List Char := List.replicate (indentWidth * r.level) ' ' ++ r.line.chars

end Row

namespace Levels

/-- Reads a line that is not blank. -/
def read (ls : Levels) (cs : List Char) : Except Fault Levels := do
  let (indent, body) := Row.splitIndent cs
  if '\t' ∈ indent then .error .tabIndent
  else if indent.length % Row.indentWidth ≠ 0 then .error .unevenIndent
  else
    let ls ← ls.turnTo (indent.length / Row.indentWidth)
    let line ← Line.read body
    return ls.push line

/-- Reads the lines of a text from line `number` on, blank ones left out. -/
def readAll : Levels → Nat → List (List Char) → Except ParseFailure Levels
  | ls, _, [] => .ok ls
  | ls, number, cs :: rest =>
    if Text.isBlankText cs then readAll ls (number + 1) rest
    else
      match ls.read cs with
      | .error fault => .error { fault, line := number, text := String.ofList cs }
      | .ok ls => readAll ls (number + 1) rest

end Levels

namespace Document

def parse (source : String) : Except ParseFailure Document := do
  let levels ← Levels.readAll {} 1 (Text.lines source.toList)
  return { outline := levels.outline, finalNewline := some (Text.endsInBreak source.toList) }

/-- The text of a script: a line for each row, the last one closed too unless the script says otherwise. -/
def format (d : Document) : String :=
  match d.outline.rows 0 with
  | [] => ""
  | r :: rs =>
    let body := Text.join '\n' ((r :: rs).map Row.chars)
    String.ofList (if d.finalNewline = some false then body else body ++ ['\n'])

end Document
end BranchingDialogue
