import BranchingDialogue.Text.Blank
import BranchingDialogue.Text.Lines
import BranchingDialogue.Text.Quoted

/-! One line of a script without its indentation: a command, a marker or a comment, how it is
written, and which texts are read as one. -/
namespace BranchingDialogue

/-- A named instruction, written `SPEAKER |NAME| text`. -/
structure Command where
  name : String
  speaker : Option String := none
  text : Option String := none
  deriving DecidableEq, Repr, Inhabited

inductive Line
  | command (command : Command)
  /-- A place to jump to, written `%NAME%`. -/
  | marker (name : String)
  /-- What follows `//`, as it stands. -/
  | comment (text : String)
  deriving DecidableEq, Repr, Inhabited

/-- Why a line of a script is refused. -/
inductive Fault
  | tabIndent
  | unevenIndent
  | steepIndent
  | orphanIndent
  | trailingBlank
  | markerName
  | unknownLine
  | strayBar
  | commandName
  | speakerSpacing
  | textSpacing
  deriving DecidableEq, Repr

def Fault.message : Fault → String
  | .tabIndent => "Indentation must use spaces, not tabs"
  | .unevenIndent => "Indentation must be a multiple of 4 spaces"
  | .steepIndent => "Indentation may only increase by one level at a time"
  | .orphanIndent => "Indented line has no line above it to nest under"
  | .trailingBlank => "Lines may not end with whitespace"
  | .markerName => "Marker names may only contain uppercase letters and hyphens"
  | .unknownLine => "Expected a command, marker or comment"
  | .strayBar => "Lines may only contain \"|\" around the command name"
  | .commandName => "Command names may only contain uppercase letters and hyphens"
  | .speakerSpacing => "Expected exactly one space between the prefix and the command name"
  | .textSpacing => "Expected exactly one space between the command name and the text after it"

def isNameChar (c : Char) : Bool := ('A' ≤ c && c ≤ 'Z') || c == '-'

/-- The names of markers and commands: capital letters and hyphens, at least one. -/
def isName (cs : List Char) : Bool := !cs.isEmpty && cs.all isNameChar

/-- A speaker or a text: something within one line that neither starts nor ends with white space. -/
def isPhrase (cs : List Char) : Bool :=
  match cs.head?, cs.getLast? with
  | some a, some b => !Text.isBlank a && !Text.isBlank b && cs.all (!Text.isLineBreak ·)
  | _, _ => false

namespace Command

/-- Before the bars: nothing, or a phrase and one space. -/
def readSpeaker (cs : List Char) : Except Fault (Option String) :=
  if cs.isEmpty then .ok none
  else if cs.getLast? = some ' ' ∧ isPhrase cs.dropLast then .ok (some (String.ofList cs.dropLast))
  else .error .speakerSpacing

/-- After the bars: nothing, or one space and a phrase. -/
def readText : List Char → Except Fault (Option String)
  | [] => .ok none
  | c :: cs => if c = ' ' ∧ isPhrase cs then .ok (some (String.ofList cs)) else .error .textSpacing

def read (cs : List Char) : Except Fault Command :=
  match Text.pieces '|' cs with
  | [_] => .error .unknownLine
  | [speaker, name, text] =>
    if isName name then do
      let speaker ← readSpeaker speaker
      let text ← readText text
      return { name := String.ofList name, speaker, text }
    else .error .commandName
  | _ => .error .strayBar

def chars (c : Command) : List Char :=
  (c.speaker.map fun s => s.toList ++ [' ']).getD [] ++
    '|' :: c.name.toList ++ '|' :: (c.text.map fun t => ' ' :: t.toList).getD []

/-- A command as a line. -/
def format (c : Command) : String := String.ofList c.chars

end Command

namespace Line

/-- The text between the percent signs of `%…%`, if it holds no other one. -/
def betweenPercents? : List Char → Option (List Char)
  | '%' :: cs =>
    if cs.getLast? = some '%' ∧ '%' ∉ cs.dropLast then some cs.dropLast else none
  | _ => none

/-- What follows two slashes, if it is all on one line. -/
def commentText? : List Char → Option (List Char)
  | '/' :: '/' :: cs => if cs.any Text.isLineBreak then none else some cs
  | _ => none

/-- Reads a line that has lost its indentation. -/
def read (cs : List Char) : Except Fault Line :=
  match commentText? cs with
  | some text => .ok (.comment (String.ofList text))
  | none =>
    if (cs.getLast?.map Text.isBlank).getD false then .error .trailingBlank
    else
      match betweenPercents? cs with
      | some name => if isName name then .ok (.marker (String.ofList name)) else .error .markerName
      | none => (Command.read cs).map .command

def chars : Line → List Char
  | .command c => c.chars
  | .marker name => '%' :: name.toList ++ ['%']
  | .comment text => '/' :: '/' :: text.toList

def format (l : Line) : String := String.ofList l.chars

end Line
end BranchingDialogue
