import BranchingDialogue.Script.Line

/-! The commands and markers that have a meaning of their own. -/
namespace BranchingDialogue

def sayName : String := "SAY"
def choiceName : String := "CHOICE"
def gotoName : String := "GOTO"
def ifName : String := "IF"
def setName : String := "SET"
def triggerName : String := "TRIGGER"

/-- The commands every script may use. The last three have no effect on the course of a script. -/
def builtinNames : List String := [sayName, choiceName, gotoName, ifName, setName, triggerName]

def startMarker : String := "START"
def endMarker : String := "END"

def isMarkerName (name : String) : Bool := isName name.toList

def isBuiltin (name : String) : Bool := builtinNames.contains name

namespace Command

def isChoice (c : Command) : Bool := c.name = choiceName

def isJump (c : Command) : Bool := c.name = gotoName

/-- The marker that a text points at: a name, bare or between percent signs. -/
def targetOf? (text : String) : Option String :=
  let cs := text.toList
  if isName cs then some text
  else (Line.betweenPercents? cs).bind fun name => if isName name then some (String.ofList name) else none

/-- The marker that a jump leads to. -/
def target? (c : Command) : Option String := c.text.bind targetOf?

example : targetOf? "%GO-BACK%" = some "GO-BACK" ∧ targetOf? "END" = some "END" := by decide
example : targetOf? "%END" = none ∧ targetOf? "%%" = none := by decide

end Command
end BranchingDialogue
