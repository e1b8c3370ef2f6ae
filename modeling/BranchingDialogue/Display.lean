import BranchingDialogue.Markup.Inline
import BranchingDialogue.Script.Vocabulary

/-! Commands made ready to be shown. -/
namespace BranchingDialogue

/-- A command as it is shown; `html` is the text with its inline markup rendered. -/
inductive Shown
  | speech (speaker : Option String) (text html : String)
  | choice (text html : String)
  | jump (target : String)
  | command (command : Command)
  deriving DecidableEq, Repr

namespace Shown

def ofCommand (c : Command) : Shown :=
  let text := c.text.getD ""
  if c.name = sayName then .speech c.speaker text (Markup.render text)
  else if c.name = choiceName then .choice text (Markup.render text)
  else if c.name = gotoName then .jump (c.target?.getD text)
  else .command c

/-- For terminals and logs. -/
def plainText : Shown → String
  | .speech none text _ => text
  | .speech (some speaker) text _ => speaker ++ ":\t" ++ text
  | .choice text _ => "> " ++ text
  | .jump target => "-> " ++ target
  | .command c => c.format

end Shown

/-- An option of a choice, numbered from zero. -/
structure ShownOption where
  index : Nat
  text : String
  html : String
  deriving DecidableEq, Repr

def showOptions (cs : List Command) : List ShownOption :=
  cs.zipIdx.map fun e =>
    let text := e.1.text.getD ""
    { index := e.2, text, html := Markup.render text }

end BranchingDialogue
