import BranchingDialogue.Script.Outline

/-! The open levels of indentation while a script is read. -/
namespace BranchingDialogue

/-- What was read of the innermost open level, and of each level around it from the inside outwards. It is
kept with the latest element first; each level goes on beneath the latest line of the level around it. -/
structure Levels where
  current : Outline := .nil
  around : List Outline := []
  deriving DecidableEq, Repr

namespace Levels

def depth (ls : Levels) : Nat := ls.around.length

def openBlock (ls : Levels) : Levels := { current := .nil, around := ls.current :: ls.around }

def closeBlock (ls : Levels) : Levels :=
  match ls.around with
  | [] => ls
  | outer :: around => { current := .block (ls.current.reverseOnto .nil) outer, around }

/-- Closes the blocks that are deeper than a level. -/
def closeTo (level : Nat) (ls : Levels) : Levels := Nat.repeat closeBlock (ls.depth - level) ls

def push (line : Line) (ls : Levels) : Levels := { ls with current := .line line ls.current }

/-- The outline of all that was read. -/
def outline (ls : Levels) : Outline := (ls.closeTo 0).current.reverseOnto .nil

/-- Turns to the level of the next line, if it can have that level: at most one block is opened, and beneath
a line only. -/
def turnTo (level : Nat) (ls : Levels) : Except Fault Levels :=
  if ls.depth + 1 < level then .error .steepIndent
  else if level = ls.depth + 1 then
    match ls.current with
    | .nil => .error .orphanIndent
    | _ => .ok ls.openBlock
  else .ok (ls.closeTo level)

end Levels
end BranchingDialogue
