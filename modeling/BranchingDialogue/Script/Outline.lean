import BranchingDialogue.Script.Line

/-! The nesting of a script: lines in order, with blocks of lines one level deeper between them. -/
namespace BranchingDialogue

/-- The lines and blocks of one level, in order. -/
inductive Outline
  | nil
  | line (head : Line) (rest : Outline)
  | block (inner rest : Outline)
  deriving DecidableEq, Repr, Inhabited

/-- A line with its level of indentation. -/
structure Row where
  level : Nat
  line : Line
  deriving DecidableEq, Repr

namespace Outline

/-- The rows of an outline whose outermost level is `level`. -/
def rows (level : Nat) : Outline → List Row
  | .nil => []
  | .line head rest => ⟨level, head⟩ :: rows level rest
  | .block inner rest => rows (level + 1) inner ++ rows level rest

/-- The elements in reverse, and then another outline. -/
def reverseOnto : Outline → Outline → Outline
  | .nil, o => o
  | .line head rest, o => rest.reverseOnto (.line head o)
  | .block inner rest, o => rest.reverseOnto (.block inner o)

/-- The commands and markers in order, whatever their level. -/
def lines : Outline → List Line
  | .nil => []
  | .line (.comment _) rest => lines rest
  | .line head rest => head :: lines rest
  | .block inner rest => lines inner ++ lines rest

/-- The names of all markers, in order. -/
def markers (o : Outline) : List String :=
  o.lines.filterMap fun
    | .marker name => some name
    | _ => none

/-- The commands in order. -/
def commands (o : Outline) : List Command :=
  o.lines.filterMap fun
    | .command c => some c
    | _ => none

/-- Without the comments before the first other element. -/
def skipComments : Outline → Outline
  | .line (.comment _) rest => skipComments rest
  | o => o

/-- The last element at the outermost level that is no comment, as an outline of its own. -/
def last : Outline → Outline
  | .nil => .nil
  | .line (.comment _) rest => last rest
  | .line head rest =>
    match last rest with
    | .nil => .line head .nil
    | o => o
  | .block inner rest =>
    match last rest with
    | .nil => .block inner .nil
    | o => o

end Outline
end BranchingDialogue
