/-! The byte order mark that may stand in front of a text. -/
namespace BranchingDialogue.Text

def mark : Char := '\uFEFF'

/-- Text without one mark in front. -/
def withoutMark : List Char → List Char
  | c :: cs => if c = mark then cs else c :: cs
  | [] => []

end BranchingDialogue.Text
