import BranchingDialogue.Text.Utf8

/-! Text that is written to a file in UTF-8 is read as the same text. -/
namespace BranchingDialogue

namespace Text.Utf8

variable {state : Option Owed} {o : Owed} {count value low high n x : Nat} {bs : List Byte}

end Text.Utf8

end BranchingDialogue
