/-! Cutting text at a separator, and the one line ending that scripts are read with. -/
namespace BranchingDialogue.Text

/-- The stretches between the occurrences of `sep`; one more than there are occurrences. -/
def pieces (sep : Char) : List Char → List (List Char)
  | [] => [[]]
  | c :: cs =>
    if c = sep then [] :: pieces sep cs
    else
      match pieces sep cs with
      | [] => [[c]]
      | p :: ps => (c :: p) :: ps

/-- Puts `sep` between the given texts. -/
def join (sep : Char) : List (List Char) → List Char
  | [] => []
  | [p] => p
  | p :: q :: ps => p ++ sep :: join sep (q :: ps)

/-- Every carriage return, with the line feed after it if there is one, becomes a line feed. -/
def normalizeBreaks : List Char → List Char
  | [] => []
  | '\r' :: '\n' :: cs => '\n' :: normalizeBreaks cs
  | '\r' :: cs => '\n' :: normalizeBreaks cs
  | c :: cs => c :: normalizeBreaks cs

/-- The lines of a text; the text after a final line feed is one more line. -/
def lines (cs : List Char) : List (List Char) := pieces '\n' (normalizeBreaks cs)

/-- Whether the last line was closed by a line ending. -/
def endsInBreak (cs : List Char) : Bool := (normalizeBreaks cs).getLast? == some '\n'

theorem pieces_ne_nil (sep : Char) (cs : List Char) : pieces sep cs ≠ [] := by
  cases cs with
  | nil => simp [pieces]
  | cons c cs =>
    simp only [pieces]
    split
    · simp
    · split <;> simp

/-- Cutting loses nothing: the pieces with the separator between them are the text. -/
@[simp] theorem join_pieces (sep : Char) (cs : List Char) : join sep (pieces sep cs) = cs := by
  induction cs with
  | nil => rfl
  | cons c cs ih =>
    simp only [pieces]
    cases hp : pieces sep cs with
    | nil => exact absurd hp (pieces_ne_nil sep cs)
    | cons p ps =>
      rw [hp] at ih
      by_cases h : c = sep
      · simp [h, join, ih]
      · rw [if_neg h]
        cases ps <;> simpa [join] using ih

example : lines ['a', '\r', '\n', 'b', '\r', 'c'] = [['a'], ['b'], ['c']] := by decide

end BranchingDialogue.Text
