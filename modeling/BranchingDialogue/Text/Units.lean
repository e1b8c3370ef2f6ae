/-! Lengths, cuts and the order of text counted in sixteen-bit units: a character above U+FFFF
takes two of them. -/
namespace BranchingDialogue.Text

/-- The number of sixteen-bit units of a character. -/
def width (c : Char) : Nat := if c.toNat < 0x10000 then 1 else 2

/-- The sixteen-bit units of a character, leading surrogate first. -/
def units (c : Char) : List Nat :=
  if c.toNat < 0x10000 then [c.toNat]
  else [0xD800 + (c.toNat - 0x10000) / 0x400, 0xDC00 + (c.toNat - 0x10000) % 0x400]

def length : List Char → Nat
  | [] => 0
  | c :: cs => width c + length cs

/-- Stands for one half of a character of two units. It belongs to no class of characters. -/
def half : Char := '\uE000'

/-- The first `n` units; a character cut in two leaves a `half`. -/
def takeUnits : Nat → List Char → List Char
  | _, [] => []
  | n, c :: cs =>
    if n = 0 then []
    else if width c ≤ n then c :: takeUnits (n - width c) cs
    else [half]

/-- What is left without the first `n` units; a character cut in two leaves a `half`. -/
def dropUnits : Nat → List Char → List Char
  | _, [] => []
  | n, c :: cs =>
    if n = 0 then c :: cs
    else if width c ≤ n then dropUnits (n - width c) cs
    else half :: cs

/-- The last `n` units, all of the text if it has no more. -/
def lastUnits (n : Nat) (cs : List Char) : List Char := dropUnits (length cs - n) cs

/-- What is left without `n` units at each end. -/
def trimUnits (n : Nat) (cs : List Char) : List Char :=
  takeUnits (length cs - 2 * n) (dropUnits n cs)

/-- The unit before whatever follows the character. -/
def lastUnit (c : Char) : Char := if width c = 1 then c else half

/-- The character of two units in a row, if they are the halves of one. -/
def joined? (high low : Nat) : Option Char :=
  if 0xD800 ≤ high ∧ high < 0xDC00 ∧ 0xDC00 ≤ low ∧ low < 0xE000 then
    some (Char.ofNat (0x10000 + (high - 0xD800) * 0x400 + (low - 0xDC00)))
  else none

/-- The character of a unit that is none of two. Half of a character alone reads as U+FFFD. -/
def single (u : Nat) : Char := if 0xD800 ≤ u ∧ u < 0xE000 then '\uFFFD' else Char.ofNat u

/-- The characters of some units. -/
def ofUnits : List Nat → List Char
  | [] => []
  | [u] => [single u]
  | u :: v :: us =>
    match joined? u v with
    | some c => c :: ofUnits us
    | none => single u :: ofUnits (v :: us)

/-- The order of texts by their units. -/
def unitsLE : List Nat → List Nat → Bool
  | [], _ => true
  | _ :: _, [] => false
  | a :: as, b :: bs => a < b || (a == b && unitsLE as bs)

/-- Whether `s` stands before `t`, or is `t`, in the order of units. -/
def before (s t : String) : Bool := unitsLE (s.toList.flatMap units) (t.toList.flatMap units)

@[simp] theorem length_nil : length [] = 0 := rfl

@[simp] theorem length_cons (c : Char) (cs : List Char) :
    length (c :: cs) = width c + length cs := rfl

example : takeUnits 2 ['a', '😀', 'b'] = ['a', half] := by decide
example : lastUnits 2 ['a', '😀', 'b'] = [half, 'b'] := by decide
example : ofUnits (['a', '😀'].flatMap units ++ [0xD83D]) = ['a', '😀', '\uFFFD'] := by decide
example : before "😀" "\uFF61" = true := by decide

end BranchingDialogue.Text
