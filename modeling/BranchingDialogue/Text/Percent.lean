import BranchingDialogue.Number.Numeral
import BranchingDialogue.Text.Utf8

/-! Percent coding: a percent sign and two digits stand for one byte of text in UTF-8. -/
namespace BranchingDialogue.Text.Percent

def hexByte? (high low : Char) : Option Utf8.Byte :=
  (Number.natOfDigits? 16 [high, low]).map UInt8.ofNat

def bytes? : List Char → Option (List Utf8.Byte)
  | [] => some []
  | '%' :: high :: low :: rest => do return (← hexByte? high low) :: (← bytes? rest)
  | c :: rest => if c = '%' then none else (bytes? rest).map (Utf8.encode [c] ++ ·)

/-- The text that is meant; `none` if there is none. -/
def decode? (cs : List Char) : Option (List Char) := (bytes? cs).bind Utf8.decode?

example : decode? "a%20%C3%A9".toList = some "a é".toList := by decide +kernel
example : decode? "%FF".toList = none ∧ decode? "%2".toList = none := by decide +kernel

end BranchingDialogue.Text.Percent
