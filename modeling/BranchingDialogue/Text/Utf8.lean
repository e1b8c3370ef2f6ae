/-! Text as bytes in UTF-8. Reading never fails: each longest part that begins a character but does
not continue one is read as U+FFFD. -/
namespace BranchingDialogue.Text.Utf8

abbrev Byte := UInt8

def replacement : Char := '\uFFFD'

/-- A character begun: the continuation bytes still owed, the value so far, and the range of the
next byte. -/
structure Owed where
  count : Nat
  value : Nat
  low : Nat := 0x80
  high : Nat := 0xBF
  deriving DecidableEq, Repr

/-- What a byte between characters gives: characters that are complete, and one that is begun. -/
def lead (b : Nat) : List Char × Option Owed :=
  if b < 0x80 then ([Char.ofNat b], none)
  else if b < 0xC2 then ([replacement], none)
  else if b < 0xE0 then ([], some { count := 1, value := b - 0xC0 })
  else if b = 0xE0 then ([], some { count := 2, value := 0, low := 0xA0 })
  else if b = 0xED then ([], some { count := 2, value := 0xD, high := 0x9F })
  else if b < 0xF0 then ([], some { count := 2, value := b - 0xE0 })
  else if b = 0xF0 then ([], some { count := 3, value := 0, low := 0x90 })
  else if b < 0xF4 then ([], some { count := 3, value := b - 0xF0 })
  else if b = 0xF4 then ([], some { count := 3, value := 4, high := 0x8F })
  else ([replacement], none)

/-- One byte, between characters or inside one. A byte out of range ends the character before it
and is read again as a first byte. -/
def step : Option Owed → Nat → List Char × Option Owed
  | none, b => lead b
  | some o, b =>
    if o.low ≤ b ∧ b ≤ o.high then
      let value := o.value * 64 + (b - 0x80)
      if o.count ≤ 1 then ([Char.ofNat value], none)
      else ([], some { count := o.count - 1, value })
    else (replacement :: (lead b).1, (lead b).2)

def decodeFrom : Option Owed → List Byte → List Char
  | none, [] => []
  | some _, [] => [replacement]
  | state, b :: bs => (step state b.toNat).1 ++ decodeFrom (step state b.toNat).2 bs

def decode (bytes : List Byte) : List Char := decodeFrom none bytes

/-- Reading without replacement: `none` unless the bytes are well-formed. -/
def decode? (bytes : List Byte) : Option (List Char) :=
  let cs := decode bytes
  if cs.flatMap String.utf8EncodeChar = bytes then some cs else none

def encode (cs : List Char) : List Byte := cs.flatMap String.utf8EncodeChar

example : decode [0x61, 0xE6, 0x97, 0xA5] = ['a', '日'] := by decide
example : decode [0xF0, 0x9F, 0x98] = [replacement] := by decide
example : decode [0xE0, 0x80, 0x80] = [replacement, replacement, replacement] := by decide
example : decode? [0xEF, 0xBF, 0xBD] = some [replacement] ∧ decode? [0xC0] = none := by decide

end BranchingDialogue.Text.Utf8
