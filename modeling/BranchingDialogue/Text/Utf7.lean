import BranchingDialogue.Text.Mark
import BranchingDialogue.Text.Units

/-! Text as bytes below 80 hexadecimal, in which runs of digits stand for the units of other
characters. A digit gives six bits, the high ones first; a run begins with a shift byte and ends
with a hyphen or before the first byte that is no digit. -/
namespace BranchingDialogue.Text.Utf7

/-- The shift byte and a byte that is a digit of the value 63 besides the slash. -/
structure Scheme where
  shift : UInt8
  extra : Option UInt8 := none
  deriving DecidableEq, Repr

/-- The scheme of mail bodies. -/
def mail : Scheme := { shift := 0x2B }

/-- The scheme of the names of mailboxes. -/
def mailbox : Scheme := { shift := 0x26, extra := some 0x2C }

def hyphen : UInt8 := 0x2D

def digit? (s : Scheme) (b : UInt8) : Option Nat :=
  let n := b.toNat
  if 0x41 ≤ n ∧ n ≤ 0x5A then some (n - 0x41)
  else if 0x61 ≤ n ∧ n ≤ 0x7A then some (n - 0x61 + 26)
  else if 0x30 ≤ n ∧ n ≤ 0x39 then some (n - 0x30 + 52)
  else if n = 0x2B then some 62
  else if n = 0x2F ∨ s.extra = some b then some 63
  else none

/-- The units that digits give after the first `n` bits of one, of value `v`. Bits left over are
dropped. -/
def unitsOfDigits : Nat → Nat → List Nat → List Nat
  | _, _, [] => []
  | n, v, d :: ds =>
    let v := v * 64 + d
    if n + 6 < 16 then unitsOfDigits (n + 6) v ds
    else (v >>> (n - 10)) :: unitsOfDigits (n - 10) (v % (1 <<< (n - 10))) ds

/-- The units of a run, without a mark in front. -/
def run (digits : List Nat) : List Nat :=
  match unitsOfDigits 0 0 digits with
  | u :: us => if u = mark.toNat then us else u :: us
  | [] => []

/-- The units of a run that the text ends in. What follows its last whole group of three units is read
as a run of its own. -/
def lastRun (digits : List Nat) : List Nat :=
  let whole := digits.length - digits.length % 8
  run (digits.take whole) ++ run (digits.drop whole)

/-- The units of a byte that stands for itself. -/
def direct (b : UInt8) : Nat := if b < 0x80 then b.toNat else 0xFFFD

/-- The units of some bytes. Within a run its digits so far are at hand, the last one first; an empty
run with a hyphen stands for the shift byte. -/
def units (s : Scheme) : Option (List Nat) → List UInt8 → List Nat
  | none, [] => []
  | some digits, [] => lastRun digits.reverse
  | none, b :: bs => if b = s.shift then units s (some []) bs else direct b :: units s none bs
  | some digits, b :: bs =>
    match digit? s b with
    | some d => units s (some (d :: digits)) bs
    | none =>
      if b = hyphen then
        (if digits.isEmpty then [s.shift.toNat] else run digits.reverse) ++ units s none bs
      else
        run digits.reverse ++
          if b = s.shift then units s (some []) bs else direct b :: units s none bs

def decode (s : Scheme) (bytes : List UInt8) : List Char := ofUnits (units s none bytes)

example : decode mail [0x61, 0x2B, 0x41, 0x4F, 0x6B, 0x2D, 0x2B, 0x2D] = ['a', 'é', '+'] := by decide
example : decode mailbox [0x26, 0x2C, 0x77, 0x26, 0x2D] = ['&'] := by decide

end BranchingDialogue.Text.Utf7
