import BranchingDialogue.Text.Units

/-! Text as pairs of bytes: its sixteen-bit units in either order of bytes. -/
namespace BranchingDialogue.Text.Utf16

inductive ByteOrder
  | little
  | big
  deriving DecidableEq, Repr

/-- Bytes two by two. One that is left over is dropped. -/
def pairs : List UInt8 → List (UInt8 × UInt8)
  | a :: b :: bs => (a, b) :: pairs bs
  | _ => []

def unit (order : ByteOrder) (p : UInt8 × UInt8) : Nat :=
  match order with
  | .little => p.2.toNat * 0x100 + p.1.toNat
  | .big => p.1.toNat * 0x100 + p.2.toNat

def decode (order : ByteOrder) (bytes : List UInt8) : List Char :=
  ofUnits ((pairs bytes).map (unit order))

/-- The order of bytes that a mark in front tells; without one, the order in which more of the first
32 units are below U+0100, and little of two equals. -/
def guess (bytes : List UInt8) : ByteOrder :=
  match pairs (bytes.take 64) with
  | (0xFE, 0xFF) :: _ => .big
  | (0xFF, 0xFE) :: _ => .little
  | ps =>
    let small (order : ByteOrder) : Nat :=
      (ps.filter fun p => 0 < unit order p && unit order p < 0x100).length
    if small .big > small .little then .big else .little

example : decode .little [0x61, 0, 0x3D, 0xD8, 0, 0xDE] = ['a', '😀'] := by decide
example : guess [0, 0x7B, 0, 0x7D] = .big ∧ guess [0x7B, 0x7D] = .little := by decide

end BranchingDialogue.Text.Utf16
