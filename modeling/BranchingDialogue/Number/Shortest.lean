import BranchingDialogue.Number.Basic

/-! The decimal of fewest digits that reads back as a given binary value, and of those the nearest
to it. -/
namespace BranchingDialogue.Number.Shortest

/-- The value `m · 2^e` and the values that round to it, over the common denominator `den`: they lie
between `low` and `high`, ends included if `closed`. -/
structure Interval where
  low : Nat
  value : Nat
  high : Nat
  den : Nat
  closed : Bool
  deriving Repr

/-- Shifts a significand of less than 53 bits up as far as the least exponent allows. -/
def normalize (m : Nat) (e : Int) : Nat × Int :=
  let target := max (e - (52 - m.log2 : Nat)) (-1074)
  if target < e then (m <<< (e - target).toNat, target) else (m, e)

/-- Neighbours are one unit away, except below a power of two, where they are half as far. -/
def interval (m : Nat) (e : Int) : Interval :=
  let (m, e) := normalize m e
  let up := 1 <<< e.toNat
  let below := if m = 1 <<< 52 ∧ e > -1074 then 1 else 2
  { low := (4 * m - below) * up
    value := 4 * m * up
    high := (4 * m + 2) * up
    den := 4 <<< (-e).toNat
    closed := m % 2 = 0 }

namespace Interval

/-- The denominators of `c · 10^k` and of the interval made equal: factors for each side. -/
def factors (i : Interval) (k : Int) : Nat × Nat := (Nat.pow 10 k.toNat * i.den, Nat.pow 10 (-k).toNat)

/-- Whether `c · 10^k` rounds to the value. -/
def holds (i : Interval) (k : Int) (c : Nat) : Bool :=
  let (a, b) := i.factors k
  if i.closed then i.low * b ≤ c * a && c * a ≤ i.high * b
  else i.low * b < c * a && c * a < i.high * b

/-- How far `c · 10^k` is from the value, in parts that depend on `k` only. -/
def distance (i : Interval) (k : Int) (c : Nat) : Nat :=
  let (a, b) := i.factors k
  max (c * a) (i.value * b) - min (c * a) (i.value * b)

/-- The point of the grid `10^k` nearest to the value among those that round to it. -/
def onGrid (i : Interval) (k : Int) : Option Nat :=
  let (a, b) := i.factors k
  let c := i.value * b / a
  match i.holds k c, i.holds k (c + 1) with
  | false, false => none
  | true, false => some c
  | false, true => some (c + 1)
  | true, true =>
    let here := i.distance k c
    let next := i.distance k (c + 1)
    some (if here < next || (here == next && c % 2 == 0) then c else c + 1)

/-- The least `n` with the value below `10^n`. -/
def position (i : Interval) : Int :=
  let guess : Int := ((i.value.log2 - i.den.log2 : Int) * 30103) / 100000 - 1
  let belowPower (n : Int) : Bool :=
    i.value * Nat.pow 10 (-n).toNat < Nat.pow 10 n.toNat * i.den
  ((List.range 4).map fun (j : Nat) => guess + (j : Int)).find? belowPower |>.getD (guess + 4)

end Interval

/-- The digits and the power of ten that they are multiplied with. -/
def decimal (m : Nat) (e : Int) : Nat × Int :=
  let i := interval m e
  let n := i.position
  let grids := (List.range 17).map fun (p : Nat) => n - ((p : Int) + 1)
  match grids.findSome? fun k => (i.onGrid k).map fun c => (c, k) with
  | some found => found
  | none => (i.value / i.den, 0)

end BranchingDialogue.Number.Shortest
