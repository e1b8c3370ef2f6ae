import BranchingDialogue.Uid

/-! Identifiers in the order of time: milliseconds and a counter for those of one millisecond. -/
namespace BranchingDialogue.Uid

/-- The milliseconds since 1970 that count as zero, and so do all before. -/
def epoch : Number := Number.ofNat 1704067200000

/-- How many identifiers one millisecond has. -/
def slots : Nat := 4096

/-- What a clock shows: whole milliseconds after the epoch, or something that no identifier has. -/
inductive Reading
  | whole (milliseconds : Nat)
  | broken (milliseconds : Number)
  deriving DecidableEq, Repr

def Reading.ofClock (now : Number) : Reading :=
  let elapsed := now.sub epoch
  if elapsed.isNegative then .whole 0
  else
    match elapsed.toNat? with
    | some ms => .whole ms
    | none => .broken elapsed

/-- The last reading, and how many identifiers were asked for at it after the first. -/
structure Generator where
  last : Option Reading := none
  counter : Nat := 0
  deriving DecidableEq, Repr

namespace Generator

/-- Whether a reading is the one before. What is not even a number is never the same. -/
def repeats (g : Generator) (r : Reading) : Bool := g.last = some r && r ≠ .broken .nan

/-- Takes note of a reading, whether or not it gives an identifier. -/
def note (g : Generator) (r : Reading) : Generator :=
  if g.repeats r then { g with counter := g.counter + 1 } else { last := some r }

/-- The identifier at a reading that has just been noted. -/
def issue? (g : Generator) (r : Reading) : Except UidError String :=
  if slots ≤ g.counter then .error .counterOverflow
  else
    match r with
    | .whole ms => .ok (ofNat (ms * slots + g.counter))
    | .broken x => .error (.notWhole x)

def next (g : Generator) (now : Number) : Except UidError String × Generator :=
  let r := Reading.ofClock now
  let g := g.note r
  (g.issue? r, g)

/-- The identifiers of so many calls at one time, up to the first that fails. -/
def nextMany (g : Generator) (now : Number) : Nat → List String × Option UidError × Generator
  | 0 => ([], none, g)
  | n + 1 =>
    match g.next now with
    | (.error e, g) => ([], some e, g)
    | (.ok uid, g) =>
      let (uids, stop, g) := g.nextMany now n
      (uid :: uids, stop, g)

end Generator
end BranchingDialogue.Uid
