import BranchingDialogue.Number.Numeral
import BranchingDialogue.Table

/-! JSON values. -/
namespace BranchingDialogue

inductive Json
  | null
  | bool (value : Bool)
  | number (value : Number)
  | string (value : String)
  | array (items : List Json)
  | object (members : List (String × Json))
  deriving Repr, Inhabited

namespace Json

/-- The whole number that a member name spells, if it is one below `2^32 - 1` without needless zeros. -/
def index? (name : String) : Option Nat := do
  let n ← Number.natOfDigits? 10 name.toList
  if name.toList = Nat.toDigits 10 n ∧ n < 0xFFFFFFFF then some n else none

/-- An object of members as they were read: of one name the last value counts, at the place of the
first; names that are indices come before all others, in ascending order. -/
def ofMembers (members : List (String × Json)) : Json :=
  let distinct := (members.foldl (fun t m => t.put m.1 m.2) Table.empty).entries
  let indices := distinct.filterMap fun m => (index? m.1).map fun n => (n, m)
  .object ((indices.mergeSort fun a b => a.1 ≤ b.1).map (·.2) ++
    distinct.filter fun m => (index? m.1).isNone)

/-- The member of a name, if this is an object that has it. -/
def member? (name : String) : Json → Option Json
  | .object members => Table.lookup name members
  | _ => none

def string? : Json → Option String
  | .string s => some s
  | _ => none

def number? : Json → Option Number
  | .number n => some n
  | _ => none

def ofNat (n : Nat) : Json := .number (Number.ofNat n)

def strings (ss : List String) : Json := .array (ss.map .string)

/-- An object without the members that are absent. -/
def record (members : List (String × Option Json)) : Json :=
  .object (members.filterMap fun m => m.2.map fun v => (m.1, v))

/-- A value that may be absent, written as `null` then. -/
def orNull (f : α → Json) (value : Option α) : Json := (value.map f).getD .null

end Json
end BranchingDialogue
