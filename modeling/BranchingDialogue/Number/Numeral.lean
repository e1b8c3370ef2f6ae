import BranchingDialogue.Number.Shortest
import BranchingDialogue.Text.Blank

/-! Numbers as text: how they are written, and which texts are read as numbers. -/
namespace BranchingDialogue.Number

/-- Digits are written positionally while the point stands at most this many places after the first. -/
def positionalDigits : Nat := 21

/-- At most this many zeros follow the point before the first digit. -/
def leadingZeros : Nat := 6

/-- Writes `0.d₁d₂… · 10^n` for digits that neither start nor end with zero. -/
def layout (ds : List Char) (n : Int) : List Char :=
  let zeros (k : Nat) : List Char := List.replicate k '0'
  if 0 < n ∧ n ≤ positionalDigits then
    let k := n.toNat
    if ds.length ≤ k then ds ++ zeros (k - ds.length) else ds.take k ++ '.' :: ds.drop k
  else if n ≤ 0 ∧ -n < leadingZeros then '0' :: '.' :: zeros n.natAbs ++ ds
  else
    let sign := if n - 1 < 0 then '-' else '+'
    let power := sign :: Nat.toDigits 10 (n - 1).natAbs
    match ds with
    | d :: e :: es => d :: '.' :: e :: es ++ 'e' :: power
    | ds => ds ++ 'e' :: power

/-- The text of `m · 2^e`: the fewest digits that read back. -/
def magnitudeText (m : Nat) (e : Int) : List Char :=
  if m = 0 then ['0']
  else
    let (c, k) := Shortest.decimal m e
    let ds := Nat.toDigits 10 c
    layout (ds.reverse.dropWhile (· == '0')).reverse (ds.length + k)

/-- How a number is written in a message. Zero has no sign. -/
def text : Number → String
  | .finite s m e => String.ofList ((if s && m != 0 then ['-'] else []) ++ magnitudeText m e)
  | .infinite s => if s then "-Infinity" else "Infinity"
  | .nan => "NaN"

def digitValue? (base : Nat) (c : Char) : Option Nat :=
  let n := c.toNat
  let v? :=
    if '0' ≤ c && c ≤ '9' then some (n - '0'.toNat)
    else if 'a' ≤ c && c ≤ 'z' then some (n - 'a'.toNat + 10)
    else if 'A' ≤ c && c ≤ 'Z' then some (n - 'A'.toNat + 10)
    else none
  v?.filter (· < base)

/-- The value of a non-empty run of digits. -/
def natOfDigits? (base : Nat) (cs : List Char) : Option Nat :=
  if cs.isEmpty then none
  else cs.foldl (fun v? c => do return (← v?) * base + (← digitValue? base c)) (some 0)

def isDigit (c : Char) : Bool := '0' ≤ c && c ≤ '9'

/-- The value of digits with a sign before them or none. -/
def intOfDigits? : List Char → Option Int
  | '-' :: cs => (natOfDigits? 10 cs).map fun (n : Nat) => -(n : Int)
  | '+' :: cs => (natOfDigits? 10 cs).map fun (n : Nat) => (n : Int)
  | cs => (natOfDigits? 10 cs).map fun (n : Nat) => (n : Int)

/-- The digits after the point, and what follows them. -/
def fraction : List Char → List Char × List Char
  | '.' :: cs => (cs.takeWhile isDigit, cs.dropWhile isDigit)
  | cs => ([], cs)

/-- An unsigned decimal numeral with an optional point and power of ten, at least one digit before
or after the point. -/
def decimal? (negative : Bool) (cs : List Char) : Option Number := do
  let whole := cs.takeWhile isDigit
  let (part, rest) := fraction (cs.dropWhile isDigit)
  let digits ← natOfDigits? 10 (whole ++ part)
  let power : Int ←
    match rest with
    | [] => some 0
    | c :: cs => if c == 'e' || c == 'E' then intOfDigits? cs else none
  return ofDecimal negative digits (power - part.length)

def unsigned? (negative : Bool) (cs : List Char) : Option Number :=
  if cs = "Infinity".toList then some (.infinite negative) else decimal? negative cs

/-- Reads a text as a number. White space around it is ignored and nothing else reads as zero;
`0x`, `0o` and `0b` introduce whole numbers in another base; all that is no numeral is `nan`. -/
def ofText (s : String) : Number :=
  let base (b : Nat) (cs : List Char) : Option Number :=
    (natOfDigits? b cs).map fun n => ofRatio false n 1
  let read : List Char → Option Number
    | [] => some (ofNat 0)
    | '0' :: 'x' :: cs | '0' :: 'X' :: cs => base 16 cs
    | '0' :: 'o' :: cs | '0' :: 'O' :: cs => base 8 cs
    | '0' :: 'b' :: cs | '0' :: 'B' :: cs => base 2 cs
    | '-' :: cs => unsigned? true cs
    | '+' :: cs => unsigned? false cs
    | cs => unsigned? false cs
  (read (Text.trim s.toList)).getD .nan

end BranchingDialogue.Number
