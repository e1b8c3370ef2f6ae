import BranchingDialogue.Markup.Span
import BranchingDialogue.Text.Units

/-! Emphasis: runs of asterisks and of underscores that open and close it. Where a run may close is
looked up in a masked copy of the text, in which links, code, angle brackets and escaped characters
are covered. Lengths are counted in sixteen-bit units. -/
namespace BranchingDialogue.Markup

/-- The length of the link, code or angle brackets that a text begins with, as far as masking goes. -/
def coveredLength : List Char → Option Nat
  | '[' :: cs =>
    let name := cs.takeWhile fun c => c != '[' && c != ']'
    match cs.drop name.length with
    | ']' :: '(' :: cs =>
      let target := cs.takeWhile fun c => c != '(' && c != ')'
      if (cs.drop target.length).head? = some ')' then some (name.length + target.length + 4) else none
    | _ => none
  | '`' :: cs =>
    let inner := cs.takeWhile (· != '`')
    if inner.length < cs.length then some (inner.length + 2) else none
  | '<' :: cs =>
    let inner := cs.takeWhile fun c => c != '<' && c != '>'
    if (cs.drop inner.length).head? = some '>' then some (inner.length + 2) else none
  | _ => none

/-- Covers links, code and angle brackets by as many units. The first `n` characters are left out. -/
def coverSpans : Nat → List Char → List Char
  | _, [] => []
  | n + 1, _ :: cs => coverSpans n cs
  | 0, c :: cs =>
    match coveredLength (c :: cs) with
    | some n =>
      '[' :: List.replicate (Text.length ((c :: cs).take n) - 2) 'a' ++ ']' :: coverSpans (n - 1) cs
    | none => c :: coverSpans 0 cs

/-- Covers escaped characters by two units each. The cover of an escaped character of two units is one
unit short, and the unit after it is passed over. -/
def coverEscapes : List Char → List Char
  | [] => []
  | '\\' :: c :: cs =>
    if !Text.isSymbol c then '\\' :: coverEscapes (c :: cs)
    else if Text.width c = 1 then '+' :: '+' :: coverEscapes cs
    else
      match cs with
      | [] => ['+', '+']
      | d :: ds =>
        if Text.width d = 1 then '+' :: '+' :: d :: coverEscapes ds
        else '+' :: '+' :: coverEscapes (d :: ds)
  | c :: cs => c :: coverEscapes cs

def mask (cs : List Char) : List Char := coverEscapes (coverSpans 0 cs)

/-- What a run of delimiters may do. -/
inductive DelimiterRole
  | closing
  | opening
  | either
  deriving DecidableEq

/-- The role of a run by the characters on both sides of it. Between two letters only asterisks have one. -/
def role (delimiter before : Char) (after : Option Char) : Option DelimiterRole :=
  let spaceAfter := (after.map Text.isBlank).getD true
  let symbolAfter := (after.map Text.isSymbol).getD false
  if Text.isSymbol before then
    some (if spaceAfter then .closing else if symbolAfter then .either else .opening)
  else if Text.isBlank before then
    if spaceAfter then none else some .opening
  else if spaceAfter || symbolAfter then some .closing
  else if delimiter = '*' then some .either
  else none

/-- What a run does to the delimiters that are open and to those passed over. A run that could open as
well is passed over if its length and that of the opening run add up to a multiple of three and the
latter is none. -/
def afterRun (size run : Nat) (balance : Int) (passed : Nat) : DelimiterRole → Int × Nat
  | .opening => (balance + run, passed)
  | .closing => (balance - run, passed)
  | .either =>
    if size % 3 ≠ 0 ∧ (size + run) % 3 = 0 then (balance, passed + run) else (balance - run, passed)

/-- The search for the run that closes one of `size` delimiters: `start` units are behind, `before` is
the last character of them, `balance` delimiters are open and `passed` were passed over. The result
is where the closing run starts and how much of it is used. -/
def closingRun (delimiter : Char) (size : Nat) :
    Nat → Option Char → Int → Nat → List Char → Option (Nat × Nat)
  | _, _, _, _, [] => none
  | start, before, balance, passed, c :: cs =>
    let run := runLength delimiter (c :: cs)
    let role? :=
      match before with
      | none => none
      | some b =>
        if c = delimiter ∧ b ≠ delimiter then role delimiter b ((c :: cs).drop run).head? else none
    match role? with
    | none => closingRun delimiter size (start + Text.width c) (some c) balance passed cs
    | some r =>
      let (balance, passed) := afterRun size run balance passed r
      if balance > 0 then
        closingRun delimiter size (start + Text.width c) (some c) balance passed cs
      else some (start, min run (balance + run + passed).toNat)

/-- A beginning with two of the other delimiters, then one of the given kind, then two of the other
again is passed over up to there. -/
def skipMixed (delimiter other : Char) (cs : List Char) : List Char :=
  let isPlain (c : Char) : Bool := c != '*' && c != '_'
  match cs.dropWhile isPlain with
  | a :: b :: cs' =>
    match cs'.dropWhile isPlain with
    | d :: cs'' =>
      match cs''.dropWhile isPlain with
      | e :: f :: rest =>
        if a = other ∧ b = other ∧ d = delimiter ∧ e = other ∧ f = other then e :: f :: rest else cs
      | _ => cs
    | _ => cs
  | _ => cs

/-- Whether emphasis may open after a character, when a symbol is next inside it. -/
def opensAfter (previous : Option Char) : Bool :=
  match previous with
  | none => true
  | some c => Text.isBlank c || (Text.isSymbol c && c != '*' && c != '_')

/-- Emphasis, strong if two delimiters are used on each side: its content and the text after it. -/
def emphasis? (masked : List Char) (previous : Option Char) (cs : List Char) :
    Option (Bool × List Char × List Char) := do
  let delimiter ← cs.head?.filter fun c => c == '*' || c == '_'
  let size := runLength delimiter cs
  let next ← (cs.drop size).head?
  if Text.isBlank next then none
  if Text.isSymbol next then
    if !opensAfter previous then none
  else if delimiter == '_' && (previous.map Text.isLetter).getD false then none
  let view := Text.lastUnits (Text.length cs - size) masked
  let rest := skipMixed delimiter (if delimiter = '*' then '_' else '*') view
  let (start, used) ← closingRun delimiter size (Text.length view - Text.length rest) none size 0 rest
  let raw := Text.takeUnits (size + start + used) cs
  let width := if min size used % 2 = 1 then 1 else 2
  return (width == 2, Text.trimUnits width raw, Text.dropUnits (Text.length raw) cs)

end BranchingDialogue.Markup
