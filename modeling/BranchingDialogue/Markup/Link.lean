import BranchingDialogue.Markup.Span
import BranchingDialogue.Text.Units

/-! Links and images written with brackets. -/
namespace BranchingDialogue.Markup

/-- What a label holds at some point: plain text, brackets inside it, or code. -/
inductive LabelPart
  | plain
  | bracket
  | code
  deriving DecidableEq

/-- A label after its opening bracket, and the text after its closing one. A bracket inside is closed
before and holds no other; the closing bracket is none that is escaped or in code. -/
def label : LabelPart → List Char → Option (List Char × List Char)
  | _, [] => none
  | .code, c :: cs => keep c (label (if c = '`' then .plain else .code) cs)
  | part, '\\' :: c :: cs => if Text.isLineBreak c then none else keep '\\' (keep c (label part cs))
  | _, ['\\'] => none
  | .plain, ']' :: cs => some ([], cs)
  | .plain, '[' :: cs => keep '[' (label .bracket cs)
  | .plain, '`' :: cs => keep '`' (label .code cs)
  | .bracket, ']' :: cs => keep ']' (label .plain cs)
  | .bracket, '[' :: _ => none
  | part, c :: cs => keep c (label part cs)

/-- Whether the closing bracket of a label without brackets inside comes next, code or not. -/
def closesFlat : List Char → Bool
  | [] => false
  | '\\' :: c :: cs => !Text.isLineBreak c && closesFlat cs
  | ['\\'] => false
  | ']' :: _ => true
  | '[' :: _ => false
  | _ :: cs => closesFlat cs

/-- Whether the name of a reference and its closing bracket come next; it is not all white space. -/
def referenceName (cs : List Char) : Bool :=
  (Text.trimStart cs).head? != some ']' && closesFlat cs

/-- A target between angle brackets, after the opening one. -/
def angleTarget : List Char → Option (List Char × List Char)
  | [] => none
  | '\\' :: c :: cs => if Text.isLineBreak c then none else keep '\\' (keep c (angleTarget cs))
  | ['\\'] => none
  | '>' :: cs => some ([], cs)
  | c :: cs => if c = '\n' ∨ c = '<' then none else keep c (angleTarget cs)

/-- White space and a closing parenthesis: the text after it. -/
def closeParen (cs : List Char) : Option (List Char) :=
  match Text.trimStart cs with
  | ')' :: rest => some rest
  | _ => none

/-- The title up to `close`, where the closing parenthesis of the link has to follow. After a
backslash the character closes only if no later one does. -/
def closeTitle (close : Char) : List Char → Option (List Char × List Char)
  | [] => none
  | '\\' :: c :: cs =>
    if c = close then
      match closeTitle close cs with
      | some (title, rest) => some ('\\' :: c :: title, rest)
      | none => (closeParen cs).map fun rest => (['\\'], rest)
    else keep '\\' (closeTitle close (c :: cs))
  | c :: cs => if c = close then (closeParen cs).map fun rest => ([], rest) else keep c (closeTitle close cs)

/-- A title in quotes or parentheses and the end of the link. -/
def title? : List Char → Option (List Char × List Char)
  | '"' :: cs => closeTitle '"' cs
  | '\'' :: cs => closeTitle '\'' cs
  | '(' :: cs => closeTitle ')' cs
  | _ => none

/-- The end of a link after its target: the title, empty if there is none, and the text after it. -/
def linkEnd (cs : List Char) : Option (List Char × List Char) :=
  let titled := if (cs.head?.map Text.isBlank).getD false then title? (Text.trimStart cs) else none
  titled.or ((closeParen cs).map fun rest => ([], rest))

/-- The inside of the parentheses of a link. -/
structure Destination where
  target : List Char
  title : List Char
  rest : List Char

def isTargetChar (c : Char) : Bool := !Text.isBlank c && !(c.toNat < 0x20)

/-- A target without white space: as much as leaves room for a title and the end, or else all up to
its last closing parenthesis. -/
def bareTarget (cs : List Char) : Option Destination :=
  let run := cs.takeWhile isTargetChar
  let rest := cs.dropWhile isTargetChar
  match linkEnd rest with
  | some (title, rest) => some { target := run, title, rest }
  | none =>
    let tail := run.reverse.takeWhile (· != ')')
    if tail.length < run.length then
      some { target := run.take (run.length - tail.length - 1), title := [], rest := tail.reverse ++ rest }
    else none

/-- A target between angle brackets, which are kept. -/
def bracedTarget : List Char → Option Destination
  | '<' :: cs => do
    let (inner, rest) ← angleTarget cs
    if inner.isEmpty then none
    let (title, rest) ← linkEnd rest
    return { target := '<' :: inner ++ ['>'], title, rest }
  | _ => none

/-- The text after `](`: a target and perhaps a title, or after white space a title alone. -/
def destination? (cs : List Char) : Option Destination :=
  let inner := Text.trimStart cs
  (bracedTarget inner).or <| (bareTarget inner).or <|
    if inner.length < cs.length then
      (title? inner).map fun r => { target := [], title := r.1, rest := r.2 }
    else none

/-- The part of a target before the first closing parenthesis that closes none of its own. -/
def beforeUnbalanced : Nat → List Char → Option (List Char)
  | _, [] => none
  | open_, '\\' :: c :: cs => (beforeUnbalanced open_ cs).map ('\\' :: c :: ·)
  | open_, '(' :: cs => (beforeUnbalanced (open_ + 1) cs).map ('(' :: ·)
  | 0, ')' :: _ => some []
  | open_ + 1, ')' :: cs => (beforeUnbalanced open_ cs).map (')' :: ·)
  | open_, c :: cs => (beforeUnbalanced open_ cs).map (c :: ·)

/-- Whether the angle bracket at the end of a target is there and not escaped. -/
def closesAngle (target : List Char) : Bool :=
  target.getLast? == some '>' && (runLength '\\' target.dropLast.reverse) % 2 == 0

/-- A link ends at a closing parenthesis too many in its target. What it takes up is counted from the
opening parenthesis, white space before the target included and at the end left out. -/
def Destination.balance (d : Destination) (cs : List Char) : Option Destination :=
  if d.target.head? = some '<' then if closesAngle d.target then some d else none
  else
    match beforeUnbalanced 0 d.target with
    | none => some d
    | some target =>
      let taken := Text.trimEnd (Text.takeUnits (Text.length target + 1) cs)
      some { target, title := [], rest := Text.dropUnits (Text.length taken) cs }

/-- Leaves out the backslash before a character of a class. -/
def unescape (inClass : Char → Bool) : List Char → List Char
  | [] => []
  | '\\' :: c :: cs => if inClass c then c :: unescape inClass cs else '\\' :: unescape inClass (c :: cs)
  | c :: cs => c :: unescape inClass cs

def stripAngles (target : List Char) : List Char :=
  if target.head? = some '<' then target.tail.dropLast else target

structure Link where
  image : Bool
  label : List Char
  target : List Char
  title : List Char

/-- The text after the opening bracket of a link or image. -/
def bracketed : List Char → Option (Bool × List Char)
  | '[' :: cs => some (false, cs)
  | '!' :: '[' :: cs => some (true, cs)
  | _ => none

/-- A label and, in parentheses, where it leads to. -/
def link? (cs : List Char) : Option (Link × List Char) := do
  let (image, cs) ← bracketed cs
  let (name, cs) ← label .plain cs
  match cs with
  | '(' :: cs =>
    let d ← (← destination? cs).balance cs
    let found : Link :=
      { image
        label := unescape (fun c => c == '[' || c == ']') name
        target := unescape Text.isSymbol (stripAngles d.target)
        title := unescape Text.isSymbol d.title }
    return (found, d.rest)
  | _ => none

/-- Whether a label with what follows it refers to a definition. -/
def refersOn (cs : List Char) : Bool :=
  (match label .plain cs with
    | some (_, '[' :: rest) => referenceName rest
    | _ => false) || referenceName cs

/-- The first character of what refers to a definition. No text defines any. -/
def reference? (cs : List Char) : Option (Char × List Char) := do
  let (image, inner) ← bracketed cs
  if refersOn inner then some (if image then '!' else '[', cs.tail) else none

end BranchingDialogue.Markup
