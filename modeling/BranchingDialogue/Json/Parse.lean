import BranchingDialogue.Json.Basic
import BranchingDialogue.Text.Units

/-! Reading JSON text. A reader takes the text and gives the value with the text after it. -/
namespace BranchingDialogue.Json.Parse

abbrev Reader (α : Type) := List Char → Option (α × List Char)

/-- White space between tokens. -/
def skip (cs : List Char) : List Char :=
  cs.dropWhile fun c => c == ' ' || c == '\t' || c == '\n' || c == '\r'

/-- The given text, as it stands. -/
def literal (word : List Char) (value : Json) : Reader Json := fun cs =>
  if word.isPrefixOf cs then some (value, cs.drop word.length) else none

/-- Four hexadecimal digits. -/
def unit : Reader Nat := fun cs =>
  if (cs.take 4).length = 4 then
    (Number.natOfDigits? 16 (cs.take 4)).map fun n => (n, cs.drop 4)
  else none

/-- The character that a `\u` escape stands for. Two escapes make one character above U+FFFF. -/
def escapedUnit : Reader Char := fun cs => do
  let (u, rest) ← unit cs
  let joined := match rest with
    | '\\' :: 'u' :: more => do
      let (v, after) ← unit more
      return (← Text.joined? u v, after)
    | _ => none
  return joined.getD (Text.single u, rest)

/-- What a backslash and the character after it stand for. -/
def escape? : Char → Option Char
  | '"' => some '"'
  | '\\' => some '\\'
  | '/' => some '/'
  | 'b' => some '\u0008'
  | 'f' => some '\u000C'
  | 'n' => some '\n'
  | 'r' => some '\r'
  | 't' => some '\t'
  | _ => none

/-- The rest of a string after its opening quote. -/
def string : Nat → Reader (List Char)
  | 0, _ => none
  | fuel + 1, cs =>
    match cs with
    | [] => none
    | '"' :: rest => some ([], rest)
    | '\\' :: 'u' :: rest => do
      let (c, rest) ← escapedUnit rest
      let (s, rest) ← string fuel rest
      return (c :: s, rest)
    | '\\' :: e :: rest => do
      let c ← escape? e
      let (s, rest) ← string fuel rest
      return (c :: s, rest)
    | c :: rest =>
      if c == '\\' || c.toNat < 0x20 then none
      else do
        let (s, rest) ← string fuel rest
        return (c :: s, rest)

/-- A numeral: no needless zeros, digits on both sides of a point. -/
def number : Reader Json := fun cs => do
  let (negative, cs) := match cs with
    | '-' :: rest => (true, rest)
    | _ => (false, cs)
  let whole := cs.takeWhile Number.isDigit
  let rest := cs.dropWhile Number.isDigit
  if whole.isEmpty || (whole.length > 1 && whole.head? == some '0') then none
  let (part, rest) ← match rest with
    | '.' :: more =>
      let part := more.takeWhile Number.isDigit
      if part.isEmpty then none else some (part, more.dropWhile Number.isDigit)
    | _ => some ([], rest)
  let (power, rest) ← match rest with
    | c :: more =>
      if c == 'e' || c == 'E' then
        let (sign, digits) := match more with
          | '+' :: ds => ([], ds)
          | '-' :: ds => (['-'], ds)
          | _ => ([], more)
        let shown := digits.takeWhile Number.isDigit
        (Number.intOfDigits? (sign ++ shown)).map fun p => (p, digits.dropWhile Number.isDigit)
      else some (0, rest)
    | [] => some (0, rest)
  let digits ← Number.natOfDigits? 10 (whole ++ part)
  return (.number (Number.ofDecimal negative digits (power - part.length)), rest)

mutual

/-- A value, white space before it allowed. -/
def value : Nat → Reader Json
  | 0, _ => none
  | fuel + 1, cs =>
    match skip cs with
    | '"' :: rest => (string (fuel + 1) rest).map fun r => (.string (String.ofList r.1), r.2)
    | '[' :: rest =>
      match skip rest with
      | ']' :: rest => some (.array [], rest)
      | rest => (items fuel rest).map fun r => (.array r.1, r.2)
    | '{' :: rest =>
      match skip rest with
      | '}' :: rest => some (.object [], rest)
      | rest => (members fuel rest).map fun r => (ofMembers r.1, r.2)
    | 't' :: rest => literal ['r', 'u', 'e'] (.bool true) rest
    | 'f' :: rest => literal ['a', 'l', 's', 'e'] (.bool false) rest
    | 'n' :: rest => literal ['u', 'l', 'l'] .null rest
    | rest => number rest

/-- The items of an array that has some, up to its end. -/
def items : Nat → Reader (List Json)
  | 0, _ => none
  | fuel + 1, cs => do
    let (v, rest) ← value fuel cs
    match skip rest with
    | ']' :: rest => return ([v], rest)
    | ',' :: rest =>
      let (vs, rest) ← items fuel rest
      return (v :: vs, rest)
    | _ => none

/-- The members of an object that has some, up to its end. -/
def members : Nat → Reader (List (String × Json))
  | 0, _ => none
  | fuel + 1, cs =>
    match skip cs with
    | '"' :: rest => do
      let (k, rest) ← string (fuel + 1) rest
      match skip rest with
      | ':' :: rest =>
        let (v, rest) ← value fuel rest
        match skip rest with
        | '}' :: rest => return ([(String.ofList k, v)], rest)
        | ',' :: rest =>
          let (ms, rest) ← members fuel rest
          return ((String.ofList k, v) :: ms, rest)
        | _ => none
      | _ => none
    | _ => none

end

end Parse

/-- The value that a JSON text stands for; `none` if the text is not one JSON value. Every step of a
reader consumes a character, so twice the length of the text bounds their number. -/
def ofChars? (cs : List Char) : Option Json := do
  let (v, rest) ← Parse.value (2 * cs.length + 1) cs
  if (Parse.skip rest).isEmpty then some v else none

def ofText? (s : String) : Option Json := ofChars? s.toList

end BranchingDialogue.Json
