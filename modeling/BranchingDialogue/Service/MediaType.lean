import BranchingDialogue.Table

/-! Media types: a type and parameters after it, `type; name=value`. -/
namespace BranchingDialogue.Service

structure MediaType where
  type : String
  parameters : Table String
  deriving DecidableEq, Repr

namespace MediaType

/-- The letters A to Z in lower case, all else as it is. -/
def lower (cs : List Char) : List Char := cs.map Char.toLower

def isTokenChar (c : Char) : Bool :=
  c.isAlphanum || "!#$%&'*+.^_|~-".toList.contains c || c.toNat == 0x60

def skipSpaces (cs : List Char) : List Char := cs.dropWhile (· == ' ')

/-- The characters that a quoted value may hold after a backslash. -/
def isEscapable (c : Char) : Bool := 0x20 ≤ c.toNat && c.toNat ≤ 0x7E

def isQuotable (c : Char) : Bool := isEscapable c || (0x80 ≤ c.toNat && c.toNat ≤ 0xFF)

/-- The rest of a quoted value after its opening quote, and what follows it. -/
def quoted? : List Char → Option (List Char × List Char)
  | [] => none
  | '"' :: rest => some ([], rest)
  | '\\' :: c :: rest =>
    if isEscapable c then (quoted? rest).map fun r => (c :: r.1, r.2) else none
  | c :: rest =>
    if c != '\\' && isQuotable c then (quoted? rest).map fun r => (c :: r.1, r.2) else none

def token? (cs : List Char) : Option (List Char × List Char) :=
  let word := cs.takeWhile isTokenChar
  if word.isEmpty then none else some (word, cs.dropWhile isTokenChar)

def value? : List Char → Option (List Char × List Char)
  | '"' :: rest => quoted? rest
  | cs => token? cs

/-- One parameter with the semicolon before it, and what follows it. -/
def parameter? : List Char → Option ((String × String) × List Char)
  | ';' :: rest => do
    let (name, rest) ← token? (skipSpaces rest)
    match skipSpaces rest with
    | '=' :: rest =>
      let (value, rest) ← value? (skipSpaces rest)
      return ((String.ofList (lower name), String.ofList value), skipSpaces rest)
    | _ => none
  | _ => none

/-- At most `n` parameters, which are all there is. -/
def parameters? : Nat → List Char → Option (List (String × String))
  | _, [] => some []
  | 0, _ => none
  | n + 1, cs => do
    let (p, rest) ← parameter? cs
    return p :: (← parameters? n rest)

/-- Reads a media type. Of two parameters of one name the later counts. A parameter is not empty, so
the length of the text bounds their number. -/
def ofText? (s : String) : Option MediaType := do
  let cs := s.toList
  let type := skipSpaces (skipSpaces (cs.takeWhile (· != ';'))).reverse
  let ps ← parameters? cs.length (cs.dropWhile (· != ';'))
  return {
    type := String.ofList (lower type.reverse)
    parameters := ps.foldl (fun t p => t.put p.1 p.2) .empty }

end MediaType
end BranchingDialogue.Service
