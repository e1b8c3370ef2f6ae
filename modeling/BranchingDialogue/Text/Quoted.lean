/-! Text between quotes: double ones, as messages and JSON write it, or those that suit it best. -/
namespace BranchingDialogue.Text

def hexDigit (n : Nat) : Char := Nat.digitChar (n % 16)

/-- How a character stands between the quotes: the two special characters and the control
characters are escaped, all others stand for themselves. -/
def quotedChar (c : Char) : List Char :=
  if c = '"' then ['\\', '"']
  else if c = '\\' then ['\\', '\\']
  else if c = '\u0008' then ['\\', 'b']
  else if c = '\u000C' then ['\\', 'f']
  else if c = '\n' then ['\\', 'n']
  else if c = '\r' then ['\\', 'r']
  else if c = '\t' then ['\\', 't']
  else if c.toNat < 0x20 then ['\\', 'u', '0', '0', hexDigit (c.toNat / 16), hexDigit c.toNat]
  else [c]

def quote (s : String) : String :=
  String.ofList ('"' :: s.toList.flatMap quotedChar ++ ['"'])

/-- The single quote, unless a text holds it and another kind would do without an escape. -/
def quoteFor (cs : List Char) : Char :=
  if !cs.contains '\'' then '\''
  else if !cs.contains '"' then '"'
  else if !cs.contains (Char.ofNat 0x60) && !(cs.zip cs.tail).contains ('$', '{') then Char.ofNat 0x60
  else '\''

/-- How a character stands between quotes of some kind: control characters have two digits. -/
def shownChar (delimiter c : Char) : List Char :=
  if c = '\'' then if delimiter = c then ['\\', c] else [c]
  else if c = '"' then [c]
  else if c.toNat = 0xB ∨ (0x7F ≤ c.toNat ∧ c.toNat < 0xA0) ∨ (quotedChar c).length > 2 then
    ['\\', 'x', (hexDigit (c.toNat / 16)).toUpper, (hexDigit c.toNat).toUpper]
  else quotedChar c

/-- A text as a value that is shown. -/
def shown (s : String) : String :=
  let delimiter := quoteFor s.toList
  String.ofList (delimiter :: s.toList.flatMap (shownChar delimiter) ++ [delimiter])

example : shown "a\x00b\n" = "'a\\x00b\\n'" := by decide +kernel
example : shown "it's" = "\"it's\"" := by decide +kernel
example : quotedChar '\u001F' = ['\\', 'u', '0', '0', '1', 'f'] := by decide
example : quotedChar '\u2028' = ['\u2028'] := by decide

end BranchingDialogue.Text
