import BranchingDialogue.Text.Blank
import BranchingDialogue.Text.Category

/-! Inline markup between runs of one character: code and struck text. Also hard line breaks, escaped
characters, and the stretch of plain text up to the next place where markup may begin. A recogniser
takes the text and gives what it found with the text after it. -/
namespace BranchingDialogue.Markup

/-- The length of the run of `d` that a text begins with. -/
def runLength (d : Char) (cs : List Char) : Nat := (cs.takeWhile (· == d)).length

/-- Puts a character before what was found. -/
def keep (c : Char) (found : Option (List Char × List Char)) : Option (List Char × List Char) :=
  found.map fun r => (c :: r.1, r.2)

/-- A backslash and the punctuation character it escapes. -/
def escaped? : List Char → Option (Char × List Char)
  | '\\' :: c :: cs => if Text.isAsciiSymbol c then some (c, cs) else none
  | _ => none

/-- The text up to a run of exactly `n` backticks; `inRun` after a backtick. -/
def closeCode (n : Nat) : Bool → List Char → Option (List Char × List Char)
  | _, [] => none
  | inRun, c :: cs =>
    if !inRun && runLength '`' (c :: cs) == n then some ([], (c :: cs).drop n)
    else keep c (closeCode n (c == '`') cs)

/-- Line feeds are spaces in code, and one space at each end is left out unless all are spaces. -/
def codeText (cs : List Char) : List Char :=
  let cs := cs.map fun c => if c == '\n' then ' ' else c
  if cs.any (· != ' ') && cs.head? == some ' ' && cs.getLast? == some ' ' then cs.tail.dropLast else cs

/-- Text between two runs of backticks of the same length. -/
def code? (cs : List Char) : Option (List Char × List Char) :=
  let n := runLength '`' cs
  if n = 0 then none else (closeCode n true (cs.drop n)).map fun r => (codeText r.1, r.2)

/-- The text up to a run of exactly `n` tildes that follows no white space. -/
def closeStruck (n : Nat) : List Char → Option (List Char × List Char)
  | [] => none
  | c :: cs =>
    if !Text.isBlank c && c != '~' && runLength '~' cs == n then some ([c], cs.drop n)
    else keep c (closeStruck n cs)

/-- Text between two runs of one or of two tildes, without white space at its ends. -/
def struck? (cs : List Char) : Option (List Char × List Char) :=
  let n := runLength '~' cs
  if n = 1 ∨ n = 2 then
    match cs.drop n with
    | [] => none
    | c :: rest => if Text.isBlank c then none else closeStruck n (c :: rest)
  else none

/-- Whether at least two spaces and a line feed are next. -/
def spacesBeforeBreak (cs : List Char) : Bool :=
  runLength ' ' cs ≥ 2 && (cs.drop (runLength ' ' cs)).head? == some '\n'

/-- A line feed after a backslash or after two spaces or more, unless nothing but white space follows. -/
def hardBreak? (cs : List Char) : Option (List Char) :=
  let rest? := match cs with
    | '\\' :: '\n' :: rest => some rest
    | _ => if spacesBeforeBreak cs then some (cs.drop (runLength ' ' cs + 1)) else none
  rest?.filter fun rest => !Text.isBlankText rest

/-- The characters of the local part of a mail address. -/
def isLocalChar (c : Char) : Bool :=
  c.isAlphanum || ".!#$%&'*+/=?_`{|}~-".toList.contains c

/-- Whether a local part and an at sign are next. -/
def localPartNext (cs : List Char) : Bool :=
  !(cs.takeWhile isLocalChar).isEmpty && (cs.dropWhile isLocalChar).head? == some '@'

/-- Whether markup may begin here. -/
def markupNext : List Char → Bool
  | [] => true
  | c :: cs =>
    "\\<![`*~_".toList.contains c ||
      ["http://", "https://", "ftp://", "www."].any fun w => w.toList.isPrefixOf (c :: cs)

/-- Plain text up to where markup may begin, or up to the character before a hard break or before
the local part of a mail address. -/
def plainRest : List Char → List Char × List Char
  | [] => ([], [])
  | c :: cs =>
    if markupNext (c :: cs) then ([], c :: cs)
    else if (c != ' ' && spacesBeforeBreak cs) || (!isLocalChar c && localPartNext cs) then ([c], cs)
    else (c :: (plainRest cs).1, (plainRest cs).2)

/-- The stretch of plain text that a text begins with: its first character, or its run of backticks
and tildes, and what follows up to where markup may begin. -/
def plain (cs : List Char) : List Char × List Char :=
  let first := cs.takeWhile fun c => c == '`' || c == '~'
  let n := max first.length 1
  let rest := cs.drop n
  if spacesBeforeBreak rest || localPartNext rest then (cs.take n, rest)
  else (cs.take n ++ (plainRest rest).1, (plainRest rest).2)

end BranchingDialogue.Markup
