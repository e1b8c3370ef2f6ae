import BranchingDialogue.Service.MediaType
import BranchingDialogue.Text.Mark
import BranchingDialogue.Text.Utf16
import BranchingDialogue.Text.Utf7
import BranchingDialogue.Text.Utf8

/-! The character sets in which a body may be written. -/
namespace BranchingDialogue.Service

/-- A character set. The units of `utf16` may come in either order of bytes. -/
inductive Charset
  | utf8
  | utf16
  | utf16le
  | utf16be
  | utf7
  | utf7imap
  deriving DecidableEq, Repr

namespace Charset

/-- What counts of a name: its letters and digits, in lower case, without a year after a colon at the
end. -/
def plainName (name : List Char) : List Char :=
  let year := name.drop (name.length - 5)
  let isYear := year.head? == some ':' && year.length == 5 && year.tail.all Char.isDigit
  (MediaType.lower (if isYear then name.take (name.length - 5) else name)).filter Char.isAlphanum

/-- Whether a name is of the family whose names begin with `utf-`. -/
def isFamilyOf (name : String) : Bool := "utf-".toList.isPrefixOf (MediaType.lower name.toList)

/-- The character set of a name. Only names of one family are looked up. -/
def ofName? (name : String) : Option Charset :=
  if isFamilyOf name then
    match String.ofList (plainName name.toList) with
    | "utf8" => some utf8
    | "utf16" => some utf16
    | "utf16le" => some utf16le
    | "utf16be" => some utf16be
    | "utf7" => some utf7
    | "utf7imap" => some utf7imap
    | _ => none
  else none

/-- The text that bytes stand for, without a mark in front. -/
def decode (c : Charset) (bytes : List Text.Utf8.Byte) : List Char :=
  Text.withoutMark <|
    match c with
    | utf8 => Text.Utf8.decode bytes
    | utf16 => Text.Utf16.decode (Text.Utf16.guess bytes) bytes
    | utf16le => Text.Utf16.decode .little bytes
    | utf16be => Text.Utf16.decode .big bytes
    | utf7 => Text.Utf7.decode Text.Utf7.mail bytes
    | utf7imap => Text.Utf7.decode Text.Utf7.mailbox bytes

example : ofName? "UTF- 8_" = some utf8 ∧ ofName? "utf-8:2020" = some utf8 := by decide +kernel
example : ofName? "utf8" = none ∧ ofName? "utf-8x" = none := by decide +kernel

end Charset
end BranchingDialogue.Service
