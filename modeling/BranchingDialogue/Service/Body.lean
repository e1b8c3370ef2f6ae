import BranchingDialogue.Json.Parse
import BranchingDialogue.Service.Charset
import BranchingDialogue.Service.Message

/-! What a request says in its body. -/
namespace BranchingDialogue.Service

/-- Why a body cannot be read. -/
inductive BodyError
  | unknownCharset
  | tooLarge
  | malformed
  deriving DecidableEq, Repr

def BodyError.status : BodyError → Nat
  | .unknownCharset => 415
  | .tooLarge => 413
  | .malformed => 400

theorem BodyError.status_bounds (e : BodyError) : 400 ≤ e.status ∧ e.status < 500 := by
  cases e <;> decide

namespace Body

/-- What a request without a readable body says. -/
def nothing : Json := .object []

/-- Reads the text of a body: an object or an array. Text without any character says nothing. -/
def ofChars (cs : List Char) : Except BodyError Json :=
  if cs.isEmpty then .ok nothing
  else
    match Json.ofChars? cs with
    | some (.object ms) => .ok (.object ms)
    | some (.array vs) => .ok (.array vs)
    | _ => .error .malformed

/-- The name that a media type gives to its character set, `utf-8` if it gives none. -/
def charsetName (type : MediaType) : String :=
  let name := (type.parameters.get? "charset").getD ""
  if name = "" then "utf-8" else name

/-- The most bytes that are read: one mebibyte. -/
def maxBytes : Nat := 1024 * 1024

/-- Reads a body of a media type. A body that is no JSON says nothing. Only the family of the character
set is looked at before the length. -/
def read (type : MediaType) (bytes : List Text.Utf8.Byte) : Except BodyError Json :=
  if type.type ≠ "application/json" then .ok nothing
  else if !Charset.isFamilyOf (charsetName type) then .error .unknownCharset
  else if maxBytes < bytes.length then .error .tooLarge
  else
    match Charset.ofName? (charsetName type) with
    | some charset => ofChars (charset.decode bytes)
    | none => .error .unknownCharset

def ofRequest (r : Request) : Except BodyError Json :=
  match r.body, r.contentType.bind MediaType.ofText? with
  | some bytes, some type => read type bytes
  | _, _ => .ok nothing

end Body

end BranchingDialogue.Service
