import BranchingDialogue.Json.Basic
import BranchingDialogue.Notice
import BranchingDialogue.Text.Utf8

/-! Requests to the service and its responses. -/
namespace BranchingDialogue.Service

structure Request where
  method : String
  target : String
  contentType : Option String := none
  body : Option (List Text.Utf8.Byte) := none
  deriving DecidableEq, Repr, Inhabited

inductive Payload
  | json (value : Json)
  | text (text : String)
  /-- A page for a request that could not be read or leads nowhere. What it says is left open. -/
  | page
  | nothing
  deriving Repr, Inhabited

/-- A response, and what is printed while it is made. A response without a body may still say what
its payload is. -/
structure Response where
  status : Nat
  payload : Payload
  hasBody : Bool := true
  notices : List Notice := []
  deriving Repr, Inhabited

def Payload.mediaType? : Payload → Option String
  | .json _ => some "application/json; charset=utf-8"
  | .text _ => some "text/plain; charset=utf-8"
  | .page => some "text/html; charset=utf-8"
  | .nothing => none

namespace Response

def json (status : Nat) (value : Json) : Response := { status, payload := .json value }

def ok (value : Json) : Response := json 200 value

def text (s : String) : Response := { status := 200, payload := .text s }

def page (status : Nat) : Response := { status, payload := .page }

def empty : Response := { status := 204, payload := .nothing }

def error (status : Nat) (message : String) : Response :=
  json status (.object [("error", .string message)])

def withoutBody (r : Response) : Response := { r with hasBody := false }

end Response
end BranchingDialogue.Service
