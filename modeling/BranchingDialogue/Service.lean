import BranchingDialogue.Library
import BranchingDialogue.Rules.Policy
import BranchingDialogue.Service.Body
import BranchingDialogue.Service.Reply
import BranchingDialogue.Service.Route
import BranchingDialogue.Store

/-! The service: scripts to be read and sessions to be played, one request at a time. -/
namespace BranchingDialogue.Service

variable {σ α : Type}

/-- A failure that is no fault of the request is told to the operator only. -/
def failed (e : Failure) : Response :=
  match e.status? with
  | some status => .error status e.message
  | none =>
    { Response.error 500 "Internal server error." with
      notices := [.error ("[api] Request failed " ++ e.message)] }

def reply (f : α → Response) : Except Failure α → Response
  | .ok a => f a
  | .error e => failed e

def findScript (lib : Library) (id : String) : Except Failure Script :=
  match lib.scripts.get? id with
  | some script => .ok script
  | none => .error (.unknownScript id)

/-- A field of a body, or the complaint about it. -/
def field (name kind : String) (read : Json → Option α) (body : Json) : Except Response α :=
  match (body.member? name).bind read with
  | some a => .ok a
  | none => .error (.error 400 ("Body field \"" ++ name ++ "\" must be a " ++ kind))

/-- The policy that a body asks for. -/
def policyOf (body : Json) : Except Response Policy :=
  match body.member? "options" with
  | none => .ok {}
  | some v =>
    match Policy.ofJson? v with
    | some p => .ok p
    | none => .error (.error 400 "Body field \"options\" holds an invalid rule policy")

def health (lib : Library) (st : Store σ) : Response :=
  .ok (.object [("status", .string "ok"), ("scripts", .ofNat lib.scripts.size),
    ("sessions", .ofNat st.size)])

def scriptText (lib : Library) (id : String) : Response :=
  reply (fun s => .text ((lib.texts.get? s.id).getD "")) (findScript lib id)

def formattedText (lib : Library) (id : String) : Response :=
  reply (fun s => .text s.document.format) (findScript lib id)

def check (body : Json) : Response :=
  match field "source" "string" Json.string? body with
  | .error r => r
  | .ok source =>
    match policyOf body with
    | .error r => r
    | .ok p =>
      let (r, notices) := Report.ofSource p source
      { Response.ok (report r) with notices }

/-- Starts a session on the script that a body names. -/
def begin (lib : Library) (source : IdSource σ) (body : Json) (st : Store σ) :
    Response × Store σ :=
  match field "scriptId" "string" Json.string? body with
  | .error r => (r, st)
  | .ok id =>
    match findScript lib id with
    | .error e => (failed e, st)
    | .ok script =>
      let (outcome, st) := st.create source script
      (reply (fun s => .json 201 (.object [("sessionId", .string s.id),
        ("scriptId", .string s.script.id)])) outcome, st)

/-- Does something with a session and tells what came of it. -/
def act (id : String) (action : Session.Action α) (tell : α → Json) (st : Store σ) :
    Response × Store σ :=
  let (outcome, st) := st.act id action
  (reply (fun a => .ok (tell a)) outcome, st)

def choose (id : String) (body : Json) (st : Store σ) : Response × Store σ :=
  match field "index" "number" Json.number? body with
  | .error r => (r, st)
  | .ok index => act id (Session.choose index) view st

def goto (id : String) (body : Json) (st : Store σ) : Response × Store σ :=
  match field "marker" "string" Json.string? body with
  | .error r => (r, st)
  | .ok marker => act id (Session.goto marker) view st

def delete (id : String) (st : Store σ) : Response × Store σ :=
  let (outcome, st) := st.delete id
  (reply (fun _ => .empty) outcome, st)

def notFound : Response := .error 404 "Not found"

/-- Answers a request for a route. -/
def answer (lib : Library) (source : IdSource σ) (method : String) (route : Route) (body : Json)
    (st : Store σ) : Response × Store σ :=
  match method, route with
  | "GET", .health => (health lib st, st)
  | "GET", .scripts => (.ok (.array (lib.scripts.values.map listed)), st)
  | "GET", .script id => (scriptText lib id, st)
  | "GET", .formatted id => (formattedText lib id, st)
  | "POST", .check => (check body, st)
  | "POST", .sessions => begin lib source body st
  | "GET", .session id => (reply (fun v => .ok (view v)) (st.look id Session.view), st)
  | "DELETE", .session id => delete id st
  | "POST", .tick id => act id Session.step step st
  | "POST", .choose id => choose id body st
  | "POST", .goto id => goto id body st
  | _, _ => (notFound, st)

/-- Answers a request whose body could be read. -/
def dispatch (lib : Library) (source : IdSource σ) (method : String) (destination : Destination)
    (body : Json) (st : Store σ) : Response × Store σ :=
  match destination with
  | .route route => answer lib source method route body st
  | .unknown => (notFound, st)
  | .undecodable => (.page 400, st)
  | .nowhere => (.page 404, st)

/-- What stands before the routes: it finds where the target of a request leads, and reads what the
request says. -/
structure FrontEnd where
  destination : String → Destination
  body : Request → Except BodyError Json

namespace FrontEnd

/-- Answers a request. A target without a path is refused before all else. `HEAD` is answered like
`GET`, but without a body; `OPTIONS` is granted for any path. -/
def respond (front : FrontEnd) (lib : Library) (source : IdSource σ) (r : Request) (st : Store σ) :
    Response × Store σ :=
  let destination := front.destination r.target
  if destination = .nowhere then (.page 404, st)
  else if r.method = "OPTIONS" then (.empty, st)
  else
    match front.body r with
    | .error e => (.page e.status, st)
    | .ok body =>
      if r.method = "HEAD" then
        let (response, st) := dispatch lib source "GET" destination body st
        (response.withoutBody, st)
      else dispatch lib source r.method destination body st

/-- The front end that the service runs with. -/
def standard : FrontEnd where
  destination := Route.ofTarget
  body := Body.ofRequest

end FrontEnd

def respond (lib : Library) (source : IdSource σ) : Request → Store σ → Response × Store σ :=
  FrontEnd.standard.respond lib source

end BranchingDialogue.Service
