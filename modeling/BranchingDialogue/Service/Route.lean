import BranchingDialogue.Service.Target
import BranchingDialogue.Text.Lines

/-! What the targets of requests stand for. -/
namespace BranchingDialogue.Service

/-- The things that the service answers for. -/
inductive Route
  | health
  | scripts
  | script (id : String)
  | formatted (id : String)
  | check
  | sessions
  | session (id : String)
  | tick (id : String)
  | choose (id : String)
  | goto (id : String)
  deriving DecidableEq, Repr

/-- Where a target leads. An id in it may be impossible to decode, and it may name no path. -/
inductive Destination
  | route (route : Route)
  | unknown
  | undecodable
  | nowhere
  deriving DecidableEq, Repr

namespace Route

/-- One slash at the end of a path does not count. -/
def trimEnd (segments : List (List Char)) : List (List Char) :=
  if segments.length > 1 ∧ segments.getLast? = some [] then segments.dropLast else segments

/-- A route with an id, if the id can be decoded. -/
def withId (id : List Char) (route : String → Route) : Destination :=
  if id.isEmpty then .unknown
  else
    match Text.Percent.decode? id with
    | some id => .route (route (String.ofList id))
    | none => .undecodable

/-- Where the segments beneath `api` lead. Fixed words count in any case. -/
def ofApi : List (List Char) → Destination
  | [noun] =>
    match String.ofList (MediaType.lower noun) with
    | "scripts" => .route .scripts
    | "check" => .route .check
    | "sessions" => .route .sessions
    | _ => .unknown
  | [noun, id] =>
    match String.ofList (MediaType.lower noun) with
    | "scripts" => withId id .script
    | "sessions" => withId id .session
    | _ => .unknown
  | [noun, id, verb] =>
    match String.ofList (MediaType.lower noun), String.ofList (MediaType.lower verb) with
    | "scripts", "formatted" => withId id .formatted
    | "sessions", "tick" => withId id .tick
    | "sessions", "choose" => withId id .choose
    | "sessions", "goto" => withId id .goto
    | _, _ => .unknown
  | _ => .unknown

/-- The length of the path of `api` by the segments after it. One slash more before the next belongs
to it. -/
def apiLength (rest : List (List Char)) : Nat := if rest.head? = some [] then 5 else 4

/-- Where a target leads whose path begins with `api`. -/
def ofApiTarget (target : List Char) (rest : List (List Char)) : Destination :=
  match (Target.path? (Target.beneath (apiLength rest) target)).map (Text.pieces '/') with
  | some ([] :: segments) => ofApi (trimEnd segments)
  | _ => .unknown

def ofTarget (target : String) : Destination :=
  match (Target.path? target.toList).map (Text.pieces '/') with
  | none => .nowhere
  | some ([] :: first :: rest) =>
    match String.ofList (MediaType.lower first) with
    | "health" => if trimEnd (first :: rest) = [first] then .route .health else .unknown
    | "api" => ofApiTarget target.toList rest
    | _ => .unknown
  | some _ => .unknown

example : ofTarget "/api//Scripts/?a=b" = .route .scripts := by decide +kernel
example : ofTarget "http://host/api/sessions/a%20b/tick" = .route (.tick "a b") := by decide +kernel
example : ofTarget "/api/scripts/%FF" = .undecodable := by decide +kernel

end Route
end BranchingDialogue.Service
