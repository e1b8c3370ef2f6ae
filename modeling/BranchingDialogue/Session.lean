import BranchingDialogue.Display
import BranchingDialogue.Script

/-! A reader's run through a script: jumps are followed as soon as they come up. -/
namespace BranchingDialogue

structure Session where
  id : String
  script : Script
  run : Playthrough

/-- What a step shows. `options` is the choice to be made before the next step. -/
structure Step where
  number : Nat
  lines : List Shown
  options : List ShownOption
  isFinished : Bool
  deriving DecidableEq, Repr

/-- A session from outside. `steps` counts the steps taken. -/
structure SessionView where
  id : String
  scriptId : String
  isFinished : Bool
  options : List ShownOption
  steps : Nat
  deriving DecidableEq, Repr

namespace Session

variable {α : Type}

/-- Something done with a session. It may change the session also when it fails. -/
abbrev Action (α : Type) := Session → Except Failure α × Session

def start (id : String) (script : Script) : Session :=
  { id, script, run := .start script.story }

def isFinished (s : Session) : Bool := s.run.isFinished

def options (s : Session) : List ShownOption :=
  showOptions ((s.run.pending? s.script.story).getD [])

def view (s : Session) : SessionView :=
  { id := s.id, scriptId := s.script.id, isFinished := s.isFinished, options := s.options,
    steps := s.run.ticks }

/-- Does something with the run of a session. -/
def play (act : Story → Playthrough.Action α) : Action α := fun s =>
  let (outcome, run) := act s.script.story s.run
  (outcome.mapError .play, { s with run })

/-- Goes where a command leads, if it is a jump. -/
def follow (c : Command) : Action Unit := fun s =>
  if c.isJump then
    match c.target? with
    | none => (.error (.play (.unknownMarker (c.text.getD ""))), s)
    | some target => play (Playthrough.Action.goto · target) s
  else (.ok (), s)

/-- Takes the next line. The line is taken even if it is a jump that leads nowhere. -/
def step : Action Step := fun s =>
  match play Playthrough.Action.tick s with
  | (.error e, s) => (.error e, s)
  | (.ok tick, s) =>
    match tick.command.elim (.ok (), s) (follow · s) with
    | (.error e, s) => (.error e, s)
    | (.ok _, s) =>
      (.ok { number := tick.number, lines := (tick.command.map .ofCommand).toList,
             options := s.options, isFinished := s.isFinished }, s)

/-- Does something with the run of a session and shows the session after it. -/
def playAndShow (act : Story → Playthrough.Action Unit) : Action SessionView := fun s =>
  let (outcome, s) := play act s
  (outcome.map fun _ => s.view, s)

def choose (index : Number) : Action SessionView := playAndShow (Playthrough.Action.choose · index)

def goto (marker : String) : Action SessionView := playAndShow (Playthrough.Action.goto · marker)

end Session
end BranchingDialogue
