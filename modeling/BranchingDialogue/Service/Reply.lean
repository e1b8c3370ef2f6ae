import BranchingDialogue.Json.Basic
import BranchingDialogue.Report
import BranchingDialogue.Session

/-! How the service writes what it tells. -/
namespace BranchingDialogue.Service

def commandMembers (c : Command) : List (String × Option Json) :=
  [("kind", some (.string "command")), ("name", some (.string c.name)),
    ("prefix", c.speaker.map .string), ("suffix", c.text.map .string)]

def shown : Shown → Json
  | .speech speaker text html =>
    .record [("kind", some (.string "speech")), ("speaker", speaker.map .string),
      ("text", some (.string text)), ("html", some (.string html))]
  | .choice text html =>
    .object [("kind", .string "choice"), ("text", .string text), ("html", .string html)]
  | .jump target => .object [("kind", .string "jump"), ("target", .string target)]
  | .command c => .record (commandMembers c)

def shownOption (o : ShownOption) : Json :=
  .object [("index", .ofNat o.index), ("text", .string o.text), ("html", .string o.html)]

def shownOptions (os : List ShownOption) : Json := .array (os.map shownOption)

def step (s : Step) : Json :=
  .object [("step", .ofNat s.number), ("lines", .array (s.lines.map shown)),
    ("choices", shownOptions s.options), ("finished", .bool s.isFinished)]

def view (v : SessionView) : Json :=
  .object [("sessionId", .string v.id), ("scriptId", .string v.scriptId),
    ("finished", .bool v.isFinished), ("choices", shownOptions v.options),
    ("step", .ofNat v.steps)]

def report (r : Report) : Json :=
  .record [("ok", some (.bool r.isOk)), ("error", r.failure.map fun e => .string e.message),
    ("rule", r.rule?.map .string), ("warnings", some (.strings r.warnings))]

/-- A script in the list of all. -/
def listed (s : Script) : Json :=
  .object [("scriptId", .string s.id), ("markers", .strings s.story.markers.names),
    ("warnings", .strings s.warnings)]

end BranchingDialogue.Service
