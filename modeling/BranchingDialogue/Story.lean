import BranchingDialogue.Arena
import BranchingDialogue.Script.Document
import BranchingDialogue.Script.Vocabulary
import BranchingDialogue.Table

/-! A script made ready to be played: its commands as a tree, and where each marker leads. -/
namespace BranchingDialogue

/-- `markers` leads from a name to the first command after the marker, `none` if none comes after it. -/
structure Story where
  tree : Arena Command
  markers : Table (Option Nat)
  deriving Inhabited

/-- A marker with no command between it and the one before. -/
structure BuildFailure where
  marker : String
  previous : String
  deriving DecidableEq, Repr

def BuildFailure.message (e : BuildFailure) : String :=
  "Marker " ++ (Line.marker e.marker).format ++ " directly follows " ++
    (Line.marker e.previous).format ++ " with no command between them"

namespace Story

/-- A story as far as it is built, and the marker that no command has followed yet. -/
structure Draft where
  story : Story
  pending : Option String := none

namespace Draft

/-- Adds a command, which the pending marker then leads to. -/
def addCommand (d : Draft) (parent : Option Nat) (c : Command) : Draft where
  story :=
    { tree := d.story.tree.add parent c
      markers :=
        match d.pending with
        | some name => d.story.markers.put name (some d.story.tree.size)
        | none => d.story.markers }

def addMarker (d : Draft) (name : String) : Except BuildFailure Draft :=
  match d.pending with
  | some previous => .error { marker := name, previous }
  | none => .ok { d with pending := some name }

/-- Adds the elements of one level. Commands go beneath `parent`; a block goes beneath `last`, the
command before it on its level, and else belongs to the level itself. -/
def addOutline (parent : Option Nat) : Option Nat → Outline → Draft → Except BuildFailure Draft
  | _, .nil, d => .ok d
  | _, .line (.command c) rest, d =>
    addOutline parent (some d.story.tree.size) rest (d.addCommand parent c)
  | _, .line (.marker name) rest, d => do addOutline parent none rest (← d.addMarker name)
  | last, .line (.comment _) rest, d => addOutline parent last rest d
  | last, .block inner rest, d => do
    addOutline parent last rest (← addOutline (last.or parent) none inner d)

/-- A marker that nothing followed leads to the end. -/
def finish (d : Draft) : Story :=
  match d.pending with
  | some name => { d.story with markers := d.story.markers.put name none }
  | none => d.story

end Draft

def build (o : Outline) : Except BuildFailure Story :=
  (Draft.addOutline none none o { story := { tree := .empty, markers := .empty } }).map Draft.finish

/-- Where the story starts, unless it has no commands. -/
def first? (s : Story) : Option Nat := s.tree.first?

def command? (s : Story) (id : Nat) : Option Command := s.tree.get? id

/-- Whether a node is an option of a choice. -/
def isChoice (s : Story) (id : Nat) : Bool := (s.command? id).any Command.isChoice

/-- The options offered together with a node: it and the choices directly after it. -/
def group (s : Story) (id : Nat) : List Nat := id :: (s.tree.following id).takeWhile s.isChoice

/-- The sibling after a node, and after its alternatives if it is a choice. -/
def sequel? (s : Story) (id : Nat) : Option Nat :=
  if s.isChoice id then ((s.tree.following id).dropWhile s.isChoice).head?
  else s.tree.nextSibling? id

/-- Where the story goes on once a node and all beneath it is done: like the walk of the tree, but
leaving a choice leaves its alternatives too. -/
def successor? (s : Story) (id : Nat) : Option Nat := (s.tree.lineage id).findSome? s.sequel?

end Story
end BranchingDialogue
