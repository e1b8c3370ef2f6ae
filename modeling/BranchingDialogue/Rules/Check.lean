import BranchingDialogue.Rules.Objection
import BranchingDialogue.Script.Outline

/-! The check of a script: one walk through its elements that stops at the first objection which is
denied. What is warned of on the way is kept, also if the walk is stopped later. -/
namespace BranchingDialogue.Rules

/-- The markers seen so far, and the last one if no command has followed it yet. -/
structure Trail where
  seen : List String := []
  pending : Option String := none
  deriving DecidableEq, Repr

/-- What a walk knows on its way: its trail, and the objections that it has warned of. -/
structure Progress extends Trail where
  warnings : List Objection := []
  deriving DecidableEq, Repr

/-- A part of the walk: it goes on, or is stopped by an objection. What is known is kept in any case. -/
def Walk (α : Type) : Type := Progress → Except Objection α × Progress

namespace Walk

instance : Monad Walk where
  pure a := fun w => (.ok a, w)
  bind walk next := fun w =>
    match walk w with
    | (.ok a, w) => next a w
    | (.error x, w) => (.error x, w)

def known : Walk Progress := fun w => (.ok w, w)

def note (f : Progress → Progress) : Walk Unit := fun w => (.ok (), f w)

def fail (x : Objection) : Walk Unit := fun w => (.error x, w)

def failIf (broken : Prop) [Decidable broken] (x : Objection) : Walk Unit :=
  if broken then fail x else pure ()

/-- Takes an objection as severely as told. -/
def object (severity : Severity) (x : Objection) : Walk Unit :=
  match severity with
  | .allow => pure ()
  | .warn => note fun w => { w with warnings := w.warnings ++ [x] }
  | .deny => fail x

/-- Looks at a command and what follows it on its own level, comments left out. -/
def command (p : Policy) (declared : List String) (c : Command) (next : Outline) : Walk Unit :=
  let hasBlock : Bool := match next with
    | .block _ _ => true
    | _ => false
  let followed := match next with
    | .block _ rest => rest.skipComments
    | _ => next
  let reachable : Bool := match followed with
    | .nil | .line (.marker _) _ => false
    | _ => true
  if c.name = sayName then failIf c.text.isNone (.sayWithoutText c)
  else if c.name = choiceName then do
    failIf c.text.isNone (.choiceWithoutText c)
    failIf c.speaker.isSome (.choiceWithSpeaker c)
    failIf (!hasBlock) (.choiceWithoutBlock c)
  else if c.name = gotoName then do
    failIf c.speaker.isSome (.gotoWithSpeaker c)
    match c.text with
    | none => fail (.gotoWithoutTarget c)
    | some text =>
      match Command.targetOf? text with
      | none => fail (.gotoInvalidTarget text)
      | some target => do
        failIf (target ∉ declared) (.gotoUnknownTarget target)
        failIf (hasBlock || reachable) (.unreachableAfterGoto c)
  else if c.name = setName then failIf c.text.isNone (.setWithoutText c)
  else if c.name = ifName then failIf c.text.isNone (.ifWithoutText c)
  else if c.name = triggerName then do
    failIf c.speaker.isSome (.triggerWithSpeaker c)
    failIf c.text.isNone (.triggerWithoutText c)
  else object p.unknownCommands (.unknownCommand c.name)

/-- Looks at a marker where it stands. -/
def marker (name : String) : Walk Unit := do
  failIf (name ∈ (← known).seen) (.duplicateMarker name)
  note fun w => { w with seen := name :: w.seen }
  match (← known).pending with
  | some previous => fail (.consecutiveMarkers name previous)
  | none => note fun w => { w with pending := some name }

/-- Looks at a block and the marker directly before it. -/
def heading (p : Policy) (outermost : Bool) (previous : Option String) : Walk Unit :=
  match outermost, previous with
  | true, some name => object p.topLevelBlock (.topLevelBlock name)
  | _, _ => pure ()

/-- Walks through the elements of one level and all beneath them. `previous` is the marker directly
before the first element. -/
def level (p : Policy) (declared : List String) (outermost : Bool) :
    Option String → Outline → Walk Unit
  | _, .nil => pure ()
  | previous, .line (.comment _) rest => level p declared outermost previous rest
  | _, .line (.command c) rest => do
    command p declared c rest.skipComments
    note fun w => { w with pending := none }
    level p declared outermost none rest
  | _, .line (.marker name) rest => do
    marker name
    level p declared outermost (some name) rest
  | previous, .block inner rest => do
    heading p outermost previous
    level p declared false none inner
    level p declared outermost none rest

/-- Whether no command comes next to the first line. -/
def startsEmpty (o : Outline) : Bool :=
  match o.lines[1]? with
  | some (Line.command _) => false
  | _ => true

/-- Whether the last element is not the marker of the end. -/
def endsLate (o : Outline) : Bool :=
  match o.last with
  | .line (.marker name) _ => name != endMarker
  | _ => true

/-- Looks at the ends of a script. -/
def ends (o : Outline) : Walk Unit :=
  match o.skipComments with
  | .nil => fail .emptyScript
  | .line (.marker name) _ => do
    failIf (name ≠ startMarker) (.markerBeforeStart name)
    failIf (startsEmpty o) .emptyStart
    failIf (endMarker ∉ o.markers) .missingEnd
    failIf (endsLate o) .endNotLast
  | _ => fail .missingStart

def script (p : Policy) (o : Outline) : Walk Unit := do
  ends o
  level p o.markers true none o

end Walk

/-- The outcome of a check: what was warned of, and the objection that ended the check if one did. -/
structure Verdict where
  warnings : List Objection := []
  failure : Option Objection := none
  deriving DecidableEq, Repr

def check (p : Policy) (o : Outline) : Verdict :=
  match Walk.script p o {} with
  | (.ok _, w) => { warnings := w.warnings }
  | (.error x, w) => { warnings := w.warnings, failure := some x }

end BranchingDialogue.Rules
