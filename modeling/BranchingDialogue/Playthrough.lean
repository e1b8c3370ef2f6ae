import BranchingDialogue.Story
import BranchingDialogue.Script.Vocabulary

/-! One run through a story: a line at a time, with choices to be made and jumps to markers. -/
namespace BranchingDialogue

/-- A `menu` is offered instead of the choice lines, and the chosen one is then spoken; a `group` is
offered by its first line, so that what follows is what lies beneath the chosen one. -/
inductive ChoiceSource
  | menu
  | group
  deriving DecidableEq, Repr

/-- Where a run stands: before a line (`chosen` if it is the option just picked), at a choice, or at
the end. -/
inductive Position
  | line (node : Nat) (chosen : Bool)
  | choice (options : List Nat) (source : ChoiceSource)
  | done
  deriving DecidableEq, Repr

/-- Why a run refuses a step. -/
inductive PlayError
  | choicePending
  | noChoice
  | ended
  | choiceOutOfRange (index : Number) (options : Nat)
  | unknownMarker (name : String)
  | missingNode (id : Nat)
  deriving DecidableEq, Repr

def PlayError.message : PlayError → String
  | .choicePending => "A choice must be made before tick can be called again"
  | .noChoice => "A choice may not be made until one is presented"
  | .ended => "A choice may not be made after the script has ended"
  | .choiceOutOfRange index options =>
    "Choice " ++ index.text ++ " is out of range; " ++ toString options ++ " option(s) are available"
  | .unknownMarker name => "No marker named " ++ name ++ " exists in this script"
  | .missingNode id => "No tree node with id " ++ toString id

/-- What a tick gave: its number, and the command unless the run is over. -/
structure Tick where
  number : Nat
  command : Option Command
  deriving DecidableEq, Repr

/-- A run: where it stands, and how many commands it has given. -/
structure Playthrough where
  position : Position
  ticks : Nat := 0
  deriving DecidableEq, Repr

/-- Before a line, or at the end if there is none. -/
def Position.before : Option Nat → Position
  | some node => .line node false
  | none => .done

namespace Story

/-- Where a run stands after a command: at the choice that it begins or that lies beneath it, at the
first line beneath it, or at what follows it. -/
def after (s : Story) (node : Nat) (chosen : Bool) : Position :=
  if s.isChoice node && !chosen then .choice (s.group node) .group
  else
    match s.tree.children node with
    | [] => .before (s.successor? node)
    | first :: rest => if s.isChoice first then .choice (first :: rest) .menu else .line first false

/-- Where a run stands after an option has been picked. -/
def afterChoice (s : Story) (option : Nat) : ChoiceSource → Position
  | .menu => .line option true
  | .group =>
    match s.tree.children option with
    | [] => .before (s.successor? option)
    | first :: _ => .line first false

end Story

namespace Playthrough

def start (s : Story) : Playthrough := { position := .before s.first? }

def isFinished (p : Playthrough) : Bool := p.position = .done

/-- The options of the choice that has to be made now. -/
def pending? (s : Story) (p : Playthrough) : Option (List Command) :=
  match p.position with
  | .choice options _ => some (options.filterMap s.command?)
  | _ => none

/-- Something done with a run. It may change the run also when it is refused. -/
def Action (α : Type) : Type := Playthrough → Except PlayError α × Playthrough

namespace Action

variable {α : Type}

/-- The line is counted before it is looked up. -/
def tick (s : Story) : Action Tick := fun p =>
  match p.position with
  | .done => (.ok { number := p.ticks, command := none }, p)
  | .choice _ _ => (.error .choicePending, p)
  | .line node chosen =>
    let counted := { p with ticks := p.ticks + 1 }
    match s.command? node with
    | none => (.error (.missingNode node), counted)
    | some c =>
      (.ok { number := p.ticks, command := some c }, { counted with position := s.after node chosen })

def choose (s : Story) (index : Number) : Action Unit := fun p =>
  match p.position with
  | .line _ _ => (.error .noChoice, p)
  | .done => (.error .ended, p)
  | .choice options source =>
    match index.toNat?.bind (options[·]?) with
    | none => (.error (.choiceOutOfRange index options.length), p)
    | some option => (.ok (), { p with position := s.afterChoice option source })

def goto (s : Story) (marker : String) : Action Unit := fun p =>
  match s.markers.get? marker with
  | none => (.error (.unknownMarker marker), p)
  | some target => (.ok (), { p with position := .before target })

/-- What an action gives and the run that it leads to, unless it is refused. -/
def outcome (act : Action α) (p : Playthrough) : Except PlayError (α × Playthrough) :=
  (act p).1.map fun a => (a, (act p).2)

end Action

def tick (s : Story) (p : Playthrough) : Except PlayError (Tick × Playthrough) := (Action.tick s).outcome p

def choose (s : Story) (index : Number) (p : Playthrough) : Except PlayError Playthrough :=
  ((Action.choose s index).outcome p).map (·.2)

def goto (s : Story) (marker : String) (p : Playthrough) : Except PlayError Playthrough :=
  ((Action.goto s marker).outcome p).map (·.2)

section
variable {s : Story} {p : Playthrough}

theorem Action.outcome_eq_ok_iff {α : Type} {act : Action α} {a : α} {q : Playthrough} :
    act.outcome p = .ok (a, q) ↔ act p = (.ok a, q) := by
  rw [outcome]
  obtain ⟨e | b, r⟩ := act p <;> simp [Except.map]

theorem Action.outcome_eq_error_iff {α : Type} {act : Action α} {e : PlayError} :
    act.outcome p = .error e ↔ (act p).1 = .error e := by
  rw [outcome]
  obtain ⟨e | b, r⟩ := act p <;> simp [Except.map]

theorem Action.map_outcome_eq_ok_iff {act : Action Unit} {q : Playthrough} :
    (act.outcome p).map (·.2) = .ok q ↔ act p = (.ok (), q) := by
  rw [outcome]
  obtain ⟨e | b, r⟩ := act p <;> simp [Except.map]

theorem Action.map_outcome_eq_error_iff {act : Action Unit} {e : PlayError} :
    (act.outcome p).map (·.2) = .error e ↔ (act p).1 = .error e := by
  rw [outcome]
  obtain ⟨e | b, r⟩ := act p <;> simp [Except.map]

theorem tick_of_done (h : p.position = .done) :
    p.tick s = .ok ({ number := p.ticks, command := none }, p) :=
  Action.outcome_eq_ok_iff.mpr (by rw [Action.tick, h])

theorem tick_of_choice {options : List Nat} {source : ChoiceSource}
    (h : p.position = .choice options source) : p.tick s = .error .choicePending :=
  Action.outcome_eq_error_iff.mpr (by rw [Action.tick, h])

theorem tick_of_line {node : Nat} {chosen : Bool} {d : Command} (h : p.position = .line node chosen)
    (hd : s.command? node = some d) :
    p.tick s = .ok ({ number := p.ticks, command := some d },
      { position := s.after node chosen, ticks := p.ticks + 1 }) := by
  refine Action.outcome_eq_ok_iff.mpr ?_
  rw [Action.tick, h]
  simp only [hd]

theorem choose_of_choice {options : List Nat} {source : ChoiceSource} {index : Number} {i option : Nat}
    (h : p.position = .choice options source) (hi : index.toNat? = some i)
    (hoption : options[i]? = some option) :
    p.choose s index = .ok { p with position := s.afterChoice option source } := by
  refine Action.map_outcome_eq_ok_iff.mpr ?_
  rw [Action.choose, h]
  simp only [hi, Option.bind_some, hoption]

theorem choose_of_out_of_range {options : List Nat} {source : ChoiceSource} {index : Number}
    (h : p.position = .choice options source) (hi : index.toNat?.bind (options[·]?) = none) :
    p.choose s index = .error (.choiceOutOfRange index options.length) := by
  refine Action.map_outcome_eq_error_iff.mpr ?_
  rw [Action.choose, h]
  simp only [hi]

theorem goto_of_some {marker : String} {target : Option Nat}
    (h : s.markers.get? marker = some target) :
    p.goto s marker = .ok { p with position := .before target } :=
  Action.map_outcome_eq_ok_iff.mpr (by rw [Action.goto, h])

theorem goto_of_none {marker : String} (h : s.markers.get? marker = none) :
    p.goto s marker = .error (.unknownMarker marker) :=
  Action.map_outcome_eq_error_iff.mpr (by rw [Action.goto, h])

end

end Playthrough
end BranchingDialogue
