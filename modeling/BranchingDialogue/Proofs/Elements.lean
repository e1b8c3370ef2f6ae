import BranchingDialogue.Proofs.Landing

/-! What stands at each level of an outline, comments put aside, and what follows each command on its own
level. -/
namespace BranchingDialogue

/-- What stands at a level of an outline and is no comment. -/
inductive Element
  | command (command : Command)
  | marker (name : String)
  | block (inner : Outline)

namespace Element

def isBlock : Element → Bool
  | .block _ => true
  | _ => false

def marker? : Element → Option String
  | .marker name => some name
  | _ => none

def commands : Element → List Command
  | .command c => [c]
  | .marker _ => []
  | .block inner => inner.commands

def alone : Element → Outline
  | .command c => .line (.command c) .nil
  | .marker name => .line (.marker name) .nil
  | .block inner => .block inner .nil

theorem alone_getLast?_cons (e : Element) (es : List Element) :
    ((e :: es).getLast?.map alone).getD .nil =
      match (es.getLast?.map alone).getD .nil with
      | .nil => e.alone
      | o => o := by
  rw [List.getLast?_cons]
  cases es.getLast? with
  | none => rfl
  | some f => cases f <;> rfl

end Element

namespace Line

def marker? : Line → Option String
  | .marker name => some name
  | _ => none

def markersOf (ls : List Line) : List String := ls.filterMap marker?

@[simp] theorem markersOf_nil : markersOf [] = [] := rfl

@[simp] theorem markersOf_command (c : Command) (ls : List Line) :
    markersOf (.command c :: ls) = markersOf ls := rfl

@[simp] theorem markersOf_marker (name : String) (ls : List Line) :
    markersOf (.marker name :: ls) = name :: markersOf ls := rfl

@[simp] theorem markersOf_comment (text : String) (ls : List Line) :
    markersOf (.comment text :: ls) = markersOf ls := rfl

end Line

namespace Outline

def elements : Outline → List Element
  | .nil => []
  | .line (.command c) rest => .command c :: elements rest
  | .line (.marker name) rest => .marker name :: elements rest
  | .line (.comment _) rest => elements rest
  | .block inner rest => .block inner :: elements rest

/-- The commands in order, each with what follows it on its own level. -/
def places : Outline → List (Command × Outline)
  | .nil => []
  | .line (.command c) rest => (c, rest) :: places rest
  | .line (.marker _) rest => places rest
  | .line (.comment _) rest => places rest
  | .block inner rest => places inner ++ places rest

@[simp] theorem elements_nil : elements .nil = [] := rfl

@[simp] theorem elements_command (c : Command) (rest : Outline) :
    elements (.line (.command c) rest) = .command c :: rest.elements := rfl

@[simp] theorem elements_marker (name : String) (rest : Outline) :
    elements (.line (.marker name) rest) = .marker name :: rest.elements := rfl

@[simp] theorem elements_comment (text : String) (rest : Outline) :
    elements (.line (.comment text) rest) = rest.elements := rfl

@[simp] theorem elements_block (inner rest : Outline) :
    elements (.block inner rest) = .block inner :: rest.elements := rfl

@[simp] theorem places_nil : places .nil = [] := rfl

@[simp] theorem places_command (c : Command) (rest : Outline) :
    places (.line (.command c) rest) = (c, rest) :: rest.places := rfl

@[simp] theorem places_marker (name : String) (rest : Outline) :
    places (.line (.marker name) rest) = rest.places := rfl

@[simp] theorem places_comment (text : String) (rest : Outline) :
    places (.line (.comment text) rest) = rest.places := rfl

@[simp] theorem places_block (inner rest : Outline) :
    places (.block inner rest) = inner.places ++ rest.places := rfl

@[simp] theorem commands_command (c : Command) (rest : Outline) :
    commands (.line (.command c) rest) = c :: rest.commands := rfl

@[simp] theorem commands_marker (name : String) (rest : Outline) :
    commands (.line (.marker name) rest) = rest.commands := rfl

@[simp] theorem commands_comment (text : String) (rest : Outline) :
    commands (.line (.comment text) rest) = rest.commands := rfl

@[simp] theorem commands_block (inner rest : Outline) :
    commands (.block inner rest) = inner.commands ++ rest.commands := by
  simp [commands_eq]

theorem markers_eq (o : Outline) : o.markers = Line.markersOf o.lines := by
  rw [markers, Line.markersOf]
  rfl

/-- Every command has a place. -/
theorem map_fst_places (o : Outline) : o.places.map Prod.fst = o.commands := by
  induction o with
  | nil => rfl
  | line head rest ih => cases head <;> simp [ih]
  | block inner rest ihi ihr => simp [ihi, ihr]

theorem exists_place {o : Outline} {c : Command} (hc : c ∈ o.commands) :
    ∃ rest, (c, rest) ∈ o.places := by
  rw [← o.map_fst_places] at hc
  obtain ⟨⟨d, rest⟩, hmem, rfl⟩ := List.mem_map.mp hc
  exact ⟨rest, hmem⟩

theorem mem_commands_of_mem_places {o : Outline} {c : Command} {rest : Outline}
    (h : (c, rest) ∈ o.places) : c ∈ o.commands := by
  rw [← o.map_fst_places]
  exact List.mem_map_of_mem h

/-- The first element, with the rest of the level, is what stands behind the first comments. -/
theorem skipComments_cases (o : Outline) :
    (o.skipComments = .nil ∧ o.elements = []) ∨
    (∃ c rest, o.skipComments = .line (.command c) rest ∧
      o.elements = .command c :: rest.elements) ∨
    (∃ name rest, o.skipComments = .line (.marker name) rest ∧
      o.elements = .marker name :: rest.elements ∧ o.lines = .marker name :: rest.lines) ∨
    (∃ inner rest, o.skipComments = .block inner rest ∧
      o.elements = .block inner :: rest.elements) := by
  induction o with
  | nil => exact .inl ⟨rfl, rfl⟩
  | line head rest ih =>
    cases head with
    | command c => exact .inr (.inl ⟨c, rest, rfl, rfl⟩)
    | marker name => exact .inr (.inr (.inl ⟨name, rest, rfl, rfl, rfl⟩))
    | comment text => exact ih
  | block inner rest => exact .inr (.inr (.inr ⟨inner, rest, rfl, rfl⟩))

theorem last_eq (o : Outline) :
    o.last = (o.elements.getLast?.map Element.alone).getD .nil := by
  induction o with
  | nil => rfl
  | line head rest ih =>
    cases head with
    | command c =>
      rw [elements_command, Element.alone_getLast?_cons, ← ih]
      rfl
    | marker name =>
      rw [elements_marker, Element.alone_getLast?_cons, ← ih]
      rfl
    | comment text => exact ih
  | block inner rest _ ih =>
    rw [elements_block, Element.alone_getLast?_cons, ← ih]
    rfl

theorem marker_mem_lines_of_mem_elements {o : Outline} {name : String}
    (h : Element.marker name ∈ o.elements) : Line.marker name ∈ o.lines := by
  induction o with
  | nil => cases h
  | line head rest ih =>
    cases head with
    | command c =>
      simp only [elements_command, List.mem_cons, reduceCtorEq, false_or] at h
      exact List.mem_cons_of_mem _ (ih h)
    | marker other =>
      simp only [elements_marker, List.mem_cons, Element.marker.injEq] at h
      rcases h with rfl | h
      · exact List.mem_cons_self
      · exact List.mem_cons_of_mem _ (ih h)
    | comment text => exact ih h
  | block inner rest _ ih =>
    simp only [elements_block, List.mem_cons, reduceCtorEq, false_or] at h
    exact List.mem_append_right _ (ih h)

end Outline
end BranchingDialogue
