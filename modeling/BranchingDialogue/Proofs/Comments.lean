import BranchingDialogue.Proofs.Objections

/-! Comments have no say in anything: a script and the same script without its comments are checked and
built alike, wherever the comments stood. -/
namespace BranchingDialogue

namespace Outline

/-- The outline without its comments, on all levels. A block that holds nothing else stays as an empty
block. -/
def withoutComments : Outline → Outline
  | .nil => .nil
  | .line (.command c) rest => .line (.command c) (withoutComments rest)
  | .line (.marker name) rest => .line (.marker name) (withoutComments rest)
  | .line (.comment _) rest => withoutComments rest
  | .block inner rest => .block (withoutComments inner) (withoutComments rest)

end Outline

def Element.withoutComments : Element → Element
  | .block inner => .block inner.withoutComments
  | e => e

theorem Element.alone_withoutComments (e : Element) :
    e.withoutComments.alone = e.alone.withoutComments := by
  cases e <;> rfl

namespace Outline

@[simp] theorem withoutComments_nil : withoutComments .nil = .nil := rfl

@[simp] theorem withoutComments_command (c : Command) (rest : Outline) :
    withoutComments (.line (.command c) rest) = .line (.command c) rest.withoutComments := rfl

@[simp] theorem withoutComments_marker (name : String) (rest : Outline) :
    withoutComments (.line (.marker name) rest) = .line (.marker name) rest.withoutComments := rfl

@[simp] theorem withoutComments_comment (text : String) (rest : Outline) :
    withoutComments (.line (.comment text) rest) = rest.withoutComments := rfl

@[simp] theorem withoutComments_block (inner rest : Outline) :
    withoutComments (.block inner rest) = .block inner.withoutComments rest.withoutComments := rfl

theorem lines_withoutComments (o : Outline) : o.withoutComments.lines = o.lines := by
  induction o with
  | nil => rfl
  | line head rest ih => cases head <;> simp [ih]
  | block inner rest ihi ihr => simp [ihi, ihr]

theorem markers_withoutComments (o : Outline) : o.withoutComments.markers = o.markers := by
  rw [markers, markers, lines_withoutComments]

/-- Every element stays in its place, a block also if nothing is left in it. -/
theorem elements_withoutComments (o : Outline) :
    o.withoutComments.elements = o.elements.map Element.withoutComments := by
  induction o with
  | nil => rfl
  | line head rest ih => cases head <;> simp [ih, Element.withoutComments]
  | block inner rest _ ih => simp [ih, Element.withoutComments]

theorem skipComments_withoutComments (o : Outline) :
    o.withoutComments.skipComments = o.skipComments.withoutComments := by
  induction o with
  | nil => rfl
  | line head rest ih =>
    cases head with
    | command c => rfl
    | marker name => rfl
    | comment text => exact ih
  | block inner rest => rfl

theorem last_withoutComments (o : Outline) : o.withoutComments.last = o.last.withoutComments := by
  rw [last_eq, last_eq, elements_withoutComments, List.getLast?_map]
  cases o.elements.getLast? with
  | none => rfl
  | some e => exact e.alone_withoutComments

end Outline

namespace Rules

/-- A command is judged by the kind of what follows it. -/
theorem commandObjections_withoutComments (declared : List String) (c : Command) (o : Outline) :
    commandObjections declared c o.withoutComments.skipComments =
      commandObjections declared c o.skipComments := by
  rw [o.skipComments_withoutComments]
  rcases o.skipComments_cases with
    ⟨hs, -⟩ | ⟨d, rest, hs, -⟩ | ⟨name, rest, hs, -, -⟩ | ⟨inner, rest, hs, -⟩
  all_goals
    rw [hs]
    rfl

theorem levelObjections_withoutComments (declared : List String) (outermost : Bool)
    (previous : Option String) (o : Outline) (t : Trail) :
    levelObjections declared outermost previous o.withoutComments t =
      levelObjections declared outermost previous o t := by
  induction o generalizing outermost previous t with
  | nil => rfl
  | line head rest ih =>
    cases head with
    | command c =>
      rw [Outline.withoutComments_command, levelObjections_command, levelObjections_command, ih,
        commandObjections_withoutComments]
    | marker name =>
      rw [Outline.withoutComments_marker, levelObjections_marker, levelObjections_marker, ih]
    | comment text => exact ih outermost previous t
  | block inner rest ihi ihr =>
    rw [Outline.withoutComments_block, levelObjections_block, levelObjections_block, ihi, ihr]

theorem shapeObjection?_withoutComments (o : Outline) :
    shapeObjection? o.withoutComments = shapeObjection? o := by
  rw [shapeObjection?, shapeObjection?, o.skipComments_withoutComments, o.lines_withoutComments,
    o.markers_withoutComments, o.last_withoutComments]
  rcases o.skipComments_cases with
    ⟨hs, -⟩ | ⟨c, rest, hs, -⟩ | ⟨name, rest, hs, -, -⟩ | ⟨inner, rest, hs, -⟩
  case inr.inr.inl =>
    rw [hs, o.last_eq]
    rcases o.elements.getLast? with _ | ⟨_ | last | _⟩
    all_goals rfl
  all_goals
    rw [hs]
    rfl

theorem objections_withoutComments (o : Outline) : objections o.withoutComments = objections o := by
  rw [objections, objections, shapeObjection?_withoutComments, o.markers_withoutComments,
    levelObjections_withoutComments]

end Rules

namespace Story

theorem Draft.addOutline_withoutComments (parent last : Option Nat) (o : Outline) (d : Draft) :
    addOutline parent last o.withoutComments d = addOutline parent last o d := by
  induction o generalizing parent last d with
  | nil => rfl
  | line head rest ih =>
    cases head with
    | command c => exact ih parent (some d.story.tree.size) (d.addCommand parent c)
    | marker name =>
      rw [Outline.withoutComments_marker, addOutline, addOutline]
      cases d.addMarker name with
      | error e => rfl
      | ok m => exact ih parent none m
    | comment text => exact ih parent last d
  | block inner rest ihi ihr =>
    rw [Outline.withoutComments_block, addOutline, addOutline, ihi]
    cases addOutline (last.or parent) none inner d with
    | error e => rfl
    | ok m => exact ihr parent last m

end Story

namespace Outline

/-- Without its comments a script passes the same checks with the same warnings, fails the same ones by
the same objection, and is built into the same story or fails to be in the same way. -/
theorem withoutComments_alike (o : Outline) :
    (∀ p, Rules.check p o.withoutComments = Rules.check p o) ∧
      Story.build o.withoutComments = Story.build o := by
  constructor
  · intro p
    rw [Rules.check_eq_judge, Rules.objections_withoutComments, Rules.check_eq_judge]
  · rw [Story.build, Story.Draft.addOutline_withoutComments, Story.build]

end Outline
end BranchingDialogue
