import BranchingDialogue.Proofs.Approval
import BranchingDialogue.Proofs.Flattening
import Mathlib.Data.List.TakeWhile

/-! The bodies of commands: what a script has directly after a command and one level deeper, and what
of it lies beneath the command in the tree of the story. A script that passes its check has a body for
each of its choices, but a body may hold nothing to play. -/
namespace BranchingDialogue

namespace Outline

/-- The trees of an outline, one for each place: beneath a command lie the trees of the blocks after it. -/
theorem subtrees_forest (o : Outline) :
    o.forest.subtrees = o.places.map fun place => .node place.1 place.2.layers.1 := by
  rw [forest, Forest.subtrees_append]
  induction o with
  | nil => rfl
  | line head rest ih =>
    cases head with
    | command c =>
      rw [layers, places_command, List.map_cons, ← ih]
      rfl
    | marker name =>
      rw [layers, places_marker, ← ih, Forest.subtrees_append]
      rfl
    | comment text => exact ih
  | block inner rest ihi ihr =>
    rw [layers, Forest.subtrees_append, Forest.subtrees_append, ihi, List.append_assoc, ihr,
      places_block, List.map_append]

/-- The blocks at the front hold the commands of the first layer. -/
theorem commands_layers (o : Outline) :
    Forest.commands o.layers.1 = (o.elements.takeWhile Element.isBlock).flatMap Element.commands := by
  induction o with
  | nil => rfl
  | line head rest ih =>
    cases head with
    | command c => rfl
    | marker name => rfl
    | comment text => exact ih
  | block inner rest _ ih =>
    have hinner := inner.commands_forest
    rw [forest] at hinner
    rw [layers, Forest.commands_append, hinner, ih]
    rfl

end Outline

theorem Forest.ids_eq_nil_iff {n : Nat} {ts : Forest} : Forest.ids n ts = [] ↔ ts.commands = [] := by
  cases ts with
  | nil => simp [Forest.ids]
  | cons t ts =>
    obtain ⟨c, cs⟩ := t
    simp [Forest.ids, Forest.commands_cons]

namespace Story

variable {o rest : Outline} {s : Story} {k : Nat} {c : Command}

/-- Beneath a command lie the trees of the blocks after it. -/
theorem children_of_build (h : build o = .ok s) (hk : o.places[k]? = some (c, rest)) :
    s.tree.children k = Forest.ids (k + 1) rest.layers.1 := by
  have hsubtree : o.forest.subtrees[k]? = some (.node c rest.layers.1) := by
    rw [o.subtrees_forest, List.getElem?_map, hk]
    rfl
  obtain ⟨parent, hplaced⟩ := (laid_of_build h).placed.subtree hsubtree
  rw [Nat.zero_add] at hplaced
  rw [Arena.children, (Arena.placed_cons.mp hplaced).1]
  rfl

/-- Every node is that of a command in its place. -/
theorem exists_place_of_build (h : build o = .ok s) (hc : s.command? k = some c) :
    ∃ rest, o.places[k]? = some (c, rest) := by
  rw [command?_of_build h, ← o.map_fst_places, List.getElem?_map] at hc
  obtain ⟨⟨d, rest⟩, hplace, rfl⟩ := Option.map_eq_some_iff.mp hc
  exact ⟨rest, hplace⟩

/-- A node has something beneath it just if one of the blocks directly after its command holds a
command. -/
theorem children_ne_nil_iff (h : build o = .ok s) (hk : o.places[k]? = some (c, rest)) :
    s.tree.children k ≠ [] ↔
      ∃ inner, .block inner ∈ rest.elements.takeWhile Element.isBlock ∧ inner.commands ≠ [] := by
  rw [children_of_build h hk, ne_eq, Forest.ids_eq_nil_iff, rest.commands_layers,
    List.flatMap_eq_nil_iff]
  constructor
  · intro hsome
    obtain ⟨e, he, hcommands⟩ : ∃ e ∈ rest.elements.takeWhile Element.isBlock, e.commands ≠ [] := by
      simpa using hsome
    cases e with
    | block inner => exact ⟨inner, he, hcommands⟩
    | command c => cases List.mem_takeWhile_imp he
    | marker name => cases List.mem_takeWhile_imp he
  · rintro ⟨inner, he, hcommands⟩ hnone
    exact hcommands (hnone _ he)

end Story

namespace Script

/-- Each choice of a script that was compiled has a body. Something lies beneath it just if its body holds
a command, so a choice whose body is made of comments and markers leads nowhere. -/
theorem body_of_compile {p : Policy} {id source : String} {script : Script} {notices : List Notice}
    (h : compile p id source = (.ok script, notices)) {k : Nat} {c : Command}
    (hk : script.story.command? k = some c) (hc : c.isChoice = true) :
    ∃ rest, script.document.outline.places[k]? = some (c, rest) ∧
      (∃ inner, rest.elements.head? = some (.block inner)) ∧
      (script.story.tree.children k ≠ [] ↔
        ∃ inner, .block inner ∈ rest.elements.takeWhile Element.isBlock ∧ inner.commands ≠ []) := by
  obtain ⟨-, hfailure, hbuild⟩ := checks_of_compile h
  have hkept := Rules.failure_check_eq_none_iff.mp hfailure
  have hname : c.name = choiceName := by simpa [Command.isChoice] using hc
  obtain ⟨rest, hplace⟩ := Story.exists_place_of_build hbuild hk
  have hproper := hkept.proper c rest (List.mem_of_getElem? hplace)
  exact ⟨rest, hplace, (hproper.choice hname).2.2, Story.children_ne_nil_iff hbuild hplace⟩

theorem body_of_compile_nested :
    ∃ script notices, compile {} "s"
        "%START%\n|CHOICE| a\n    // b\n        |SAY| c\n|CHOICE| d\n    |SAY| e\n%END%\n" =
          (.ok script, notices) ∧
      script.story.command? 0 = some { name := "CHOICE", text := some "a" } ∧
      script.story.tree.children 0 = [1] ∧
      ∃ rest, script.document.outline.places[0]? =
          some ({ name := "CHOICE", text := some "a" }, rest) ∧
        ∃ inner, rest.elements.head? = some (.block inner) := by
  refine Exists.imp (fun script h => ⟨[], h, ?_⟩) ⟨_, (compile_eq_judge {} _ _).trans rfl⟩
  have hscript := Except.ok.inj (congrArg Prod.fst ((compile_eq_judge {} _ _).symm.trans h))
  have hcommand : script.story.command? 0 = some { name := "CHOICE", text := some "a" } := by
    rw [← hscript]
    rfl
  have hchildren : script.story.tree.children 0 = [1] := by
    rw [← hscript]
    rfl
  obtain ⟨rest, hplace, hbody, -⟩ := body_of_compile h hcommand rfl
  exact ⟨hcommand, hchildren, rest, hplace, hbody⟩

/-- A body may hold nothing to play: here it is a comment. -/
theorem exists_choice_without_children :
    ∃ script, compile {} "s" "%START%\n|CHOICE| a\n    // b\n%END%\n" = (.ok script, []) ∧
      script.story.isChoice 0 = true ∧ script.story.tree.children 0 = [] :=
  ⟨_, (compile_eq_judge {} _ _).trans rfl, rfl, rfl⟩

end Script
end BranchingDialogue
