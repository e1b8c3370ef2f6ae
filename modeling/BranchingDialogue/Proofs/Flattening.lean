import BranchingDialogue.Proofs.Landing
import BranchingDialogue.Proofs.Layout

/-! The tree of a story holds the commands of its script in the order of the text, which is also the
order of a walk through the tree: each node before what lies beneath it, siblings in order. -/
namespace BranchingDialogue

mutual

def Tree.commands : Tree → List Command
  | .node c cs => c :: Forest.commands cs

def Forest.commands : Forest → List Command
  | [] => []
  | t :: ts => t.commands ++ Forest.commands ts

end

mutual

/-- A tree and the trees within it, each before those beneath it. -/
def Tree.subtrees : Tree → List Tree
  | .node c cs => .node c cs :: Forest.subtrees cs

def Forest.subtrees : Forest → List Tree
  | [] => []
  | t :: ts => t.subtrees ++ Forest.subtrees ts

end

namespace Forest

@[simp] theorem commands_nil : commands [] = [] := rfl

theorem commands_cons (c : Command) (cs ts : Forest) :
    commands (.node c cs :: ts) = c :: (commands cs ++ commands ts) := rfl

theorem commands_append (ts us : Forest) : commands (ts ++ us) = commands ts ++ commands us := by
  induction ts with
  | nil => rfl
  | cons t ts ih =>
    obtain ⟨c, cs⟩ := t
    rw [List.cons_append, commands_cons, commands_cons, ih, List.cons_append, List.append_assoc]

theorem subtrees_cons (c : Command) (cs ts : Forest) :
    subtrees (.node c cs :: ts) = .node c cs :: (subtrees cs ++ subtrees ts) := rfl

theorem subtrees_append (ts us : Forest) : subtrees (ts ++ us) = subtrees ts ++ subtrees us := by
  induction ts with
  | nil => rfl
  | cons t ts ih =>
    obtain ⟨c, cs⟩ := t
    rw [List.cons_append, subtrees_cons, subtrees_cons, ih, List.cons_append, List.append_assoc]

theorem map_command_subtrees (ts : Forest) : (subtrees ts).map Tree.command = commands ts := by
  induction ts using Forest.induct with
  | nil => rfl
  | node c cs ts ihc iht =>
    rw [subtrees_cons, commands_cons, List.map_cons, List.map_append, ihc, iht, Tree.command_node]

theorem length_commands (ts : Forest) : (commands ts).length = size ts := by
  induction ts using Forest.induct with
  | nil => rfl
  | node c cs ts ihc iht =>
    rw [commands_cons, size_cons, Tree.children_node, List.length_cons, List.length_append, ihc, iht]
    omega

theorem length_subtrees (ts : Forest) : (subtrees ts).length = size ts := by
  rw [← length_commands, ← map_command_subtrees, List.length_map]

end Forest

namespace Outline

/-- The trees of an outline hold its commands in the order of the text. -/
theorem commands_forest (o : Outline) : o.forest.commands = o.commands := by
  rw [forest, Forest.commands_append, commands_eq]
  induction o with
  | nil => rfl
  | line head rest ih =>
    cases head with
    | command c =>
      rw [layers, Forest.commands_nil, Forest.commands_cons, ih]
      simp
    | marker name =>
      rw [layers, Forest.commands_nil, Forest.commands_append, ih]
      simp
    | comment text => exact ih
  | block inner rest ihi ihr =>
    rw [layers, Forest.commands_append, Forest.commands_append, ihi, List.append_assoc, ihr]
    simp

theorem size_forest (o : Outline) : o.forest.size = o.commands.length := by
  rw [← o.commands_forest, Forest.length_commands]

end Outline

namespace Arena

section
variable {α : Type} {a : Arena α}

/-- A walk from a node and its siblings to come, in order: each node before what lies beneath it. -/
inductive Visits (a : Arena α) : List Nat → List Nat → Prop
  | nil : a.Visits [] []
  | node {id : Nat} {others beneath later : List Nat} (hbeneath : a.Visits (a.children id) beneath)
      (hlater : a.Visits others later) : a.Visits (id :: others) (id :: (beneath ++ later))

/-- A walk is determined by where it starts. -/
theorem Visits.unique {ids xs ys : List Nat} (hx : a.Visits ids xs) (hy : a.Visits ids ys) :
    xs = ys := by
  induction hx generalizing ys with
  | nil =>
    cases hy
    rfl
  | node _ _ ihbeneath ihlater =>
    cases hy with
    | node hbeneath hlater => rw [ihbeneath hbeneath, ihlater hlater]

end

variable {a : Arena Command} {parent : Option Nat} {n : Nat} {ts : Forest}

/-- The trees within trees that stand in an arena stand there in the order of their numbers. -/
theorem Placed.subtree (h : a.Placed parent n ts) {i : Nat} {t : Tree} (hi : ts.subtrees[i]? = some t) :
    ∃ parent, a.Placed parent (n + i) [t] := by
  induction ts using Forest.induct generalizing parent n i with
  | nil => cases hi
  | node c cs ts ihc iht =>
    have hparts := placed_cons.mp h
    rw [Tree.children_node] at hparts
    obtain ⟨hn, hcs, hts⟩ := hparts
    rw [Forest.subtrees_cons] at hi
    cases i with
    | zero =>
      cases hi
      exact ⟨parent, placed_cons.mpr ⟨hn, hcs, placed_nil⟩⟩
    | succ i =>
      rw [List.getElem?_cons_succ] at hi
      by_cases hlt : i < Forest.size cs
      · rw [List.getElem?_append_left (by rwa [Forest.length_subtrees])] at hi
        have hnum : n + (i + 1) = n + 1 + i := by omega
        rw [hnum]
        exact ihc hcs hi
      · rw [List.getElem?_append_right (by rw [Forest.length_subtrees]; omega),
          Forest.length_subtrees] at hi
        have hnum : n + (i + 1) = n + 1 + Forest.size cs + (i - Forest.size cs) := by omega
        rw [hnum]
        exact iht hts hi

/-- Trees that stand in an arena hold their commands in the order of their numbers. -/
theorem Placed.get? (h : a.Placed parent n ts) {i : Nat} (hi : i < Forest.size ts) :
    a.get? (n + i) = ts.commands[i]? := by
  rw [← Forest.length_subtrees] at hi
  have hsubtree := List.getElem?_eq_getElem hi
  obtain ⟨q, hplaced⟩ := h.subtree hsubtree
  rw [Arena.get?, (placed_cons.mp hplaced).1, ← Forest.map_command_subtrees, List.getElem?_map,
    hsubtree]
  rfl

/-- Trees that stand in an arena are walked through in the order of their numbers. -/
theorem Placed.visits (h : a.Placed parent n ts) :
    a.Visits (Forest.ids n ts) (List.range' n (Forest.size ts)) := by
  induction ts using Forest.induct generalizing parent n with
  | nil => exact .nil
  | node c cs ts ihc iht =>
    obtain ⟨hn, hcs, hts⟩ := placed_cons.mp h
    rw [Tree.children_node] at hn hcs hts
    have hchildren : a.children n = Forest.ids (n + 1) cs := by
      rw [children, hn]
      rfl
    have hbeneath : a.Visits (a.children n) (List.range' (n + 1) (Forest.size cs)) := by
      rw [hchildren]
      exact ihc hcs
    have hwalk := Visits.node hbeneath (iht hts)
    have hrange : List.range' n (Forest.size (.node c cs :: ts)) =
        n :: (List.range' (n + 1) (Forest.size cs) ++
          List.range' (n + 1 + Forest.size cs) (Forest.size ts)) := by
      have hsize : Forest.size (.node c cs :: ts) = Forest.size cs + Forest.size ts + 1 := by
        rw [Forest.size_cons, Tree.children_node]
        omega
      rw [hsize, List.range'_succ, List.range'_append_1]
    rw [hrange]
    exact hwalk

end Arena

namespace Story

variable {o : Outline} {s : Story}

theorem size_of_build (h : build o = .ok s) : s.tree.size = o.commands.length := by
  rw [tree_of_build h, Arena.size_addForest, o.size_forest]
  exact Nat.zero_add _

theorem command?_of_build (h : build o = .ok s) (id : Nat) : s.command? id = o.commands[id]? := by
  rcases Nat.lt_or_ge id o.forest.size with hid | hid
  · have hget := (laid_of_build h).placed.get? hid
    rw [Nat.zero_add, o.commands_forest] at hget
    exact hget
  · have hsize := size_of_build h
    rw [o.size_forest] at hid
    rw [List.getElem?_eq_none hid, command?, Arena.get?, Array.getElem?_eq_none]
    · rfl
    · exact Nat.le_trans (Nat.le_of_eq hsize) hid

/-- The first command after a marker is numbered by the commands before the marker. -/
theorem command?_of_lines (h : build o = .ok s) {before after : List Line} {name : String}
    {c : Command} {cs : List Command} (ho : o.lines = before ++ .marker name :: after)
    (hc : Line.commandsOf after = c :: cs) :
    s.command? (Line.commandsOf before).length = some c := by
  rw [command?_of_build h, o.commands_eq, ho]
  simp [hc]

theorem first?_of_build (h : build o = .ok s) :
    s.first? = if o.commands = [] then none else some 0 := by
  rw [first?, Arena.first?, (laid_of_build h).roots, ← o.commands_forest]
  cases o.forest with
  | nil => rfl
  | cons t ts =>
    obtain ⟨c, cs⟩ := t
    rw [Forest.commands_cons]
    rfl

/-- A story cannot be built just when two markers follow each other with no command between them. Else
its nodes are the commands in the order of the text, which is the order of a walk through the tree;
the nodes lie beneath one another as in the forest of the script, and it starts at the first of them. -/
theorem build_flattens (o : Outline) :
    ((∃ e, build o = .error e) ↔
      ∃ previous next, [Line.marker previous, .marker next] <:+: o.lines) ∧
    ∀ s, build o = .ok s →
      s.tree.size = o.commands.length ∧ (∀ k, s.tree.get? k = o.commands[k]?) ∧
      (∀ ids, s.tree.Visits s.tree.roots ids ↔ ids = List.range o.commands.length) ∧
      (s.tree.roots = Forest.ids 0 o.forest ∧ s.tree.Placed none 0 o.forest) ∧
      s.first? = if o.commands = [] then none else some 0 := by
  refine ⟨exists_build_error_iff o, fun s h => ?_⟩
  have hlaid := laid_of_build h
  have hwalk : s.tree.Visits s.tree.roots (List.range o.commands.length) := by
    rw [hlaid.roots, List.range_eq_range', ← o.size_forest]
    exact hlaid.placed.visits
  refine ⟨size_of_build h, command?_of_build h, fun ids => ?_, ⟨hlaid.roots, hlaid.placed⟩,
    first?_of_build h⟩
  constructor
  · intro hids
    exact hids.unique hwalk
  · rintro rfl
    exact hwalk

theorem build_flattens_blocks :
    ∃ s, build (.block (.line (.command { name := "SAY", text := some "a" }) .nil)
        (.line (.marker "START") (.block (.line (.command { name := "SAY", text := some "b" })
            (.line (.comment " kept")
              (.block (.line (.command { name := "SAY", text := some "c" }) .nil) .nil)))
          (.block (.line (.command { name := "SAY", text := some "d" }) .nil)
            (.line (.marker "END") .nil))))) = .ok s ∧
      s.tree.size = 4 ∧ s.tree.Visits s.tree.roots [0, 1, 2, 3] ∧ s.tree.roots = [0, 1, 3] ∧
      s.first? = some 0 := by
  refine Exists.imp (fun s h => And.intro h ?_) ⟨_, rfl⟩
  obtain ⟨hsize, -, hwalk, ⟨hroots, -⟩, hfirst⟩ := (build_flattens _).2 s h
  exact ⟨hsize, (hwalk _).mpr rfl, hroots, hfirst⟩

end Story
end BranchingDialogue
