import BranchingDialogue.Story

/-! The commands of an outline as nested trees, and that building a story adds just these trees, each
command before what lies beneath it. -/
namespace BranchingDialogue

inductive Tree
  | node (command : Command) (children : List Tree)

abbrev Forest := List Tree

def Tree.command : Tree → Command
  | .node c _ => c

def Tree.children : Tree → Forest
  | .node _ cs => cs

@[simp] theorem Tree.command_node (c : Command) (cs : List Tree) :
    (Tree.node c cs).command = c := rfl

@[simp] theorem Tree.children_node (c : Command) (cs : List Tree) :
    (Tree.node c cs).children = cs := rfl

def Tree.isChoice (t : Tree) : Bool := t.command.isChoice

mutual

def Tree.size : Tree → Nat
  | .node _ cs => Forest.size cs + 1

def Forest.size : Forest → Nat
  | [] => 0
  | t :: ts => t.size + Forest.size ts

end

namespace Forest

/-- Induction over a forest: over what lies beneath its first root, and over what follows that. -/
theorem induct {motive : Forest → Prop} (nil : motive [])
    (node : ∀ c cs ts, motive cs → motive ts → motive (.node c cs :: ts)) : ∀ ts, motive ts
  | [] => nil
  | .node c cs :: ts => node c cs ts (induct nil node cs) (induct nil node ts)

theorem size_cons (t : Tree) (ts : Forest) : size (t :: ts) = size t.children + 1 + size ts := by
  obtain ⟨c, cs⟩ := t
  rfl

end Forest

namespace Outline

/-- The trees of the blocks before the first command or marker, which lie beneath whatever stands in
front, and the trees of all that comes after. -/
def layers : Outline → Forest × Forest
  | .nil => ([], [])
  | .line (.command c) rest => ([], .node c rest.layers.1 :: rest.layers.2)
  | .line (.marker _) rest => ([], rest.layers.1 ++ rest.layers.2)
  | .line (.comment _) rest => rest.layers
  | .block inner rest =>
    (inner.layers.1 ++ inner.layers.2 ++ rest.layers.1, rest.layers.2)

/-- The trees of an outline. A block whose last element before it, comments and blocks aside, is a
command lies beneath that command; any other block is part of the level around it. -/
def forest (o : Outline) : Forest := o.layers.1 ++ o.layers.2

end Outline

namespace Arena

/-- Adds a forest, each root beneath `parent` and in front of what lies beneath it. -/
def addForest (parent : Option Nat) : Forest → Arena Command → Arena Command
  | [], a => a
  | .node c cs :: ts, a =>
    addForest parent ts (addForest (some a.size) cs (a.add parent c))

@[simp] theorem addForest_nil (parent : Option Nat) (a : Arena Command) :
    addForest parent [] a = a := by
  rw [addForest]

theorem addForest_append (parent : Option Nat) (ts us : Forest) (a : Arena Command) :
    addForest parent (ts ++ us) a = addForest parent us (addForest parent ts a) := by
  induction ts generalizing a with
  | nil => simp
  | cons t ts ih =>
    obtain ⟨c, cs⟩ := t
    rw [List.cons_append, addForest, addForest, ih]

end Arena

namespace Story

namespace Draft

theorem tree_of_addMarker {d e : Draft} {name : String} (h : d.addMarker name = .ok e) :
    e.story.tree = d.story.tree := by
  unfold addMarker at h
  split at h
  · cases h
  · cases h
    rfl

/-- Adding the elements of a level adds their trees: those at the front beneath the command before
them, the others beneath the parent of the level. -/
theorem tree_of_addOutline {parent last : Option Nat} {o : Outline} {d e : Draft}
    (h : addOutline parent last o d = .ok e) :
    e.story.tree =
      (d.story.tree.addForest (last.or parent) o.layers.1).addForest parent o.layers.2 := by
  induction o generalizing parent last d e with
  | nil =>
    cases h
    simp [Outline.layers]
  | line head rest ih =>
    cases head with
    | command c =>
      have hrest := ih h
      simpa [Outline.layers, Arena.addForest, addCommand] using hrest
    | marker name =>
      cases hm : d.addMarker name with
      | error f => rw [addOutline, hm] at h; cases h
      | ok m =>
        rw [addOutline, hm] at h
        have hrest := ih h
        rw [tree_of_addMarker hm] at hrest
        simpa [Outline.layers, Arena.addForest_append] using hrest
    | comment text => exact ih h
  | block inner rest ihi ihr =>
    cases hi : addOutline (last.or parent) none inner d with
    | error f => rw [addOutline, hi] at h; cases h
    | ok m =>
      rw [addOutline, hi] at h
      have hrest := ihr h
      rw [ihi hi] at hrest
      simpa [Outline.layers, Arena.addForest_append] using hrest

theorem finish_tree (d : Draft) : d.finish.tree = d.story.tree := by
  unfold finish
  split <;> rfl

end Draft

/-- The tree of a story is the forest of its outline. -/
theorem tree_of_build {o : Outline} {s : Story} (h : build o = .ok s) :
    s.tree = Arena.empty.addForest none o.forest := by
  rw [build] at h
  cases hd : Draft.addOutline none none o { story := { tree := .empty, markers := .empty } } with
  | error f => rw [hd] at h; cases h
  | ok d =>
    rw [hd] at h
    cases h
    have htree := Draft.tree_of_addOutline hd
    rw [Draft.finish_tree, htree, Outline.forest, Arena.addForest_append]
    rfl

end Story
end BranchingDialogue
