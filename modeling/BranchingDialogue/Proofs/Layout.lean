import BranchingDialogue.Proofs.Forest

/-! How a forest lies in the tree of a story: the commands are numbered in the order of the text, so
every subtree is a stretch of numbers, and the siblings after a node are the roots of what follows it. -/
namespace BranchingDialogue

def Node.adopt {α : Type} (n : Node α) (more : List Nat) : Node α :=
  { n with children := n.children ++ more }

theorem Node.adopt_nil {α : Type} (n : Node α) : n.adopt [] = n := by
  simp [adopt]

theorem Node.adopt_adopt {α : Type} (n : Node α) (more most : List Nat) :
    (n.adopt more).adopt most = n.adopt (more ++ most) := by
  simp [adopt]

/-- The numbers of the roots of a forest, if the first of them is `n`. -/
def Forest.ids : Nat → Forest → List Nat
  | _, [] => []
  | n, t :: ts => n :: Forest.ids (n + 1 + Forest.size t.children) ts

theorem Forest.length_ids (n : Nat) (ts : Forest) : (Forest.ids n ts).length = ts.length := by
  induction ts generalizing n with
  | nil => rfl
  | cons t ts ih => rw [ids, List.length_cons, List.length_cons, ih]

namespace Arena

section
variable {α : Type} {a : Arena α} {parent : Option Nat} {i : Nat}

/-- A search from a node upwards tries the node, and then goes on from its parent. -/
theorem findSome?_lineage {β : Type} (a : Arena α) (f : Nat → Option β) (id : Nat) :
    (a.lineage id).findSome? f = (f id).or ((a.parent? id).bind fun p => (a.lineage p).findSome? f) := by
  rw [lineage, List.findSome?_cons]
  split
  next m hm => rw [hm, Option.some_or]
  next hm =>
    rw [hm, Option.none_or]
    split
    next hp => rw [hp, Option.bind_none, List.findSome?_nil]
    next q hp => exact (congrArg (Option.bind · fun p => (a.lineage p).findSome? f) hp).symm

theorem next?_eq (a : Arena α) (id : Nat) :
    a.next? id = (a.nextSibling? id).or ((a.parent? id).bind a.next?) :=
  a.findSome?_lineage a.nextSibling? id

theorem bne_of_notMem {ids : List Nat} (hi : i ∉ ids) : ∀ k ∈ ids, (k != i) = true := by
  intro k hk
  rw [bne_iff_ne]
  rintro rfl
  exact hi hk

/-- What follows a node is what stands after it on its level. -/
theorem following_of_level {earlier later : List Nat} (h : a.level i = earlier ++ i :: later)
    (hi : i ∉ earlier) : a.following i = later := by
  rw [following, h, List.dropWhile_append_of_pos (bne_of_notMem hi),
    List.dropWhile_cons_of_neg (by simp), List.tail_cons]

/-- Only the parent of a new node changes: it has one child more. -/
theorem getElem?_nodes_add (hi : i < a.size) (d : α) :
    (a.add parent d).nodes[i]? =
      a.nodes[i]?.map (Node.adopt · (if parent = some i then [a.size] else [])) := by
  have hne : i ≠ a.nodes.size := Nat.ne_of_lt hi
  have hroot : (a.addRoot d).nodes[i]? = a.nodes[i]? := by
    rw [addRoot, Array.getElem?_push, if_neg hne]
  cases parent with
  | none =>
    rw [add, hroot]
    simp [Node.adopt_nil]
  | some p =>
    by_cases hp : p < a.size
    · rw [add, dif_pos hp, addChild, Array.getElem?_push, Array.size_modify, if_neg hne,
        Array.getElem?_modify]
      by_cases he : p = i
      · rw [if_pos he, if_pos (congrArg some he)]
        rfl
      · have hs : some p ≠ some i := fun h => he (Option.some.inj h)
        simp [he, Node.adopt_nil]
    · have hs : some p ≠ some i := by
        intro h
        cases h
        exact hp hi
      rw [add, dif_neg hp, hroot, if_neg hs]
      simp [Node.adopt_nil]

theorem getElem?_nodes_add_size (h : ∀ p ∈ parent, p < a.size) (d : α) :
    (a.add parent d).nodes[a.size]? = some { data := d, parent } := by
  cases parent with
  | none => simp [add, addRoot, size]
  | some p =>
    have hp : p < a.size := h p rfl
    rw [add, dif_pos hp, addChild, Array.getElem?_push, Array.size_modify]
    exact if_pos rfl

theorem roots_add (h : ∀ p ∈ parent, p < a.size) (d : α) :
    (a.add parent d).roots = a.roots ++ if parent = none then [a.size] else [] := by
  cases parent with
  | none => rfl
  | some p =>
    have hp : p < a.size := h p rfl
    simp [add, hp, addChild]

end

section
variable {a b : Arena Command} {parent : Option Nat} {i n : Nat}

@[simp] theorem size_addForest (parent : Option Nat) (ts : Forest) (a : Arena Command) :
    (a.addForest parent ts).size = a.size + Forest.size ts := by
  induction ts using Forest.induct generalizing parent a with
  | nil => simp [Forest.size]
  | node c cs ts ihc iht =>
    rw [addForest, iht, ihc, size_add, Forest.size_cons, Tree.children_node]
    omega

/-- Of the nodes before a new forest only the parent changes: the roots are its last children. -/
theorem getElem?_nodes_addForest (hi : i < a.size) (parent : Option Nat) (ts : Forest) :
    (a.addForest parent ts).nodes[i]? =
      a.nodes[i]?.map (Node.adopt · (if parent = some i then Forest.ids a.size ts else [])) := by
  induction ts using Forest.induct generalizing parent a with
  | nil => simp [Forest.ids, Node.adopt_nil]
  | node c cs ts ihc iht =>
    have hadd : i < (a.add parent c).size := by
      rw [size_add]
      omega
    have hcs : i < ((a.add parent c).addForest (some a.size) cs).size := by
      rw [size_addForest]
      omega
    have hne : some a.size ≠ some i := by
      intro h
      cases h
      exact Nat.lt_irrefl _ hi
    rw [addForest, iht hcs, ihc hadd, if_neg hne, getElem?_nodes_add hi, Option.map_map,
      Option.map_map, size_addForest, size_add, Forest.ids]
    congr 1
    funext m
    simp only [Function.comp_apply, Node.adopt_adopt]
    split <;> rfl

theorem roots_addForest (h : ∀ p ∈ parent, p < a.size) (ts : Forest) :
    (a.addForest parent ts).roots =
      a.roots ++ if parent = none then Forest.ids a.size ts else [] := by
  induction ts using Forest.induct generalizing parent a with
  | nil => simp [Forest.ids]
  | node c cs ts ihc iht =>
    have hadd : ∀ p ∈ some a.size, p < (a.add parent c).size := by
      intro p hp
      cases hp
      rw [size_add]
      omega
    have hcs : ∀ p ∈ parent, p < ((a.add parent c).addForest (some a.size) cs).size := by
      intro p hp
      have hlt := h p hp
      rw [size_addForest, size_add]
      omega
    rw [addForest, iht hcs, ihc hadd, roots_add h, size_addForest, size_add, Forest.ids]
    cases parent <;> simp

/-- The trees stand in the arena beneath `parent`, numbered from `n` on. -/
def Placed (a : Arena Command) : Option Nat → Nat → Forest → Prop
  | _, _, [] => True
  | parent, n, .node c cs :: ts =>
    a.nodes[n]? = some { data := c, parent, children := Forest.ids (n + 1) cs } ∧
      a.Placed (some n) (n + 1) cs ∧ a.Placed parent (n + 1 + Forest.size cs) ts

@[simp] theorem placed_nil : a.Placed parent n [] := by
  rw [Placed]
  trivial

theorem placed_cons {t : Tree} {ts : Forest} :
    a.Placed parent n (t :: ts) ↔
      a.nodes[n]? =
          some { data := t.command, parent, children := Forest.ids (n + 1) t.children } ∧
        a.Placed (some n) (n + 1) t.children ∧
        a.Placed parent (n + 1 + Forest.size t.children) ts := by
  obtain ⟨c, cs⟩ := t
  rw [Placed]
  rfl

/-- Whether trees are placed depends on their own stretch of numbers only. -/
theorem Placed.congr {ts : Forest} (h : a.Placed parent n ts)
    (hab : ∀ i, n ≤ i → i < n + Forest.size ts → b.nodes[i]? = a.nodes[i]?) :
    b.Placed parent n ts := by
  induction ts using Forest.induct generalizing parent n with
  | nil => exact placed_nil
  | node c cs ts ihc iht =>
    rw [placed_cons, Tree.children_node] at h ⊢
    obtain ⟨hn, hcs, hts⟩ := h
    rw [Forest.size_cons, Tree.children_node] at hab
    have hroot : b.nodes[n]? = a.nodes[n]? := hab n (by omega) (by omega)
    refine ⟨hroot.trans hn, ihc hcs ?_, iht hts ?_⟩
    · intro i hl hu
      exact hab i (by omega) (by omega)
    · intro i hl hu
      exact hab i (by omega) (by omega)

theorem placed_addForest (h : ∀ p ∈ parent, p < a.size) (ts : Forest) :
    (a.addForest parent ts).Placed parent a.size ts := by
  induction ts using Forest.induct generalizing parent a with
  | nil => exact placed_nil
  | node c cs ts ihc iht =>
    have hsize : (a.add parent c).size = a.size + 1 := size_add a parent c
    have hsizes : ((a.add parent c).addForest (some a.size) cs).size =
        a.size + 1 + Forest.size cs := by
      rw [size_addForest, hsize]
    have hchild : ∀ p ∈ some a.size, p < (a.add parent c).size := by
      intro p hp
      cases hp
      omega
    have hlater : ∀ p ∈ parent, p < ((a.add parent c).addForest (some a.size) cs).size := by
      intro p hp
      have hlt := h p hp
      omega
    have hkeep : ∀ i, a.size ≤ i → i < a.size + 1 + Forest.size cs →
        (a.addForest parent (.node c cs :: ts)).nodes[i]? =
          ((a.add parent c).addForest (some a.size) cs).nodes[i]? := by
      intro i hl hu
      have hne : parent ≠ some i := by
        intro hp
        have hlt := h i hp
        omega
      rw [addForest, getElem?_nodes_addForest (by omega), if_neg hne]
      simp [Node.adopt_nil]
    have hnode := getElem?_nodes_add_size h c
    have hlt : a.size < (a.add parent c).size := by omega
    refine placed_cons.mpr ⟨?_, ?_, ?_⟩
    · rw [hkeep a.size (by omega) (by omega), getElem?_nodes_addForest hlt, hnode, if_pos rfl, hsize]
      rfl
    · have hcs := ihc hchild
      rw [hsize] at hcs
      exact hcs.congr fun i hl hu => hkeep i (by omega) (by omega)
    · have hts := iht hlater
      rw [hsizes] at hts
      rw [addForest]
      exact hts

/-- The nodes side by side beneath `parent`, or the roots. -/
def beneath (a : Arena Command) : Option Nat → List Nat
  | none => a.roots
  | some p => a.children p

theorem level_eq_beneath (a : Arena Command) (i : Nat) : a.level i = a.beneath (a.parent? i) := by
  rw [level]
  cases a.parent? i <;> rfl

/-- The trees stand in the arena beneath `parent`, numbered from `n` on, and are all that follows
there. -/
structure Laid (a : Arena Command) (parent : Option Nat) (n : Nat) (ts : Forest) : Prop where
  placed : a.Placed parent n ts
  last : ∃ earlier, a.beneath parent = earlier ++ Forest.ids n ts ∧ ∀ i ∈ earlier, i < n

namespace Laid

variable {t : Tree} {ts : Forest}

theorem node (h : a.Laid parent n (t :: ts)) :
    a.nodes[n]? = some { data := t.command, parent, children := Forest.ids (n + 1) t.children } :=
  (placed_cons.mp h.placed).1

theorem get? (h : a.Laid parent n (t :: ts)) : a.get? n = some t.command := by
  rw [Arena.get?, h.node]
  rfl

theorem parent? (h : a.Laid parent n (t :: ts)) : a.parent? n = parent := by
  rw [Arena.parent?, h.node]
  rfl

theorem children (h : a.Laid parent n (t :: ts)) :
    a.children n = Forest.ids (n + 1) t.children := by
  rw [Arena.children, h.node]
  rfl

theorem following (h : a.Laid parent n (t :: ts)) :
    a.following n = Forest.ids (n + 1 + Forest.size t.children) ts := by
  obtain ⟨earlier, he, hlt⟩ := h.last
  refine following_of_level ?_ fun hn => Nat.lt_irrefl n (hlt n hn)
  rw [level_eq_beneath, h.parent?, he, Forest.ids]

/-- What lies beneath the first tree is a level of its own. -/
theorem inner (h : a.Laid parent n (t :: ts)) : a.Laid (some n) (n + 1) t.children where
  placed := (placed_cons.mp h.placed).2.1
  last := ⟨[], h.children, by simp⟩

theorem tail (h : a.Laid parent n (t :: ts)) :
    a.Laid parent (n + 1 + Forest.size t.children) ts where
  placed := (placed_cons.mp h.placed).2.2
  last := by
    obtain ⟨earlier, he, hlt⟩ := h.last
    refine ⟨earlier ++ [n], ?_, ?_⟩
    · rw [he, Forest.ids, List.append_assoc]
      rfl
    · intro i hi
      rcases List.mem_append.mp hi with hi | hi
      · have := hlt i hi
        omega
      · have := List.mem_singleton.mp hi
        omega

/-- A root of a level leads to the trees from there on. -/
theorem drop {i id : Nat} (h : a.Laid parent n ts) (hi : (Forest.ids n ts)[i]? = some id) :
    a.Laid parent id (ts.drop i) := by
  induction ts generalizing n i with
  | nil => simp [Forest.ids] at hi
  | cons t ts ih =>
    rw [Forest.ids] at hi
    cases i with
    | zero =>
      have hn : n = id := by simpa using hi
      rw [← hn]
      exact h
    | succ i =>
      rw [List.getElem?_cons_succ] at hi
      exact ih h.tail hi

theorem getElem {i id : Nat} (h : a.Laid parent n ts) (hi : (Forest.ids n ts)[i]? = some id)
    (hlt : i < ts.length) : a.Laid parent id (ts[i] :: ts.drop (i + 1)) := by
  have hdrop := h.drop hi
  rw [List.drop_eq_getElem_cons hlt] at hdrop
  exact hdrop

/-- What a level hands on to what lies beneath its first tree, and to the trees behind that one, holds at every
number of the level. -/
theorem descend {motive : Option Nat → Nat → Forest → Prop} {i : Nat}
    (inner : ∀ parent n t ts, a.Laid parent n (t :: ts) → motive parent n (t :: ts) →
      motive (some n) (n + 1) t.children)
    (tail : ∀ parent n t ts, a.Laid parent n (t :: ts) → motive parent n (t :: ts) →
      motive parent (n + 1 + Forest.size t.children) ts)
    (h : a.Laid parent n ts) (hm : motive parent n ts) (hl : n ≤ i) (hu : i < n + Forest.size ts) :
    ∃ q t us, a.Laid q i (t :: us) ∧ motive q i (t :: us) := by
  induction ts using Forest.induct generalizing parent n with
  | nil => exact absurd hu (Nat.not_lt.mpr hl)
  | node c cs ts ihc iht =>
    rw [Forest.size_cons] at hu
    rcases Nat.lt_or_ge i (n + 1 + Forest.size cs) with hi | hi
    · rcases Nat.eq_or_lt_of_le hl with rfl | hlt
      · exact ⟨parent, .node c cs, ts, h, hm⟩
      · exact ihc h.inner (inner parent n _ ts h hm) hlt hi
    · refine iht h.tail (tail parent n _ ts h hm) hi ?_
      rw [Tree.children_node] at hu ⊢
      omega

theorem roots (h : a.Laid none 0 ts) : a.roots = Forest.ids 0 ts := by
  obtain ⟨earlier, he, hlt⟩ := h.last
  cases earlier with
  | nil => exact he
  | cons i earlier => exact absurd (hlt i List.mem_cons_self) (Nat.not_lt_zero i)

end Laid

theorem laid_addForest (ts : Forest) : ((empty : Arena Command).addForest none ts).Laid none 0 ts where
  placed := placed_addForest (by simp) ts
  last := by
    refine ⟨[], ?_, by simp⟩
    exact roots_addForest (by simp) ts

end
end Arena

theorem Story.laid_of_build {o : Outline} {s : Story} (h : Story.build o = .ok s) :
    s.tree.Laid none 0 o.forest := by
  rw [tree_of_build h]
  exact Arena.laid_addForest o.forest

end BranchingDialogue
