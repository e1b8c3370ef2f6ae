import BranchingDialogue.Proofs.Calls
import BranchingDialogue.Proofs.Layout
import Mathlib.Data.List.TakeWhile
import Mathlib.Logic.Relation

/-! Trees that grow. Whatever an empty tree is asked to take up, the lists of children and the list of
roots hold each node once and in the order of the numbers, just as the nodes name their parents; so a
node lies beneath older ones only, and it is before the next of its siblings. -/
namespace BranchingDialogue

/-- What a tree is asked to take up: a node beneath the one that a number names, or one without a
parent. -/
structure Growth (α : Type) where
  data : α
  parent : Option Number := none

namespace Arena

section
variable {α : Type} {a : Arena α} {parent : Option Nat} {d : α} {i j p : Nat}

/-- The number of the new node, and the tree with it. A node that is refused leaves the tree as it was. -/
def grow (a : Arena α) (g : Growth α) : Except ArenaError Nat × Arena α :=
  match g.parent with
  | none => (.ok a.size, a.addRoot g.data)
  | some x =>
    match a.addBeneath x g.data with
    | .ok b => (.ok a.size, b)
    | .error e => (.error e, a)

def growAll (a : Arena α) (gs : List (Growth α)) : Arena α := gs.foldl (fun a g => (a.grow g).2) a

/-- What is not refused, with the number that is given to it. -/
def taken : Arena α → List (Growth α) → List (Growth α × Nat)
  | _, [] => []
  | a, g :: gs =>
    match (a.grow g).1 with
    | .ok id => (g, id) :: taken (a.grow g).2 gs
    | .error _ => taken (a.grow g).2 gs

theorem find?_eq_some_iff {x : Number} :
    a.find? x = some i ↔ i < a.size ∧ x.value? = some (i : ℚ) := by
  rw [find?, Option.filter_eq_some_iff, Number.toNat?_eq_some_iff, decide_eq_true_iff, and_comm]

theorem find?_eq_none_iff {x : Number} :
    a.find? x = none ↔ ∀ i < a.size, x.value? ≠ some (i : ℚ) := by
  rw [Option.eq_none_iff_forall_ne_some]
  refine forall_congr' fun i => ?_
  rw [ne_eq, find?_eq_some_iff, not_and]

/-- A node is taken up beneath the node of the tree that has the value of the number asked for, or
without a parent if none is asked for; it is refused if there is no such node. -/
theorem grow_cases (a : Arena α) (g : Growth α) :
    (∃ parent : Option Nat, (∀ p ∈ parent, p < a.size) ∧
      parent.map (fun p : Nat => some (p : ℚ)) = g.parent.map Number.value? ∧
      a.grow g = (.ok a.size, a.add parent g.data)) ∨
    ∃ x, g.parent = some x ∧ (∀ p < a.size, x.value? ≠ some (p : ℚ)) ∧
      a.grow g = (.error (.unknownParent x), a) := by
  obtain ⟨d, parent⟩ := g
  cases parent with
  | none => exact .inl ⟨none, by simp, rfl, rfl⟩
  | some x =>
    cases hx : a.find? x with
    | none =>
      refine .inr ⟨x, rfl, find?_eq_none_iff.mp hx, ?_⟩
      simp only [grow, addBeneath, hx]
    | some p =>
      obtain ⟨hp, hvalue⟩ := find?_eq_some_iff.mp hx
      refine .inl ⟨some p, ?_, ?_, ?_⟩
      · rintro q ⟨⟩
        exact hp
      · rw [Option.map_some, Option.map_some, hvalue]
      · simp only [grow, addBeneath, hx]

theorem parent?_of_size_le (h : a.size ≤ i) : a.parent? i = none := by
  rw [parent?, Array.getElem?_eq_none h, Option.bind_none]

theorem children_of_size_le (h : a.size ≤ i) : a.children i = [] := by
  rw [children, Array.getElem?_eq_none h]
  rfl

theorem lt_size_of_parent? (h : a.parent? i = some p) : i < a.size := by
  refine Nat.lt_of_not_le fun hle => ?_
  rw [parent?_of_size_le hle] at h
  cases h

section
variable (h : ∀ p ∈ parent, p < a.size)
include h

theorem get?_add (d : α) (i : Nat) :
    (a.add parent d).get? i = if i = a.size then some d else a.get? i := by
  rcases Nat.lt_trichotomy i a.size with hi | rfl | hi
  · rw [get?, getElem?_nodes_add hi, if_neg (Nat.ne_of_lt hi), get?, Option.map_map]
    rfl
  · rw [get?, getElem?_nodes_add_size h, if_pos rfl]
    rfl
  · have hle : (a.add parent d).size ≤ i := by
      rw [size_add]
      exact hi
    rw [get?, Array.getElem?_eq_none hle, if_neg (Nat.ne_of_gt hi), get?,
      Array.getElem?_eq_none (Nat.le_of_lt hi)]

theorem parent?_add (d : α) (i : Nat) :
    (a.add parent d).parent? i = if i = a.size then parent else a.parent? i := by
  rcases Nat.lt_trichotomy i a.size with hi | rfl | hi
  · rw [parent?, getElem?_nodes_add hi, if_neg (Nat.ne_of_lt hi), parent?, Option.bind_map]
    rfl
  · rw [parent?, getElem?_nodes_add_size h, if_pos rfl]
    rfl
  · have hle : (a.add parent d).size ≤ i := by
      rw [size_add]
      exact hi
    rw [parent?_of_size_le hle, if_neg (Nat.ne_of_gt hi), parent?_of_size_le (Nat.le_of_lt hi)]

theorem children_add (d : α) (p : Nat) :
    (a.add parent d).children p = a.children p ++ if parent = some p then [a.size] else [] := by
  rcases Nat.lt_or_ge p a.size with hp | hp
  · rw [children, getElem?_nodes_add hp, children, Array.getElem?_eq_getElem hp]
    rfl
  · have hne : parent ≠ some p := fun hparent => Nat.not_lt_of_le hp (h p hparent)
    rw [children_of_size_le hp, if_neg hne, List.append_nil]
    rcases Nat.eq_or_lt_of_le hp with rfl | hlt
    · rw [children, getElem?_nodes_add_size h]
      rfl
    · apply children_of_size_le
      rw [size_add]
      exact hlt

/-- The nodes with a given parent: the new node is one of them, the last, if it has that parent. -/
theorem filter_parent?_add (d : α) (q : Option Nat) :
    (List.range (a.add parent d).size).filter ((a.add parent d).parent? · = q) =
      (List.range a.size).filter (a.parent? · = q) ++ if parent = q then [a.size] else [] := by
  have hold : (List.range a.size).filter ((a.add parent d).parent? · = q) =
      (List.range a.size).filter (a.parent? · = q) := by
    refine List.filter_congr fun i hi => ?_
    rw [parent?_add h, if_neg (Nat.ne_of_lt (List.mem_range.mp hi))]
  rw [size_add, List.range_succ, List.filter_append, hold, List.filter_singleton, parent?_add h,
    if_pos rfl, Bool.cond_decide]

end

/-- The lists of a tree hold the nodes as these name their parents, in the order of the numbers. -/
structure Indexed (a : Arena α) : Prop where
  children : ∀ p, a.children p = (List.range a.size).filter (a.parent? · = some p)
  roots : a.roots = (List.range a.size).filter (a.parent? · = none)

theorem indexed_empty : (empty : Arena α).Indexed where
  children p := children_of_size_le (Nat.zero_le p)
  roots := rfl

theorem Indexed.add (h : a.Indexed) (hp : ∀ p ∈ parent, p < a.size) (d : α) :
    (a.add parent d).Indexed where
  children p := by rw [children_add hp, filter_parent?_add hp, h.children]
  roots := by rw [roots_add hp, filter_parent?_add hp, h.roots]

theorem Indexed.grow (h : a.Indexed) (g : Growth α) : (a.grow g).2.Indexed := by
  rcases a.grow_cases g with ⟨parent, hp, -, hg⟩ | ⟨x, -, -, hg⟩
  · rw [hg]
    exact h.add hp g.data
  · rw [hg]
    exact h

theorem Indexed.growAll (h : a.Indexed) (gs : List (Growth α)) : (a.growAll gs).Indexed := by
  induction gs generalizing a with
  | nil => exact h
  | cons g gs ih => exact ih (h.grow g)

namespace Indexed

theorem level (h : a.Indexed) (i : Nat) :
    a.level i = (List.range a.size).filter (a.parent? · = a.parent? i) := by
  rw [Arena.level]
  split
  next hnone => rw [hnone, h.roots]
  next p hp => rw [hp, h.children]

theorem mem_level_iff (h : a.Indexed) : j ∈ a.level i ↔ j < a.size ∧ a.parent? j = a.parent? i := by
  rw [h.level, List.mem_filter, List.mem_range, decide_eq_true_iff]

theorem mem_children_iff (h : a.Indexed) : i ∈ a.children p ↔ a.parent? i = some p := by
  rw [h.children, List.mem_filter, List.mem_range, decide_eq_true_iff]
  exact and_iff_right_of_imp lt_size_of_parent?

theorem mem_roots_iff (h : a.Indexed) : i ∈ a.roots ↔ i < a.size ∧ a.parent? i = none := by
  rw [h.roots, List.mem_filter, List.mem_range, decide_eq_true_iff]

theorem pairwise_children (h : a.Indexed) (p : Nat) : (a.children p).Pairwise (· < ·) := by
  rw [h.children]
  exact List.pairwise_lt_range.filter _

theorem pairwise_roots (h : a.Indexed) : a.roots.Pairwise (· < ·) := by
  rw [h.roots]
  exact List.pairwise_lt_range.filter _

theorem pairwise_level (h : a.Indexed) (i : Nat) : (a.level i).Pairwise (· < ·) := by
  rw [h.level]
  exact List.pairwise_lt_range.filter _

theorem notMem_of_level {earlier later : List Nat} (h : a.Indexed)
    (hlevel : a.level i = earlier ++ j :: later) : j ∉ earlier := by
  have hsorted := h.pairwise_level i
  rw [hlevel, List.pairwise_append] at hsorted
  exact fun hj => Nat.lt_irrefl j (hsorted.2.2 j hj j List.mem_cons_self)

/-- Siblings stand in one list. -/
theorem level_eq (h : a.Indexed) (hj : j ∈ a.level i) : a.level j = a.level i := by
  rw [h.level, (h.mem_level_iff.mp hj).2, ← h.level]

end Indexed

theorem preceding_of_level {earlier later : List Nat} (h : a.level i = earlier ++ i :: later)
    (hi : i ∉ earlier) : a.preceding i = earlier := by
  rw [preceding, h, if_pos (by simp), List.takeWhile_append_of_pos (bne_of_notMem hi),
    List.takeWhile_cons_of_neg (by simp), List.append_nil]

theorem mem_level_of_mem_following (h : j ∈ a.following i) : i ∈ a.level i := by
  by_contra hi
  have hall : (a.level i).dropWhile (· != i) = [] :=
    List.dropWhile_eq_nil_iff.mpr (bne_of_notMem hi)
  rw [following, hall] at h
  cases h

namespace Indexed

/-- A node is before its next sibling, with nothing between them. -/
theorem nextSibling?_eq_some_iff (h : a.Indexed) :
    a.nextSibling? i = some j ↔ ∃ earlier later, a.level i = earlier ++ i :: j :: later := by
  constructor
  · intro hj
    have hi := mem_level_of_mem_following (List.mem_of_mem_head? hj)
    obtain ⟨earlier, later, hlevel, hnot⟩ := List.eq_append_cons_of_mem hi
    rw [nextSibling?, following_of_level hlevel hnot] at hj
    obtain ⟨later, rfl⟩ := List.head?_eq_some_iff.mp hj
    exact ⟨earlier, later, hlevel⟩
  · rintro ⟨earlier, later, hlevel⟩
    rw [nextSibling?, following_of_level hlevel (h.notMem_of_level hlevel), List.head?_cons]

theorem previousSibling?_eq_some_iff (h : a.Indexed) :
    a.previousSibling? j = some i ↔ ∃ earlier later, a.level j = earlier ++ i :: j :: later := by
  constructor
  · intro hi
    have hj : j ∈ a.level j := by
      by_contra hj
      rw [previousSibling?, preceding, if_neg hj] at hi
      cases hi
    obtain ⟨earlier, later, hlevel, hnot⟩ := List.eq_append_cons_of_mem hj
    rw [previousSibling?, preceding_of_level hlevel hnot] at hi
    obtain ⟨earlier, rfl⟩ := List.getLast?_eq_some_iff.mp hi
    exact ⟨earlier, later, by rw [hlevel, List.append_assoc]; rfl⟩
  · rintro ⟨earlier, later, hlevel⟩
    have hsplit : a.level j = (earlier ++ [i]) ++ j :: later := by
      rw [hlevel, List.append_assoc]
      rfl
    rw [previousSibling?, preceding_of_level hsplit (h.notMem_of_level hsplit), List.getLast?_concat]

theorem nextSibling?_iff_previousSibling? (h : a.Indexed) :
    a.nextSibling? i = some j ↔ a.previousSibling? j = some i := by
  rw [h.nextSibling?_eq_some_iff, h.previousSibling?_eq_some_iff]
  constructor
  · rintro ⟨earlier, later, hlevel⟩
    have hj : j ∈ a.level i := by
      rw [hlevel]
      simp
    exact ⟨earlier, later, (h.level_eq hj).trans hlevel⟩
  · rintro ⟨earlier, later, hlevel⟩
    have hi : i ∈ a.level j := by
      rw [hlevel]
      simp
    exact ⟨earlier, later, (h.level_eq hi).trans hlevel⟩

end Indexed

/-- The tree holds what it has taken up: the numbers given are those of the nodes in order, each has the
data that were given with it, and lies beneath the node that was asked for. -/
structure Holds (a : Arena α) (es : List (Growth α × Nat)) : Prop where
  numbers : es.map Prod.snd = List.range a.size
  data : ∀ i, a.get? i = es[i]?.map (·.1.data)
  parent : ∀ i, (a.parent? i).map (fun p : Nat => some (p : ℚ)) =
    es[i]?.bind (·.1.parent.map Number.value?)

theorem holds_empty : (empty : Arena α).Holds [] where
  numbers := rfl
  data _ := rfl
  parent _ := rfl

theorem getElem?_concat {β : Type} (l : List β) (x : β) (i : Nat) :
    (l ++ [x])[i]? = if i = l.length then some x else l[i]? := by
  rcases Nat.lt_trichotomy i l.length with hi | rfl | hi
  · rw [List.getElem?_append_left hi, if_neg (Nat.ne_of_lt hi)]
  · rw [List.getElem?_concat_length, if_pos rfl]
  · rw [if_neg (Nat.ne_of_gt hi), List.getElem?_eq_none (Nat.le_of_lt hi), List.getElem?_eq_none]
    rwa [List.length_append]

namespace Holds

variable {es : List (Growth α × Nat)} {g : Growth α}

theorem length (h : a.Holds es) : es.length = a.size := by
  have hlength := congrArg List.length h.numbers
  rwa [List.length_map, List.length_range] at hlength

theorem add (h : a.Holds es) (hp : ∀ p ∈ parent, p < a.size)
    (hparent : parent.map (fun p : Nat => some (p : ℚ)) = g.parent.map Number.value?) :
    (a.add parent g.data).Holds (es ++ [(g, a.size)]) where
  numbers := by
    rw [List.map_append, h.numbers, size_add, List.range_succ]
    rfl
  data i := by
    rw [get?_add hp, getElem?_concat, h.length]
    split
    · rfl
    · exact h.data i
  parent i := by
    rw [parent?_add hp, getElem?_concat, h.length]
    split
    · exact hparent
    · exact h.parent i

theorem growAll (h : a.Holds es) (gs : List (Growth α)) :
    (a.growAll gs).Holds (es ++ a.taken gs) := by
  induction gs generalizing a es with
  | nil =>
    rw [taken, List.append_nil]
    exact h
  | cons g gs ih =>
    rw [Arena.growAll, List.foldl_cons, taken]
    rcases a.grow_cases g with ⟨parent, hp, hparent, hg⟩ | ⟨x, -, -, hg⟩
    · rw [hg]
      have hrest := ih (h.add hp hparent)
      rwa [List.append_assoc] at hrest
    · rw [hg]
      exact ih h

end Holds

/-- Each node stands once in one list and in order, a parent is older than its children, and nodes follow
one another just as they precede one another. -/
structure Regular (a : Arena α) : Prop where
  parent_lt : ∀ i p, a.parent? i = some p → p < i ∧ i < a.size
  count_children : ∀ i p, (a.children p).count i = if a.parent? i = some p then 1 else 0
  count_roots : ∀ i, a.roots.count i = if i < a.size ∧ a.parent? i = none then 1 else 0
  pairwise_children : ∀ p, (a.children p).Pairwise (· < ·)
  pairwise_roots : a.roots.Pairwise (· < ·)
  acyclic : ∀ i, ¬ Relation.TransGen (fun i p => a.parent? i = some p) i i
  siblings : ∀ x y : Number,
    (∃ j : Nat, (a.find? x).bind a.nextSibling? = some j ∧ y.value? = some (j : ℚ)) ↔
      ∃ i : Nat, (a.find? y).bind a.previousSibling? = some i ∧ x.value? = some (i : ℚ)

theorem lt_of_transGen (h : Relation.TransGen (fun i p => a.parent? i = some p) i p) : p < i := by
  induction h with
  | single hp => exact lt_of_parent? hp
  | tail _ hq ih => exact Nat.lt_trans (lt_of_parent? hq) ih

namespace Indexed

theorem lt_size_of_nextSibling? (h : a.Indexed) (hij : a.nextSibling? i = some j) :
    i < a.size ∧ j < a.size := by
  obtain ⟨earlier, later, hlevel⟩ := h.nextSibling?_eq_some_iff.mp hij
  constructor
  · refine (h.mem_level_iff (i := i).mp ?_).1
    rw [hlevel]
    simp
  · refine (h.mem_level_iff (i := i).mp ?_).1
    rw [hlevel]
    simp

/-- Of two numbers that name nodes side by side, either is found from the other. -/
theorem siblings (h : a.Indexed) (x y : Number) :
    (∃ j : Nat, (a.find? x).bind a.nextSibling? = some j ∧ y.value? = some (j : ℚ)) ↔
      ∃ i : Nat, (a.find? y).bind a.previousSibling? = some i ∧ x.value? = some (i : ℚ) := by
  constructor
  · rintro ⟨j, hnext, hy⟩
    obtain ⟨i, hi, hij⟩ := Option.bind_eq_some_iff.mp hnext
    have hj : a.find? y = some j := find?_eq_some_iff.mpr ⟨(h.lt_size_of_nextSibling? hij).2, hy⟩
    refine ⟨i, ?_, (find?_eq_some_iff.mp hi).2⟩
    rw [hj, Option.bind_some]
    exact h.nextSibling?_iff_previousSibling?.mp hij
  · rintro ⟨i, hprevious, hx⟩
    obtain ⟨j, hj, hji⟩ := Option.bind_eq_some_iff.mp hprevious
    have hij := h.nextSibling?_iff_previousSibling?.mpr hji
    have hi : a.find? x = some i := find?_eq_some_iff.mpr ⟨(h.lt_size_of_nextSibling? hij).1, hx⟩
    refine ⟨j, ?_, (find?_eq_some_iff.mp hj).2⟩
    rw [hi, Option.bind_some]
    exact hij

theorem regular (h : a.Indexed) : a.Regular where
  parent_lt i p hp := ⟨lt_of_parent? hp, lt_size_of_parent? hp⟩
  count_children i p := by
    rw [(h.pairwise_children p).nodup.count]
    exact if_congr h.mem_children_iff rfl rfl
  count_roots i := by
    rw [h.pairwise_roots.nodup.count]
    exact if_congr h.mem_roots_iff rfl rfl
  pairwise_children := h.pairwise_children
  pairwise_roots := h.pairwise_roots
  acyclic i hi := Nat.lt_irrefl i (lt_of_transGen hi)
  siblings := h.siblings

end Indexed

/-- A tree refuses a node just when the number asked for is not that of a node, and then is left as it
was. -/
theorem grow_eq_error_iff (a : Arena α) (g : Growth α) (e : ArenaError) :
    (a.grow g).1 = .error e ↔
      ∃ x, g.parent = some x ∧ (∀ p < a.size, x.value? ≠ some (p : ℚ)) ∧ e = .unknownParent x := by
  rcases a.grow_cases g with ⟨parent, hp, hparent, hg⟩ | ⟨x, hx, hno, hg⟩
  · rw [hg]
    refine iff_of_false nofun ?_
    rintro ⟨x, hx, hno, -⟩
    rw [hx] at hparent
    obtain ⟨p, rfl, hvalue⟩ := Option.map_eq_some_iff.mp hparent
    exact hno p (hp p rfl) hvalue.symm
  · rw [hg]
    constructor
    · intro he
      cases he
      exact ⟨x, hx, hno, rfl⟩
    · rintro ⟨y, hy, -, rfl⟩
      rw [hx] at hy
      cases hy
      rfl

theorem grow_of_error {g : Growth α} {e : ArenaError} (h : (a.grow g).1 = .error e) :
    (a.grow g).2 = a := by
  rcases a.grow_cases g with ⟨parent, -, -, hg⟩ | ⟨x, -, -, hg⟩
  · rw [hg] at h
    cases h
  · rw [hg]

/-- Whatever an empty tree was asked to take up, it refuses just what would lie beneath no node of it and
is left as it was, it holds all the rest in order, and each node stands once in one list. -/
theorem regular_of_growths (gs : List (Growth α)) :
    let a := (empty : Arena α).growAll gs
    (∀ g e, ((a.grow g).1 = .error e ↔ ∃ x, g.parent = some x ∧
        (∀ p < a.size, x.value? ≠ some (p : ℚ)) ∧ e = .unknownParent x) ∧
      ((a.grow g).1 = .error e → (a.grow g).2 = a)) ∧
    a.Holds (empty.taken gs) ∧ a.Regular := by
  intro a
  refine ⟨fun g e => ⟨a.grow_eq_error_iff g e, grow_of_error⟩, ?_, ?_⟩
  · exact holds_empty.growAll gs
  · exact (indexed_empty.growAll gs).regular

theorem regular_of_growths_refused :
    let gs : List (Growth String) :=
      [{ data := "a" }, { data := "b", parent := some (.ofNat 0) },
        { data := "x", parent := some (.finite false 1 (-1)) }, { data := "c" },
        { data := "d", parent := some (.finite true 0 0) }]
    let a := (empty : Arena String).growAll gs
    let g : Growth String := { data := "y", parent := some (.finite true 1 0) }
    (a.grow g).1 = .error (.unknownParent (.finite true 1 0)) ∧ (a.grow g).2 = a ∧
      a.toList = ["a", "b", "c", "d"] ∧ a.children 0 = [1, 3] ∧ a.Regular := by
  intro gs a g
  obtain ⟨hrefused, -, hregular⟩ := regular_of_growths gs
  have herror : (a.grow g).1 = .error (.unknownParent (.finite true 1 0)) := rfl
  exact ⟨herror, (hrefused g _).2 herror, rfl, rfl, hregular⟩

end
end Arena
end BranchingDialogue
