import BranchingDialogue.Proofs.Ancestry
import BranchingDialogue.Proofs.Growth

/-! The way through a tree that grew in any order: each node before what lies beneath it, siblings in
order. It comes to each node once, and where a walk goes on that leaves a node is the first place on this
way behind the node and all that lies beneath it. -/
namespace BranchingDialogue

namespace Arena

section
variable {α : Type} {a : Arena α} {ids order xs : List Nat} {parent : Option Nat} {i j k m p q : Nat}

/-- `i` is `q`, or a child of it, or a child of one of these, and so on. -/
def Covers (a : Arena α) : Nat → Nat → Prop := Relation.ReflTransGen fun p c => c ∈ a.children p

theorem covers_iff_child : a.Covers q i ↔ i = q ∨ ∃ c ∈ a.children q, a.Covers c i := by
  rw [Covers, Relation.ReflTransGen.cases_head_iff, eq_comm]

/-- `m` comes in the list behind `q` and all that lies beneath `q`. -/
def Clears (a : Arena α) (order : List Nat) (q m : Nat) : Prop :=
  ∀ i, a.Covers q i → [i, m].Sublist order

/-- The climb from a node, in so many turns: it ends where a node has a next sibling, and else goes on
from the parent, if there is one. -/
inductive Climbs (a : Arena α) : Option Nat → Nat → Option Nat → Prop
  | above : Climbs a none 0 none
  | found {i m : Nat} (h : a.nextSibling? i = some m) : Climbs a (some i) 1 (some m)
  | up {i turns : Nat} {r : Option Nat} (h : a.nextSibling? i = none)
      (hrest : Climbs a (a.parent? i) turns r) : Climbs a (some i) (turns + 1) r

/-- The climb comes to an end, since parents are older than their children. -/
theorem exists_climbs (a : Arena α) (i : Nat) :
    ∃ turns ≤ i + 1, a.Climbs (some i) turns (a.next? i) := by
  induction i using Nat.strongRecOn with
  | ind i ih =>
    rw [next?_eq]
    cases hsibling : a.nextSibling? i with
    | some m => exact ⟨1, Nat.le_add_left 1 i, .found hsibling⟩
    | none =>
      cases hp : a.parent? i with
      | none =>
        refine ⟨1, Nat.le_add_left 1 i, .up hsibling ?_⟩
        rw [hp]
        exact .above
      | some p =>
        have hlt := lt_of_parent? hp
        obtain ⟨turns, hle, hclimb⟩ := ih p hlt
        refine ⟨turns + 1, by omega, .up hsibling ?_⟩
        rw [hp]
        exact hclimb

namespace Indexed

theorem covers_iff (h : a.Indexed) : a.Covers q i ↔ q ∈ a.lineage i := by
  induction i using Nat.strongRecOn with
  | ind i ih =>
    rw [mem_lineage_iff, isAbove_iff, Covers, Relation.ReflTransGen.cases_tail_iff, eq_comm]
    refine or_congr_right (exists_congr fun p => ?_)
    rw [h.mem_children_iff, and_comm, ← mem_lineage_iff]
    exact and_congr_right fun hp => ih p (lt_of_parent? hp)

theorem le_of_covers (h : a.Indexed) (hq : a.Covers q i) : q ≤ i := by
  induction hq with
  | refl => exact Nat.le_refl q
  | tail _ hi ih => exact Nat.le_trans ih (Nat.le_of_lt (lt_of_parent? (h.mem_children_iff.mp hi)))

theorem lt_of_covers_child (h : a.Indexed) (hi : i ∈ a.children p) (hk : a.Covers i k) : p < k :=
  Nat.lt_of_lt_of_le (lt_of_parent? (h.mem_children_iff.mp hi)) (h.le_of_covers hk)

/-- Siblings cover nothing in common. -/
theorem eq_of_covers (h : a.Indexed) (hij : a.parent? i = a.parent? j) (hi : a.Covers i k)
    (hj : a.Covers j k) : i = j := by
  have hno : ∀ {x y : Nat}, a.parent? x = a.parent? y → ¬ a.IsAbove y x := by
    intro x y hxy hy
    obtain ⟨p, hp, hyp⟩ := isAbove_iff.mp hy
    have hle := h.le_of_covers (h.covers_iff.mpr (mem_lineage_iff.mpr hyp))
    have hlt := lt_of_parent? (hxy ▸ hp)
    omega
  rw [h.covers_iff] at hi hj
  induction k using Nat.strongRecOn with
  | ind k ih =>
    rcases mem_lineage_iff.mp hi with rfl | hik
    · exact (mem_lineage_iff.mp hj).elim Eq.symm fun hjk => absurd hjk (hno hij)
    · rcases mem_lineage_iff.mp hj with rfl | hjk
      · exact absurd hik (hno hij.symm)
      · obtain ⟨p, hp, hip⟩ := isAbove_iff.mp hik
        obtain ⟨r, hr, hjp⟩ := isAbove_iff.mp hjk
        obtain rfl : p = r := Option.some.inj (hp.symm.trans hr)
        exact ih p (lt_of_parent? hp) (mem_lineage_iff.mpr hip) (mem_lineage_iff.mpr hjp)

end Indexed

theorem exists_visits_of_children (hids : ∀ i ∈ ids, ∃ xs, a.Visits (a.children i) xs) :
    ∃ xs, a.Visits ids xs := by
  induction ids with
  | nil => exact ⟨[], .nil⟩
  | cons i ids ih =>
    obtain ⟨beneath, hbeneath⟩ := hids i List.mem_cons_self
    obtain ⟨later, hlater⟩ := ih fun j hj => hids j (List.mem_cons_of_mem i hj)
    exact ⟨_, .node hbeneath hlater⟩

/-- Children are numbered after their parent, so that every walk comes to an end. -/
theorem Indexed.exists_visits_children (h : a.Indexed) (i : Nat) :
    ∃ xs, a.Visits (a.children i) xs := by
  induction hn : a.size - i using Nat.strongRecOn generalizing i with
  | ind n ih =>
    refine exists_visits_of_children fun c hc => ?_
    have hp := h.mem_children_iff.mp hc
    have hlt := lt_of_parent? hp
    have hsize := lt_size_of_parent? hp
    exact ih (a.size - c) (by omega) c rfl

namespace Visits

/-- A walk comes to what the nodes that it starts from cover. -/
theorem mem_iff (hx : a.Visits ids xs) : k ∈ xs ↔ ∃ i ∈ ids, a.Covers i k := by
  induction hx with
  | nil => simp
  | @node id others beneath later _ _ ihbeneath ihlater =>
    rw [List.mem_cons, List.mem_append, ihbeneath, ihlater, ← or_assoc]
    simp only [List.mem_cons, or_and_right, exists_or, exists_eq_left]
    rw [covers_iff_child]

theorem head?_eq (hx : a.Visits ids xs) : xs.head? = ids.head? := by
  cases hx <;> rfl

/-- A walk from siblings comes to no node twice. -/
theorem nodup (hx : a.Visits ids xs) (h : a.Indexed) (hsorted : ids.Pairwise (· < ·))
    (hparent : ∀ i ∈ ids, a.parent? i = parent) : xs.Nodup := by
  induction hx generalizing parent with
  | nil => exact .nil
  | @node id others beneath later hbeneath hlater ihbeneath ihlater =>
    obtain ⟨hless, hothers⟩ := List.pairwise_cons.mp hsorted
    have hid := hparent id List.mem_cons_self
    have hchildren := ihbeneath (h.pairwise_children id) fun c hc => h.mem_children_iff.mp hc
    have hrest := ihlater hothers fun j hj => hparent j (List.mem_cons_of_mem id hj)
    have hapart : ∀ k ∈ later, ¬ a.Covers id k := by
      intro k hk hcovers
      obtain ⟨j, hj, hjk⟩ := hlater.mem_iff.mp hk
      have hsame := hparent j (List.mem_cons_of_mem id hj)
      have heq := h.eq_of_covers (hid.trans hsame.symm) hcovers hjk
      exact Nat.ne_of_lt (hless j hj) heq
    have hbelow : ∀ k ∈ beneath, id < k ∧ a.Covers id k := by
      intro k hk
      obtain ⟨c, hc, hck⟩ := hbeneath.mem_iff.mp hk
      exact ⟨h.lt_of_covers_child hc hck, .head hc hck⟩
    refine List.nodup_cons.mpr ⟨fun hmem => ?_, List.nodup_append.mpr ⟨hchildren, hrest, ?_⟩⟩
    · rcases List.mem_append.mp hmem with hmem | hmem
      · exact Nat.lt_irrefl id (hbelow id hmem).1
      · exact hapart id hmem .refl
    · rintro k hk _ hk' rfl
      exact hapart k hk' (hbelow k hk).2

/-- A walk from the last nodes of a level comes from each node to what lies beneath it, and then to where
a walk goes on that leaves the node. -/
theorem split (hx : a.Visits ids xs) (h : a.Indexed)
    (hlevel : ∀ i ∈ ids, a.parent? i = parent ∧ ids <:+ a.level i) (hk : k ∈ xs) :
    ∃ before beneath after, xs = before ++ k :: beneath ++ after ∧
      a.Visits (a.children k) beneath ∧ a.next? k = after.head?.or (parent.bind a.next?) := by
  induction hx generalizing parent k with
  | nil => cases hk
  | @node id others below later hbelow hlater ihbelow ihlater =>
    obtain ⟨hid, earlier, hearlier⟩ := hlevel id List.mem_cons_self
    have hnext : a.next? id = later.head?.or (parent.bind a.next?) := by
      have hnot := h.notMem_of_level hearlier.symm
      rw [next?_eq, nextSibling?, following_of_level hearlier.symm hnot, hid, hlater.head?_eq]
    rcases List.mem_cons.mp hk with rfl | hk
    · exact ⟨[], below, later, rfl, hbelow, hnext⟩
    rcases List.mem_append.mp hk with hk | hk
    · have hchildren : ∀ c ∈ a.children id,
          a.parent? c = some id ∧ a.children id <:+ a.level c := by
        intro c hc
        have hp := h.mem_children_iff.mp hc
        refine ⟨hp, ?_⟩
        rw [Arena.level, hp]
      obtain ⟨before, beneath, after, rfl, hbeneath, hafter⟩ := ihbelow hchildren hk
      refine ⟨id :: before, beneath, after ++ later, by simp, hbeneath, ?_⟩
      rw [hafter, Option.bind_some, hnext, ← Option.or_assoc, ← List.head?_append]
    · have hothers : ∀ j ∈ others, a.parent? j = parent ∧ others <:+ a.level j := by
        intro j hj
        obtain ⟨hp, hsuffix⟩ := hlevel j (List.mem_cons_of_mem id hj)
        exact ⟨hp, (List.suffix_cons id others).trans hsuffix⟩
      obtain ⟨before, beneath, after, rfl, hbeneath, hafter⟩ := ihlater hothers hk
      exact ⟨id :: (below ++ before), beneath, after, by simp, hbeneath, hafter⟩

end Visits

namespace Indexed

theorem exists_visits_roots (h : a.Indexed) : ∃ order, a.Visits a.roots order :=
  exists_visits_of_children fun i _ => h.exists_visits_children i

theorem exists_root_covers (h : a.Indexed) (hk : k < a.size) : ∃ i ∈ a.roots, a.Covers i k := by
  induction k using Nat.strongRecOn with
  | ind k ih =>
    cases hp : a.parent? k with
    | none => exact ⟨k, h.mem_roots_iff.mpr ⟨hk, hp⟩, .refl⟩
    | some p =>
      have hlt := lt_of_parent? hp
      obtain ⟨i, hi, hip⟩ := ih p hlt (Nat.lt_trans hlt hk)
      exact ⟨i, hi, hip.tail (h.mem_children_iff.mpr hp)⟩

theorem lt_size_of_covers (h : a.Indexed) (hq : q < a.size) (hi : a.Covers q i) : i < a.size := by
  cases hi with
  | refl => exact hq
  | tail _ hi => exact lt_size_of_parent? (h.mem_children_iff.mp hi)

theorem nodup_order (h : a.Indexed) (hx : a.Visits a.roots order) : order.Nodup :=
  hx.nodup h h.pairwise_roots fun _ hi => (h.mem_roots_iff.mp hi).2

/-- A walk through the whole tree comes from a node to all that lies beneath it, and then to where a walk
goes on that leaves the node. -/
theorem split_order (h : a.Indexed) (hx : a.Visits a.roots order) (hk : k < a.size) :
    ∃ before beneath after, order = before ++ k :: beneath ++ after ∧
      (∀ i, a.Covers k i ↔ i ∈ k :: beneath) ∧ a.next? k = after.head? := by
  have hlevel : ∀ i ∈ a.roots, a.parent? i = none ∧ a.roots <:+ a.level i := by
    intro i hi
    have hp := (h.mem_roots_iff.mp hi).2
    refine ⟨hp, ?_⟩
    rw [Arena.level, hp]
  have hmem : k ∈ order := hx.mem_iff.mpr (h.exists_root_covers hk)
  obtain ⟨before, beneath, after, horder, hbeneath, hnext⟩ := hx.split h hlevel hmem
  refine ⟨before, beneath, after, horder, fun i => ?_, ?_⟩
  · rw [List.mem_cons, hbeneath.mem_iff, covers_iff_child]
  · rw [hnext, Option.bind_none, Option.or_none]

/-- A walk through the whole tree comes to each node once. -/
theorem perm_order (h : a.Indexed) (hx : a.Visits a.roots order) : order.Perm (List.range a.size) := by
  refine (List.perm_ext_iff_of_nodup (h.nodup_order hx) List.nodup_range).mpr fun k => ?_
  rw [hx.mem_iff, List.mem_range]
  constructor
  · rintro ⟨i, hi, hk⟩
    exact h.lt_size_of_covers (h.mem_roots_iff.mp hi).1 hk
  · exact h.exists_root_covers

end Indexed

theorem mem_of_pair_sublist {β : Type} {l r : List β} {x y : β} (hnodup : (l ++ r).Nodup) (hy : y ∈ l)
    (h : [x, y].Sublist (l ++ r)) : x ∈ l := by
  obtain ⟨l', r', heq, hl, hr⟩ := List.sublist_append_iff.mp h
  cases l' with
  | nil =>
    rw [List.nil_append] at heq
    have hyr : y ∈ r := hr.subset (by rw [← heq]; simp)
    exact absurd rfl ((List.nodup_append.mp hnodup).2.2 y hy y hyr)
  | cons z l' =>
    rw [List.cons_append] at heq
    obtain ⟨rfl, -⟩ := List.cons_eq_cons.mp heq
    exact hl.subset List.mem_cons_self

section
variable {before beneath after : List Nat} (hnodup : (before ++ k :: beneath ++ after).Nodup)
  (hbeneath : ∀ i, a.Covers k i ↔ i ∈ k :: beneath)
include hnodup hbeneath

/-- Behind a node and all beneath it is what a walk comes to after the last of that. -/
theorem clears_iff_of_split (hm : m ∈ before ++ k :: beneath ++ after) :
    a.Clears (before ++ k :: beneath ++ after) k m ↔ m ∈ after := by
  constructor
  · intro hclears
    rcases List.mem_append.mp hm with hm | hm
    · rcases List.mem_append.mp hm with hm | hm
      · have hpair := hclears k .refl
        rw [List.append_assoc] at hnodup hpair
        have hk := mem_of_pair_sublist hnodup hm hpair
        exact absurd rfl ((List.nodup_append.mp hnodup).2.2 k hk k List.mem_cons_self)
      · exact absurd (hclears m ((hbeneath m).mpr hm)) (List.nodup_iff_sublist.mp hnodup m)
    · exact hm
  · intro hafter i hi
    have hleft : [i].Sublist (before ++ k :: beneath) :=
      List.singleton_sublist.mpr (List.mem_append_right before ((hbeneath i).mp hi))
    exact hleft.append (List.singleton_sublist.mpr hafter)

open Classical in
theorem find?_clears_of_split : (before ++ k :: beneath ++ after).find?
    (a.Clears (before ++ k :: beneath ++ after) k ·) = after.head? := by
  have hfront : (before ++ k :: beneath).find?
      (a.Clears (before ++ k :: beneath ++ after) k ·) = none := by
    refine List.find?_eq_none.mpr fun m hm => ?_
    rw [decide_eq_true_iff, clears_iff_of_split hnodup hbeneath (List.mem_append_left after hm)]
    exact fun hafter => (List.nodup_append.mp hnodup).2.2 m hm m hafter rfl
  have hback : ∀ m ∈ after, a.Clears (before ++ k :: beneath ++ after) k m := fun m hm =>
    (clears_iff_of_split hnodup hbeneath (List.mem_append_right _ hm)).mpr hm
  rw [List.find?_append, hfront, Option.none_or]
  cases after with
  | nil => rfl
  | cons m after => exact List.find?_cons_of_pos (decide_eq_true (hback m List.mem_cons_self))

end

open Classical in
/-- A walk that leaves a node goes on at the first place behind it and all that lies beneath it. -/
theorem Indexed.next?_eq_find? (h : a.Indexed) (hx : a.Visits a.roots order) (hk : k < a.size) :
    a.next? k = order.find? (a.Clears order k ·) := by
  have hnodup := h.nodup_order hx
  obtain ⟨before, beneath, after, rfl, hbeneath, hnext⟩ := h.split_order hx hk
  rw [hnext, find?_clears_of_split hnodup hbeneath]

open Classical in
/-- In a tree that grew in any way a walk comes to each node once. Where it goes on is found in no more
turns than there are nodes: for a number that names a node this is the first place behind that node and
all that lies beneath it, if there is one; for any other number it is nowhere. -/
theorem walk_of_growths (gs : List (Growth α)) :
    let a := (empty : Arena α).growAll gs
    ∃ order, (a.Visits a.roots order ∧ order.Perm (List.range a.size)) ∧ ∀ x : Number,
      (∃ turns ≤ a.size, a.Climbs (a.find? x) turns ((a.find? x).bind a.next?)) ∧
      (∀ i < a.size, x.value? = some (i : ℚ) →
        (a.find? x).bind a.next? = order.find? (a.Clears order i ·)) ∧
      ((∀ i < a.size, x.value? ≠ some (i : ℚ)) → (a.find? x).bind a.next? = none) := by
  intro a
  have h : a.Indexed := indexed_empty.growAll gs
  obtain ⟨order, hx⟩ := h.exists_visits_roots
  refine ⟨order, ⟨hx, h.perm_order hx⟩, fun x => ⟨?_, fun i hi hvalue => ?_, fun hno => ?_⟩⟩
  · cases hfind : a.find? x with
    | none => exact ⟨0, Nat.zero_le _, .above⟩
    | some i =>
      obtain ⟨turns, hle, hclimb⟩ := a.exists_climbs i
      exact ⟨turns, Nat.le_trans hle (find?_eq_some_iff.mp hfind).1, hclimb⟩
  · rw [find?_eq_some_iff.mpr ⟨hi, hvalue⟩, Option.bind_some]
    exact h.next?_eq_find? hx hi
  · rw [find?_eq_none_iff.mpr hno, Option.bind_none]

open Classical in
theorem walk_of_growths_late_child :
    let a := (empty : Arena String).growAll
      [{ data := "a" }, { data := "b" }, { data := "c", parent := some (.ofNat 0) },
        { data := "d", parent := some (.ofNat 0) }, { data := "e", parent := some (.ofNat 2) }]
    let order := [0, 2, 4, 3, 1]
    a.Visits a.roots order ∧ order.find? (a.Clears order 4 ·) = some 3 ∧
      (∀ i < a.size, (Number.finite false 1 (-1)).value? ≠ some (i : ℚ)) ∧
      (a.find? (.finite false 1 (-1))).bind a.next? = none := by
  intro a order
  obtain ⟨walk, ⟨hwalk, -⟩, hnext⟩ := walk_of_growths
    [{ data := "a" }, { data := "b" }, { data := "c", parent := some (.ofNat 0) },
      { data := "d", parent := some (.ofNat 0) }, { data := "e", parent := some (.ofNat 2) }]
  have hleaf : ∀ i, a.Visits (a.children i) [] → a.Visits [i] ([i] ++ []) :=
    fun _ hi => .node hi .nil
  have hinner : a.Visits (a.children 0) (2 :: ([4] ++ [3])) := .node (hleaf 4 .nil) (hleaf 3 .nil)
  have horder : a.Visits a.roots (0 :: ([2, 4, 3] ++ [1])) := .node hinner (hleaf 1 .nil)
  obtain rfl : walk = order := hwalk.unique horder
  have hthree : a.next? 4 = some 3 := by
    rw [next?_eq]
    change a.next? 2 = some 3
    rw [next?_eq]
    rfl
  have hfour := (hnext (.ofNat 4)).2.1 4 (by decide) (Number.toNat?_eq_some_iff.mp rfl)
  have hhalf : ∀ i < a.size, (Number.finite false 1 (-1)).value? ≠ some (i : ℚ) :=
    find?_eq_none_iff.mp rfl
  exact ⟨horder, hfour.symm.trans hthree, hhalf, (hnext _).2.2 hhalf⟩

end
end Arena
end BranchingDialogue
