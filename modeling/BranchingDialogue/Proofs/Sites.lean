import BranchingDialogue.Proofs.Driving
import BranchingDialogue.Proofs.Flattening

/-! The nodes of a story and their surroundings. Every number below the size of the tree is the site of
a tree of the forest; what lies beneath a node is numbered after it, and a run that leaves what lies
there goes on behind all of it. -/
namespace BranchingDialogue

theorem Forest.mem_ids {n i : Nat} {ts : Forest} (h : i ∈ Forest.ids n ts) :
    n ≤ i ∧ i < n + Forest.size ts := by
  induction ts generalizing n with
  | nil => cases h
  | cons t ts ih =>
    rw [Forest.size_cons]
    rcases List.mem_cons.mp h with rfl | hi
    · omega
    · have hlater := ih hi
      omega

theorem Arena.Placed.lt_size {a : Arena Command} {parent : Option Nat} {n i : Nat} {ts : Forest}
    (h : a.Placed parent n ts) (hl : n ≤ i) (hu : i < n + Forest.size ts) : i < a.size := by
  obtain ⟨j, rfl⟩ := Nat.exists_eq_add_of_le hl
  have hj : j < Forest.size ts := by omega
  have hget := h.get? hj
  rw [List.getElem?_eq_getElem (by rwa [Forest.length_commands])] at hget
  refine Nat.lt_of_not_le fun hle => ?_
  rw [Arena.get?, Array.getElem?_eq_none hle] at hget
  cases hget

namespace Story

variable {o : Outline} {s : Story} {parent : Option Nat} {n i m : Nat} {t : Tree} {ts : Forest}

theorem mem_following_of_sequel? (h : m ∈ s.sequel? i) : m ∈ s.tree.following i := by
  rw [sequel?] at h
  split at h
  · exact (List.dropWhile_sublist _).subset (List.mem_of_mem_head? h)
  · exact List.mem_of_mem_head? h

/-- A node with its tree and what follows on its level; a run that leaves the tree goes on behind it. -/
structure Site (s : Story) (node : Nat) (parent : Option Nat) (t : Tree) (ts : Forest) : Prop where
  laid : s.tree.Laid parent node (t :: ts)
  behind : ∀ m ∈ s.successor? node, node + Forest.size t.children < m ∧ m < s.tree.size

/-- A run that leaves a level beneath `parent` goes on behind it. -/
def OutBehind (s : Story) (parent : Option Nat) (n : Nat) (ts : Forest) : Prop :=
  ∀ m ∈ parent.bind s.successor?, n + Forest.size ts ≤ m ∧ m < s.tree.size

/-- Where a run that leaves the level goes on behind it, one that leaves its first tree goes on behind that. -/
theorem lt_successor?_of_laid (h : s.tree.Laid parent n (t :: ts)) (hout : s.OutBehind parent n (t :: ts)) :
    ∀ m ∈ s.successor? n, n + Forest.size t.children < m ∧ m < s.tree.size := by
  intro m hm
  rw [successor?_eq, h.parent?] at hm
  rcases Option.or_eq_some_iff.mp hm with hsequel | ⟨-, hparent⟩
  · have hmem := mem_following_of_sequel? hsequel
    rw [h.following] at hmem
    have hrange := Forest.mem_ids hmem
    exact ⟨by omega, h.tail.placed.lt_size hrange.1 hrange.2⟩
  · have hrange := hout m hparent
    rw [Forest.size_cons] at hrange
    exact ⟨by omega, hrange.2⟩

theorem exists_site (h : build o = .ok s) (hi : i < s.tree.size) :
    ∃ parent t ts, s.Site i parent t ts := by
  rw [size_of_build h, ← o.size_forest] at hi
  have hinner : ∀ q k t us, s.tree.Laid q k (t :: us) → s.OutBehind q k (t :: us) →
      s.OutBehind (some k) (k + 1) t.children := by
    intro q k t us hlaid hout m hm
    have hrange := lt_successor?_of_laid hlaid hout m hm
    exact ⟨by omega, hrange.2⟩
  have htail : ∀ q k t us, s.tree.Laid q k (t :: us) → s.OutBehind q k (t :: us) →
      s.OutBehind q (k + 1 + Forest.size t.children) us := by
    intro q k t us _ hout m hm
    have hrange := hout m hm
    rw [Forest.size_cons] at hrange
    exact ⟨by omega, hrange.2⟩
  obtain ⟨q, t, us, hlaid, hout⟩ :=
    (laid_of_build h).descend hinner htail (fun _ hm => by cases hm) (Nat.zero_le i) (by omega)
  exact ⟨q, t, us, hlaid, lt_successor?_of_laid hlaid hout⟩

theorem exists_command?_of_lt (h : build o = .ok s) (hi : i < s.tree.size) :
    ∃ c, s.command? i = some c := by
  obtain ⟨parent, t, ts, hsite⟩ := exists_site h hi
  exact ⟨t.command, hsite.laid.get?⟩

namespace Site

variable {node : Nat}

theorem children (h : s.Site node parent t ts) :
    s.tree.children node = Forest.ids (node + 1) t.children :=
  h.laid.children

theorem mem_children (h : s.Site node parent t ts) (hi : i ∈ s.tree.children node) :
    node < i ∧ i ≤ node + Forest.size t.children ∧ i < s.tree.size := by
  rw [h.children] at hi
  have hrange := Forest.mem_ids hi
  exact ⟨by omega, by omega, h.laid.inner.placed.lt_size hrange.1 hrange.2⟩

theorem lt_successor? (h : s.Site node parent t ts) (hm : m ∈ s.successor? node) : node < m := by
  have hrange := h.behind m hm
  omega

end Site

/-- The nodes side by side beneath a node, or at the top, are nodes of the story after that node. -/
theorem mem_beneath (h : build o = .ok s) (hi : i ∈ s.tree.beneath parent) :
    i < s.tree.size ∧ ∀ p ∈ parent, p < i := by
  cases parent with
  | none =>
    have hlaid := laid_of_build h
    rw [Arena.beneath, hlaid.roots] at hi
    have hrange := Forest.mem_ids hi
    refine ⟨hlaid.placed.lt_size hrange.1 hrange.2, ?_⟩
    intro p hp
    cases hp
  | some p =>
    rw [Arena.beneath] at hi
    by_cases hp : p < s.tree.size
    · obtain ⟨parent, t, ts, hsite⟩ := exists_site h hp
      have hrange := hsite.mem_children hi
      refine ⟨hrange.2.2, ?_⟩
      rintro q ⟨⟩
      exact hrange.1
    · rw [Arena.children, Array.getElem?_eq_none (Nat.le_of_not_lt hp)] at hi
      cases hi

end Story
end BranchingDialogue
