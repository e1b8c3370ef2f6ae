import BranchingDialogue.Proofs.Sites

/-! What lies above and beneath the nodes of a story. The nodes beneath a node are the stretch of numbers
after it, so siblings have nothing beneath them in common; and a run that leaves a node comes out beneath
the same nodes, or behind one of them. -/
namespace BranchingDialogue

namespace Arena

section
variable {α : Type} {a : Arena α} {i p q : Nat}

/-- `q` lies above `i`: it is the parent, or the parent of that, and so on. -/
def IsAbove (a : Arena α) (q i : Nat) : Prop := q ∈ (a.lineage i).tail

theorem mem_lineage_iff : q ∈ a.lineage i ↔ q = i ∨ a.IsAbove q i := by
  rw [IsAbove, lineage, List.tail_cons, List.mem_cons]

theorem isAbove_iff : a.IsAbove q i ↔ ∃ p, a.parent? i = some p ∧ (q = p ∨ a.IsAbove q p) := by
  rw [IsAbove, lineage, List.tail_cons]
  split
  next hnone => simp [hnone]
  next p hp => simp [hp, mem_lineage_iff]

theorem isAbove_of_parent? (h : a.parent? i = some p) : a.IsAbove p i :=
  isAbove_iff.mpr ⟨p, h, .inl rfl⟩

theorem IsAbove.trans_parent? (h : a.IsAbove q p) (hp : a.parent? i = some p) : a.IsAbove q i :=
  isAbove_iff.mpr ⟨p, hp, .inr h⟩

/-- Siblings lie beneath the same nodes. -/
theorem IsAbove.sibling {j : Nat} (h : a.IsAbove q i) (hij : a.parent? j = a.parent? i) :
    a.IsAbove q j := by
  obtain ⟨p, hp, hq⟩ := isAbove_iff.mp h
  exact isAbove_iff.mpr ⟨p, hij.trans hp, hq⟩

end

section
variable {a : Arena Command} {parent : Option Nat} {n i : Nat} {ts : Forest}

/-- Every number of a level is that of a tree, which does not reach beyond the level. -/
theorem Laid.exists_laid (h : a.Laid parent n ts) (hl : n ≤ i) (hu : i < n + Forest.size ts) :
    ∃ q t us, a.Laid q i (t :: us) ∧ i + Forest.size t.children < n + Forest.size ts := by
  obtain ⟨q, t, us, hlaid, hle⟩ := h.descend
    (motive := fun _ k us => k + Forest.size us ≤ n + Forest.size ts)
    (fun _ k t us _ hle => by rw [Forest.size_cons] at hle; omega)
    (fun _ k t us _ hle => by rw [Forest.size_cons] at hle; omega) (Nat.le_refl _) hl hu
  rw [Forest.size_cons] at hle
  exact ⟨q, t, us, hlaid, by omega⟩

end

end Arena

theorem Forest.pairwise_ids (n : Nat) (ts : Forest) : (Forest.ids n ts).Pairwise (· < ·) := by
  induction ts generalizing n with
  | nil => exact .nil
  | cons t ts ih =>
    refine List.pairwise_cons.mpr ⟨fun i hi => ?_, ih _⟩
    have hrange := Forest.mem_ids hi
    omega

namespace Story

variable {o : Outline} {s : Story} {parent : Option Nat} {i j p q r m : Nat} {t : Tree} {ts : Forest}

/-- The nodes beneath a parent, or at the top, form a level. -/
theorem exists_laid_beneath (h : build o = .ok s) (hi : i ∈ s.tree.beneath parent) :
    ∃ n ts, s.tree.Laid parent n ts ∧ s.tree.beneath parent = Forest.ids n ts := by
  cases parent with
  | none =>
    have hlaid := laid_of_build h
    exact ⟨0, o.forest, hlaid, hlaid.roots⟩
  | some p =>
    have hp : p < s.tree.size := by
      have hrange := mem_beneath h hi
      exact Nat.lt_trans (hrange.2 p rfl) hrange.1
    obtain ⟨parent, t, ts, hsite⟩ := exists_site h hp
    exact ⟨p + 1, t.children, hsite.laid.inner, hsite.children⟩

theorem parent?_of_mem_beneath (h : build o = .ok s) (hi : i ∈ s.tree.beneath parent) :
    s.tree.parent? i = parent := by
  obtain ⟨n, ts, hlaid, hlevel⟩ := exists_laid_beneath h hi
  rw [hlevel] at hi
  obtain ⟨k, hk, hget⟩ := List.getElem_of_mem hi
  have hget? := List.getElem?_eq_some_iff.mpr ⟨hk, hget⟩
  rw [Forest.length_ids] at hk
  exact (hlaid.getElem hget? hk).parent?

theorem parent?_of_mem_children (h : build o = .ok s) (hi : i ∈ s.tree.children p) :
    s.tree.parent? i = some p := by
  have hbeneath : i ∈ s.tree.beneath (some p) := hi
  exact parent?_of_mem_beneath h hbeneath

theorem parent?_of_mem_following (h : build o = .ok s) (hj : j ∈ s.tree.following i) :
    s.tree.parent? j = s.tree.parent? i := by
  apply parent?_of_mem_beneath h
  rw [← Arena.level_eq_beneath]
  exact (List.dropWhile_sublist _).subset (List.mem_of_mem_tail hj)

/-- What follows a node on its level is what stands after it there. -/
theorem following_of_beneath (h : build o = .ok s) {earlier later : List Nat}
    (hlevel : s.tree.beneath parent = earlier ++ i :: later) : s.tree.following i = later := by
  have hi : i ∈ s.tree.beneath parent := by
    rw [hlevel]
    exact List.mem_append_right _ List.mem_cons_self
  obtain ⟨n, ts, -, hids⟩ := exists_laid_beneath h hi
  have hsorted := Forest.pairwise_ids n ts
  rw [← hids, hlevel, List.pairwise_append] at hsorted
  have hnot : i ∉ earlier := fun hmem =>
    Nat.lt_irrefl i (hsorted.2.2 i hmem i List.mem_cons_self)
  refine Arena.following_of_level ?_ hnot
  rw [Arena.level_eq_beneath, parent?_of_mem_beneath h hi, hlevel]

theorem mem_children_of_parent? (h : build o = .ok s) (hp : s.tree.parent? i = some p) :
    i ∈ s.tree.children p := by
  have hi : i < s.tree.size := by
    refine Nat.lt_of_not_le fun hle => ?_
    rw [Arena.parent?, Array.getElem?_eq_none hle] at hp
    cases hp
  obtain ⟨parent, t, ts, hsite⟩ := exists_site h hi
  obtain ⟨earlier, hlevel, -⟩ := hsite.laid.last
  rw [← hsite.laid.parent?, hp] at hlevel
  change s.tree.children p = _ at hlevel
  rw [hlevel, Forest.ids]
  exact List.mem_append_right _ List.mem_cons_self

/-- What lies beneath a node is numbered right after it, as far as its tree reaches. -/
theorem Site.range_of_isAbove (h : build o = .ok s) (hsite : s.Site q parent t ts)
    (hq : s.tree.IsAbove q i) : q < i ∧ i ≤ q + Forest.size t.children := by
  induction i using Nat.strongRecOn with
  | ind i ih =>
    obtain ⟨p, hp, hqp⟩ := Arena.isAbove_iff.mp hq
    have hi := mem_children_of_parent? h hp
    rcases hqp with rfl | hqp
    · have hrange := hsite.mem_children hi
      exact ⟨hrange.1, hrange.2.1⟩
    · obtain ⟨hl, hu⟩ := ih p (Arena.lt_of_parent? hp) hqp
      obtain ⟨r, u, us, hlaid, hle⟩ := hsite.laid.inner.exists_laid hl (by omega)
      rw [hlaid.children] at hi
      have hrange := Forest.mem_ids hi
      exact ⟨by omega, by omega⟩

theorem Site.lt_of_isAbove (h : build o = .ok s) (hsite : s.Site q parent t ts)
    (hq : s.tree.IsAbove q i) (hm : m ∈ s.successor? q) : i < m := by
  have hrange := hsite.range_of_isAbove h hq
  have hbehind := hsite.behind m hm
  omega

/-- What lies beneath a node stands before its later siblings. -/
theorem lt_of_isAbove_of_lt (h : build o = .ok s) (hq : q ∈ s.tree.beneath parent)
    (hr : r ∈ s.tree.beneath parent) (hlt : q < r) (hi : s.tree.IsAbove q i) : i < r := by
  obtain ⟨parent', t, ts, hsite⟩ := exists_site h (mem_beneath h hq).1
  obtain rfl : parent = parent' := (parent?_of_mem_beneath h hq).symm.trans hsite.laid.parent?
  have hrange := hsite.range_of_isAbove h hi
  obtain ⟨earlier, hlevel, hearlier⟩ := hsite.laid.last
  rw [hlevel] at hr
  rcases List.mem_append.mp hr with hr | hr
  · have hle := hearlier r hr
    omega
  · rcases List.mem_cons.mp hr with rfl | hr
    · exact absurd hlt (Nat.lt_irrefl r)
    · have hlater := Forest.mem_ids hr
      omega

/-- Siblings have nothing beneath them in common. -/
theorem eq_of_isAbove (h : build o = .ok s) (hq : q ∈ s.tree.beneath parent)
    (hr : r ∈ s.tree.beneath parent) (hqi : s.tree.IsAbove q i) (hri : s.tree.IsAbove r i) : q = r := by
  have hlt : ∀ {x y : Nat}, x ∈ s.tree.beneath parent → y ∈ s.tree.beneath parent →
      s.tree.IsAbove x i → s.tree.IsAbove y i → ¬ x < y := by
    intro x y hx hy hxi hyi hxy
    have hbefore := lt_of_isAbove_of_lt h hx hy hxy hxi
    obtain ⟨parent', t, ts, hsite⟩ := exists_site h (mem_beneath h hy).1
    have hafter := hsite.range_of_isAbove h hyi
    omega
  exact Nat.le_antisymm (Nat.le_of_not_lt (hlt hr hq hri hqi)) (Nat.le_of_not_lt (hlt hq hr hqi hri))

/-- A run that leaves a node beneath `q` goes on beneath `q`, or where a run that leaves `q` does. -/
theorem isAbove_or_mem_successor? (h : build o = .ok s) (hq : s.tree.IsAbove q i)
    (hm : m ∈ s.successor? i) : s.tree.IsAbove q m ∨ m ∈ s.successor? q := by
  induction i using Nat.strongRecOn with
  | ind i ih =>
    rw [successor?_eq] at hm
    rcases Option.or_eq_some_iff.mp hm with hsequel | ⟨-, hparent⟩
    · have hsibling := parent?_of_mem_following h (mem_following_of_sequel? hsequel)
      exact .inl (hq.sibling hsibling)
    · obtain ⟨p, hp, hqp⟩ := Arena.isAbove_iff.mp hq
      rw [hp, Option.bind_some] at hparent
      rcases hqp with rfl | hqp
      · exact .inr hparent
      · exact ih p (Arena.lt_of_parent? hp) hqp hparent

end Story
end BranchingDialogue
