import BranchingDialogue.Proofs.Preorder
import BranchingDialogue.Proofs.Straight
import Mathlib.Data.List.DropRight
import Mathlib.Order.Bounds.Defs

/-! Where a story goes on once a node and all that lies beneath it is done: at the first node behind all
of that which lies neither in nor beneath a later alternative of a choice that is left. -/
namespace BranchingDialogue

namespace Arena.Indexed

section
variable {α : Type} {a : Arena α} {i j : Nat}

theorem exists_level_eq (h : a.Indexed) (hi : i < a.size) :
    ∃ earlier, a.level i = earlier ++ i :: a.following i := by
  have hmem : i ∈ a.level i := h.mem_level_iff.mpr ⟨hi, rfl⟩
  obtain ⟨earlier, later, hlevel, hnot⟩ := List.eq_append_cons_of_mem hmem
  rw [following_of_level hlevel hnot]
  exact ⟨earlier, hlevel⟩

theorem mem_following_iff (h : a.Indexed) (hi : i < a.size) :
    j ∈ a.following i ↔ i < j ∧ j < a.size ∧ a.parent? j = a.parent? i := by
  obtain ⟨earlier, hlevel⟩ := h.exists_level_eq hi
  have hsorted := h.pairwise_level i
  rw [hlevel, List.pairwise_append, List.pairwise_cons] at hsorted
  rw [← h.mem_level_iff, hlevel, List.mem_append, List.mem_cons]
  constructor
  · intro hj
    exact ⟨hsorted.2.1.1 j hj, .inr (.inr hj)⟩
  · rintro ⟨hlt, hj | rfl | hj⟩
    · exact absurd (hsorted.2.2 j hj i List.mem_cons_self) (Nat.lt_asymm hlt)
    · exact absurd hlt (Nat.lt_irrefl j)
    · exact hj

theorem pairwise_following (h : a.Indexed) (i : Nat) : (a.following i).Pairwise (· < ·) :=
  (h.pairwise_level i).sublist ((List.tail_sublist _).trans (List.dropWhile_sublist _))

theorem covers_iff_of_parent? {p q : Nat} (h : a.Indexed) (hp : a.parent? i = some p) :
    a.Covers q i ↔ q = i ∨ a.Covers q p := by
  rw [Covers, Relation.ReflTransGen.cases_tail_iff, eq_comm]
  refine or_congr_right ⟨?_, fun hq => ⟨p, hq, h.mem_children_iff.mpr hp⟩⟩
  rintro ⟨r, hq, hi⟩
  rw [h.mem_children_iff, hp] at hi
  rwa [Option.some.inj hi]

end

section
variable {a : Arena Command} {parent : Option Nat}

theorem addForest (h : a.Indexed) (hp : ∀ p ∈ parent, p < a.size) (ts : Forest) :
    (a.addForest parent ts).Indexed := by
  induction ts using Forest.induct generalizing parent a with
  | nil => rwa [addForest_nil]
  | node c cs ts ihc iht =>
    rw [Arena.addForest]
    have hsize := size_add a parent c
    refine iht (ihc (h.add hp c) ?_) ?_
    · rintro p ⟨⟩
      omega
    · intro p hmem
      have hlt := hp p hmem
      rw [size_addForest]
      omega

end

end Arena.Indexed

namespace Story

variable {o : Outline} {s : Story} {i p w x y z : Nat}

theorem indexed_of_build (h : build o = .ok s) : s.tree.Indexed := by
  rw [tree_of_build h]
  exact Arena.indexed_empty.addForest (by simp) o.forest

/-- A walk through the tree of a story comes to the nodes in the order of their numbers. -/
theorem visits_of_build (h : build o = .ok s) :
    s.tree.Visits s.tree.roots (List.range s.tree.size) := by
  have hlaid := laid_of_build h
  rw [hlaid.roots, List.range_eq_range', size_of_build h, ← o.size_forest]
  exact hlaid.placed.visits

/-- A later node that a node does not cover comes after all that it does. -/
theorem lt_of_not_covers (h : build o = .ok s) (hpy : p < y) (hy : y < s.tree.size)
    (hno : ¬ s.tree.Covers p y) (hi : s.tree.Covers p i) : i < y := by
  obtain ⟨before, beneath, after, hsplit, hbeneath, -⟩ :=
    (indexed_of_build h).split_order (visits_of_build h) (Nat.lt_trans hpy hy)
  have hsorted := List.pairwise_lt_range (n := s.tree.size)
  have hmem : y ∈ List.range s.tree.size := List.mem_range.mpr hy
  rw [hsplit, List.append_assoc, List.pairwise_append, List.pairwise_append] at hsorted
  rw [hsplit, List.append_assoc, List.mem_append, List.mem_append] at hmem
  rcases hmem with hmem | hmem | hmem
  · have hlt := hsorted.2.2 y hmem p (by simp)
    omega
  · exact absurd ((hbeneath y).mpr hmem) hno
  · exact hsorted.2.1.2.2 i ((hbeneath i).mp hi) y hmem

/-- Choices side by side with nothing else between them, and no more of them at either end. -/
def FullRun (s : Story) (run : List Nat) : Prop :=
  ∃ parent earlier later, s.tree.beneath parent = earlier ++ run ++ later ∧
    (∀ id ∈ run, s.isChoice id = true) ∧ (∀ id ∈ earlier.getLast?, s.isChoice id = false) ∧
    ∀ id ∈ later.head?, s.isChoice id = false

/-- `z` comes after `w` among choices that stand side by side. -/
def LaterAlternative (s : Story) (w z : Nat) : Prop := ∃ run, s.FullRun run ∧ [w, z].Sublist run

/-- `y` comes after `x` and all that lies beneath `x`, and neither `y` nor a node above it is a later
alternative of `x` or of a node above `x`. -/
structure Resumes (s : Story) (x y : Nat) : Prop where
  lt_size : y < s.tree.size
  behind : ∀ i, s.tree.Covers x i → i < y
  untaken : ∀ w, s.tree.Covers w x → ∀ z, s.tree.Covers z y → ¬ s.LaterAlternative w z

/-- The choices around a choice, up to the next nodes of another kind on both sides. -/
theorem fullRun_around {parent : Option Nat} {earlier later : List Nat}
    (hlevel : s.tree.beneath parent = earlier ++ w :: later) (hchoice : s.isChoice w = true) :
    s.FullRun (earlier.rtakeWhile s.isChoice ++ w :: later.takeWhile s.isChoice) := by
  refine ⟨parent, earlier.rdropWhile s.isChoice, later.dropWhile s.isChoice, ?_, ?_, ?_, ?_⟩
  · calc s.tree.beneath parent = earlier ++ w :: later := hlevel
      _ = (earlier.rdropWhile s.isChoice ++ earlier.rtakeWhile s.isChoice) ++
          w :: (later.takeWhile s.isChoice ++ later.dropWhile s.isChoice) := by
        rw [List.rdropWhile_append_rtakeWhile, List.takeWhile_append_dropWhile]
      _ = _ := by simp only [List.append_assoc, List.cons_append]
  · intro id hid
    rcases List.mem_append.mp hid with hid | hid
    · exact List.mem_rtakeWhile_imp hid
    · rcases List.mem_cons.mp hid with rfl | hid
      · exact hchoice
      · exact List.mem_takeWhile_imp hid
  · intro id hid
    obtain ⟨hne, rfl⟩ := List.mem_getLast?_eq_getLast hid
    exact Bool.eq_false_iff.mpr (List.rdropWhile_last_not _ _ hne)
  · intro id hid
    have hnot := List.head?_dropWhile_not s.isChoice later
    rw [hid] at hnot
    exact hnot

/-- The later alternatives of a choice are those that follow it up to the next node of another kind. -/
theorem laterAlternative_iff (h : build o = .ok s) (hw : w < s.tree.size) :
    s.LaterAlternative w z ↔
      s.isChoice w = true ∧ z ∈ (s.tree.following w).takeWhile s.isChoice := by
  constructor
  · rintro ⟨run, ⟨parent, earlier, later, hlevel, hchoice, -, -⟩, hpair⟩
    obtain ⟨front, back, rfl, hfront, hback⟩ := List.cons_sublist_iff.mp hpair
    obtain ⟨before, between, rfl⟩ := List.append_of_mem hfront
    have hz : z ∈ between ++ back :=
      List.mem_append_right between (List.singleton_sublist.mp hback)
    have hsplit : s.tree.beneath parent = (earlier ++ before) ++ w :: (between ++ back ++ later) := by
      rw [hlevel]
      simp
    have hrun : before ++ w :: between ++ back = before ++ w :: (between ++ back) := by
      rw [List.append_assoc, List.cons_append]
    rw [hrun, List.forall_mem_append, List.forall_mem_cons] at hchoice
    refine ⟨hchoice.2.1, ?_⟩
    rw [following_of_beneath h hsplit, List.takeWhile_append_of_pos hchoice.2.2]
    exact List.mem_append_left _ hz
  · rintro ⟨hchoice, hz⟩
    obtain ⟨earlier, hlevel⟩ := (indexed_of_build h).exists_level_eq hw
    rw [Arena.level_eq_beneath] at hlevel
    have hpair : [w, z].Sublist (w :: (s.tree.following w).takeWhile s.isChoice) :=
      List.cons_sublist_cons.mpr (List.singleton_sublist.mpr hz)
    exact ⟨_, fullRun_around hlevel hchoice, hpair.trans (List.sublist_append_right _ _)⟩

theorem LaterAlternative.sibling (hlater : s.LaterAlternative w z) (h : build o = .ok s)
    (hw : w < s.tree.size) : w < z ∧ s.tree.parent? z = s.tree.parent? w := by
  have hmem := (List.takeWhile_sublist _).subset ((laterAlternative_iff h hw).mp hlater).2
  have hfollowing := ((indexed_of_build h).mem_following_iff hw).mp hmem
  exact ⟨hfollowing.1, hfollowing.2.2⟩

theorem not_laterAlternative_of_mem_sequel? (h : build o = .ok s) (hx : x < s.tree.size)
    (hy : y ∈ s.sequel? x) : ¬ s.LaterAlternative x y := by
  rw [laterAlternative_iff h hx]
  rintro ⟨hchoice, hmem⟩
  rw [sequel?, if_pos hchoice] at hy
  have hother := List.head?_dropWhile_not s.isChoice (s.tree.following x)
  rw [hy] at hother
  exact Bool.noConfusion ((List.mem_takeWhile_imp hmem).symm.trans hother)

theorem exists_head?_le {l : List Nat} (hl : l.Pairwise (· < ·)) (hi : i ∈ l) :
    ∃ m ∈ l.head?, m ≤ i := by
  obtain ⟨m, l, rfl⟩ := List.exists_cons_of_ne_nil (List.ne_nil_of_mem hi)
  refine ⟨m, rfl, ?_⟩
  rcases List.mem_cons.mp hi with rfl | hi
  · exact Nat.le_refl i
  · exact Nat.le_of_lt ((List.pairwise_cons.mp hl).1 i hi)

/-- A later sibling that is no alternative is not passed over. -/
theorem exists_mem_sequel?_le (h : build o = .ok s) (hx : x < s.tree.size)
    (hi : i ∈ s.tree.following x) (hno : ¬ s.LaterAlternative x i) : ∃ m ∈ s.sequel? x, m ≤ i := by
  have hsorted := (indexed_of_build h).pairwise_following x
  rw [sequel?]
  split
  next hchoice =>
    have hleft : i ∈ (s.tree.following x).dropWhile s.isChoice := by
      rw [← List.takeWhile_append_dropWhile (p := s.isChoice) (l := s.tree.following x)] at hi
      refine (List.mem_append.mp hi).resolve_left fun htaken => ?_
      exact hno ((laterAlternative_iff h hx).mpr ⟨hchoice, htaken⟩)
    exact exists_head?_le (hsorted.sublist (List.dropWhile_sublist _)) hleft
  next => exact exists_head?_le hsorted hi

/-- Where a run goes on that leaves a node is behind all that is done, and in no alternative. -/
theorem resumes_of_mem_successor? (h : build o = .ok s) (hx : x < s.tree.size)
    (hy : y ∈ s.successor? x) : s.Resumes x y := by
  have hindexed := indexed_of_build h
  induction x using Nat.strongRecOn with
  | ind x ih =>
    rw [successor?_eq] at hy
    rcases Option.or_eq_some_iff.mp hy with hsequel | ⟨-, hparent⟩
    · obtain ⟨hlt, hsize, hsibling⟩ :=
        (hindexed.mem_following_iff hx).mp (mem_following_of_sequel? hsequel)
      have hno : ¬ s.tree.Covers x y := fun hcovers =>
        Nat.ne_of_lt hlt (hindexed.eq_of_covers hsibling.symm hcovers .refl)
      refine ⟨hsize, fun i hi => lt_of_not_covers h hlt hsize hno hi, fun w hw z hz hlater => ?_⟩
      have hwx := hindexed.le_of_covers hw
      obtain ⟨hwz, hzw⟩ := hlater.sibling h (Nat.lt_of_le_of_lt hwx hx)
      rcases (Relation.ReflTransGen.cases_tail_iff _ _ _).mp hz with rfl | ⟨p, hzp, hyp⟩
      · obtain rfl : w = x := hindexed.eq_of_covers (hzw.symm.trans hsibling) hw .refl
        exact not_laterAlternative_of_mem_sequel? h hx hsequel hlater
      · rw [hindexed.mem_children_iff, hsibling] at hyp
        have hzx : s.tree.Covers z x := hzp.tail (hindexed.mem_children_iff.mpr hyp)
        exact Nat.ne_of_lt hwz (hindexed.eq_of_covers hzw.symm hw hzx)
    · obtain ⟨p, hp, hsuccessor⟩ := Option.bind_eq_some_iff.mp hparent
      have hlt := Arena.lt_of_parent? hp
      have hresumes := ih p hlt (Nat.lt_trans hlt hx) hsuccessor
      have hpx : s.tree.Covers p x := .single (hindexed.mem_children_iff.mpr hp)
      refine ⟨hresumes.lt_size, fun i hi => hresumes.behind i (hpx.trans hi), fun w hw z hz hlater => ?_⟩
      rcases (hindexed.covers_iff_of_parent? hp).mp hw with rfl | hwp
      · have hzw := (hlater.sibling h hx).2
        have hpz : s.tree.Covers p z := .single (hindexed.mem_children_iff.mpr (hzw.trans hp))
        exact Nat.lt_irrefl y (hresumes.behind y (hpz.trans hz))
      · exact hresumes.untaken w hwp z hz hlater

/-- If a sibling of a node covers the place to go on at, it is a later one and no alternative, and so is
not passed over. -/
theorem exists_mem_successor?_le_of_sibling (h : build o = .ok s) (hx : x < s.tree.size)
    (hy : s.Resumes x y) (hsibling : s.tree.parent? i = s.tree.parent? x) (hi : s.tree.Covers i y) :
    ∃ m ∈ s.successor? x, m ≤ y := by
  have hindexed := indexed_of_build h
  have hiy := hindexed.le_of_covers hi
  have hxi : x < i := by
    rcases Nat.lt_trichotomy x i with hlt | rfl | hlt
    · exact hlt
    · exact absurd (hy.behind y hi) (Nat.lt_irrefl y)
    · have hno : ¬ s.tree.Covers i x := fun hix =>
        Nat.ne_of_lt hlt (hindexed.eq_of_covers hsibling hix .refl)
      exact absurd (lt_of_not_covers h hlt hx hno hi) (Nat.lt_asymm (hy.behind x .refl))
  have hfollowing : i ∈ s.tree.following x :=
    (hindexed.mem_following_iff hx).mpr ⟨hxi, Nat.lt_of_le_of_lt hiy hy.lt_size, hsibling⟩
  obtain ⟨m, hm, hmi⟩ := exists_mem_sequel?_le h hx hfollowing (hy.untaken x .refl i hi)
  refine ⟨m, ?_, Nat.le_trans hmi hiy⟩
  rw [successor?_eq, Option.mem_def.mp hm]
  rfl

/-- A place to go on at that the parent does not cover is one for the parent too. -/
theorem Resumes.parent (hy : s.Resumes x y) (h : build o = .ok s) (hp : s.tree.parent? x = some p)
    (hno : ¬ s.tree.Covers p y) : s.Resumes p y := by
  have hpx : s.tree.Covers p x := .single ((indexed_of_build h).mem_children_iff.mpr hp)
  have hpy : p < y := Nat.lt_trans (Arena.lt_of_parent? hp) (hy.behind x .refl)
  exact ⟨hy.lt_size, fun i hi => lt_of_not_covers h hpy hy.lt_size hno hi,
    fun w hw z hz => hy.untaken w (hw.trans hpx) z hz⟩

/-- A run that leaves a node passes over nothing but alternatives. -/
theorem exists_mem_successor?_le (h : build o = .ok s) (hx : x < s.tree.size) (hy : s.Resumes x y) :
    ∃ m ∈ s.successor? x, m ≤ y := by
  have hindexed := indexed_of_build h
  induction x using Nat.strongRecOn with
  | ind x ih =>
    cases hp : s.tree.parent? x with
    | none =>
      obtain ⟨i, hroot, hi⟩ := hindexed.exists_root_covers hy.lt_size
      have hsibling := (hindexed.mem_roots_iff.mp hroot).2.trans hp.symm
      exact exists_mem_successor?_le_of_sibling h hx hy hsibling hi
    | some p =>
      have hlt := Arena.lt_of_parent? hp
      by_cases hpy : s.tree.Covers p y
      · rcases Arena.covers_iff_child.mp hpy with rfl | ⟨i, hchild, hi⟩
        · exact absurd hlt (Nat.lt_asymm (hy.behind x .refl))
        · have hsibling := (hindexed.mem_children_iff.mp hchild).trans hp.symm
          exact exists_mem_successor?_le_of_sibling h hx hy hsibling hi
      · -- the place is behind the parent, and a sibling that the run comes to is before it
        have hparent := hy.parent h hp hpy
        cases hsequel : s.sequel? x with
        | some r =>
          have hsibling := (hindexed.mem_following_iff hx).mp (mem_following_of_sequel? hsequel)
          have hpr : s.tree.Covers p r :=
            .single (hindexed.mem_children_iff.mpr (hsibling.2.2.trans hp))
          refine ⟨r, ?_, Nat.le_of_lt (hparent.behind r hpr)⟩
          rw [successor?_eq, hsequel]
          rfl
        | none =>
          obtain ⟨m, hm, hmy⟩ := ih p hlt (Nat.lt_trans hlt hx) hparent
          refine ⟨m, ?_, hmy⟩
          rw [successor?_eq, hsequel, hp]
          exact hm

/-- A story that leaves a node and all that lies beneath it goes on at the first node behind that which
is not in or beneath a later alternative of what it leaves, and ends if there is none; and where no choice
is left this is where a walk through the tree goes on. -/
theorem successor_isLeast (h : build o = .ok s) (hx : x < s.tree.size) :
    (∀ y, s.successor? x = some y ↔ IsLeast {y | s.Resumes x y} y) ∧
    (s.successor? x = none ↔ ∀ y, ¬ s.Resumes x y) ∧
    ((∀ w, s.tree.Covers w x → s.isChoice w = false) → s.successor? x = s.tree.next? x) := by
  refine ⟨fun y => ⟨fun hy => ?_, fun hy => ?_⟩, ⟨fun hnone y hy => ?_, fun hno => ?_⟩,
    fun hno => successor?_eq_next? fun w hw => hno w ((indexed_of_build h).covers_iff.mpr hw)⟩
  · refine ⟨resumes_of_mem_successor? h hx hy, fun i hi => ?_⟩
    obtain ⟨m, hm, hle⟩ := exists_mem_successor?_le h hx hi
    rw [Option.mem_def, hy] at hm
    cases hm
    exact hle
  · obtain ⟨m, hm, hle⟩ := exists_mem_successor?_le h hx hy.1
    have hge := hy.2 (resumes_of_mem_successor? h hx hm)
    rw [Nat.le_antisymm hge hle]
    exact hm
  · obtain ⟨m, hm, -⟩ := exists_mem_successor?_le h hx hy
    rw [hnone] at hm
    cases hm
  · rw [Option.eq_none_iff_forall_ne_some]
    exact fun y hy => hno y (resumes_of_mem_successor? h hx hy)

theorem successor_isLeast_nested :
    ∃ s, build (.line (.command { name := "CHOICE", text := some "a" })
        (.block (.line (.command { name := "SAY", text := some "b" })
          (.block (.line (.command { name := "CHOICE", text := some "c" })
            (.block (.line (.command { name := "SAY", text := some "d" }) .nil)
              (.line (.command { name := "CHOICE", text := some "e" }) .nil))) .nil))
        (.line (.command { name := "CHOICE", text := some "f" })
          (.line (.command { name := "SAY", text := some "g" }) .nil)))) = .ok s ∧
      3 < s.tree.size ∧ IsLeast {y | s.Resumes 3 y} 6 ∧
      (∀ w, s.tree.Covers w 6 → s.isChoice w = false) ∧ s.successor? 6 = s.tree.next? 6 := by
  refine Exists.imp (fun s h => And.intro h ?_) ⟨_, rfl⟩
  have hs := Except.ok.inj h
  have hsize : s.tree.size = 7 := by rw [← hs]; rfl
  have hthree : s.successor? 3 = some 6 := by
    rw [← hs, successor?_eq]
    change successor? _ 2 = some 6
    rw [successor?_eq]
    change successor? _ 1 = some 6
    rw [successor?_eq]
    change successor? _ 0 = some 6
    rw [successor?_eq]
    rfl
  have hno : ∀ w, s.tree.Covers w 6 → s.isChoice w = false := by
    intro w hw
    rcases (Relation.ReflTransGen.cases_tail_iff _ _ _).mp hw with rfl | ⟨p, -, hp⟩
    · rw [← hs]
      rfl
    · rw [(indexed_of_build h).mem_children_iff, ← hs] at hp
      cases hp
  have hlt : 3 < s.tree.size := by omega
  have hlast : 6 < s.tree.size := by omega
  exact ⟨hlt, ((successor_isLeast h hlt).1 6).mp hthree, hno, (successor_isLeast h hlast).2.2 hno⟩

end Story
end BranchingDialogue
