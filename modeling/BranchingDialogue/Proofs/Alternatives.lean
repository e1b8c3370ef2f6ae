import BranchingDialogue.Proofs.Advance
import BranchingDialogue.Proofs.Ancestry

/-! Alternatives exclude each other. A run that gives a line beneath a choice stays beneath that choice
until it leaves it, and then goes on behind all choices beside it; so without jumps it gives nothing
beneath another of them, however it got in. -/
namespace BranchingDialogue

namespace Story

/-- Choices side by side, with nothing else between them. -/
def Alternatives (s : Story) (run : List Nat) : Prop :=
  ∃ parent earlier later, s.tree.beneath parent = earlier ++ run ++ later ∧
    ∀ id ∈ run, s.isChoice id = true

variable {o : Outline} {s : Story} {run : List Nat} {i q r m node : Nat}

theorem Alternatives.exists_level (hrun : s.Alternatives run) :
    ∃ parent, ∀ id ∈ run, id ∈ s.tree.beneath parent := by
  obtain ⟨parent, earlier, later, hlevel, -⟩ := hrun
  refine ⟨parent, fun id hid => ?_⟩
  rw [hlevel]
  simp [hid]

theorem sequel?_of_isChoice (h : s.isChoice i = true) :
    s.sequel? i = ((s.tree.following i).dropWhile s.isChoice).head? := by
  rw [sequel?, if_pos h]

/-- Leaving one alternative leaves them all. -/
theorem Alternatives.successor?_eq (h : build o = .ok s) (hrun : s.Alternatives run) (hq : q ∈ run)
    (hr : r ∈ run) : s.successor? q = s.successor? r := by
  obtain ⟨parent, earlier, later, hlevel, hchoice⟩ := hrun
  have hout : ∀ x ∈ run, s.successor? x =
      ((later.dropWhile s.isChoice).head?).or (parent.bind s.successor?) := by
    intro x hx
    have hbeneath : x ∈ s.tree.beneath parent := by
      rw [hlevel]
      simp [hx]
    obtain ⟨before, behind, rfl⟩ := List.append_of_mem hx
    have hsplit : s.tree.beneath parent = (earlier ++ before) ++ x :: (behind ++ later) := by
      rw [hlevel]
      simp
    have hbehind : ∀ y ∈ behind, s.isChoice y = true := fun y hy => hchoice y (by simp [hy])
    rw [successor?_eq, parent?_of_mem_beneath h hbeneath, sequel?_of_isChoice (hchoice x hx),
      following_of_beneath h hsplit, List.dropWhile_append_of_pos hbehind]
  rw [hout q hq, hout r hr]

theorem Alternatives.eq_of_isAbove (h : build o = .ok s) (hrun : s.Alternatives run) (hq : q ∈ run)
    (hr : r ∈ run) (hqi : s.tree.IsAbove q i) (hri : s.tree.IsAbove r i) : q = r := by
  obtain ⟨parent, hmem⟩ := hrun.exists_level
  exact Story.eq_of_isAbove h (hmem q hq) (hmem r hr) hqi hri

/-- Behind one alternative is behind all that lies beneath another. -/
theorem Alternatives.lt_of_mem_successor? (h : build o = .ok s) (hrun : s.Alternatives run)
    (hq : q ∈ run) (hr : r ∈ run) (hri : s.tree.IsAbove r i) (hm : m ∈ s.successor? q) : i < m := by
  obtain ⟨parent, hmem⟩ := hrun.exists_level
  obtain ⟨parent', t, ts, hsite⟩ := exists_site h (mem_beneath h (hmem r hr)).1
  rw [hrun.successor?_eq h hq hr] at hm
  exact hsite.lt_of_isAbove h hri hm

end Story

namespace Position

theorem From.mono {m n : Nat} {x : Position} (h : x.From n) (hmn : m ≤ n) : x.From m := by
  cases x with
  | line => exact Nat.le_trans hmn h
  | choice options source =>
    cases source with
    | menu => exact fun id hid => Nat.le_trans hmn (h id hid)
    | group => exact fun id hid => Nat.le_trans hmn (h id hid)
  | done => trivial

/-- What comes next lies beneath `q`, or nothing numbered below `m` is still to come. -/
def Inside (s : Story) (q m : Nat) : Position → Prop
  | .line node chosen => s.tree.IsAbove q node ∨ (line node chosen).From m
  | .choice options source =>
    (∀ id ∈ options, s.tree.IsAbove q id) ∨ (choice options source).From m
  | .done => True

variable {s : Story} {q m : Nat}

theorem inside_of_from {x : Position} (h : x.From m) : x.Inside s q m := by
  cases x with
  | line => exact .inr h
  | choice => exact .inr h
  | done => trivial

theorem inside_before {target : Option Nat} (h : ∀ i ∈ target, s.tree.IsAbove q i ∨ m ≤ i) :
    (before target).Inside s q m := by
  cases target with
  | none => trivial
  | some i => exact h i rfl

end Position

namespace Story

variable {o : Outline} {s : Story} {q m node : Nat}

/-- What lies beneath a node beneath `q` does so too; and what follows it does, or follows `q`. -/
theorem inside_entry (h : build o = .ok s) (hm : ∀ i ∈ s.successor? q, m ≤ i)
    (hq : s.tree.IsAbove q node) :
    (s.entry (some node) (s.tree.children node)).Inside s q m := by
  apply Position.inside_before
  intro i hi
  rcases Option.or_eq_some_iff.mp hi with hchild | ⟨-, hnext⟩
  · exact .inl (hq.trans_parent? (parent?_of_mem_children h (List.mem_of_mem_head? hchild)))
  · exact (isAbove_or_mem_successor? h hq hnext).imp_right (hm i)

theorem inside_after (h : build o = .ok s) (hm : ∀ i ∈ s.successor? q, m ≤ i)
    (hq : s.tree.IsAbove q node) (chosen : Bool) : (s.after node chosen).Inside s q m := by
  by_cases hc : chosen = true ∨ s.isChoice node = false
  · rw [after_eq hc]
    split
    next => exact .inl fun id hid => hq.trans_parent? (parent?_of_mem_children h hid)
    next => exact inside_entry h hm hq
  · simp only [not_or, Bool.not_eq_true, Bool.not_eq_false] at hc
    obtain ⟨rfl, hchoice⟩ := hc
    rw [after_of_isChoice hchoice]
    refine .inl fun id hid => ?_
    rcases List.mem_cons.mp hid with rfl | hid
    · exact hq
    · exact hq.sibling (parent?_of_mem_following h ((List.takeWhile_sublist _).subset hid))

theorem inside_afterChoice (h : build o = .ok s) (hm : ∀ i ∈ s.successor? q, m ≤ i)
    (hq : s.tree.IsAbove q node) (source : ChoiceSource) :
    (s.afterChoice node source).Inside s q m := by
  cases source with
  | menu => exact .inl hq
  | group =>
    rw [afterChoice_group]
    exact inside_entry h hm hq

end Story

namespace Playthrough

variable {o : Outline} {s : Story} {p : Playthrough} {run : List Nat} {i q r m : Nat}

theorem position_of_visit? {c : Call} (h : i ∈ p.visit? s c) :
    ∃ chosen, p.position = .line i chosen := by
  rw [visit?] at h
  split at h
  next hline =>
    cases h
    exact ⟨_, hline⟩
  next => cases h

/-- A call without a jump stays beneath `q` until it leads behind. -/
theorem inside_call (h : Story.build o = .ok s) (hm : ∀ i ∈ s.successor? q, m ≤ i)
    (hp : p.position.Sound s) (hin : p.position.Inside s q m) {c : Call}
    (hc : ∀ name, c ≠ .goto name) :
    (∀ i ∈ p.visit? s c, s.tree.IsAbove q i ∨ m ≤ i) ∧ (p.call s c).2.position.Inside s q m := by
  constructor
  · intro i hi
    obtain ⟨chosen, hline⟩ := position_of_visit? hi
    rw [hline] at hin
    exact hin
  · by_cases hfrom : p.position.From m
    · rcases from_call h hp hfrom hc with ⟨-, hfrom'⟩ | ⟨i, -, hle, hfrom'⟩
      · exact Position.inside_of_from hfrom'
      · exact Position.inside_of_from (hfrom'.mono (Nat.le_succ_of_le hle))
    · have hout := p.call_outcome s c
      generalize p.call s c = r at hout
      cases hout with
      | refused => exact hin
      | stuck => exact hin
      | silent => exact hin
      | @spoken node chosen d hline =>
        rw [hline] at hin hfrom
        exact Story.inside_after h hm (hin.resolve_right hfrom) chosen
      | picked hchoice _ hoption =>
        rw [hchoice] at hin hfrom
        have hmem := List.mem_of_getElem? hoption
        exact Story.inside_afterChoice h hm (hin.resolve_right hfrom _ hmem) _
      | jumped => exact absurd rfl (hc _)

/-- What is given from inside lies beneath `q` or behind. -/
theorem isAbove_or_le_of_mem_visits (h : Story.build o = .ok s) (hm : ∀ i ∈ s.successor? q, m ≤ i)
    (hp : p.position.Sound s) (hin : p.position.Inside s q m) {cs : List Call}
    (hcs : ∀ name, .goto name ∉ cs) (hi : i ∈ p.visits s cs) : s.tree.IsAbove q i ∨ m ≤ i := by
  induction cs generalizing p with
  | nil => cases hi
  | cons c cs ih =>
    have hc : ∀ name, c ≠ .goto name := by
      rintro name rfl
      exact hcs name List.mem_cons_self
    have hrest : ∀ name, .goto name ∉ cs := fun name hmem => hcs name (List.mem_cons_of_mem _ hmem)
    obtain ⟨hvisit, hin'⟩ := inside_call h hm hp hin hc
    rw [visits] at hi
    rcases List.mem_append.mp hi with hi | hi
    · exact hvisit i (Option.mem_toList.mp hi)
    · exact ih (sound_call h hp c) hin' hrest hi

/-- Two nodes that do not lie beneath different ones of some alternatives. -/
def Compatible (s : Story) (run : List Nat) (i j : Nat) : Prop :=
  ∀ q ∈ run, ∀ r ∈ run, s.tree.IsAbove q i → s.tree.IsAbove r j → q = r

theorem pairwise_compatible_visits (h : Story.build o = .ok s) (hrun : s.Alternatives run)
    (hp : p.position.Sound s) {cs : List Call} (hcs : ∀ name, .goto name ∉ cs) :
    (p.visits s cs).Pairwise (Compatible s run) := by
  induction cs generalizing p with
  | nil => exact .nil
  | cons c cs ih =>
    have hrest : ∀ name, .goto name ∉ cs := fun name hmem => hcs name (List.mem_cons_of_mem _ hmem)
    have hlater := ih (sound_call h hp c) hrest
    rw [visits]
    cases hvisit : p.visit? s c with
    | none => exact hlater
    | some i =>
      refine List.pairwise_cons.mpr ⟨fun j hj q hq r hr hqi hrj => ?_, hlater⟩
      obtain ⟨chosen, hline⟩ := position_of_visit? hvisit
      have hin : p.position.Inside s q (j + 1) := by
        rw [hline]
        exact .inl hqi
      have hout : ∀ k ∈ s.successor? q, j + 1 ≤ k :=
        fun k hk => hrun.lt_of_mem_successor? h hq hr hrj hk
      have hjmem : j ∈ p.visits s (c :: cs) := by
        rw [visits, hvisit]
        exact List.mem_cons_of_mem i hj
      rcases isAbove_or_le_of_mem_visits h hout hp hin hcs hjmem with hqj | hle
      · exact hrun.eq_of_isAbove h hq hr hqj hrj
      · exact absurd hle (Nat.not_succ_le_self j)

/-- However a run got where it stands, until the next jump it gives commands beneath one at most of any
choices that stand side by side with nothing else between them. -/
theorem exclusive_of_calls (h : Story.build o = .ok s) (past cs : List Call)
    (hcs : ∀ name, .goto name ∉ cs) :
    let p := (start s).calls s past
    (p.emissions s cs).map Tick.command = (p.visits s cs).map s.command? ∧
      ∀ run, s.Alternatives run → ∀ q ∈ run, ∀ r ∈ run, ∀ i ∈ p.visits s cs, ∀ j ∈ p.visits s cs,
        s.tree.IsAbove q i → s.tree.IsAbove r j → q = r := by
  intro p
  refine ⟨p.map_command_emissions s cs, fun run hrun q hq r hr i hi j hj hqi hrj => ?_⟩
  have hp : p.position.Sound s := sound_calls h (sound_start h) past
  have hsymm : Std.Symm (Compatible s run) :=
    ⟨fun i j hij q hq r hr hqj hri => (hij r hr q hq hri hqj).symm⟩
  have hself : ∀ i ∈ p.visits s cs, Compatible s run i i :=
    fun i _ q hq r hr hqi hri => hrun.eq_of_isAbove h hq hr hqi hri
  have hall := List.Pairwise.forall_of_forall hself (pairwise_compatible_visits h hrun hp hcs)
  exact hall hi hj q hq r hr hqi hrj

theorem exclusive_of_calls_inside :
    ∃ s, Story.build (.line (.command { name := "CHOICE", text := some "a" })
        (.block (.line (.command { name := "SAY", text := some "b" }) (.line (.marker "IN")
          (.line (.command { name := "SAY", text := some "c" }) .nil)))
        (.line (.command { name := "CHOICE", text := some "x" })
          (.block (.line (.command { name := "SAY", text := some "y" }) .nil) .nil)))) = .ok s ∧
      let p := (start s).calls s [.tick, .goto "IN"]
      (∀ name, Call.goto name ∉ [.tick, .tick]) ∧ s.Alternatives [0, 3] ∧
      2 ∈ p.visits s [.tick, .tick] ∧ s.tree.IsAbove 0 2 ∧
      ∀ r ∈ [0, 3], ∀ j ∈ p.visits s [.tick, .tick], s.tree.IsAbove r j → 0 = r := by
  refine Exists.imp (fun s h => And.intro h ?_) ⟨_, rfl⟩
  have hs := Except.ok.inj h
  have hno : ∀ name, Call.goto name ∉ [.tick, .tick] := by simp
  have hrun : s.Alternatives [0, 3] := by
    rw [← hs]
    exact ⟨none, [], [], rfl, by decide⟩
  have hmem : 2 ∈ ((start s).calls s [.tick, .goto "IN"]).visits s [.tick, .tick] := by
    rw [← hs]
    exact List.mem_cons_self
  have habove : s.tree.IsAbove 0 2 := by
    rw [← hs]
    exact Arena.isAbove_of_parent? rfl
  refine ⟨hno, hrun, hmem, habove, fun r hr j hj hrj => ?_⟩
  obtain ⟨-, hexclusive⟩ := exclusive_of_calls h [.tick, .goto "IN"] _ hno
  exact hexclusive [0, 3] hrun 0 List.mem_cons_self r hr 2 hmem j hj habove hrj

end Playthrough
end BranchingDialogue
