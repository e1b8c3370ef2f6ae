import BranchingDialogue.Playthrough
import BranchingDialogue.Proofs.Forest

/-! What a run through a forest should be, told by recursion over the nested trees: which lines are
spoken, which options are offered, and how the run goes on after each pick. -/
namespace BranchingDialogue

/-- All that can come in a run. A choice goes on according to the option picked. -/
inductive Course
  | finished
  | line (c : Command) (next : Course)
  | choice {n : Nat} (options : Fin n → Command) (next : Fin n → Course)

inductive Event
  | spoken (c : Command)
  | offered (options : List Command)
  deriving DecidableEq, Repr

/-- Why a run shows no more: it is over, no pick is left for the choice offered, a step was refused,
or it was cut short. -/
inductive Ending
  | finished
  | waiting
  | refused (e : PlayError)
  | cut
  deriving DecidableEq, Repr

structure Transcript where
  events : List Event
  ending : Ending
  deriving DecidableEq, Repr

namespace Transcript

def ends (e : Ending) : Transcript := ⟨[], e⟩

def after (t : Transcript) (e : Event) : Transcript := { t with events := e :: t.events }

@[simp] theorem length_events_ends (e : Ending) : (ends e).events.length = 0 := rfl

@[simp] theorem length_events_after (t : Transcript) (e : Event) :
    (t.after e).events.length = t.events.length + 1 := rfl

end Transcript

namespace Course

/-- What is shown if the choices are answered by the picks in order. -/
def play : Course → List Nat → Transcript
  | finished, _ => .ends .finished
  | line c next, picks => (next.play picks).after (.spoken c)
  | choice options _, [] => (Transcript.ends .waiting).after (.offered (List.ofFn options))
  | choice (n := n) options next, i :: picks =>
    if h : i < n then ((next ⟨i, h⟩).play picks).after (.offered (List.ofFn options))
    else (Transcript.ends (.refused (.choiceOutOfRange (.ofNat i) n))).after
      (.offered (List.ofFn options))

/-- Whatever is picked, at most `b` lines and choices are shown. -/
def Within (b : Nat) (k : Course) : Prop := ∀ picks, (k.play picks).events.length ≤ b

theorem within_finished (b : Nat) : finished.Within b := by
  intro picks
  rw [play]
  exact Nat.zero_le b

theorem Within.mono {b d : Nat} {k : Course} (h : k.Within b) (hbd : b ≤ d) : k.Within d := by
  intro picks
  exact Nat.le_trans (h picks) hbd

theorem Within.line {b : Nat} {k : Course} (h : k.Within b) (c : Command) :
    (line c k).Within (b + 1) := by
  intro picks
  rw [play, Transcript.length_events_after]
  exact Nat.succ_le_succ (h picks)

theorem within_choice {b n : Nat} {options : Fin n → Command} {next : Fin n → Course}
    (h : ∀ i, (next i).Within b) : (choice options next).Within (b + 1) := by
  intro picks
  cases picks with
  | nil => simp [play]
  | cons i picks =>
    rw [play]
    split
    next hi => exact Nat.succ_le_succ (h ⟨i, hi⟩ picks)
    next => simp

end Course

namespace Forest

theorem size_append (ts us : Forest) : size (ts ++ us) = size ts + size us := by
  induction ts with
  | nil => simp [size]
  | cons t ts ih =>
    rw [List.cons_append, size_cons, size_cons, ih]
    omega

theorem size_le_of_sublist {ts us : Forest} (h : ts.Sublist us) : size ts ≤ size us := by
  induction h with
  | slnil => exact Nat.le_refl _
  | cons t _ ih =>
    rw [size_cons]
    omega
  | cons_cons t _ ih =>
    rw [size_cons, size_cons]
    omega

/-- A tree of a level and what comes after it are part of the level. -/
theorem size_getElem_add_size_drop_le (ts : Forest) (i : Nat) (hi : i < ts.length) :
    size ts[i].children + 1 + size (ts.drop (i + 1)) ≤ size ts := by
  have hle := size_le_of_sublist (List.drop_sublist i ts)
  rw [List.drop_eq_getElem_cons hi, size_cons] at hle
  exact hle

end Forest

namespace Tree

/-- What is left of a level after a tree: leaving a choice leaves the alternatives beside it too. -/
def beyond (t : Tree) (rest : Forest) : Forest :=
  if t.isChoice then rest.dropWhile isChoice else rest

theorem beyond_sublist (t : Tree) (rest : Forest) : (t.beyond rest).Sublist rest := by
  unfold beyond
  split
  · exact List.dropWhile_sublist _
  · exact List.Sublist.refl rest

def group (t : Tree) (rest : Forest) : Forest := t :: rest.takeWhile isChoice

theorem group_append (t : Tree) (rest : Forest) :
    t.group rest ++ rest.dropWhile isChoice = t :: rest := by
  rw [group, List.cons_append, List.takeWhile_append_dropWhile]

theorem group_sublist (t : Tree) (rest : Forest) : (t.group rest).Sublist (t :: rest) :=
  (List.takeWhile_sublist _).cons_cons t

end Tree

mutual

/-- The run through trees side by side, and on to `k`. -/
def Forest.course : Forest → Course → Course
  | [], k => k
  | t :: rest, k =>
    .line t.command <|
      if t.isChoice then
        .choice (fun i : Fin (t.group rest).length => (t.group rest)[i].command) fun i =>
          Forest.course (t.group rest)[i].children (Forest.course (rest.dropWhile Tree.isChoice) k)
      else t.body (Forest.course rest k)
termination_by ts => 2 * ts.size
decreasing_by
  · have hrest := Forest.size_le_of_sublist (List.dropWhile_sublist (l := rest) Tree.isChoice)
    rw [Forest.size_cons]
    omega
  · have hgroup := Forest.size_le_of_sublist (t.group_sublist rest)
    have hi := Forest.size_getElem_add_size_drop_le (t.group rest) i i.isLt
    simp only [Fin.getElem_fin]
    omega
  · rw [Forest.size_cons]
    omega
  · rw [Forest.size_cons]
    omega

/-- The run through what lies beneath a tree, and on to `k`. A choice at the front makes all that
lies there options. -/
def Tree.body : Tree → Course → Course
  | .node _ cs, k =>
    if cs.head?.any Tree.isChoice then
      .choice (fun i : Fin cs.length => cs[i].command) fun i =>
        .line cs[i].command (cs[i].body (Forest.course (cs[i].beyond (cs.drop (i + 1))) k))
    else Forest.course cs k
termination_by t => 2 * Forest.size t.children + 1
decreasing_by
  · have hi := Forest.size_getElem_add_size_drop_le cs i i.isLt
    have hrest := Forest.size_le_of_sublist (cs[i].beyond_sublist (cs.drop (i + 1)))
    change 2 * _ < 2 * Forest.size cs + 1
    omega
  · have hi := Forest.size_getElem_add_size_drop_le cs i i.isLt
    change 2 * _ + 1 < 2 * Forest.size cs + 1
    simp only [Fin.getElem_fin]
    omega
  · exact Nat.lt_succ_self _

end

/-- A command is shown once at most, and so is the choice that it begins or that lies beneath it. -/
theorem Forest.within_course (ts : Forest) {k : Course} {b : Nat} (h : k.Within b) :
    (ts.course k).Within (2 * ts.size + b) := by
  refine Forest.course.induct
    (fun ts k => ∀ b, k.Within b → (ts.course k).Within (2 * ts.size + b))
    (fun t k => ∀ b, k.Within b → (t.body k).Within (2 * Forest.size t.children + 1 + b))
    ?nil ?cons ?menu ?lines ts k b h
  case nil =>
    intro k b h
    rw [Forest.course]
    exact h.mono (by omega)
  case cons =>
    intro t rest k ihlater ihgroup ihrest ihbody b h
    rw [Forest.course]
    split
    · have hk := ihlater b h
      have hsize := congrArg Forest.size (t.group_append rest)
      rw [Forest.size_append] at hsize
      have hoptions : ∀ i : Fin (t.group rest).length,
          (Forest.course (t.group rest)[i].children
            (Forest.course (rest.dropWhile Tree.isChoice) k)).Within
            (2 * Forest.size (t :: rest) - 2 + b) := by
        intro i
        have hi := Forest.size_getElem_add_size_drop_le (t.group rest) i i.isLt
        refine (ihgroup i _ hk).mono ?_
        simp only [Fin.getElem_fin]
        omega
      refine ((Course.within_choice hoptions).line t.command).mono ?_
      rw [Forest.size_cons]
      omega
    · refine ((ihbody _ (ihrest b h)).line t.command).mono ?_
      rw [Forest.size_cons]
      omega
  case menu =>
    intro c cs k hm ihlater _ ihbody b h
    rw [Tree.body, if_pos hm, Tree.children_node]
    have hoptions : ∀ i : Fin cs.length,
        (Course.line cs[i].command
          (cs[i].body (Forest.course (cs[i].beyond (cs.drop (i + 1))) k))).Within
          (2 * Forest.size cs + b) := by
      intro i
      have hi := Forest.size_getElem_add_size_drop_le cs i i.isLt
      have hlater := Forest.size_le_of_sublist (cs[i].beyond_sublist (cs.drop (i + 1)))
      refine ((ihbody i _ (ihlater i b h)).line cs[i].command).mono ?_
      simp only [Fin.getElem_fin] at hlater ⊢
      omega
    exact (Course.within_choice hoptions).mono (by omega)
  case lines =>
    intro c cs k hm ihcs b h
    rw [Tree.body, if_neg hm, Tree.children_node]
    exact (ihcs b h).mono (by omega)

end BranchingDialogue
