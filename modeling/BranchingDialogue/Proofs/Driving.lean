import BranchingDialogue.Proofs.Course
import BranchingDialogue.Proofs.Layout

/-! A run knows only where it stands in the tree, yet it takes the course that the recursion over the
nested trees tells: at every position the course still to come is fixed by climbing to the parents. -/
namespace BranchingDialogue

section
variable {α : Type} {p : α → Bool}

theorem getElem_takeWhile_of_lt {l : List α} {i : Nat} (hi : i < (l.takeWhile p).length)
    (hl : i < l.length) : p l[i] = true := by
  have hall : ∀ x ∈ l.takeWhile p, p x = true := List.all_eq_true.mp List.all_takeWhile
  have hmem := List.getElem_mem hi
  rw [(List.takeWhile_prefix p).getElem hi] at hmem
  exact hall _ hmem

theorem dropWhile_drop_of_le {l : List α} {i : Nat} (hi : i ≤ (l.takeWhile p).length) :
    (l.drop i).dropWhile p = l.dropWhile p := by
  induction l generalizing i with
  | nil => simp
  | cons x l ih =>
    cases i with
    | zero => rfl
    | succ i =>
      cases hx : p x with
      | false => simp [hx] at hi
      | true =>
        rw [List.takeWhile_cons_of_pos hx] at hi
        rw [List.drop_succ_cons, List.dropWhile_cons_of_pos hx]
        exact ih (Nat.le_of_succ_le_succ hi)

end

namespace Tree

variable {t : Tree} {rest : Forest}

theorem group_eq_takeWhile (ht : t.isChoice = true) (rest : Forest) :
    t.group rest = (t :: rest).takeWhile isChoice := by
  rw [group, List.takeWhile_cons_of_pos ht]

/-- An option of a group heads what is left of the level there, and beyond it the level goes on as
beyond the group. -/
theorem drop_of_group (ht : t.isChoice = true) (i : Fin (t.group rest).length) :
    (t :: rest).drop i = (t.group rest)[i] :: rest.drop i ∧
      (t.group rest)[i].isChoice = true ∧
      (t.group rest)[i].beyond (rest.drop i) = rest.dropWhile isChoice := by
  obtain ⟨i, hi⟩ := i
  have hg := group_eq_takeWhile ht rest
  have hlen : i < ((t :: rest).takeWhile isChoice).length := by
    rw [← hg]
    exact hi
  have hlt : i < (t :: rest).length :=
    Nat.lt_of_lt_of_le hlen (List.takeWhile_prefix _).length_le
  have hget : (t.group rest)[i] = (t :: rest)[i] := by
    rw [List.getElem_of_eq hg hi]
    exact (List.takeWhile_prefix _).getElem hlen
  have hdrop : (t :: rest).drop i = (t.group rest)[i] :: rest.drop i := by
    rw [List.drop_eq_getElem_cons hlt, hget, List.drop_succ_cons]
  have hchoice : (t.group rest)[i].isChoice = true := by
    rw [hget]
    exact getElem_takeWhile_of_lt hlen hlt
  refine ⟨hdrop, hchoice, ?_⟩
  calc (t.group rest)[i].beyond (rest.drop i)
      = ((t.group rest)[i] :: rest.drop i).dropWhile isChoice := by
        rw [List.dropWhile_cons_of_pos hchoice]
        exact if_pos hchoice
    _ = ((t :: rest).drop i).dropWhile isChoice := by rw [hdrop]
    _ = (t :: rest).dropWhile isChoice := dropWhile_drop_of_le (Nat.le_of_lt hlen)
    _ = rest.dropWhile isChoice := List.dropWhile_cons_of_pos ht

end Tree

namespace Story

variable {s : Story} {parent : Option Nat} {n : Nat} {t : Tree} {ts : Forest}

/-- Where a level is entered: at its first line, or else at what follows the parent. -/
def entry (s : Story) (parent : Option Nat) (ids : List Nat) : Position :=
  .before (ids.head?.or (parent.bind s.successor?))

theorem successor?_eq (s : Story) (id : Nat) :
    s.successor? id = (s.sequel? id).or ((s.tree.parent? id).bind s.successor?) :=
  s.tree.findSome?_lineage s.sequel? id

theorem after_of_isChoice (h : s.isChoice n = true) :
    s.after n false = .choice (s.group n) .group := by
  rw [after, h]
  rfl

/-- Past its own choice a command leads to the menu beneath it, or into the level there. -/
theorem after_eq {chosen : Bool} (h : chosen = true ∨ s.isChoice n = false) :
    s.after n chosen =
      if (s.tree.children n).head?.any s.isChoice then .choice (s.tree.children n) .menu
      else s.entry (some n) (s.tree.children n) := by
  have hn : ¬ (s.isChoice n && !chosen) = true := by
    rcases h with h | h <;> simp [h]
  rw [after, if_neg hn]
  cases s.tree.children n with
  | nil => rfl
  | cons first others => rfl

theorem afterChoice_group (s : Story) (id : Nat) :
    s.afterChoice id .group = s.entry (some id) (s.tree.children id) := by
  rw [afterChoice]
  cases s.tree.children id <;> rfl

theorem isChoice_of_laid (h : s.tree.Laid parent n (t :: ts)) : s.isChoice n = t.isChoice := by
  rw [isChoice, command?, h.get?]
  rfl

theorem head?_ids (h : s.tree.Laid parent n ts) :
    (Forest.ids n ts).head?.any s.isChoice = ts.head?.any Tree.isChoice := by
  cases ts with
  | nil => rfl
  | cons t ts => exact isChoice_of_laid h

theorem dropWhile_ids (h : s.tree.Laid parent n ts) :
    ∃ m, (Forest.ids n ts).dropWhile s.isChoice = Forest.ids m (ts.dropWhile Tree.isChoice) ∧
      s.tree.Laid parent m (ts.dropWhile Tree.isChoice) := by
  induction ts generalizing n with
  | nil => exact ⟨n, rfl, h⟩
  | cons t ts ih =>
    rw [Forest.ids, List.dropWhile_cons, List.dropWhile_cons, isChoice_of_laid h]
    split
    · exact ih h.tail
    · exact ⟨n, rfl, h⟩

theorem length_takeWhile_ids (h : s.tree.Laid parent n ts) :
    ((Forest.ids n ts).takeWhile s.isChoice).length = (ts.takeWhile Tree.isChoice).length := by
  induction ts generalizing n with
  | nil => rfl
  | cons t ts ih =>
    rw [Forest.ids, List.takeWhile_cons, List.takeWhile_cons, isChoice_of_laid h]
    split
    · rw [List.length_cons, List.length_cons, ih h.tail]
    · rfl

/-- What follows a tree is where its level goes on beyond it. -/
theorem successor?_of_laid (h : s.tree.Laid parent n (t :: ts)) :
    ∃ m, .before (s.successor? n) = s.entry parent (Forest.ids m (t.beyond ts)) ∧
      s.tree.Laid parent m (t.beyond ts) := by
  rw [successor?_eq, h.parent?, sequel?, Arena.nextSibling?, h.following, isChoice_of_laid h,
    Tree.beyond]
  split
  · obtain ⟨m, hm, hlaid⟩ := dropWhile_ids h.tail
    rw [hm]
    exact ⟨m, rfl, hlaid⟩
  · exact ⟨_, rfl, h.tail⟩

theorem length_group (h : s.tree.Laid parent n (t :: ts)) :
    (s.group n).length = (t.group ts).length := by
  rw [group, h.following, Tree.group, List.length_cons, List.length_cons,
    length_takeWhile_ids h.tail]

theorem group_prefix_ids (h : s.tree.Laid parent n (t :: ts)) :
    s.group n <+: Forest.ids n (t :: ts) := by
  rw [group, h.following, Forest.ids]
  exact List.cons_prefix_cons.mpr ⟨rfl, List.takeWhile_prefix _⟩

/-- The options of a group are the trees of the group, each in front of what follows it. -/
theorem laid_of_group (h : s.tree.Laid parent n (t :: ts)) (ht : t.isChoice = true)
    (i : Fin (t.group ts).length) {id : Nat} (hi : (s.group n)[i.val]? = some id) :
    s.tree.Laid parent id ((t.group ts)[i] :: ts.drop i) := by
  obtain ⟨hlt, hget⟩ := List.getElem?_eq_some_iff.mp hi
  have hid := List.prefix_iff_getElem?.mp (group_prefix_ids h) i hlt
  rw [hget] at hid
  rw [← (Tree.drop_of_group ht i).1]
  exact h.drop hid

end Story

/-- The course still to come at a position. -/
inductive Course.Follows (s : Story) : Course → Position → Prop
  | finished : Follows s .finished .done
  | line {c : Command} {next : Course} {node : Nat} {chosen : Bool}
      (hc : s.command? node = some c) (hnext : Follows s next (s.after node chosen)) :
      Follows s (.line c next) (.line node chosen)
  | choice {n : Nat} {options : Fin n → Command} {next : Fin n → Course} {ids : List Nat}
      {source : ChoiceSource} (hlen : ids.length = n)
      (hc : ∀ (i : Fin n) (id : Nat), ids[i.val]? = some id → s.command? id = some (options i))
      (hnext : ∀ (i : Fin n) (id : Nat), ids[i.val]? = some id →
        Follows s (next i) (s.afterChoice id source)) :
      Follows s (.choice options next) (.choice ids source)

namespace Story

open Course (Follows)

variable {s : Story} {parent : Option Nat} {n : Nat} {t : Tree} {ts : Forest} {k : Course}

/-- What is to come after a tree is what is to come where its level goes on beyond it. -/
theorem follows_successor (h : s.tree.Laid parent n (t :: ts))
    (hk : ∀ m, s.tree.Laid parent m (t.beyond ts) →
      Follows s k (s.entry parent (Forest.ids m (t.beyond ts)))) :
    Follows s k (.before (s.successor? n)) := by
  obtain ⟨m, hm, hlaid⟩ := successor?_of_laid h
  rw [hm]
  exact hk m hlaid

/-- If a run at what follows the parent is to take the course `k`, then a run that enters the level
is to take the course of the level and go on to `k`. -/
theorem follows_course (h : s.tree.Laid parent n ts)
    (hk : Follows s k (.before (parent.bind s.successor?))) :
    Follows s (ts.course k) (s.entry parent (Forest.ids n ts)) := by
  refine Forest.course.induct
    (fun ts k => ∀ parent n, s.tree.Laid parent n ts →
      Follows s k (.before (parent.bind s.successor?)) →
      Follows s (ts.course k) (s.entry parent (Forest.ids n ts)))
    (fun t k => ∀ parent n ts chosen, s.tree.Laid parent n (t :: ts) →
      chosen = true ∨ s.isChoice n = false → Follows s k (.before (s.successor? n)) →
      Follows s (t.body k) (s.after n chosen))
    ?nil ?cons ?menu ?lines ts k parent n h hk
  case nil =>
    intro k parent n h hk
    rw [Forest.course]
    exact hk
  case cons =>
    intro t rest k ihlater ihgroup ihrest ihbody parent n h hk
    have hn := isChoice_of_laid h
    rw [Forest.course]
    apply Follows.line h.get?
    split
    next ht =>
      rw [after_of_isChoice (hn.trans ht)]
      apply Follows.choice (length_group h)
      · intro i id hi
        exact (laid_of_group h ht i hi).get?
      · intro i id hi
        have hlaid := laid_of_group h ht i hi
        have hlater : Follows s (Forest.course (rest.dropWhile Tree.isChoice) k)
            (.before (s.successor? id)) := by
          apply follows_successor hlaid
          rw [(Tree.drop_of_group ht i).2.2]
          intro m hm
          exact ihlater parent m hm hk
        rw [afterChoice_group, hlaid.children]
        exact ihgroup i (some id) (id + 1) hlaid.inner hlater
    next ht =>
      have hrest : Follows s (Forest.course rest k) (.before (s.successor? n)) := by
        apply follows_successor h
        rw [Tree.beyond, if_neg ht]
        intro m hm
        exact ihrest parent m hm hk
      exact ihbody parent n rest false h (.inr (hn.trans (Bool.eq_false_iff.mpr ht))) hrest
  case menu =>
    intro c cs k hm ihlater _ ihbody parent n ts chosen h hn hk
    have hcs : s.tree.Laid (some n) (n + 1) cs := h.inner
    rw [Tree.body, if_pos hm, after_eq hn, h.children, Tree.children_node, head?_ids hcs, if_pos hm]
    apply Follows.choice (Forest.length_ids _ cs)
    · intro i id hi
      exact (hcs.getElem hi i.isLt).get?
    · intro i id hi
      have hlaid := hcs.getElem hi i.isLt
      have hlater : Follows s (Forest.course (cs[i].beyond (cs.drop (i + 1))) k)
          (.before (s.successor? id)) := by
        apply follows_successor hlaid
        intro m hm
        exact ihlater i (some n) m hm hk
      apply Follows.line hlaid.get?
      exact ihbody i (some n) id (cs.drop (i + 1)) true hlaid (.inl rfl) hlater
  case lines =>
    intro c cs k hm ihcs parent n ts chosen h hn hk
    have hcs : s.tree.Laid (some n) (n + 1) cs := h.inner
    rw [Tree.body, if_neg hm, after_eq hn, h.children, Tree.children_node, head?_ids hcs, if_neg hm]
    exact ihcs (some n) (n + 1) hcs hk

end Story

namespace Playthrough

/-- The run with its choices answered by the picks in order: an option is chosen whenever a choice is
pending, and else the run ticks. It is cut short after a number of steps. -/
def drive (s : Story) : Nat → List Nat → Playthrough → Transcript
  | 0, _, _ => .ends .cut
  | steps + 1, picks, p =>
    if p.isFinished then .ends .finished
    else
      match p.pending? s with
      | some options =>
        match picks with
        | [] => (Transcript.ends .waiting).after (.offered options)
        | i :: picks =>
          match p.choose s (.ofNat i) with
          | .error e => (Transcript.ends (.refused e)).after (.offered options)
          | .ok q => (drive s steps picks q).after (.offered options)
      | none =>
        match p.tick s with
        | .error e => .ends (.refused e)
        | .ok (t, q) =>
          match t.command with
          | none => drive s steps picks q
          | some c => (drive s steps picks q).after (.spoken c)

section
variable {s : Story} {p : Playthrough} {steps : Nat}

theorem drive_of_done (h : p.position = .done) (picks : List Nat) :
    p.drive s (steps + 1) picks = .ends .finished := by
  simp [drive, isFinished, h]

theorem drive_of_line {node : Nat} {chosen : Bool} {c : Command}
    (h : p.position = .line node chosen) (hc : s.command? node = some c) (picks : List Nat) :
    p.drive s (steps + 1) picks =
      (drive s steps picks ⟨s.after node chosen, p.ticks + 1⟩).after (.spoken c) := by
  simp [drive, isFinished, pending?, h, tick_of_line h hc]

variable {ids : List Nat} {source : ChoiceSource} (h : p.position = .choice ids source)
include h

theorem drive_of_choice_of_nil :
    p.drive s (steps + 1) [] =
      (Transcript.ends .waiting).after (.offered (ids.filterMap s.command?)) := by
  simp [drive, isFinished, pending?, h]

theorem drive_of_choice_of_lt {i : Nat} (hi : i < ids.length) (picks : List Nat) :
    p.drive s (steps + 1) (i :: picks) =
      (drive s steps picks ⟨s.afterChoice ids[i] source, p.ticks⟩).after
        (.offered (ids.filterMap s.command?)) := by
  have hpick := choose_of_choice (s := s) h (Number.toNat?_ofNat i) (List.getElem?_eq_getElem hi)
  simp [drive, isFinished, pending?, h, hpick]

theorem drive_of_choice_of_le {i : Nat} (hi : ids.length ≤ i) (picks : List Nat) :
    p.drive s (steps + 1) (i :: picks) =
      (Transcript.ends (.refused (.choiceOutOfRange (.ofNat i) ids.length))).after
        (.offered (ids.filterMap s.command?)) := by
  have hnone : (Number.ofNat i).toNat?.bind (ids[·]?) = none := by simp [hi]
  simp [drive, isFinished, pending?, h, choose_of_out_of_range (s := s) h hnone]

end
end Playthrough

theorem Story.filterMap_command? {s : Story} {n : Nat} {options : Fin n → Command} {ids : List Nat}
    (hlen : ids.length = n)
    (hc : ∀ (i : Fin n) (id : Nat), ids[i.val]? = some id → s.command? id = some (options i)) :
    ids.filterMap s.command? = List.ofFn options := by
  have hmap : ids.map s.command? = (List.ofFn options).map some := by
    apply List.ext_getElem
    · simp [hlen]
    · intro i hi _
      rw [List.length_map] at hi
      have hget := hc ⟨i, hlen ▸ hi⟩ ids[i] (List.getElem?_eq_getElem hi)
      simpa using hget
  calc ids.filterMap s.command?
      = (ids.map s.command?).filterMap id := by
        rw [List.filterMap_map]
        rfl
    _ = ((List.ofFn options).map some).filterMap id := by rw [hmap]
    _ = List.ofFn options := by
        rw [List.filterMap_map]
        exact List.filterMap_some

namespace Playthrough

/-- A run at a position shows the course still to come there. -/
theorem drive_of_follows {s : Story} {p : Playthrough} {k : Course}
    (h : k.Follows s p.position) (picks : List Nat) {steps : Nat}
    (hsteps : (k.play picks).events.length < steps) : p.drive s steps picks = k.play picks := by
  generalize hx : p.position = x at h
  induction h generalizing p picks steps with
  | finished =>
    obtain ⟨left, rfl⟩ := Nat.exists_eq_add_one.mpr (Nat.zero_lt_of_lt hsteps)
    exact drive_of_done hx picks
  | line hc _ ih =>
    obtain ⟨left, rfl⟩ := Nat.exists_eq_add_one.mpr (Nat.zero_lt_of_lt hsteps)
    rw [Course.play, Transcript.length_events_after] at hsteps
    rw [drive_of_line hx hc, Course.play]
    congr 1
    exact ih picks (Nat.lt_of_succ_lt_succ hsteps) rfl
  | @choice n options next ids source hlen hc _ ih =>
    obtain ⟨left, rfl⟩ := Nat.exists_eq_add_one.mpr (Nat.zero_lt_of_lt hsteps)
    have hoptions := Story.filterMap_command? hlen hc
    cases picks with
    | nil => rw [drive_of_choice_of_nil hx, hoptions, Course.play]
    | cons i picks =>
      by_cases hi : i < ids.length
      · have hn : i < n := hlen ▸ hi
        rw [Course.play, dif_pos hn, Transcript.length_events_after] at hsteps
        rw [drive_of_choice_of_lt hx hi, hoptions, Course.play, dif_pos hn]
        congr 1
        exact ih ⟨i, hn⟩ ids[i] (List.getElem?_eq_getElem hi) picks
          (Nat.lt_of_succ_lt_succ hsteps) rfl
      · rw [drive_of_choice_of_le hx (Nat.le_of_not_lt hi), hoptions, Course.play,
          dif_neg (hlen ▸ hi), hlen]

theorem follows_start {o : Outline} {s : Story} (h : Story.build o = .ok s) :
    (o.forest.course .finished).Follows s (start s).position := by
  have hlaid := Story.laid_of_build h
  have hfirst : (start s).position = s.entry none (Forest.ids 0 o.forest) := by
    rw [start, Story.first?, Arena.first?, hlaid.roots, Story.entry, Option.bind_none,
      Option.or_none]
  rw [hfirst]
  exact Story.follows_course hlaid .finished

/-- From its start to its end a run shows the course of the forest of its script, whatever is picked,
and in as many steps as that course can be long. -/
theorem drive_start_eq_play {o : Outline} {s : Story} (h : Story.build o = .ok s)
    (picks : List Nat) {steps : Nat} (hsteps : 2 * o.forest.size < steps) :
    drive s steps picks (start s) = (o.forest.course .finished).play picks := by
  have hwithin := o.forest.within_course (Course.within_finished 0) picks
  exact drive_of_follows (follows_start h) picks (Nat.lt_of_le_of_lt hwithin hsteps)

theorem drive_start_eq_play_nested : ∃ (o : Outline) (s : Story),
    o = .line (.command { name := "CHOICE", text := some "a" })
      (.block (.line (.command { name := "CHOICE", text := some "x" })
        (.line (.command { name := "SAY", text := some "y" }) .nil))
      (.line (.command { name := "CHOICE", text := some "b" })
        (.line (.command { name := "SAY", text := some "end" }) .nil))) ∧
    Story.build o = .ok s ∧ 2 * o.forest.size < 11 ∧
    ∀ picks, drive s 11 picks (start s) = (o.forest.course .finished).play picks := by
  have hsize : 2 * 5 < 11 := by decide
  exact ⟨_, _, rfl, rfl, hsize, fun picks => drive_start_eq_play rfl picks hsize⟩

end Playthrough
end BranchingDialogue
