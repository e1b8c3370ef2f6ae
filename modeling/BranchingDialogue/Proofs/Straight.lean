import BranchingDialogue.Proofs.Standing

/-! Scripts without choices are read straight through: from wherever a run stands, it gives the commands
that come there in the text, one by one, up to the last. Nesting plays no part in it. -/
namespace BranchingDialogue

namespace Arena

section
variable {α : Type}

def node? (a : Arena α) (i : Nat) : Option Nat := if i < a.size then some i else none

theorem node?_of_lt {a : Arena α} {i : Nat} (h : i < a.size) : a.node? i = some i := if_pos h

theorem node?_of_le {a : Arena α} {i : Nat} (h : a.size ≤ i) : a.node? i = none :=
  if_neg (Nat.not_lt.mpr h)

end

variable {a : Arena Command} {parent : Option Nat} {n i : Nat} {t : Tree} {ts : Forest}

/-- The first tree of a level, or what comes behind the level if it has none, is the next number. -/
theorem Laid.head?_or_node? (h : a.Laid parent n ts) :
    (Forest.ids n ts).head?.or (a.node? (n + Forest.size ts)) = a.node? n := by
  cases ts with
  | nil => rfl
  | cons t ts =>
    have hn : n < a.size := h.placed.lt_size (Nat.le_refl n) (by rw [Forest.size_cons]; omega)
    rw [node?_of_lt hn]
    rfl

/-- If the walk goes on right behind a level, it goes on right behind the first tree of it. -/
theorem Laid.next?_eq_node? {t : Tree} (h : a.Laid parent n (t :: ts))
    (hout : parent.bind a.next? = a.node? (n + Forest.size (t :: ts))) :
    a.next? n = a.node? (n + 1 + Forest.size t.children) := by
  have hsize : n + Forest.size (t :: ts) = n + 1 + Forest.size t.children + Forest.size ts := by
    rw [Forest.size_cons]
    omega
  rw [next?_eq, nextSibling?, h.following, h.parent?, hout, hsize]
  exact h.tail.head?_or_node?

theorem Laid.exists_next? (h : a.Laid parent n ts)
    (hout : parent.bind a.next? = a.node? (n + Forest.size ts)) (hl : n ≤ i)
    (hu : i < n + Forest.size ts) :
    ∃ q t us, a.Laid q i (t :: us) ∧ a.next? i = a.node? (i + 1 + Forest.size t.children) := by
  have htail : ∀ q k t us, a.Laid q k (t :: us) → q.bind a.next? = a.node? (k + Forest.size (t :: us)) →
      q.bind a.next? = a.node? (k + 1 + Forest.size t.children + Forest.size us) := by
    intro q k t us _ hnext
    rw [hnext, Forest.size_cons]
    congr 1
    omega
  obtain ⟨q, t, us, hlaid, hnext⟩ := h.descend
    (motive := fun q k us => q.bind a.next? = a.node? (k + Forest.size us))
    (fun _ _ _ _ hlaid hnext => hlaid.next?_eq_node? hnext) htail hout hl hu
  exact ⟨q, t, us, hlaid, hlaid.next?_eq_node? hnext⟩

end Arena

namespace Story

variable {o : Outline} {s : Story} {i : Nat}

theorem exists_laid_next? (h : build o = .ok s) (hi : i < s.tree.size) :
    ∃ parent t ts, s.tree.Laid parent i (t :: ts) ∧
      s.tree.next? i = s.tree.node? (i + 1 + Forest.size t.children) := by
  have hsize : 0 + Forest.size o.forest = s.tree.size := by
    rw [size_of_build h, o.size_forest, Nat.zero_add]
  refine (laid_of_build h).exists_next? ?_ (Nat.zero_le i) (by rwa [hsize])
  rw [hsize, Arena.node?_of_le (Nat.le_refl _)]
  rfl

/-- Where there is no choice above, a run goes on as a walk through the tree does. -/
theorem successor?_eq_next? (h : ∀ j ∈ s.tree.lineage i, s.isChoice j = false) :
    s.successor? i = s.tree.next? i := by
  have hsequel : ∀ j ∈ s.tree.lineage i, s.sequel? j = s.tree.nextSibling? j := by
    intro j hj
    rw [sequel?, h j hj]
    rfl
  rw [successor?, Arena.next?]
  generalize s.tree.lineage i = ids at hsequel
  induction ids with
  | nil => rfl
  | cons j ids ih =>
    rw [List.findSome?_cons, List.findSome?_cons, hsequel j List.mem_cons_self,
      ih (fun k hk => hsequel k (List.mem_cons_of_mem _ hk))]

/-- Without choices every command leads to the one after it in the text. -/
theorem after_eq_node? (h : build o = .ok s) (hno : ∀ j, s.isChoice j = false)
    (hi : i < s.tree.size) (chosen : Bool) :
    s.after i chosen = .before (s.tree.node? (i + 1)) := by
  obtain ⟨parent, t, ts, hlaid, hnext⟩ := exists_laid_next? h hi
  have hlead : ¬ (s.tree.children i).head?.any s.isChoice = true := by
    cases s.tree.children i with
    | nil => exact Bool.false_ne_true
    | cons j js => simp [hno j]
  rw [after_eq (.inr (hno i)), if_neg hlead, entry, Option.bind_some,
    successor?_eq_next? fun j _ => hno j, hnext, hlaid.children, hlaid.inner.head?_or_node?]

theorem isChoice_of_build (h : build o = .ok s) (hno : ∀ c ∈ o.commands, c.isChoice = false) (j : Nat) :
    s.isChoice j = false := by
  rw [isChoice, command?_of_build h]
  cases hc : o.commands[j]? with
  | none => rfl
  | some c => exact hno c (List.mem_of_getElem? hc)

end Story

namespace Playthrough

def answers (s : Story) : Playthrough → List Call → List (Except PlayError (Option Tick))
  | _, [] => []
  | p, c :: cs => (p.call s c).1 :: answers s (p.call s c).2 cs

/-- The run stands before the command numbered `k`, or at the end if there are no more than `k`. -/
def StandsBefore (s : Story) (p : Playthrough) (k : Nat) : Prop :=
  match s.tree.node? k with
  | some node => ∃ chosen, p.position = .line node chosen
  | none => p.AtEnd

variable {o : Outline} {s : Story} {p : Playthrough} {k : Nat}

theorem standsBefore_of_line {chosen : Bool} (h : p.position = .line k chosen) (hk : k < s.tree.size) :
    p.StandsBefore s k := by
  rw [StandsBefore, Arena.node?_of_lt hk]
  exact ⟨chosen, h⟩

theorem standsBefore_before (s : Story) (k ticks : Nat) :
    ({ position := .before (s.tree.node? k), ticks } : Playthrough).StandsBefore s k := by
  rw [StandsBefore]
  cases s.tree.node? k with
  | none => exact rfl
  | some node => exact ⟨false, rfl⟩

theorem atEnd_iff_of_standsBefore (hp : p.StandsBefore s k) : p.AtEnd ↔ s.tree.size ≤ k := by
  rcases Nat.lt_or_ge k s.tree.size with hk | hk
  · rw [StandsBefore, Arena.node?_of_lt hk] at hp
    obtain ⟨chosen, hline⟩ := hp
    rw [AtEnd, hline]
    exact iff_of_false Position.noConfusion (Nat.not_le.mpr hk)
  · rw [StandsBefore, Arena.node?_of_le hk] at hp
    exact iff_of_true hp hk

/-- A tick gives the command that comes next and leads to the one after it; behind the last it gives none
and leaves all as it is. -/
theorem call_tick_of_standsBefore (h : Story.build o = .ok s) (hno : ∀ j, s.isChoice j = false)
    (hp : p.StandsBefore s k) :
    ∃ q, p.call s .tick = (.ok (some { number := p.ticks, command := o.commands[k]? }), q) ∧
      q.StandsBefore s (k + 1) ∧ q.ticks = p.ticks + min 1 (s.tree.size - k) := by
  rw [← Story.command?_of_build h]
  rcases Nat.lt_or_ge k s.tree.size with hk | hk
  · rw [StandsBefore, Arena.node?_of_lt hk] at hp
    obtain ⟨chosen, hline⟩ := hp
    obtain ⟨c, hc⟩ := Story.exists_command?_of_lt h hk
    refine ⟨{ position := s.after k chosen, ticks := p.ticks + 1 }, ?_, ?_, ?_⟩
    · rw [hc]
      exact call_tick (tick_of_line hline hc)
    · rw [Story.after_eq_node? h hno hk]
      exact standsBefore_before s (k + 1) _
    · have hone : min 1 (s.tree.size - k) = 1 := by omega
      rw [hone]
  · have hend : p.AtEnd := (atEnd_iff_of_standsBefore hp).mpr hk
    have hnone : s.command? k = none := by
      rw [Story.command?, Arena.get?, Array.getElem?_eq_none hk]
      rfl
    refine ⟨p, ?_, ?_, by omega⟩
    · rw [hnone]
      exact call_tick (tick_of_done hend)
    · rw [StandsBefore, Arena.node?_of_le (by omega)]
      exact hend

/-- Ticks give the commands from there on in the order of the text, and then none. -/
theorem answers_of_standsBefore (h : Story.build o = .ok s) (hno : ∀ j, s.isChoice j = false)
    (hp : p.StandsBefore s k) (m : Nat) :
    p.answers s (List.replicate m .tick) =
        (List.range m).map (fun j => .ok (some
          { number := p.ticks + min j (s.tree.size - k), command := o.commands[k + j]? })) ∧
      (p.calls s (List.replicate m .tick)).StandsBefore s (k + m) ∧
      (p.calls s (List.replicate m .tick)).ticks = p.ticks + min m (s.tree.size - k) := by
  induction m generalizing p k with
  | zero => exact ⟨rfl, hp, by simp⟩
  | succ m ih =>
    obtain ⟨q, hcall, hq, hticks⟩ := call_tick_of_standsBefore h hno hp
    obtain ⟨hanswers, hstands, hall⟩ := ih hq
    rw [List.replicate_succ, answers, calls_cons, hcall]
    refine ⟨?_, ?_, ?_⟩
    · rw [hanswers, List.range_succ_eq_map, List.map_cons, List.map_map]
      congr 1
      refine List.map_congr_left fun j _ => ?_
      have hnumber : q.ticks + min j (s.tree.size - (k + 1)) =
          p.ticks + min (j + 1) (s.tree.size - k) := by omega
      have hindex : k + 1 + j = k + (j + 1) := by omega
      rw [hnumber, hindex]
      rfl
    · have hindex : k + 1 + m = k + (m + 1) := by omega
      rwa [hindex] at hstands
    · rw [hall]
      omega

theorem standsBefore_start (s : Story) (h : Story.build o = .ok s) : (start s).StandsBefore s 0 := by
  have hfirst : s.first? = s.tree.node? 0 := by
    rw [Story.first?_of_build h, Arena.node?, Story.size_of_build h]
    cases o.commands <;> rfl
  rw [start, hfirst]
  exact standsBefore_before s 0 0

/-- Without choices a run that stands before a command, whatever was called before, gives that command
and all that come after it in the text, and then it is over and further ticks give nothing. So scripts
with the same commands in the same order are the same to a reader, whatever their nesting. -/
theorem straight_of_calls (h : Story.build o = .ok s) (hno : ∀ c ∈ o.commands, c.isChoice = false) :
    (∀ past k chosen, ((start s).calls s past).position = .line k chosen →
      let p := (start s).calls s past
      let left := o.commands.length - k
      ∀ m, let q := p.calls s (List.replicate m .tick)
        p.answers s (List.replicate m .tick) =
            (List.range m).map (fun j => .ok (some
              { number := p.ticks + min j left, command := o.commands[k + j]? })) ∧
          q.ticks = p.ticks + min m left ∧ (q.AtEnd ↔ left ≤ m)) ∧
    ∀ o' s', Story.build o' = .ok s' → o'.commands = o.commands → ∀ m,
      (start s').answers s' (List.replicate m .tick) =
        (start s).answers s (List.replicate m .tick) := by
  have hstory := Story.isChoice_of_build h hno
  refine ⟨fun past k chosen hk => ?_, fun o' s' h' hsame m => ?_⟩
  · intro p left m q
    have hlt : k < s.tree.size := by
      have hsound := sound_calls h (sound_start h) past
      rw [hk] at hsound
      exact hsound
    obtain ⟨hanswers, hstands, hticks⟩ :=
      answers_of_standsBefore h hstory (standsBefore_of_line hk hlt) m
    rw [Story.size_of_build h] at hanswers hticks hlt
    refine ⟨hanswers, hticks, ?_⟩
    rw [atEnd_iff_of_standsBefore hstands, Story.size_of_build h]
    omega
  · have hstory' := Story.isChoice_of_build h' (by rwa [hsame])
    rw [(answers_of_standsBefore h hstory (standsBefore_start s h) m).1,
      (answers_of_standsBefore h' hstory' (standsBefore_start s' h') m).1,
      Story.size_of_build h, Story.size_of_build h', hsame]
    rfl

theorem straight_of_calls_nested :
    ∃ s, Story.build (.line (.command { name := "SAY", text := some "a" })
        (.block (.line (.command { name := "SAY", text := some "b" }) (.line (.marker "IN")
            (.block (.line (.comment " deeper") (.line (.command { name := "SAY", text := some "c" })
              .nil)) .nil)))
          (.line (.command { name := "SAY", text := some "d" }) .nil))) = .ok s ∧
      ((start s).calls s [.goto "IN"]).position = .line 2 false ∧
      ((start s).calls s [.goto "IN"]).answers s [.tick, .tick, .tick] =
        [.ok (some { number := 0, command := some { name := "SAY", text := some "c" } }),
          .ok (some { number := 1, command := some { name := "SAY", text := some "d" } }),
          .ok (some { number := 2, command := none })] ∧
      ∃ s', Story.build (.line (.command { name := "SAY", text := some "a" })
          (.line (.command { name := "SAY", text := some "b" })
            (.line (.command { name := "SAY", text := some "c" })
              (.line (.command { name := "SAY", text := some "d" }) .nil)))) = .ok s' ∧
        ∀ m, (start s').answers s' (List.replicate m .tick) =
          (start s).answers s (List.replicate m .tick) := by
  refine Exists.imp (fun s h => And.intro h ?_) ⟨_, rfl⟩
  obtain ⟨hread, hsame⟩ := straight_of_calls h (by decide)
  have hposition : ((start s).calls s [.goto "IN"]).position = .line 2 false := by
    cases h
    decide
  have hticks : ((start s).calls s [.goto "IN"]).ticks = 0 := by
    cases h
    decide
  obtain ⟨hanswers, -, -⟩ := hread [.goto "IN"] 2 false hposition 3
  rw [hticks] at hanswers
  refine ⟨hposition, hanswers, ?_⟩
  refine Exists.imp (fun s' h' => And.intro h' ?_) ⟨_, rfl⟩
  exact hsame _ s' h' rfl

end Playthrough
end BranchingDialogue
