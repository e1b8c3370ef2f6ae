import BranchingDialogue.Proofs.Standing

/-! Without jumps a run only goes forward in the text: what it gives is numbered upwards, so that it
gives nothing twice and comes to its end, whatever is picked. -/
namespace BranchingDialogue

/-- Nothing numbered below `m` is still to come, unless by a jump. The first option of a group has been
given when the group is offered. -/
def Position.From (m : Nat) : Position → Prop
  | .line node _ => m ≤ node
  | .choice options .menu => ∀ id ∈ options, m ≤ id
  | .choice options .group => ∀ id ∈ options, m ≤ id + 1
  | .done => True

namespace Position

variable {s : Story} {m : Nat}

theorem from_before {target : Option Nat} (h : ∀ i ∈ target, m ≤ i) : (before target).From m := by
  cases target with
  | none => trivial
  | some i => exact h i rfl

theorem from_zero (x : Position) : x.From 0 := by
  cases x with
  | line node chosen => exact Nat.zero_le node
  | choice options source =>
    cases source with
    | menu => exact fun id _ => Nat.zero_le id
    | group => exact fun id _ => Nat.zero_le (id + 1)
  | done => trivial

end Position

namespace Story

variable {o : Outline} {s : Story} {node m : Nat}

/-- After a command the run goes on behind it. -/
theorem from_after (h : build o = .ok s) (hn : node < s.tree.size) (chosen : Bool) :
    (s.after node chosen).From (node + 1) := by
  obtain ⟨parent, t, ts, hsite⟩ := exists_site h hn
  by_cases hc : chosen = true ∨ s.isChoice node = false
  · rw [after_eq hc]
    split
    next => exact fun id hid => (hsite.mem_children hid).1
    next =>
      apply Position.from_before
      intro i hi
      rcases Option.or_eq_some_iff.mp hi with hchild | ⟨-, hnext⟩
      · exact (hsite.mem_children (List.mem_of_mem_head? hchild)).1
      · exact hsite.lt_successor? hnext
  · simp only [not_or, Bool.not_eq_true, Bool.not_eq_false] at hc
    obtain ⟨rfl, hchoice⟩ := hc
    rw [after_of_isChoice hchoice]
    intro id hid
    rcases List.mem_cons.mp hid with rfl | hid
    · exact Nat.le_refl _
    · have hmem := (List.takeWhile_sublist _).subset hid
      rw [hsite.laid.following] at hmem
      have hrange := Forest.mem_ids hmem
      omega

/-- A pick does not lead back. -/
theorem from_afterChoice (h : build o = .ok s) {options : List Nat} {source : ChoiceSource}
    (hfrom : (Position.choice options source).From m) (hmem : node ∈ options)
    (hn : node < s.tree.size) : (s.afterChoice node source).From m := by
  cases source with
  | menu => exact hfrom node hmem
  | group =>
    obtain ⟨parent, t, ts, hsite⟩ := exists_site h hn
    have hle : m ≤ node + 1 := hfrom node hmem
    rw [afterChoice_group]
    apply Position.from_before
    intro i hi
    rcases Option.or_eq_some_iff.mp hi with hchild | ⟨-, hnext⟩
    · have hlt := (hsite.mem_children (List.mem_of_mem_head? hchild)).1
      omega
    · have hlt := hsite.lt_successor? hnext
      omega

/-- Options are never at the very front: what offers them has been given. -/
theorem from_one_of_offers (h : build o = .ok s) {options : List Nat} {source : ChoiceSource}
    (hoffers : s.Offers options source) : (Position.choice options source).From 1 := by
  cases source with
  | group => exact fun id _ => Nat.le_add_left 1 id
  | menu =>
    obtain ⟨p, rfl, -⟩ := hoffers
    intro id hid
    have hbeneath : id ∈ s.tree.beneath (some p) := hid
    exact Nat.zero_lt_of_lt ((mem_beneath h hbeneath).2 p rfl)

theorem afterChoice_ne_choice (s : Story) (option : Nat) (source : ChoiceSource)
    (options : List Nat) (source' : ChoiceSource) :
    s.afterChoice option source ≠ .choice options source' := by
  cases source with
  | menu => exact Position.noConfusion
  | group =>
    rw [afterChoice_group, entry]
    cases ((s.tree.children option).head?.or ((some option).bind s.successor?)) <;>
      exact Position.noConfusion

end Story

namespace Playthrough

variable {o : Outline} {s : Story} {p : Playthrough} {m : Nat}

/-- A call without a jump gives nothing and does not lead back, or gives a command and leads on. -/
theorem from_call (h : Story.build o = .ok s) (hp : p.position.Sound s) (hfrom : p.position.From m)
    {c : Call} (hc : ∀ name, c ≠ .goto name) :
    (p.visit? s c = none ∧ (p.call s c).2.position.From m) ∨
      ∃ i, p.visit? s c = some i ∧ m ≤ i ∧ (p.call s c).2.position.From (i + 1) := by
  have hout := p.call_outcome s c
  rw [visit?, emission?]
  generalize p.call s c = r at hout
  cases hout with
  | refused => exact .inl ⟨rfl, hfrom⟩
  | stuck => exact .inl ⟨rfl, hfrom⟩
  | silent => exact .inl ⟨by simp, hfrom⟩
  | @spoken node chosen d hline hd =>
    rw [hline] at hp hfrom
    exact .inr ⟨node, by simp [hline], hfrom, Story.from_after h hp chosen⟩
  | picked hchoice _ hoption =>
    rw [hchoice] at hp hfrom
    have hmem := List.mem_of_getElem? hoption
    exact .inl ⟨rfl, Story.from_afterChoice h hfrom hmem (hp.2.1 _ hmem)⟩
  | jumped => exact absurd rfl (hc _)

/-- Without jumps commands are given in the order of the text, none twice. -/
theorem pairwise_visits (h : Story.build o = .ok s) (hp : p.position.Sound s)
    (hfrom : p.position.From m) {cs : List Call} (hcs : ∀ name, .goto name ∉ cs) :
    (p.visits s cs).Pairwise (· < ·) ∧ ∀ i ∈ p.visits s cs, m ≤ i := by
  induction cs generalizing p m with
  | nil => exact ⟨.nil, by simp [visits]⟩
  | cons c cs ih =>
    have hc : ∀ name, c ≠ .goto name := by
      rintro name rfl
      exact hcs name List.mem_cons_self
    have hrest : ∀ name, .goto name ∉ cs := fun name hm => hcs name (List.mem_cons_of_mem _ hm)
    have hp' := sound_call h hp c
    rw [visits]
    rcases from_call h hp hfrom hc with ⟨hnone, hfrom'⟩ | ⟨i, hsome, hle, hfrom'⟩
    · rw [hnone]
      exact ih hp' hfrom' hrest
    · obtain ⟨hpair, hlater⟩ := ih hp' hfrom' hrest
      rw [hsome]
      refine ⟨List.pairwise_cons.mpr ⟨fun j hj => hlater j hj, hpair⟩, fun j hj => ?_⟩
      rcases List.mem_cons.mp hj with rfl | hj
      · exact hle
      · have hlt := hlater j hj
        omega

/-- The run is over after so many ticks and picks at most, if every choice is answered by the number of
an option, whichever it is. -/
inductive EndsWithin (s : Story) : Nat → Nat → Playthrough → Prop
  | done {ticks picks : Nat} {p : Playthrough} (h : p.AtEnd) : EndsWithin s ticks picks p
  | tick {ticks picks : Nat} {p q : Playthrough} {t : Tick} (h : p.tick s = .ok (t, q))
      (hnext : EndsWithin s ticks picks q) : EndsWithin s (ticks + 1) picks p
  | choose {ticks picks : Nat} {p : Playthrough} {options : List Nat} (h : p.AtChoice s options)
      (haccepted : ∀ index : Number, ∀ i < options.length, index.value? = some (i : ℚ) →
        ∃ q, p.choose s index = .ok q)
      (hnext : ∀ index q, p.choose s index = .ok q → EndsWithin s ticks picks q) :
    EndsWithin s ticks (picks + 1) p

theorem EndsWithin.mono {ticks ticks' picks picks' : Nat} (h : p.EndsWithin s ticks picks)
    (ht : ticks ≤ ticks') (hc : picks ≤ picks') : p.EndsWithin s ticks' picks' := by
  induction h generalizing ticks' picks' with
  | done hend => exact .done hend
  | tick htick _ ih =>
    obtain ⟨left, rfl⟩ := Nat.exists_eq_add_one.mpr (Nat.zero_lt_of_lt ht)
    exact .tick htick (ih (Nat.le_of_succ_le_succ ht) hc)
  | choose hchoice haccepted _ ih =>
    obtain ⟨left, rfl⟩ := Nat.exists_eq_add_one.mpr (Nat.zero_lt_of_lt hc)
    exact .choose hchoice haccepted fun index q hq => ih index q hq ht (Nat.le_of_succ_le_succ hc)

/-- Past a choice that may be pending a run is at an end or before a line. -/
theorem endsWithin_of_settled (h : Story.build o = .ok s) (room : Nat)
    (hsettled : ∀ {q : Playthrough}, q.position.Sound s → q.position.From m →
      (∀ options source, q.position ≠ .choice options source) → q.EndsWithin s room room)
    (hp : p.position.Sound s) (hfrom : p.position.From m) : p.EndsWithin s room (room + 1) := by
  by_cases hpos : ∃ options source, p.position = .choice options source
  · obtain ⟨options, source, hx⟩ := hpos
    have hchoice : p.AtChoice s options := (atChoice_iff_of_sound hx hp).mpr rfl
    refine .choose hchoice (fun index i hi hvalue => ?_) (fun index q hq => ?_)
    · exact (choose_accepted_iff hp index).mpr ⟨options, hchoice, i, hi, hvalue⟩
    · obtain ⟨ids, source', i, option, hx', -, hoption, rfl⟩ := exists_of_choose_eq_ok hq
      rw [hx'] at hp hfrom
      have hmem := List.mem_of_getElem? hoption
      exact hsettled (Story.sound_afterChoice h (hp.2.1 _ hmem) source')
        (Story.from_afterChoice h hfrom hmem (hp.2.1 _ hmem))
        (Story.afterChoice_ne_choice s option source')
  · have hno : ∀ options source, p.position ≠ .choice options source :=
      fun options source hx => hpos ⟨options, source, hx⟩
    exact (hsettled hp hfrom hno).mono (Nat.le_refl _) (Nat.le_succ _)

/-- If `room` commands are still to come at most, so many ticks and picks are enough, and one pick more
for the choice that may be pending. -/
theorem endsWithin_of_from (h : Story.build o = .ok s) {room : Nat} (hp : p.position.Sound s)
    (hfrom : p.position.From m) (hroom : s.tree.size ≤ m + room)
    (hno : ∀ options source, p.position ≠ .choice options source) : p.EndsWithin s room room := by
  induction room generalizing p m with
  | zero =>
    cases hx : p.position with
    | done => exact .done hx
    | choice options source => exact absurd hx (hno options source)
    | line node chosen =>
      rw [hx] at hp hfrom
      have hlt : node < s.tree.size := hp
      have hle : m ≤ node := hfrom
      omega
  | succ room ih =>
    cases hx : p.position with
    | done => exact .done hx
    | choice options source => exact absurd hx (hno options source)
    | line node chosen =>
      rw [hx] at hp hfrom
      have hle : m ≤ node := hfrom
      obtain ⟨c, hc⟩ := Story.exists_command?_of_lt h hp
      apply EndsWithin.tick (tick_of_line hx hc)
      exact endsWithin_of_settled h room (fun hq hqfrom => ih hq hqfrom (by omega))
        (Story.sound_after h hp chosen) (Story.from_after h hp chosen)

/-- No command has to be given more than once, nor a pick be made for each more than once. -/
theorem endsWithin_size (h : Story.build o = .ok s) (hp : p.position.Sound s) :
    p.EndsWithin s s.tree.size s.tree.size := by
  by_cases hpos : ∃ options source, p.position = .choice options source
  · obtain ⟨options, source, hx⟩ := hpos
    have hsound := hp
    rw [hx] at hsound
    obtain ⟨hne, hlt, hoffers⟩ := hsound
    obtain ⟨id, ids, rfl⟩ := List.exists_cons_of_ne_nil hne
    have hpos : id < s.tree.size := hlt id List.mem_cons_self
    have hfrom : p.position.From 1 := by
      rw [hx]
      exact Story.from_one_of_offers h hoffers
    have hends := endsWithin_of_settled h (s.tree.size - 1)
      (fun hq hqfrom => endsWithin_of_from h hq hqfrom (by omega)) hp hfrom
    exact hends.mono (by omega) (by omega)
  · have hno : ∀ options source, p.position ≠ .choice options source :=
      fun options source hx => hpos ⟨options, source, hx⟩
    exact endsWithin_of_from h hp p.position.from_zero (Nat.le_of_eq (Nat.zero_add _).symm) hno

/-- However a run got where it stands, without further jumps it gives commands in the order of the text
and none twice, and it is over after at most as many ticks, and as many picks, as there are commands. -/
theorem advances_of_calls (h : Story.build o = .ok s) (past cs : List Call)
    (hcs : ∀ name, .goto name ∉ cs) :
    let p := (start s).calls s past
    (p.visits s cs).Pairwise (· < ·) ∧
      (p.emissions s cs).map Tick.command = (p.visits s cs).map (o.commands[·]?) ∧
      p.EndsWithin s o.commands.length o.commands.length := by
  intro p
  have hp : p.position.Sound s := sound_calls h (sound_start h) past
  refine ⟨(pairwise_visits h hp p.position.from_zero hcs).1, ?_, ?_⟩
  · rw [p.map_command_emissions s cs]
    exact List.map_congr_left fun i _ => Story.command?_of_build h i
  · rw [← Story.size_of_build h]
    exact endsWithin_size h hp

theorem advances_of_calls_menu :
    ∃ s, Story.build (.line (.command { name := "SAY", text := some "a" })
        (.block (.line (.command { name := "CHOICE", text := some "x" }) (.line (.marker "AGAIN")
          (.line (.command { name := "CHOICE", text := some "y" }) .nil)))
        (.line (.command { name := "SAY", text := some "b" }) .nil))) = .ok s ∧
      let p := (start s).calls s [.tick, .goto "AGAIN"]
      (∀ name, Call.goto name ∉ [.tick, .choose (.ofNat 0), .choose (.ofNat 1), .tick, .tick]) ∧
      (p.visits s [.tick, .choose (.ofNat 0), .choose (.ofNat 1), .tick, .tick]).Pairwise (· < ·) ∧
      p.EndsWithin s 4 4 := by
  refine Exists.imp (fun s h => And.intro h ?_) ⟨_, rfl⟩
  have hno : ∀ name, Call.goto name ∉
      [.tick, .choose (.ofNat 0), .choose (.ofNat 1), .tick, .tick] := by simp
  obtain ⟨hpair, -, hends⟩ := advances_of_calls h [.tick, .goto "AGAIN"] _ hno
  exact ⟨hno, hpair, hends⟩

end Playthrough
end BranchingDialogue
