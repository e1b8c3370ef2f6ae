import BranchingDialogue.Proofs.Calls
import BranchingDialogue.Proofs.Sites

/-! Where a run can stand after any calls: at the end, before a line, or at a choice between options that
stand side by side. The main statement is what a client can rely on there, whatever it did before. -/
namespace BranchingDialogue

namespace Story

/-- A group is a run of choices side by side, up to the first other sibling; a menu is all that lies
beneath a node, led by a choice. -/
def Offers (s : Story) (options : List Nat) : ChoiceSource → Prop
  | .group => ∃ parent earlier later, s.tree.beneath parent = earlier ++ options ++ later ∧
      (∀ id ∈ options, s.isChoice id = true) ∧ later.head?.any s.isChoice = false
  | .menu => ∃ node, s.tree.children node = options ∧ options.head?.any s.isChoice = true

end Story

namespace Position

/-- A position that names nodes of the story, and options that belong together. -/
def Sound (s : Story) : Position → Prop
  | .line node _ => node < s.tree.size
  | .choice options source =>
    options ≠ [] ∧ (∀ id ∈ options, id < s.tree.size) ∧ s.Offers options source
  | .done => True

theorem sound_before {s : Story} {target : Option Nat} (h : ∀ m ∈ target, m < s.tree.size) :
    (before target).Sound s := by
  cases target with
  | none => trivial
  | some m => exact h m rfl

end Position

namespace Story

variable {o : Outline} {s : Story} {node m : Nat} {name : String}

theorem lt_size_of_first? (h : build o = .ok s) (hm : m ∈ s.first?) : m < s.tree.size := by
  rw [size_of_build h]
  rw [first?_of_build h] at hm
  split at hm
  next => cases hm
  next hne =>
    cases hm
    exact List.length_pos_of_ne_nil hne

/-- A marker leads to a node of the story or to its end. -/
theorem lt_size_of_get?_markers (h : build o = .ok s) (hm : s.markers.get? name = some (some m)) :
    m < s.tree.size := by
  have hmem : name ∈ o.markers := (get?_markers_isSome_iff h).mp (by rw [hm]; rfl)
  obtain ⟨before, after, ho, hlast⟩ := o.exists_last_marker hmem
  rw [get?_markers_of_build h ho hlast] at hm
  rw [size_of_build h, o.commands_eq, ho, Line.commandsOf_append, List.length_append]
  split at hm
  next => cases hm
  next hne =>
    cases hm
    have hpos := List.length_pos_of_ne_nil hne
    rw [Line.commandsOf_cons, List.length_append]
    omega

/-- A group is a run of choices, cut out of the nodes side by side. -/
theorem offers_group {parent : Option Nat} {t : Tree} {ts : Forest}
    (h : s.Site node parent t ts) (hc : s.isChoice node = true) :
    s.Offers (s.group node) .group := by
  obtain ⟨earlier, he, -⟩ := h.laid.last
  rw [Forest.ids, ← h.laid.following] at he
  refine ⟨parent, earlier, (s.tree.following node).dropWhile s.isChoice, ?_, ?_, ?_⟩
  · rw [he, group, List.append_assoc, List.cons_append, List.takeWhile_append_dropWhile]
  · intro id hid
    rcases List.mem_cons.mp hid with rfl | hid
    · exact hc
    · exact List.all_eq_true.mp List.all_takeWhile id hid
  · have hhead := List.head?_dropWhile_not s.isChoice (s.tree.following node)
    cases hd : ((s.tree.following node).dropWhile s.isChoice).head? with
    | none => rfl
    | some id =>
      rw [hd] at hhead
      exact hhead

/-- After a command a run stands well. -/
theorem sound_after (h : build o = .ok s) (hn : node < s.tree.size) (chosen : Bool) :
    (s.after node chosen).Sound s := by
  obtain ⟨parent, t, ts, hsite⟩ := exists_site h hn
  by_cases hc : chosen = true ∨ s.isChoice node = false
  · rw [after_eq hc]
    split
    next hlead =>
      refine ⟨?_, fun id hid => (hsite.mem_children hid).2.2, node, rfl, hlead⟩
      intro hnil
      rw [hnil] at hlead
      cases hlead
    next =>
      apply Position.sound_before
      intro m hm
      rcases Option.or_eq_some_iff.mp hm with hchild | ⟨-, hnext⟩
      · exact (hsite.mem_children (List.mem_of_mem_head? hchild)).2.2
      · exact (hsite.behind m hnext).2
  · simp only [not_or, Bool.not_eq_true, Bool.not_eq_false] at hc
    obtain ⟨rfl, hchoice⟩ := hc
    have hoffers := offers_group hsite hchoice
    rw [after_of_isChoice hchoice]
    refine ⟨List.cons_ne_nil _ _, ?_, hoffers⟩
    obtain ⟨parent, earlier, later, hlevel, -⟩ := hoffers
    intro id hid
    have hbeneath : id ∈ s.tree.beneath parent := by
      rw [hlevel]
      simp [hid]
    exact (mem_beneath h hbeneath).1

/-- After a pick a run stands well. -/
theorem sound_afterChoice (h : build o = .ok s) (hn : node < s.tree.size) (source : ChoiceSource) :
    (s.afterChoice node source).Sound s := by
  obtain ⟨parent, t, ts, hsite⟩ := exists_site h hn
  cases source with
  | menu => exact hn
  | group =>
    rw [afterChoice_group]
    apply Position.sound_before
    intro m hm
    rcases Option.or_eq_some_iff.mp hm with hchild | ⟨-, hnext⟩
    · exact (hsite.mem_children (List.mem_of_mem_head? hchild)).2.2
    · exact (hsite.behind m hnext).2

end Story

namespace Playthrough

variable {o : Outline} {s : Story} {p : Playthrough}

theorem sound_start (h : Story.build o = .ok s) : (start s).position.Sound s :=
  Position.sound_before fun _ hm => Story.lt_size_of_first? h hm

/-- No call leads astray. -/
theorem sound_call (h : Story.build o = .ok s) (hp : p.position.Sound s) (c : Call) :
    (p.call s c).2.position.Sound s := by
  have hout := p.call_outcome s c
  generalize p.call s c = r at hout
  cases hout with
  | refused => exact hp
  | stuck => exact hp
  | silent => exact hp
  | spoken hline =>
    rw [hline] at hp
    exact Story.sound_after h hp _
  | picked hchoice _ hoption =>
    rw [hchoice] at hp
    exact Story.sound_afterChoice h (hp.2.1 _ (List.mem_of_getElem? hoption)) _
  | jumped htarget =>
    apply Position.sound_before
    rintro m rfl
    exact Story.lt_size_of_get?_markers h htarget

theorem sound_calls (h : Story.build o = .ok s) (hp : p.position.Sound s) (cs : List Call) :
    (p.calls s cs).position.Sound s :=
  calls_induct (motive := fun p => p.position.Sound s) (fun _ c hp => sound_call h hp c) hp cs

def AtEnd (p : Playthrough) : Prop := p.position = .done

def AtLine (s : Story) (p : Playthrough) : Prop :=
  ∃ node chosen, p.position = .line node chosen ∧ node < s.tree.size

/-- The run waits for a pick between some nodes of the story that are offered together. -/
def AtChoice (s : Story) (p : Playthrough) (options : List Nat) : Prop :=
  ∃ source, p.position = .choice options source ∧
    options ≠ [] ∧ (∀ id ∈ options, id < s.tree.size) ∧ s.Offers options source

/-- What a client can rely on at any time. -/
structure Reliable (s : Story) (p : Playthrough) : Prop where
  situation :
    (p.AtEnd ∧ (¬ ∃ options, p.AtChoice s options) ∧ ¬ p.AtLine s) ∨
    (¬ p.AtEnd ∧ (∃ options, p.AtChoice s options) ∧ ¬ p.AtLine s) ∨
    (¬ p.AtEnd ∧ (¬ ∃ options, p.AtChoice s options) ∧ p.AtLine s)
  tick_refused : ∀ e, p.tick s = .error e ↔ e = .choicePending ∧ ∃ options, p.AtChoice s options
  tick_silent : (∃ t q, p.tick s = .ok (t, q) ∧ t.command = none) ↔ p.AtEnd
  tick_spoken : (∃ t q c, p.tick s = .ok (t, q) ∧ t.command = some c) ↔ p.AtLine s
  choose_accepted : ∀ index, (∃ q, p.choose s index = .ok q) ↔
    ∃ options, p.AtChoice s options ∧ ∃ i < options.length, index.value? = some (i : ℚ)
  goto_accepted : ∀ name, (∃ q, p.goto s name = .ok q) ↔ name ∈ s.markers.names
  pending : ∀ options, p.AtChoice s options →
    ∃ cs, options.map s.command? = cs.map some ∧ p.pending? s = some cs
  refused : ∀ c e, (p.call s c).1 = .error e → (p.call s c).2 = p ∧ ∀ id, e ≠ .missingNode id

section
variable {options : List Nat} {source : ChoiceSource}

theorem atChoice_iff_of_sound (hx : p.position = .choice options source)
    (hp : p.position.Sound s) {ids : List Nat} : p.AtChoice s ids ↔ ids = options := by
  rw [hx] at hp
  constructor
  · rintro ⟨source', hx', -⟩
    rw [hx] at hx'
    cases hx'
    rfl
  · rintro rfl
    exact ⟨source, hx, hp⟩

/-- A tick is refused at a choice only, is silent at the end only, and else gives a command. -/
theorem tick_cases (h : Story.build o = .ok s) (hp : p.position.Sound s) :
    (p.AtEnd ∧ (∀ ids, ¬ p.AtChoice s ids) ∧ ¬ p.AtLine s ∧
      p.tick s = .ok ({ number := p.ticks, command := none }, p)) ∨
    (¬ p.AtEnd ∧ (∃ ids, p.AtChoice s ids) ∧ ¬ p.AtLine s ∧ p.tick s = .error .choicePending) ∨
    (¬ p.AtEnd ∧ (∀ ids, ¬ p.AtChoice s ids) ∧ p.AtLine s ∧
      ∃ q c, p.tick s = .ok ({ number := p.ticks, command := some c }, q)) := by
  cases hx : p.position with
  | done =>
    left
    refine ⟨hx, ?_, ?_, tick_of_done hx⟩ <;> simp [AtChoice, AtLine, hx]
  | choice options source =>
    right
    left
    refine ⟨?_, ⟨options, (atChoice_iff_of_sound hx hp).mpr rfl⟩, ?_, tick_of_choice hx⟩ <;>
      simp [AtEnd, AtLine, hx]
  | line node chosen =>
    right
    right
    rw [hx] at hp
    obtain ⟨c, hc⟩ := Story.exists_command?_of_lt h hp
    refine ⟨?_, ?_, ⟨node, chosen, hx, hp⟩, _, c, tick_of_line hx hc⟩ <;> simp [AtEnd, AtChoice, hx]

theorem choose_accepted_iff (hp : p.position.Sound s) (index : Number) :
    (∃ q, p.choose s index = .ok q) ↔
      ∃ options, p.AtChoice s options ∧ ∃ i < options.length, index.value? = some (i : ℚ) := by
  constructor
  · rintro ⟨q, hq⟩
    obtain ⟨options, source, i, option, hx, hi, hoption, -⟩ := exists_of_choose_eq_ok hq
    obtain ⟨hlt, -⟩ := List.getElem?_eq_some_iff.mp hoption
    exact ⟨options, (atChoice_iff_of_sound hx hp).mpr rfl, i, hlt, Number.toNat?_eq_some_iff.mp hi⟩
  · rintro ⟨options, ⟨source, hx, -⟩, i, hlt, hi⟩
    exact ⟨_, choose_of_choice hx (Number.toNat?_eq_some_iff.mpr hi) (List.getElem?_eq_getElem hlt)⟩

theorem goto_accepted_iff (s : Story) (p : Playthrough) (name : String) :
    (∃ q, p.goto s name = .ok q) ↔ name ∈ s.markers.names := by
  rw [Table.mem_names_iff]
  cases hm : s.markers.get? name with
  | none => simp [goto_of_none hm]
  | some target => simp [goto_of_some hm]

/-- The commands of the options offered are all there. -/
theorem exists_pending (h : Story.build o = .ok s) (hp : p.AtChoice s options) :
    ∃ cs, options.map s.command? = cs.map some ∧ p.pending? s = some cs := by
  obtain ⟨source, hx, -, hlt, -⟩ := hp
  have hcommands : ∃ cs : List Command, options.map s.command? = cs.map some := by
    clear hx
    induction options with
    | nil => exact ⟨[], rfl⟩
    | cons id ids ih =>
      obtain ⟨c, hc⟩ := Story.exists_command?_of_lt h (hlt id List.mem_cons_self)
      obtain ⟨cs, hcs⟩ := ih fun i hi => hlt i (List.mem_cons_of_mem _ hi)
      exact ⟨c :: cs, by rw [List.map_cons, hc, hcs, List.map_cons]⟩
  obtain ⟨cs, hcs⟩ := hcommands
  refine ⟨cs, hcs, ?_⟩
  have hfilter : options.filterMap s.command? = (options.map s.command?).filterMap id := by
    rw [List.filterMap_map]
    rfl
  simp only [pending?, hx]
  rw [hfilter, hcs, List.filterMap_map]
  exact congrArg some List.filterMap_some

theorem exists_command?_of_line (h : Story.build o = .ok s) (hp : p.position.Sound s) {node : Nat}
    {chosen : Bool} (hline : p.position = .line node chosen) : ∃ c, s.command? node = some c := by
  rw [hline] at hp
  exact Story.exists_command?_of_lt h hp

/-- A call that is refused changes nothing: no node of the story is missing. -/
theorem refused_call (h : Story.build o = .ok s) (hp : p.position.Sound s) {c : Call} {e : PlayError}
    (he : (p.call s c).1 = .error e) : (p.call s c).2 = p ∧ ∀ id, e ≠ .missingNode id := by
  rcases call_of_error he with ⟨hcall, hne⟩ | ⟨-, node, chosen, hline, hnone⟩
  · rw [hcall]
    exact ⟨rfl, hne⟩
  · obtain ⟨d, hd⟩ := exists_command?_of_line h hp hline
    rw [hd] at hnone
    cases hnone

/-- A call counts one more tick just if it gives a command, and numbers it by the ticks before. -/
theorem ticks_call (h : Story.build o = .ok s) (hp : p.position.Sound s) (c : Call) :
    (p.emission? s c).toList.map Tick.number = List.range' p.ticks (p.emission? s c).toList.length ∧
      (p.call s c).2.ticks = p.ticks + (p.emission? s c).toList.length := by
  have hout := p.call_outcome s c
  rw [emission?]
  generalize p.call s c = r at hout
  cases hout with
  | stuck hline hnone =>
    obtain ⟨d, hd⟩ := exists_command?_of_line h hp hline
    rw [hd] at hnone
    cases hnone
  | _ => simp

/-- Commands are numbered in the order in which they are given, whatever happens between them. -/
theorem ticks_calls (h : Story.build o = .ok s) (hp : p.position.Sound s) (cs : List Call) :
    (p.emissions s cs).map Tick.number = List.range' p.ticks (p.emissions s cs).length ∧
      (p.calls s cs).ticks = p.ticks + (p.emissions s cs).length := by
  induction cs generalizing p with
  | nil => exact ⟨rfl, rfl⟩
  | cons c cs ih =>
    obtain ⟨hnumber, hticks⟩ := ticks_call h hp c
    obtain ⟨hnumbers, hall⟩ := ih (sound_call h hp c)
    rw [emissions, calls_cons, List.map_append, List.length_append, hnumber, hnumbers, hall, hticks,
      List.range'_append_1]
    exact ⟨rfl, Nat.add_assoc _ _ _⟩

end

theorem reliable_of_sound (h : Story.build o = .ok s) (hp : p.position.Sound s) : p.Reliable s where
  situation := by
    rcases tick_cases h hp with ⟨hend, hno, hline, -⟩ | ⟨hend, hyes, hline, -⟩ | ⟨hend, hno, hline, -⟩
    · exact .inl ⟨hend, fun ⟨ids, hids⟩ => hno ids hids, hline⟩
    · exact .inr (.inl ⟨hend, hyes, hline⟩)
    · exact .inr (.inr ⟨hend, fun ⟨ids, hids⟩ => hno ids hids, hline⟩)
  tick_refused := by
    intro e
    rcases tick_cases h hp with ⟨-, hno, -, ht⟩ | ⟨-, hyes, -, ht⟩ | ⟨-, hno, -, q, c, ht⟩
    · simp [ht, hno]
    · simp [ht, hyes, eq_comm]
    · simp [ht, hno]
  tick_silent := by
    rcases tick_cases h hp with ⟨hend, -, -, ht⟩ | ⟨hend, -, -, ht⟩ | ⟨hend, -, -, q, c, ht⟩
    · simp [ht, hend]
    · simp [ht, hend]
    · simp [ht, hend]
  tick_spoken := by
    rcases tick_cases h hp with ⟨-, -, hline, ht⟩ | ⟨-, -, hline, ht⟩ | ⟨-, -, hline, q, c, ht⟩
    · simp [ht, hline]
    · simp [ht, hline]
    · simp [ht, hline]
  choose_accepted := choose_accepted_iff hp
  goto_accepted := goto_accepted_iff s p
  pending := fun _ hchoice => exists_pending h hchoice
  refused := fun _ _ he => refused_call h hp he

/-- Whatever a client has called, it stands in one of the three situations and can rely on what holds
there. The commands given are numbered from zero in the order in which they came, and every number that
the tree holds is that of a node. -/
theorem reliable_of_calls (h : Story.build o = .ok s) (cs : List Call) :
    ((start s).calls s cs).Reliable s ∧
      ((start s).emissions s cs).map Tick.number =
        List.range ((start s).emissions s cs).length ∧
      ((start s).calls s cs).ticks = ((start s).emissions s cs).length ∧
      ∀ parent, ∀ id ∈ s.tree.beneath parent, ∃ c, s.command? id = some c := by
  obtain ⟨hnumbers, hticks⟩ := ticks_calls h (sound_start h) cs
  have hzero : (start s).ticks = 0 := rfl
  rw [hzero, ← List.range_eq_range'] at hnumbers
  rw [hzero, Nat.zero_add] at hticks
  refine ⟨reliable_of_sound h (sound_calls h (sound_start h) cs), hnumbers, hticks, ?_⟩
  intro parent id hid
  exact Story.exists_command?_of_lt h (Story.mem_beneath h hid).1

theorem reliable_of_calls_refused :
    ∃ s, Story.build (.line (.marker "START") (.line (.command { name := "CHOICE", text := some "a" })
        (.block (.line (.command { name := "SAY", text := some "b" }) .nil)
        (.line (.command { name := "CHOICE", text := some "c" }) (.line (.marker "END") .nil))))) =
          .ok s ∧
      let cs := [.tick, .tick, .choose .nan, .choose (.finite false 1 (-1)), .choose (.ofNat 1),
        .goto "NOWHERE", .goto "START", .tick]
      ((start s).calls s cs).Reliable s ∧
        ((start s).emissions s cs).map Tick.number =
          List.range ((start s).emissions s cs).length := by
  refine Exists.imp (fun s h => And.intro h ?_) ⟨_, rfl⟩
  intro cs
  obtain ⟨hreliable, hnumbers, -⟩ := reliable_of_calls h cs
  exact ⟨hreliable, hnumbers⟩

end Playthrough
end BranchingDialogue
