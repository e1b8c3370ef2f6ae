import BranchingDialogue.Proofs.Objections
import BranchingDialogue.Proofs.Spelling
import Mathlib.Tactic.MkIffOfInductiveProp

/-! The rules of a script, said of the script as a whole. A check goes through a script once and stops at
the first objection that is denied, yet what it lets through is just what keeps all rules. -/
namespace BranchingDialogue

namespace Command

/-- The text of the command is the name of a marker, bare or between percent signs. -/
def PointsAt (c : Command) (target : String) : Prop :=
  isMarkerName target = true ∧ (c.text = some target ∨ c.text = some ("%" ++ target ++ "%"))

theorem targetOf?_eq_some_iff {text target : String} :
    targetOf? text = some target ↔
      isMarkerName target = true ∧ (text = target ∨ text = "%" ++ target ++ "%") := by
  constructor
  · intro h
    rw [targetOf?] at h
    split at h
    next hname =>
      cases h
      exact ⟨hname, .inl rfl⟩
    next =>
      obtain ⟨inner, hinner, hif⟩ := Option.bind_eq_some_iff.mp h
      obtain ⟨-, htext⟩ := Line.betweenPercents?_eq_some_iff.mp hinner
      split at hif
      next hname =>
        cases hif
        refine ⟨by simpa [isMarkerName] using hname, .inr (String.toList_inj.mp ?_)⟩
        simp [htext]
      next => cases hif
  · rintro ⟨hname, rfl | rfl⟩
    · exact if_pos hname
    · have htext : ("%" ++ target ++ "%").toList = '%' :: (target.toList ++ ['%']) := by simp
      have hnot : isName ('%' :: (target.toList ++ ['%'])) ≠ true := by
        simp [isName, show isNameChar '%' = false by decide]
      have hno : '%' ∉ target.toList := notMem_of_isName hname (by decide)
      have hinner : isName target.toList = true := hname
      rw [targetOf?, htext, if_neg hnot, Line.betweenPercents?_eq_some_iff.mpr ⟨hno, rfl⟩,
        Option.bind_some, if_pos hinner, String.ofList_toList]

theorem target?_eq_some_iff {c : Command} {target : String} :
    c.target? = some target ↔ c.PointsAt target := by
  rw [target?, PointsAt]
  cases c.text with
  | none => simp
  | some text => simp [targetOf?_eq_some_iff]

end Command

namespace Line

/-- Between any two markers stands a command. -/
def Separated (ls : List Line) : Prop :=
  ∀ before between after previous next,
    ls = before ++ .marker previous :: (between ++ .marker next :: after) →
      ∃ c, .command c ∈ between

theorem separated_iff {ls : List Line} (hls : ∀ text, Line.comment text ∉ ls) :
    Separated ls ↔ ∀ previous next, ¬ [Line.marker previous, .marker next] <:+: ls := by
  constructor
  · rintro h previous next ⟨before, after, heq⟩
    obtain ⟨c, hc⟩ := h before [] after previous next (by rw [← heq]; simp)
    cases hc
  · rintro h before between after previous next rfl
    cases between with
    | nil => exact absurd ⟨before, after, by simp⟩ (h previous next)
    | cons l between =>
      cases l with
      | command c => exact ⟨c, List.mem_cons_self⟩
      | marker name =>
        exact absurd ⟨before, between ++ .marker next :: after, by simp⟩ (h previous name)
      | comment text => exact absurd (by simp) (hls text)

end Line

namespace Rules

/-- What a command has to be like in a script with the given markers; `after` is what follows it on its
own level. -/
@[mk_iff]
structure Proper (markers : List String) (c : Command) (after : List Element) : Prop where
  text : c.name = sayName ∨ c.name = setName ∨ c.name = ifName → c.text.isSome
  choice : c.name = choiceName →
    c.text.isSome ∧ c.speaker = none ∧ ∃ inner, after.head? = some (.block inner)
  trigger : c.name = triggerName → c.text.isSome ∧ c.speaker = none
  goto : c.name = gotoName →
    c.speaker = none ∧ (∃ target ∈ markers, c.PointsAt target) ∧
      ∀ e, after.head? = some e → ∃ name, e = .marker name

/-- The rules of a script under a policy. -/
structure Kept (p : Policy) (o : Outline) : Prop where
  starts : o.elements.head? = some (.marker startMarker)
  ends : o.elements.getLast? = some (.marker endMarker)
  distinct : o.markers.Nodup
  separated : Line.Separated o.lines
  proper : ∀ c rest, (c, rest) ∈ o.places → Proper o.markers c rest.elements
  known : p.unknownCommands = .deny → ∀ c ∈ o.commands, isBuiltin c.name = true
  topLevel : p.topLevelBlock = .deny →
    ∀ name inner, ¬ [Element.marker name, .block inner] <:+: o.elements

variable {p : Policy} {o rest : Outline} {declared : List String} {c : Command}

theorem isBuiltin_iff {name : String} :
    isBuiltin name = true ↔ name = sayName ∨ name = choiceName ∨ name = gotoName ∨ name = ifName ∨
      name = setName ∨ name = triggerName := by
  simp [isBuiltin, builtinNames]

/-- All that is said against a command which every script may use is strict. What is said against
commands is not about markers. -/
theorem of_mem_commandObjections {x : Objection} {beneath : Outline}
    (hx : x ∈ commandObjections declared c beneath) :
    (isBuiltin c.name = true → p.severity x = .deny) ∧
      ∀ name previous, x ≠ .consecutiveMarkers name previous := by
  unfold commandObjections at hx
  extract_lets hasBlock endsLevel at hx
  clear_value hasBlock endsLevel
  repeat' split at hx
  case isFalse.isFalse.isFalse.isFalse.isFalse.isFalse hsay hchoice hgoto hset hif htrigger =>
    have hx := List.mem_singleton.mp hx
    refine ⟨fun hknown => ?_, by simp [hx]⟩
    have hnames := isBuiltin_iff.mp hknown
    tauto
  all_goals simp only [List.mem_singleton, List.not_mem_nil] at hx
  all_goals subst hx
  all_goals exact ⟨fun _ => rfl, by simp⟩

theorem commandObjections_of_unknown (hknown : isBuiltin c.name ≠ true) (beneath : Outline) :
    commandObjections declared c beneath = [.unknownCommand c.name] := by
  simp only [ne_eq, isBuiltin_iff, not_or] at hknown
  obtain ⟨hsay, hchoice, hgoto, hif, hset, htrigger⟩ := hknown
  simp only [commandObjections, if_neg hsay, if_neg hchoice, if_neg hgoto, if_neg hif, if_neg hset,
    if_neg htrigger]

theorem commandObjections_eq_nil_of_choice_iff (hname : c.name = choiceName) :
    commandObjections declared c rest.skipComments = [] ↔
      c.text.isSome ∧ c.speaker = none ∧ ∃ inner, rest.elements.head? = some (.block inner) := by
  have hsay : choiceName ≠ sayName := by decide
  unfold commandObjections
  simp only [hname, if_neg hsay, if_true]
  cases c.text with
  | none => simp
  | some text =>
    cases c.speaker with
    | some speaker => simp
    | none =>
      rcases rest.skipComments_cases with
        ⟨hs, he⟩ | ⟨d, more, hs, he⟩ | ⟨name, more, hs, he, -⟩ | ⟨inner, more, hs, he⟩ <;>
      simp [hs, he]

theorem commandObjections_eq_nil_of_goto_iff (hname : c.name = gotoName) :
    commandObjections declared c rest.skipComments = [] ↔
      c.speaker = none ∧ (∃ target ∈ declared, c.PointsAt target) ∧
        ∀ e, rest.elements.head? = some e → ∃ name, e = .marker name := by
  have hsay : gotoName ≠ sayName := by decide
  have hchoice : gotoName ≠ choiceName := by decide
  simp only [← Command.target?_eq_some_iff, Command.target?]
  unfold commandObjections
  simp only [hname, if_neg hsay, if_neg hchoice, if_true]
  cases c.speaker with
  | some speaker => simp
  | none =>
    cases c.text with
    | none => simp
    | some text =>
      cases htarget : Command.targetOf? text with
      | none => simp [htarget]
      | some target =>
        by_cases hmem : target ∈ declared
        · rcases rest.skipComments_cases with
            ⟨hs, he⟩ | ⟨d, more, hs, he⟩ | ⟨name, more, hs, he, -⟩ | ⟨inner, more, hs, he⟩ <;>
          simp [hs, he, hmem, htarget]
        · simp [htarget, hmem]

/-- Nothing is said against a command that is proper. -/
theorem commandObjections_eq_nil_iff (hknown : isBuiltin c.name = true) :
    commandObjections declared c rest.skipComments = [] ↔ Proper declared c rest.elements := by
  rw [proper_iff]
  rcases isBuiltin_iff.mp hknown with hname | hname | hname | hname | hname | hname
  · cases htext : c.text <;>
    simp [commandObjections, hname, htext, sayName, choiceName, gotoName, triggerName]
  · rw [commandObjections_eq_nil_of_choice_iff hname]
    simp [hname, sayName, choiceName, gotoName, ifName, setName, triggerName]
  · rw [commandObjections_eq_nil_of_goto_iff hname]
    simp [hname, sayName, choiceName, gotoName, ifName, setName, triggerName]
  · cases htext : c.text <;>
    simp [commandObjections, hname, htext, sayName, choiceName, gotoName, ifName, setName, triggerName]
  · cases htext : c.text <;>
    simp [commandObjections, hname, htext, sayName, choiceName, gotoName, ifName, setName, triggerName]
  · cases htext : c.text <;> cases hspeaker : c.speaker <;>
    simp [commandObjections, hname, htext, hspeaker, sayName, choiceName, gotoName, ifName, setName,
      triggerName]

theorem proper_of_unknown (hknown : isBuiltin c.name ≠ true) (after : List Element) :
    Proper declared c after := by
  simp only [ne_eq, isBuiltin_iff, not_or] at hknown
  obtain ⟨hsay, hchoice, hgoto, hif, hset, htrigger⟩ := hknown
  exact { text := fun h => absurd h (by simp [hsay, hset, hif])
          choice := fun h => absurd h hchoice
          trigger := fun h => absurd h htrigger
          goto := fun h => absurd h hgoto }

/-- A command that nothing strict is said against is proper, and known unless the policy lets others
through. -/
theorem forall_commandObjections_iff :
    (∀ x ∈ commandObjections declared c rest.skipComments, p.severity x ≠ .deny) ↔
      Proper declared c rest.elements ∧ (p.unknownCommands = .deny → isBuiltin c.name = true) := by
  by_cases hknown : isBuiltin c.name = true
  · have hstrict : (∀ x ∈ commandObjections declared c rest.skipComments, p.severity x ≠ .deny) ↔
        commandObjections declared c rest.skipComments = [] := by
      refine ⟨fun h => List.eq_nil_iff_forall_not_mem.mpr fun x hx => ?_, fun h => by simp [h]⟩
      exact h x hx ((of_mem_commandObjections hx).1 hknown)
    rw [hstrict, commandObjections_eq_nil_iff hknown]
    exact ⟨fun h => ⟨h, fun _ => hknown⟩, fun h => h.1⟩
  · rw [commandObjections_of_unknown hknown, List.forall_mem_singleton]
    exact ⟨fun h => ⟨proper_of_unknown hknown _, fun hdeny => absurd hdeny h⟩,
      fun h hdeny => hknown (h.2 hdeny)⟩

/-- Blocks directly after a marker are what is found there. -/
theorem headings_eq_nil_iff {previous : Option String} {es : List Element} :
    headings true previous es = [] ↔
      ∀ name inner, ¬ [Element.marker name, .block inner] <:+:
        (previous.map Element.marker).toList ++ es := by
  induction es generalizing previous with
  | nil =>
    cases previous <;> simp [headings, List.infix_cons_iff]
  | cons e es ih =>
    cases e with
    | command c => cases previous <;> simp [headings, List.infix_cons_iff, ih]
    | marker name => cases previous <;> simp [headings, List.infix_cons_iff, ih]
    | block inner =>
      cases previous with
      | none => simp [headings, List.infix_cons_iff, ih]
      | some name =>
        refine iff_of_false (by simp [headings]) fun h => h name inner ?_
        exact (List.prefix_append [Element.marker name, .block inner] es).isInfix

/-- A script has the right ends just if it starts and ends with their markers and a command comes next
to the first. -/
theorem shapeObjection?_eq_none_iff :
    shapeObjection? o = none ↔
      o.elements.head? = some (.marker startMarker) ∧
      o.elements.getLast? = some (.marker endMarker) ∧
      ∃ c, o.lines[1]? = some (.command c) := by
  have hdeclared : o.elements.getLast? = some (.marker endMarker) → endMarker ∈ o.markers := by
    intro h
    have hline := Outline.marker_mem_lines_of_mem_elements (List.mem_of_getLast? h)
    exact List.mem_filterMap.mpr ⟨_, hline, rfl⟩
  rw [shapeObjection?]
  rcases o.skipComments_cases with
    ⟨hs, he⟩ | ⟨c, rest, hs, he⟩ | ⟨name, rest, hs, he, -⟩ | ⟨inner, rest, hs, he⟩
  · simp [hs, he]
  · simp [hs, he]
  · rw [hs]
    have hhead : o.elements.head? = some (.marker startMarker) ↔ name = startMarker := by simp [he]
    by_cases hname : name = startMarker
    · cases hsecond : o.lines[1]? with
      | none => simp [hname]
      | some l =>
        cases l with
        | marker other => simp [hname]
        | comment text => simp [hname]
        | command c =>
          by_cases hend : endMarker ∈ o.markers
          · rw [Outline.last_eq]
            rcases hlast : o.elements.getLast? with _ | ⟨_ | last | _⟩
            case some.marker =>
              by_cases hl : last = endMarker <;> simp [hhead, hname, hend, hl, Element.alone]
            all_goals simp [hname, hend, Element.alone]
          · have hlast : o.elements.getLast? ≠ some (.marker endMarker) :=
              fun h => hend (hdeclared h)
            simp [hname, hend, hlast]
    · simp [hhead, hname]
  · simp [hs, he]

/-- Of two different markers at the ends the first does not stand alone, so if markers are kept apart a
command comes next to it. -/
theorem exists_command_of_separated (hstarts : o.elements.head? = some (.marker startMarker))
    (hends : o.elements.getLast? = some (.marker endMarker)) (hsep : Line.Separated o.lines) :
    ∃ c, o.lines[1]? = some (.command c) := by
  have hline := Outline.marker_mem_lines_of_mem_elements (List.mem_of_getLast? hends)
  rw [Line.separated_iff o.comment_notMem_lines] at hsep
  rcases o.skipComments_cases with
    ⟨hs, he⟩ | ⟨c, rest, hs, he⟩ | ⟨name, rest, hs, he, hlines⟩ | ⟨inner, rest, hs, he⟩
  · simp [he] at hstarts
  · simp [he] at hstarts
  · obtain rfl : name = startMarker := by simpa [he] using hstarts
    cases hrest : rest.lines with
    | nil => simp [hlines, hrest, startMarker, endMarker] at hline
    | cons l ls =>
      rw [hlines, hrest]
      cases l with
      | command c => exact ⟨c, rfl⟩
      | marker other =>
        refine absurd ?_ (hsep startMarker other)
        rw [hlines, hrest]
        exact (List.prefix_append [Line.marker startMarker, .marker other] ls).isInfix
      | comment text =>
        refine absurd ?_ (o.comment_notMem_lines text)
        simp [hlines, hrest]
  · simp [he] at hstarts

/-- What is said against a marker is that it is there already, or that it directly follows another. -/
theorem of_mem_trailObjections {t : Trail} {ls : List Line} {x : Objection}
    (hx : x ∈ trailObjections t ls) :
    (∃ name, x = .duplicateMarker name) ∨ ∃ name previous, x = .consecutiveMarkers name previous := by
  induction ls generalizing t with
  | nil => cases hx
  | cons l ls ih =>
    cases l with
    | command c => exact ih hx
    | comment text => exact ih hx
    | marker name =>
      rw [trailObjections_marker, List.mem_append] at hx
      rcases hx with hx | hx
      · rw [markerObjections, List.mem_append] at hx
        rcases hx with hx | hx
        · split at hx
          next => exact .inl ⟨name, List.mem_singleton.mp hx⟩
          next => cases hx
        · obtain ⟨previous, -, rfl⟩ := Option.map_eq_some_iff.mp (Option.mem_toList.mp hx)
          exact .inr ⟨name, previous, rfl⟩
      · exact ih hx

/-- Markers are let through just if all differ and commands stand between them. -/
theorem forall_trailObjections_iff :
    (∀ x ∈ trailObjections {} o.lines, p.severity x ≠ .deny) ↔
      o.markers.Nodup ∧ Line.Separated o.lines := by
  have hdistinct : (∀ name, .duplicateMarker name ∉ trailObjections {} o.lines) ↔ o.markers.Nodup := by
    rw [forall_duplicateMarker_notMem_iff, Outline.markers_eq]
    simp
  have hseparated : (∀ name previous, .consecutiveMarkers name previous ∉ trailObjections {} o.lines) ↔
      Line.Separated o.lines := by
    have hbuild := exists_consecutiveMarkers_iff.trans (Story.exists_build_error_iff o)
    rw [Line.separated_iff o.comment_notMem_lines]
    simpa using not_congr hbuild
  rw [← hdistinct, ← hseparated]
  constructor
  · exact fun h => ⟨fun name hm => h _ hm rfl, fun name previous hm => h _ hm rfl⟩
  · rintro ⟨hdistinct, hseparated⟩ x hx
    obtain ⟨name, rfl⟩ | ⟨name, previous, rfl⟩ := of_mem_trailObjections hx
    · exact absurd hx (hdistinct name)
    · exact absurd hx (hseparated name previous)

theorem forall_placeObjections_iff {places : List (Command × Outline)} :
    (∀ x ∈ placeObjections declared places, p.severity x ≠ .deny) ↔
      ∀ c rest, (c, rest) ∈ places →
        Proper declared c rest.elements ∧ (p.unknownCommands = .deny → isBuiltin c.name = true) := by
  simp only [← forall_commandObjections_iff, placeObjections, List.mem_flatMap]
  constructor
  · exact fun h c rest hplace x hx => h x ⟨(c, rest), hplace, hx⟩
  · rintro h x ⟨⟨c, rest⟩, hplace, hx⟩
    exact h c rest hplace x hx

theorem forall_headings_iff :
    (∀ x ∈ (headings true none o.elements).map Objection.topLevelBlock, p.severity x ≠ .deny) ↔
      (p.topLevelBlock = .deny →
        ∀ name inner, ¬ [Element.marker name, .block inner] <:+: o.elements) := by
  have hnone : headings true none o.elements = [] ↔
      ∀ name inner, ¬ [Element.marker name, .block inner] <:+: o.elements := headings_eq_nil_iff
  rw [← hnone, List.forall_mem_map, List.eq_nil_iff_forall_not_mem]
  exact ⟨fun h hdeny name hm => h name hm hdeny, fun h name hm hdeny => h hdeny name hm⟩

/-- A check lets through just what keeps all rules. -/
theorem failure_check_eq_none_iff : (check p o).failure = none ↔ Kept p o := by
  have hobjections : (check p o).failure = none ↔
      shapeObjection? o = none ∧
      ∀ x ∈ (levelObjections o.markers true none o {}).1, p.severity x ≠ .deny := by
    rw [check_eq_judge, failure_judge_eq_none_iff, objections]
    cases hs : shapeObjection? o with
    | none => simp
    | some x => simp [(of_shapeObjection?_eq_some hs).1]
  have hlevel : (∀ x ∈ (levelObjections o.markers true none o {}).1, p.severity x ≠ .deny) ↔
      (∀ c rest, (c, rest) ∈ o.places →
        Proper o.markers c rest.elements ∧ (p.unknownCommands = .deny → isBuiltin c.name = true)) ∧
      (o.markers.Nodup ∧ Line.Separated o.lines) ∧
      (p.topLevelBlock = .deny →
        ∀ name inner, ¬ [Element.marker name, .block inner] <:+: o.elements) := by
    rw [← forall_placeObjections_iff, ← forall_trailObjections_iff (p := p), ← forall_headings_iff]
    simp only [mem_levelObjections_iff, or_imp, forall_and]
  rw [hobjections, hlevel, shapeObjection?_eq_none_iff]
  constructor
  · rintro ⟨⟨hstarts, hends, -⟩, hplaces, ⟨hdistinct, hseparated⟩, htop⟩
    refine ⟨hstarts, hends, hdistinct, hseparated, fun c rest h => (hplaces c rest h).1, ?_, htop⟩
    intro hdeny c hc
    obtain ⟨rest, hplace⟩ := Outline.exists_place hc
    exact (hplaces c rest hplace).2 hdeny
  · rintro ⟨hstarts, hends, hdistinct, hseparated, hproper, hknown, htop⟩
    refine ⟨⟨hstarts, hends, exists_command_of_separated hstarts hends hseparated⟩, ?_,
      ⟨hdistinct, hseparated⟩, htop⟩
    intro c rest hplace
    exact ⟨hproper c rest hplace,
      fun hdeny => hknown hdeny c (Outline.mem_commands_of_mem_places hplace)⟩

end Rules
end BranchingDialogue
