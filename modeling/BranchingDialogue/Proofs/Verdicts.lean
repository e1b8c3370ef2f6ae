import BranchingDialogue.Rules.Check

/-! The verdict on a script, from all that can be said against it. What can be said does not depend on the
policy; a check stops at the first objection in the list that the policy denies. -/
namespace BranchingDialogue.Rules

/-- Objections to a command. `beneath` is what follows it on its own level, comments left out. -/
def commandObjections (declared : List String) (c : Command) (beneath : Outline) : List Objection :=
  let hasBlock := match beneath with
    | .block _ _ => true
    | _ => false
  let endsLevel := match beneath with
    | .nil | .line (.marker _) _ => true
    | _ => false
  if c.name = sayName then
    if c.text.isNone then [.sayWithoutText c] else []
  else if c.name = choiceName then
    if c.text.isNone then [.choiceWithoutText c]
    else if c.speaker.isSome then [.choiceWithSpeaker c]
    else if !hasBlock then [.choiceWithoutBlock c]
    else []
  else if c.name = gotoName then
    if c.speaker.isSome then [.gotoWithSpeaker c]
    else
      match c.text with
      | none => [.gotoWithoutTarget c]
      | some text =>
        match Command.targetOf? text with
        | none => [.gotoInvalidTarget text]
        | some target =>
          if target ∉ declared then [.gotoUnknownTarget target]
          else if !endsLevel then [.unreachableAfterGoto c]
          else []
  else if c.name = setName then
    if c.text.isNone then [.setWithoutText c] else []
  else if c.name = ifName then
    if c.text.isNone then [.ifWithoutText c] else []
  else if c.name = triggerName then
    if c.speaker.isSome then [.triggerWithSpeaker c]
    else if c.text.isNone then [.triggerWithoutText c]
    else []
  else [.unknownCommand c.name]

def markerObjections (t : Trail) (name : String) : List Objection :=
  (if name ∈ t.seen then [.duplicateMarker name] else []) ++
    (t.pending.map fun previous => .consecutiveMarkers name previous).toList

/-- The objections to the elements of one level and all beneath them, with the trail they leave.
`previous` is the marker directly before the first element, at the outermost level only. -/
def levelObjections (declared : List String) (outermost : Bool) :
    Option String → Outline → Trail → List Objection × Trail
  | _, .nil, t => ([], t)
  | previous, .line (.comment _) rest, t => levelObjections declared outermost previous rest t
  | _, .line (.command c) rest, t =>
    let (os, t) := levelObjections declared outermost none rest { t with pending := none }
    (commandObjections declared c rest.skipComments ++ os, t)
  | _, .line (.marker name) rest, t =>
    let (os, t') := levelObjections declared outermost (if outermost then some name else none) rest
      { seen := name :: t.seen, pending := some name }
    (markerObjections t name ++ os, t')
  | previous, .block inner rest, t =>
    let (os, t) := levelObjections declared false none inner t
    let (os', t) := levelObjections declared outermost none rest t
    ((previous.map .topLevelBlock).toList ++ os ++ os', t)

/-- What is wrong with the ends of a script, the first fault only. -/
def shapeObjection? (o : Outline) : Option Objection :=
  match o.skipComments with
  | .nil => some .emptyScript
  | .line (.marker name) _ =>
    if name ≠ startMarker then some (.markerBeforeStart name)
    else if (match o.lines[1]? with | some (.command _) => false | _ => true) then some .emptyStart
    else if endMarker ∉ o.markers then some .missingEnd
    else
      match o.last with
      | .line (.marker name) _ => if name = endMarker then none else some .endNotLast
      | _ => some .endNotLast
  | _ => some .missingStart

def objections (o : Outline) : List Objection :=
  match shapeObjection? o with
  | some fault => [fault]
  | none => (levelObjections o.markers true none o {}).1

/-- Goes through objections up to the first that the policy denies. -/
def judge (p : Policy) : List Objection → Verdict
  | [] => {}
  | o :: os =>
    match p.severity o with
    | .allow => judge p os
    | .warn =>
      let rest := judge p os
      { rest with warnings := o :: rest.warnings }
    | .deny => { failure := some o }

@[simp] theorem judge_nil (p : Policy) : judge p [] = {} := rfl

section
variable {p : Policy} {os more : List Objection} {x : Objection}

theorem judge_cons_of_deny (h : p.severity x = .deny) : judge p (x :: os) = { failure := some x } := by
  rw [judge, h]

theorem judge_append_of_none (h : (judge p os).failure = none) :
    judge p (os ++ more) =
      { (judge p more) with warnings := (judge p os).warnings ++ (judge p more).warnings } := by
  induction os with
  | nil => rfl
  | cons x os ih =>
    rw [judge] at h
    rw [List.cons_append, judge, judge]
    cases hx : p.severity x with
    | allow =>
      simp only [hx] at h
      exact ih h
    | warn =>
      simp only [hx] at h
      simp only [ih h, List.cons_append]
    | deny => simp [hx] at h

theorem judge_append_of_some (h : (judge p os).failure = some x) : judge p (os ++ more) = judge p os := by
  induction os with
  | nil => cases h
  | cons y os ih =>
    rw [judge] at h
    rw [List.cons_append, judge, judge]
    cases hy : p.severity y with
    | allow =>
      simp only [hy] at h
      exact ih h
    | warn =>
      simp only [hy] at h
      simp only [ih h]
    | deny => rfl

end

/-- Wrong ends are never let through, and what is said against them is not about markers side by side. -/
theorem of_shapeObjection?_eq_some {p : Policy} {o : Outline} {x : Objection}
    (h : shapeObjection? o = some x) :
    p.severity x = .deny ∧ ∀ name previous, x ≠ .consecutiveMarkers name previous := by
  rw [shapeObjection?] at h
  repeat' split at h
  all_goals cases h
  all_goals exact ⟨rfl, by simp⟩

namespace Walk

theorem bind_eq {α β : Type} (walk : Walk α) (next : α → Walk β) (w : Progress) :
    (walk >>= next) w =
      match walk w with
      | (.ok a, w) => next a w
      | (.error x, w) => (.error x, w) := rfl

/-- A walk warns of what the policy warns of among some objections, up to the first that it denies: there
the walk is stopped, and else it goes on with a trail. -/
def Objects (w : Walk Unit) (p : Policy) (os : List Objection) (t t' : Trail) : Prop :=
  ∀ given, match (judge p os).failure with
    | none => w ⟨t, given⟩ = (.ok (), ⟨t', given ++ (judge p os).warnings⟩)
    | some x => ∃ u, w ⟨t, given⟩ = (.error x, ⟨u, given ++ (judge p os).warnings⟩)

variable {p : Policy} {os more : List Objection} {t t' t'' : Trail} {w v : Walk Unit} {x : Objection}

theorem objects_pure : (pure () : Walk Unit).Objects p [] t t := by
  intro given
  simp only [judge_nil, List.append_nil]
  rfl

theorem objects_fail (h : p.severity x = .deny) : (fail x).Objects p (x :: os) t t' := by
  intro given
  simp only [judge_cons_of_deny h, List.append_nil]
  exact ⟨t, rfl⟩

theorem objects_object (x : Objection) : (object (p.severity x) x).Objects p [x] t t := by
  intro given
  rw [judge]
  cases p.severity x with
  | allow =>
    simp only [judge_nil, List.append_nil]
    rfl
  | warn => rfl
  | deny => exact ⟨t, by rw [List.append_nil]; rfl⟩

theorem objects_note {f : Progress → Progress} (h : ∀ given, f ⟨t, given⟩ = ⟨t', given⟩) :
    (note f).Objects p [] t t' := by
  intro given
  simp only [judge_nil, List.append_nil]
  rw [← h]
  rfl

theorem Objects.known {f : Progress → Walk Unit} (hf : ∀ given, (f ⟨t, given⟩).Objects p os t t') :
    (known >>= f).Objects p os t t' :=
  fun given => hf given given

/-- A walk that is stopped looks at nothing else. -/
theorem Objects.stop (hw : w.Objects p os t t') (hx : (judge p os).failure = some x) :
    (w >>= fun _ => v).Objects p os t t'' := by
  intro given
  have hw := hw given
  simp only [hx] at hw ⊢
  obtain ⟨u, hu⟩ := hw
  exact ⟨u, by rw [bind_eq, hu]⟩

/-- Walks one after the other object to what each of them objects to. -/
theorem Objects.bind (hw : w.Objects p os t t') (hv : v.Objects p more t' t'') :
    (w >>= fun _ => v).Objects p (os ++ more) t t'' := by
  cases hfailure : (judge p os).failure with
  | none =>
    intro given
    have hw := hw given
    simp only [hfailure] at hw
    have hv := hv (given ++ (judge p os).warnings)
    rw [judge_append_of_none hfailure, bind_eq, hw, ← List.append_assoc]
    exact hv
  | some x =>
    intro given
    rw [judge_append_of_some hfailure]
    exact hw.stop hfailure given

/-- A strict rule first, which nothing after it is looked at if it is broken. -/
theorem Objects.failIf {broken : Prop} [Decidable broken] (hx : p.severity x = .deny)
    (hw : ¬ broken → w.Objects p os t t') :
    (failIf broken x >>= fun _ => w).Objects p (if broken then x :: more else os) t t' := by
  rw [Walk.failIf]
  split
  next =>
    intro given
    simp only [judge_cons_of_deny hx, List.append_nil]
    exact ⟨t, rfl⟩
  next hnot => exact hw hnot

theorem objects_failIf {broken : Prop} [Decidable broken] (hx : p.severity x = .deny) :
    (Walk.failIf broken x).Objects p (if broken then [x] else []) t t := by
  rw [Walk.failIf]
  split
  · exact objects_fail hx
  · exact objects_pure

theorem objects_command (declared : List String) (c : Command) (next : Outline) :
    (command p declared c next).Objects p (commandObjections declared c next) t t := by
  unfold command commandObjections
  by_cases hsay : c.name = sayName
  · simp only [if_pos hsay]
    exact objects_failIf rfl
  by_cases hchoice : c.name = choiceName
  · simp only [if_neg hsay, if_pos hchoice]
    exact .failIf rfl fun _ => .failIf rfl fun _ => objects_failIf rfl
  by_cases hgoto : c.name = gotoName
  · simp only [if_neg hsay, if_neg hchoice, if_pos hgoto]
    refine .failIf rfl fun _ => ?_
    cases c.text with
    | none => exact objects_fail rfl
    | some text =>
      dsimp only
      cases Command.targetOf? text with
      | none => exact objects_fail rfl
      | some target =>
        refine .failIf rfl fun _ => ?_
        cases next with
        | nil => exact objects_failIf rfl
        | line head rest => cases head <;> exact objects_failIf rfl
        | block inner rest => exact objects_failIf rfl
  by_cases hset : c.name = setName
  · simp only [if_neg hsay, if_neg hchoice, if_neg hgoto, if_pos hset]
    exact objects_failIf rfl
  by_cases hif : c.name = ifName
  · simp only [if_neg hsay, if_neg hchoice, if_neg hgoto, if_neg hset, if_pos hif]
    exact objects_failIf rfl
  by_cases htrigger : c.name = triggerName
  · simp only [if_neg hsay, if_neg hchoice, if_neg hgoto, if_neg hset, if_neg hif, if_pos htrigger]
    exact .failIf rfl fun _ => objects_failIf rfl
  · simp only [if_neg hsay, if_neg hchoice, if_neg hgoto, if_neg hset, if_neg hif, if_neg htrigger]
    exact objects_object (.unknownCommand c.name)

theorem objects_marker (t : Trail) (name : String) :
    (marker name).Objects p (markerObjections t name) t
      { seen := name :: t.seen, pending := some name } := by
  have hsplit : markerObjections t name =
      if name ∈ t.seen then
        .duplicateMarker name :: (t.pending.map fun previous => .consecutiveMarkers name previous).toList
      else (t.pending.map fun previous => .consecutiveMarkers name previous).toList := by
    rw [markerObjections]
    split <;> rfl
  have hseen : (note fun w => { w with seen := name :: w.seen }).Objects p [] t
      { t with seen := name :: t.seen } := objects_note fun _ => rfl
  rw [hsplit]
  refine .known fun _ => .failIf rfl fun _ => .bind hseen (.known fun _ => ?_)
  dsimp only
  cases t.pending with
  | some previous => exact objects_fail rfl
  | none => exact objects_note fun _ => rfl

theorem objects_heading (outermost : Bool) (previous : Option String) :
    (heading p outermost previous).Objects p
      ((if outermost then previous else none).map Objection.topLevelBlock).toList t t := by
  cases outermost with
  | false => exact objects_pure
  | true =>
    cases previous with
    | none => exact objects_pure
    | some name => exact objects_object (.topLevelBlock name)

theorem objects_level (declared : List String) (outermost : Bool) (previous : Option String)
    (o : Outline) (t : Trail) :
    let found := levelObjections declared outermost (if outermost then previous else none) o t
    (level p declared outermost previous o).Objects p found.1 t found.2 := by
  induction o generalizing outermost previous t with
  | nil => exact objects_pure
  | line head rest ih =>
    cases head with
    | comment text => exact ih outermost previous t
    | command c =>
      have hpending : (note fun w => { w with pending := none }).Objects p [] t
          { t with pending := none } := objects_note fun _ => rfl
      have hrest := ih outermost none { t with pending := none }
      rw [ite_self] at hrest
      exact .bind (objects_command declared c rest.skipComments) (.bind hpending hrest)
    | marker name =>
      exact .bind (objects_marker t name) (ih outermost (some name) _)
  | block inner rest ihi ihr =>
    have hinner := ihi false none t
    have hrest := ihr outermost none (levelObjections declared false none inner t).2
    rw [ite_self] at hrest
    change Objects _ p (_ ++ _ ++ _) t _
    rw [List.append_assoc]
    exact .bind (objects_heading outermost previous) (.bind hinner hrest)

theorem objects_ends (o : Outline) : (ends o).Objects p (shapeObjection? o).toList t t := by
  have hlast : (match o.last with
      | .line (.marker name) _ => if name = endMarker then none else some Objection.endNotLast
      | _ => some .endNotLast) = if endsLate o then some .endNotLast else none := by
    rw [endsLate]
    rcases o.last with _ | ⟨_ | name | _, _⟩ | _
    case line.marker => by_cases hname : name = endMarker <;> simp [hname]
    all_goals rfl
  rw [ends, shapeObjection?]
  cases o.skipComments with
  | nil => exact objects_fail rfl
  | block inner rest => exact objects_fail rfl
  | line head rest =>
    cases head with
    | command c => exact objects_fail rfl
    | comment text => exact objects_fail rfl
    | marker name =>
      simp only [hlast, apply_ite Option.toList]
      refine .failIf rfl fun _ => .failIf rfl fun _ => .failIf rfl fun _ => objects_failIf rfl

theorem objects_script (o : Outline) : ∃ t, (script p o).Objects p (objections o) {} t := by
  have hends := objects_ends (p := p) (t := {}) o
  rw [objections]
  cases hshape : shapeObjection? o with
  | some x =>
    rw [hshape] at hends
    have hstop : judge p [x] = { failure := some x } :=
      judge_cons_of_deny (of_shapeObjection?_eq_some hshape).1
    exact ⟨{}, hends.stop (congrArg Verdict.failure hstop)⟩
  | none =>
    rw [hshape] at hends
    exact ⟨_, hends.bind (objects_level o.markers true none o {})⟩

end Walk

/-- A check passes the verdict on all that can be said against a script. -/
theorem check_eq_judge (p : Policy) (o : Outline) : check p o = judge p (objections o) := by
  obtain ⟨t, h⟩ := Walk.objects_script (p := p) o
  have h := h []
  rw [check]
  cases hfailure : (judge p (objections o)).failure with
  | none =>
    simp only [hfailure, List.nil_append] at h
    rw [h, ← hfailure]
  | some x =>
    simp only [hfailure, List.nil_append] at h
    obtain ⟨u, hu⟩ := h
    rw [hu]
    dsimp only
    rw [← hfailure]

end BranchingDialogue.Rules
