import BranchingDialogue.Proofs.Elements
import BranchingDialogue.Proofs.Verdicts
import Mathlib.Tactic.Tauto

/-! The objections to a script, sorted by what they look at: at a command and what follows it on its
level, at the markers in the order of the text, or at a block and the marker before it. -/
namespace BranchingDialogue.Rules

section
variable {p : Policy} {os : List Objection} {x : Objection}

/-- A check fails just if it meets an objection that is denied. -/
theorem failure_judge_eq_none_iff :
    (judge p os).failure = none ↔ ∀ x ∈ os, p.severity x ≠ .deny := by
  induction os with
  | nil => simp
  | cons x os ih =>
    rw [judge, List.forall_mem_cons, ← ih]
    cases p.severity x <;> simp

theorem mem_of_failure_judge (h : (judge p os).failure = some x) : x ∈ os := by
  induction os with
  | nil => cases h
  | cons y os ih =>
    rw [judge] at h
    cases hy : p.severity y with
    | allow =>
      rw [hy] at h
      exact List.mem_cons_of_mem y (ih h)
    | warn =>
      rw [hy] at h
      exact List.mem_cons_of_mem y (ih h)
    | deny =>
      rw [hy] at h
      cases h
      exact List.mem_cons_self

/-- A check that does not fail warns of all objections that are to be warned of. -/
theorem warnings_judge (h : (judge p os).failure = none) :
    (judge p os).warnings = os.filter (p.severity · = .warn) := by
  induction os with
  | nil => rfl
  | cons x os ih =>
    rw [judge] at h ⊢
    cases hx : p.severity x with
    | allow =>
      rw [hx] at h
      simpa [hx] using ih h
    | warn =>
      rw [hx] at h
      simpa [hx] using ih h
    | deny =>
      rw [hx] at h
      cases h

end

def Trail.after (t : Trail) : Line → Trail
  | .command _ => { t with pending := none }
  | .marker name => { seen := name :: t.seen, pending := some name }
  | .comment _ => t

/-- The objections to commands, each at its place. -/
def placeObjections (declared : List String) (places : List (Command × Outline)) : List Objection :=
  places.flatMap fun place => commandObjections declared place.1 place.2.skipComments

/-- The objections to the markers among lines, whatever their nesting. -/
def trailObjections : Trail → List Line → List Objection
  | _, [] => []
  | t, .marker name :: ls => markerObjections t name ++ trailObjections (t.after (.marker name)) ls
  | t, l :: ls => trailObjections (t.after l) ls

/-- The markers of a level that a block directly follows; only the outermost level counts. -/
def headings (outermost : Bool) : Option String → List Element → List String
  | _, [] => []
  | _, .command _ :: es => headings outermost none es
  | _, .marker name :: es => headings outermost (if outermost then some name else none) es
  | previous, .block _ :: es => previous.toList ++ headings outermost none es

variable {o : Outline} {declared : List String} {outermost : Bool} {previous : Option String}
  {t : Trail} {ls ms : List Line} {x : Objection} {name : String}

theorem levelObjections_command (c : Command) (rest : Outline) :
    levelObjections declared outermost previous (.line (.command c) rest) t =
      (commandObjections declared c rest.skipComments ++
          (levelObjections declared outermost none rest (t.after (.command c))).1,
        (levelObjections declared outermost none rest (t.after (.command c))).2) := rfl

theorem levelObjections_marker (name : String) (rest : Outline) :
    levelObjections declared outermost previous (.line (.marker name) rest) t =
      (markerObjections t name ++
          (levelObjections declared outermost (if outermost then some name else none) rest
            (t.after (.marker name))).1,
        (levelObjections declared outermost (if outermost then some name else none) rest
            (t.after (.marker name))).2) := rfl

theorem levelObjections_block (inner rest : Outline) :
    levelObjections declared outermost previous (.block inner rest) t =
      ((previous.map .topLevelBlock).toList ++ (levelObjections declared false none inner t).1 ++
          (levelObjections declared outermost none rest
            (levelObjections declared false none inner t).2).1,
        (levelObjections declared outermost none rest
          (levelObjections declared false none inner t).2).2) := rfl

theorem placeObjections_cons (declared : List String) (c : Command) (rest : Outline)
    (places : List (Command × Outline)) :
    placeObjections declared ((c, rest) :: places) =
      commandObjections declared c rest.skipComments ++ placeObjections declared places := rfl

theorem placeObjections_append (declared : List String) (places more : List (Command × Outline)) :
    placeObjections declared (places ++ more) =
      placeObjections declared places ++ placeObjections declared more :=
  List.flatMap_append

theorem trailObjections_marker (t : Trail) (name : String) (ls : List Line) :
    trailObjections t (.marker name :: ls) =
      markerObjections t name ++ trailObjections (t.after (.marker name)) ls := rfl

theorem trailObjections_append (t : Trail) (ls ms : List Line) :
    trailObjections t (ls ++ ms) =
      trailObjections t ls ++ trailObjections (ls.foldl Trail.after t) ms := by
  induction ls generalizing t with
  | nil => rfl
  | cons l ls ih => cases l <;> simp [trailObjections, ih]

theorem headings_inner (es : List Element) : headings false none es = [] := by
  induction es with
  | nil => rfl
  | cons e es ih => cases e <;> simpa [headings] using ih

/-- The trail runs along the lines in order, whatever their nesting. -/
theorem snd_levelObjections (declared : List String) (outermost : Bool) (previous : Option String)
    (o : Outline) (t : Trail) :
    (levelObjections declared outermost previous o t).2 = o.lines.foldl Trail.after t := by
  induction o generalizing outermost previous t with
  | nil => rfl
  | line head rest ih =>
    cases head with
    | command c => exact ih _ _ _
    | marker name => exact ih _ _ _
    | comment text => exact ih _ _ _
  | block inner rest ihi ihr =>
    rw [levelObjections_block, Outline.lines_block, List.foldl_append, ← ihi false none]
    exact ihr _ _ _

/-- What is objected to: a command at its place, a marker in the order of the text, or a block after a
marker. -/
theorem mem_levelObjections_iff :
    x ∈ (levelObjections declared outermost previous o t).1 ↔
      x ∈ placeObjections declared o.places ∨ x ∈ trailObjections t o.lines ∨
      x ∈ (headings outermost previous o.elements).map Objection.topLevelBlock := by
  induction o generalizing outermost previous t with
  | nil => simp [levelObjections, placeObjections, trailObjections, headings]
  | line head rest ih =>
    cases head with
    | command c =>
      rw [levelObjections_command, List.mem_append, ih, Outline.places_command, placeObjections_cons,
        List.mem_append, or_assoc]
      rfl
    | marker name =>
      rw [levelObjections_marker, List.mem_append, ih, Outline.lines_marker, trailObjections_marker,
        List.mem_append, or_left_comm, or_assoc]
      rfl
    | comment text => exact ih
  | block inner rest ihi ihr =>
    have hheading : (previous.map Objection.topLevelBlock).toList =
        previous.toList.map Objection.topLevelBlock := by
      cases previous <;> rfl
    rw [levelObjections_block, List.mem_append, List.mem_append, ihi, ihr, snd_levelObjections,
      headings_inner, hheading]
    simp only [Outline.places_block, placeObjections_append, Outline.lines_block,
      trailObjections_append, Outline.elements_block, headings, List.map_append, List.mem_append,
      List.map_nil, List.not_mem_nil, or_false]
    tauto

/-- No marker is there already just if all are new and different. -/
theorem forall_duplicateMarker_notMem_iff :
    (∀ name, .duplicateMarker name ∉ trailObjections t ls) ↔
      (Line.markersOf ls).Nodup ∧ ∀ name ∈ Line.markersOf ls, name ∉ t.seen := by
  induction ls generalizing t with
  | nil => simp [trailObjections]
  | cons l ls ih =>
    cases l with
    | command c => exact ih
    | comment text => exact ih
    | marker name =>
      have hhere : ∀ other, .duplicateMarker other ∈ markerObjections t name ↔
          other = name ∧ name ∈ t.seen := by
        intro other
        rw [markerObjections]
        cases t.pending <;> by_cases hm : name ∈ t.seen <;> simp [hm]
      rw [Line.markersOf_marker, trailObjections_marker]
      constructor
      · intro h
        obtain ⟨hnodup, hnew⟩ := ih.mp fun other hm => h other (List.mem_append_right _ hm)
        have hname : name ∉ t.seen := fun hm =>
          h name (List.mem_append_left _ ((hhere name).mpr ⟨rfl, hm⟩))
        refine ⟨List.nodup_cons.mpr ⟨fun hm => hnew name hm List.mem_cons_self, hnodup⟩, ?_⟩
        exact List.forall_mem_cons.mpr
          ⟨hname, fun other hother hm => hnew other hother (List.mem_cons_of_mem _ hm)⟩
      · rintro ⟨hnodup, hnew⟩ other hm
        obtain ⟨hname, hnodup⟩ := List.nodup_cons.mp hnodup
        rcases List.mem_append.mp hm with hm | hm
        · exact hnew name List.mem_cons_self ((hhere other).mp hm).2
        · refine ih.mpr ⟨hnodup, fun a ha hseen => ?_⟩ other hm
          rcases List.mem_cons.mp hseen with rfl | hseen
          · exact hname ha
          · exact hnew a (List.mem_cons_of_mem _ ha) hseen

/-- Two markers are found next to each other just if the lines cannot be read in order. -/
theorem exists_consecutiveMarkers_iff_addAll {l : Story.Ledger} (h : l.pending = t.pending) :
    (∃ name previous, .consecutiveMarkers name previous ∈ trailObjections t ls) ↔
      ∃ e, l.addAll ls = .error e := by
  induction ls generalizing t l with
  | nil => simp [trailObjections, Story.Ledger.addAll]
  | cons x ls ih =>
    cases x with
    | command c => exact ih rfl
    | comment text => exact ih h
    | marker name =>
      cases hp : t.pending with
      | none =>
        have hhere : ∀ other previous, .consecutiveMarkers other previous ∉ markerObjections t name := by
          intro other previous
          rw [markerObjections, hp]
          by_cases hm : name ∈ t.seen <;> simp [hm]
        rw [Story.Ledger.addAll_marker (h.trans hp), ← ih (t := t.after (.marker name)) rfl]
        simp [trailObjections_marker, hhere]
      | some previous =>
        have hhere : .consecutiveMarkers name previous ∈ markerObjections t name := by
          simp [markerObjections, hp]
        rw [Story.Ledger.addAll_marker_of_some (h.trans hp)]
        exact iff_of_true ⟨name, previous, List.mem_append_left _ hhere⟩ ⟨_, rfl⟩

/-- Two markers are found next to each other in a script just if no story can be built from it. -/
theorem exists_consecutiveMarkers_iff :
    (∃ name previous, .consecutiveMarkers name previous ∈ trailObjections {} o.lines) ↔
      ∃ e, Story.build o = .error e := by
  rw [exists_consecutiveMarkers_iff_addAll (l := {}) rfl, Story.exists_build_error_iff,
    Story.Ledger.exists_error_iff o.comment_notMem_lines]
  rfl

end BranchingDialogue.Rules
