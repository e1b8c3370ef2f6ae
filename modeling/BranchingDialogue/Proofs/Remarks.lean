import BranchingDialogue.Proofs.Rulebook
import BranchingDialogue.Report
import BranchingDialogue.Settings

/-! What a check warns of: all that the policy wants remarked on in a script that keeps the rules, in the
order of the text. -/
namespace BranchingDialogue
namespace Rules

variable {p : Policy} {o : Outline}

/-- What a policy wants remarked on among commands: those that not every script may use. -/
def commandRemarks (p : Policy) (cs : List Command) : List String :=
  if p.unknownCommands = .warn then
    (cs.filter fun c => !isBuiltin c.name).map fun c => "Unknown command: " ++ c.name
  else []

/-- What a policy wants remarked on at an element, by the element before it on the outermost level: a
block directly after a marker, and the commands of the element. -/
def remarksAt (p : Policy) : Option Element → Element → List String
  | some (.marker name), .block inner =>
    (if p.topLevelBlock = .warn then ["Top-level block after marker %" ++ name ++ "%"] else []) ++
      commandRemarks p inner.commands
  | _, e => commandRemarks p e.commands

/-- The remarks at the elements of the outermost level in order. -/
def remarks (p : Policy) : Option Element → List Element → List String
  | _, [] => []
  | previous, e :: es => remarksAt p previous e ++ remarks p (some e) es

def warned (p : Policy) (os : List Objection) : List String :=
  (os.filter (p.severity · = .warn)).map Objection.message

theorem warned_append (p : Policy) (os more : List Objection) :
    warned p (os ++ more) = warned p os ++ warned p more := by
  rw [warned, List.filter_append, List.map_append]
  rfl

theorem warned_eq_nil {os : List Objection} (h : ∀ x ∈ os, p.severity x = .deny) :
    warned p os = [] := by
  rw [warned, List.map_eq_nil_iff, List.filter_eq_nil_iff]
  intro x hx
  simp [h x hx]

theorem commandRemarks_append (p : Policy) (cs ds : List Command) :
    commandRemarks p (cs ++ ds) = commandRemarks p cs ++ commandRemarks p ds := by
  by_cases h : p.unknownCommands = .warn <;> simp [commandRemarks, h]

theorem warned_commandObjections (declared : List String) (c : Command) (beneath : Outline) :
    warned p (commandObjections declared c beneath) = commandRemarks p [c] := by
  by_cases hknown : isBuiltin c.name = true
  · have hnil : warned p (commandObjections declared c beneath) = [] :=
      warned_eq_nil fun x hx => (of_mem_commandObjections hx).1 hknown
    simp [hnil, commandRemarks, hknown]
  · have hmessage : (Objection.unknownCommand c.name).message = "Unknown command: " ++ c.name := rfl
    rw [commandObjections_of_unknown hknown]
    by_cases hwarn : p.unknownCommands = .warn
    · simp [warned, commandRemarks, Policy.severity, hwarn, hknown, hmessage]
    · simp [warned, commandRemarks, Policy.severity, hwarn]

theorem warned_markerObjections (t : Trail) (name : String) :
    warned p (markerObjections t name) = [] := by
  refine warned_eq_nil fun x hx => ?_
  have hx' : x ∈ trailObjections t [.marker name] := by
    rw [trailObjections_marker]
    exact List.mem_append_left _ hx
  obtain ⟨other, rfl⟩ | ⟨other, previous, rfl⟩ := of_mem_trailObjections hx' <;> rfl

/-- Beneath the outermost level only commands are remarked on. -/
theorem warned_levelObjections_inner (declared : List String) (o : Outline) (t : Trail) :
    warned p (levelObjections declared false none o t).1 = commandRemarks p o.commands := by
  induction o generalizing t with
  | nil =>
    change [] = commandRemarks p []
    simp [commandRemarks]
  | line head rest ih =>
    cases head with
    | command c =>
      rw [levelObjections_command, warned_append, warned_commandObjections, ih,
        Outline.commands_command, ← commandRemarks_append, List.singleton_append]
    | marker name =>
      rw [levelObjections_marker, warned_append, warned_markerObjections, Outline.commands_marker]
      exact ih _
    | comment text => exact ih t
  | block inner rest ihi ihr =>
    rw [levelObjections_block, warned_append, warned_append, ihi, ihr, Outline.commands_block,
      commandRemarks_append]
    rfl

/-- A level is warned of what is to be remarked on at its elements. -/
theorem warned_levelObjections (declared : List String) (previous : Option Element) (o : Outline)
    (t : Trail) :
    warned p (levelObjections declared true (previous.bind Element.marker?) o t).1 =
      remarks p previous o.elements := by
  induction o generalizing previous t with
  | nil => rfl
  | line head rest ih =>
    cases head with
    | command c =>
      rw [levelObjections_command, warned_append, warned_commandObjections,
        Outline.elements_command, remarks, ← ih]
      cases previous with
      | none => rfl
      | some e => cases e <;> rfl
    | marker name =>
      have hhere : remarksAt p previous (.marker name) = [] := by
        cases previous with
        | none => simp [remarksAt, commandRemarks, Element.commands]
        | some e => cases e <;> simp [remarksAt, commandRemarks, Element.commands]
      rw [levelObjections_marker, warned_append, warned_markerObjections, Outline.elements_marker,
        remarks, hhere]
      exact ih (some (.marker name)) _
    | comment text => exact ih previous t
  | block inner rest _ ih =>
    have hhere : remarksAt p previous (.block inner) =
        warned p ((previous.bind Element.marker?).map Objection.topLevelBlock).toList ++
          commandRemarks p inner.commands := by
      rcases previous with _ | ⟨_ | name | _⟩
      case some.marker =>
        have hmessage : (Objection.topLevelBlock name).message =
            "Top-level block after marker %" ++ name ++ "%" := rfl
        by_cases hwarn : p.topLevelBlock = .warn <;>
        simp [remarksAt, warned, Policy.severity, hwarn, Element.marker?, hmessage]
      all_goals rfl
    rw [levelObjections_block, warned_append, warned_append, warned_levelObjections_inner,
      Outline.elements_block, remarks, hhere, ← ih (some (.block inner))]
    rfl

/-- What a check that lets a script through warns of. -/
theorem messages_check (h : (check p o).failure = none) :
    (check p o).messages = remarks p none o.elements := by
  have hshape : shapeObjection? o = none :=
    have hkept := failure_check_eq_none_iff.mp h
    shapeObjection?_eq_none_iff.mpr ⟨hkept.starts, hkept.ends,
      exists_command_of_separated hkept.starts hkept.ends hkept.separated⟩
  rw [← warned_levelObjections o.markers none o {}]
  rw [check_eq_judge] at h ⊢
  rw [Verdict.messages, warnings_judge h, objections, hshape]
  rfl

/-- What a severity is when nothing is said about it. -/
theorem severity_of_member?_eq_none {v : Json} {name : String} {standard severity : Severity}
    (h : Policy.severityAt? v name standard = some severity) (hname : v.member? name = none) :
    severity = standard := by
  rw [Policy.severityAt?, hname] at h
  exact (Option.some.inj h).symm

theorem standard_of_ofJson? {v : Json} {q : Policy} (h : Policy.ofJson? v = some q) :
    (v.member? "unknownCommands" = none → q.unknownCommands = .deny) ∧
      (v.member? "topLevelBlock" = none → q.topLevelBlock = .allow) := by
  rw [Policy.ofJson?.eq_def] at h
  split at h
  case h_3 => cases h
  all_goals
    split at h
    next unknownCommands topLevelBlock hunknown htop =>
      cases h
      exact ⟨severity_of_member?_eq_none hunknown, severity_of_member?_eq_none htop⟩
    next => cases h

/-- A check decides the rules: it fails just if one of them is broken. Of a script that keeps them it
warns of what the policy wants remarked on, in the order of the text. Where nothing is said, a policy is
strict with commands and lenient with blocks. -/
theorem check_correct (p : Policy) (o : Outline) :
    ((check p o).failure = none ↔ Kept p o) ∧
    (Kept p o → (check p o).messages = remarks p none o.elements) ∧
    (∀ s : Settings, s.policy =
      ⟨s.unknownCommands.getD .deny, s.topLevelBlock.getD .allow⟩) ∧
    ∀ v q, Policy.ofJson? v = some q →
      (v.member? "unknownCommands" = none → q.unknownCommands = .deny) ∧
      (v.member? "topLevelBlock" = none → q.topLevelBlock = .allow) :=
  ⟨failure_check_eq_none_iff, fun h => messages_check (failure_check_eq_none_iff.mpr h),
    fun _ => rfl, fun _ _ => standard_of_ofJson?⟩

theorem check_correct_lenient :
    let p : Policy := { unknownCommands := .warn, topLevelBlock := .warn }
    let o : Outline := .line (.marker "START") (.line (.command { name := "SAY", text := some "a" })
      (.line (.marker "THERE") (.block (.line (.command { name := "ROLL" }) .nil)
        (.line (.marker "END") .nil))))
    Kept p o ∧ (check p o).messages = ["Top-level block after marker %THERE%", "Unknown command: ROLL"] ∧
      ({} : Policy).unknownCommands = .deny ∧ ({} : Policy).topLevelBlock = .allow := by
  intro p o
  obtain ⟨hkept, hmessages, -, hstandard⟩ := check_correct p o
  have hpass : (check p o).failure = none := by decide
  refine ⟨hkept.mp hpass, (hmessages (hkept.mp hpass)).trans (by decide), ?_⟩
  obtain ⟨hunknown, htop⟩ := hstandard (.object []) {} rfl
  exact ⟨hunknown rfl, htop rfl⟩

end Rules
end BranchingDialogue
