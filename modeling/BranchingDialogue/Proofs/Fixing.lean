import BranchingDialogue.CheckTool
import BranchingDialogue.Proofs.Encoding
import BranchingDialogue.Proofs.Places
import BranchingDialogue.Proofs.RoundTrip
import BranchingDialogue.Proofs.Rulebook
import BranchingDialogue.Script

/-! What the check command does to the files. It touches nothing unless it is to bring an accepted script
into another form, and then the old text is kept beside it. What is written is the same script, and is
written the same again. -/
namespace BranchingDialogue

/-- Two texts are read as the same elements, so they get the same report and make the same story. -/
structure Alike (s t : String) : Prop where
  outline : (Document.parse t).map Document.outline = (Document.parse s).map Document.outline
  report : ∀ p, Report.ofSource p t = Report.ofSource p s
  story : ∀ id, (Script.unchecked id t).map Script.story = (Script.unchecked id s).map Script.story

namespace Document

variable {s t : String} {d e : Document}

theorem alike_of_parse (hs : parse s = .ok d) (ht : parse t = .ok e) (h : e.outline = d.outline) :
    Alike s t where
  outline := by
    rw [hs, ht]
    exact congrArg Except.ok h
  report := by
    intro p
    rw [Report.ofSource, Report.ofSource, hs, ht]
    exact congrArg (Report.ofOutline p) h
  story := by
    intro id
    rw [Script.unchecked, Script.unchecked, hs, ht]
    dsimp only
    rw [h]
    cases Story.build d.outline <;> rfl

/-- What is written of a script that was read is read as the same elements, and written the same again. -/
theorem exists_parse_format (h : parse s = .ok d) (hne : d.outline ≠ .nil) :
    ∃ e, parse d.format = .ok e ∧ e.outline = d.outline ∧ e.format = d.format := by
  obtain ⟨hcanonical, -, -⟩ := parse_eq_ok_iff.mp h
  have hparse := parse_format hcanonical hne d.finalNewline
  refine ⟨_, hparse, rfl, ?_⟩
  rw [format_eq, format_eq]
  by_cases hfinal : d.finalNewline = some false <;> simp [hfinal]

end Document

namespace CheckTool

variable {s t path : String} {d : Document} {p : Plan} {args : List String} {folder after : Folder}
  {home place old : List String}

/-- The command accepts a text and reads it so. -/
def Accepts (s : String) (d : Document) : Prop :=
  Document.parse s = .ok d ∧ (Rules.check policy d.outline).failure = none

/-- An accepted script is not empty: it begins with a marker. -/
theorem Accepts.outline_ne_nil (h : Accepts s d) : d.outline ≠ .nil := by
  intro hnil
  have hstarts := (Rules.failure_check_eq_none_iff.mp h.2).starts
  rw [hnil] at hstarts
  cases hstarts

/-- What is written of an accepted script is accepted, and written the same again. -/
theorem Accepts.format (h : Accepts s d) : Alike s d.format ∧
    ∃ e, Accepts d.format e ∧ e.format = d.format := by
  obtain ⟨e, hparse, houtline, hformat⟩ := Document.exists_parse_format h.1 h.outline_ne_nil
  refine ⟨Document.alike_of_parse h.1 hparse houtline, e, ⟨hparse, ?_⟩, hformat⟩
  rw [houtline]
  exact h.2

section
variable (hpath : path? args = some path) (hname : extension.toList <:+ path.toList)
  (hfile : lookUp folder home path = .file s)
include hpath hname hfile

end

end CheckTool
end BranchingDialogue
