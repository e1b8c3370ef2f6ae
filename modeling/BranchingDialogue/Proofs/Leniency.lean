import BranchingDialogue.Proofs.Objections
import BranchingDialogue.Report
import Mathlib.Data.List.Basic

/-! What a more lenient policy changes. It lets through what a stricter one lets through, and a script that
fails by a rule which no policy relaxes fails by the same objection. -/
namespace BranchingDialogue

def Severity.leniency : Severity → Nat
  | .deny => 0
  | .warn => 1
  | .allow => 2

namespace Policy

/-- `q` takes neither of its two rules more severely than `p` does. -/
structure RelaxesTo (p q : Policy) : Prop where
  unknownCommands : p.unknownCommands.leniency ≤ q.unknownCommands.leniency
  topLevelBlock : p.topLevelBlock.leniency ≤ q.topLevelBlock.leniency

/-- Everything that may be let through is warned of. -/
def outspoken : Policy where
  unknownCommands := .warn
  topLevelBlock := .warn

variable {p q : Policy} {x : Objection}

/-- Two kinds of objections are left to the policy, and all others are denied by every policy. -/
theorem severity_cases (x : Objection) :
    (∃ name, x = .unknownCommand name) ∨ (∃ marker, x = .topLevelBlock marker) ∨
      ∀ p : Policy, p.severity x = .deny := by
  cases x
  case unknownCommand name => exact .inl ⟨name, rfl⟩
  case topLevelBlock marker => exact .inr (.inl ⟨marker, rfl⟩)
  all_goals exact .inr (.inr fun _ => rfl)

theorem RelaxesTo.leniency_severity (h : p.RelaxesTo q) (x : Objection) :
    (p.severity x).leniency ≤ (q.severity x).leniency := by
  obtain ⟨name, rfl⟩ | ⟨marker, rfl⟩ | hdeny := severity_cases x
  · exact h.unknownCommands
  · exact h.topLevelBlock
  · exact Nat.le_of_eq (by rw [hdeny p, hdeny q])

/-- What a policy denies the stricter ones deny too. -/
theorem RelaxesTo.severity_eq_deny (h : p.RelaxesTo q) (hq : q.severity x = .deny) :
    p.severity x = .deny := by
  have hle := h.leniency_severity x
  rw [hq] at hle
  cases hp : p.severity x with
  | deny => rfl
  | warn => simp [hp, Severity.leniency] at hle
  | allow => simp [hp, Severity.leniency] at hle

/-- Only two rules can be relaxed. -/
theorem severity_of_rule (p : Policy) (hunknown : x.rule ≠ "unknown-command")
    (htop : x.rule ≠ "top-level-block") : p.severity x = .deny := by
  obtain ⟨name, rfl⟩ | ⟨marker, rfl⟩ | hdeny := severity_cases x
  · exact absurd rfl hunknown
  · exact absurd rfl htop
  · exact hdeny p

/-- What is denied when everything is warned of that may be is denied by all policies. -/
theorem severity_of_outspoken (h : outspoken.severity x = .deny) (p : Policy) :
    p.severity x = .deny := by
  obtain ⟨name, rfl⟩ | ⟨marker, rfl⟩ | hdeny := severity_cases x
  · cases h
  · cases h
  · exact hdeny p

theorem outspoken_of_severity (h : p.severity x = .warn) : outspoken.severity x = .warn := by
  obtain ⟨name, rfl⟩ | ⟨marker, rfl⟩ | hdeny := severity_cases x
  · rfl
  · rfl
  · rw [hdeny p] at h
    cases h

end Policy

namespace Rules

variable {p q : Policy} {os : List Objection} {x : Objection}

/-- A check fails by the first objection that is denied. -/
theorem failure_judge_eq_find? (p : Policy) (os : List Objection) :
    (judge p os).failure = os.find? (p.severity · = .deny) := by
  induction os with
  | nil => rfl
  | cons x os ih =>
    rw [judge, List.find?_cons, ← ih]
    cases p.severity x <;> rfl

/-- A list of objections that is let through is let through by every policy that denies no more of them. -/
theorem failure_judge_eq_none_of_imp (hpq : ∀ x, q.severity x = .deny → p.severity x = .deny)
    (h : (judge p os).failure = none) : (judge q os).failure = none := by
  rw [failure_judge_eq_none_iff] at h ⊢
  exact fun x hx hdeny => h x hx (hpq x hdeny)

/-- The first objection that is denied stays the first if it is denied still. -/
theorem failure_judge_of_relaxesTo (hpq : p.RelaxesTo q) (h : (judge p os).failure = some x)
    (hx : q.severity x = .deny) : (judge q os).failure = some x := by
  rw [failure_judge_eq_find?, List.find?_eq_some_iff_append] at h ⊢
  obtain ⟨-, before, after, hos, hbefore⟩ := h
  refine ⟨decide_eq_true hx, before, after, hos, fun y hy => ?_⟩
  have hp : p.severity y ≠ .deny := by simpa using hbefore y hy
  simpa using fun hq => hp (hpq.severity_eq_deny hq)

/-- Warnings of a script that is let through are among those that are given if all is warned of. -/
theorem messages_sublist_outspoken (hq : (judge q os).failure = none)
    (hall : (judge .outspoken os).failure = none) :
    (judge q os).messages.Sublist (judge .outspoken os).messages := by
  rw [Verdict.messages, Verdict.messages, warnings_judge hq, warnings_judge hall]
  refine (List.monotone_filter_right os fun y hy => ?_).map Objection.message
  exact decide_eq_true (Policy.outspoken_of_severity (of_decide_eq_true hy))

/-- A script that is let through is let through by all policies that are more lenient, with no warnings
but those that are given, in this order, if all is warned of that may be. A script that fails by a rule
which is never relaxed fails by the same objection. -/
theorem check_of_relaxesTo (h : p.RelaxesTo q) (o : Outline) :
    ((check p o).failure = none →
      (check q o).failure = none ∧ (check .outspoken o).failure = none ∧
        (check q o).messages.Sublist (check .outspoken o).messages) ∧
    ∀ x, (check p o).failure = some x →
      x.rule ≠ "unknown-command" → x.rule ≠ "top-level-block" → (check q o).failure = some x := by
  simp only [check_eq_judge]
  constructor
  · intro hp
    have hq := failure_judge_eq_none_of_imp (fun _ => h.severity_eq_deny) hp
    have hall := failure_judge_eq_none_of_imp (fun _ hx => Policy.severity_of_outspoken hx p) hp
    exact ⟨hq, hall, messages_sublist_outspoken hq hall⟩
  · intro x hx hunknown htop
    exact failure_judge_of_relaxesTo h hx (q.severity_of_rule hunknown htop)

theorem check_of_relaxesTo_warned :
    let p : Policy := { unknownCommands := .warn, topLevelBlock := .warn }
    let q : Policy := { unknownCommands := .allow, topLevelBlock := .warn }
    let roll : Line := .command { name := "ROLL" }
    let o : Outline := .line (.marker "START") (.line roll (.line (.marker "THERE")
      (.block (.line roll .nil) (.line (.marker "END") .nil))))
    let twice : Outline := .line (.marker "START") (.line roll (.line (.marker "START")
      (.block (.line roll .nil) (.line (.marker "END") .nil))))
    p.RelaxesTo q ∧ (check q o).failure = none ∧
      (check q o).messages = ["Top-level block after marker %THERE%"] ∧
      (check q o).messages.Sublist ["Unknown command: ROLL", "Top-level block after marker %THERE%",
        "Unknown command: ROLL"] ∧
      (check q twice).failure = some (.duplicateMarker "START") := by
  intro p q roll o twice
  have h : p.RelaxesTo q := ⟨by decide, by decide⟩
  obtain ⟨hlet, -⟩ := check_of_relaxesTo h o
  obtain ⟨-, hkeep⟩ := check_of_relaxesTo h twice
  obtain ⟨hpass, -, hwarned⟩ := hlet (by decide)
  have hall : (check .outspoken o).messages = ["Unknown command: ROLL",
      "Top-level block after marker %THERE%", "Unknown command: ROLL"] := by decide
  refine ⟨h, hpass, by decide, hall ▸ hwarned, ?_⟩
  exact hkeep (.duplicateMarker "START") (by decide) (by decide) (by decide)

end Rules
end BranchingDialogue
