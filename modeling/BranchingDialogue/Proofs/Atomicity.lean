import BranchingDialogue.Proofs.Following
import BranchingDialogue.Proofs.Orders

/-! What a failure leaves of a session. A step takes its line before it goes where the line leads, so it
is the one thing that can fail halfway: at a jump that leads nowhere. -/
namespace BranchingDialogue.Session

/-- The next line is a jump, but not to a marker of the script. -/
def LeadsAstray (x : Session) : Prop :=
  ∃ c, x.spoken? = some c ∧ c.isJump = true ∧
    ∀ target, c.target? = some target → target ∉ x.script.document.outline.markers

/-- Nobody can tell two sessions apart, now or by anything asked of them later. -/
def LooksLike (x y : Session) : Prop :=
  x.view = y.view ∧ ∀ id asks, replies id (some x) asks = replies id (some y) asks

/-- Whatever fails in the session now leaves it as if it had not been asked. -/
def Atomic (x : Session) : Prop :=
  ∀ what e, (x.meet what).1 = .error e → ∃ y, (x.meet what).2 = some y ∧ y.LooksLike x

variable {x : Session} {c : Command} {e : PlayError} {f : Failure} {what : Ask}

theorem LooksLike.refl (x : Session) : x.LooksLike x := ⟨rfl, fun _ _ => rfl⟩

theorem follow_of_lost (hj : c.isJump = true)
    (h : ∀ target, c.target? = some target → x.script.story.markers.get? target = none) :
    follow c x = (.error (.play (.unknownMarker (c.target?.getD (c.text.getD "")))), x) := by
  rw [follow, if_pos hj]
  cases htarget : c.target? with
  | none => rfl
  | some target =>
    dsimp only
    rw [play, Playthrough.Action.goto, h target htarget]
    rfl

theorem lost_of_follow_eq_error (h : (follow c x).1 = .error f) : c.isJump = true ∧
    ∀ target, c.target? = some target → x.script.story.markers.get? target = none := by
  cases hj : c.isJump with
  | false =>
    rw [follow_of_not_isJump hj] at h
    cases h
  | true =>
    refine ⟨rfl, fun target htarget => ?_⟩
    cases hm : x.script.story.markers.get? target with
    | none => rfl
    | some place =>
      rw [follow_of_goto hj htarget (Playthrough.goto_of_some hm)] at h
      cases h

section
variable (hbuild : Story.build x.script.document.outline = .ok x.script.story)
include hbuild

/-- The story knows just the markers of the script. -/
theorem get?_markers_eq_none_iff (target : String) :
    x.script.story.markers.get? target = none ↔ target ∉ x.script.document.outline.markers := by
  rw [← Story.get?_markers_isSome_iff hbuild, Option.not_isSome_iff_eq_none]

/-- At a jump that leads nowhere a step fails, and the line is taken all the same. -/
theorem LeadsAstray.step (h : x.LeadsAstray) :
    ∃ name, x.step.1 = .error (.play (.unknownMarker name)) ∧
      x.step.2.view.steps = x.view.steps + 1 := by
  obtain ⟨c, hc, hj, hlost⟩ := h
  obtain ⟨node, chosen, hline, hnode⟩ := spoken?_eq_some_iff.mp hc
  have htick := Playthrough.tick_of_line hline hnode
  have hnone := fun target htarget => (get?_markers_eq_none_iff hbuild target).mpr (hlost target htarget)
  have hstep := step_of_lost htick rfl (follow_of_lost hj hnone)
  rw [hstep]
  exact ⟨_, rfl, rfl⟩

variable (hsound : x.run.position.Sound x.script.story)
include hsound

theorem run_of_call_eq_error {d : Call} (h : (x.run.call x.script.story d).1 = .error e) :
    { x with run := (x.run.call x.script.story d).2 } = x := by
  rw [(Playthrough.refused_call hbuild hsound h).1]

/-- A step that fails has done nothing, unless it came to a jump that leads nowhere. -/
theorem eq_or_leadsAstray_of_step_eq_error (h : x.step.1 = .error f) : x.step.2 = x ∨ x.LeadsAstray := by
  cases ht : x.run.tick x.script.story with
  | error e =>
    rw [step_of_refused ht]
    exact .inl (run_of_call_eq_error hbuild hsound (Playthrough.call_tick_of_error ht))
  | ok r =>
    obtain ⟨t, q⟩ := r
    cases hc : t.command with
    | none =>
      obtain ⟨r, hr, -⟩ := step_of_silent ht hc
      rw [hr] at h
      cases h
    | some c =>
      rcases hf : follow c { x with run := q } with ⟨g | u, y⟩
      · obtain ⟨hj, hlost⟩ := lost_of_follow_eq_error (congrArg Prod.fst hf)
        have hspoken : x.spoken? = some c := by
          rw [spoken?, ht]
          exact hc
        refine .inr ⟨c, hspoken, hj, fun target htarget => ?_⟩
        exact (get?_markers_eq_none_iff hbuild target).mp (hlost target htarget)
      · obtain ⟨r, hr, -⟩ := step_of_follow ht hc hf
        rw [hr] at h
        cases h

/-- Picks and jumps that fail have done nothing, and so have steps but at a jump that leads nowhere. -/
theorem eq_or_leadsAstray_of_meet_eq_error (h : (x.meet what).1 = .error f) :
    (x.meet what).2 = some x ∨ what = .step ∧ x.LeadsAstray := by
  cases what with
  | step =>
    rcases eq_or_leadsAstray_of_step_eq_error hbuild hsound (eq_error_of_map h) with hsame | hastray
    · exact .inl (congrArg some hsame)
    · exact .inr ⟨rfl, hastray⟩
  | choose index =>
    obtain ⟨e, he, -⟩ := exists_of_playAndShow_eq_error (eq_error_of_map h)
    have hcall := Playthrough.call_choose_of_error he
    exact .inl (congrArg some (run_of_call_eq_error hbuild hsound hcall))
  | goto marker =>
    obtain ⟨e, he, -⟩ := exists_of_playAndShow_eq_error (eq_error_of_map h)
    have hcall := Playthrough.call_goto_of_error he
    exact .inl (congrArg some (run_of_call_eq_error hbuild hsound hcall))
  | view => cases h
  | delete => cases h

theorem atomic_iff : x.Atomic ↔ ¬ x.LeadsAstray := by
  constructor
  · intro h hastray
    obtain ⟨name, hfail, hsteps⟩ := hastray.step hbuild
    have hmeet : (x.meet .step).1 = .error (.play (.unknownMarker name)) := by
      rw [meet, hfail]
      rfl
    obtain ⟨y, hy, hview, -⟩ := h .step _ hmeet
    cases hy
    rw [hview] at hsteps
    omega
  · intro h what f hf
    rcases eq_or_leadsAstray_of_meet_eq_error hbuild hsound hf with hsame | ⟨-, hastray⟩
    · exact ⟨x, hsame, .refl x⟩
    · exact absurd hastray h

end

/-- In a script that was checked no jump leads nowhere. -/
theorem Ready.not_leadsAstray (hx : x.Ready) : ¬ x.LeadsAstray := by
  rintro ⟨c, hc, hj, hlost⟩
  obtain ⟨target, hmem, htarget⟩ := hx.approved.target c (hx.mem_commands hc) hj
  exact hlost target htarget hmem

/-- Whatever was called in a session of a script, checked or not, a failure leaves it as it was unless the
next line is a jump that leads nowhere. There a step fails too, but counts the line as taken. -/
theorem atomic_iff_of_calls {script : Script}
    (hbuild : Story.build script.document.outline = .ok script.story) (id : String) (cs : List Call) :
    let x := (start id script).calls cs
    (x.Atomic ↔ ¬ x.LeadsAstray) ∧
      (x.LeadsAstray → ∃ name, x.step.1 = .error (.play (.unknownMarker name)) ∧
        x.step.2.view.steps = x.view.steps + 1) := by
  intro x
  obtain ⟨ds, hds⟩ := (start id script).exists_calls cs
  have hstory : Story.build x.script.document.outline = .ok x.script.story := by
    simp only [x, hds]
    exact hbuild
  have hsound : x.run.position.Sound x.script.story := by
    simp only [x, hds]
    exact Playthrough.sound_calls hbuild (Playthrough.sound_start hbuild) ds
  exact ⟨atomic_iff hstory hsound, fun h => h.step hstory⟩

theorem atomic_iff_of_calls_malformed :
    ∃ script, Script.unchecked "inn" "%BAR%\n|SAY| a\n|GOTO| %BAR\n|SAY| b\n" = .ok script ∧
      let x := (start "1" script).calls [.goto "NOWHERE", .tick]
      x.LeadsAstray ∧ ¬ x.Atomic ∧ ∃ name, x.step.1 = .error (.play (.unknownMarker name)) ∧
        x.step.2.view.steps = x.view.steps + 1 := by
  refine Exists.imp (fun script h => And.intro h ?_) ⟨_, rfl⟩
  intro x
  have hscript := Except.ok.inj h
  have hbuild : Story.build script.document.outline = .ok script.story := by
    rw [← hscript]
    rfl
  have hspoken : x.spoken? = some { name := "GOTO", text := some "%BAR" } := by
    simp only [x, ← hscript]
    decide +kernel
  have hastray : x.LeadsAstray := by
    have hnone : ({ name := "GOTO", text := some "%BAR" } : Command).target? = none := by decide
    exact ⟨_, hspoken, rfl, fun target htarget => by rw [hnone] at htarget; cases htarget⟩
  obtain ⟨hiff, hlost⟩ := atomic_iff_of_calls hbuild "1" [.goto "NOWHERE", .tick]
  exact ⟨hastray, fun hatomic => hiff.mp hatomic hastray, hlost hastray⟩

/-- A jump to a marker that the script does not have: the step fails, but the next one goes on behind it. -/
theorem exists_step_not_atomic :
    ∃ script, Script.unchecked "inn" "|GOTO| NOWHERE\n|SAY| a\n" = .ok script ∧
      let x := start "1" script
      x.step.1 = .error (.play (.unknownMarker "NOWHERE")) ∧ x.step.2.view ≠ x.view ∧
        x.step.2.step.1.map Step.lines = .ok [.speech none "a" "a"] := by
  refine Exists.imp (fun script h => And.intro h ?_) ⟨_, rfl⟩
  have hscript := Except.ok.inj h
  rw [← hscript]
  refine ⟨rfl, fun hview => ?_, by decide +kernel⟩
  exact absurd (congrArg SessionView.steps hview) (by decide)

end BranchingDialogue.Session
