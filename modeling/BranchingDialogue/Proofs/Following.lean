import BranchingDialogue.Proofs.Approval
import BranchingDialogue.Proofs.Standing
import BranchingDialogue.Session

/-! Sessions with a script that was compiled. A step takes a line and follows it if it is a jump, so a
session is a run that makes two calls at once there; the second one is never refused. -/
namespace BranchingDialogue.Session

def after (x : Session) : Call → Session
  | .tick => x.step.2
  | .choose index => (x.choose index).2
  | .goto marker => (x.goto marker).2

def calls (x : Session) (cs : List Call) : Session := cs.foldl after x

/-- The command that the next step gives, if it gives one. -/
def spoken? (x : Session) : Option Command :=
  match x.run.tick x.script.story with
  | .ok (t, _) => t.command
  | .error _ => none

/-- The session stands where a marker leads: at the end if no command follows the marker, and else
before the first command that does, which is what the next step gives. -/
def StandsAt (x : Session) (name : String) : Prop :=
  ∀ before after, x.script.document.outline.lines = before ++ .marker name :: after →
    match Line.commandsOf after with
    | [] => x.isFinished = true
    | d :: _ => x.isFinished = false ∧ x.spoken? = some d ∧
        ∃ r, x.step.1 = .ok r ∧ r.lines = [.ofCommand d]

/-- What a client can rely on when it takes a step: only a choice that is to be made stands in its way,
and a jump leads to a marker of the script. -/
structure Guided (x : Session) : Prop where
  refused : ∀ e, x.step.1 = .error e ↔ e = .play .choicePending ∧ x.options ≠ []
  shown : ∀ r, x.step.1 = .ok r → r.lines = x.spoken?.toList.map .ofCommand
  jump : ∀ c, x.spoken? = some c → c.isJump = true →
    ∃ target ∈ x.script.document.outline.markers, c.target? = some target ∧
      ∃ r y, x.step = (.ok r, y) ∧ r.lines = [.jump target] ∧ r.isFinished = y.isFinished ∧
        y.script = x.script ∧ y.StandsAt target

variable {α : Type} {x y : Session} {c : Command} {t : Tick} {q : Playthrough} {e : PlayError} {f : Failure}

theorem play_of_ok {act : Story → Playthrough.Action α} {a : α}
    (h : act x.script.story x.run = (.ok a, q)) : play act x = (.ok a, { x with run := q }) := by
  rw [play, h]
  rfl

theorem play_of_error {act : Story → Playthrough.Action α}
    (h : (act x.script.story x.run).1 = .error e) :
    play act x = (.error (.play e), { x with run := (act x.script.story x.run).2 }) := by
  rw [play]
  dsimp only
  rw [h]
  rfl

theorem step_of_refused (h : x.run.tick x.script.story = .error e) :
    x.step = (.error (.play e), { x with run := (x.run.call x.script.story .tick).2 }) := by
  rw [step, play_of_error (Playthrough.Action.outcome_eq_error_iff.mp h)]
  rfl

theorem step_of_silent (h : x.run.tick x.script.story = .ok (t, q)) (ht : t.command = none) :
    ∃ r, x.step = (.ok r, { x with run := q }) ∧ r.lines = [] := by
  rw [step, play_of_ok (Playthrough.Action.outcome_eq_ok_iff.mp h)]
  simp [ht]

/-- A line that was taken is shown, unless it leads nowhere. -/
theorem step_of_follow (h : x.run.tick x.script.story = .ok (t, q)) (ht : t.command = some c)
    (hy : follow c { x with run := q } = (.ok (), y)) :
    ∃ r, x.step = (.ok r, y) ∧ r.lines = [.ofCommand c] ∧ r.isFinished = y.isFinished := by
  rw [step, play_of_ok (Playthrough.Action.outcome_eq_ok_iff.mp h)]
  simp [ht, hy]

/-- A jump that leads nowhere is reported, but its line is taken. -/
theorem step_of_lost (h : x.run.tick x.script.story = .ok (t, q)) (ht : t.command = some c)
    (hy : follow c { x with run := q } = (.error f, y)) : x.step = (.error f, y) := by
  rw [step, play_of_ok (Playthrough.Action.outcome_eq_ok_iff.mp h)]
  simp [ht, hy]

theorem follow_of_goto {target : String} (hj : c.isJump = true) (htarget : c.target? = some target)
    (hq : x.run.goto x.script.story target = .ok q) : follow c x = (.ok (), { x with run := q }) := by
  rw [follow, if_pos hj, htarget]
  dsimp only
  rw [play, Playthrough.Action.map_outcome_eq_ok_iff.mp hq]
  rfl

theorem follow_of_not_isJump (hj : c.isJump = false) : follow c x = (.ok (), x) := by
  rw [follow, hj]
  rfl

/-- A line that was taken stays taken; at most a marker is called for. -/
theorem follow_snd_cases (c : Command) (x : Session) : (follow c x).2 = x ∨
    ∃ target, (follow c x).2 = { x with run := (x.run.call x.script.story (.goto target)).2 } := by
  rw [follow]
  split
  · split
    · exact .inl rfl
    next target _ => exact .inr ⟨target, rfl⟩
  · exact .inl rfl

/-- What a step does with a session, a tick does with its run, or a tick and a jump. -/
theorem exists_calls_step (x : Session) :
    ∃ ds, x.step.2 = { x with run := x.run.calls x.script.story ds } := by
  cases ht : x.run.tick x.script.story with
  | error e =>
    rw [step_of_refused ht]
    exact ⟨[.tick], rfl⟩
  | ok r =>
    obtain ⟨t, q⟩ := r
    have hticked : x.run.calls x.script.story [.tick] = q := by
      rw [Playthrough.calls_cons, Playthrough.call_tick ht, Playthrough.calls_nil]
    cases hc : t.command with
    | none =>
      obtain ⟨r, hr, -⟩ := step_of_silent ht hc
      exact ⟨[.tick], by rw [hr, hticked]⟩
    | some c =>
      have hstep : x.step.2 = (follow c { x with run := q }).2 := by
        rcases hf : follow c { x with run := q } with ⟨f | u, y⟩
        · rw [step_of_lost ht hc hf]
        · obtain ⟨r, hr, -⟩ := step_of_follow ht hc hf
          rw [hr]
      rw [hstep]
      obtain hsame | ⟨target, hjump⟩ := follow_snd_cases c { x with run := q }
      · exact ⟨[.tick], by rw [hsame, hticked]⟩
      · refine ⟨[.tick, .goto target], ?_⟩
        rw [hjump, Playthrough.calls_cons, Playthrough.call_tick ht, Playthrough.calls_cons,
          Playthrough.calls_nil]

/-- What a call does with a session, some calls do with its run. The script stays. -/
theorem exists_calls_after (x : Session) (c : Call) :
    ∃ ds, x.after c = { x with run := x.run.calls x.script.story ds } := by
  cases c with
  | tick => exact x.exists_calls_step
  | choose index => exact ⟨[.choose index], rfl⟩
  | goto marker => exact ⟨[.goto marker], rfl⟩

/-- A session is a run of its script, with some jumps made at once. -/
theorem exists_calls (x : Session) (cs : List Call) :
    ∃ ds, x.calls cs = { x with run := x.run.calls x.script.story ds } := by
  induction cs generalizing x with
  | nil => exact ⟨[], rfl⟩
  | cons c cs ih =>
    obtain ⟨ds, hds⟩ := x.exists_calls_after c
    obtain ⟨es, hes⟩ := ih (x.after c)
    refine ⟨ds ++ es, ?_⟩
    rw [calls, List.foldl_cons, ← calls, hes, hds]
    simp [Playthrough.calls, List.foldl_append]

variable {target : String} {place : Option Nat}

theorem isFinished_eq_true_iff : x.isFinished = true ↔ x.run.position = .done := by
  rw [isFinished, Playthrough.isFinished, decide_eq_true_iff]

theorem tick_of_spoken? (h : x.spoken? = some c) :
    ∃ t q, x.run.tick x.script.story = .ok (t, q) ∧ t.command = some c := by
  rw [spoken?] at h
  split at h
  next t q ht => exact ⟨t, q, ht, h⟩
  next => cases h

/-- Only before a line a step gives a command, that of its node. -/
theorem spoken?_eq_some_iff : x.spoken? = some c ↔
    ∃ node chosen, x.run.position = .line node chosen ∧ x.script.story.command? node = some c := by
  constructor
  · intro h
    obtain ⟨t, q, ht, hc⟩ := tick_of_spoken? h
    have hout := x.run.call_outcome x.script.story .tick
    rw [Playthrough.call_tick ht] at hout
    cases hout with
    | silent => cases hc
    | spoken hline hd => exact ⟨_, _, hline, hd.trans hc⟩
  · rintro ⟨node, chosen, hline, hc⟩
    rw [spoken?, Playthrough.tick_of_line hline hc]

/-- A session whose script is approved, at a position of its story. -/
structure Ready (x : Session) : Prop where
  approved : x.script.Approved
  sound : x.run.position.Sound x.script.story

theorem Ready.start {script : Script} (h : script.Approved) (id : String) : (start id script).Ready where
  approved := h
  sound := Playthrough.sound_start h.build

theorem Ready.calls (hx : x.Ready) (cs : List Call) : (x.calls cs).Ready := by
  obtain ⟨ds, hds⟩ := x.exists_calls cs
  rw [hds]
  exact ⟨hx.approved, Playthrough.sound_calls hx.approved.build hx.sound ds⟩

theorem Ready.mem_commands (hx : x.Ready) (hc : x.spoken? = some c) :
    c ∈ x.script.document.outline.commands := by
  obtain ⟨node, -, -, hnode⟩ := spoken?_eq_some_iff.mp hc
  rw [Story.command?_of_build hx.approved.build] at hnode
  exact List.mem_of_getElem? hnode

/-- Options are shown just while a choice is to be made. -/
theorem Ready.options_ne_nil_iff (hx : x.Ready) :
    x.options ≠ [] ↔ ∃ ids, x.run.AtChoice x.script.story ids := by
  constructor
  · intro h
    rw [options, Playthrough.pending?] at h
    cases hp : x.run.position with
    | choice ids source => exact ⟨ids, (Playthrough.atChoice_iff_of_sound hp hx.sound).mpr rfl⟩
    | _ =>
      rw [hp] at h
      exact absurd rfl h
  · rintro ⟨ids, hids⟩
    obtain ⟨cs, hcs, hpending⟩ := Playthrough.exists_pending hx.approved.build hids
    obtain ⟨source, -, hne, -⟩ := hids
    have hcs' : cs ≠ [] := by
      rintro rfl
      exact hne (List.map_eq_nil_iff.mp hcs)
    rw [options, hpending]
    simpa [showOptions] using hcs'

/-- A jump of an approved script is made. -/
theorem Ready.step_of_isJump (hx : x.Ready) (hc : x.spoken? = some c) (hj : c.isJump = true) :
    ∃ target ∈ x.script.document.outline.markers, c.target? = some target ∧
      ∃ place, x.script.story.markers.get? target = some place ∧
        ∃ r p, x.step = (.ok r, { x with run := p }) ∧ p.position = .before place ∧
          r.lines = [.ofCommand c] ∧ r.isFinished = p.isFinished := by
  obtain ⟨target, hmem, htarget⟩ := hx.approved.target c (hx.mem_commands hc) hj
  obtain ⟨place, hplace⟩ := Option.isSome_iff_exists.mp
    ((Story.get?_markers_isSome_iff hx.approved.build).mpr hmem)
  obtain ⟨t, q, ht, htc⟩ := tick_of_spoken? hc
  obtain ⟨r, hstep, hlines, hfinished⟩ := step_of_follow ht htc
    (follow_of_goto hj htarget (Playthrough.goto_of_some hplace))
  exact ⟨target, hmem, htarget, place, hplace, r, _, hstep, rfl, hlines, hfinished⟩

/-- A step of an approved script shows the line that it takes, a jump or not. -/
theorem Ready.step_of_spoken? (hx : x.Ready) (hc : x.spoken? = some c) :
    ∃ r, x.step.1 = .ok r ∧ r.lines = [.ofCommand c] := by
  cases hj : c.isJump with
  | true =>
    obtain ⟨-, -, -, -, -, r, p, hstep, -, hlines, -⟩ := hx.step_of_isJump hc hj
    exact ⟨r, by rw [hstep], hlines⟩
  | false =>
    obtain ⟨t, q, ht, htc⟩ := tick_of_spoken? hc
    obtain ⟨r, hstep, hlines, -⟩ := step_of_follow ht htc (follow_of_not_isJump hj)
    exact ⟨r, by rw [hstep], hlines⟩

/-- Where the table of the story leads, the session stands where the marker of the script does. -/
theorem Ready.standsAt (hx : x.Ready) (hp : x.run.position = .before place)
    (hplace : x.script.story.markers.get? target = some place) : x.StandsAt target := by
  intro before after ho
  have hafter := Outline.marker_notMem_of_nodup hx.approved.nodup ho
  rw [Story.get?_markers_of_build hx.approved.build ho hafter, Option.some_inj] at hplace
  subst hplace
  cases hd : Line.commandsOf after with
  | nil =>
    rw [if_pos hd] at hp
    exact isFinished_eq_true_iff.mpr hp
  | cons d ds =>
    rw [if_neg (by rw [hd]; exact List.cons_ne_nil d ds)] at hp
    have hnode := Story.command?_of_lines hx.approved.build ho hd
    have hspoken : x.spoken? = some d := spoken?_eq_some_iff.mpr ⟨_, _, hp, hnode⟩
    refine ⟨?_, hspoken, hx.step_of_spoken? hspoken⟩
    rw [← Bool.not_eq_true, isFinished_eq_true_iff, hp]
    exact Position.noConfusion

theorem ofCommand_of_isJump (hj : c.isJump = true) (htarget : c.target? = some target) :
    Shown.ofCommand c = .jump target := by
  have hname : c.name = gotoName := by simpa [Command.isJump] using hj
  have hsay : gotoName ≠ sayName := by decide
  have hchoice : gotoName ≠ choiceName := by decide
  simp only [Shown.ofCommand, hname, hsay, hchoice, htarget, if_true, if_false, Option.getD_some]

theorem Ready.guided (hx : x.Ready) : x.Guided where
  refused := by
    intro e
    rw [hx.options_ne_nil_iff]
    rcases Playthrough.tick_cases hx.approved.build hx.sound with
      ⟨-, hno, -, ht⟩ | ⟨-, hyes, -, ht⟩ | ⟨-, hno, -, q, c, ht⟩
    · obtain ⟨r, hstep, -⟩ := step_of_silent ht rfl
      simp [hstep, hno]
    · simp [step_of_refused ht, hyes, eq_comm]
    · obtain ⟨r, hstep, -⟩ := hx.step_of_spoken? (c := c) (by rw [spoken?, ht])
      simp [hstep, hno]
  shown := by
    intro r hr
    cases hc : x.spoken? with
    | some c =>
      obtain ⟨r', hr', hlines⟩ := hx.step_of_spoken? hc
      rw [hr'] at hr
      cases hr
      exact hlines
    | none =>
      cases ht : x.run.tick x.script.story with
      | error e =>
        rw [step_of_refused ht] at hr
        cases hr
      | ok u =>
        obtain ⟨t, q⟩ := u
        rw [spoken?, ht] at hc
        obtain ⟨r', hr', hlines⟩ := step_of_silent ht hc
        rw [hr'] at hr
        cases hr
        exact hlines
  jump := by
    intro c hc hj
    obtain ⟨target, hmem, htarget, place, hplace, r, p, hstep, hp, hlines, hfinished⟩ :=
      hx.step_of_isJump hc hj
    have hy : ({ x with run := p } : Session).Ready := by
      have hready := hx.calls [.tick]
      rw [Session.calls, List.foldl_cons, List.foldl_nil, after, hstep] at hready
      exact hready
    rw [ofCommand_of_isJump hj htarget] at hlines
    exact ⟨target, hmem, htarget, r, _, hstep, hlines, hfinished, rfl, hy.standsAt hp hplace⟩

/-- Whatever was called in a session of a script that was compiled, a step fails only while a choice is
to be made, and each jump leads to a marker of the script and to what follows it. -/
theorem guided_of_compile {p : Policy} {id source : String} {script : Script} {notices : List Notice}
    (h : Script.compile p id source = (.ok script, notices)) (sessionId : String) (cs : List Call) :
    Document.parse source = .ok script.document ∧
      ((start sessionId script).calls cs).script = script ∧
      ((start sessionId script).calls cs).Guided := by
  refine ⟨(Script.checks_of_compile h).1, ?_, ?_⟩
  · obtain ⟨ds, hds⟩ := (start sessionId script).exists_calls cs
    rw [hds]
    rfl
  · exact ((Ready.start (Script.approved_of_compile h) sessionId).calls cs).guided

theorem guided_of_compile_jumps :
    ∃ script, Script.compile {} "inn"
        "%START%\n|CHOICE| in\n    |GOTO| %BAR%\n|CHOICE| on\n    |GOTO| END\n%BAR%\n|SAY| hi\n%END%\n" =
          (.ok script, []) ∧
      let x := (start "1" script).calls [.tick, .choose .nan, .tick, .goto "NOWHERE", .choose (.ofNat 0)]
      x.script = script ∧ x.Guided := by
  refine Exists.imp (fun script h => And.intro h ?_) ⟨_, (Script.compile_eq_judge {} _ _).trans rfl⟩
  exact (guided_of_compile h "1" _).2

end BranchingDialogue.Session
