import BranchingDialogue.Proofs.Standing

/-! Jumps, made from wherever a run stands: only a name that no marker of the script has is refused, and
any other leads to the first command after the last marker of that name, however the lines are nested. -/
namespace BranchingDialogue

namespace Playthrough

/-- The run goes on with the first of the commands to come, which is the node `n`; if none is to come it
is over. -/
def Resumes (s : Story) (p : Playthrough) (n : Nat) : List Command → Prop
  | [] => p.AtEnd ∧ p.tick s = .ok ({ number := p.ticks, command := none }, p)
  | c :: _ => p.visit? s .tick = some n ∧
      ∃ q, p.tick s = .ok ({ number := p.ticks, command := some c }, q)

variable {o : Outline} {s : Story} {p : Playthrough} {name : String}

theorem goto_error_iff (h : Story.build o = .ok s) (p : Playthrough) (name : String) (e : PlayError) :
    p.goto s name = .error e ↔ e = .unknownMarker name ∧ name ∉ o.markers := by
  rw [← Story.get?_markers_isSome_iff h]
  cases hm : s.markers.get? name with
  | none => simp [goto_of_none hm, eq_comm]
  | some target => simp [goto_of_some hm]

/-- Before a line the next tick gives the command of its node. -/
theorem visit?_tick_of_line {node : Nat} {chosen : Bool} {c : Command}
    (hp : p.position = .line node chosen) (hc : s.command? node = some c) :
    p.visit? s .tick = some node := by
  rw [visit?, emission?, call_tick (tick_of_line hp hc)]
  simp [hp]

/-- A jump that is made ends before the first command after the last marker of the name. -/
theorem exists_resumes (h : Story.build o = .ok s) (p : Playthrough) {before after : List Line}
    (ho : o.lines = before ++ .marker name :: after) (hlast : Line.marker name ∉ after) :
    ∃ q, p.goto s name = .ok q ∧ q.ticks = p.ticks ∧
      q.Resumes s (Line.commandsOf before).length (Line.commandsOf after) := by
  refine ⟨_, goto_of_some (Story.get?_markers_of_build h ho hlast), rfl, ?_⟩
  cases hc : Line.commandsOf after with
  | nil => exact ⟨rfl, tick_of_done rfl⟩
  | cons c cs =>
    have hnode := Story.command?_of_lines h ho hc
    exact ⟨visit?_tick_of_line rfl hnode, _, tick_of_line rfl hnode⟩

/-- Whatever a client has called before, a jump is refused just if the script has no marker of the name,
and then nothing changes. Else it leads to the first command after the last such marker, or to the end if
no command comes there. -/
theorem jumps_of_calls (h : Story.build o = .ok s) (past : List Call) (name : String) :
    let p := (start s).calls s past
    (∀ e, (p.call s (.goto name)).1 = .error e ↔ e = .unknownMarker name ∧ name ∉ o.markers) ∧
    (name ∉ o.markers → (p.call s (.goto name)).2 = p) ∧
    ∀ before after, o.lines = before ++ .marker name :: after → .marker name ∉ after →
      ∃ q, p.call s (.goto name) = (.ok none, q) ∧ q.ticks = p.ticks ∧
        q.Resumes s (Line.commandsOf before).length (Line.commandsOf after) := by
  intro p
  have herror := goto_error_iff h p name
  have hcall (e : PlayError) : (p.call s (.goto name)).1 = .error e ↔ p.goto s name = .error e := by
    rw [goto, Action.map_outcome_eq_error_iff, call]
    cases (Action.goto s name p).1 <;> simp [Except.map]
  refine ⟨fun e => (hcall e).trans (herror e), fun hname => ?_, fun before after ho hlast => ?_⟩
  · have hrefused := (hcall _).mpr ((herror (.unknownMarker name)).mpr ⟨rfl, hname⟩)
    exact (refused_call h (sound_calls h (sound_start h) past) hrefused).1
  · obtain ⟨q, hq, hticks, hresumes⟩ := exists_resumes h p ho hlast
    exact ⟨q, call_goto hq, hticks, hresumes⟩

theorem jumps_of_calls_last :
    ∃ s, Story.build (.line (.command { name := "SAY", text := some "a" })
        (.block (.line (.marker "BAR") (.line (.command { name := "SAY", text := some "b" }) .nil))
        (.line (.marker "BAR") (.block (.line (.comment " two doors")
            (.line (.command { name := "CHOICE", text := some "c" }) .nil))
          (.line (.command { name := "CHOICE", text := some "d" }) (.line (.marker "END") .nil)))))) =
        .ok s ∧
      let p := (start s).calls s [.tick, .tick, .tick]
      p.position = .choice [2, 3] .group ∧ (p.call s (.goto "NOWHERE")).2 = p ∧
        ∃ q, p.call s (.goto "BAR") = (.ok none, q) ∧ q.ticks = 3 ∧
          q.Resumes s 2 [{ name := "CHOICE", text := some "c" },
            { name := "CHOICE", text := some "d" }] := by
  refine Exists.imp (fun s h => And.intro h ?_) ⟨_, rfl⟩
  have hposition : ((start s).calls s [.tick, .tick, .tick]).position = .choice [2, 3] .group := by
    cases h
    decide +kernel
  have hticks : ((start s).calls s [.tick, .tick, .tick]).ticks = 3 := by
    cases h
    decide +kernel
  obtain ⟨-, hkeep, -⟩ := jumps_of_calls h [.tick, .tick, .tick] "NOWHERE"
  obtain ⟨-, -, hjump⟩ := jumps_of_calls h [.tick, .tick, .tick] "BAR"
  obtain ⟨q, hq, hsame, hresumes⟩ := hjump
    [.command { name := "SAY", text := some "a" }, .marker "BAR",
      .command { name := "SAY", text := some "b" }]
    [.command { name := "CHOICE", text := some "c" }, .command { name := "CHOICE", text := some "d" },
      .marker "END"] rfl (by decide)
  exact ⟨hposition, hkeep (by decide), q, hq, hsame.trans hticks, hresumes⟩

end Playthrough
end BranchingDialogue
