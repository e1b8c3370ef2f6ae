import BranchingDialogue.Proofs.Rulebook
import BranchingDialogue.Script

/-! What is known of a script that passed its check: every jump leads to a marker of the script, and no
marker stands in it twice. -/
namespace BranchingDialogue

namespace Outline

/-- A marker that stands once stands nowhere after its place. -/
theorem marker_notMem_of_nodup {o : Outline} (h : o.markers.Nodup) {before after : List Line}
    {name : String} (ho : o.lines = before ++ .marker name :: after) :
    Line.marker name ∉ after := by
  intro hmem
  rw [markers, ho, List.filterMap_append, List.filterMap_cons] at h
  have hnodup := (List.nodup_append.mp h).2.1
  refine (List.nodup_cons.mp hnodup).1 ?_
  exact List.mem_filterMap.mpr ⟨_, hmem, rfl⟩

end Outline

namespace Script

/-- A script whose story is built from its lines, whose jumps all lead to markers of the script, and
whose markers all differ. -/
structure Approved (script : Script) : Prop where
  build : Story.build script.document.outline = .ok script.story
  target : ∀ c ∈ script.document.outline.commands, c.isJump = true →
    ∃ target ∈ script.document.outline.markers, c.target? = some target
  nodup : script.document.outline.markers.Nodup

/-- What compiling comes to, with the verdict on all that can be said against the text. -/
theorem compile_eq_judge (p : Policy) (id source : String) :
    compile p id source =
      match Document.parse source with
      | .error e => (.error (.parse e), [])
      | .ok d =>
        let v := Rules.judge p (Rules.objections d.outline)
        (ofVerdict id d v, v.notices) := by
  rw [compile]
  cases Document.parse source with
  | error e => rfl
  | ok d => simp only [Rules.check_eq_judge]

/-- What it takes to compile a text: it is read, passes the check, and a story is built from it. -/
theorem checks_of_compile {p : Policy} {id source : String} {script : Script} {notices : List Notice}
    (h : compile p id source = (.ok script, notices)) :
    Document.parse source = .ok script.document ∧
      (Rules.check p script.document.outline).failure = none ∧
      Story.build script.document.outline = .ok script.story := by
  rw [compile] at h
  cases hd : Document.parse source with
  | error e => rw [hd] at h; cases h
  | ok d =>
    rw [hd] at h
    have hv : ofVerdict id d (Rules.check p d.outline) = .ok script := congrArg Prod.fst h
    rw [ofVerdict] at hv
    split at hv
    next => cases hv
    next => cases hv
    next story hfailure hbuild =>
      cases hv
      exact ⟨rfl, hfailure, hbuild⟩

/-- Whatever the policy, a script that was compiled is approved. -/
theorem approved_of_compile {p : Policy} {id source : String} {script : Script}
    {notices : List Notice} (h : compile p id source = (.ok script, notices)) : script.Approved := by
  obtain ⟨-, hfailure, hbuild⟩ := checks_of_compile h
  have hkept := Rules.failure_check_eq_none_iff.mp hfailure
  refine ⟨hbuild, fun c hc hj => ?_, hkept.distinct⟩
  obtain ⟨rest, hplace⟩ := Outline.exists_place hc
  have hname : c.name = gotoName := by simpa [Command.isJump] using hj
  obtain ⟨-, ⟨target, hmem, hpoints⟩, -⟩ := (hkept.proper c rest hplace).goto hname
  exact ⟨target, hmem, Command.target?_eq_some_iff.mpr hpoints⟩

end Script
end BranchingDialogue
