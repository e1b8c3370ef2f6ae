import BranchingDialogue.Proofs.Approval
import BranchingDialogue.Service

/-! Those who look at the text of a script pass the same verdict on it: the check, the compiler, the loader
and the service. -/
namespace BranchingDialogue

namespace Rules

variable {p : Policy} {o : Outline} {name previous : String}

theorem exists_build_of_check (h : (check p o).failure = none) : ∃ s, Story.build o = .ok s := by
  cases hbuild : Story.build o with
  | ok s => exact ⟨s, rfl⟩
  | error e =>
    obtain ⟨previous, next, hin⟩ := (Story.exists_build_error_iff o).mp ⟨e, hbuild⟩
    have hseparated := (failure_check_eq_none_iff.mp h).separated
    exact absurd hin ((Line.separated_iff o.comment_notMem_lines).mp hseparated previous next)

theorem exists_error_of_consecutiveMarkers
    (h : (check p o).failure = some (.consecutiveMarkers name previous)) :
    ∃ e, Story.build o = .error e := by
  rw [check_eq_judge] at h
  have hmem := mem_of_failure_judge h
  rw [objections] at hmem
  cases hs : shapeObjection? o with
  | some x =>
    rw [hs, List.mem_singleton] at hmem
    exact absurd hmem.symm ((of_shapeObjection?_eq_some (p := p) hs).2 name previous)
  | none =>
    rw [hs] at hmem
    rcases mem_levelObjections_iff.mp hmem with hplace | htrail | hheading
    · obtain ⟨⟨c, rest⟩, -, hx⟩ := List.mem_flatMap.mp hplace
      exact absurd rfl ((of_mem_commandObjections (p := p) hx).2 name previous)
    · exact exists_consecutiveMarkers_iff.mp ⟨name, previous, htrail⟩
    · obtain ⟨marker, -, hmarker⟩ := List.mem_map.mp hheading
      cases hmarker

theorem eq_consecutiveMarkers_of_rule {x : Objection} (h : x.rule = "consecutive-markers") :
    ∃ name previous, x = .consecutiveMarkers name previous := by
  cases x
  case consecutiveMarkers name previous => exact ⟨name, previous, rfl⟩
  all_goals simp [Objection.rule] at h

end Rules

/-- A report tells the outcome of compiling a text: the warnings of the script, or why there is none, which
is a line that cannot be read or a broken rule. -/
def Report.Tells (r : Report) : Except Failure Script → Prop
  | .ok script => r = { warnings := script.warnings }
  | .error e => r = { failure := some e } ∧ ((∃ f, e = .parse f) ∨ ∃ x, e = .rule x)

theorem Report.tells_compile (p : Policy) (id source : String) :
    (ofSource p source).1.Tells (Script.compile p id source).1 ∧
      (ofSource p source).2 = (Script.compile p id source).2 := by
  rw [ofSource, Script.compile]
  cases Document.parse source with
  | error f => exact ⟨⟨rfl, .inl ⟨f, rfl⟩⟩, rfl⟩
  | ok d =>
    refine ⟨?_, rfl⟩
    cases hfailure : (Rules.check p d.outline).failure with
    | some x =>
      simp only [ofOutline, ofVerdict, Script.ofVerdict, hfailure]
      exact ⟨rfl, .inr ⟨x, rfl⟩⟩
    | none =>
      obtain ⟨s, hs⟩ := Rules.exists_build_of_check hfailure
      simp only [ofOutline, ofVerdict, Script.ofVerdict, hfailure, hs]
      rfl

namespace Service

/-- A request to check a text under a policy, with a body that the front end could read. -/
structure AsksCheck (front : FrontEnd) (r : Request) (p : Policy) (source : String) : Prop where
  method : r.method = "POST"
  target : front.destination r.target = .route .check
  source : ((front.body r).toOption.bind fun body => (body.member? "source").bind Json.string?) =
    some source
  policy : ((front.body r).toOption.bind fun body => (policyOf body).toOption) = some p

/-- An answer says of a text what became of a library when a file with the text was added: either there is
a script of its name and no new error, or the scripts are as before and there is one more error. -/
inductive SaysOf (v : Json) (name : String) (lib lib' : Library) : Prop
  | taken (script : Script) (ok : v.member? "ok" = some (.bool true))
      (warnings : v.member? "warnings" = some (.strings script.warnings))
      (script_eq : lib'.scripts.get? (Library.idOfName name) = some script)
      (errors : lib'.errors = lib.errors)
  | refused (message : String) (ok : v.member? "ok" = some (.bool false))
      (error : v.member? "error" = some (.string message)) (scripts : lib'.scripts = lib.scripts)
      (errors : lib'.errors = lib.errors ++ [name ++ ": " ++ message])

variable {σ : Type} {front : FrontEnd} {p : Policy} {source : String}

theorem AsksCheck.exists_body {r : Request} (h : AsksCheck front r p source) :
    ∃ body, front.body r = .ok body ∧
      (body.member? "source").bind Json.string? = some source ∧ policyOf body = .ok p := by
  have hsource := h.source
  have hpolicy := h.policy
  cases hbody : front.body r with
  | error e =>
    rw [hbody] at hsource
    cases hsource
  | ok body =>
    rw [hbody] at hsource hpolicy
    refine ⟨body, rfl, hsource, ?_⟩
    change (policyOf body).toOption = some p at hpolicy
    cases hasked : policyOf body with
    | error e =>
      rw [hasked] at hpolicy
      cases hpolicy
    | ok q =>
      rw [hasked] at hpolicy
      cases hpolicy
      rfl

theorem respond_of_asksCheck {r : Request} (h : AsksCheck front r p source) (lib : Library)
    (ids : IdSource σ) (st : Store σ) :
    front.respond lib ids r st =
      ({ Response.ok (report (Report.ofSource p source).1) with
          notices := (Report.ofSource p source).2 }, st) := by
  obtain ⟨body, hbody, hsource, hpolicy⟩ := h.exists_body
  have hcheck : check body = { Response.ok (report (Report.ofSource p source).1) with
      notices := (Report.ofSource p source).2 } := by
    rw [check, field, hsource, hpolicy]
  have hnotOptions : "POST" ≠ "OPTIONS" := by decide
  have hnotHead : "POST" ≠ "HEAD" := by decide
  simp only [FrontEnd.respond, h.target, h.method, hbody, if_neg hnotOptions, if_neg hnotHead, reduceCtorEq,
    if_false, dispatch]
  rw [answer, hcheck]

theorem saysOf_report (lib : Library) (name : String) :
    SaysOf (report (Report.ofSource p source).1) name lib (lib.addText p name source).1 := by
  obtain ⟨htells, -⟩ := Report.tells_compile p (Library.idOfName name) source
  have hadd : (lib.addText p name source).1 =
      lib.addOutcome name source (Script.compile p (Library.idOfName name) source).1 := rfl
  rw [hadd]
  cases hcompile : (Script.compile p (Library.idOfName name) source).1 with
  | ok script =>
    rw [hcompile, Report.Tells] at htells
    rw [htells]
    exact .taken script rfl rfl (Table.get?_put_self _ _ _) rfl
  | error e =>
    rw [hcompile, Report.Tells] at htells
    rw [htells.1]
    exact .refused e.message rfl rfl rfl rfl

end Service

/-- A script that passes the check is built, and one that fails it for markers next to each other is not.
So a text is compiled just if it passes the check, with the same warnings, and else for the same reason; and
the service says of each text that reaches it what a library makes of it. -/
theorem verdicts_agree (p : Policy) :
    (∀ o, (Rules.check p o).failure = none → ∃ s, Story.build o = .ok s) ∧
    (∀ o x, (Rules.check p o).failure = some x → x.rule = "consecutive-markers" →
      ∃ e, Story.build o = .error e) ∧
    (∀ id source, (Report.ofSource p source).1.Tells (Script.compile p id source).1 ∧
      (Report.ofSource p source).2 = (Script.compile p id source).2) ∧
    ∀ (front : Service.FrontEnd) (σ : Type) (ids : IdSource σ) (st : Store σ) (served lib : Library)
      (r : Service.Request) (source name : String), Service.AsksCheck front r p source →
      ∃ v, (front.respond served ids r st).1.status = 200 ∧
        (front.respond served ids r st).1.payload = .json v ∧
        Service.SaysOf v name lib (lib.addText p name source).1 := by
  refine ⟨fun o => Rules.exists_build_of_check, ?_, fun id source => Report.tells_compile p id source, ?_⟩
  · intro o x hx hrule
    obtain ⟨name, previous, rfl⟩ := Rules.eq_consecutiveMarkers_of_rule hrule
    exact Rules.exists_error_of_consecutiveMarkers hx
  · intro front σ ids st served lib r source name h
    refine ⟨Service.report (Report.ofSource p source).1, ?_, ?_, Service.saysOf_report lib name⟩
    all_goals rw [Service.respond_of_asksCheck h]
    all_goals rfl

theorem verdicts_agree_checked :
    let say : Line := .command { name := "SAY", text := some "a" }
    let plain : Outline := .line (.marker "START") (.line say (.line (.marker "END") .nil))
    let doubled : Outline :=
      .line (.marker "START") (.line say (.line (.marker "A") (.line (.marker "END") .nil)))
    let request : Service.Request :=
      { method := "POST"
        target := "/api/check"
        contentType := some "application/json"
        body := some ("\x7b\"source\":\"%A%\"\x7d".toList.map fun c => UInt8.ofNat c.toNat) }
    (∃ s, Story.build plain = .ok s) ∧ (∃ e, Story.build doubled = .error e) ∧
      Service.AsksCheck .standard request {} "%A%" ∧
      ∃ v, (Service.respond {} IdSource.numbered request { ids := 0 }).1.status = 200 ∧
        (Service.respond {} IdSource.numbered request { ids := 0 }).1.payload = .json v ∧
        Service.SaysOf v "a.script" {} (Library.addText {} {} "a.script" "%A%").1 := by
  intro say plain doubled request
  obtain ⟨hbuild, herror, -, hservice⟩ := verdicts_agree {}
  have hplain : (Rules.check {} plain).failure = none := by decide
  have hdoubled : (Rules.check {} doubled).failure = some (.consecutiveMarkers "END" "A") := by decide
  have hasks : Service.AsksCheck .standard request {} "%A%" :=
    { method := rfl
      target := by decide +kernel
      source := by decide +kernel
      policy := by decide +kernel }
  exact ⟨hbuild plain hplain, herror doubled _ hdoubled rfl, hasks,
    hservice .standard Nat IdSource.numbered { ids := 0 } {} {} request "%A%" "a.script" hasks⟩

end BranchingDialogue
