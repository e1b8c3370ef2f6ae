import BranchingDialogue.Proofs.Bodies

/-! Where the markers of a compiled script lead, and what its jumps lead to. Main statement: the table of
the story names the markers in the order of the text, each leads to the first command after it, only the
last one to the end, and every jump is a leaf that leads to one of them. -/
namespace BranchingDialogue

namespace Story.Ledger

variable {l m : Ledger} {ls : List Line}

def names (l : Ledger) : List String := l.markers.names ++ l.pending.toList

/-- The marker that waits has no entry yet if no name is noted twice. -/
theorem notMem_names_of_pending (h : l.names.Nodup) {name : String} (hp : l.pending = some name) :
    name ∉ l.markers.names := by
  rw [names, hp] at h
  intro hm
  exact (List.nodup_append.mp h).2.2 name hm name (by simp) rfl

theorem names_pass (h : l.names.Nodup) : l.pass.names = l.names := by
  rw [names, names, pass]
  cases hp : l.pending with
  | none => rfl
  | some name =>
    rw [Table.names_put_of_notMem (notMem_names_of_pending h hp)]
    simp

theorem names_table (h : l.names.Nodup) : l.table.names = l.names := by
  rw [names, table]
  cases hp : l.pending with
  | none => simp
  | some name => exact Table.names_put_of_notMem (notMem_names_of_pending h hp) none

theorem names_await (h : l.pending = none) (name : String) : (l.await name).names = l.names ++ [name] := by
  rw [names, names, h, markers_await, pending_await]
  simp

/-- If no marker comes twice, all of them end up in the table, in the order of the lines. -/
theorem names_table_of_addAll (h : l.addAll ls = .ok m)
    (hnodup : (l.names ++ Line.markersOf ls).Nodup) : m.table.names = l.names ++ Line.markersOf ls := by
  induction ls generalizing l with
  | nil =>
    cases h
    rw [Line.markersOf_nil, List.append_nil] at hnodup ⊢
    exact names_table hnodup
  | cons x xs ih =>
    cases x with
    | command c =>
      have hpass : l.pass.names = l.names := names_pass (List.nodup_append.mp hnodup).1
      rw [Line.markersOf_command, ← hpass] at hnodup ⊢
      exact ih h hnodup
    | marker name =>
      obtain ⟨hp, hrest⟩ := addAll_marker_eq_ok_iff.mp h
      have hsplit : l.names ++ Line.markersOf (.marker name :: xs) =
          (l.await name).names ++ Line.markersOf xs := by
        rw [Line.markersOf_marker, names_await hp, List.append_assoc, List.singleton_append]
      rw [hsplit] at hnodup ⊢
      exact ih hrest hnodup
    | comment text => exact ih h hnodup

end Story.Ledger

namespace Story

variable {o : Outline} {s : Story}

/-- The table of a story names the markers of the script in the order of the text, if all differ. -/
theorem names_markers_of_build (h : build o = .ok s) (hnodup : o.markers.Nodup) :
    s.markers.names = o.markers := by
  obtain ⟨l, hl, hs⟩ := exists_ledger_of_build h
  rw [o.markers_eq] at hnodup ⊢
  rw [hs]
  exact Ledger.names_table_of_addAll hl hnodup

end Story

namespace Outline

variable {o : Outline} {name : String}

theorem lines_eq_nil_of_elements_eq_nil (h : o.elements = []) : o.lines = [] := by
  induction o with
  | nil => rfl
  | line head rest ih =>
    cases head with
    | command c => cases h
    | marker name => cases h
    | comment text => exact ih h
  | block inner rest => cases h

/-- A marker that is the first element is the first line. -/
theorem exists_lines_of_head?_elements (h : o.elements.head? = some (.marker name)) :
    ∃ after, o.lines = .marker name :: after := by
  rcases o.skipComments_cases with
    ⟨-, he⟩ | ⟨c, rest, -, he⟩ | ⟨first, rest, -, he, hlines⟩ | ⟨inner, rest, -, he⟩
  case inr.inr.inl =>
    obtain rfl : first = name := by simpa [he] using h
    exact ⟨rest.lines, hlines⟩
  all_goals simp [he] at h

/-- A marker that is the last element is the last line. -/
theorem exists_lines_of_getLast?_elements (h : o.elements.getLast? = some (.marker name)) :
    ∃ before, o.lines = before ++ [.marker name] := by
  induction o with
  | nil => cases h
  | line head rest ih =>
    cases head with
    | comment text => exact ih h
    | command c =>
      rw [elements_command, List.getLast?_cons] at h
      cases hlast : rest.elements.getLast? with
      | none => simp [hlast] at h
      | some e =>
        obtain ⟨before, hlines⟩ := ih (by simpa [hlast] using h)
        exact ⟨.command c :: before, by rw [lines_command, hlines, List.cons_append]⟩
    | marker first =>
      rw [elements_marker, List.getLast?_cons] at h
      cases hlast : rest.elements.getLast? with
      | none =>
        obtain rfl : first = name := by simpa [hlast] using h
        have hnil := lines_eq_nil_of_elements_eq_nil (List.getLast?_eq_none_iff.mp hlast)
        exact ⟨[], by rw [lines_marker, hnil, List.nil_append]⟩
      | some e =>
        obtain ⟨before, hlines⟩ := ih (by simpa [hlast] using h)
        exact ⟨.marker first :: before, by rw [lines_marker, hlines, List.cons_append]⟩
  | block inner rest _ ih =>
    rw [elements_block, List.getLast?_cons] at h
    cases hlast : rest.elements.getLast? with
    | none => simp [hlast] at h
    | some e =>
      obtain ⟨before, hlines⟩ := ih (by simpa [hlast] using h)
      exact ⟨inner.lines ++ before, by rw [lines_block, hlines, List.append_assoc]⟩

end Outline

namespace Rules.Kept

variable {p : Policy} {o rest : Outline} {s : Story} {name : String} {before after : List Line}
  {c : Command}

/-- After every marker but the last comes a command. -/
theorem commandsOf_ne_nil (h : Kept p o) (ho : o.lines = before ++ .marker name :: after)
    (hname : name ≠ endMarker) : Line.commandsOf after ≠ [] := by
  obtain ⟨front, hfront⟩ := Outline.exists_lines_of_getLast?_elements h.ends
  have hlast : (Line.marker name :: after).getLast? = some (.marker endMarker) := by
    have heq := congrArg List.getLast? (ho.symm.trans hfront)
    simpa using heq
  obtain ⟨between, hbetween⟩ := List.getLast?_eq_some_iff.mp hlast
  cases between with
  | nil => simp [hname] at hbetween
  | cons l between =>
    obtain ⟨rfl, rfl⟩ := List.cons.inj hbetween
    obtain ⟨c, hc⟩ := h.separated before between [] name endMarker ho
    have hmem : c ∈ Line.commandsOf (between ++ [.marker endMarker]) :=
      List.mem_filterMap.mpr ⟨.command c, List.mem_append_left _ hc, rfl⟩
    exact List.ne_nil_of_mem hmem

/-- Every marker but the last leads to the first command after it. -/
theorem exists_leads (h : Kept p o) (hs : Story.build o = .ok s)
    (ho : o.lines = before ++ .marker name :: after) (hname : name ≠ endMarker) :
    ∃ c, (Line.commandsOf after).head? = some c ∧
      s.markers.get? name = some (some (Line.commandsOf before).length) ∧
      s.command? (Line.commandsOf before).length = some c := by
  obtain ⟨c, cs, hc⟩ := List.exists_cons_of_ne_nil (h.commandsOf_ne_nil ho hname)
  have hlast := Outline.marker_notMem_of_nodup h.distinct ho
  refine ⟨c, by rw [hc, List.head?_cons], ?_, Story.command?_of_lines hs ho hc⟩
  rw [Story.get?_markers_of_build hs ho hlast, if_neg (by simp [hc])]

/-- Only the last marker leads to the end. -/
theorem get?_markers_eq_some_none_iff (h : Kept p o) (hs : Story.build o = .ok s) (name : String) :
    s.markers.get? name = some none ↔ name = endMarker := by
  constructor
  · intro hnone
    refine Decidable.byContradiction fun hname => ?_
    have hmem : name ∈ o.markers := by
      rw [← Story.get?_markers_isSome_iff hs, hnone]
      rfl
    obtain ⟨before, after, ho, -⟩ := Outline.exists_last_marker hmem
    obtain ⟨-, -, hsome, -⟩ := h.exists_leads hs ho hname
    rw [hnone] at hsome
    cases hsome
  · rintro rfl
    obtain ⟨front, hend⟩ := Outline.exists_lines_of_getLast?_elements h.ends
    rw [Story.get?_markers_of_build hs hend (by simp)]
    rfl

/-- Nothing lies beneath a jump, as no block comes directly after it. -/
theorem children_eq_nil_of_isJump (h : Kept p o) (hs : Story.build o = .ok s) {k : Nat}
    (hk : o.places[k]? = some (c, rest)) (hjump : c.isJump = true) : s.tree.children k = [] := by
  have hname : c.name = gotoName := by simpa [Command.isJump] using hjump
  obtain ⟨-, -, hnext⟩ := (h.proper c rest (List.mem_of_getElem? hk)).goto hname
  rw [Story.children_of_build hs hk, Forest.ids_eq_nil_iff, rest.commands_layers]
  cases he : rest.elements with
  | nil => rfl
  | cons e es =>
    obtain ⟨name, rfl⟩ := hnext e (by rw [he]; rfl)
    rfl

end Rules.Kept

namespace Script

/-- The markers and jumps of a script lead where they should. -/
structure Signposted (script : Script) : Prop where
  /-- The table names the markers in the order of the text. -/
  names : script.story.markers.names = script.document.outline.markers
  first : script.story.first? = some 0
  start : script.story.markers.get? startMarker = some (some 0)
  ends : ∀ name, script.story.markers.get? name = some none ↔ name = endMarker
  /-- A marker leads to the first command after it; nodes are numbered as commands are. -/
  leads : ∀ before name after, script.document.outline.lines = before ++ .marker name :: after →
    name ≠ endMarker → ∃ c, (Line.commandsOf after).head? = some c ∧
      script.story.markers.get? name = some (some (Line.commandsOf before).length) ∧
      script.story.command? (Line.commandsOf before).length = some c
  jumps : ∀ id c, script.story.command? id = some c → c.isJump = true →
    script.story.tree.children id = [] ∧
      ∃ target ∈ script.story.markers.names, c.target? = some target

/-- Whatever the policy, the markers and jumps of a script that was compiled lead where they should. -/
theorem signposted_of_compile {p : Policy} {id source : String} {script : Script}
    {notices : List Notice} (h : compile p id source = (.ok script, notices)) : script.Signposted := by
  obtain ⟨-, hfailure, hbuild⟩ := checks_of_compile h
  have hkept := Rules.failure_check_eq_none_iff.mp hfailure
  have hnames := Story.names_markers_of_build hbuild hkept.distinct
  obtain ⟨after, hfirst⟩ := Outline.exists_lines_of_head?_elements hkept.starts
  have hsplit : script.document.outline.lines = [] ++ .marker startMarker :: after := hfirst
  have hsome := hkept.commandsOf_ne_nil hsplit (by decide)
  obtain ⟨-, -, hstart, -⟩ := hkept.exists_leads hbuild hsplit (by decide)
  refine ⟨hnames, ?_, hstart, hkept.get?_markers_eq_some_none_iff hbuild,
    fun before name after ho hname => hkept.exists_leads hbuild ho hname, fun k c hk hjump => ?_⟩
  · rw [Story.first?_of_build hbuild, Outline.commands_eq, hfirst]
    exact if_neg hsome
  · obtain ⟨rest, hplace⟩ := Story.exists_place_of_build hbuild hk
    have hc := Outline.mem_commands_of_mem_places (List.mem_of_getElem? hplace)
    rw [hnames]
    exact ⟨hkept.children_eq_nil_of_isJump hbuild hplace hjump, (approved_of_compile h).target c hc hjump⟩

theorem signposted_of_compile_blocks :
    ∃ script notices, compile {} "s"
        "%START%\n|SAY| a\n    // b\n    %INN%\n    |SAY| c\n        |GOTO| %INN%\n    %OUT%\n|SAY| d\n%END%\n" =
          (.ok script, notices) ∧
      script.story.markers.names = ["START", "INN", "OUT", "END"] ∧
      script.story.markers.get? "START" = some (some 0) ∧
      script.story.markers.get? "OUT" = some (some 3) ∧
      script.story.markers.get? "END" = some none ∧ script.story.tree.children 2 = [] := by
  refine Exists.imp (fun script h => ⟨[], h, ?_⟩) ⟨_, (compile_eq_judge {} _ _).trans rfl⟩
  have hsigns := signposted_of_compile h
  have hscript := Except.ok.inj (congrArg Prod.fst ((compile_eq_judge {} _ _).symm.trans h))
  have hlines : script.document.outline.lines =
      [.marker "START", .command { name := "SAY", text := some "a" }, .marker "INN",
        .command { name := "SAY", text := some "c" }, .command { name := "GOTO", text := some "%INN%" }] ++
        .marker "OUT" :: [.command { name := "SAY", text := some "d" }, .marker "END"] := by
    rw [← hscript]
    decide +kernel
  have hjump : script.story.command? 2 = some { name := "GOTO", text := some "%INN%" } := by
    rw [← hscript]
    rfl
  obtain ⟨-, -, hout, -⟩ := hsigns.leads _ "OUT" _ hlines (by decide)
  obtain ⟨hleaf, -⟩ := hsigns.jumps 2 _ hjump rfl
  refine ⟨?_, hsigns.start, hout, (hsigns.ends "END").mpr rfl, hleaf⟩
  rw [hsigns.names, Outline.markers_eq, hlines]
  rfl

end Script
end BranchingDialogue
