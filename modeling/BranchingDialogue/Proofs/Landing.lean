import BranchingDialogue.Story

/-! Where markers lead. Blocks play no part in it: the table of a story is made from the commands and
markers in the order of the text. Main statements: a story cannot be built just when a marker directly
follows another, and a marker leads to the first command after the last place where it stands. -/
namespace BranchingDialogue

namespace Line

def command? : Line → Option Command
  | .command c => some c
  | _ => none

@[simp] theorem command?_command (c : Command) : (Line.command c).command? = some c := rfl

@[simp] theorem command?_marker (name : String) : (Line.marker name).command? = none := rfl

@[simp] theorem command?_comment (text : String) : (Line.comment text).command? = none := rfl

def commandsOf (ls : List Line) : List Command := ls.filterMap command?

@[simp] theorem commandsOf_nil : commandsOf [] = [] := rfl

@[simp] theorem commandsOf_cons (l : Line) (ls : List Line) :
    commandsOf (l :: ls) = l.command?.toList ++ commandsOf ls := by
  rw [commandsOf, List.filterMap_cons]
  cases l.command? <;> rfl

@[simp] theorem commandsOf_append (ls ms : List Line) :
    commandsOf (ls ++ ms) = commandsOf ls ++ commandsOf ms :=
  List.filterMap_append

end Line

namespace Outline

@[simp] theorem lines_nil : lines .nil = [] := rfl

@[simp] theorem lines_command (c : Command) (rest : Outline) :
    lines (.line (.command c) rest) = .command c :: rest.lines := rfl

@[simp] theorem lines_marker (name : String) (rest : Outline) :
    lines (.line (.marker name) rest) = .marker name :: rest.lines := rfl

@[simp] theorem lines_comment (text : String) (rest : Outline) :
    lines (.line (.comment text) rest) = rest.lines := rfl

@[simp] theorem lines_block (inner rest : Outline) :
    lines (.block inner rest) = inner.lines ++ rest.lines := rfl

theorem comment_notMem_lines (o : Outline) (text : String) : Line.comment text ∉ o.lines := by
  induction o with
  | nil => simp
  | line head rest ih => cases head <;> simp [ih]
  | block inner rest ihi ihr => simp [ihi, ihr]

theorem commands_eq (o : Outline) : o.commands = Line.commandsOf o.lines := by
  rw [commands, Line.commandsOf]
  rfl

theorem mem_markers_iff {o : Outline} {name : String} :
    name ∈ o.markers ↔ Line.marker name ∈ o.lines := by
  rw [markers, List.mem_filterMap]
  constructor
  · rintro ⟨l, hl, hname⟩
    cases l <;> simp_all
  · intro h
    exact ⟨_, h, rfl⟩

/-- A marker of an outline has a last place. -/
theorem exists_last_marker {o : Outline} {name : String} (h : name ∈ o.markers) :
    ∃ before after, o.lines = before ++ .marker name :: after ∧ Line.marker name ∉ after := by
  rw [mem_markers_iff, ← List.mem_reverse] at h
  obtain ⟨after, before, hsplit, hlast⟩ := List.eq_append_cons_of_mem h
  refine ⟨before.reverse, after.reverse, ?_, by simpa using hlast⟩
  rw [← List.reverse_reverse o.lines, hsplit]
  simp

end Outline

namespace Story

/-- What the lines read so far say about markers: how many commands there were, which marker no
command has followed yet, and where the others lead. -/
structure Ledger where
  size : Nat := 0
  pending : Option String := none
  markers : Table (Option Nat) := .empty

namespace Ledger

/-- After a command, which the waiting marker then leads to. -/
def pass (l : Ledger) : Ledger where
  size := l.size + 1
  markers :=
    match l.pending with
    | some name => l.markers.put name (some l.size)
    | none => l.markers

/-- After a marker, if none was waiting. -/
def await (l : Ledger) (name : String) : Ledger := { l with pending := some name }

def add (l : Ledger) : Line → Except BuildFailure Ledger
  | .command _ => .ok l.pass
  | .marker name =>
    match l.pending with
    | some previous => .error { marker := name, previous }
    | none => .ok (l.await name)
  | .comment _ => .ok l

def addAll (l : Ledger) : List Line → Except BuildFailure Ledger
  | [] => .ok l
  | x :: xs => l.add x >>= fun m => m.addAll xs

/-- Where the markers lead if no more lines come. -/
def table (l : Ledger) : Table (Option Nat) :=
  match l.pending with
  | some name => l.markers.put name none
  | none => l.markers

/-- The marker that waits for a command, as it stands before the lines to come. -/
def waiting (l : Ledger) : List Line := (l.pending.map Line.marker).toList

variable {l m : Ledger} {ls : List Line} {name : String}

@[simp] theorem size_pass (l : Ledger) : l.pass.size = l.size + 1 := rfl

@[simp] theorem pending_pass (l : Ledger) : l.pass.pending = none := rfl

@[simp] theorem size_await (l : Ledger) (name : String) : (l.await name).size = l.size := rfl

@[simp] theorem pending_await (l : Ledger) (name : String) :
    (l.await name).pending = some name := rfl

@[simp] theorem markers_await (l : Ledger) (name : String) :
    (l.await name).markers = l.markers := rfl

theorem get?_markers_pass_self (h : l.pending = some name) :
    l.pass.markers.get? name = some (some l.size) := by
  rw [pass, h]
  exact Table.get?_put_self l.markers name (some l.size)

theorem get?_markers_pass_of_ne (h : l.pending ≠ some name) :
    l.pass.markers.get? name = l.markers.get? name := by
  rw [pass]
  cases hp : l.pending with
  | none => rfl
  | some other =>
    apply Table.get?_put_of_ne
    rintro rfl
    exact h hp

theorem get?_table_self (h : l.pending = some name) : l.table.get? name = some none := by
  rw [table, h]
  exact Table.get?_put_self l.markers name none

theorem get?_table_of_ne (h : l.pending ≠ some name) :
    l.table.get? name = l.markers.get? name := by
  rw [table]
  cases hp : l.pending with
  | none => rfl
  | some other =>
    apply Table.get?_put_of_ne
    rintro rfl
    exact h hp

@[simp] theorem addAll_command (l : Ledger) (c : Command) (ls : List Line) :
    l.addAll (.command c :: ls) = l.pass.addAll ls := rfl

@[simp] theorem addAll_comment (l : Ledger) (text : String) (ls : List Line) :
    l.addAll (.comment text :: ls) = l.addAll ls := rfl

theorem addAll_marker (h : l.pending = none) (name : String) (ls : List Line) :
    l.addAll (.marker name :: ls) = (l.await name).addAll ls := by
  rw [addAll, add, h]
  rfl

theorem addAll_marker_of_some {previous : String} (h : l.pending = some previous) (name : String)
    (ls : List Line) :
    l.addAll (.marker name :: ls) = .error { marker := name, previous } := by
  rw [addAll, add, h]
  rfl

/-- A marker that could be read came when none was waiting. -/
theorem addAll_marker_eq_ok_iff :
    l.addAll (.marker name :: ls) = .ok m ↔
      l.pending = none ∧ (l.await name).addAll ls = .ok m := by
  cases hp : l.pending with
  | none => simp [addAll_marker hp]
  | some previous => simp [addAll_marker_of_some hp]

theorem addAll_append (l : Ledger) (xs ys : List Line) :
    l.addAll (xs ++ ys) = l.addAll xs >>= fun m => m.addAll ys := by
  induction xs generalizing l with
  | nil => rfl
  | cons x xs ih =>
    rw [List.cons_append, addAll, addAll]
    cases l.add x with
    | error e => rfl
    | ok m => exact ih m

theorem size_addAll (h : l.addAll ls = .ok m) :
    m.size = l.size + (Line.commandsOf ls).length := by
  induction ls generalizing l with
  | nil =>
    cases h
    rfl
  | cons x xs ih =>
    cases x with
    | command c =>
      have hsize := ih h
      rw [size_pass] at hsize
      rw [hsize, Line.commandsOf_cons, List.length_append]
      simp only [Line.command?_command, Option.toList_some, List.length_singleton]
      omega
    | marker name =>
      have hsize := ih (addAll_marker_eq_ok_iff.mp h).2
      exact hsize
    | comment text => exact ih h

/-- Lines cannot all be read just when a marker directly follows another. -/
theorem exists_error_iff (hls : ∀ text, Line.comment text ∉ ls) :
    (∃ e, l.addAll ls = .error e) ↔
      ∃ previous next, [Line.marker previous, .marker next] <:+: l.waiting ++ ls := by
  induction ls generalizing l with
  | nil =>
    have hlen : l.waiting.length < 2 := by
      rw [waiting]
      cases l.pending <;> simp
    constructor
    · rintro ⟨e, he⟩
      cases he
    · rintro ⟨previous, next, hin⟩
      have hle := hin.length_le
      rw [List.append_nil] at hle
      simp only [List.length_cons, List.length_nil] at hle
      omega
  | cons x xs ih =>
    have hxs : ∀ text, Line.comment text ∉ xs := fun text hm => hls text (List.mem_cons_of_mem _ hm)
    cases x with
    | command c =>
      rw [addAll_command, ih hxs, waiting, waiting, pending_pass]
      cases l.pending <;> simp [List.infix_cons_iff, List.cons_prefix_cons]
    | marker name =>
      cases hp : l.pending with
      | none =>
        rw [addAll_marker hp, ih hxs, waiting, waiting, hp]
        rfl
      | some previous =>
        rw [addAll_marker_of_some hp, waiting, hp]
        refine iff_of_true ⟨_, rfl⟩ ⟨previous, name, ?_⟩
        exact (List.prefix_append [Line.marker previous, .marker name] xs).isInfix
    | comment text => exact absurd List.mem_cons_self (hls text)

/-- Lines without a marker leave alone where it leads, unless it is waiting. -/
theorem get?_table_of_notMem (h : l.addAll ls = .ok m) (hname : Line.marker name ∉ ls)
    (hp : l.pending ≠ some name) : m.table.get? name = l.markers.get? name := by
  induction ls generalizing l with
  | nil =>
    cases h
    exact get?_table_of_ne hp
  | cons x xs ih =>
    have hxs : Line.marker name ∉ xs := fun hm => hname (List.mem_cons_of_mem _ hm)
    cases x with
    | command c =>
      have hpass : l.pass.pending ≠ some name := by simp
      rw [ih h hxs hpass, get?_markers_pass_of_ne hp]
    | marker other =>
      obtain ⟨-, hrest⟩ := addAll_marker_eq_ok_iff.mp h
      have hother : (l.await other).pending ≠ some name := by
        rw [pending_await]
        rintro ⟨⟩
        exact hname List.mem_cons_self
      rw [ih hrest hxs hother, markers_await]
    | comment text => exact ih h hxs hp

/-- A waiting marker leads to the next command, or to the end if none comes. -/
theorem get?_table_of_pending (h : l.addAll ls = .ok m) (hname : Line.marker name ∉ ls)
    (hp : l.pending = some name) :
    m.table.get? name = some (if Line.commandsOf ls = [] then none else some l.size) := by
  induction ls with
  | nil =>
    cases h
    exact get?_table_self hp
  | cons x xs ih =>
    have hxs : Line.marker name ∉ xs := fun hm => hname (List.mem_cons_of_mem _ hm)
    cases x with
    | command c =>
      rw [addAll_command] at h
      rw [get?_table_of_notMem h hxs (by simp), get?_markers_pass_self hp]
      simp
    | marker other =>
      have hnone := (addAll_marker_eq_ok_iff.mp h).1
      rw [hp] at hnone
      cases hnone
    | comment text => exact ih h hxs

end Ledger

namespace Draft

def ledger (d : Draft) : Ledger :=
  { size := d.story.tree.size, pending := d.pending, markers := d.story.markers }

theorem ledger_addCommand (d : Draft) (parent : Option Nat) (c : Command) :
    (d.addCommand parent c).ledger = d.ledger.pass := by
  simp only [ledger, addCommand, Arena.size_add]
  rfl

theorem ledger_addMarker (d : Draft) (name : String) :
    (d.addMarker name).map ledger = d.ledger.add (.marker name) := by
  rw [addMarker, Ledger.add, ledger]
  cases d.pending <;> rfl

/-- Adding the elements of a level reads their lines in order, whatever their nesting. -/
theorem ledger_addOutline (parent last : Option Nat) (o : Outline) (d : Draft) :
    (addOutline parent last o d).map ledger = d.ledger.addAll o.lines := by
  induction o generalizing parent last d with
  | nil => rfl
  | line head rest ih =>
    cases head with
    | command c =>
      rw [Outline.lines_command, Ledger.addAll_command, ← ledger_addCommand d parent c]
      exact ih parent _ _
    | marker name =>
      rw [Outline.lines_marker, Ledger.addAll, ← ledger_addMarker, addOutline]
      cases d.addMarker name with
      | error e => rfl
      | ok m => exact ih parent none m
    | comment text => exact ih parent last d
  | block inner rest ihi ihr =>
    rw [Outline.lines_block, Ledger.addAll_append, ← ihi (last.or parent) none d, addOutline]
    cases addOutline (last.or parent) none inner d with
    | error e => rfl
    | ok m => exact ihr parent last m

theorem markers_finish (d : Draft) : d.finish.markers = d.ledger.table := by
  rw [finish, Ledger.table, ledger]
  cases d.pending <;> rfl

end Draft

variable {o : Outline} {s : Story}

/-- A story is built just if its lines can be read in order, and these give its table. -/
theorem map_markers_build (o : Outline) :
    (build o).map Story.markers = (Ledger.addAll {} o.lines).map Ledger.table := by
  have hread := Draft.ledger_addOutline none none o { story := { tree := .empty, markers := .empty } }
  change _ = Ledger.addAll {} o.lines at hread
  rw [← hread, build]
  cases Draft.addOutline none none o { story := { tree := .empty, markers := .empty } } with
  | error e => rfl
  | ok d => exact congrArg Except.ok d.markers_finish

theorem exists_ledger_of_build (h : build o = .ok s) :
    ∃ l, Ledger.addAll {} o.lines = .ok l ∧ s.markers = l.table := by
  have heq := map_markers_build o
  rw [h] at heq
  cases hl : Ledger.addAll {} o.lines with
  | error e => rw [hl] at heq; cases heq
  | ok l =>
    rw [hl] at heq
    exact ⟨l, rfl, Except.ok.inj heq⟩

/-- No story can be built just when a marker directly follows another in the order of the text. -/
theorem exists_build_error_iff (o : Outline) :
    (∃ e, build o = .error e) ↔
      ∃ previous next, [Line.marker previous, .marker next] <:+: o.lines := by
  have hread : (∃ e, build o = .error e) ↔ ∃ e, Ledger.addAll {} o.lines = .error e := by
    have heq := map_markers_build o
    cases hb : build o <;> cases hl : Ledger.addAll {} o.lines <;> simp_all [Except.map]
  rw [hread]
  exact Ledger.exists_error_iff o.comment_notMem_lines

/-- A marker leads to the first command after the last place where it stands, or to the end. -/
theorem get?_markers_of_build (h : build o = .ok s) {before after : List Line} {name : String}
    (ho : o.lines = before ++ .marker name :: after) (hname : Line.marker name ∉ after) :
    s.markers.get? name =
      some (if Line.commandsOf after = [] then none else some (Line.commandsOf before).length) := by
  obtain ⟨l, hl, hs⟩ := exists_ledger_of_build h
  rw [ho, Ledger.addAll_append] at hl
  cases hm : Ledger.addAll {} before with
  | error e => rw [hm] at hl; cases hl
  | ok m =>
    rw [hm] at hl
    have hsize := Ledger.size_addAll hm
    rw [Nat.zero_add] at hsize
    change m.addAll (.marker name :: after) = .ok l at hl
    cases hp : m.pending with
    | some previous =>
      rw [Ledger.addAll_marker_of_some hp] at hl
      cases hl
    | none =>
      rw [Ledger.addAll_marker hp] at hl
      rw [hs, Ledger.get?_table_of_pending hl hname rfl, Ledger.size_await, hsize]

/-- The names in the table are those of the markers of the script. -/
theorem get?_markers_isSome_iff (h : build o = .ok s) {name : String} :
    (s.markers.get? name).isSome ↔ name ∈ o.markers := by
  rw [Outline.mem_markers_iff]
  constructor
  · intro hsome
    refine Decidable.byContradiction fun hname => ?_
    obtain ⟨l, hl, hs⟩ := exists_ledger_of_build h
    rw [hs, Ledger.get?_table_of_notMem hl hname (by simp)] at hsome
    cases hsome
  · intro hname
    obtain ⟨before, after, ho, hlast⟩ := Outline.exists_last_marker (Outline.mem_markers_iff.mpr hname)
    rw [get?_markers_of_build h ho hlast]
    rfl

end Story
end BranchingDialogue
