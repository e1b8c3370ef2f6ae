import BranchingDialogue.Proofs.Nesting
import BranchingDialogue.Script.Document

/-! Which texts are read, and as what: a script is read exactly from those texts whose lines, blank
ones left out, are the written rows of its outline. -/
namespace BranchingDialogue

/-- The lines of a text that hold more than white space. -/
def Text.filledLines (s : String) : List (List Char) :=
  (Text.lines s.toList).filter fun l => !Text.isBlankText l

namespace Row

theorem splitIndent_append {cs indent body : List Char} (h : splitIndent cs = (indent, body)) :
    cs = indent ++ body ∧ ∀ c ∈ indent, c = ' ' ∨ c = '\t' := by
  unfold splitIndent at h
  split at h
  · cases h
    simp
  · cases h
    refine ⟨(List.takeWhile_append_dropWhile).symm, ?_⟩
    intro c hc
    simpa using List.all_eq_true.mp List.all_takeWhile c hc

theorem onOneLine_chars {r : Row} (h : r.line.Canonical) : OnOneLine r.chars := by
  rw [chars, onOneLine_append]
  refine ⟨fun c hc => ?_, h.onOneLine⟩
  rw [List.eq_of_mem_replicate hc]
  decide

theorem isBlankText_chars {r : Row} (h : r.line.Canonical) : Text.isBlankText r.chars = false := by
  obtain ⟨a, ha, hblank⟩ := h.spelt.head?_chars
  obtain ⟨as, has⟩ := List.head?_eq_some_iff.mp ha
  simp [chars, Text.isBlankText, has, hblank]

/-- Indentation ends where a line begins. -/
theorem splitIndent_chars {r : Row} (h : r.line.Canonical) :
    splitIndent r.chars = (List.replicate (indentWidth * r.level) ' ', r.line.chars) := by
  have hline : r.chars.any Text.isLineBreak = false := by
    simpa [OnOneLine] using onOneLine_chars h
  obtain ⟨a, ha, hblank⟩ := h.spelt.head?_chars
  obtain ⟨as, has⟩ := List.head?_eq_some_iff.mp ha
  have hstop : (a == ' ' || a == '\t') = false := by
    cases hc : a == ' ' || a == '\t' with
    | false => rfl
    | true =>
      have hor : a = ' ' ∨ a = '\t' := by simpa using hc
      rcases hor with rfl | rfl <;> exact absurd hblank (by decide)
  have hindent : ∀ c ∈ List.replicate (indentWidth * r.level) ' ', (c == ' ' || c == '\t') = true := by
    intro c hc
    rw [List.eq_of_mem_replicate hc]
    rfl
  rw [splitIndent, hline, if_neg (by simp), chars, has]
  simp only [Prod.mk.injEq]
  constructor
  · rw [List.takeWhile_append_of_pos hindent, List.takeWhile_cons_of_neg (by simp [hstop]),
      List.append_nil]
  · rw [List.dropWhile_append_of_pos hindent, List.dropWhile_cons_of_neg (by simp [hstop])]

/-- What consists of spaces up to tabs is the indentation of a level. -/
theorem eq_replicate_of_indent {indent : List Char} (hblank : ∀ c ∈ indent, c = ' ' ∨ c = '\t')
    (htab : '\t' ∉ indent) (hmod : indent.length % indentWidth = 0) :
    indent = List.replicate (indentWidth * (indent.length / indentWidth)) ' ' := by
  rw [List.eq_replicate_iff]
  refine ⟨by rw [Nat.mul_div_cancel' (Nat.dvd_of_mod_eq_zero hmod)], fun c hc => ?_⟩
  rcases hblank c hc with rfl | rfl
  · rfl
  · contradiction

end Row

namespace Levels

variable {ls ms : Levels} {cs : List Char} {r : Row} {rs : List Row} {previous : Option Nat} {number : Nat}
  {lines : List (List Char)}

theorem read_chars (hline : r.line.Canonical) (hr : r.level ≤ ls.deepest) :
    ls.read r.chars = .ok (ls.place r) := by
  have hlength : (List.replicate (Row.indentWidth * r.level) ' ').length = Row.indentWidth * r.level :=
    List.length_replicate
  have hdiv : Row.indentWidth * r.level / Row.indentWidth = r.level :=
    Nat.mul_div_cancel_left r.level (by decide)
  rw [read, Row.splitIndent_chars hline]
  dsimp only
  rw [if_neg (by simp), hlength, if_neg (by simp), hdiv, turnTo_eq_ok_iff.mpr ⟨hr, rfl⟩,
    Line.read_eq_ok_iff.mpr ⟨hline, rfl⟩]
  rfl

/-- A line is read if it is the written form of a row that can stand there, and that row is added. -/
theorem read_eq_ok_iff : ls.read cs = .ok ms ↔
    ∃ r : Row, r.line.Canonical ∧ cs = r.chars ∧ r.level ≤ ls.deepest ∧ ms = ls.place r := by
  constructor
  · intro h
    obtain ⟨⟨indent, body⟩, hsplit⟩ : ∃ p, Row.splitIndent cs = p := ⟨_, rfl⟩
    simp only [read, hsplit] at h
    split at h
    · cases h
    next htab =>
      split at h
      · cases h
      next hmod =>
        cases hturn : ls.turnTo (indent.length / Row.indentWidth) with
        | error e => rw [hturn] at h; cases h
        | ok turned =>
          cases hline : Line.read body with
          | error e => rw [hturn, hline] at h; cases h
          | ok line =>
            rw [hturn, hline] at h
            cases h
            obtain ⟨hle, rfl⟩ := turnTo_eq_ok_iff.mp hturn
            obtain ⟨hcanon, rfl⟩ := Line.read_eq_ok_iff.mp hline
            obtain ⟨rfl, hblank⟩ := Row.splitIndent_append hsplit
            refine ⟨⟨indent.length / Row.indentWidth, line⟩, hcanon, ?_, hle, rfl⟩
            rw [Row.chars, ← Row.eq_replicate_of_indent hblank htab (Decidable.not_not.mp hmod)]
  · rintro ⟨r, hline, rfl, hr, rfl⟩
    exact read_chars hline hr

/-- Rows are read line by line, blank lines left out, each beneath the one before. -/
theorem readAll_eq_ok_iff (hls : ls.deepest = Row.deepest previous) :
    readAll ls number lines = .ok ms ↔
      ∃ rs, Row.Stepwise previous rs ∧ (∀ r ∈ rs, r.line.Canonical) ∧
        lines.filter (fun l => !Text.isBlankText l) = rs.map Row.chars ∧ ms = rs.foldl place ls := by
  induction lines generalizing ls previous number with
  | nil =>
    rw [readAll, Except.ok.injEq]
    constructor
    · rintro rfl
      exact ⟨[], trivial, nofun, rfl, rfl⟩
    · rintro ⟨rs, -, -, hmap, rfl⟩
      rw [List.map_eq_nil_iff.mp hmap.symm]
      rfl
  | cons l lines ih =>
    by_cases hblank : Text.isBlankText l = true
    · rw [readAll, if_pos hblank, ih hls]
      simp [hblank]
    · rw [readAll, if_neg hblank, List.filter_cons_of_pos (by simpa using hblank)]
      constructor
      · intro h
        cases hr : ls.read l with
        | error fault => rw [hr] at h; cases h
        | ok ls' =>
          rw [hr] at h
          obtain ⟨r, hline, rfl, hle, rfl⟩ := read_eq_ok_iff.mp hr
          obtain ⟨rs, hsteps, hall, hmap, rfl⟩ := (ih (deepest_place hle)).mp h
          exact ⟨r :: rs, ⟨hls ▸ hle, hsteps⟩, List.forall_mem_cons.mpr ⟨hline, hall⟩, by rw [hmap]; rfl, rfl⟩
      · rintro ⟨rs, hsteps, hall, hmap, rfl⟩
        cases rs with
        | nil => cases hmap
        | cons r rs =>
          obtain ⟨rfl, hrest⟩ := List.cons.inj hmap
          obtain ⟨hline, hall⟩ := List.forall_mem_cons.mp hall
          have hle : r.level ≤ ls.deepest := hls ▸ hsteps.1
          rw [read_chars hline hle]
          exact (ih (deepest_place hle)).mpr ⟨rs, hsteps.2, hall, hrest, rfl⟩

theorem readAll_empty_eq_ok_iff : readAll {} 1 lines = .ok ms ↔
    ∃ rs, Row.Stepwise none rs ∧ (∀ r ∈ rs, r.line.Canonical) ∧
      lines.filter (fun l => !Text.isBlankText l) = rs.map Row.chars ∧ ms = rs.foldl place {} :=
  readAll_eq_ok_iff rfl

end Levels

namespace Document

/-- A text is read line by line, and what was read is closed at the end. -/
theorem parse_eq_map (s : String) :
    parse s = (Levels.readAll {} 1 (Text.lines s.toList)).map fun ls =>
      { outline := ls.outline, finalNewline := some (Text.endsInBreak s.toList) } := by
  rw [parse]
  cases Levels.readAll {} 1 (Text.lines s.toList) <;> rfl

/-- The scripts that can be read are those with a canonical outline, each from the texts that hold its
rows in order. -/
theorem parse_eq_ok_iff {s : String} {d : Document} :
    parse s = .ok d ↔
      d.outline.Canonical ∧ Text.filledLines s = (d.outline.rows 0).map Row.chars ∧
        d.finalNewline = some (Text.endsInBreak s.toList) := by
  rw [parse_eq_map]
  constructor
  · intro h
    cases hread : Levels.readAll {} 1 (Text.lines s.toList) with
    | error e => rw [hread] at h; cases h
    | ok ls =>
      rw [hread] at h
      cases h
      obtain ⟨rs, hsteps, hall, hmap, rfl⟩ := Levels.readAll_empty_eq_ok_iff.mp hread
      refine ⟨Outline.canonical_ofRows hsteps hall, ?_, rfl⟩
      change Text.filledLines s = ((Outline.ofRows rs).rows 0).map Row.chars
      rw [Outline.rows_ofRows hsteps]
      exact hmap
  · rintro ⟨hcanon, hmap, hend⟩
    have hread := Levels.readAll_empty_eq_ok_iff.mpr
      ⟨d.outline.rows 0, Outline.stepwise_rows hcanon, Outline.canonical_of_mem_rows hcanon.2, hmap, rfl⟩
    rw [Text.filledLines] at hmap
    rw [hread]
    change Except.ok (Document.mk (Outline.ofRows (d.outline.rows 0)) _) = _
    rw [Outline.ofRows_rows hcanon, ← hend]

end Document
end BranchingDialogue
