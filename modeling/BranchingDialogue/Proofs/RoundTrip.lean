import BranchingDialogue.Proofs.Reading

/-! Reading and writing scripts undo each other. Writing what was read gives the text without its blank
lines; reading what was written gives the script, for exactly the canonical outlines. -/
namespace BranchingDialogue

namespace Text

/-- Lines as a text, the last one closed or not. No lines are the empty text either way. -/
def unlines (closed : Bool) (ls : List (List Char)) : List Char :=
  if ls = [] then [] else join '\n' ls ++ if closed then ['\n'] else []

/-- A text without its blank lines and with line feeds for all line endings. -/
def tidy (s : String) : String :=
  String.ofList (unlines (endsInBreak s.toList) (filledLines s))

/-- No line is white space only, the empty one after a final line ending excepted. -/
def NoBlankLines (s : String) : Prop :=
  (∀ l ∈ (pieces '\n' s.toList).dropLast, isBlankText l = false) ∧
    ∀ l ∈ (pieces '\n' s.toList).getLast?, isBlankText l = true → l = []

theorem lines_of_notMem {cs : List Char} (h : '\r' ∉ cs) : lines cs = pieces '\n' cs := by
  rw [lines, normalizeBreaks_of_notMem h]

theorem endsInBreak_iff {cs : List Char} (hne : cs ≠ []) (h : '\r' ∉ cs) :
    endsInBreak cs = true ↔ (lines cs).getLast? = some [] := by
  rw [lines_of_notMem h, getLast?_pieces_eq_nil hne, endsInBreak, normalizeBreaks_of_notMem h,
    beq_iff_eq]

/-- Where no line is blank all are kept, an empty last one excepted. -/
theorem filledLines_of_noBlankLines {s : String} {init : List (List Char)} {l : List Char}
    (hcr : '\r' ∉ s.toList) (hps : pieces '\n' s.toList = init ++ [l]) (h : NoBlankLines s) :
    filledLines s = init ++ if l = [] then [] else [l] := by
  obtain ⟨hinit, hlast⟩ := h
  rw [hps, List.dropLast_concat] at hinit
  rw [hps, List.getLast?_concat] at hlast
  have hkeep : init.filter (fun l => !isBlankText l) = init := by
    rw [List.filter_eq_self]
    intro m hm
    simp [hinit m hm]
  rw [filledLines, lines_of_notMem hcr, hps, List.filter_append, hkeep]
  congr 1
  by_cases hl : l = []
  · subst hl
    rfl
  · have hfill : isBlankText l = false := by
      rw [← Bool.not_eq_true]
      exact fun hb => hl (hlast l rfl hb)
    simp [hl, hfill]

/-- A text with line feeds and without blank lines is tidy already. -/
theorem tidy_eq_self {s : String} (hne : s ≠ "") (hcr : '\r' ∉ s.toList) (h : NoBlankLines s) :
    tidy s = s := by
  have hcs : s.toList ≠ [] := by simpa using hne
  obtain ⟨init, l, hps⟩ : ∃ init l, pieces '\n' s.toList = init ++ [l] :=
    ⟨_, _, (List.dropLast_concat_getLast (pieces_ne_nil '\n' s.toList)).symm⟩
  have hends := endsInBreak_iff hcs hcr
  have hjoin := join_pieces '\n' s.toList
  rw [lines_of_notMem hcr, hps, List.getLast?_concat, Option.some.injEq] at hends
  rw [hps] at hjoin
  rw [tidy, filledLines_of_noBlankLines hcr hps h]
  by_cases hl : l = []
  · have hinit : init ≠ [] := by
      rintro rfl
      rw [hl] at hjoin
      exact hcs hjoin.symm
    rw [hl, join_append_nil hinit] at hjoin
    rw [hends.mpr hl]
    simp [unlines, hl, hinit, hjoin]
  · have hopen : endsInBreak s.toList = false := by
      rw [← Bool.not_eq_true]
      exact fun hb => hl (hends.mp hb)
    rw [hopen]
    simp [unlines, hl, hjoin]

section
variable {ls : List (List Char)} {closed : Bool}

theorem notMem_unlines (h : ∀ l ∈ ls, OnOneLine l) : '\r' ∉ unlines closed ls := by
  intro hm
  unfold unlines at hm
  split at hm
  · cases hm
  · rcases List.mem_append.mp hm with hj | hc
    · rcases mem_join hj with he | ⟨l, hl, hmem⟩
      · cases he
      · exact absurd (h l hl '\r' hmem) (by decide)
    · cases closed <;> simp at hc

/-- Lines laid out as a text are the lines of that text. -/
theorem lines_unlines (hne : ls ≠ []) (h : ∀ l ∈ ls, OnOneLine l) :
    lines (unlines closed ls) = ls ++ if closed then [[]] else [] := by
  have hlf : ∀ l ∈ ls, '\n' ∉ l := fun l hl hm => absurd (h l hl '\n' hm) (by decide)
  rw [lines_of_notMem (notMem_unlines h), unlines, if_neg hne]
  cases closed with
  | true => exact pieces_join_append_sep hne hlf
  | false => simpa using pieces_join hne hlf

theorem endsInBreak_unlines (hne : ls ≠ []) (h : ∀ l ∈ ls, OnOneLine l) (hfill : ∀ l ∈ ls, l ≠ []) :
    endsInBreak (unlines closed ls) = closed := by
  have htext : unlines closed ls ≠ [] := by
    intro he
    have hlines : lines (unlines closed ls) = _ := lines_unlines hne h
    rw [he] at hlines
    cases ls with
    | nil => contradiction
    | cons l ls =>
      have hl : l = [] := by
        have hhead := congrArg List.head? hlines
        simpa [lines, normalizeBreaks, pieces] using hhead.symm
      exact hfill l (by simp) hl
  rw [Bool.eq_iff_iff, endsInBreak_iff htext (notMem_unlines h), lines_unlines hne h]
  cases closed with
  | true => simp
  | false =>
    simp only [Bool.false_eq_true, if_false, List.append_nil, iff_false]
    exact fun he => hfill [] (List.mem_of_getLast? he) rfl

end

end Text

namespace Document

theorem format_eq (d : Document) :
    d.format = String.ofList
      (Text.unlines (d.finalNewline ≠ some false) ((d.outline.rows 0).map Row.chars)) := by
  unfold format Text.unlines
  cases hrows : d.outline.rows 0 with
  | nil => rfl
  | cons r rs => by_cases hend : d.finalNewline = some false <;> simp [hend]

/-- What is written of a canonical outline is read as that outline. -/
theorem parse_format {o : Outline} (h : o.Canonical) (hne : o ≠ .nil) (final : Option Bool) :
    parse (format ⟨o, final⟩) = .ok ⟨o, some (final ≠ some false)⟩ := by
  have hrows : ∀ l ∈ (o.rows 0).map Row.chars, OnOneLine l ∧ Text.isBlankText l = false := by
    intro l hl
    obtain ⟨r, hr, rfl⟩ := List.mem_map.mp hl
    have hcanon := Outline.canonical_of_mem_rows h.2 r hr
    exact ⟨Row.onOneLine_chars hcanon, Row.isBlankText_chars hcanon⟩
  have hls : (o.rows 0).map Row.chars ≠ [] := by
    obtain ⟨head, rest, rfl⟩ := Outline.eq_line_of_not_blockLed hne h.1
    simp [Outline.rows]
  have hline := fun l hl => (hrows l hl).1
  have hfill : ∀ l ∈ (o.rows 0).map Row.chars, l ≠ [] := by
    rintro l hl rfl
    exact absurd (hrows [] hl).2 (by decide)
  rw [parse_eq_ok_iff, format_eq]
  refine ⟨h, ?_, ?_⟩
  · have hkeep : ((o.rows 0).map Row.chars).filter (fun l => !Text.isBlankText l) =
        (o.rows 0).map Row.chars := by
      rw [List.filter_eq_self]
      intro l hl
      simp [(hrows l hl).2]
    have hblank : Text.isBlankText [] = true := rfl
    rw [Text.filledLines, String.toList_ofList, Text.lines_unlines hls hline, List.filter_append,
      hkeep]
    by_cases hf : final = some false <;> simp [hf, hblank]
  · rw [String.toList_ofList, Text.endsInBreak_unlines hls hline hfill]

/-- A script that was read is written as its text without the blank lines, and so as the very text if
that has none and ends its lines by line feeds. -/
theorem format_of_parse {s : String} {d : Document} (h : parse s = .ok d) :
    d.format = Text.tidy s ∧
      (s ≠ "" → '\r' ∉ s.toList → Text.NoBlankLines s → d.format = s) := by
  obtain ⟨-, hfilled, hend⟩ := parse_eq_ok_iff.mp h
  have htidy : d.format = Text.tidy s := by
    rw [format_eq, Text.tidy, hfilled, hend]
    simp
  exact ⟨htidy, fun hne hcr hblank => htidy.trans (Text.tidy_eq_self hne hcr hblank)⟩

theorem format_of_parse_blank_lines :
    (∃ d, parse "%START%\r\n\n  \nA |SAY| hi\r    // x \n" = .ok d ∧
      d.format = "%START%\nA |SAY| hi\n    // x \n") ∧
    ∃ d, parse "A |SAY| hi\n    // x \n" = .ok d ∧
      Text.NoBlankLines "A |SAY| hi\n    // x \n" ∧ d.format = "A |SAY| hi\n    // x \n" := by
  have hblank : Text.NoBlankLines "A |SAY| hi\n    // x \n" := ⟨by decide, by decide⟩
  obtain ⟨d, hd⟩ : ∃ d, parse "%START%\r\n\n  \nA |SAY| hi\r    // x \n" = .ok d := ⟨_, rfl⟩
  obtain ⟨e, he⟩ : ∃ e, parse "A |SAY| hi\n    // x \n" = .ok e := ⟨_, rfl⟩
  refine ⟨⟨d, hd, ?_⟩, ⟨e, he, hblank, ?_⟩⟩
  · exact (format_of_parse hd).1.trans (by cbv)
  · exact (format_of_parse he).2 (by decide) (by decide) hblank

/-- The outlines that can be read are the canonical ones, and unless it is empty each of them is what
its own written form is read as. -/
theorem parse_format_of_canonical (o : Outline) :
    (o.Canonical ↔ ∃ s d, parse s = .ok d ∧ d.outline = o) ∧
      (o.Canonical → o ≠ .nil → ∀ final : Option Bool,
        parse (format ⟨o, final⟩) = .ok ⟨o, some (final ≠ some false)⟩) := by
  refine ⟨⟨fun h => ?_, ?_⟩, fun h hne final => parse_format h hne final⟩
  · by_cases hne : o = .nil
    · exact ⟨"", ⟨.nil, some false⟩, rfl, hne.symm⟩
    · exact ⟨_, _, parse_format h hne none, rfl⟩
  · rintro ⟨s, d, h, rfl⟩
    exact (parse_eq_ok_iff.mp h).1

theorem parse_format_of_canonical_block : ∃ o : Outline,
    o = .line (.command { name := "CHOICE", speaker := some "%A", text := some "50" })
      (.block (.line (.comment " x ") .nil) (.line (.marker "END") .nil)) ∧
    o.Canonical ∧ parse (format ⟨o, none⟩) = .ok ⟨o, some true⟩ := by
  refine ⟨_, rfl, ?_⟩
  have hcanon := (parse_format_of_canonical _).1.mpr
    ⟨"%A |CHOICE| 50\n    // x \n%END%\n", _, rfl, rfl⟩
  exact ⟨hcanon, (parse_format_of_canonical _).2 hcanon (by decide) none⟩

end Document
end BranchingDialogue
