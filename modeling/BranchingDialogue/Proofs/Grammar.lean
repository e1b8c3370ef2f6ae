import BranchingDialogue.Proofs.Reading

/-! The grammar of script texts, line by line, and exactly how far reading keeps to it: a grammatical
text is refused when a line break character of another kind stands inside a line, or when a command
could be taken for a marker by its first and its last character. -/
namespace BranchingDialogue

/-- A line without its indentation: a comment, a marker, or a command whose speaker and text, where it
has them, are set off by one space. -/
inductive IsBody : List Char → Prop
  | comment (text : List Char) : IsBody ('/' :: '/' :: text)
  | marker {name : List Char} (hname : isName name = true) : IsBody ('%' :: (name ++ ['%']))
  | command {speaker text : Option (List Char)} {name : List Char}
      (hspeaker : ∀ s ∈ speaker, IsPart s) (hname : isName name = true)
      (htext : ∀ t ∈ text, IsPart t) :
      IsBody ((speaker.map (· ++ [' '])).getD [] ++
        '|' :: (name ++ '|' :: (text.map (' ' :: ·)).getD []))

/-- A line of a level: four spaces for each level, and a body. -/
def IsRow (level : Nat) (l : List Char) : Prop :=
  ∃ body, l = List.replicate (4 * level) ' ' ++ body ∧
    (body.head? ≠ some ' ' ∧ body.head? ≠ some '\t') ∧ IsBody body

/-- Lines of which each is at most one level deeper than the one before. -/
def AreRows : Option Nat → List (List Char) → Prop
  | _, [] => True
  | previous, l :: ls =>
    ∃ level, level ≤ Row.deepest previous ∧ IsRow level l ∧ AreRows (some level) ls

/-- The texts of the grammar: all lines but the blank ones are rows, the first of level zero. -/
def Grammatical (s : String) : Prop := AreRows none (Text.filledLines s)

/-- A line with no line break character inside, and no marker by its ends alone. -/
structure IsPlain (l : List Char) : Prop where
  onOneLine : OnOneLine l
  marked : ∀ level inner, '%' ∉ inner →
    l = List.replicate (4 * level) ' ' ++ '%' :: (inner ++ ['%']) → isName inner = true

theorem isBody_chars {l : Line} (h : l.Spelt) : IsBody l.chars := by
  cases l with
  | comment text => exact .comment text.toList
  | marker name => exact .marker h
  | command c =>
    have hbody : IsBody ((((c.speaker.map String.toList).map (· ++ [' '])).getD []) ++
        '|' :: (c.name.toList ++ '|' :: ((c.text.map String.toList).map (' ' :: ·)).getD [])) :=
      .command (by simpa using h.speaker) h.name (by simpa using h.text)
    simpa [Line.chars, Command.chars, Function.comp_def] using hbody

/-- A plain body is the written form of a line that reading knows, not always of the one that the
grammar finds in it: a command that starts with two slashes is read as a comment. -/
theorem exists_canonical_of_isBody {body : List Char} (h : IsBody body) (hline : OnOneLine body)
    (hmarked : ∀ inner, '%' ∉ inner → body = '%' :: (inner ++ ['%']) → isName inner = true) :
    ∃ l : Line, l.Canonical ∧ body = l.chars := by
  cases h with
  | comment text =>
    refine ⟨.comment (String.ofList text), ?_, by simp [Line.chars]⟩
    simpa [Line.Canonical] using (onOneLine_cons.mp (onOneLine_cons.mp hline).2).2
  | marker hname => exact ⟨.marker (String.ofList _), by simpa [Line.Canonical], by simp [Line.chars]⟩
  | @command speaker text name hspeaker hname htext =>
    obtain ⟨c, hc⟩ : ∃ c : Command, c = ⟨String.ofList name, speaker.map String.ofList,
        text.map String.ofList⟩ := ⟨_, rfl⟩
    have hbody : (speaker.map (· ++ [' '])).getD [] ++
        '|' :: (name ++ '|' :: (text.map (' ' :: ·)).getD []) = c.chars := by
      subst hc
      cases speaker <;> cases text <;> simp [Command.chars]
    have hspelt : c.Spelt := by
      subst hc
      exact ⟨by simpa using hname, by simpa using hspeaker, by simpa using htext⟩
    rw [hbody] at hline hmarked ⊢
    by_cases hslash : ['/', '/'] <+: c.chars
    · obtain ⟨rest, hrest⟩ := hslash
      rw [← hrest] at hline ⊢
      refine ⟨.comment (String.ofList rest), ?_, by simp [Line.chars]⟩
      simpa [Line.Canonical] using (onOneLine_append.mp hline).2
    · have hnot : ¬ IsMarked c.chars := by
        rintro ⟨inner, hp, he⟩
        have hbar : '|' ∈ c.chars := by simp [Command.chars_eq]
        have hinner : '|' ∈ inner := by simpa [he] using hbar
        exact notMem_of_isName (hmarked inner hp he) (by decide) hinner
      obtain ⟨hs, ht⟩ := hspelt.onOneLine_iff.mp hline
      exact ⟨.command c, ⟨hspelt, hs, ht, hslash, hnot⟩, rfl⟩

theorem isRow_chars {r : Row} (h : r.line.Spelt) : IsRow r.level r.chars := by
  obtain ⟨a, ha, hblank⟩ := h.head?_chars
  refine ⟨r.line.chars, rfl, ?_, isBody_chars h⟩
  rw [Option.mem_def] at ha
  rw [ha]
  constructor
  · rintro he
    cases he
    exact absurd hblank (by decide)
  · rintro he
    cases he
    exact absurd hblank (by decide)

theorem dropWhile_replicate_append {a : Char} (ha : a ≠ ' ') (n : Nat) (as : List Char) :
    (List.replicate n ' ' ++ a :: as).dropWhile (· == ' ') = a :: as := by
  rw [List.dropWhile_append_of_pos (by simp), List.dropWhile_cons_of_neg (by simpa using ha)]

theorem isPlain_chars {r : Row} (h : r.line.Canonical) : IsPlain r.chars := by
  refine ⟨Row.onOneLine_chars h, ?_⟩
  intro level inner hp he
  obtain ⟨a, ha, hblank⟩ := h.spelt.head?_chars
  obtain ⟨as, has⟩ := List.head?_eq_some_iff.mp ha
  have hspace : a ≠ ' ' := by
    rintro rfl
    exact absurd hblank (by decide)
  have hchars : r.line.chars = '%' :: (inner ++ ['%']) := by
    have hstrip := congrArg (List.dropWhile (· == ' ')) he
    rw [Row.chars, has, dropWhile_replicate_append hspace,
      dropWhile_replicate_append (by decide)] at hstrip
    rw [has, hstrip]
  cases hl : r.line with
  | comment text => simp [hl, Line.chars] at hchars
  | marker name =>
    have hname : name.toList = inner := by simpa [hl, Line.chars] using hchars
    rw [hl] at h
    exact hname ▸ h
  | command c =>
    rw [hl] at h hchars
    exact absurd ⟨inner, hp, hchars⟩ h.not_marked

/-- The rows of the grammar that are plain are the rows that reading knows. -/
theorem areRows_and_isPlain_iff {previous : Option Nat} {ls : List (List Char)} :
    (AreRows previous ls ∧ ∀ l ∈ ls, IsPlain l) ↔
      ∃ rs, Row.Stepwise previous rs ∧ (∀ r ∈ rs, r.line.Canonical) ∧ ls = rs.map Row.chars := by
  constructor
  · rintro ⟨hrows, hplain⟩
    induction ls generalizing previous with
    | nil => exact ⟨[], trivial, by simp, rfl⟩
    | cons l ls ih =>
      obtain ⟨level, hle, ⟨body, rfl, -, hbody⟩, hrest⟩ := hrows
      have hl := hplain (List.replicate (4 * level) ' ' ++ body) (by simp)
      obtain ⟨line, hcanon, rfl⟩ := exists_canonical_of_isBody hbody
        (onOneLine_append.mp hl.onOneLine).2
        (fun inner hp he => hl.marked level inner hp (by rw [he]))
      obtain ⟨rs, hsteps, hall, rfl⟩ := ih hrest (fun m hm => hplain m (by simp [hm]))
      exact ⟨⟨level, line⟩ :: rs, ⟨hle, hsteps⟩, by simpa [hcanon] using hall, rfl⟩
  · rintro ⟨rs, hsteps, hall, rfl⟩
    constructor
    · induction rs generalizing previous with
      | nil => trivial
      | cons r rs ih =>
        have hr := isRow_chars (hall r (by simp)).spelt
        exact ⟨r.level, hsteps.1, hr, ih hsteps.2 (fun q hq => hall q (by simp [hq]))⟩
    · intro l hl
      obtain ⟨r, hr, rfl⟩ := List.mem_map.mp hl
      exact isPlain_chars (hall r hr)

namespace Document

theorem exists_parse_iff {s : String} :
    (∃ d, parse s = .ok d) ↔ Grammatical s ∧ ∀ l ∈ Text.filledLines s, IsPlain l := by
  rw [Grammatical, areRows_and_isPlain_iff]
  constructor
  · rintro ⟨d, h⟩
    obtain ⟨hcanon, hfilled, -⟩ := parse_eq_ok_iff.mp h
    exact ⟨d.outline.rows 0, Outline.stepwise_rows hcanon,
      Outline.canonical_of_mem_rows hcanon.2, hfilled⟩
  · rintro ⟨rs, hsteps, hall, hfilled⟩
    refine ⟨⟨.ofRows rs, some (Text.endsInBreak s.toList)⟩, parse_eq_ok_iff.mpr ⟨?_, ?_, rfl⟩⟩
    · exact Outline.canonical_ofRows hsteps hall
    · rw [Outline.rows_ofRows hsteps, hfilled]

/-- A text is read exactly when it is grammatical with plain lines only. So reading keeps to the
grammar just for the texts that are not grammatical, or have none but plain lines. -/
theorem parse_iff_grammatical (s : String) :
    ((∃ d, parse s = .ok d) ↔ Grammatical s ∧ ∀ l ∈ Text.filledLines s, IsPlain l) ∧
      (((∃ d, parse s = .ok d) ↔ Grammatical s) ↔
        (Grammatical s → ∀ l ∈ Text.filledLines s, IsPlain l)) := by
  refine ⟨exists_parse_iff, ?_⟩
  rw [exists_parse_iff]
  constructor
  · exact fun h hg => (h.mpr hg).2
  · exact fun h => ⟨fun hg => hg.1, fun hg => ⟨hg, h hg⟩⟩

/-- A comment with a line separator inside and a command between percent signs are grammatical, and
are refused. -/
theorem grammatical_and_not_parse :
    (Grammatical "//a\u2028b" ∧ ¬ ∃ d, parse "//a\u2028b" = .ok d) ∧
      (Grammatical "%A |SAY| b%" ∧ ¬ ∃ d, parse "%A |SAY| b%" = .ok d) := by
  refine ⟨⟨?_, ?_⟩, ⟨?_, ?_⟩⟩
  · exact ⟨0, Nat.le_refl 0, ⟨_, rfl, by decide, .comment ['a', '\u2028', 'b']⟩, trivial⟩
  · rintro ⟨d, h⟩
    cases h
  · have hspeaker : ∀ t ∈ some ['%', 'A'], IsPart t := by
      rintro t ⟨⟩
      exact ((isPhrase_iff (by decide)).mp rfl).1
    have htext : ∀ t ∈ some ['b', '%'], IsPart t := by
      rintro t ⟨⟩
      exact ((isPhrase_iff (by decide)).mp rfl).1
    have hname : isName ['S', 'A', 'Y'] = true := by decide
    exact ⟨0, Nat.le_refl 0, ⟨_, rfl, by decide, .command hspeaker hname htext⟩, trivial⟩
  · rintro ⟨d, h⟩
    cases h

end Document

end BranchingDialogue
