import BranchingDialogue.Proofs.RoundTrip
import Mathlib.Data.List.Basic

/-! Where reading stops. A text that is refused is refused at its first line that is at fault, whatever comes
after it, and blank lines change nothing but the number of that line. -/
namespace BranchingDialogue

namespace Text

theorem notMem_normalizeBreaks (cs : List Char) : '\r' ∉ normalizeBreaks cs := by
  fun_induction normalizeBreaks cs with
  | case1 => simp
  | case2 cs ih => simpa using ih
  | case3 cs _ ih => simpa using ih
  | case4 c cs _ hc ih =>
    have hne : '\r' ≠ c := fun h => hc h.symm
    simpa [hne] using ih

theorem mem_join_of_mem {sep c : Char} {p : List Char} {ps : List (List Char)} (hp : p ∈ ps) (hc : c ∈ p) :
    c ∈ join sep ps := by
  induction ps with
  | nil => cases hp
  | cons q ps ih =>
    cases ps with
    | nil => exact List.mem_singleton.mp hp ▸ hc
    | cons r rs =>
      rw [join, List.mem_append, List.mem_cons]
      rcases List.mem_cons.mp hp with rfl | hp
      · exact .inl hc
      · exact .inr (.inr (ih hp))

/-- No line holds a line ending. -/
theorem notMem_of_mem_lines {cs l : List Char} (h : l ∈ lines cs) : '\n' ∉ l ∧ '\r' ∉ l := by
  refine ⟨notMem_of_mem_pieces h, fun hcr => notMem_normalizeBreaks cs ?_⟩
  rw [← join_pieces '\n' (normalizeBreaks cs)]
  exact mem_join_of_mem h hcr

/-- Lines joined by line feeds are the lines of the text that this gives. -/
theorem lines_join {ls : List (List Char)} (hne : ls ≠ []) (h : ∀ l ∈ ls, '\n' ∉ l ∧ '\r' ∉ l) :
    lines (join '\n' ls) = ls := by
  have hcr : '\r' ∉ join '\n' ls := by
    intro hm
    rcases mem_join hm with he | ⟨l, hl, hm⟩
    · cases he
    · exact (h l hl).2 hm
  rw [lines_of_notMem hcr, pieces_join hne fun l hl => (h l hl).1]

end Text

namespace ParseFailure

def unnumbered (e : ParseFailure) : Fault × String := (e.fault, e.text)

theorem map_eq_error_iff {α β : Type} {f : α → β} {x : Except ParseFailure α} {e : ParseFailure} :
    x.map f = .error e ↔ x = .error e := by
  cases x with
  | ok a => exact iff_of_false nofun nofun
  | error e' =>
    constructor
    · intro h
      cases h
      rfl
    · intro h
      cases h
      rfl

end ParseFailure

namespace Levels

variable {ls : Levels} {number : Nat} {l : List Char} {lines : List (List Char)} {fault : Fault}
  {next : Levels} {e : ParseFailure}

theorem readAll_blank (h : Text.isBlankText l = true) :
    readAll ls number (l :: lines) = readAll ls (number + 1) lines := by
  rw [readAll, if_pos h]

theorem readAll_of_error (h : Text.isBlankText l = false) (hl : ls.read l = .error fault) :
    readAll ls number (l :: lines) = .error { fault, line := number, text := String.ofList l } := by
  rw [readAll, if_neg (by simp [h]), hl]

theorem readAll_of_ok (h : Text.isBlankText l = false) (hl : ls.read l = .ok next) :
    readAll ls number (l :: lines) = readAll next (number + 1) lines := by
  rw [readAll, if_neg (by simp [h]), hl]

/-- A failure is not mended by what comes after. -/
theorem readAll_append_of_error (h : readAll ls number lines = .error e) (more : List (List Char)) :
    readAll ls number (lines ++ more) = .error e := by
  induction lines generalizing ls number with
  | nil => cases h
  | cons l lines ih =>
    rw [List.cons_append]
    cases hblank : Text.isBlankText l with
    | true =>
      rw [readAll_blank hblank] at h ⊢
      exact ih h
    | false =>
      cases hl : ls.read l with
      | error fault =>
        rw [readAll_of_error hblank hl] at h ⊢
        exact h
      | ok next =>
        rw [readAll_of_ok hblank hl] at h ⊢
        exact ih h

/-- A failure is at a line that is not blank, and the lines before that one can be read. -/
theorem exists_of_readAll_eq_error (h : readAll ls number lines = .error e) :
    ∃ before l after, lines = before ++ l :: after ∧ Text.isBlankText l = false ∧
      e.line = .ofNat (number + before.length) ∧ e.text = String.ofList l ∧
      (∃ ms, readAll ls number before = .ok ms) ∧
      readAll ls number (before ++ [l]) = .error e := by
  induction lines generalizing ls number with
  | nil => cases h
  | cons l lines ih =>
    cases hblank : Text.isBlankText l with
    | true =>
      rw [readAll_blank hblank] at h
      obtain ⟨before, bad, after, rfl, hbad, hline, htext, hread, hfail⟩ := ih h
      refine ⟨l :: before, bad, after, rfl, hbad, ?_, htext, ?_, ?_⟩
      · rw [hline, List.length_cons, Nat.add_assoc, Nat.add_comm 1]
      · rwa [readAll_blank hblank]
      · rwa [List.cons_append, readAll_blank hblank]
    | false =>
      cases hl : ls.read l with
      | error fault =>
        rw [readAll_of_error hblank hl] at h
        cases h
        exact ⟨[], l, lines, rfl, hblank, rfl, rfl, ⟨ls, rfl⟩, readAll_of_error hblank hl⟩
      | ok next =>
        rw [readAll_of_ok hblank hl] at h
        obtain ⟨before, bad, after, rfl, hbad, hline, htext, hread, hfail⟩ := ih h
        refine ⟨l :: before, bad, after, rfl, hbad, ?_, htext, ?_, ?_⟩
        · rw [hline, List.length_cons, Nat.add_assoc, Nat.add_comm 1]
        · rwa [readAll_of_ok hblank hl]
        · rwa [List.cons_append, readAll_of_ok hblank hl]

/-- Neither blank lines nor the count of lines have a say in what is read, or in what is refused. -/
theorem mapError_readAll (ls : Levels) (m n : Nat) (lines : List (List Char)) :
    (readAll ls m lines).mapError ParseFailure.unnumbered =
      (readAll ls n (lines.filter fun l => !Text.isBlankText l)).mapError ParseFailure.unnumbered := by
  induction lines generalizing ls m n with
  | nil => rfl
  | cons l lines ih =>
    cases hblank : Text.isBlankText l with
    | true =>
      rw [readAll_blank hblank, List.filter_cons_of_neg (by simp [hblank])]
      exact ih ls (m + 1) n
    | false =>
      rw [List.filter_cons_of_pos (by simp [hblank])]
      cases hl : ls.read l with
      | error fault =>
        rw [readAll_of_error hblank hl, readAll_of_error hblank hl]
        rfl
      | ok next =>
        rw [readAll_of_ok hblank hl, readAll_of_ok hblank hl]
        exact ih next (m + 1) (n + 1)

end Levels

namespace Document

variable {s : String} {e : ParseFailure}

theorem parse_eq_error_iff :
    parse s = .error e ↔ Levels.readAll {} 1 (Text.lines s.toList) = .error e := by
  rw [parse_eq_map, ParseFailure.map_eq_error_iff]

theorem exists_parse_of_readAll (h : ∃ ls, Levels.readAll {} 1 (Text.lines s.toList) = .ok ls) :
    ∃ d, parse s = .ok d := by
  obtain ⟨ls, hls⟩ := h
  rw [parse_eq_map, hls]
  exact ⟨_, rfl⟩

/-- Reading a text fails at line `n`, counted from one: the first line at fault, as it stands, for the lines
before it can be read, and the lines after it have no say. -/
structure StopsAt (s : String) (e : ParseFailure) (n : Nat) : Prop where
  pos : 1 ≤ n
  le_length : n ≤ (Text.lines s.toList).length
  line : e.line = .ofNat n
  text : (Text.lines s.toList)[n - 1]? = some e.text.toList
  filled : Text.isBlankText e.text.toList = false
  before : ∃ d, parse (String.ofList (Text.join '\n' ((Text.lines s.toList).take (n - 1)))) = .ok d
  whatever : ∀ s', (Text.lines s'.toList).take n = (Text.lines s.toList).take n → parse s' = .error e

/-- Two texts are read as the same script, or are refused for the same fault of the same line. -/
def ReadAlike (s s' : String) : Prop :=
  (∃ d d', parse s = .ok d ∧ parse s' = .ok d' ∧ d.outline = d'.outline) ∨
    ∃ e e', parse s = .error e ∧ parse s' = .error e' ∧ e.fault = e'.fault ∧ e.text = e'.text

/-- The lines before one of a text, as a text of their own. -/
theorem exists_parse_join {before rest : List (List Char)} (hlines : Text.lines s.toList = before ++ rest)
    (h : ∃ ls, Levels.readAll {} 1 before = .ok ls) :
    ∃ d, parse (String.ofList (Text.join '\n' before)) = .ok d := by
  apply exists_parse_of_readAll
  rw [String.toList_ofList]
  by_cases hne : before = []
  · subst hne
    exact ⟨{}, rfl⟩
  · rwa [Text.lines_join hne fun l hl =>
      Text.notMem_of_mem_lines (hlines ▸ List.mem_append_left rest hl)]

theorem exists_stopsAt (h : parse s = .error e) : ∃ n, StopsAt s e n := by
  obtain ⟨before, l, after, hlines, hfilled, hline, htext, hread, hfail⟩ :=
    Levels.exists_of_readAll_eq_error (parse_eq_error_iff.mp h)
  have htake : (Text.lines s.toList).take (before.length + 1) = before ++ [l] := by
    rw [hlines, List.append_cons]
    apply List.take_left'
    simp
  refine ⟨before.length + 1, ?_, ?_, ?_, ?_, ?_, ?_, ?_⟩
  · exact Nat.le_add_left 1 _
  · rw [hlines, List.length_append, List.length_cons]
    omega
  · rw [hline, Nat.add_comm]
  · rw [hlines, Nat.add_sub_cancel, List.getElem?_append_right (Nat.le_refl _), Nat.sub_self, htext,
      String.toList_ofList]
    rfl
  · rwa [htext, String.toList_ofList]
  · rw [Nat.add_sub_cancel, hlines, List.take_left]
    exact exists_parse_join hlines hread
  · intro s' hs'
    rw [htake] at hs'
    rw [parse_eq_error_iff, ← List.take_append_drop (before.length + 1) (Text.lines s'.toList), hs']
    exact Levels.readAll_append_of_error hfail _

theorem readAlike_of_filledLines {s' : String} (h : Text.filledLines s = Text.filledLines s') :
    ReadAlike s s' := by
  have hsame : (Levels.readAll {} 1 (Text.lines s.toList)).mapError ParseFailure.unnumbered =
      (Levels.readAll {} 1 (Text.lines s'.toList)).mapError ParseFailure.unnumbered := by
    rw [Levels.mapError_readAll {} 1 1, Levels.mapError_readAll {} 1 1 (Text.lines s'.toList)]
    exact congrArg (fun ls => (Levels.readAll {} 1 ls).mapError ParseFailure.unnumbered) h
  rw [ReadAlike, parse_eq_map, parse_eq_map]
  cases hs : Levels.readAll {} 1 (Text.lines s.toList) with
  | ok ls =>
    cases hs' : Levels.readAll {} 1 (Text.lines s'.toList) with
    | ok ls' =>
      rw [hs, hs'] at hsame
      cases hsame
      exact .inl ⟨_, _, rfl, rfl, rfl⟩
    | error e' =>
      rw [hs, hs'] at hsame
      cases hsame
  | error e =>
    cases hs' : Levels.readAll {} 1 (Text.lines s'.toList) with
    | ok ls' =>
      rw [hs, hs'] at hsame
      cases hsame
    | error e' =>
      rw [hs, hs'] at hsame
      obtain ⟨hfault, htext⟩ := Prod.mk.inj (Except.error.inj hsame)
      exact .inr ⟨e, e', rfl, rfl, hfault, htext⟩

/-- Reading depends on the lines that are not blank alone, and it fails at the first of them that is at
fault. -/
theorem parse_stops_at_first_fault (s : String) :
    (∀ e, parse s = .error e → ∃ n, StopsAt s e n) ∧
      ∀ s', Text.filledLines s = Text.filledLines s' → ReadAlike s s' :=
  ⟨fun _ h => exists_stopsAt h, fun _ h => readAlike_of_filledLines h⟩

/-- Line endings of all kinds and blank lines before the line at fault, and another fault after it. -/
theorem parse_stops_at_first_fault_mixed :
    let s := "%A%\r\n \t\r|SAY| a\n\u3000\n  |SAY| b\n?"
    let s' := "%A%\n|SAY| a\n  |SAY| b\n?\n\n"
    parse s = .error ⟨.unevenIndent, .ofNat 5, "  |SAY| b"⟩ ∧
      (∃ n, StopsAt s ⟨.unevenIndent, .ofNat 5, "  |SAY| b"⟩ n) ∧
      Text.filledLines s = Text.filledLines s' ∧ ReadAlike s s' := by
  intro s s'
  have hfail : parse s = .error ⟨.unevenIndent, .ofNat 5, "  |SAY| b"⟩ := by
    rw [parse_eq_error_iff]
    decide +kernel
  have hfilled : Text.filledLines s = Text.filledLines s' := by decide +kernel
  obtain ⟨hstops, halike⟩ := parse_stops_at_first_fault s
  exact ⟨hfail, hstops _ hfail, hfilled, halike s' hfilled⟩

end Document
end BranchingDialogue
