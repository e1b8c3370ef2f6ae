import BranchingDialogue.Proofs.Cutting
import BranchingDialogue.Script.Line

/-! Which lines a script can hold, said of the lines themselves, and that reading a line is exactly the
inverse of writing one of these. -/
namespace BranchingDialogue

/-- What may stand before or after the name of a command: something, without a bar, and without
white space at its ends. -/
structure IsPart (cs : List Char) : Prop where
  ne_nil : cs ≠ []
  no_bar : '|' ∉ cs
  head : ∀ c ∈ cs.head?, Text.isBlank c = false
  last : ∀ c ∈ cs.getLast?, Text.isBlank c = false

def OnOneLine (cs : List Char) : Prop := ∀ c ∈ cs, Text.isLineBreak c = false

def IsMarked (cs : List Char) : Prop := ∃ inner, '%' ∉ inner ∧ cs = '%' :: (inner ++ ['%'])

structure Command.Spelt (c : Command) : Prop where
  name : isName c.name.toList = true
  speaker : ∀ s ∈ c.speaker, IsPart s.toList
  text : ∀ t ∈ c.text, IsPart t.toList

/-- A command that keeps to one line and that no other kind of line is written like. -/
structure Command.Canonical (c : Command) : Prop extends c.Spelt where
  speaker_line : ∀ s ∈ c.speaker, OnOneLine s.toList
  text_line : ∀ t ∈ c.text, OnOneLine t.toList
  not_comment : ¬ ['/', '/'] <+: c.chars
  not_marked : ¬ IsMarked c.chars

def Line.Spelt : Line → Prop
  | .command c => c.Spelt
  | .marker name => isName name.toList = true
  | .comment _ => True

/-- The lines of scripts: those of the grammar that are read back as what they were. -/
def Line.Canonical : Line → Prop
  | .command c => c.Canonical
  | .marker name => isName name.toList = true
  | .comment text => OnOneLine text.toList

theorem onOneLine_append {as bs : List Char} :
    OnOneLine (as ++ bs) ↔ OnOneLine as ∧ OnOneLine bs := by
  simp [OnOneLine, or_imp, forall_and]

theorem onOneLine_cons {c : Char} {cs : List Char} :
    OnOneLine (c :: cs) ↔ Text.isLineBreak c = false ∧ OnOneLine cs := by
  simp [OnOneLine]

theorem isLineBreak_of_isNameChar {c : Char} (h : isNameChar c = true) :
    Text.isLineBreak c = false := by
  cases hb : Text.isLineBreak c with
  | false => rfl
  | true =>
    simp only [Text.isLineBreak, Bool.or_eq_true, beq_iff_eq] at hb
    rcases hb with ((rfl | rfl) | rfl) | rfl <;> exact absurd h (by decide)

theorem onOneLine_of_isName {cs : List Char} (h : isName cs = true) : OnOneLine cs := by
  intro c hc
  simp only [isName, Bool.and_eq_true, List.all_eq_true] at h
  exact isLineBreak_of_isNameChar (h.2 c hc)

theorem notMem_of_isName {cs : List Char} {c : Char} (h : isName cs = true)
    (hc : isNameChar c = false) : c ∉ cs := by
  intro hm
  simp only [isName, Bool.and_eq_true, List.all_eq_true] at h
  simp [h.2 c hm] at hc

/-- A phrase is a part on one line, except that it may hold bars. -/
theorem isPhrase_iff {cs : List Char} (hbar : '|' ∉ cs) :
    isPhrase cs = true ↔ IsPart cs ∧ OnOneLine cs := by
  cases cs with
  | nil => exact ⟨fun h => by simp [isPhrase] at h, fun h => absurd rfl h.1.ne_nil⟩
  | cons c cs =>
    have hl : (c :: cs).getLast? = some ((c :: cs).getLast (by simp)) := List.getLast?_eq_some_getLast _
    simp only [isPhrase, List.head?_cons, hl, Bool.and_eq_true, Bool.not_eq_true', List.all_eq_true]
    constructor
    · rintro ⟨⟨hh, ht⟩, hb⟩
      exact ⟨⟨by simp, hbar, by simpa using hh, by simpa [hl] using ht⟩, hb⟩
    · rintro ⟨hp, hb⟩
      exact ⟨⟨hp.head c (by simp), hp.last _ (by simp [hl])⟩, hb⟩

namespace Line

theorem betweenPercents?_eq_some_iff {cs inner : List Char} :
    betweenPercents? cs = some inner ↔ '%' ∉ inner ∧ cs = '%' :: (inner ++ ['%']) := by
  constructor
  · intro h
    unfold betweenPercents? at h
    split at h
    · next cs =>
      split at h
      · next hc =>
        cases h
        obtain ⟨ds, rfl⟩ := List.getLast?_eq_some_iff.mp hc.1
        rw [List.dropLast_concat] at hc ⊢
        exact ⟨hc.2, rfl⟩
      · cases h
    · cases h
  · rintro ⟨hp, rfl⟩
    simp [betweenPercents?, hp]

theorem betweenPercents?_eq_none_iff {cs : List Char} :
    betweenPercents? cs = none ↔ ¬ IsMarked cs := by
  rw [Option.eq_none_iff_forall_ne_some]
  simp only [ne_eq, betweenPercents?_eq_some_iff, IsMarked, not_exists]

theorem commentText?_eq_some_iff {cs text : List Char} :
    commentText? cs = some text ↔ OnOneLine text ∧ cs = '/' :: '/' :: text := by
  constructor
  · intro h
    unfold commentText? at h
    split at h
    · next cs =>
      split at h
      · cases h
      · next hb =>
        cases h
        exact ⟨by simpa [OnOneLine] using hb, rfl⟩
    · cases h
  · rintro ⟨hl, rfl⟩
    have hb : text.any Text.isLineBreak = false := by simpa [OnOneLine] using hl
    simp [commentText?, hb]

theorem commentText?_eq_none {cs : List Char} (hl : OnOneLine cs) :
    commentText? cs = none ↔ ¬ ['/', '/'] <+: cs := by
  rw [Option.eq_none_iff_forall_ne_some]
  constructor
  · rintro h ⟨text, rfl⟩
    exact h text (commentText?_eq_some_iff.mpr ⟨(onOneLine_append.mp hl).2, rfl⟩)
  · rintro h text ht
    exact h ⟨text, (commentText?_eq_some_iff.mp ht).2.symm⟩

end Line

namespace Command

def speakerChars (speaker : Option String) : List Char :=
  (speaker.map fun s => s.toList ++ [' ']).getD []

def textChars (text : Option String) : List Char := (text.map fun t => ' ' :: t.toList).getD []

theorem chars_eq (c : Command) :
    c.chars = speakerChars c.speaker ++ '|' :: (c.name.toList ++ '|' :: textChars c.text) := by
  simp [chars, speakerChars, textChars]

theorem readSpeaker_eq_ok_iff {cs : List Char} {speaker : Option String} :
    readSpeaker cs = .ok speaker ↔
      cs = speakerChars speaker ∧ ∀ s ∈ speaker, isPhrase s.toList = true := by
  unfold readSpeaker
  constructor
  · intro h
    split at h
    · next he =>
      cases h
      simpa [speakerChars] using he
    · split at h
      · next hc =>
        cases h
        obtain ⟨ds, rfl⟩ := List.getLast?_eq_some_iff.mp hc.1
        rw [List.dropLast_concat] at hc
        simpa [speakerChars] using hc.2
      · cases h
  · rintro ⟨rfl, h⟩
    cases speaker with
    | none => simp [speakerChars]
    | some s => simp [speakerChars, h s rfl]

theorem readText_eq_ok_iff {cs : List Char} {text : Option String} :
    readText cs = .ok text ↔ cs = textChars text ∧ ∀ t ∈ text, isPhrase t.toList = true := by
  constructor
  · intro h
    unfold readText at h
    split at h
    · cases h
      simp [textChars]
    · split at h
      · next hc =>
        cases h
        simpa [textChars] using hc
      · cases h
  · rintro ⟨rfl, h⟩
    cases text with
    | none => rfl
    | some t => simp [readText, textChars, h t rfl]

theorem notMem_speakerChars {c : Char} {speaker : Option String} (hc : c ≠ ' ') :
    c ∉ speakerChars speaker ↔ ∀ s ∈ speaker, c ∉ s.toList := by
  cases speaker <;> simp [speakerChars, hc]

theorem notMem_textChars {c : Char} {text : Option String} (hc : c ≠ ' ') :
    c ∉ textChars text ↔ ∀ t ∈ text, c ∉ t.toList := by
  cases text <;> simp [textChars, hc]

theorem read_eq_ok_iff_pieces {cs : List Char} {c : Command} :
    read cs = .ok c ↔
      ∃ speaker text, Text.pieces '|' cs = [speaker, c.name.toList, text] ∧
        isName c.name.toList = true ∧ readSpeaker speaker = .ok c.speaker ∧
        readText text = .ok c.text := by
  constructor
  · intro h
    unfold read at h
    split at h
    · cases h
    · next speaker name text hp =>
      split at h
      · next hname =>
        cases hs : readSpeaker speaker with
        | error e => rw [hs] at h; cases h
        | ok s =>
          cases ht : readText text with
          | error e => rw [hs, ht] at h; cases h
          | ok t =>
            rw [hs, ht] at h
            cases h
            exact ⟨speaker, text, by simpa using hp, by simpa using hname, hs, ht⟩
      · cases h
    · cases h
  · rintro ⟨speaker, text, hp, hname, hs, ht⟩
    simp [read, hp, hname, hs, ht, bind, Except.bind, pure, Except.pure]

theorem Spelt.pieces_chars {c : Command} (hc : c.Spelt) :
    Text.pieces '|' c.chars = [speakerChars c.speaker, c.name.toList, textChars c.text] := by
  have hname : '|' ∉ c.name.toList := notMem_of_isName hc.name (by decide)
  rw [chars_eq, Text.pieces_append_sep, Text.pieces_append_sep hname, Text.pieces_of_notMem]
  · exact (notMem_textChars (by decide)).mpr fun t h => (hc.text t h).no_bar
  · exact (notMem_speakerChars (by decide)).mpr fun s h => (hc.speaker s h).no_bar

/-- Commands are read from their own form and from nothing else. -/
theorem read_eq_ok_iff {cs : List Char} {c : Command} :
    read cs = .ok c ↔ cs = c.chars ∧ c.Spelt ∧
      (∀ s ∈ c.speaker, OnOneLine s.toList) ∧ (∀ t ∈ c.text, OnOneLine t.toList) := by
  rw [read_eq_ok_iff_pieces]
  constructor
  · rintro ⟨speaker, text, hp, hname, hs, ht⟩
    obtain ⟨rfl, hsp⟩ := readSpeaker_eq_ok_iff.mp hs
    obtain ⟨rfl, htp⟩ := readText_eq_ok_iff.mp ht
    have hjoin := Text.join_pieces '|' cs
    have hbar : ∀ p ∈ Text.pieces '|' cs, '|' ∉ p := fun p hp => Text.notMem_of_mem_pieces hp
    rw [hp] at hjoin hbar
    have hsb := (notMem_speakerChars (by decide)).mp (hbar (speakerChars c.speaker) (by simp))
    have htb := (notMem_textChars (by decide)).mp (hbar (textChars c.text) (by simp))
    have hsl := fun s h => (isPhrase_iff (hsb s h)).mp (hsp s h)
    have htl := fun t h => (isPhrase_iff (htb t h)).mp (htp t h)
    refine ⟨?_, ⟨hname, fun s h => (hsl s h).1, fun t h => (htl t h).1⟩,
      fun s h => (hsl s h).2, fun t h => (htl t h).2⟩
    simpa [chars_eq, Text.join] using hjoin.symm
  · rintro ⟨rfl, hc, hs, ht⟩
    refine ⟨_, _, hc.pieces_chars, hc.name, readSpeaker_eq_ok_iff.mpr ⟨rfl, ?_⟩,
      readText_eq_ok_iff.mpr ⟨rfl, ?_⟩⟩
    · intro s h
      exact (isPhrase_iff (hc.speaker s h).no_bar).mpr ⟨hc.speaker s h, hs s h⟩
    · intro t h
      exact (isPhrase_iff (hc.text t h).no_bar).mpr ⟨hc.text t h, ht t h⟩

theorem onOneLine_speakerChars {speaker : Option String} :
    OnOneLine (speakerChars speaker) ↔ ∀ s ∈ speaker, OnOneLine s.toList := by
  cases speaker with
  | none => simp [speakerChars, OnOneLine]
  | some s =>
    have hspace : OnOneLine [' '] := by
      intro c hc
      rw [List.mem_singleton.mp hc]
      rfl
    simp [speakerChars, onOneLine_append, hspace]

theorem onOneLine_textChars {text : Option String} :
    OnOneLine (textChars text) ↔ ∀ t ∈ text, OnOneLine t.toList := by
  have hspace : Text.isLineBreak ' ' = false := by decide
  cases text with
  | none => simp [textChars, OnOneLine]
  | some t => simp [textChars, onOneLine_cons, hspace]

/-- A command keeps to one line when its speaker and its text do. -/
theorem Spelt.onOneLine_iff {c : Command} (hc : c.Spelt) :
    OnOneLine c.chars ↔
      (∀ s ∈ c.speaker, OnOneLine s.toList) ∧ (∀ t ∈ c.text, OnOneLine t.toList) := by
  have hbar : Text.isLineBreak '|' = false := by decide
  have hname := onOneLine_of_isName hc.name
  rw [chars_eq, onOneLine_append, onOneLine_cons, onOneLine_append, onOneLine_cons,
    onOneLine_speakerChars, onOneLine_textChars]
  simp [hbar, hname]

theorem Spelt.head?_chars {c : Command} (hc : c.Spelt) :
    ∀ a ∈ c.chars.head?, Text.isBlank a = false := by
  rw [chars_eq]
  cases h : c.speaker with
  | none =>
    have hbar : Text.isBlank '|' = false := by decide
    simpa [speakerChars] using hbar
  | some s =>
    obtain ⟨b, bs, hb⟩ := List.exists_cons_of_ne_nil (hc.speaker s h).ne_nil
    have hhead := (hc.speaker s h).head b (by simp [hb])
    simpa [speakerChars, hb] using hhead

theorem Spelt.getLast?_chars {c : Command} (hc : c.Spelt) :
    ∀ a ∈ c.chars.getLast?, Text.isBlank a = false := by
  rw [chars_eq]
  cases h : c.text with
  | none =>
    have hbar : Text.isBlank '|' = false := by decide
    simpa [textChars, List.getLast?_append, List.getLast?_cons] using hbar
  | some t =>
    obtain ⟨b, bs, hb⟩ := List.exists_cons_of_ne_nil (hc.text t h).ne_nil
    intro a ha
    refine (hc.text t h).last a ?_
    simpa [textChars, hb, List.getLast?_append, List.getLast?_cons] using ha

end Command

namespace Line

theorem Canonical.spelt {l : Line} (h : l.Canonical) : l.Spelt := by
  cases l with
  | command c => exact h.toSpelt
  | marker name => exact h
  | comment text => trivial

theorem Canonical.onOneLine {l : Line} (h : l.Canonical) : OnOneLine l.chars := by
  cases l with
  | command c => exact h.onOneLine_iff.mpr ⟨h.speaker_line, h.text_line⟩
  | marker name =>
    have hp : Text.isLineBreak '%' = false := by decide
    have hend : OnOneLine ['%'] := by simpa [OnOneLine] using hp
    exact onOneLine_cons.mpr ⟨hp, onOneLine_append.mpr ⟨onOneLine_of_isName h, hend⟩⟩
  | comment text =>
    have hs : Text.isLineBreak '/' = false := by decide
    exact onOneLine_cons.mpr ⟨hs, onOneLine_cons.mpr ⟨hs, h⟩⟩

/-- No line starts with white space: what precedes it is indentation. -/
theorem Spelt.head?_chars {l : Line} (h : l.Spelt) :
    ∃ a ∈ l.chars.head?, Text.isBlank a = false := by
  cases l with
  | command c =>
    cases hc : c.chars with
    | nil => simp [Command.chars_eq] at hc
    | cons a cs => exact ⟨a, by simp [chars, hc], Command.Spelt.head?_chars h a (by simp [hc])⟩
  | marker name => exact ⟨'%', rfl, by decide⟩
  | comment text => exact ⟨'/', rfl, by decide⟩

theorem canonical_of_read {cs : List Char} {l : Line} (h : read cs = .ok l) :
    l.Canonical ∧ cs = l.chars := by
  unfold read at h
  split at h
  · next text ht =>
    cases h
    simpa [Canonical, chars] using commentText?_eq_some_iff.mp ht
  · next hcomment =>
    split at h
    · cases h
    · split at h
      · next name hn =>
        split at h
        · next hname =>
          cases h
          have hcs := (betweenPercents?_eq_some_iff.mp hn).2
          simpa [Canonical, chars, hname] using hcs
        · cases h
      · next hmarked =>
        cases hc : Command.read cs with
        | error e => rw [hc] at h; cases h
        | ok c =>
          rw [hc] at h
          cases h
          obtain ⟨rfl, hspelt, hs, ht⟩ := Command.read_eq_ok_iff.mp hc
          have hline := hspelt.onOneLine_iff.mpr ⟨hs, ht⟩
          exact ⟨⟨hspelt, hs, ht, (commentText?_eq_none hline).mp hcomment,
            betweenPercents?_eq_none_iff.mp hmarked⟩, rfl⟩

theorem read_chars {l : Line} (h : l.Canonical) : read l.chars = .ok l := by
  cases l with
  | comment text =>
    have ht : commentText? (chars (.comment text)) = some text.toList :=
      commentText?_eq_some_iff.mpr ⟨h, rfl⟩
    simp [read, ht]
  | marker name =>
    have hpercent : '%' ∉ name.toList := notMem_of_isName h (by decide)
    have hcomment : commentText? (chars (.marker name)) = none := rfl
    have hlast : ((chars (.marker name)).getLast?.map Text.isBlank).getD false = false := by
      have hp : Text.isBlank '%' = false := by decide
      simp [chars, List.getLast?_cons, hp]
    have hn : betweenPercents? (chars (.marker name)) = some name.toList :=
      betweenPercents?_eq_some_iff.mpr ⟨hpercent, rfl⟩
    have hname : isName name.toList = true := h
    simp [read, hcomment, hlast, hn, hname]
  | command c =>
    have hcomment := (commentText?_eq_none h.onOneLine).mpr h.not_comment
    have hlast : ((chars (.command c)).getLast?.map Text.isBlank).getD false = false := by
      have hb := h.getLast?_chars
      cases hc : c.chars.getLast? with
      | none => simp [chars, hc]
      | some a => simp [chars, hc, hb a (by simp [hc])]
    have hn := betweenPercents?_eq_none_iff.mpr h.not_marked
    have hc : Command.read (chars (.command c)) = .ok c :=
      Command.read_eq_ok_iff.mpr ⟨rfl, h.toSpelt, h.speaker_line, h.text_line⟩
    simp only [chars] at hcomment hlast hn hc ⊢
    simp [read, hcomment, hlast, hn, hc, Except.map]

/-- Lines are read from their own form and from nothing else. -/
theorem read_eq_ok_iff {cs : List Char} {l : Line} :
    read cs = .ok l ↔ l.Canonical ∧ cs = l.chars := by
  constructor
  · exact canonical_of_read
  · rintro ⟨h, rfl⟩
    exact read_chars h

end Line
end BranchingDialogue
