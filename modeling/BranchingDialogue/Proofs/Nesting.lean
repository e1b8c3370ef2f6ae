import BranchingDialogue.Proofs.Spelling
import BranchingDialogue.Script.Levels

/-! Rows and outlines. Reading rows into levels loses none of them, and the outlines that this makes are the
canonical ones, each of which is made from its own rows. -/
namespace BranchingDialogue

namespace Row

/-- The deepest level that a row can have after one of level `previous`. -/
def deepest : Option Nat → Nat
  | none => 0
  | some level => level + 1

/-- Each row is at most one level deeper than the one before. -/
def Stepwise : Option Nat → List Row → Prop
  | _, [] => True
  | previous, r :: rs => r.level ≤ deepest previous ∧ Stepwise (some r.level) rs

theorem Stepwise.mono {m n : Nat} {rs : List Row} (h : Stepwise (some m) rs) (hmn : m ≤ n) :
    Stepwise (some n) rs := by
  cases rs with
  | nil => trivial
  | cons r rs =>
    obtain ⟨hr, hrs⟩ := h
    simp only [deepest] at hr
    exact ⟨by simp only [deepest]; omega, hrs⟩

end Row

namespace Outline

def blockLed : Outline → Bool
  | .block _ _ => true
  | _ => false

/-- The lines are canonical, and no block is empty, starts with a block or is followed by one. -/
def Orderly : Outline → Prop
  | .nil => True
  | .line head rest => head.Canonical ∧ rest.Orderly
  | .block inner rest =>
    (inner ≠ .nil ∧ inner.blockLed = false ∧ inner.Orderly) ∧ rest.blockLed = false ∧ rest.Orderly

/-- The outlines of scripts: those that keep order and do not start with a block. -/
def Canonical (o : Outline) : Prop := o.blockLed = false ∧ o.Orderly

@[simp] theorem blockLed_nil : blockLed .nil = false := rfl

@[simp] theorem blockLed_line (head : Line) (rest : Outline) : blockLed (.line head rest) = false := rfl

@[simp] theorem blockLed_block (inner rest : Outline) : blockLed (.block inner rest) = true := rfl

def lineLed : Outline → Bool
  | .line _ _ => true
  | _ => false

/-- Canonical when it is kept with the latest element first: each block stands behind a line. -/
def OrderlyBack : Outline → Prop
  | .nil => True
  | .line head rest => head.Canonical ∧ rest.OrderlyBack
  | .block inner rest => (inner ≠ .nil ∧ inner.Canonical) ∧ rest.lineLed = true ∧ rest.OrderlyBack

/-- The rows of an outline that is kept with the latest element first. -/
def backRows (level : Nat) : Outline → List Row
  | .nil => []
  | .line head rest => backRows level rest ++ [⟨level, head⟩]
  | .block inner rest => backRows level rest ++ inner.rows (level + 1)

theorem rows_reverseOnto (o p : Outline) (n : Nat) :
    (o.reverseOnto p).rows n = o.backRows n ++ p.rows n := by
  induction o generalizing p with
  | nil => rfl
  | line head rest ih => simp [reverseOnto, backRows, rows, ih]
  | block inner rest _ ih => simp [reverseOnto, backRows, rows, ih]

theorem reverseOnto_ne_nil {o p : Outline} (h : o ≠ .nil ∨ p ≠ .nil) : o.reverseOnto p ≠ .nil := by
  induction o generalizing p with
  | nil => simpa [reverseOnto] using h
  | line head rest ih => exact ih (.inr Outline.noConfusion)
  | block inner rest _ ih => exact ih (.inr Outline.noConfusion)

theorem canonical_reverseOnto {o p : Outline} (ho : o.OrderlyBack) (hp : p.Orderly)
    (hled : p.blockLed = true → o.lineLed = true) : (o.reverseOnto p).Canonical := by
  have hled' : o.lineLed = false → p.blockLed = false := by
    intro h
    cases hb : p.blockLed with
    | false => rfl
    | true => rw [hled hb] at h; cases h
  induction o generalizing p with
  | nil => exact ⟨hled' rfl, hp⟩
  | line head rest ih => exact ih ho.2 ⟨ho.1, hp⟩ nofun fun _ => rfl
  | block inner rest _ ih =>
    obtain ⟨⟨hne, hb, hi⟩, hrest, hback⟩ := ho
    exact ih hback ⟨⟨hne, hb, hi⟩, hled' rfl, hp⟩ (fun _ => hrest) (fun h => by rw [hrest] at h; cases h)

end Outline

namespace Levels

/-- The rows of open levels from the inside outwards, in the order of the text. -/
def stackRows : List Outline → List Row
  | [] => []
  | o :: os => stackRows os ++ o.backRows os.length

def rows (ls : Levels) : List Row := stackRows (ls.current :: ls.around)

def deepest (ls : Levels) : Nat :=
  match ls.current with
  | .nil => ls.depth
  | _ => ls.depth + 1

/-- A row more, at a level that it can have. -/
def place (ls : Levels) (r : Row) : Levels :=
  (if r.level = ls.depth + 1 then ls.openBlock else ls.closeTo r.level).push r.line

/-- All levels are kept canonically, and go on beneath a line. -/
structure Sound (ls : Levels) : Prop where
  current : ls.current.OrderlyBack
  around : ∀ o ∈ ls.around, o.OrderlyBack ∧ o.lineLed = true
  filled : ls.around ≠ [] → ls.current ≠ .nil

variable {ls ms : Levels} {r : Row} {rs : List Row} {level : Nat} {previous : Option Nat}

theorem depth_closeBlock (ls : Levels) : ls.closeBlock.depth = ls.depth - 1 := by
  obtain ⟨inner, around⟩ := ls
  cases around <;> rfl

theorem rows_closeBlock (ls : Levels) : ls.closeBlock.rows = ls.rows := by
  obtain ⟨inner, around⟩ := ls
  cases around with
  | nil => rfl
  | cons outer around => simp [closeBlock, rows, stackRows, Outline.backRows, Outline.rows_reverseOnto, Outline.rows]

theorem Sound.closeBlock (h : ls.Sound) : ls.closeBlock.Sound := by
  obtain ⟨inner, around⟩ := ls
  cases around with
  | nil => exact h
  | cons outer around =>
    obtain ⟨houter, hled⟩ := h.around outer List.mem_cons_self
    have hinner := Outline.canonical_reverseOnto (p := .nil) h.current trivial nofun
    have hne := Outline.reverseOnto_ne_nil (p := .nil) (.inl (h.filled (List.cons_ne_nil _ _)))
    exact ⟨⟨⟨hne, hinner⟩, hled, houter⟩, fun o ho => h.around o (List.mem_cons_of_mem _ ho), fun _ => nofun⟩

/-- What closing one block keeps, closing several keeps. -/
theorem closeTo_induct {motive : Levels → Prop} (hclose : ∀ ls, motive ls → motive ls.closeBlock)
    (h : motive ls) (level : Nat) : motive (ls.closeTo level) := by
  rw [closeTo]
  generalize ls.depth - level = n
  induction n with
  | zero => exact h
  | succ n ih => exact hclose _ ih

theorem rows_closeTo (ls : Levels) (level : Nat) : (ls.closeTo level).rows = ls.rows :=
  closeTo_induct (motive := fun ms => ms.rows = ls.rows) (fun ms h => (rows_closeBlock ms).trans h) rfl level

theorem Sound.closeTo (h : ls.Sound) (level : Nat) : (ls.closeTo level).Sound :=
  closeTo_induct (fun _ h => h.closeBlock) h level

theorem depth_closeTo (h : level ≤ ls.depth) : (ls.closeTo level).depth = level := by
  have hrepeat (n : Nat) : (Nat.repeat Levels.closeBlock n ls).depth = ls.depth - n := by
    induction n with
    | zero => rfl
    | succ n ih =>
      rw [Nat.repeat, depth_closeBlock, ih]
      omega
  rw [closeTo, hrepeat]
  omega

theorem around_closeTo_zero (ls : Levels) : (ls.closeTo 0).around = [] :=
  List.length_eq_zero_iff.mp (depth_closeTo (Nat.zero_le ls.depth))

/-- The outline of all that was read holds just the rows that were read. -/
theorem rows_outline (ls : Levels) : ls.outline.rows 0 = ls.rows := by
  rw [outline, Outline.rows_reverseOnto, ← rows_closeTo ls 0, rows, around_closeTo_zero]
  simp [stackRows, Outline.rows]

theorem Sound.canonical_outline (h : ls.Sound) : ls.outline.Canonical :=
  Outline.canonical_reverseOnto (p := .nil) (h.closeTo 0).current trivial nofun

theorem deepest_bounds (ls : Levels) : ls.depth ≤ ls.deepest ∧ ls.deepest ≤ ls.depth + 1 := by
  rw [deepest]
  cases ls.current <;> simp

theorem turnTo_eq_ok_iff : ls.turnTo level = .ok ms ↔
    level ≤ ls.deepest ∧ ms = if level = ls.depth + 1 then ls.openBlock else ls.closeTo level := by
  obtain ⟨hdepth, hdeepest⟩ := ls.deepest_bounds
  rw [turnTo, eq_comm (a := ms)]
  by_cases hsteep : ls.depth + 1 < level
  · rw [if_pos hsteep]
    exact iff_of_false nofun fun h => by omega
  by_cases hopen : level = ls.depth + 1
  · rw [if_neg hsteep, if_pos hopen, if_pos hopen, hopen, deepest]
    cases ls.current with
    | nil => exact iff_of_false nofun fun h => Nat.not_succ_le_self _ h.1
    | _ => simp
  · rw [if_neg hsteep, if_neg hopen, if_neg hopen, Except.ok.injEq]
    exact ⟨fun h => ⟨by omega, h⟩, fun h => h.2⟩

theorem depth_place (h : r.level ≤ ls.deepest) : (ls.place r).depth = r.level := by
  have hle := ls.deepest_bounds.2
  by_cases hopen : r.level = ls.depth + 1
  · rw [place, if_pos hopen, hopen]
    rfl
  · rw [place, if_neg hopen]
    exact depth_closeTo (by omega)

theorem deepest_place (h : r.level ≤ ls.deepest) : (ls.place r).deepest = Row.deepest (some r.level) :=
  congrArg (· + 1) (depth_place h)

theorem rows_push (ls : Levels) (line : Line) : (ls.push line).rows = ls.rows ++ [⟨ls.depth, line⟩] := by
  simp [push, rows, stackRows, Outline.backRows, depth]

/-- A row is added to the rows that were read before. -/
theorem rows_place (h : r.level ≤ ls.deepest) : (ls.place r).rows = ls.rows ++ [r] := by
  have hdepth := depth_place h
  rw [place] at hdepth ⊢
  generalize hms : (if r.level = ls.depth + 1 then ls.openBlock else ls.closeTo r.level) = ms at hdepth ⊢
  have hrows : ms.rows = ls.rows := by
    rw [← hms]
    split
    · simp [openBlock, rows, stackRows, Outline.backRows]
    · exact rows_closeTo ls r.level
  have hlevel : ms.depth = r.level := hdepth
  rw [rows_push, hrows, hlevel]

/-- The latest line of the innermost level is there to go on beneath, unless nothing was read. -/
structure Ready (ls : Levels) : Prop extends ls.Sound where
  led : ls.current = .nil ∨ ls.current.lineLed = true

theorem ready_empty : Ready {} := ⟨⟨trivial, nofun, nofun⟩, .inl rfl⟩

theorem Ready.place (h : ls.Ready) (hr : r.level ≤ ls.deepest) (hline : r.line.Canonical) :
    (ls.place r).Ready := by
  rw [Levels.place]
  split
  next hopen =>
    have hled : ls.current.lineLed = true := by
      rcases h.led with hnil | hled
      · rw [deepest, hnil] at hr
        simp only at hr
        omega
      · exact hled
    refine ⟨⟨⟨hline, trivial⟩, fun o ho => ?_, fun _ => nofun⟩, .inr rfl⟩
    rcases List.mem_cons.mp ho with rfl | ho
    · exact ⟨h.current, hled⟩
    · exact h.around o ho
  next =>
    have hclosed := h.toSound.closeTo r.level
    exact ⟨⟨⟨hline, hclosed.current⟩, hclosed.around, fun _ => nofun⟩, .inr rfl⟩

/-- Rows that go deeper one level at a time are all kept, and canonically. -/
theorem rows_foldl_place (hls : ls.deepest = Row.deepest previous) (hrs : Row.Stepwise previous rs) :
    (rs.foldl place ls).rows = ls.rows ++ rs := by
  induction rs generalizing ls previous with
  | nil => simp
  | cons r rs ih =>
    have hr : r.level ≤ ls.deepest := hls ▸ hrs.1
    rw [List.foldl_cons, ih (deepest_place hr) hrs.2, rows_place hr, List.append_assoc]
    rfl

theorem ready_foldl_place (h : ls.Ready) (hls : ls.deepest = Row.deepest previous)
    (hrs : Row.Stepwise previous rs) (hlines : ∀ r ∈ rs, r.line.Canonical) : (rs.foldl place ls).Ready := by
  induction rs generalizing ls previous with
  | nil => exact h
  | cons r rs ih =>
    have hr : r.level ≤ ls.deepest := hls ▸ hrs.1
    obtain ⟨hline, hlines⟩ := List.forall_mem_cons.mp hlines
    exact ih (h.place hr hline) (deepest_place hr) hrs.2 hlines

end Levels

namespace Outline

def ofRows (rs : List Row) : Outline := (rs.foldl Levels.place {}).outline

/-- The rows of a script at the outermost level are the rows that it was made from. -/
theorem rows_ofRows {rs : List Row} (h : Row.Stepwise none rs) : (ofRows rs).rows 0 = rs := by
  rw [ofRows, Levels.rows_outline, Levels.rows_foldl_place rfl h]
  rfl

example : ofRows [⟨0, .marker "A"⟩, ⟨1, .marker "B"⟩, ⟨2, .marker "C"⟩, ⟨1, .marker "D"⟩] =
    .line (.marker "A") (.block (.line (.marker "B") (.block (.line (.marker "C") .nil)
      (.line (.marker "D") .nil))) .nil) := by decide

/-- Rows that go deeper one level at a time make a canonical outline. -/
theorem canonical_ofRows {rs : List Row} (h : Row.Stepwise none rs)
    (hlines : ∀ r ∈ rs, r.line.Canonical) : (ofRows rs).Canonical :=
  (Levels.ready_foldl_place Levels.ready_empty rfl h hlines).canonical_outline

theorem eq_line_of_not_blockLed {o : Outline} (hne : o ≠ .nil) (hb : o.blockLed = false) :
    ∃ head rest, o = .line head rest := by
  cases o with
  | nil => contradiction
  | line head rest => exact ⟨head, rest, rfl⟩
  | block inner rest => cases hb

theorem canonical_of_mem_rows {o : Outline} {n : Nat} (ho : o.Orderly) :
    ∀ r ∈ o.rows n, r.line.Canonical := by
  induction o generalizing n with
  | nil => simp [rows]
  | line head rest ih =>
    have hrest := ih (n := n) ho.2
    simpa [rows, ho.1] using hrest
  | block inner rest ihi ihr =>
    obtain ⟨⟨-, -, hi⟩, -, hr⟩ := ho
    intro r hr'
    rcases List.mem_append.mp hr' with hm | hm
    · exact ihi hi r hm
    · exact ihr hr r hm

/-- The rows of an orderly outline can stand wherever its first row can. -/
theorem stepwise_rows_append {o : Outline} {n d : Nat} {rs : List Row} (ho : o.Orderly)
    (hn : n ≤ d ∨ (o ≠ .nil ∧ o.blockLed = false ∧ n ≤ d + 1)) (hrs : Row.Stepwise (some n) rs) :
    Row.Stepwise (some d) (o.rows n ++ rs) := by
  induction o generalizing n d rs with
  | nil =>
    have hnd : n ≤ d := by simpa using hn
    exact hrs.mono hnd
  | line head rest ih =>
    have hnd : n ≤ d + 1 := by omega
    exact ⟨hnd, ih ho.2 (.inl (Nat.le_refl n)) hrs⟩
  | block inner rest ihi ihr =>
    obtain ⟨⟨hne, hb, hi⟩, -, hr⟩ := ho
    have hnd : n ≤ d := by simpa using hn
    have hrest := ihr (d := n + 1) hr (.inl (by omega)) hrs
    rw [rows, List.append_assoc]
    exact ihi hi (.inr ⟨hne, hb, by omega⟩) hrest

theorem stepwise_rows {o : Outline} (h : o.Canonical) : Row.Stepwise none (o.rows 0) := by
  cases o with
  | nil => trivial
  | line head rest =>
    have hrest : Row.Stepwise (some 0) (rest.rows 0 ++ []) :=
      stepwise_rows_append h.2.2 (.inl (Nat.le_refl 0)) trivial
    rw [List.append_nil] at hrest
    exact ⟨Nat.le_refl 0, hrest⟩
  | block inner rest => cases h.1

def leadLevel (n : Nat) : Outline → Option Nat
  | .nil => none
  | .line _ _ => some n
  | .block _ _ => some (n + 1)

theorem head?_rows {o : Outline} (ho : o.Orderly) (n : Nat) :
    (o.rows n).head?.map Row.level = leadLevel n o := by
  cases o with
  | nil => rfl
  | line head rest => rfl
  | block inner rest =>
    obtain ⟨head, tail, rfl⟩ := eq_line_of_not_blockLed ho.1.1 ho.1.2.1
    rfl

theorem le_of_leadLevel {o : Outline} {n k : Nat} (h : leadLevel n o = some k) : n ≤ k := by
  cases o with
  | nil => cases h
  | line head rest => cases h; exact Nat.le_refl n
  | block inner rest => cases h; exact Nat.le_succ n

/-- Rows of a lower level behind an outline do not hide how it begins. -/
theorem leadLevel_congr {o p : Outline} {n : Nat} {rs qs : List Row} (ho : o.Orderly)
    (hp : p.Orderly) (hrs : ∀ r ∈ rs.head?, r.level < n) (hqs : ∀ q ∈ qs.head?, q.level < n)
    (h : o.rows n ++ rs = p.rows n ++ qs) : leadLevel n o = leadLevel n p := by
  have hhead := congrArg (fun l => l.head?.map Row.level) h
  simp only [List.head?_append, Option.map_or, head?_rows ho, head?_rows hp] at hhead
  have hlow : ∀ {ts : List Row} {q : Outline} {k : Nat}, (∀ r ∈ ts.head?, r.level < n) →
      leadLevel n q = some k → ts.head?.map Row.level ≠ some k := by
    intro ts q k hts hk he
    obtain ⟨r, hr, rfl⟩ := Option.map_eq_some_iff.mp he
    have hlt := hts r hr
    have hle := le_of_leadLevel hk
    omega
  cases hko : leadLevel n o with
  | none =>
    cases hkp : leadLevel n p with
    | none => rfl
    | some k =>
      rw [hko, hkp] at hhead
      exact absurd hhead (hlow hrs hkp)
  | some k =>
    cases hkp : leadLevel n p with
    | none =>
      rw [hko, hkp] at hhead
      exact absurd hhead.symm (hlow hqs hko)
    | some j => simpa [hko, hkp] using hhead

/-- What follows a block is no block, so its rows start above the rows of the block. -/
theorem head?_rows_append_lt {o : Outline} {n : Nat} {rs : List Row} (hb : o.blockLed = false)
    (hrs : ∀ r ∈ rs.head?, r.level < n) : ∀ r ∈ (o.rows n ++ rs).head?, r.level < n + 1 := by
  intro r hr
  cases o with
  | nil => exact Nat.lt_succ_of_lt (hrs r hr)
  | line head rest =>
    simp only [rows, List.cons_append, List.head?_cons, Option.mem_def, Option.some.injEq] at hr
    subst hr
    exact Nat.lt_succ_self n
  | block inner rest => cases hb

/-- Where the rows of an orderly outline end, and which outline it was, can be told from the levels. -/
theorem rows_append_inj {o p : Outline} {n : Nat} {rs qs : List Row} (ho : o.Orderly)
    (hp : p.Orderly) (hrs : ∀ r ∈ rs.head?, r.level < n) (hqs : ∀ q ∈ qs.head?, q.level < n)
    (h : o.rows n ++ rs = p.rows n ++ qs) : o = p ∧ rs = qs := by
  induction o generalizing p n rs qs with
  | nil =>
    have hlead := leadLevel_congr ho hp hrs hqs h
    cases p with
    | nil => exact ⟨rfl, h⟩
    | line head rest => cases hlead
    | block inner rest => cases hlead
  | line head rest ih =>
    have hlead := leadLevel_congr ho hp hrs hqs h
    cases p with
    | nil => cases hlead
    | line head' rest' =>
      simp only [rows, List.cons_append, List.cons.injEq, Row.mk.injEq, true_and] at h
      obtain ⟨rfl, htail⟩ := h
      obtain ⟨rfl, hend⟩ := ih ho.2 hp.2 hrs hqs htail
      exact ⟨rfl, hend⟩
    | block inner rest' => simp [leadLevel] at hlead
  | block inner rest ihi ihr =>
    have hlead := leadLevel_congr ho hp hrs hqs h
    cases p with
    | nil => cases hlead
    | line head rest' => simp [leadLevel] at hlead
    | block inner' rest' =>
      obtain ⟨⟨-, -, hi⟩, hb, hr⟩ := ho
      obtain ⟨⟨-, -, hi'⟩, hb', hr'⟩ := hp
      rw [rows, rows, List.append_assoc, List.append_assoc] at h
      obtain ⟨rfl, htail⟩ :=
        ihi hi hi' (head?_rows_append_lt hb hrs) (head?_rows_append_lt hb' hqs) h
      obtain ⟨rfl, hend⟩ := ihr hr hr' hrs hqs htail
      exact ⟨rfl, hend⟩

/-- A canonical outline is made again from its rows. -/
theorem ofRows_rows {o : Outline} (h : o.Canonical) : ofRows (o.rows 0) = o := by
  have hsteps := stepwise_rows h
  have hcanon := canonical_ofRows hsteps (canonical_of_mem_rows h.2)
  have hrows : (ofRows (o.rows 0)).rows 0 ++ [] = o.rows 0 ++ [] := by rw [rows_ofRows hsteps]
  exact (rows_append_inj hcanon.2 h.2 (by simp) (by simp) hrows).1

end Outline
end BranchingDialogue
