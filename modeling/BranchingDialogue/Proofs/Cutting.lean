import BranchingDialogue.Text.Blank
import BranchingDialogue.Text.Lines

/-! Cutting a text at a separator and joining the pieces again, from both sides. Everything rests on
one equation: a stretch without the separator, closed by one, is the first piece. -/
namespace BranchingDialogue.Text

theorem pieces_append_sep {sep : Char} {p : List Char} (hp : sep ∉ p) (cs : List Char) :
    pieces sep (p ++ sep :: cs) = p :: pieces sep cs := by
  induction p with
  | nil => simp [pieces]
  | cons c p ih =>
    have hc : c ≠ sep := fun h => hp (by simp [h])
    have hp' : sep ∉ p := fun h => hp (by simp [h])
    rw [List.cons_append, pieces, if_neg hc, ih hp']

theorem pieces_of_notMem {sep : Char} {p : List Char} (hp : sep ∉ p) : pieces sep p = [p] := by
  induction p with
  | nil => rfl
  | cons c p ih =>
    have hc : c ≠ sep := fun h => hp (by simp [h])
    have hp' : sep ∉ p := fun h => hp (by simp [h])
    rw [pieces, if_neg hc, ih hp']

/-- Joining is undone by cutting when no piece holds the separator. -/
theorem pieces_join {sep : Char} {ps : List (List Char)} (hne : ps ≠ [])
    (h : ∀ p ∈ ps, sep ∉ p) : pieces sep (join sep ps) = ps := by
  induction ps with
  | nil => contradiction
  | cons p ps ih =>
    have hp : sep ∉ p := h p (by simp)
    cases ps with
    | nil => exact pieces_of_notMem hp
    | cons q qs =>
      rw [join, pieces_append_sep hp, ih (by simp) (fun r hr => h r (by simp [hr]))]

/-- Closing every piece by the separator leaves one empty piece more. -/
theorem pieces_join_append_sep {sep : Char} {ps : List (List Char)} (hne : ps ≠ [])
    (h : ∀ p ∈ ps, sep ∉ p) : pieces sep (join sep ps ++ [sep]) = ps ++ [[]] := by
  induction ps with
  | nil => contradiction
  | cons p ps ih =>
    have hp : sep ∉ p := h p (by simp)
    cases ps with
    | nil => exact pieces_append_sep hp []
    | cons q qs =>
      rw [join, List.append_assoc, List.cons_append, pieces_append_sep hp,
        ih (by simp) (fun r hr => h r (by simp [hr]))]
      rfl

theorem mem_join {sep c : Char} {ps : List (List Char)} (h : c ∈ join sep ps) :
    c = sep ∨ ∃ p ∈ ps, c ∈ p := by
  induction ps with
  | nil => cases h
  | cons p ps ih =>
    cases ps with
    | nil => exact .inr ⟨p, by simp, h⟩
    | cons q qs =>
      rw [join, List.mem_append, List.mem_cons] at h
      rcases h with hp | hs | hq
      · exact .inr ⟨p, by simp, hp⟩
      · exact .inl hs
      · rcases ih hq with hs | ⟨r, hr, hc⟩
        · exact .inl hs
        · exact .inr ⟨r, by simp [hr], hc⟩

theorem notMem_of_mem_pieces {sep : Char} {cs p : List Char} (h : p ∈ pieces sep cs) : sep ∉ p := by
  induction cs generalizing p with
  | nil =>
    have hp : p = [] := by simpa [pieces] using h
    simp [hp]
  | cons c cs ih =>
    rw [pieces] at h
    split at h
    · rcases List.mem_cons.mp h with rfl | h
      · simp
      · exact ih h
    · next hc =>
      cases hps : pieces sep cs with
      | nil => exact absurd hps (pieces_ne_nil sep cs)
      | cons q qs =>
        rw [hps] at h ih
        rcases List.mem_cons.mp h with rfl | h
        · have hq := ih (p := q) (by simp)
          simp [hq, Ne.symm hc]
        · exact ih (by simp [h])

/-- The last piece is empty exactly when the text is, or ends with the separator. -/
theorem getLast?_pieces_eq_nil {sep : Char} {cs : List Char} (hne : cs ≠ []) :
    (pieces sep cs).getLast? = some [] ↔ cs.getLast? = some sep := by
  induction cs with
  | nil => contradiction
  | cons c cs ih =>
    cases cs with
    | nil =>
      by_cases hc : c = sep <;> simp [pieces, hc]
    | cons d ds =>
      have hrest := ih (by simp)
      rw [List.getLast?_cons_cons, ← hrest, pieces]
      cases hps : pieces sep (d :: ds) with
      | nil => exact absurd hps (pieces_ne_nil sep _)
      | cons q qs =>
        by_cases hc : c = sep
        · rw [if_pos hc, List.getLast?_cons_cons]
        · rw [if_neg hc]
          cases qs with
          | nil =>
            have hq : q = d :: ds := by simpa [hps, join] using join_pieces sep (d :: ds)
            simp [hq]
          | cons r rs => simp only [List.getLast?_cons_cons]

/-- A text without carriage returns is its own normal form. -/
theorem normalizeBreaks_of_notMem {cs : List Char} (h : '\r' ∉ cs) : normalizeBreaks cs = cs := by
  induction cs with
  | nil => rfl
  | cons c cs ih =>
    have hc : c ≠ '\r' := fun e => h (by simp [e])
    have hcs : '\r' ∉ cs := fun m => h (by simp [m])
    rw [normalizeBreaks, ih hcs]
    · rintro ds rfl
      contradiction
    · rintro rfl
      contradiction

/-- An empty last piece stands for a separator at the end. -/
theorem join_append_nil {sep : Char} {ps : List (List Char)} (hne : ps ≠ []) :
    join sep (ps ++ [[]]) = join sep ps ++ [sep] := by
  induction ps with
  | nil => contradiction
  | cons p ps ih =>
    cases ps with
    | nil => rfl
    | cons q qs =>
      have hq : join sep (q :: (qs ++ [[]])) = join sep (q :: qs) ++ [sep] := ih (by simp)
      simp only [List.cons_append, join, hq, List.append_assoc]

end BranchingDialogue.Text
