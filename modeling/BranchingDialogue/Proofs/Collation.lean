import Mathlib.Data.List.Lex
import BranchingDialogue.Text.Units

/-! The order of texts by their sixteen-bit units. It is a linear order, and what two texts begin with in
common has no say in it. -/
namespace BranchingDialogue.Text

variable {a b : Char} {us vs : List Nat} {r s t : String}

theorem units_ne_nil (c : Char) : units c ≠ [] := by
  unfold units
  split <;> simp

/-- The leading unit of a character tells how many units it has. -/
theorem units_append_inj (h : units a ++ us = units b ++ vs) : a = b ∧ us = vs := by
  have ha : a.toNat < 0xD800 ∨ 0xDFFF < a.toNat ∧ a.toNat < 0x110000 := a.valid
  have hb : b.toNat < 0xD800 ∨ 0xDFFF < b.toNat ∧ b.toNat < 0x110000 := b.valid
  unfold units at h
  split at h <;> split at h <;> simp only [List.cons_append, List.nil_append, List.cons.injEq] at h
  · exact ⟨Char.toNat_inj.mp h.1, h.2⟩
  · omega
  · omega
  · exact ⟨Char.toNat_inj.mp (by omega), h.2.2⟩

theorem flatMap_units_injective {cs ds : List Char} (h : cs.flatMap units = ds.flatMap units) : cs = ds := by
  induction cs generalizing ds with
  | nil =>
    cases ds with
    | nil => rfl
    | cons d ds => exact absurd (List.append_eq_nil_iff.mp h.symm).1 (units_ne_nil d)
  | cons c cs ih =>
    cases ds with
    | nil => exact absurd (List.append_eq_nil_iff.mp h).1 (units_ne_nil c)
    | cons d ds =>
      rw [List.flatMap_cons, List.flatMap_cons] at h
      obtain ⟨rfl, hrest⟩ := units_append_inj h
      rw [ih hrest]

theorem unitsLE_iff (us vs : List Nat) : unitsLE us vs = true ↔ us ≤ vs := by
  rw [← not_lt]
  induction us generalizing vs with
  | nil => simp [unitsLE]
  | cons u us ih =>
    cases vs with
    | nil => simp [unitsLE]
    | cons v vs =>
      simp only [unitsLE, Bool.or_eq_true, decide_eq_true_eq, Bool.and_eq_true, beq_iff_eq, ih,
        List.cons_lt_cons_iff]
      rcases lt_trichotomy u v with h | rfl | h
      · simp [h, h.not_gt, h.ne']
      · simp
      · simp [h, h.not_gt, h.ne']

theorem unitsLE_append (ws us vs : List Nat) : unitsLE (ws ++ us) (ws ++ vs) = unitsLE us vs := by
  induction ws with
  | nil => rfl
  | cons w ws ih => simp [unitsLE, ih]

theorem before_iff : before s t = true ↔ s.toList.flatMap units ≤ t.toList.flatMap units :=
  unitsLE_iff _ _

theorem before_total (s t : String) : (before s t || before t s) = true := by
  rw [Bool.or_eq_true, before_iff, before_iff]
  exact le_total _ _

theorem before_trans (hrs : before r s = true) (hst : before s t = true) : before r t = true := by
  rw [before_iff] at hrs hst ⊢
  exact hrs.trans hst

theorem before_antisymm (hst : before s t = true) (hts : before t s = true) : s = t := by
  rw [before_iff] at hst hts
  apply String.toList_injective
  exact flatMap_units_injective (le_antisymm hst hts)

/-- Texts that begin with the same are in the order of what follows it. -/
theorem before_append (r s t : String) : before (r ++ s) (r ++ t) = before s t := by
  unfold before
  simp only [String.toList_append, List.flatMap_append, unitsLE_append]

end BranchingDialogue.Text
