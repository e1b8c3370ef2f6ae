import BranchingDialogue.Proofs.Clocks
import BranchingDialogue.Proofs.Rounding

/-! Identifiers by a clock that is never set back. Their numbers go up with every call that gives one, and a
call fails just if all identifiers of its millisecond have been asked for before. -/
namespace BranchingDialogue

namespace Uid

variable {clock : Nat → Number} {times : Nat → Int} {y z : Int}

/-- The millisecond of the identifiers at a time: the milliseconds since the epoch, zero before it. Beyond 53
bits they are counted as exactly as a number can. -/
def millisecond (z : Int) : Nat := Number.nearest (z - 1704067200000).toNat

theorem millisecond_mono (h : y ≤ z) : millisecond y ≤ millisecond z :=
  Number.nearest_mono (by omega)

theorem millisecond_of_lt (h : z < 1704067200000 + 2 ^ 53) :
    millisecond z = (z - 1704067200000).toNat :=
  Number.nearest_of_lt (by omega)

theorem Reading.ofClock_of_isWhole {now : Number} (h : now.IsWhole z) (hz : z ≤ Number.greatest) :
    Reading.ofClock now = .whole (millisecond z) := by
  obtain ⟨k, hsub⟩ := Number.exists_sub_ofNat h 1704067200000
  rw [Reading.ofClock, epoch, hsub]
  by_cases hearly : z < 1704067200000
  · have hzero : (z - 1704067200000).toNat = 0 := by omega
    have hneg := Number.isNegative_ofRatio (w := (z - (1704067200000 : Nat)).natAbs) (by omega) k
    rw [decide_eq_true (by exact_mod_cast hearly)]
    simp only [hneg, if_true, millisecond, hzero, Number.nearest_of_lt (Nat.two_pow_pos 53)]
  · have habs : (z - (1704067200000 : Nat)).natAbs = (z - 1704067200000).toNat := by omega
    have hwhole := Number.isWhole_ofRatio (w := (z - 1704067200000).toNat) (by omega) false k
    rw [if_neg Bool.false_ne_true, Int.one_mul] at hwhole
    have hpos : ¬ (Number.ofRatio false ((z - 1704067200000).toNat * 2 ^ k) (2 ^ k)).isNegative = true := by
      rw [Number.isNegative_iff_of_isWhole hwhole]
      omega
    rw [decide_eq_false (by exact_mod_cast hearly), habs]
    simp only [if_neg hpos, Number.toNat?_of_isWhole hwhole, millisecond]

/-- A clock shows whole milliseconds, and never less than before. -/
structure Advances (clock : Nat → Number) (times : Nat → Int) : Prop where
  isWhole : ∀ i, (clock i).IsWhole (times i)
  /-- There are no greater finite numbers. -/
  le_greatest : ∀ i, times i ≤ Number.greatest
  mono : ∀ i j, i ≤ j → times i ≤ times j

/-- How many calls were made before one in its own millisecond. -/
def earlier (times : Nat → Int) (n : Nat) : Nat :=
  (List.range n).countP fun i => millisecond (times i) = millisecond (times n)

theorem Advances.ofClock (h : Advances clock times) (n : Nat) :
    Reading.ofClock (clock n) = .whole (millisecond (times n)) :=
  Reading.ofClock_of_isWhole (h.isWhole n) (h.le_greatest n)

theorem earlier_succ_of_eq {n : Nat} (hsame : millisecond (times (n + 1)) = millisecond (times n)) :
    earlier times (n + 1) = earlier times n + 1 := by
  simp [earlier, List.range_succ, hsame]

theorem earlier_eq_zero {n : Nat} (h : ∀ i < n, millisecond (times i) < millisecond (times n)) :
    earlier times n = 0 := by
  rw [earlier, List.countP_eq_zero]
  intro i hi
  have hlt := h i (List.mem_range.mp hi)
  simp
  omega

theorem earlier_lt {i j : Nat} (hij : i < j) (hsame : millisecond (times i) = millisecond (times j)) :
    earlier times i < earlier times j := by
  obtain ⟨d, rfl⟩ := Nat.exists_eq_add_of_lt hij
  have hsplit : List.range (i + d + 1) = List.range i ++ i :: (List.range d).map (i + 1 + ·) := by
    rw [Nat.add_right_comm, List.range_add, List.range_succ, List.append_assoc]
    rfl
  rw [earlier, earlier, hsplit, List.countP_append, List.countP_cons_of_pos (by simpa using hsame)]
  simp only [hsame]
  omega

/-- The counter of the generator is the number of calls before in the same millisecond, those that failed
included. -/
theorem Advances.counter_noted (h : Advances clock times) (n : Nat) :
    (Generator.noted clock (n + 1)).counter = earlier times n := by
  induction n with
  | zero => exact Generator.counter_note_of_ne nofun
  | succ n ih =>
    have hlast : (Generator.noted clock (n + 1)).last = some (.whole (millisecond (times n))) := by
      rw [Generator.last_noted, h.ofClock]
    rw [Generator.noted, h.ofClock]
    by_cases hsame : millisecond (times (n + 1)) = millisecond (times n)
    · rw [hsame, Generator.counter_note_of_eq hlast, ih, earlier_succ_of_eq hsame]
    · have hle := millisecond_mono (h.mono n (n + 1) (Nat.le_succ n))
      have hnew : (Generator.noted clock (n + 1)).last ≠ some (.whole (millisecond (times (n + 1)))) := by
        rw [hlast]
        intro heq
        exact hsame (Reading.whole.inj (Option.some.inj heq)).symm
      rw [Generator.counter_note_of_ne hnew, earlier_eq_zero]
      intro i hi
      have hi := millisecond_mono (h.mono i n (Nat.le_of_lt_succ hi))
      omega

end Uid

namespace IdSource

open Uid

variable {clock : Nat → Number} {times : Nat → Int} {n : Nat}

theorem outcome_timed_of_advances (h : Advances clock times) (n : Nat) :
    outcome (timed clock) ({}, 0) n =
      if slots ≤ earlier times n then .error .counterOverflow
      else .ok (ofNat (millisecond (times n) * slots + earlier times n)) := by
  rw [outcome_timed]
  unfold Generator.issue?
  rw [h.counter_noted, h.ofClock]

theorem outcome_timed_eq_ok {id : String} (h : Advances clock times)
    (hid : outcome (timed clock) ({}, 0) n = .ok id) :
    earlier times n < slots ∧ decode id = .ok (millisecond (times n) * slots + earlier times n) := by
  rw [outcome_timed_of_advances h] at hid
  split at hid
  next => cases hid
  next hlt =>
    cases hid
    exact ⟨Nat.lt_of_not_le hlt, decode_ofNat _⟩

/-- On a clock that is never set back the numbers of the identifiers go up, and a call fails just if 4096
calls or more were made in its millisecond before. Milliseconds are counted from the epoch, and all before it
are one; up to 53 bits they are exact. -/
theorem ordered_of_advances (h : Advances clock times) :
    (∀ i j id id', i < j → outcome (timed clock) ({}, 0) i = .ok id →
        outcome (timed clock) ({}, 0) j = .ok id' →
          ∃ v w, decode id = .ok v ∧ decode id' = .ok w ∧ v < w) ∧
      (∀ n e, outcome (timed clock) ({}, 0) n = .error e ↔
        4096 ≤ earlier times n ∧ e = .counterOverflow) ∧
      ∀ n, times n < 1704067200000 + 2 ^ 53 →
        millisecond (times n) = (times n - 1704067200000).toNat := by
  refine ⟨fun i j id id' hij hi hj => ?_, fun n e => ?_, fun n => millisecond_of_lt⟩
  · -- a later millisecond, or more calls before in the same one
    obtain ⟨hilt, hiid⟩ := outcome_timed_eq_ok h hi
    obtain ⟨hjlt, hjid⟩ := outcome_timed_eq_ok h hj
    refine ⟨_, _, hiid, hjid, ?_⟩
    have hle := millisecond_mono (h.mono i j (Nat.le_of_lt hij))
    rw [slots] at hilt ⊢
    rcases Nat.eq_or_lt_of_le hle with hsame | hlt
    · have hmore := earlier_lt hij hsame
      omega
    · omega
  · rw [outcome_timed_of_advances h]
    split
    next hfull =>
      constructor
      · intro he
        exact ⟨hfull, (Except.error.inj he).symm⟩
      · rintro ⟨-, rfl⟩
        rfl
    next hfull => exact iff_of_false (fun he => by cases he) fun he => hfull he.1

/-- Readings before the epoch, then the epoch, then the millisecond after it. The epoch is one millisecond with
all before it, and has no identifiers left. -/
theorem ordered_of_advances_across_epoch :
    let reading : Nat → Nat := fun n =>
      if n ≤ 4096 then 1704067100000 + n else 1704067200000 + min 1 (n - 4097)
    let clock : Nat → Number := fun n => .ofNat (reading n)
    Advances clock (fun n => reading n) ∧
      ∃ id id' v w, outcome (timed clock) ({}, 0) 4095 = .ok id ∧
        outcome (timed clock) ({}, 0) 4096 = .error .counterOverflow ∧
        outcome (timed clock) ({}, 0) 4097 = .error .counterOverflow ∧
        outcome (timed clock) ({}, 0) 4098 = .ok id' ∧
        decode id = .ok v ∧ decode id' = .ok w ∧ v < w := by
  intro reading clock
  have hlt : ∀ n, reading n < 2 ^ 53 := fun n => by simp only [reading]; split <;> omega
  have hadvances : Advances clock fun n => reading n := by
    refine ⟨fun n => Number.isWhole_ofNat _, fun n => ?_, fun i j hij => ?_⟩
    · exact_mod_cast Number.le_greatest (hlt n)
    · simp only [reading]
      split <;> split <;> omega
  have hearly : ∀ n ≤ 4097, millisecond (reading n) = 0 := by
    intro n hn
    have hle : reading n ≤ 1704067200000 := by
      simp only [reading]
      split <;> omega
    rw [millisecond_of_lt (by omega)]
    omega
  have hcount : ∀ n ≤ 4097, earlier (fun n => reading n) n = n := by
    intro n hn
    induction n with
    | zero => rfl
    | succ n ih =>
      rw [earlier_succ_of_eq, ih (by omega)]
      rw [hearly n (by omega), hearly (n + 1) hn]
  have hlate : earlier (fun n => reading n) 4098 = 0 := by
    apply earlier_eq_zero
    intro i hi
    rw [hearly i (by omega)]
    decide +kernel
  obtain ⟨hordered, hfails, -⟩ := ordered_of_advances hadvances
  have hok : ∀ n, earlier (fun n => reading n) n < 4096 → ∃ id, outcome (timed clock) ({}, 0) n = .ok id := by
    intro n hn
    cases hout : outcome (timed clock) ({}, 0) n with
    | ok id => exact ⟨id, rfl⟩
    | error e =>
      have hmany := ((hfails n e).mp hout).1
      omega
  obtain ⟨id, hid⟩ := hok 4095 (by rw [hcount 4095 (by decide)]; decide)
  obtain ⟨id', hid'⟩ := hok 4098 (by rw [hlate]; decide)
  obtain ⟨v, w, hv, hw, hvw⟩ := hordered 4095 4098 id id' (by decide) hid hid'
  refine ⟨hadvances, id, id', v, w, hid, ?_, ?_, hid', hv, hw, hvw⟩
  · exact (hfails 4096 _).mpr ⟨by rw [hcount 4096 (by decide)], rfl⟩
  · exact (hfails 4097 _).mpr ⟨by rw [hcount 4097 (by decide)]; decide, rfl⟩

end IdSource
end BranchingDialogue
