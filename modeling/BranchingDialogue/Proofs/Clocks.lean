import BranchingDialogue.Proofs.Separation
import BranchingDialogue.Proofs.Symbols

/-! Identifiers from a clock that may go any way. The generator knows the last reading only: an identifier is
given twice just if the clock shows a millisecond again after it had shown something else, and then a
session that is started replaces another one. -/
namespace BranchingDialogue

namespace Uid

namespace Generator

variable {g : Generator} {r : Reading} {id : String} {ms i j k : Nat} {clock : Nat → Number}

theorem last_note (g : Generator) (r : Reading) : (g.note r).last = some r := by
  rw [note]
  split
  next h =>
    rw [repeats, Bool.and_eq_true] at h
    exact of_decide_eq_true h.1
  next => rfl

theorem counter_note_of_ne (h : g.last ≠ some r) : (g.note r).counter = 0 := by
  have hnew : g.repeats r = false := by
    rw [repeats, decide_eq_false h, Bool.false_and]
  rw [note, hnew]
  rfl

theorem counter_note_of_eq (h : g.last = some (.whole ms)) :
    (g.note (.whole ms)).counter = g.counter + 1 := by
  have hsame : g.repeats (.whole ms) = true := by
    rw [repeats, decide_eq_true h, Bool.true_and]
    rfl
  rw [note, if_pos hsame]

theorem issue?_eq_ok_iff :
    g.issue? r = .ok id ↔ ∃ ms, r = .whole ms ∧ g.counter < slots ∧ ofNat (ms * slots + g.counter) = id := by
  unfold issue?
  split
  next h =>
    refine iff_of_false (fun hok => by cases hok) ?_
    rintro ⟨-, -, hlt, -⟩
    exact absurd h (Nat.not_le_of_lt hlt)
  next h =>
    cases r with
    | whole ms =>
      constructor
      · intro hok
        exact ⟨ms, rfl, Nat.lt_of_not_le h, Except.ok.inj hok⟩
      · rintro ⟨_, hms, -, rfl⟩
        cases hms
        rfl
    | broken x =>
      refine iff_of_false (fun hok => by cases hok) ?_
      rintro ⟨_, hms, -⟩
      cases hms

def noted (clock : Nat → Number) : Nat → Generator
  | 0 => {}
  | n + 1 => (noted clock n).note (Reading.ofClock (clock n))

theorem last_noted (clock : Nat → Number) (n : Nat) :
    (noted clock (n + 1)).last = some (Reading.ofClock (clock n)) :=
  last_note _ _

/-- The counter goes up as long as the clock stands still. -/
theorem counter_noted (d : Nat)
    (hstill : ∀ k, i ≤ k → k ≤ i + d → Reading.ofClock (clock k) = .whole ms) :
    (noted clock (i + d + 1)).counter = (noted clock (i + 1)).counter + d := by
  induction d with
  | zero => rfl
  | succ d ih =>
    have hlast : (noted clock (i + d + 1)).last = some (.whole ms) := by
      rw [last_noted, hstill (i + d) (by omega) (by omega)]
    have hbefore := ih fun k hik hkd => hstill k hik (by omega)
    rw [← Nat.add_assoc, noted, hstill (i + d + 1) (by omega) (by omega), counter_note_of_eq hlast,
      hbefore, Nat.add_assoc]

/-- If the clock shows a millisecond that was not the last, then it changed to that millisecond some time
before. -/
theorem exists_last_ne (hjk : j ≤ k) (hlast : (noted clock j).last ≠ some (.whole ms))
    (hk : Reading.ofClock (clock k) = .whole ms) :
    ∃ m, j ≤ m ∧ m ≤ k ∧ (noted clock m).last ≠ some (.whole ms) ∧
      Reading.ofClock (clock m) = .whole ms := by
  induction hjk with
  | refl => exact ⟨j, Nat.le_refl j, Nat.le_refl j, hlast, hk⟩
  | @step k hjk ih =>
    by_cases hbefore : Reading.ofClock (clock k) = .whole ms
    · obtain ⟨m, hjm, hmk, hm⟩ := ih hbefore
      exact ⟨m, hjm, Nat.le_succ_of_le hmk, hm⟩
    · refine ⟨k + 1, Nat.le_succ_of_le hjk, Nat.le_refl _, fun heq => hbefore ?_, hk⟩
      rw [last_noted] at heq
      exact Option.some.inj heq

end Generator

/-- No millisecond is shown again once the clock has shown something else. -/
def NeverComesBack (clock : Nat → Number) : Prop :=
  ∀ i j k ms, i < j → j < k → Reading.ofClock (clock i) = .whole ms →
    Reading.ofClock (clock k) = .whole ms → Reading.ofClock (clock j) = .whole ms

end Uid

namespace IdSource

open Uid

variable {clock : Nat → Number} {n i j ms : Nat} {id : String}

theorem after_timed (clock : Nat → Number) (n : Nat) :
    after (timed clock) ({}, 0) n = (Generator.noted clock n, n) := by
  induction n with
  | zero => rfl
  | succ n ih =>
    rw [after, ih]
    rfl

theorem outcome_timed (clock : Nat → Number) (n : Nat) :
    outcome (timed clock) ({}, 0) n =
      (Generator.noted clock (n + 1)).issue? (Reading.ofClock (clock n)) := by
  rw [outcome, after_timed]
  rfl

/-- The first identifier of a millisecond after another reading has the counter zero. -/
theorem outcome_timed_of_last_ne (hlast : (Generator.noted clock n).last ≠ some (.whole ms))
    (h : Reading.ofClock (clock n) = .whole ms) :
    outcome (timed clock) ({}, 0) n = .ok (ofNat (ms * slots)) := by
  have hcounter : (Generator.noted clock (n + 1)).counter = 0 := by
    rw [Generator.noted, h, Generator.counter_note_of_ne hlast]
  rw [outcome_timed, Generator.issue?_eq_ok_iff, hcounter]
  exact ⟨ms, h, Nat.zero_lt_succ 4095, congrArg ofNat (Nat.add_zero _)⟩

/-- While no millisecond comes back, a later call gives another identifier. -/
theorem not_lt_of_outcome_timed (h : NeverComesBack clock)
    (hi : outcome (timed clock) ({}, 0) i = .ok id) (hj : outcome (timed clock) ({}, 0) j = .ok id) :
    ¬ i < j := by
  intro hij
  rw [outcome_timed, Generator.issue?_eq_ok_iff] at hi hj
  obtain ⟨ms, hi, hilt, hiid⟩ := hi
  obtain ⟨ms', hj, hjlt, hjid⟩ := hj
  have hnumber := ofNat_injective (hiid.trans hjid.symm)
  rw [slots] at hilt hjlt hnumber
  obtain rfl : ms' = ms := by omega
  obtain ⟨d, rfl⟩ := Nat.exists_eq_add_of_lt hij
  have hcounter := Generator.counter_noted (d + 1) fun k hik hkd => by
    rcases Nat.eq_or_lt_of_le hik with rfl | hik
    · exact hi
    · rcases Nat.eq_or_lt_of_le hkd with rfl | hkd
      · exact hj
      · exact h i k _ ms' hik hkd hi hj
  rw [← Nat.add_assoc] at hcounter
  omega

/-- Identifiers by a clock never repeat just if no millisecond comes back. -/
theorem neverRepeats_timed (clock : Nat → Number) :
    NeverRepeats (timed clock) ({}, 0) ↔ NeverComesBack clock := by
  constructor
  · intro h i j k ms hij hjk hi hk
    refine Decidable.byContradiction fun hj => ?_
    have hstart : (Generator.noted clock 0).last ≠ some (.whole ms) := nofun
    have hbetween : (Generator.noted clock (j + 1)).last ≠ some (.whole ms) := by
      rw [Generator.last_noted]
      exact fun heq => hj (Option.some.inj heq)
    obtain ⟨a, -, hai, halast, ha⟩ := Generator.exists_last_ne (Nat.zero_le i) hstart hi
    obtain ⟨b, hjb, -, hblast, hb⟩ := Generator.exists_last_ne hjk hbetween hk
    have hab := h a b _ (outcome_timed_of_last_ne halast ha) (outcome_timed_of_last_ne hblast hb)
    omega
  · intro h i j id hi hj
    have hij := not_lt_of_outcome_timed h hi hj
    have hji := not_lt_of_outcome_timed h hj hi
    omega

end IdSource

namespace Store

variable {σ : Type} {source : IdSource σ} {x : σ} {i j : Nat} {id : String}

/-- Whatever was done before, a session that is started is one more, and the others stay as they are. -/
def CreateAdds (source : IdSource σ) (x : σ) : Prop :=
  ∀ past script y next, (run source { ids := x } past).create source script = (.ok y, next) →
    next.size = (run source { ids := x } past).size + 1 ∧ next.get? y.id = some y ∧
      ∀ id z, (run source { ids := x } past).get? id = some z → next.get? id = some z

theorem createAdds_of_neverRepeats (hfresh : IdSource.NeverRepeats source x) : CreateAdds source x := by
  intro past script y next hcreate
  have haccounts := accounts_run hfresh past
  cases hs : (source (run source { ids := x } past).ids).1 with
  | error e =>
    rw [create_of_error hs] at hcreate
    cases hcreate
  | ok new =>
    have hnone := haccounts.get?_eq_none hfresh hs
    rw [create_of_ok hs] at hcreate
    cases hcreate
    refine ⟨Table.size_put_of_none hnone _, Table.get?_put_self _ _ _, fun id z hz => ?_⟩
    have hne : id ≠ new := by
      rintro rfl
      rw [hnone] at hz
      cases hz
    exact (Table.get?_put_of_ne _ _ hne).trans hz

/-- When nothing is done but to start sessions, the source is called once for each, and every id given has a
session. -/
theorem run_replicate_create (source : IdSource σ) (x : σ) (script : Script) (n : Nat) :
    (run source { ids := x } (.replicate n (.create script))).ids = IdSource.after source x n ∧
      ∀ id, IdSource.Issued source x n id →
        ((run source { ids := x } (.replicate n (.create script))).get? id).isSome := by
  induction n with
  | zero =>
    refine ⟨rfl, ?_⟩
    rintro id ⟨i, hi, -⟩
    exact absurd hi (Nat.not_lt_zero i)
  | succ n ih =>
    obtain ⟨hids, hlive⟩ := ih
    rw [List.replicate_succ', run, List.foldl_append, List.foldl_cons, List.foldl_nil, ← run]
    cases hs : (source (run source { ids := x } (.replicate n (.create script))).ids).1 with
    | error e =>
      rw [perform_create_of_error hs]
      rw [hids] at hs ⊢
      refine ⟨rfl, fun id hid => ?_⟩
      rcases IdSource.issued_succ_iff.mp hid with hid | hid
      · exact hlive id hid
      · rw [IdSource.outcome, hs] at hid
        cases hid
    | ok new =>
      rw [perform_create_of_ok hs]
      rw [hids] at hs ⊢
      refine ⟨rfl, fun id hid => ?_⟩
      by_cases hnew : id = new
      · rw [hnew, get?, Table.get?_put_self]
        rfl
      · rw [get?, Table.get?_put_of_ne _ _ hnew]
        rcases IdSource.issued_succ_iff.mp hid with hid | hid
        · exact hlive id hid
        · exact absurd (Except.ok.inj (hid.symm.trans hs)) hnew

theorem not_lt_of_createAdds (h : CreateAdds source x) (hi : IdSource.outcome source x i = .ok id)
    (hj : IdSource.outcome source x j = .ok id) : ¬ i < j := by
  intro hij
  obtain ⟨hids, hlive⟩ := run_replicate_create source x default j
  have hid : (source (run source { ids := x } (.replicate j (.create default))).ids).1 = .ok id := by
    rw [hids]
    exact hj
  obtain ⟨hsize, -⟩ := h _ default _ _ (create_of_ok hid default)
  have hsame := Table.size_put_of_isSome (hlive id ⟨i, hij, hi⟩) (Session.start id default)
  rw [size, hsame, size] at hsize
  omega

/-- Starting sessions never replaces one just if the ids never repeat. -/
theorem createAdds_iff (source : IdSource σ) (x : σ) :
    CreateAdds source x ↔ IdSource.NeverRepeats source x := by
  refine ⟨fun h i j id hi hj => ?_, createAdds_of_neverRepeats⟩
  have hij := not_lt_of_createAdds h hi hj
  have hji := not_lt_of_createAdds h hj hi
  omega

/-- With identifiers by a clock, no two are the same just if the clock never comes back to a millisecond,
and just then a session that is started replaces none. -/
theorem createAdds_timed_iff (clock : Nat → Number) :
    (IdSource.NeverRepeats (IdSource.timed clock) ({}, 0) ↔ Uid.NeverComesBack clock) ∧
      (CreateAdds (IdSource.timed clock) ({}, 0) ↔ Uid.NeverComesBack clock) :=
  ⟨IdSource.neverRepeats_timed clock, (createAdds_iff _ _).trans (IdSource.neverRepeats_timed clock)⟩

/-- A clock set back by a millisecond: the third session takes the place of the first. -/
theorem exists_create_replaces :
    ∃ inn mill, Script.compile {} "inn" "%START%\n|SAY| a\n%END%\n" = (.ok inn, []) ∧
      Script.compile {} "mill" "%START%\n|SAY| b\n%END%\n" = (.ok mill, []) ∧
      let source := IdSource.timed fun n => .ofNat (if n = 1 then 1704067200006 else 1704067200005)
      let st := run source { ids := ({}, 0) } [.create inn, .create inn]
      source.outcome ({}, 0) 0 = .ok "E__" ∧ source.outcome ({}, 0) 1 = .ok "F__" ∧
        source.outcome ({}, 0) 2 = .ok "E__" ∧ st.get? "E__" = some (.start "E__" inn) ∧
        ∃ next, st.create source mill = (.ok (.start "E__" mill), next) ∧ next.size = st.size ∧
          next.get? "E__" = some (.start "E__" mill) ∧
          (Session.start "E__" mill).view ≠ (Session.start "E__" inn).view := by
  obtain ⟨inn, hinn, hinnId⟩ : ∃ inn, Script.compile {} "inn" "%START%\n|SAY| a\n%END%\n" = (.ok inn, []) ∧
    inn.id = "inn" := ⟨_, (Script.compile_eq_judge {} _ _).trans rfl, rfl⟩
  obtain ⟨mill, hmill, hmillId⟩ : ∃ mill, Script.compile {} "mill" "%START%\n|SAY| b\n%END%\n" =
    (.ok mill, []) ∧ mill.id = "mill" := ⟨_, (Script.compile_eq_judge {} _ _).trans rfl, rfl⟩
  refine ⟨inn, mill, hinn, hmill, ?_⟩
  intro source st
  have hfirst : source.outcome ({}, 0) 0 = .ok "E__" := by
    rw [IdSource.outcome_timed, Uid.Generator.issue?_eq_ok_iff]
    exact ⟨5, by decide +kernel, by decide +kernel, by decide +kernel⟩
  have hsecond : source.outcome ({}, 0) 1 = .ok "F__" := by
    rw [IdSource.outcome_timed, Uid.Generator.issue?_eq_ok_iff]
    exact ⟨6, by decide +kernel, by decide +kernel, by decide +kernel⟩
  have hthird : source.outcome ({}, 0) 2 = .ok "E__" := by
    rw [IdSource.outcome_timed, Uid.Generator.issue?_eq_ok_iff]
    exact ⟨5, by decide +kernel, by decide +kernel, by decide +kernel⟩
  let one : Store (Uid.Generator × Nat) :=
    { sessions := Table.empty.put "E__" (.start "E__" inn), ids := source.after ({}, 0) 1 }
  let two : Store (Uid.Generator × Nat) :=
    { sessions := one.sessions.put "F__" (.start "F__" inn), ids := source.after ({}, 0) 2 }
  have hone : ({ ids := ({}, 0) } : Store _).perform source (.create inn) =
      (.ok (.created (.start "E__" inn)), one) := perform_create_of_ok hfirst inn
  have htwo : one.perform source (.create inn) = (.ok (.created (.start "F__" inn)), two) :=
    perform_create_of_ok hsecond inn
  have hst : st = two := by
    change run source _ _ = two
    rw [run_cons, hone, run_cons, htwo, run_nil]
  have hget : st.get? "E__" = some (.start "E__" inn) := by
    rw [hst]
    exact (Table.get?_put_of_ne _ _ (by decide)).trans (Table.get?_put_self _ _ _)
  have hnext : (source st.ids).1 = .ok "E__" := by
    rw [hst]
    exact hthird
  refine ⟨hfirst, hsecond, hthird, hget, _, create_of_ok hnext mill, ?_, Table.get?_put_self _ _ _, ?_⟩
  · exact Table.size_put_of_isSome (Option.isSome_of_eq_some hget) _
  · intro hview
    have hid : mill.id = inn.id := congrArg SessionView.scriptId hview
    rw [hmillId, hinnId] at hid
    exact absurd hid (by decide)

end Store
end BranchingDialogue
