import BranchingDialogue.Playthrough
import Mathlib.Algebra.Order.Field.Rat
import Mathlib.Algebra.Order.Field.Power
import Mathlib.Tactic.Linarith
import Mathlib.Tactic.NormNum
import Mathlib.Tactic.Positivity

/-! What a client does with a run: any calls in any order, of which some may be refused. -/
namespace BranchingDialogue

namespace Number

/-- The value of a number, unless it is infinite or no number at all. -/
def value? : Number → Option ℚ
  | .finite negative m e => some ((if negative then -1 else 1) * (m * 2 ^ e))
  | _ => none

theorem shift_eq_some_iff (m k i : Nat) :
    (if m >>> k <<< k = m then some (m >>> k) else none) = some i ↔ m = i * 2 ^ k := by
  rw [Nat.shiftLeft_eq, Nat.shiftRight_eq_div_pow]
  constructor
  · intro h
    split at h
    next hdiv => rw [← Option.some.inj h, hdiv]
    next => cases h
  · rintro rfl
    rw [Nat.mul_div_cancel _ (Nat.two_pow_pos k), if_pos rfl]

/-- What is read as a natural number has just the value of it: no fraction, and no sign but on zero. -/
theorem toNat?_eq_some_iff {x : Number} {i : Nat} :
    x.toNat? = some i ↔ x.value? = some (i : ℚ) := by
  cases x with
  | infinite negative => simp [toNat?, value?]
  | nan => simp [toNat?, value?]
  | finite negative m e =>
    rw [toNat?, value?, Option.some_inj]
    by_cases hm : m = 0
    · simp [hm, eq_comm]
    have hpos : (0 : ℚ) < m * 2 ^ e := by
      have hm' : (0 : ℚ) < m := by exact_mod_cast Nat.pos_of_ne_zero hm
      positivity
    rw [if_neg hm]
    cases negative with
    | true =>
      have hi : (0 : ℚ) ≤ i := Nat.cast_nonneg i
      have hne : (-1 : ℚ) * (m * 2 ^ e) ≠ i := by
        intro h
        linarith
      simpa using hne
    | false =>
      rw [if_neg Bool.false_ne_true, if_neg Bool.false_ne_true, one_mul]
      by_cases he : 0 ≤ e
      · obtain ⟨k, rfl⟩ := Int.eq_ofNat_of_zero_le he
        rw [if_pos he, Option.some_inj, Int.toNat_natCast, Nat.shiftLeft_eq, zpow_natCast]
        exact_mod_cast Iff.rfl
      · obtain ⟨k, rfl⟩ : ∃ k : Nat, e = -(k : ℤ) := ⟨e.natAbs, by omega⟩
        rw [if_neg he, Int.natAbs_neg, Int.natAbs_natCast, shift_eq_some_iff, zpow_neg, zpow_natCast,
          mul_inv_eq_iff_eq_mul₀ (by positivity)]
        exact_mod_cast Iff.rfl

end Number

inductive Call
  | tick
  | choose (index : Number)
  | goto (marker : String)
  deriving DecidableEq, Repr

namespace Playthrough

/-- The answer to a call, which is a tick if that was called for, and the run after it. -/
def call (s : Story) (p : Playthrough) : Call → Except PlayError (Option Tick) × Playthrough
  | .tick => ((Action.tick s p).1.map some, (Action.tick s p).2)
  | .choose index => ((Action.choose s index p).1.map fun _ => none, (Action.choose s index p).2)
  | .goto marker => ((Action.goto s marker p).1.map fun _ => none, (Action.goto s marker p).2)

def calls (s : Story) (p : Playthrough) (cs : List Call) : Playthrough :=
  cs.foldl (fun p c => (p.call s c).2) p

/-- The tick that a call gives, if it has a command. -/
def emission? (s : Story) (p : Playthrough) (c : Call) : Option Tick :=
  match (p.call s c).1 with
  | .ok (some t) => if t.command.isSome then some t else none
  | _ => none

def emissions (s : Story) : Playthrough → List Call → List Tick
  | _, [] => []
  | p, c :: cs => (p.emission? s c).toList ++ emissions s (p.call s c).2 cs

/-- The node whose command a call gives, if it gives one. -/
def visit? (s : Story) (p : Playthrough) (c : Call) : Option Nat :=
  match p.emission? s c, p.position with
  | some _, .line node _ => some node
  | _, _ => none

def visits (s : Story) : Playthrough → List Call → List Nat
  | _, [] => []
  | p, c :: cs => (p.visit? s c).toList ++ visits s (p.call s c).2 cs

/-- What can become of a call: it is refused and changes nothing, or its node is missing, or it ticks at
the end or before a line, or picks an option, or jumps to where a marker leads. -/
inductive Outcome (s : Story) (p : Playthrough) :
    Call → Except PlayError (Option Tick) × Playthrough → Prop
  | refused {c : Call} {e : PlayError} (h : p.call s c = (.error e, p))
      (he : ∀ id, e ≠ .missingNode id) : Outcome s p c (.error e, p)
  | stuck {node : Nat} {chosen : Bool} (h : p.position = .line node chosen)
      (hd : s.command? node = none) :
    Outcome s p .tick (.error (.missingNode node), { p with ticks := p.ticks + 1 })
  | silent (h : p.position = .done) :
    Outcome s p .tick (.ok (some { number := p.ticks, command := none }), p)
  | spoken {node : Nat} {chosen : Bool} {d : Command} (h : p.position = .line node chosen)
      (hd : s.command? node = some d) :
    Outcome s p .tick (.ok (some { number := p.ticks, command := some d }),
      { position := s.after node chosen, ticks := p.ticks + 1 })
  | picked {options : List Nat} {source : ChoiceSource} {index : Number} {i option : Nat}
      (h : p.position = .choice options source) (hi : index.toNat? = some i)
      (hoption : options[i]? = some option) :
    Outcome s p (.choose index) (.ok none, { p with position := s.afterChoice option source })
  | jumped {marker : String} {target : Option Nat} (h : s.markers.get? marker = some target) :
    Outcome s p (.goto marker) (.ok none, { p with position := .before target })

section
variable {s : Story} {p : Playthrough}

theorem call_tick {t : Tick} {q : Playthrough} (h : p.tick s = .ok (t, q)) :
    p.call s .tick = (.ok (some t), q) := by
  rw [call, Action.outcome_eq_ok_iff.mp h]
  rfl

theorem call_goto {marker : String} {q : Playthrough} (h : p.goto s marker = .ok q) :
    p.call s (.goto marker) = (.ok none, q) := by
  rw [call, Action.map_outcome_eq_ok_iff.mp h]
  rfl

theorem call_tick_of_error {e : PlayError} (h : p.tick s = .error e) : (p.call s .tick).1 = .error e := by
  rw [call, Action.outcome_eq_error_iff.mp h]
  rfl

theorem call_choose_of_error {index : Number} {e : PlayError} (h : (Action.choose s index p).1 = .error e) :
    (p.call s (.choose index)).1 = .error e := by
  rw [call, h]
  rfl

theorem call_goto_of_error {marker : String} {e : PlayError} (h : (Action.goto s marker p).1 = .error e) :
    (p.call s (.goto marker)).1 = .error e := by
  rw [call, h]
  rfl

theorem outcome_tick (s : Story) (p : Playthrough) : Outcome s p .tick (p.call s .tick) := by
  cases hp : p.position with
  | done =>
    rw [call_tick (tick_of_done hp)]
    exact .silent hp
  | choice options source =>
    have hcall : p.call s .tick = (.error .choicePending, p) := by
      rw [call, Action.tick, hp]
      rfl
    rw [hcall]
    exact .refused hcall (fun _ => PlayError.noConfusion)
  | line node chosen =>
    cases hd : s.command? node with
    | none =>
      have hcall : p.call s .tick = (.error (.missingNode node), { p with ticks := p.ticks + 1 }) := by
        rw [call, Action.tick, hp]
        simp only [hd]
        rfl
      rw [hcall]
      exact .stuck hp hd
    | some d =>
      rw [call_tick (tick_of_line hp hd)]
      exact .spoken hp hd

theorem outcome_choose (s : Story) (p : Playthrough) (index : Number) :
    Outcome s p (.choose index) (p.call s (.choose index)) := by
  have hrefused {e : PlayError} (he : ∀ id, e ≠ .missingNode id)
      (h : Action.choose s index p = (.error e, p)) :
      Outcome s p (.choose index) (p.call s (.choose index)) := by
    have hcall : p.call s (.choose index) = (.error e, p) := by
      rw [call, h]
      rfl
    rw [hcall]
    exact .refused hcall he
  cases hp : p.position with
  | done => exact hrefused (e := .ended) (fun _ => PlayError.noConfusion) (by rw [Action.choose, hp])
  | line node chosen => exact hrefused (e := .noChoice) (fun _ => PlayError.noConfusion) (by rw [Action.choose, hp])
  | choice options source =>
    cases hb : index.toNat?.bind (options[·]?) with
    | none =>
      refine hrefused (e := .choiceOutOfRange index options.length) (fun _ => PlayError.noConfusion) ?_
      rw [Action.choose, hp]
      simp only [hb]
    | some option =>
      obtain ⟨i, hi, hoption⟩ := Option.bind_eq_some_iff.mp hb
      rw [call, Action.map_outcome_eq_ok_iff.mp (choose_of_choice hp hi hoption)]
      exact .picked hp hi hoption

theorem outcome_goto (s : Story) (p : Playthrough) (marker : String) :
    Outcome s p (.goto marker) (p.call s (.goto marker)) := by
  cases hm : s.markers.get? marker with
  | none =>
    have hcall : p.call s (.goto marker) = (.error (.unknownMarker marker), p) := by
      rw [call, Action.goto, hm]
      rfl
    rw [hcall]
    exact .refused hcall (fun _ => PlayError.noConfusion)
  | some target =>
    rw [call_goto (goto_of_some hm)]
    exact .jumped hm

theorem call_outcome (s : Story) (p : Playthrough) (c : Call) : Outcome s p c (p.call s c) := by
  cases c with
  | tick => exact outcome_tick s p
  | choose index => exact outcome_choose s p index
  | goto marker => exact outcome_goto s p marker

/-- A pick is accepted at a choice only, and for the number of an option only. -/
theorem exists_of_choose_eq_ok {index : Number} {q : Playthrough} (h : p.choose s index = .ok q) :
    ∃ options source i option, p.position = .choice options source ∧ index.toNat? = some i ∧
      options[i]? = some option ∧ q = { p with position := s.afterChoice option source } := by
  have hout := p.call_outcome s (.choose index)
  rw [call, Action.map_outcome_eq_ok_iff.mp h] at hout
  cases hout with
  | picked hp hi hoption => exact ⟨_, _, _, _, hp, hi, hoption, rfl⟩

/-- A call that is refused changes nothing, unless a node is missing before which the run stands. -/
theorem call_of_error {c : Call} {e : PlayError} (h : (p.call s c).1 = .error e) :
    p.call s c = (.error e, p) ∧ (∀ id, e ≠ .missingNode id) ∨
      c = .tick ∧ ∃ node chosen, p.position = .line node chosen ∧ s.command? node = none := by
  have hout := p.call_outcome s c
  generalize hr : p.call s c = r at hout h
  cases hout with
  | refused hcall he =>
    cases h
    exact .inl ⟨rfl, he⟩
  | stuck hp hd => exact .inr ⟨rfl, _, _, hp, hd⟩
  | _ => cases h

@[simp] theorem calls_nil (s : Story) (p : Playthrough) : p.calls s [] = p := rfl

theorem calls_cons (s : Story) (p : Playthrough) (c : Call) (cs : List Call) :
    p.calls s (c :: cs) = (p.call s c).2.calls s cs := rfl

/-- What every call keeps, a run of calls keeps. -/
theorem calls_induct {motive : Playthrough → Prop}
    (hstep : ∀ p c, motive p → motive (p.call s c).2) (h : motive p) (cs : List Call) :
    motive (p.calls s cs) := by
  induction cs generalizing p with
  | nil => exact h
  | cons c cs ih => exact ih (hstep p c h)

theorem map_command_emission? (s : Story) (p : Playthrough) (c : Call) :
    (p.emission? s c).toList.map Tick.command = (p.visit? s c).toList.map s.command? := by
  have h := p.call_outcome s c
  rw [visit?, emission?]
  generalize p.call s c = r at h
  cases h with
  | spoken hp hd => simp [hp, hd]
  | _ => simp

/-- The command of each tick is that of the node it was taken from. -/
theorem map_command_emissions (s : Story) (p : Playthrough) (cs : List Call) :
    (p.emissions s cs).map Tick.command = (p.visits s cs).map s.command? := by
  induction cs generalizing p with
  | nil => rfl
  | cons c cs ih =>
    rw [emissions, visits, List.map_append, List.map_append, p.map_command_emission? s c,
      ih (p.call s c).2]

end
end Playthrough
end BranchingDialogue
