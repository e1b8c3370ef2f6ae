import BranchingDialogue.Store

/-! What clients do with a store: they start sessions and ask things of them, in any order. What is asked
of a session changes no other, and a session that is started replaces none as long as ids do not repeat. -/
namespace BranchingDialogue

namespace IdSource

variable {σ : Type}

def after (source : IdSource σ) (x : σ) : Nat → σ
  | 0 => x
  | n + 1 => (source (after source x n)).2

/-- What the call with a number gives; the first has the number zero. -/
def outcome (source : IdSource σ) (x : σ) (n : Nat) : Except UidError String :=
  (source (after source x n)).1

/-- No two calls give the same id. -/
def NeverRepeats (source : IdSource σ) (x : σ) : Prop :=
  ∀ i j id, outcome source x i = .ok id → outcome source x j = .ok id → i = j

def Issued (source : IdSource σ) (x : σ) (n : Nat) (id : String) : Prop :=
  ∃ i < n, outcome source x i = .ok id

variable {source : IdSource σ} {x : σ} {n : Nat} {id : String}

theorem issued_succ_iff :
    Issued source x (n + 1) id ↔ Issued source x n id ∨ outcome source x n = .ok id := by
  constructor
  · rintro ⟨i, hi, hid⟩
    rcases Nat.eq_or_lt_of_le (Nat.le_of_lt_succ hi) with rfl | hi
    · exact .inr hid
    · exact .inl ⟨i, hi, hid⟩
  · rintro (⟨i, hi, hid⟩ | hid)
    · exact ⟨i, Nat.lt_succ_of_lt hi, hid⟩
    · exact ⟨n, Nat.lt_succ_self n, hid⟩

/-- What was given once is not given again. -/
theorem NeverRepeats.outcome_ne (h : NeverRepeats source x) (hid : Issued source x n id) {m : Nat}
    (hm : n ≤ m) : outcome source x m ≠ .ok id := by
  obtain ⟨i, hi, hi'⟩ := hid
  intro hm'
  have := h i m id hi' hm'
  omega

theorem after_numbered (x n : Nat) : after numbered x n = x + n := by
  induction n with
  | zero => rfl
  | succ n ih =>
    rw [after, ih]
    rfl

/-- Sessions that are numbered never have the same number. -/
theorem neverRepeats_numbered (x : Nat) : NeverRepeats numbered x := by
  intro i j id hi hj
  rw [outcome, after_numbered] at hi hj
  have htext := congrArg String.toList (Except.ok.inj (hi.trans hj.symm))
  rw [String.toList_append, String.toList_append, List.append_cancel_left_eq, Nat.toString_eq_repr,
    Nat.toString_eq_repr, Nat.toList_repr, Nat.toList_repr] at htext
  have hnumber := congrArg (Nat.ofDigitChars 10 · 0) htext
  simp only [Nat.ofDigitChars_ten_toDigits] at hnumber
  omega

end IdSource

inductive Ask
  | step
  | choose (index : Number)
  | goto (marker : String)
  | view
  | delete
  deriving DecidableEq, Repr

inductive Order
  | create (script : Script)
  | ask (id : String) (what : Ask)

inductive Reply
  | created (session : Session)
  | stepped (step : Step)
  | shown (view : SessionView)
  | deleted

namespace Session

/-- What a session makes of something asked of it, and what is left of it. -/
def meet (x : Session) : Ask → Except Failure Reply × Option Session
  | .step => (x.step.1.map .stepped, some x.step.2)
  | .choose index => ((x.choose index).1.map .shown, some (x.choose index).2)
  | .goto marker => ((x.goto marker).1.map .shown, some (x.goto marker).2)
  | .view => (.ok (.shown x.view), some x)
  | .delete => (.ok .deleted, none)

/-- The replies of a session that is alone to what is asked of it in order. Once it is deleted, its id is
not known any more. -/
def replies (id : String) : Option Session → List Ask → List (Except Failure Reply)
  | _, [] => []
  | none, _ :: asks => .error (.unknownSession id) :: replies id none asks
  | some x, what :: asks => (x.meet what).1 :: replies id (x.meet what).2 asks

section
variable {α : Type} {act : Story → Playthrough.Action α} {x : Session} {c : Command} {f : Failure}

/-- What fails in a session is what its run refuses. -/
theorem exists_of_play_eq_error (h : (play act x).1 = .error f) :
    ∃ e, (act x.script.story x.run).1 = .error e ∧ f = .play e := by
  rw [play] at h
  generalize act x.script.story x.run = r at h ⊢
  obtain ⟨e | a, q⟩ := r
  · cases h
    exact ⟨e, rfl, rfl⟩
  · cases h

theorem exists_of_playAndShow_eq_error {act : Story → Playthrough.Action Unit}
    (h : (playAndShow act x).1 = .error f) :
    ∃ e, (act x.script.story x.run).1 = .error e ∧ f = .play e := by
  apply exists_of_play_eq_error
  rw [playAndShow] at h
  generalize play act x = r at h ⊢
  obtain ⟨g | a, y⟩ := r <;> cases h
  rfl

theorem exists_of_follow_eq_error (h : (follow c x).1 = .error f) : ∃ e, f = .play e := by
  rw [follow] at h
  split at h
  · split at h
    · cases h
      exact ⟨_, rfl⟩
    · obtain ⟨e, -, hf⟩ := exists_of_play_eq_error h
      exact ⟨e, hf⟩
  · cases h

theorem exists_of_step_eq_error (h : x.step.1 = .error f) : ∃ e, f = .play e := by
  rw [step] at h
  split at h
  next hplay =>
    cases h
    obtain ⟨e, -, hf⟩ := exists_of_play_eq_error (congrArg Prod.fst hplay)
    exact ⟨e, hf⟩
  next tick y _ =>
    split at h
    next hfollow =>
      cases h
      cases hc : tick.command with
      | none =>
        rw [hc] at hfollow
        cases hfollow
      | some c =>
        rw [hc] at hfollow
        exact exists_of_follow_eq_error (congrArg Prod.fst hfollow)
    next => cases h

end

theorem eq_error_of_map {α β : Type} {f : α → β} {r : Except Failure α} {e : Failure}
    (h : r.map f = .error e) : r = .error e := by
  cases r with
  | error e' => exact congrArg Except.error (Except.error.inj h)
  | ok a => cases h

/-- A session refuses only what its run refuses. -/
theorem exists_of_meet_eq_error {x : Session} {what : Ask} {e : Failure}
    (h : (x.meet what).1 = .error e) : ∃ f, e = .play f := by
  cases what with
  | step => exact exists_of_step_eq_error (eq_error_of_map h)
  | choose index =>
    obtain ⟨e, -, hf⟩ := exists_of_playAndShow_eq_error (eq_error_of_map h)
    exact ⟨e, hf⟩
  | goto marker =>
    obtain ⟨e, -, hf⟩ := exists_of_playAndShow_eq_error (eq_error_of_map h)
    exact ⟨e, hf⟩
  | view => cases h
  | delete => cases h

end Session

namespace Store

variable {σ : Type}

def ask (st : Store σ) (id : String) : Ask → Except Failure Reply × Store σ
  | .step => ((st.act id Session.step).1.map .stepped, (st.act id Session.step).2)
  | .choose index =>
    ((st.act id (Session.choose index)).1.map .shown, (st.act id (Session.choose index)).2)
  | .goto marker =>
    ((st.act id (Session.goto marker)).1.map .shown, (st.act id (Session.goto marker)).2)
  | .view => ((st.look id Session.view).map .shown, st)
  | .delete => ((st.delete id).1.map fun _ => .deleted, (st.delete id).2)

def perform (source : IdSource σ) (st : Store σ) : Order → Except Failure Reply × Store σ
  | .create script => ((st.create source script).1.map .created, (st.create source script).2)
  | .ask id what => st.ask id what

def run (source : IdSource σ) (st : Store σ) (orders : List Order) : Store σ :=
  orders.foldl (fun st order => (st.perform source order).2) st

def trace (source : IdSource σ) : Store σ → List Order → List (Order × Except Failure Reply)
  | _, [] => []
  | st, order :: orders =>
    (order, (st.perform source order).1) :: trace source (st.perform source order).2 orders

/-- The store when so much is left of the session of an id. -/
def settle (st : Store σ) (id : String) : Option Session → Store σ
  | some x => { st with sessions := st.sessions.put id x }
  | none => { st with sessions := st.sessions.erase id }

variable {source : IdSource σ} {st : Store σ} {id other : String} {x : Session}

@[simp] theorem run_nil (source : IdSource σ) (st : Store σ) : st.run source [] = st := rfl

theorem run_cons (source : IdSource σ) (st : Store σ) (order : Order) (orders : List Order) :
    st.run source (order :: orders) = (st.perform source order).2.run source orders := rfl

@[simp] theorem ids_settle (st : Store σ) (id : String) (left : Option Session) :
    (st.settle id left).ids = st.ids := by
  cases left <;> rfl

theorem get?_settle_self (st : Store σ) (id : String) (left : Option Session) :
    (st.settle id left).get? id = left := by
  cases left with
  | none => exact st.sessions.get?_erase_self id
  | some x => exact st.sessions.get?_put_self id x

theorem get?_settle_of_ne (st : Store σ) (left : Option Session) (h : other ≠ id) :
    (st.settle id left).get? other = st.get? other := by
  cases left with
  | none => exact st.sessions.get?_erase_of_ne h
  | some x => exact st.sessions.get?_put_of_ne x h

theorem settle_of_get? (h : st.get? id = some x) : st.settle id (some x) = st := by
  rw [settle, Table.put_of_get? h]

theorem nodup_names_settle (h : st.sessions.names.Nodup) (id : String) (left : Option Session) :
    (st.settle id left).sessions.names.Nodup := by
  cases left with
  | none => exact Table.nodup_names_erase h id
  | some x => exact Table.nodup_names_put h id x

/-- Nothing can be asked of a session that is not there. -/
theorem ask_of_none (h : st.get? id = none) (what : Ask) :
    st.ask id what = (.error (.unknownSession id), st) := by
  have hno : st.sessions.contains id = false := by
    rw [Table.contains]
    exact congrArg Option.isSome h
  cases what <;> simp [ask, act, look, delete, h, hno, Except.map]

/-- What is asked of a session it meets itself, and nothing else changes. -/
theorem ask_of_some (h : st.get? id = some x) (what : Ask) :
    st.ask id what = ((x.meet what).1, st.settle id (x.meet what).2) := by
  have hyes : st.sessions.contains id = true := by
    rw [Table.contains]
    exact congrArg Option.isSome h
  cases what with
  | view =>
    rw [ask, look, h, Session.meet, settle_of_get? h]
    rfl
  | delete =>
    rw [ask, delete, if_pos hyes]
    rfl
  | step =>
    rw [ask, act, h]
    rfl
  | choose index =>
    rw [ask, act, h]
    rfl
  | goto marker =>
    rw [ask, act, h]
    rfl

theorem create_of_error {e : UidError} (h : (source st.ids).1 = .error e) (script : Script) :
    st.create source script = (.error (.identifier e), { st with ids := (source st.ids).2 }) := by
  rw [create]
  cases hs : source st.ids with
  | mk outcome ids =>
    rw [hs] at h
    cases h
    rfl

theorem create_of_ok (h : (source st.ids).1 = .ok id) (script : Script) :
    st.create source script = (.ok (.start id script),
      { sessions := st.sessions.put id (.start id script), ids := (source st.ids).2 }) := by
  rw [create]
  cases hs : source st.ids with
  | mk outcome ids =>
    rw [hs] at h
    cases h
    rfl

end Store
end BranchingDialogue
