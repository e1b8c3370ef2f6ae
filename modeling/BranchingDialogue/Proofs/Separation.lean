import BranchingDialogue.Proofs.Orders
import BranchingDialogue.Proofs.Approval

/-! Sessions do not interfere. However the orders of many clients are mixed, each session replies as if it
were alone with what is asked of it, from the moment it is started; and the sessions of a store are those
that were started and not deleted since. -/
namespace BranchingDialogue

def Order.askOf? (id : String) : Order → Option Ask
  | .ask other what => if other = id then some what else none
  | .create _ => none

def asksOf (id : String) (orders : List Order) : List Ask := orders.filterMap (Order.askOf? id)

def repliesTo (id : String) (trace : List (Order × Except Failure Reply)) : List (Except Failure Reply) :=
  trace.filterMap fun e => (e.1.askOf? id).map fun _ => e.2

theorem Order.askOf?_eq_some_iff {id : String} {order : Order} {what : Ask} :
    order.askOf? id = some what ↔ order = .ask id what := by
  cases order with
  | create script => simp [askOf?]
  | ask other asked => simp [askOf?]

section
variable {id : String} {order : Order} {what : Ask} {orders : List Order}
  {reply : Except Failure Reply} {tr : List (Order × Except Failure Reply)}

theorem asksOf_cons_of_none (h : order.askOf? id = none) :
    asksOf id (order :: orders) = asksOf id orders :=
  List.filterMap_cons_none h

theorem asksOf_cons_ask : asksOf id (.ask id what :: orders) = what :: asksOf id orders :=
  List.filterMap_cons_some (Order.askOf?_eq_some_iff.mpr rfl)

theorem repliesTo_cons_of_none (h : order.askOf? id = none) :
    repliesTo id ((order, reply) :: tr) = repliesTo id tr :=
  List.filterMap_cons_none (by rw [h]; rfl)

theorem repliesTo_cons_ask : repliesTo id ((.ask id what, reply) :: tr) = reply :: repliesTo id tr :=
  List.filterMap_cons_some (by rw [Order.askOf?_eq_some_iff.mpr rfl]; rfl)

end

def createdId? : Order × Except Failure Reply → Option String
  | (.create _, .ok (.created x)) => some x.id
  | _ => none

def deletedId? : Order × Except Failure Reply → Option String
  | (.ask id .delete, .ok .deleted) => some id
  | _ => none

def createdIds (trace : List (Order × Except Failure Reply)) : List String := trace.filterMap createdId?

def deletedIds (trace : List (Order × Except Failure Reply)) : List String := trace.filterMap deletedId?

namespace Store

variable {σ : Type} {source : IdSource σ} {x : σ} {st : Store σ} {n : Nat} {id : String} {what : Ask}
  {tr : List (Order × Except Failure Reply)}

theorem perform_create_of_error {e : UidError} (h : (source st.ids).1 = .error e) (script : Script) :
    st.perform source (.create script) =
      (.error (.identifier e), { st with ids := (source st.ids).2 }) := by
  rw [perform, create_of_error h]
  rfl

theorem perform_create_of_ok (h : (source st.ids).1 = .ok id) (script : Script) :
    st.perform source (.create script) = (.ok (.created (.start id script)),
      { sessions := st.sessions.put id (.start id script), ids := (source st.ids).2 }) := by
  rw [perform, create_of_ok h]
  rfl

/-- An order calls the source of ids once at most, and leaves every session alone but the one that it
asks something of or that it starts. -/
theorem perform_of_askOf?_eq_none (hids : st.ids = IdSource.after source x n)
    (hid : ∀ m, n ≤ m → IdSource.outcome source x m ≠ .ok id) {order : Order}
    (ho : order.askOf? id = none) :
    (st.perform source order).2.get? id = st.get? id ∧
      ∃ m, n ≤ m ∧ (st.perform source order).2.ids = IdSource.after source x m := by
  cases order with
  | create script =>
    have hnext : (source st.ids).2 = IdSource.after source x (n + 1) := by rw [hids]; rfl
    cases hs : (source st.ids).1 with
    | error e =>
      rw [perform_create_of_error hs]
      exact ⟨rfl, n + 1, Nat.le_succ n, hnext⟩
    | ok new =>
      have hne : id ≠ new := by
        rintro rfl
        rw [hids] at hs
        exact hid n (Nat.le_refl n) hs
      rw [perform_create_of_ok hs]
      exact ⟨Table.get?_put_of_ne _ _ hne, n + 1, Nat.le_succ n, hnext⟩
  | ask other what =>
    have hne : id ≠ other := by
      rintro rfl
      simp [Order.askOf?] at ho
    rw [perform]
    cases hx : st.get? other with
    | none =>
      rw [ask_of_none hx]
      exact ⟨rfl, n, Nat.le_refl n, hids⟩
    | some y =>
      rw [ask_of_some hx]
      refine ⟨get?_settle_of_ne st _ hne, n, Nat.le_refl n, ?_⟩
      rw [ids_settle]
      exact hids

/-- As long as no new session gets its id, a session replies as if it were alone. -/
theorem repliesTo_trace (hids : st.ids = IdSource.after source x n)
    (hid : ∀ m, n ≤ m → IdSource.outcome source x m ≠ .ok id) (orders : List Order) :
    repliesTo id (st.trace source orders) = Session.replies id (st.get? id) (asksOf id orders) := by
  induction orders generalizing st n with
  | nil => rw [trace, repliesTo, asksOf, List.filterMap_nil, List.filterMap_nil, Session.replies]
  | cons order orders ih =>
    rw [trace]
    cases ho : order.askOf? id with
    | none =>
      obtain ⟨hsame, m, hm, hids'⟩ := perform_of_askOf?_eq_none hids hid ho
      rw [repliesTo_cons_of_none ho, asksOf_cons_of_none ho, ← hsame]
      exact ih hids' fun k hk => hid k (Nat.le_trans hm hk)
    | some what =>
      obtain rfl := Order.askOf?_eq_some_iff.mp ho
      rw [repliesTo_cons_ask, asksOf_cons_ask, perform]
      cases hx : st.get? id with
      | none =>
        have hrest := ih hids hid
        rw [hx] at hrest
        rw [ask_of_none hx, Session.replies, hrest]
      | some y =>
        have hrest := ih ((ids_settle st id (y.meet what).2).trans hids) hid
        rw [get?_settle_self] at hrest
        rw [ask_of_some hx, Session.replies, hrest]

/-- What a trace says of the store after it: how often the source of ids was called, and which sessions
there are. -/
structure Accounts (source : IdSource σ) (x : σ) (tr : List (Order × Except Failure Reply))
    (st : Store σ) : Prop where
  issued : ∃ n, st.ids = IdSource.after source x n ∧
    ∀ id ∈ createdIds tr, IdSource.Issued source x n id
  created : ∀ id ∈ deletedIds tr, id ∈ createdIds tr
  live : ∀ id, (st.get? id).isSome ↔ id ∈ createdIds tr ∧ id ∉ deletedIds tr
  nodup : st.sessions.names.Nodup
  size : st.size + (deletedIds tr).length = (createdIds tr).length

theorem accounts_nil (source : IdSource σ) (x : σ) : Accounts source x [] { ids := x } where
  issued := ⟨0, rfl, by simp [createdIds]⟩
  created := by simp [deletedIds]
  live := by simp [createdIds, get?]
  nodup := List.nodup_nil
  size := rfl

theorem createdIds_append (tr : List (Order × Except Failure Reply)) (e : Order × Except Failure Reply) :
    createdIds (tr ++ [e]) = createdIds tr ++ (createdId? e).toList := by
  rw [createdIds, List.filterMap_append, List.filterMap_cons, List.filterMap_nil]
  cases createdId? e <;> rfl

theorem deletedIds_append (tr : List (Order × Except Failure Reply)) (e : Order × Except Failure Reply) :
    deletedIds (tr ++ [e]) = deletedIds tr ++ (deletedId? e).toList := by
  rw [deletedIds, List.filterMap_append, List.filterMap_cons, List.filterMap_nil]
  cases deletedId? e <;> rfl

/-- What neither starts nor deletes a session keeps the accounts. -/
theorem Accounts.keep (h : Accounts source x tr st) {e : Order × Except Failure Reply} {next : Store σ}
    (hcreated : createdId? e = none) (hdeleted : deletedId? e = none)
    (hids : next.ids = st.ids ∨ next.ids = (source st.ids).2)
    (hlive : ∀ id, (next.get? id).isSome = (st.get? id).isSome)
    (hnodup : next.sessions.names.Nodup) (hsize : next.size = st.size) :
    Accounts source x (tr ++ [e]) next := by
  have hcs : createdIds (tr ++ [e]) = createdIds tr := by
    rw [createdIds_append, hcreated, Option.toList_none, List.append_nil]
  have hds : deletedIds (tr ++ [e]) = deletedIds tr := by
    rw [deletedIds_append, hdeleted, Option.toList_none, List.append_nil]
  refine ⟨?_, ?_, fun id => ?_, hnodup, ?_⟩
  · obtain ⟨n, hn, hissued⟩ := h.issued
    rw [hcs]
    rcases hids with hids | hids
    · exact ⟨n, hids.trans hn, hissued⟩
    · refine ⟨n + 1, ?_, fun id hid => IdSource.issued_succ_iff.mpr (.inl (hissued id hid))⟩
      rw [hids, hn]
      rfl
  · rw [hcs, hds]
    exact h.created
  · rw [hcs, hds, hlive]
    exact h.live id
  · rw [hcs, hds, hsize]
    exact h.size

/-- The id of a session that is started is new. -/
theorem Accounts.notMem_createdIds (hfresh : IdSource.NeverRepeats source x)
    (h : Accounts source x tr st) {new : String} (hs : (source st.ids).1 = .ok new) :
    new ∉ createdIds tr := by
  obtain ⟨n, hn, hissued⟩ := h.issued
  intro hmem
  rw [hn] at hs
  exact hfresh.outcome_ne (hissued new hmem) (Nat.le_refl n) hs

theorem Accounts.get?_eq_none (hfresh : IdSource.NeverRepeats source x)
    (h : Accounts source x tr st) {new : String} (hs : (source st.ids).1 = .ok new) :
    st.get? new = none := by
  rw [← Option.not_isSome_iff_eq_none, h.live]
  exact fun hlive => h.notMem_createdIds hfresh hs hlive.1

theorem Accounts.create (hfresh : IdSource.NeverRepeats source x) (h : Accounts source x tr st)
    {new : String} (hs : (source st.ids).1 = .ok new) (script : Script) :
    Accounts source x (tr ++ [(.create script, .ok (.created (.start new script)))])
      { sessions := st.sessions.put new (.start new script), ids := (source st.ids).2 } := by
  have hnew := h.notMem_createdIds hfresh hs
  have hcs : createdIds (tr ++ [(.create script, .ok (.created (.start new script)))]) =
      createdIds tr ++ [new] := createdIds_append tr _
  have hds : deletedIds (tr ++ [(.create script, .ok (.created (.start new script)))]) =
      deletedIds tr := by
    rw [deletedIds_append]
    exact List.append_nil _
  refine ⟨?_, fun id hid => ?_, fun id => ?_, Table.nodup_names_put h.nodup new _, ?_⟩
  · obtain ⟨n, hn, hissued⟩ := h.issued
    refine ⟨n + 1, ?_, fun id hid => ?_⟩
    · rw [hn]
      rfl
    · rw [hcs] at hid
      rcases List.mem_append.mp hid with hid | hid
      · exact IdSource.issued_succ_iff.mpr (.inl (hissued id hid))
      · rw [List.mem_singleton.mp hid]
        rw [hn] at hs
        exact IdSource.issued_succ_iff.mpr (.inr hs)
  · rw [hcs]
    rw [hds] at hid
    exact List.mem_append_left _ (h.created id hid)
  · rw [hcs, hds]
    by_cases hid : id = new
    · subst hid
      rw [get?, Table.get?_put_self]
      exact iff_of_true rfl ⟨by simp, fun hmem => hnew (h.created id hmem)⟩
    · rw [get?, Table.get?_put_of_ne _ _ hid, ← get?, h.live]
      simp [hid]
  · rw [hcs, hds, List.length_append, ← h.size]
    have hsize := Table.size_put_of_none (h.get?_eq_none hfresh hs) (Session.start new script)
    rw [Store.size, hsize, Store.size]
    simp only [List.length_singleton]
    omega

theorem Accounts.delete (h : Accounts source x tr st) (hid : (st.get? id).isSome) :
    Accounts source x (tr ++ [(.ask id .delete, .ok .deleted)]) (st.settle id none) := by
  have hcs : createdIds (tr ++ [(.ask id .delete, .ok .deleted)]) = createdIds tr := by
    rw [createdIds_append]
    exact List.append_nil _
  have hds : deletedIds (tr ++ [(.ask id .delete, .ok .deleted)]) = deletedIds tr ++ [id] :=
    deletedIds_append tr _
  refine ⟨?_, fun other hother => ?_, fun other => ?_, nodup_names_settle h.nodup id _, ?_⟩
  · rw [hcs, ids_settle]
    exact h.issued
  · rw [hcs]
    rw [hds] at hother
    rcases List.mem_append.mp hother with hother | hother
    · exact h.created other hother
    · rw [List.mem_singleton.mp hother]
      exact ((h.live id).mp hid).1
  · rw [hcs, hds]
    by_cases hother : other = id
    · subst hother
      rw [get?_settle_self]
      simp
    · rw [get?_settle_of_ne st _ hother, h.live]
      simp [hother]
  · rw [hcs, hds, List.length_append, ← h.size]
    have hsize := Table.size_erase h.nodup hid
    change (st.sessions.erase id).size + (_ + 1) = st.sessions.size + _
    omega

/-- Every order keeps the accounts. -/
theorem Accounts.perform (hfresh : IdSource.NeverRepeats source x) (h : Accounts source x tr st)
    (order : Order) :
    Accounts source x (tr ++ [(order, (st.perform source order).1)]) (st.perform source order).2 := by
  cases order with
  | create script =>
    cases hs : (source st.ids).1 with
    | error e =>
      rw [perform_create_of_error hs]
      exact h.keep rfl rfl (.inr rfl) (fun _ => rfl) h.nodup rfl
    | ok new =>
      rw [perform_create_of_ok hs]
      exact h.create hfresh hs script
  | ask id what =>
    rw [Store.perform]
    cases hx : st.get? id with
    | none =>
      rw [ask_of_none hx]
      exact h.keep rfl (by cases what <;> rfl) (.inl rfl) (fun _ => rfl) h.nodup rfl
    | some y =>
      have hsome : (st.get? id).isSome := by rw [hx]; rfl
      rw [ask_of_some hx]
      by_cases hwhat : what = .delete
      · subst hwhat
        exact h.delete hsome
      · -- whatever else is asked of it, the session stays
        obtain ⟨z, hz⟩ : ∃ z, (y.meet what).2 = some z := by
          cases what with
          | delete => exact absurd rfl hwhat
          | _ => exact ⟨_, rfl⟩
        have hdeleted : deletedId? (.ask id what, (y.meet what).1) = none := by
          cases what with
          | delete => exact absurd rfl hwhat
          | _ => rfl
        rw [hz]
        refine h.keep rfl hdeleted (.inl rfl) (fun other => ?_) (nodup_names_settle h.nodup id _) ?_
        · by_cases hother : other = id
          · subst hother
            rw [get?_settle_self, hx]
            rfl
          · rw [get?_settle_of_ne st _ hother]
        · exact Table.size_put_of_isSome hsome z

theorem Accounts.run (hfresh : IdSource.NeverRepeats source x) (h : Accounts source x tr st)
    (orders : List Order) :
    Accounts source x (tr ++ st.trace source orders) (st.run source orders) := by
  induction orders generalizing st tr with
  | nil =>
    rw [trace, List.append_nil]
    exact h
  | cons order orders ih =>
    have hrest := ih (h.perform hfresh order)
    rw [List.append_assoc] at hrest
    exact hrest

theorem accounts_run (hfresh : IdSource.NeverRepeats source x) (orders : List Order) :
    Accounts source x (trace source { ids := x } orders) (run source { ids := x } orders) :=
  (accounts_nil source x).run hfresh orders

/-- What is asked of a session is refused as unknown just if the session was never started or is deleted,
and then nothing changes. -/
theorem Accounts.ask_eq_unknown_iff (h : Accounts source x tr st) (id : String) (what : Ask) :
    (st.ask id what).1 = .error (.unknownSession id) ↔ id ∉ createdIds tr ∨ id ∈ deletedIds tr := by
  have hlive := h.live id
  cases hx : st.get? id with
  | none =>
    rw [hx] at hlive
    rw [ask_of_none hx]
    refine iff_of_true rfl ?_
    by_cases hid : id ∈ createdIds tr
    · exact .inr (Classical.byContradiction fun hnot => Bool.false_ne_true (hlive.mpr ⟨hid, hnot⟩))
    · exact .inl hid
  | some y =>
    rw [hx] at hlive
    obtain ⟨hcreated, hkept⟩ := hlive.mp rfl
    rw [ask_of_some hx]
    refine iff_of_false (fun hunknown => ?_) (not_or.mpr ⟨not_not_intro hcreated, hkept⟩)
    obtain ⟨f, hf⟩ := Session.exists_of_meet_eq_error hunknown
    cases hf

theorem ask_eq_unknown (h : (st.ask id what).1 = .error (.unknownSession id)) :
    st.ask id what = (.error (.unknownSession id), st) := by
  cases hx : st.get? id with
  | none => exact ask_of_none hx what
  | some y =>
    rw [ask_of_some hx] at h
    obtain ⟨f, hf⟩ := Session.exists_of_meet_eq_error h
    cases hf

/-- A session that is started is a fresh one of its script, and replies as if it were alone from then
on. -/
theorem Accounts.repliesTo_created (hfresh : IdSource.NeverRepeats source x)
    (h : Accounts source x tr st) {script : Script} {y : Session} {next : Store σ}
    (hcreate : st.create source script = (.ok y, next)) :
    y = .start y.id script ∧ ∀ later, repliesTo y.id (next.trace source later) =
      Session.replies y.id (some (.start y.id script)) (asksOf y.id later) := by
  obtain ⟨n, hn, -⟩ := h.issued
  cases hs : (source st.ids).1 with
  | error e =>
    rw [create_of_error hs] at hcreate
    cases hcreate
  | ok new =>
    rw [create_of_ok hs, Prod.mk.injEq] at hcreate
    obtain ⟨hy, hnext⟩ := hcreate
    cases hy
    refine ⟨rfl, fun later => ?_⟩
    have hissued : IdSource.Issued source x (n + 1) new := by
      rw [hn] at hs
      exact IdSource.issued_succ_iff.mpr (.inr hs)
    have hids : next.ids = IdSource.after source x (n + 1) := by
      rw [← hnext, hn]
      rfl
    have hget : next.get? new = some (.start new script) := by
      rw [← hnext]
      exact Table.get?_put_self _ _ _
    have hreplies := repliesTo_trace hids (fun m hm => hfresh.outcome_ne hissued hm) later
    rw [hget] at hreplies
    exact hreplies

/-- However the orders of many clients are mixed: a session that is started replies to what is asked of it
as a fresh session of its script that is alone with these questions; what is asked of an id is refused as
unknown just if no session was started with it or that session is deleted, and then nothing changes; and
there are as many sessions as were started, less those deleted. -/
theorem separate_of_run (hfresh : IdSource.NeverRepeats source x) (past : List Order) :
    let st := run source { ids := x } past
    let tr := trace source { ids := x } past
    (∀ script y next, st.create source script = (.ok y, next) → y = .start y.id script ∧
      ∀ later, repliesTo y.id (next.trace source later) =
        Session.replies y.id (some (.start y.id script)) (asksOf y.id later)) ∧
    (∀ id what, (st.perform source (.ask id what)).1 = .error (.unknownSession id) ↔
      id ∉ createdIds tr ∨ id ∈ deletedIds tr) ∧
    (∀ id what, (st.perform source (.ask id what)).1 = .error (.unknownSession id) →
      (st.perform source (.ask id what)).2 = st) ∧
    st.size + (deletedIds tr).length = (createdIds tr).length := by
  intro st tr
  have haccounts : Accounts source x tr st := accounts_run hfresh past
  refine ⟨fun script y next hcreate => haccounts.repliesTo_created hfresh hcreate,
    fun id what => haccounts.ask_eq_unknown_iff id what, fun id what hunknown => ?_, haccounts.size⟩
  exact congrArg Prod.snd (ask_eq_unknown hunknown)

theorem separate_of_run_shared :
    ∃ script, Script.compile {} "inn" "%START%\n|SAY| a\n|SAY| b\n%END%\n" = (.ok script, []) ∧
      let past := [.create script, .create script, .ask "session-1" .step, .ask "session-1" .delete]
      let later := [.ask "session-3" .step, .ask "session-2" .step, .create script,
        .ask "session-3" (.goto "NOWHERE"), .ask "session-3" .delete, .ask "session-3" .view]
      let st := run IdSource.numbered { ids := 0 } past
      IdSource.NeverRepeats IdSource.numbered 0 ∧ st.size + 1 = 2 ∧
        (st.perform IdSource.numbered (.ask "session-1" .step)).1 =
          .error (.unknownSession "session-1") ∧
        ∃ next, st.create IdSource.numbered script = (.ok (.start "session-3" script), next) ∧
          repliesTo "session-3" (next.trace IdSource.numbered later) =
            Session.replies "session-3" (some (.start "session-3" script))
              [.step, .goto "NOWHERE", .delete, .view] := by
  refine Exists.imp (fun script h => And.intro h ?_) ⟨_, (Script.compile_eq_judge {} _ _).trans rfl⟩
  intro past later st
  have hfresh := IdSource.neverRepeats_numbered 0
  have hnumbered (n : Nat) {id : String} (hid : "session-" ++ toString (n + 1) = id) :
      IdSource.numbered n = (.ok id, n + 1) := by
    rw [← hid]
    rfl
  have hone : IdSource.numbered 0 = (.ok "session-1", 1) := hnumbered 0 (by decide +kernel)
  have htwo : IdSource.numbered 1 = (.ok "session-2", 2) := hnumbered 1 (by decide +kernel)
  have hthree : IdSource.numbered 2 = (.ok "session-3", 3) := hnumbered 2 (by decide +kernel)
  have hst : st = { sessions := ⟨[("session-2", .start "session-2" script)]⟩, ids := 2 } := by
    simp [st, past, run, perform, create, ask, act, delete, get?, hone, htwo, Table.empty, Table.put,
      Table.insert, Table.get?, Table.lookup, Table.contains, Table.erase]
  have hdeleted : deletedIds (trace IdSource.numbered { ids := 0 } past) = ["session-1"] := by
    simp [past, trace, perform, create, ask, act, delete, get?, hone, htwo, Table.empty, Table.put,
      Table.insert, Table.get?, Table.lookup, Table.contains, deletedIds, Except.map]
    rfl
  obtain ⟨halone, hunknown, -, hsize⟩ := separate_of_run hfresh past
  have hid : (IdSource.numbered st.ids).1 = .ok "session-3" := by rw [hst, hthree]
  have hnext := create_of_ok hid script
  refine ⟨hfresh, by rw [hst]; rfl, (hunknown "session-1" .step).mpr (.inr ?_), _, hnext,
    (halone script _ _ hnext).2 later⟩
  rw [hdeleted]
  exact List.mem_singleton.mpr rfl

end Store
end BranchingDialogue
