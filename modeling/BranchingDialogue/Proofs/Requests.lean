import BranchingDialogue.Proofs.Atomicity
import BranchingDialogue.Proofs.Loading
import BranchingDialogue.Proofs.Separation
import BranchingDialogue.Service

/-! What comes of requests, one after the other. A request does nothing to the sessions or carries out one
order, and an order that fails leaves no trace, because every script of a library passed its check. -/
namespace BranchingDialogue

namespace IdSource

variable {σ : Type}

def NeverFails (source : IdSource σ) (x : σ) : Prop := ∀ n, ∃ id, outcome source x n = .ok id

theorem neverFails_numbered (x : Nat) : NeverFails numbered x := fun _ => ⟨_, rfl⟩

end IdSource

theorem Failure.status?_bounds {f : Failure} {n : Nat} (h : f.status? = some n) : 400 ≤ n ∧ n < 500 := by
  rw [status?.eq_def] at h
  split at h <;> cases h <;> decide

namespace Session

variable {x y : Session} {what : Ask} {f : Failure}

/-- A run refuses nothing but what its client can put right. -/
theorem Ready.status?_of_meet_eq_error (hx : x.Ready) (h : (x.meet what).1 = .error f) :
    f.status?.isSome := by
  have hplay {e : PlayError} (he : ∀ node, e ≠ .missingNode node) : (Failure.play e).status?.isSome := by
    cases e with
    | missingNode node => exact absurd rfl (he node)
    | _ => rfl
  have hsound {c : Call} {e : PlayError} (he : (x.run.call x.script.story c).1 = .error e) :=
    hplay (Playthrough.refused_call hx.approved.build hx.sound he).2
  cases what with
  | step =>
    obtain ⟨rfl, -⟩ := (hx.guided.refused f).mp (eq_error_of_map h)
    rfl
  | choose index =>
    obtain ⟨e, he, rfl⟩ := exists_of_playAndShow_eq_error (eq_error_of_map h)
    exact hsound (Playthrough.call_choose_of_error he)
  | goto marker =>
    obtain ⟨e, he, rfl⟩ := exists_of_playAndShow_eq_error (eq_error_of_map h)
    exact hsound (Playthrough.call_goto_of_error he)
  | view => cases h
  | delete => cases h

theorem Ready.meet (hx : x.Ready) (h : (x.meet what).2 = some y) : y.Ready := by
  cases what with
  | step =>
    cases h
    exact hx.calls [.tick]
  | choose index =>
    cases h
    exact hx.calls [.choose index]
  | goto marker =>
    cases h
    exact hx.calls [.goto marker]
  | view =>
    cases h
    exact hx
  | delete => cases h

/-- What fails in a session of a script that was checked leaves it as it was. -/
theorem Ready.eq_of_meet_eq_error (hx : x.Ready) (h : (x.meet what).1 = .error f) :
    (x.meet what).2 = some x := by
  rcases eq_or_leadsAstray_of_meet_eq_error hx.approved.build hx.sound h with hsame | ⟨-, hastray⟩
  · exact hsame
  · exact absurd hastray hx.not_leadsAstray

end Session

namespace Store

variable {σ : Type} {source : IdSource σ} {st : Store σ} {order : Order} {f : Failure}

def Ready (st : Store σ) : Prop := ∀ id x, st.get? id = some x → x.Ready

theorem ready_empty (ids : σ) : Ready { ids } := fun _ _ h => by cases h

theorem Ready.settle (h : st.Ready) (id : String) (left : Option Session)
    (hleft : ∀ y, left = some y → y.Ready) : (st.settle id left).Ready := by
  intro other x hx
  by_cases hother : other = id
  · subst hother
    rw [get?_settle_self] at hx
    exact hleft x hx
  · rw [get?_settle_of_ne st left hother] at hx
    exact h other x hx

/-- Orders start sessions of such scripts only. -/
theorem Ready.perform (h : st.Ready) (source : IdSource σ)
    (horder : ∀ script, order = .create script → script.Approved) :
    (st.perform source order).2.Ready := by
  cases order with
  | create script =>
    cases hs : (source st.ids).1 with
    | error e =>
      rw [perform_create_of_error hs]
      exact h
    | ok new =>
      rw [perform_create_of_ok hs]
      refine h.settle new (some (.start new script)) fun y hy => ?_
      cases hy
      exact Session.Ready.start (horder script rfl) new
  | ask id what =>
    rw [Store.perform]
    cases hx : st.get? id with
    | none =>
      rw [ask_of_none hx]
      exact h
    | some x =>
      rw [ask_of_some hx]
      exact h.settle id _ fun y hy => (h id x hx).meet hy

/-- An order that fails is one that its client can put right, and it leaves no trace. -/
theorem Ready.eq_of_perform_eq_error (h : st.Ready) (hid : ∃ id, (source st.ids).1 = .ok id)
    (hf : (st.perform source order).1 = .error f) :
    (st.perform source order).2 = st ∧ f.status?.isSome := by
  cases order with
  | create script =>
    obtain ⟨new, hs⟩ := hid
    rw [perform_create_of_ok hs] at hf
    cases hf
  | ask id what =>
    rw [Store.perform] at hf ⊢
    cases hx : st.get? id with
    | none =>
      rw [ask_of_none hx] at hf ⊢
      cases hf
      exact ⟨rfl, rfl⟩
    | some x =>
      rw [ask_of_some hx] at hf ⊢
      refine ⟨?_, (h id x hx).status?_of_meet_eq_error hf⟩
      rw [(h id x hx).eq_of_meet_eq_error hf]
      exact settle_of_get? hx

end Store

namespace Service

variable {σ α : Type} {front : FrontEnd} {lib : Library} {source : IdSource σ} {x : σ} {st : Store σ}

def isStart (method : String) (destination : Destination) (response : Response) : Bool :=
  method == "POST" && destination == .route .sessions && response.status == 201

def isEnd (method : String) (response : Response) : Bool := method == "DELETE" && response.status == 204

def starts (front : FrontEnd) (e : Request × Response) : Bool :=
  isStart e.1.method (front.destination e.1.target) e.2

def ends (e : Request × Response) : Bool := isEnd e.1.method e.2

def serve (front : FrontEnd) (lib : Library) (source : IdSource σ) (st : Store σ)
    (requests : List Request) : Store σ :=
  requests.foldl (fun st r => (front.respond lib source r st).2) st

def exchanges (front : FrontEnd) (lib : Library) (source : IdSource σ) :
    Store σ → List Request → List (Request × Response)
  | _, [] => []
  | st, r :: requests =>
    (r, (front.respond lib source r st).1) ::
      exchanges front lib source (front.respond lib source r st).2 requests

def Tells (response : Response) : Except Failure Reply → Prop
  | .ok _ => response.status < 400
  | .error f => response.status = (failed f).status

/-- What a request does: nothing to the sessions, or one order. It says that a session was started or
deleted just if the order did so. -/
inductive Deed (lib : Library) (source : IdSource σ) (st : Store σ) (method : String)
    (destination : Destination) : Response × Store σ → Prop
  | idle {response : Response} (status : response.status ≠ 500)
      (start : isStart method destination response = false) (stop : isEnd method response = false) :
      Deed lib source st method destination (response, st)
  | carried {response : Response} (order : Order)
      (known : ∀ script, order = .create script → ∃ id, lib.scripts.get? id = some script)
      (tells : Tells response (st.perform source order).1)
      (start : isStart method destination response =
        (createdId? (order, (st.perform source order).1)).isSome)
      (stop : isEnd method response = (deletedId? (order, (st.perform source order).1)).isSome) :
      Deed lib source st method destination (response, (st.perform source order).2)

theorem isStart_eq_false {method : String} {destination : Destination}
    (h : destination ≠ .route .sessions) (response : Response) :
    isStart method destination response = false := by
  rw [isStart, beq_eq_false_iff_ne.mpr h, Bool.and_false, Bool.false_and]

theorem isEnd_eq_false {method : String} (h : method ≠ "DELETE") (response : Response) :
    isEnd method response = false := by
  rw [isEnd, beq_eq_false_iff_ne.mpr h, Bool.false_and]

theorem status_failed (f : Failure) : (failed f).status = f.status?.getD 500 := by
  rw [failed]
  cases f.status? <;> rfl

theorem le_status_failed (f : Failure) : 400 ≤ (failed f).status := by
  rw [status_failed]
  cases hs : f.status? with
  | none => decide
  | some n => exact (Failure.status?_bounds hs).1

theorem findScript_eq_ok_iff {id : String} {script : Script} :
    findScript lib id = .ok script ↔ lib.scripts.get? id = some script := by
  rw [findScript]
  cases lib.scripts.get? id with
  | none => exact iff_of_false nofun nofun
  | some found => simp

theorem status_of_findScript_eq_error {id : String} {f : Failure} (h : findScript lib id = .error f) :
    (failed f).status = 404 := by
  rw [findScript] at h
  split at h <;> cases h
  rfl

theorem status_of_field_eq_error {name kind : String} {read : Json → Option α} {body : Json}
    {r : Response} (h : field name kind read body = .error r) : r.status = 400 := by
  rw [field] at h
  split at h <;> cases h
  rfl

theorem status_of_policyOf_eq_error {body : Json} {r : Response} (h : policyOf body = .error r) :
    r.status = 400 := by
  rw [policyOf] at h
  split at h
  next => cases h
  next =>
    split at h <;> cases h
    rfl

/-- A reply has the status of a success just if nothing failed. -/
theorem beq_status_reply {f : α → Response} {n : Nat} (hn : n < 400) (hf : ∀ a, (f a).status = n)
    (outcome : Except Failure α) : ((reply f outcome).status == n) = outcome.toOption.isSome := by
  cases outcome with
  | ok a => exact beq_iff_eq.mpr (hf a)
  | error e =>
    have hstatus := le_status_failed e
    exact beq_eq_false_iff_ne.mpr (by rw [reply]; omega)

theorem tells_reply {f : α → Response} {n : Nat} (hn : n < 400) (hf : ∀ a, (f a).status = n)
    (g : α → Reply) (outcome : Except Failure α) : Tells (reply f outcome) (outcome.map g) := by
  cases outcome with
  | ok a => exact (hf a).trans_lt hn
  | error e => rfl

section
variable {method : String} {destination : Destination} {response : Response} {id : String}

/-- A request that is refused on its face. -/
theorem Deed.refused (n : Nat) (hstatus : response.status = n) (hn : 400 ≤ n ∧ n < 500) :
    Deed lib source st method destination (response, st) := by
  have hstart : (response.status == 201) = false := beq_eq_false_iff_ne.mpr (by omega)
  have hend : (response.status == 204) = false := beq_eq_false_iff_ne.mpr (by omega)
  refine .idle (by omega) ?_ ?_
  · rw [isStart, hstart, Bool.and_false]
  · rw [isEnd, hend, Bool.and_false]

/-- What is asked of a session, but to delete it. -/
theorem Deed.asked (what : Ask) (hwhat : what ≠ .delete) (hsessions : destination ≠ .route .sessions)
    (hmethod : method ≠ "DELETE") (htells : Tells response (st.ask id what).1) :
    Deed lib source st method destination (response, (st.ask id what).2) := by
  refine .carried (.ask id what) (fun _ h => by cases h) htells ?_ ?_
  · exact isStart_eq_false hsessions response
  · rw [isEnd_eq_false hmethod]
    cases what with
    | delete => exact absurd rfl hwhat
    | _ => rfl

theorem Deed.deleted (hsessions : destination ≠ .route .sessions) :
    Deed lib source st "DELETE" destination (Service.delete id st) := by
  refine .carried (.ask id .delete) (fun _ h => by cases h) ?_ ?_ ?_
  · exact tells_reply (n := 204) (by decide) (fun _ => rfl) _ _
  · exact isStart_eq_false hsessions _
  · refine (beq_status_reply (n := 204) (by decide) (fun _ => rfl) (st.delete id).1).trans ?_
    rw [Store.perform, Store.ask]
    cases (st.delete id).1 <;> rfl

theorem Deed.created {body : Json} :
    Deed lib source st "POST" (.route .sessions) (begin lib source body st) := by
  rw [begin]
  cases hfield : field "scriptId" "string" Json.string? body with
  | error r => exact .refused 400 (status_of_field_eq_error hfield) (by decide)
  | ok id =>
    dsimp only
    cases hscript : findScript lib id with
    | error e => exact .refused 404 (status_of_findScript_eq_error hscript) (by decide)
    | ok script =>
      refine .carried (.create script) (fun _ h => ⟨id, ?_⟩) ?_ ?_ rfl
      · cases h
        exact findScript_eq_ok_iff.mp hscript
      · exact tells_reply (n := 201) (by decide) (fun _ => rfl) _ _
      · refine (beq_status_reply (n := 201) (by decide) (fun _ => rfl) (st.create source script).1).trans ?_
        rw [Store.perform]
        cases (st.create source script).1 <;> rfl

/-- What only reads is granted. -/
theorem Deed.read (hstatus : response.status = 200) : Deed lib source st "GET" destination (response, st) :=
  .idle (by omega) rfl rfl

theorem Deed.lookedUp {f : Script → Response} (hf : ∀ script, (f script).status = 200) (id : String) :
    Deed lib source st "GET" destination (reply f (findScript lib id), st) := by
  cases hscript : findScript lib id with
  | error e => exact .refused 404 (status_of_findScript_eq_error hscript) (by decide)
  | ok script => exact .read (hf script)

theorem Deed.checked (body : Json) : Deed lib source st "POST" (.route .check) (check body, st) := by
  rw [check]
  cases hfield : Service.field "source" "string" Json.string? body with
  | error r => exact .refused 400 (status_of_field_eq_error hfield) (by decide)
  | ok text =>
    dsimp only
    cases hpolicy : policyOf body with
    | error r => exact .refused 400 (status_of_policyOf_eq_error hpolicy) (by decide)
    | ok p =>
      have hstatus : { Response.ok (report (Report.ofSource p text).1) with
          notices := (Report.ofSource p text).2 }.status ≠ 500 := by simp [Response.ok, Response.json]
      exact .idle hstatus rfl rfl

/-- What a session is asked to do, and what is told of it. -/
theorem Deed.acted {action : Session.Action α} {f : α → Reply} {tell : α → Json} (what : Ask)
    (hact : st.ask id what = ((st.act id action).1.map f, (st.act id action).2))
    (hwhat : what ≠ .delete) (hsessions : destination ≠ .route .sessions) :
    Deed lib source st "POST" destination (act id action tell st) := by
  have htells : Tells (act id action tell st).1 (st.ask id what).1 := by
    rw [hact]
    exact tells_reply (n := 200) (by decide) (fun _ => rfl) f _
  have hdelete : "POST" ≠ "DELETE" := by decide
  have hdeed : Deed lib source st "POST" destination ((act id action tell st).1, (st.ask id what).2) :=
    .asked what hwhat hsessions hdelete htells
  rw [hact] at hdeed
  exact hdeed

theorem Deed.chosen (id : String) (body : Json) :
    Deed lib source st "POST" (.route (.choose id)) (choose id body st) := by
  rw [choose]
  cases hfield : field "index" "number" Json.number? body with
  | error r => exact .refused 400 (status_of_field_eq_error hfield) (by decide)
  | ok index => exact .acted (.choose index) rfl nofun nofun

theorem Deed.gone (id : String) (body : Json) :
    Deed lib source st "POST" (.route (.goto id)) (goto id body st) := by
  rw [goto]
  cases hfield : field "marker" "string" Json.string? body with
  | error r => exact .refused 400 (status_of_field_eq_error hfield) (by decide)
  | ok marker => exact .acted (.goto marker) rfl nofun nofun

theorem deed_answer (method : String) (route : Route) (body : Json) :
    Deed lib source st method (.route route) (answer lib source method route body st) := by
  unfold answer
  split
  next => exact .read rfl
  next => exact .read rfl
  next id => exact .lookedUp (fun _ => rfl) id
  next id => exact .lookedUp (fun _ => rfl) id
  next => exact .checked body
  next => exact .created
  next id =>
    exact .asked .view nofun nofun (by decide)
      (tells_reply (n := 200) (by decide) (fun _ => rfl) _ _)
  next id => exact .deleted nofun
  next id => exact .acted .step rfl nofun nofun
  next id => exact .chosen id body
  next id => exact .gone id body
  next => exact .refused 404 rfl (by decide)

theorem deed_dispatch (method : String) (destination : Destination) (body : Json) :
    Deed lib source st method destination (dispatch lib source method destination body st) := by
  cases destination with
  | route route => exact deed_answer method route body
  | unknown => exact .refused 404 rfl (by decide)
  | undecodable => exact .refused 400 rfl (by decide)
  | nowhere => exact .refused 404 rfl (by decide)

/-- Without its body a response says the same. -/
theorem Deed.withoutBody {result : Response × Store σ} (h : Deed lib source st "GET" destination result) :
    Deed lib source st "HEAD" destination (result.1.withoutBody, result.2) := by
  cases h with
  | idle status start stop => exact .idle status rfl rfl
  | carried order known tells start stop =>
    refine .carried order known ?_ start stop
    cases h : (st.perform source order).1 with
    | ok a => rw [h] at tells; exact tells
    | error f => rw [h] at tells; exact tells

theorem deed_respond (front : FrontEnd) (lib : Library) (source : IdSource σ) (st : Store σ)
    (r : Request) :
    Deed lib source st r.method (front.destination r.target) (front.respond lib source r st) := by
  rw [FrontEnd.respond]
  dsimp only
  split
  next => exact .refused 404 rfl (by decide)
  next =>
    split
    next hmethod =>
      rw [hmethod]
      exact .idle (by decide) rfl rfl
    next =>
      cases front.body r with
      | error e => exact .refused e.status rfl e.status_bounds
      | ok body =>
        dsimp only
        split
        next hmethod =>
          rw [hmethod]
          exact (deed_dispatch "GET" _ body).withoutBody
        next => exact deed_dispatch r.method _ body

end

/-- The numbers of sessions started and deleted, counted in the responses, are those of the orders that
led to the store. -/
structure Served (front : FrontEnd) (source : IdSource σ) (x : σ) (es : List (Request × Response))
    (st : Store σ) : Prop where
  ready : st.Ready
  accounts : ∃ tr, Store.Accounts source x tr st ∧ (createdIds tr).length = es.countP (starts front) ∧
    (deletedIds tr).length = es.countP ends

variable {es : List (Request × Response)}

theorem served_nil (front : FrontEnd) (source : IdSource σ) (x : σ) : Served front source x [] { ids := x } where
  ready := Store.ready_empty x
  accounts := ⟨[], Store.accounts_nil source x, rfl, rfl⟩

theorem Served.exists_id (h : Served front source x es st) (hids : IdSource.NeverFails source x) :
    ∃ id, (source st.ids).1 = .ok id := by
  obtain ⟨tr, haccounts, -, -⟩ := h.accounts
  obtain ⟨n, hn, -⟩ := haccounts.issued
  obtain ⟨id, hid⟩ := hids n
  exact ⟨id, by rw [hn]; exact hid⟩

theorem countP_append_singleton (p : Request × Response → Bool) (e : Request × Response) :
    (es ++ [e]).countP p = es.countP p + (p e).toNat := by
  rw [List.countP_append, List.countP_singleton]
  cases p e <;> rfl

theorem length_toList_eq_toNat (o : Option String) : o.toList.length = o.isSome.toNat := by
  cases o <;> rfl

section
variable {p : Policy} (hlib : lib.Compiled p)
include hlib

theorem Served.step (h : Served front source x es st) (hfresh : IdSource.NeverRepeats source x)
    (r : Request) : Served front source x (es ++ [(r, (front.respond lib source r st).1)])
      (front.respond lib source r st).2 := by
  obtain ⟨tr, haccounts, hcreated, hdeleted⟩ := h.accounts
  have hdeed := deed_respond front lib source st r
  generalize front.respond lib source r st = result at hdeed ⊢
  cases hdeed with
  | idle status start stop =>
    refine ⟨h.ready, tr, haccounts, ?_, ?_⟩
    · rw [countP_append_singleton, starts, start, hcreated]
      rfl
    · rw [countP_append_singleton, ends, stop, hdeleted]
      rfl
  | carried order known tells start stop =>
    refine ⟨h.ready.perform source fun script horder => ?_, _, haccounts.perform hfresh order, ?_, ?_⟩
    · obtain ⟨id, hid⟩ := known script horder
      obtain ⟨text, notices, hcompile⟩ := hlib id script hid
      exact Script.approved_of_compile hcompile
    · rw [Store.createdIds_append, List.length_append, length_toList_eq_toNat, hcreated,
        countP_append_singleton, starts, start]
    · rw [Store.deletedIds_append, List.length_append, length_toList_eq_toNat, hdeleted,
        countP_append_singleton, ends, stop]

theorem Served.run (h : Served front source x es st) (hfresh : IdSource.NeverRepeats source x)
    (requests : List Request) :
    Served front source x (es ++ exchanges front lib source st requests) (serve front lib source st requests) := by
  induction requests generalizing es st with
  | nil =>
    rw [exchanges, List.append_nil]
    exact h
  | cons r requests ih =>
    have hrest := ih (h.step hlib hfresh r)
    rw [List.append_assoc] at hrest
    exact hrest

end

/-- What is refused is no fault of the program, and leaves no trace. -/
theorem Served.refused (h : Served front source x es st) (hids : IdSource.NeverFails source x) (lib : Library)
    (r : Request) : (front.respond lib source r st).1.status ≠ 500 ∧
      (400 ≤ (front.respond lib source r st).1.status → (front.respond lib source r st).2 = st) := by
  have hdeed := deed_respond front lib source st r
  generalize front.respond lib source r st = result at hdeed ⊢
  cases hdeed with
  | idle status start stop => exact ⟨status, fun _ => rfl⟩
  | carried order known tells start stop =>
    dsimp only
    cases ho : (st.perform source order).1 with
    | ok a =>
      rw [ho] at tells
      have hstatus : _ < 400 := tells
      exact ⟨by omega, fun h400 => by omega⟩
    | error f =>
      obtain ⟨hsame, hclient⟩ := h.ready.eq_of_perform_eq_error (h.exists_id hids) ho
      obtain ⟨n, hn⟩ := Option.isSome_iff_exists.mp hclient
      have hbounds := Failure.status?_bounds hn
      rw [ho] at tells
      have hstatus : _ = (failed f).status := tells
      rw [status_failed, hn, Option.getD_some] at hstatus
      exact ⟨by omega, fun _ => hsame⟩

structure AsksHealth (front : FrontEnd) (r : Request) : Prop where
  method : r.method = "GET"
  target : front.destination r.target = .route .health
  body : ∃ v, front.body r = .ok v

theorem AsksHealth.respond {r : Request} (h : AsksHealth front r) (lib : Library) (source : IdSource σ)
    (st : Store σ) : front.respond lib source r st = (health lib st, st) := by
  obtain ⟨v, hv⟩ := h.body
  simp [FrontEnd.respond, h.target, h.method, hv, dispatch, answer]

/-- Whatever was requested, in any order, of a service with the scripts of a directory: no request makes
the program fail, a request that is refused changes nothing, and the sessions that the service tells of
are as many as it said were started, less those that it said were deleted. -/
theorem steady_of_serve (front : FrontEnd) (hids : IdSource.NeverFails source x) (hfresh : IdSource.NeverRepeats source x)
    (p : Policy) (folder : Folder) (path label : String) (past : List Request) :
    let lib := (Library.load p folder path label).1
    let st := serve front lib source { ids := x } past
    let es := exchanges front lib source { ids := x } past
    (∀ r, (front.respond lib source r st).1.status ≠ 500) ∧
    (∀ r, 400 ≤ (front.respond lib source r st).1.status → (front.respond lib source r st).2 = st) ∧
    ∀ r, AsksHealth front r → ∃ v n, (front.respond lib source r st).1 = .ok v ∧
      v.member? "sessions" = some (.ofNat n) ∧ n + es.countP ends = es.countP (starts front) := by
  intro lib st es
  have hlib : lib.Compiled p := Library.compiled_load p folder path label
  have hserved : Served front source x es st := (served_nil front source x).run hlib hfresh past
  refine ⟨fun r => (hserved.refused hids lib r).1, fun r => (hserved.refused hids lib r).2, fun r hr => ?_⟩
  obtain ⟨tr, haccounts, hcreated, hdeleted⟩ := hserved.accounts
  rw [hr.respond, ← hcreated, ← hdeleted]
  exact ⟨_, st.size, rfl, rfl, haccounts.size⟩

theorem steady_of_serve_early :
    let folder : Folder := { entries := [(["inn.script"], Folder.textFile "%START%\n|SAY| a\n%END%\n")] }
    let lib := (Library.load {} folder "/" "").1
    let post (target body : String) : Request :=
      { method := "POST", target, contentType := some "application/json",
        body := some (Text.Utf8.encode body.toList) }
    let start := post "/api/sessions" "\x7b\"scriptId\":\"inn\"\x7d"
    let early := post "/api/sessions/session-2/choose" "\x7b\"index\":0\x7d"
    let past := [start, start, { method := "DELETE", target := "/api/sessions/session-1" }]
    let st := serve .standard lib IdSource.numbered { ids := 0 } past
    IdSource.NeverFails IdSource.numbered 0 ∧ IdSource.NeverRepeats IdSource.numbered 0 ∧
      (respond lib IdSource.numbered early st).1.status = 409 ∧
      (respond lib IdSource.numbered early st).2 = st ∧
      ∃ v, (respond lib IdSource.numbered { method := "GET", target := "/health" } st).1 = .ok v ∧
        v.member? "sessions" = some (.ofNat 1) := by
  intro folder lib post start early past st
  have hids := IdSource.neverFails_numbered 0
  have hfresh := IdSource.neverRepeats_numbered 0
  have hfind : folder.find [] "/" = .ok ([], .folder) := Folder.find_root (by decide +kernel) _
  have hscan : folder.scan [] "/" =
      .ok [("inn.script", Text.Utf8.encode "%START%\n|SAY| a\n%END%\n".toList)] :=
    Folder.scan_of_children hfind (by decide +kernel) (by decide +kernel)
  have hload : lib = (Library.addTexts {} {} [("inn.script", "%START%\n|SAY| a\n%END%\n")]).1 := by
    have htexts : Library.scriptTexts [("inn.script", Text.Utf8.encode "%START%\n|SAY| a\n%END%\n".toList)] =
        [("inn.script", "%START%\n|SAY| a\n%END%\n")] := by decide +kernel
    rw [← htexts, ← Library.load_of_scan hscan]
  obtain ⟨-, hrefused, hhealth⟩ := steady_of_serve .standard hids hfresh {} folder "/" "" past
  have hearly : (respond lib IdSource.numbered early st).1.status = 409 := by
    simp only [st, hload]
    decide +kernel
  have hcounts : (exchanges .standard lib IdSource.numbered { ids := 0 } past).countP (starts .standard) = 2 ∧
      (exchanges .standard lib IdSource.numbered { ids := 0 } past).countP ends = 1 := by
    rw [hload]
    decide +kernel
  obtain ⟨v, n, hv, hmember, hn⟩ := hhealth { method := "GET", target := "/health" }
    ⟨rfl, by decide +kernel, _, rfl⟩
  refine ⟨hids, hfresh, hearly, hrefused early ?_, v, hv, ?_⟩
  · have hstatus : 400 ≤ (respond lib IdSource.numbered early st).1.status := by omega
    exact hstatus
  · rw [hcounts.1, hcounts.2] at hn
    obtain rfl : n = 1 := by omega
    exact hmember

end Service
end BranchingDialogue
