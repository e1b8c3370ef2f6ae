import BranchingDialogue.Session
import BranchingDialogue.Uid.Generator

/-! Sessions by id, while the program runs. -/
namespace BranchingDialogue

/-- A way to make ids: it gives an id, or fails, and goes on to a new state in any case. -/
abbrev IdSource (σ : Type) := σ → Except UidError String × σ

namespace IdSource

/-- `session-1`, `session-2`, … -/
def numbered : IdSource Nat := fun n => (.ok ("session-" ++ toString (n + 1)), n + 1)

/-- Identifiers by the readings of a clock, one reading for each. -/
def timed (clock : Nat → Number) : IdSource (Uid.Generator × Nat) := fun (g, reading) =>
  let (id, g) := g.next (clock reading)
  (id, (g, reading + 1))

end IdSource

/-- The live sessions and the state of the source of their ids. -/
structure Store (σ : Type) where
  sessions : Table Session := .empty
  ids : σ

namespace Store

variable {σ α : Type}

def size (st : Store σ) : Nat := st.sessions.size

def get? (st : Store σ) (id : String) : Option Session := st.sessions.get? id

/-- Starts a session on a script. -/
def create (source : IdSource σ) (script : Script) (st : Store σ) :
    Except Failure Session × Store σ :=
  match source st.ids with
  | (.error e, ids) => (.error (.identifier e), { st with ids })
  | (.ok id, ids) =>
    let s := Session.start id script
    (.ok s, { sessions := st.sessions.put id s, ids })

/-- Does something with the session of an id. -/
def act (id : String) (action : Session.Action α) (st : Store σ) : Except Failure α × Store σ :=
  match st.get? id with
  | none => (.error (.unknownSession id), st)
  | some s =>
    let (outcome, s) := action s
    (outcome, { st with sessions := st.sessions.put id s })

/-- Looks at the session of an id. -/
def look (id : String) (f : Session → α) (st : Store σ) : Except Failure α :=
  match st.get? id with
  | none => .error (.unknownSession id)
  | some s => .ok (f s)

def delete (id : String) (st : Store σ) : Except Failure Unit × Store σ :=
  if st.sessions.contains id then (.ok (), { st with sessions := st.sessions.erase id })
  else (.error (.unknownSession id), st)

end Store
end BranchingDialogue
