import BranchingDialogue.Number.Numeral

/-! Trees that only grow. A node is known by its number: nodes are numbered from zero in the order in
which they are added, and each knows its parent and its children by number. -/
namespace BranchingDialogue

structure Node (α : Type) where
  data : α
  parent : Option Nat := none
  children : List Nat := []
  deriving DecidableEq, Repr

/-- `parent_lt`: a parent is older than its child. -/
structure Arena (α : Type) where
  nodes : Array (Node α) := #[]
  roots : List Nat := []
  parent_lt : ∀ (i : Nat) (n : Node α) (p : Nat), nodes[i]? = some n → n.parent = some p → p < i

/-- Why a tree refuses a node. -/
inductive ArenaError
  | unknownParent (parent : Number)
  deriving DecidableEq, Repr

def ArenaError.message : ArenaError → String
  | .unknownParent p => "Parent node " ++ p.text ++ " does not exist in this tree"

namespace Arena

variable {α : Type}

def empty : Arena α where
  parent_lt := by simp

instance : Inhabited (Arena α) := ⟨empty⟩

def size (a : Arena α) : Nat := a.nodes.size

/-- The node that a number names, if it names one. -/
def find? (a : Arena α) (x : Number) : Option Nat := x.toNat?.filter (· < a.size)

def get? (a : Arena α) (id : Nat) : Option α := a.nodes[id]?.map (·.data)

def parent? (a : Arena α) (id : Nat) : Option Nat := a.nodes[id]?.bind (·.parent)

def children (a : Arena α) (id : Nat) : List Nat := (a.nodes[id]?.map (·.children)).getD []

def first? (a : Arena α) : Option Nat := a.roots.head?

/-- Adds a node without a parent. Its number is the size before. -/
def addRoot (a : Arena α) (data : α) : Arena α where
  nodes := a.nodes.push { data }
  roots := a.roots ++ [a.size]
  parent_lt := by
    intro i n p hn hp
    rw [Array.getElem?_push] at hn
    split at hn
    · cases hn; simp at hp
    · exact a.parent_lt i n p hn hp

/-- Adds a node as the last child of a node of the tree. Its number is the size before. -/
def addChild (a : Arena α) (parent : Nat) (h : parent < a.size) (data : α) : Arena α where
  nodes := (a.nodes.modify parent fun n => { n with children := n.children ++ [a.size] }).push
    { data, parent := some parent }
  roots := a.roots
  parent_lt := by
    intro i n p hn hp
    rw [Array.getElem?_push] at hn
    split at hn
    · cases hn
      simp only [Option.some.injEq] at hp
      subst hp
      simp_all [size]
    · rw [Array.getElem?_modify] at hn
      split at hn
      · cases hm : a.nodes[i]? with
        | none => simp [hm] at hn
        | some m =>
          simp only [hm, Option.map_some, Option.some.injEq] at hn
          subst hn
          exact a.parent_lt i m p hm hp
      · exact a.parent_lt i n p hn hp

/-- Adds a node beneath `parent`, or without a parent if there is none in the tree. -/
def add (a : Arena α) (parent : Option Nat) (data : α) : Arena α :=
  match parent with
  | none => a.addRoot data
  | some p => if h : p < a.size then a.addChild p h data else a.addRoot data

/-- Adds a node beneath the node that a number names. -/
def addBeneath (a : Arena α) (parent : Number) (data : α) : Except ArenaError (Arena α) :=
  match a.find? parent with
  | some p => .ok (a.add (some p) data)
  | none => .error (.unknownParent parent)

/-- A node and its siblings in order; the roots are siblings of each other. -/
def level (a : Arena α) (id : Nat) : List Nat :=
  match a.parent? id with
  | none => a.roots
  | some p => a.children p

/-- The siblings after a node. -/
def following (a : Arena α) (id : Nat) : List Nat :=
  ((a.level id).dropWhile (· != id)).tail

/-- The siblings before a node, if it is in the tree. -/
def preceding (a : Arena α) (id : Nat) : List Nat :=
  if id ∈ a.level id then (a.level id).takeWhile (· != id) else []

def nextSibling? (a : Arena α) (id : Nat) : Option Nat := (a.following id).head?

def previousSibling? (a : Arena α) (id : Nat) : Option Nat := (a.preceding id).getLast?

theorem lt_of_parent? {a : Arena α} {id p : Nat} (h : a.parent? id = some p) : p < id := by
  simp only [parent?, Option.bind_eq_some_iff] at h
  obtain ⟨n, hn, hp⟩ := h
  exact a.parent_lt id n p hn hp

/-- A node, its parent, the parent of that, up to a root. -/
def lineage (a : Arena α) (id : Nat) : List Nat :=
  id ::
    match h : a.parent? id with
    | none => []
    | some p =>
      have : p < id := lt_of_parent? h
      a.lineage p

/-- Where a walk goes on once a node and all beneath it is done: at the next sibling of the node or
of its nearest ancestor that has one. -/
def next? (a : Arena α) (id : Nat) : Option Nat := (a.lineage id).findSome? a.nextSibling?

/-- The data of all nodes by number. -/
def toList (a : Arena α) : List α := a.nodes.toList.map (·.data)

/-- The first node whose data pass a test. -/
def findBy? (a : Arena α) (test : α → Bool) : Option (Nat × α) :=
  (a.toList.zipIdx.find? fun e => test e.1).map fun e => (e.2, e.1)

@[simp] theorem size_empty : (empty : Arena α).size = 0 := rfl

@[simp] theorem size_addRoot (a : Arena α) (data : α) : (a.addRoot data).size = a.size + 1 := by
  simp [addRoot, size]

@[simp] theorem size_addChild (a : Arena α) (p : Nat) (h : p < a.size) (data : α) :
    (a.addChild p h data).size = a.size + 1 := by
  simp [addChild, size]

@[simp] theorem size_add (a : Arena α) (parent : Option Nat) (data : α) :
    (a.add parent data).size = a.size + 1 := by
  unfold add
  split
  · simp
  · split <;> simp

end Arena
end BranchingDialogue
