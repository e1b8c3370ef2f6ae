/-! Named entries in the order in which their names first came. -/
namespace BranchingDialogue

structure Table (β : Type) where
  entries : List (String × β) := []
  deriving DecidableEq, Repr

namespace Table

variable {β γ : Type}

def empty : Table β := ⟨[]⟩

instance : Inhabited (Table β) := ⟨empty⟩

def names (t : Table β) : List String := t.entries.map (·.1)

def values (t : Table β) : List β := t.entries.map (·.2)

def size (t : Table β) : Nat := t.entries.length

/-- The entry of a name in a list of entries. -/
def lookup (name : String) : List (String × β) → Option β
  | [] => none
  | (k, v) :: es => if k = name then some v else lookup name es

/-- Replaces the entry of a name in its place, or adds it at the end. -/
def insert (name : String) (value : β) : List (String × β) → List (String × β)
  | [] => [(name, value)]
  | (k, v) :: es => if k = name then (k, value) :: es else (k, v) :: insert name value es

def get? (t : Table β) (name : String) : Option β := lookup name t.entries

def contains (t : Table β) (name : String) : Bool := (t.get? name).isSome

def put (t : Table β) (name : String) (value : β) : Table β := ⟨insert name value t.entries⟩

def erase (t : Table β) (name : String) : Table β := ⟨t.entries.filter (·.1 ≠ name)⟩

def map (f : β → γ) (t : Table β) : Table γ := ⟨t.entries.map fun e => (e.1, f e.2)⟩

@[simp] theorem get?_empty (name : String) : (empty : Table β).get? name = none := rfl

@[simp] theorem get?_put_self (t : Table β) (name : String) (v : β) :
    (t.put name v).get? name = some v := by
  obtain ⟨es⟩ := t
  induction es with
  | nil => simp [get?, put, insert, lookup]
  | cons e es ih =>
    simp only [get?, put, insert] at ih ⊢
    split
    · next h => simp [lookup, h]
    · next h => simpa [lookup, h] using ih

theorem get?_put_of_ne (t : Table β) {name other : String} (v : β) (h : other ≠ name) :
    (t.put name v).get? other = t.get? other := by
  obtain ⟨es⟩ := t
  induction es with
  | nil => simp [get?, put, insert, lookup, Ne.symm h]
  | cons e es ih =>
    simp only [get?, put, insert] at ih ⊢
    split
    · next he => simp [lookup, he, Ne.symm h]
    · next he => simp only [lookup]; split <;> simp_all

/-- What stands there already may be put there again. -/
theorem put_of_get? {t : Table β} {name : String} {v : β} (h : t.get? name = some v) :
    t.put name v = t := by
  obtain ⟨es⟩ := t
  simp only [get?, put] at h ⊢
  congr 1
  induction es with
  | nil => cases h
  | cons e es ih =>
    rw [lookup] at h
    rw [insert]
    split
    next hk => rw [if_pos hk] at h; cases h; rfl
    next hk => rw [if_neg hk] at h; rw [ih h]

theorem get?_erase_self (t : Table β) (name : String) : (t.erase name).get? name = none := by
  obtain ⟨es⟩ := t
  simp only [get?, erase]
  induction es with
  | nil => rfl
  | cons e es ih =>
    by_cases hk : e.1 = name
    · rw [List.filter_cons_of_neg (by simpa using hk), ih]
    · rw [List.filter_cons_of_pos (by simpa using hk), lookup, if_neg hk, ih]

theorem get?_erase_of_ne (t : Table β) {name other : String} (h : other ≠ name) :
    (t.erase name).get? other = t.get? other := by
  obtain ⟨es⟩ := t
  simp only [get?, erase]
  induction es with
  | nil => rfl
  | cons e es ih =>
    by_cases hk : e.1 = name
    · have hother : ¬ e.1 = other := fun he => h (he.symm.trans hk)
      rw [List.filter_cons_of_neg (by simpa using hk), ih, lookup, if_neg hother]
    · rw [List.filter_cons_of_pos (by simpa using hk), lookup, lookup, ih]

theorem mem_names_iff {t : Table β} {name : String} : name ∈ t.names ↔ (t.get? name).isSome := by
  obtain ⟨es⟩ := t
  induction es with
  | nil => simp [names, get?, lookup]
  | cons e es ih =>
    obtain ⟨k, v⟩ := e
    simp only [names, get?, List.map_cons, List.mem_cons, lookup] at ih ⊢
    by_cases hk : k = name
    · simp [hk]
    · rw [if_neg hk, ← ih]
      simp [Ne.symm hk]

theorem length_names (t : Table β) : t.names.length = t.size := List.length_map _

theorem names_put_of_mem {t : Table β} {name : String} (h : name ∈ t.names) (v : β) :
    (t.put name v).names = t.names := by
  obtain ⟨es⟩ := t
  simp only [names, put] at h ⊢
  induction es with
  | nil => cases h
  | cons e es ih =>
    rw [insert]
    split
    next hk => rw [List.map_cons, List.map_cons, hk]
    next hk =>
      rw [List.map_cons, List.map_cons, ih ((List.mem_cons.mp h).resolve_left (Ne.symm hk))]

/-- A new name comes last. -/
theorem entries_put_of_notMem {t : Table β} {name : String} (h : name ∉ t.names) (v : β) :
    (t.put name v).entries = t.entries ++ [(name, v)] := by
  obtain ⟨es⟩ := t
  simp only [names, put] at h ⊢
  induction es with
  | nil => rfl
  | cons e es ih =>
    rw [List.map_cons, List.mem_cons, not_or] at h
    rw [insert, if_neg (Ne.symm h.1), ih h.2, List.cons_append]

theorem names_put_of_notMem {t : Table β} {name : String} (h : name ∉ t.names) (v : β) :
    (t.put name v).names = t.names ++ [name] := by
  rw [names, entries_put_of_notMem h, List.map_append]
  rfl

theorem mem_entries_of_get? {t : Table β} {name : String} {v : β} (h : t.get? name = some v) :
    (name, v) ∈ t.entries := by
  obtain ⟨es⟩ := t
  simp only [get?] at h ⊢
  induction es with
  | nil => cases h
  | cons e es ih =>
    rw [lookup] at h
    split at h
    next hk =>
      cases h
      rw [← hk]
      exact List.mem_cons_self
    next => exact List.mem_cons_of_mem _ (ih h)

/-- An entry is found under its name if no other has that name. -/
theorem get?_of_mem_entries {t : Table β} (hnodup : t.names.Nodup) {name : String} {v : β}
    (h : (name, v) ∈ t.entries) : t.get? name = some v := by
  obtain ⟨es⟩ := t
  simp only [get?, names] at hnodup h ⊢
  induction es with
  | nil => cases h
  | cons e es ih =>
    rw [List.map_cons, List.nodup_cons] at hnodup
    rw [lookup]
    rcases List.mem_cons.mp h with rfl | h
    · exact if_pos rfl
    · have hne : e.1 ≠ name := by
        rintro rfl
        exact hnodup.1 (List.mem_map.mpr ⟨_, h, rfl⟩)
      rw [if_neg hne, ih hnodup.2 h]

theorem names_erase (t : Table β) (name : String) :
    (t.erase name).names = t.names.filter (· ≠ name) := by
  simp only [names, erase, List.filter_map]
  rfl

theorem nodup_names_put {t : Table β} (h : t.names.Nodup) (name : String) (v : β) :
    (t.put name v).names.Nodup := by
  by_cases hname : name ∈ t.names
  · rwa [names_put_of_mem hname]
  · rw [names_put_of_notMem hname]
    refine List.nodup_append.mpr ⟨h, by simp, fun k hk other hother => ?_⟩
    rw [List.mem_singleton.mp hother]
    rintro rfl
    exact hname hk

theorem nodup_names_erase {t : Table β} (h : t.names.Nodup) (name : String) :
    (t.erase name).names.Nodup := by
  rw [names_erase]
  exact h.filter _

theorem size_put_of_isSome {t : Table β} {name : String} (h : (t.get? name).isSome) (v : β) :
    (t.put name v).size = t.size := by
  rw [← length_names, names_put_of_mem (mem_names_iff.mpr h), length_names]

theorem size_put_of_none {t : Table β} {name : String} (h : t.get? name = none) (v : β) :
    (t.put name v).size = t.size + 1 := by
  have hname : name ∉ t.names := by simp [mem_names_iff, h]
  rw [← length_names, names_put_of_notMem hname, List.length_append, length_names]
  rfl

/-- Names that stand in a table once are gone when they are erased. -/
theorem size_erase {t : Table β} (hnodup : t.names.Nodup) {name : String} (h : (t.get? name).isSome) :
    (t.erase name).size + 1 = t.size := by
  have hmem : name ∈ t.names := mem_names_iff.mpr h
  have hnames : (t.erase name).names = t.names.erase name := by
    rw [names_erase, hnodup.erase_eq_filter]
    exact List.filter_congr fun k _ => by by_cases hk : k = name <;> simp [hk]
  have hpos := List.length_pos_of_mem hmem
  rw [← length_names, hnames, List.length_erase_of_mem hmem, ← length_names t]
  omega

end Table
end BranchingDialogue
