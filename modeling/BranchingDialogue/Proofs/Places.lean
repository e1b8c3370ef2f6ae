import Mathlib.Data.List.Infix
import BranchingDialogue.Files.Folder
import BranchingDialogue.Proofs.Cutting

/-! What paths lead to while files come and go. A path goes on through directories and links only, so it
leads to the same place however the plain files change. -/
namespace BranchingDialogue

namespace Folder

variable {f g : Folder} {p q done todo rest : List String} {e : Entry} {n : Nat} {s target : String}
  {r : List String × Entry}

/-- The entry that a place has itself. -/
def stored? (f : Folder) (path : List String) : Option Entry :=
  (f.entries.reverse.find? fun e => e.1 = path).map (·.2)

/-- Whether a place is the root or on the way to an entry. -/
def leadsOn (f : Folder) (path : List String) : Bool :=
  path.isEmpty || f.entries.any fun e => path.isPrefixOf e.1

theorem at?_eq (f : Folder) (path : List String) :
    f.at? path = (f.stored? path).or (if f.leadsOn path then some .folder else none) := by
  rw [at?, stored?, leadsOn]
  cases f.entries.reverse.find? fun e => e.1 = path <;> rfl

/-- Nothing lies beneath what is no directory. -/
def Proper (f : Folder) : Prop :=
  ∀ e ∈ f.entries, ∀ path, path <+: e.1 → path ≠ e.1 → f.at? path = some .folder

theorem mem_entries_of_stored? (h : f.stored? p = some e) : (p, e) ∈ f.entries := by
  obtain ⟨entry, hentry, rfl⟩ := Option.map_eq_some_iff.mp h
  have hname := List.find?_some hentry
  have hmem := List.mem_reverse.mp (List.mem_of_find?_eq_some hentry)
  rw [← of_decide_eq_true hname]
  exact hmem

/-- What is no directory has an entry. -/
theorem mem_entries_of_at? (h : f.at? p = some e) (he : e ≠ .folder) : (p, e) ∈ f.entries := by
  rw [at?_eq] at h
  cases hs : f.stored? p with
  | some stored =>
    rw [hs, Option.some_or] at h
    exact mem_entries_of_stored? (hs.trans h)
  | none =>
    rw [hs, Option.none_or] at h
    split at h
    next => exact absurd (Option.some.inj h).symm he
    next => cases h

section
variable {dir : List String} {a b : String}

variable (hproper : f.Proper) (ha : f.at? (dir ++ [a]) = some e) (he : e ≠ .folder) (hab : a ≠ b)
include hproper ha he hab

end

def IsName (s : String) : Prop := s ≠ "" ∧ s ≠ "." ∧ s ≠ ".."

/-- Where segments lead from a place, going through so many links at most. -/
inductive Leads (f : Folder) : Nat → List String → List String → List String × Entry → Prop
  | here {n : Nat} {done : List String} {e : Entry} (hat : f.at? done = some e) : Leads f n done [] (done, e)
  | stay {n : Nat} {done rest : List String} {s : String} {r : List String × Entry}
      (hfolder : f.at? done = some .folder) (hs : s = "" ∨ s = ".") (h : Leads f n done rest r) :
      Leads f n done (s :: rest) r
  | up {n : Nat} {done rest : List String} {r : List String × Entry} (hfolder : f.at? done = some .folder)
      (h : Leads f n done.dropLast rest r) : Leads f n done (".." :: rest) r
  | through {n : Nat} {done rest : List String} {s target : String} {r : List String × Entry}
      (hfolder : f.at? done = some .folder) (hs : IsName s) (hsize : s.utf8ByteSize ≤ maxSegment)
      (hat : f.at? (done ++ [s]) = some (.link target))
      (h : Leads f n (if Path.isAbsolute target then [] else done) (Path.segments target ++ rest) r) :
      Leads f (n + 1) done (s :: rest) r
  | enter {n : Nat} {done rest : List String} {s : String} {e : Entry} {r : List String × Entry}
      (hfolder : f.at? done = some .folder) (hs : IsName s) (hsize : s.utf8ByteSize ≤ maxSegment)
      (hat : f.at? (done ++ [s]) = some e) (he : ∀ target, e ≠ .link target)
      (h : Leads f n (done ++ [s]) rest r) : Leads f n done (s :: rest) r

theorem leads_of_follow (h : f.follow n done todo = .ok r) : f.Leads n done todo r := by
  fun_induction follow f n done todo with
  | case1 n done e hat =>
    cases h
    exact .here hat
  | case4 n done s rest hfolder hs ih => exact .stay (Classical.not_not.mp hfolder) hs (ih h)
  | case5 n done rest hfolder _ ih => exact .up (Classical.not_not.mp hfolder) (ih h)
  | case9 done s rest hfolder hs hup hsize target hat n ih =>
    have hname : IsName s := ⟨(not_or.mp hs).1, (not_or.mp hs).2, hup⟩
    exact .through (Classical.not_not.mp hfolder) hname (Nat.le_of_not_lt hsize) hat (ih h)
  | case10 n done s rest hfolder hs hup hsize e hlink hat ih =>
    have hname : IsName s := ⟨(not_or.mp hs).1, (not_or.mp hs).2, hup⟩
    exact .enter (Classical.not_not.mp hfolder) hname (Nat.le_of_not_lt hsize) hat hlink (ih h)
  | _ => cases h

/-- A path that leads to a directory starts from one. -/
theorem Leads.folder_at (h : f.Leads n done todo (p, .folder)) : f.at? done = some .folder := by
  cases h <;> assumption

/-- A path may be followed to a directory first, and on from there. -/
theorem Leads.follow_append (h : f.Leads n done todo (p, .folder)) :
    ∃ m, ∀ rest, f.follow n done (todo ++ rest) = f.follow m p rest := by
  generalize hr : (p, Entry.folder) = r at h
  induction h with
  | here hat =>
    cases hr
    exact ⟨_, fun rest => rfl⟩
  | stay hfolder hs h ih =>
    obtain ⟨m, hm⟩ := ih hr
    refine ⟨m, fun rest => ?_⟩
    rw [List.cons_append, follow, if_neg (not_not_intro hfolder), if_pos hs, hm]
  | up hfolder h ih =>
    obtain ⟨m, hm⟩ := ih hr
    refine ⟨m, fun rest => ?_⟩
    rw [List.cons_append, follow, if_neg (not_not_intro hfolder), if_neg (by decide), if_pos rfl, hm]
  | through hfolder hs hsize hat h ih =>
    obtain ⟨m, hm⟩ := ih hr
    refine ⟨m, fun rest => ?_⟩
    rw [List.cons_append, follow, if_neg (not_not_intro hfolder), if_neg (not_or.mpr ⟨hs.1, hs.2.1⟩),
      if_neg hs.2.2, if_neg (Nat.not_lt_of_le hsize), hat]
    simp only [← hm, List.append_assoc]
  | enter hfolder hs hsize hat he h ih =>
    obtain ⟨m, hm⟩ := ih hr
    refine ⟨m, fun rest => ?_⟩
    rw [List.cons_append, follow, if_neg (not_not_intro hfolder), if_neg (not_or.mpr ⟨hs.1, hs.2.1⟩),
      if_neg hs.2.2, if_neg (Nat.not_lt_of_le hsize), hat]
    split
    next htarget => cases htarget
    next htarget => exact absurd (Option.some.inj htarget) (he _)
    next => exact hm rest

/-- Two folders have the same directories and links. -/
def SameWays (f g : Folder) : Prop :=
  ∀ q e, (∀ bytes, e ≠ .file bytes) → (f.at? q = some e ↔ g.at? q = some e)

theorem SameWays.trans {g' : Folder} (h : f.SameWays g) (h' : g.SameWays g') : f.SameWays g' :=
  fun q e he => (h q e he).trans (h' q e he)

section
variable {dir : List String} {a b : String} {bytes new : List Text.Utf8.Byte}
  (hproper : f.Proper) (ha : f.at? (dir ++ [a]) = some (.file bytes)) (hab : a ≠ b)

end

theorem SameWays.leads (hsame : f.SameWays g) (h : f.Leads n done todo (p, .folder)) :
    g.Leads n done todo (p, .folder) := by
  have hfolder {q : List String} (hq : f.at? q = some .folder) : g.at? q = some .folder :=
    (hsame q .folder nofun).mp hq
  generalize hr : (p, Entry.folder) = r at h
  induction h with
  | here hat =>
    cases hr
    exact .here (hfolder hat)
  | stay hat hs h ih => exact .stay (hfolder hat) hs (ih hr)
  | up hat h ih => exact .up (hfolder hat) (ih hr)
  | through hdone hs hsize hat h ih =>
    exact .through (hfolder hdone) hs hsize ((hsame _ (.link _) nofun).mp hat) (ih hr)
  | enter hdone hs hsize hat he h ih =>
    subst hr
    rw [h.folder_at] at hat
    cases hat
    exact .enter (hfolder hdone) hs hsize (hfolder h.folder_at) he (ih rfl)

theorem Leads.at?_eq (h : f.Leads n done todo r) : f.at? r.1 = some r.2 := by
  induction h <;> assumption

theorem Leads.follow_eq (h : f.Leads n done todo (p, .folder)) : f.follow n done todo = .ok (p, .folder) := by
  obtain ⟨m, hm⟩ := h.follow_append
  have hnil := hm []
  rw [List.append_nil, follow, h.at?_eq] at hnil
  exact hnil

/-- The place of a path is in the directory that all but its last segment lead to. -/
theorem place_eq_ok_iff {home : List String} {path : String} : f.place home path = .ok q ↔
    ∃ base init name dir, start home path = .ok base ∧ Path.segments path = init ++ [name] ∧
      f.Leads maxLinks base init (dir, .folder) ∧ name.utf8ByteSize ≤ maxSegment ∧ q = dir ++ [name] := by
  constructor
  · intro h
    rw [place] at h
    cases hbase : start home path with
    | error fault => rw [hbase] at h; cases h
    | ok base =>
      rw [hbase] at h
      cases hfollow : f.follow maxLinks base (Path.segments path).dropLast with
      | error fault =>
        simp only [bind, Except.bind, hfollow] at h
        cases h
      | ok r =>
        obtain ⟨dir, e⟩ := r
        simp only [bind, Except.bind, hfollow] at h
        split at h
        next real name heq hlast =>
          obtain ⟨init, hinit⟩ := List.getLast?_eq_some_iff.mp hlast
          obtain ⟨rfl, rfl⟩ := Prod.mk.inj heq
          rw [hinit, List.dropLast_concat] at hfollow
          split at h
          next => cases h
          next hsize =>
            cases h
            exact ⟨base, init, name, _, rfl, hinit, leads_of_follow hfollow, Nat.le_of_not_lt hsize, rfl⟩
        next => cases h
  · rintro ⟨base, init, name, dir, hbase, hsegments, hleads, hsize, rfl⟩
    rw [place, hbase, hsegments]
    simp only [bind, Except.bind, List.dropLast_concat, List.getLast?_concat, hleads.follow_eq,
      if_neg (Nat.not_lt_of_le hsize)]
    rfl

section
variable {home : List String} {path source goal text : String}

theorem SameWays.place (h : f.SameWays g) (hp : f.place home path = .ok q) : g.place home path = .ok q := by
  obtain ⟨base, init, name, dir, hbase, hsegments, hleads, hsize, hq⟩ := place_eq_ok_iff.mp hp
  exact place_eq_ok_iff.mpr ⟨base, init, name, dir, hbase, hsegments, h.leads hleads, hsize, hq⟩

/-- A directory is found where the segments of its path lead. -/
theorem find_of_leads {base : List String} (hbase : start home path = .ok base)
    (h : f.Leads maxLinks base (Path.segments path) (p, .folder)) : f.find home path = .ok (p, .folder) := by
  rw [find, hbase]
  exact h.follow_eq

theorem find_root (h : f.at? [] = some .folder) (home : List String) :
    f.find home "/" = .ok ([], .folder) := by
  have hsegments : Path.segments "/" = ["", ""] := by decide +kernel
  refine find_of_leads rfl ?_
  rw [hsegments]
  exact .stay h (.inl rfl) (.stay h (.inl rfl) (.here h))

end

end Folder
end BranchingDialogue
