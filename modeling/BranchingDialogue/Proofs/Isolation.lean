import BranchingDialogue.Proofs.Collation
import BranchingDialogue.Proofs.Loading

/-! What the files of a directory have to do with each other when they are loaded: nothing. They are taken in
the order of their names, and what comes of one of them is not changed by another one. -/
namespace BranchingDialogue

/-- Two lists are the same but for one place, where either may have an element of some kind or none. -/
def DifferAt {α : Type} (P : α → Prop) (as bs : List α) : Prop :=
  ∃ before after, ∃ x y : Option α, as = before ++ x.toList ++ after ∧ bs = before ++ y.toList ++ after ∧
    (∀ a ∈ x, P a) ∧ ∀ a ∈ y, P a

/-- What is made of each element for itself differs at one place too. -/
theorem DifferAt.filterMap {α β : Type} {P : α → Prop} {Q : β → Prop} {g : α → Option β} {as bs : List α}
    (h : DifferAt P as bs) (hg : ∀ a b, P a → g a = some b → Q b) :
    DifferAt Q (as.filterMap g) (bs.filterMap g) := by
  have hbind (x : Option α) : x.toList.filterMap g = (x.bind g).toList := by
    cases x with
    | none => rfl
    | some a => cases ha : g a <;> simp [ha]
  have hkind {x : Option α} (hx : ∀ a ∈ x, P a) : ∀ b ∈ x.bind g, Q b := by
    intro b hb
    obtain ⟨a, ha, hab⟩ := Option.bind_eq_some_iff.mp hb
    exact hg a b (hx a ha) hab
  obtain ⟨before, after, x, y, rfl, rfl, hx, hy⟩ := h
  refine ⟨before.filterMap g, after.filterMap g, x.bind g, y.bind g, ?_, ?_, hkind hx, hkind hy⟩ <;>
    simp only [List.filterMap_append, hbind]

/-- Files in the order of their names, and no two of one name. -/
def InOrder {α : Type} (files : List (String × α)) : Prop :=
  files.Pairwise fun f g => Text.before f.1 g.1 = true ∧ f.1 ≠ g.1

namespace InOrder

variable {α : Type} {as bs : List (String × α)} {name : String}

theorem nodup (h : InOrder as) : as.Nodup :=
  h.imp fun hfg heq => hfg.2 (congrArg Prod.fst heq)

theorem filter (h : InOrder as) (q : String × α → Bool) : InOrder (as.filter q) :=
  List.Pairwise.filter q h

/-- The files alone determine their order. -/
theorem eq_of_mem_iff (ha : InOrder as) (hb : InOrder bs) (h : ∀ f, f ∈ as ↔ f ∈ bs) : as = bs := by
  refine List.Perm.eq_of_pairwise (fun f g _ _ hfg hgf => ?_) ha hb ?_
  · exact absurd (Text.before_antisymm hfg.1 hgf.1) hfg.2
  · exact (List.perm_ext_iff_of_nodup ha.nodup hb.nodup).mpr h

/-- What holds of a file only if it holds of all before it holds of the first ones. -/
theorem filter_append (h : InOrder as) (q : String × α → Bool)
    (hq : ∀ f g, Text.before f.1 g.1 = true → q g = true → q f = true) :
    as.filter q ++ as.filter (fun f => !q f) = as := by
  induction as with
  | nil => rfl
  | cons f as ih =>
    obtain ⟨hf, has⟩ := List.pairwise_cons.mp h
    cases hqf : q f with
    | true =>
      rw [List.filter_cons_of_pos hqf, List.filter_cons_of_neg (by simp [hqf]), List.cons_append, ih has]
    | false =>
      have hnone : ∀ g ∈ f :: as, q g = false := by
        intro g hg
        rcases List.mem_cons.mp hg with rfl | hg
        · exact hqf
        · rw [← Bool.not_eq_true]
          intro hqg
          rw [hq f g (hf g hg).1 hqg] at hqf
          cases hqf
      rw [List.filter_eq_nil_iff.mpr (by simpa using hnone), List.filter_eq_self.mpr (by simpa using hnone),
        List.nil_append]

/-- There is no more than one file of a name. -/
theorem exists_toList (h : InOrder as) (name : String) (hname : ∀ f ∈ as, f.1 = name) :
    ∃ x : Option (String × α), as = x.toList ∧ ∀ f ∈ x, f.1 = name := by
  cases as with
  | nil => exact ⟨none, rfl, by simp⟩
  | cons f as =>
    cases as with
    | nil => exact ⟨some f, rfl, by simpa using hname⟩
    | cons g as =>
      have hfg := ((List.pairwise_cons.mp h).1 g (by simp)).2
      rw [hname f (by simp), hname g (by simp)] at hfg
      exact absurd rfl hfg

/-- The files before a name, the one of that name if there is one, and the files after it. -/
theorem exists_split (h : InOrder as) (name : String) : ∃ x : Option (String × α), (∀ f ∈ x, f.1 = name) ∧
    as = as.filter (fun f => !Text.before name f.1) ++ x.toList ++
      as.filter (fun f => !Text.before f.1 name) := by
  have hnotAfter : InOrder (as.filter fun f => Text.before f.1 name) := h.filter _
  have hafter := h.filter_append (fun f => Text.before f.1 name) fun f g hfg hg =>
    Text.before_trans hfg hg
  have hbefore := hnotAfter.filter_append (fun f => !Text.before name f.1) fun f g hfg hg => by
    rw [Bool.not_eq_true', ← Bool.not_eq_true] at hg ⊢
    exact fun hf => hg (Text.before_trans hf hfg)
  have hstrict : (as.filter fun f => Text.before f.1 name).filter (fun f => !Text.before name f.1) =
      as.filter fun f => !Text.before name f.1 := by
    rw [List.filter_filter]
    congr 1
    funext f
    have htotal := Text.before_total f.1 name
    cases hf : Text.before name f.1 <;> simp_all
  obtain ⟨x, hx, hname⟩ := (hnotAfter.filter fun f => !!Text.before name f.1).exists_toList name
    fun f hf => by
      simp only [List.mem_filter, Bool.not_not] at hf
      exact Text.before_antisymm hf.1.2 hf.2
  refine ⟨x, hname, ?_⟩
  rw [← hx, ← hstrict, hbefore, hafter]

/-- Where the files of all other names are the same, they are at the same places. -/
theorem differAt (ha : InOrder as) (hb : InOrder bs) (h : ∀ f, f.1 ≠ name → (f ∈ as ↔ f ∈ bs)) :
    DifferAt (fun f => f.1 = name) as bs := by
  have hsame (q : String × α → Bool) (hq : ∀ f, f.1 = name → q f = false) : as.filter q = bs.filter q := by
    refine (ha.filter q).eq_of_mem_iff (hb.filter q) fun f => ?_
    rw [List.mem_filter, List.mem_filter]
    by_cases hf : f.1 = name
    · simp [hq f hf]
    · rw [h f hf]
  have hself : Text.before name name = true := by simpa using Text.before_total name name
  obtain ⟨x, hx, hsplit⟩ := ha.exists_split name
  obtain ⟨y, hy, hsplit'⟩ := hb.exists_split name
  refine ⟨_, _, x, y, hsplit, ?_, hx, hy⟩
  rw [hsame _ fun f hf => by rw [hf, hself]; rfl, hsame _ fun f hf => by rw [hf, hself]; rfl]
  exact hsplit'

end InOrder

namespace Folder

variable {f : Folder} {real : List String} {name : String}

/-- What is no directory is among the names of the directory that it lies in. -/
theorem mem_children_iff {e : Entry} (he : e ≠ .folder) :
    (name, e) ∈ f.children real ↔ f.at? (real ++ [name]) = some e := by
  unfold children
  simp only [List.mem_filterMap, Option.map_eq_some_iff]
  constructor
  · rintro ⟨_, -, _, hat, heq⟩
    cases heq
    exact hat
  · intro hat
    refine ⟨name, ?_, e, hat, rfl⟩
    rw [List.mem_eraseDups, List.mem_filterMap]
    refine ⟨_, mem_entries_of_at? hat he, ?_⟩
    simp

theorem mem_files_iff {bytes : List Text.Utf8.Byte} :
    (name, bytes) ∈ f.files real ↔ f.at? (real ++ [name]) = some (.file bytes) := by
  have hfile : Entry.file bytes ≠ .folder := nofun
  rw [← mem_children_iff hfile, files, List.mem_mergeSort, List.mem_filterMap]
  constructor
  · rintro ⟨⟨child, entry⟩, hmem, hplain⟩
    cases entry with
    | file _ =>
      cases hplain
      exact hmem
    | folder => cases hplain
    | link _ => cases hplain
  · intro hmem
    exact ⟨_, hmem, rfl⟩

theorem inOrder_files (f : Folder) (real : List String) : InOrder (f.files real) := by
  have hsorted : (f.files real).Pairwise fun a b => Text.before a.1 b.1 = true := by
    apply List.pairwise_mergeSort
    · intro a b c
      exact Text.before_trans
    · intro a b
      exact Text.before_total a.1 b.1
  exact hsorted.and (List.pairwise_map.mp (f.nodup_names_files real))

end Folder

namespace Library

variable {folder : Folder} {real : List String} {path name : String} {p : Policy} {lib lib' : Library}

def scriptsIn (folder : Folder) (real : List String) : List (String × String) :=
  scriptTexts (folder.files real)

theorem mem_scriptsIn_iff {text : String} : (name, text) ∈ scriptsIn folder real ↔
    isScriptName name = true ∧ ∃ bytes, folder.at? (real ++ [name]) = some (.file bytes) ∧
      text = .ofList (Text.Utf8.decode bytes) := by
  unfold scriptsIn scriptTexts
  simp only [List.mem_map, List.mem_filter, Prod.mk.injEq]
  constructor
  · rintro ⟨⟨_, bytes⟩, ⟨hmem, hname⟩, rfl, rfl⟩
    exact ⟨hname, bytes, Folder.mem_files_iff.mp hmem, rfl⟩
  · rintro ⟨hname, bytes, hat, rfl⟩
    exact ⟨(name, bytes), ⟨Folder.mem_files_iff.mpr hat, hname⟩, rfl, rfl⟩

theorem inOrder_scriptsIn (folder : Folder) (real : List String) : InOrder (scriptsIn folder real) := by
  apply List.pairwise_map.mpr
  exact (folder.inOrder_files real).filter _

/-- A path leads to a directory whose script files have different ids. -/
structure Distinct (folder : Folder) (path : String) (real : List String) : Prop where
  find : folder.find [] path = .ok (real, .folder)
  nodup : ((scriptsIn folder real).map fun f => idOfName f.1).Nodup

theorem Distinct.holds (h : Distinct folder path real) (p : Policy) (label : String) :
    Holds p (scriptsIn folder real) (load p folder path label).1 := by
  rw [load_of_scan (Folder.scan_eq_ok_iff.mpr ⟨real, h.find, rfl⟩)]
  exact (holds_addTexts_iff p _).mpr h.nodup

/-- Two libraries are the same but for what comes of the file of one name. -/
structure AgreeBut (p : Policy) (name : String) (lib lib' : Library) : Prop where
  texts : DifferAt (fun e => ∃ text, e = textEntry (name, text)) lib.texts.entries lib'.texts.entries
  scripts : DifferAt (fun e => ∃ text, loaded? p (name, text) = some e) lib.scripts.entries lib'.scripts.entries
  errors : DifferAt (fun e => ∃ text, complaint? p (name, text) = some e) lib.errors lib'.errors

theorem agreeBut_of_differAt {files files' : List (String × String)}
    (h : DifferAt (fun f => f.1 = name) files files') (hlib : Holds p files lib) (hlib' : Holds p files' lib') :
    AgreeBut p name lib lib' := by
  constructor
  · rw [hlib.texts, hlib'.texts, ← List.filterMap_eq_map]
    exact h.filterMap fun ⟨_, text⟩ e hname he => by cases hname; exact ⟨text, (Option.some.inj he).symm⟩
  · rw [hlib.scripts, hlib'.scripts]
    exact h.filterMap fun ⟨_, text⟩ e hname he => by cases hname; exact ⟨text, he⟩
  · rw [hlib.errors, hlib'.errors]
    exact h.filterMap fun ⟨_, text⟩ e hname he => by cases hname; exact ⟨text, he⟩

/-- All script files of a directory are loaded or complained about, each for itself and in the order of their
paths. Changing, adding or removing the file of one name makes no difference to what comes of the others. -/
theorem load_isolates (h : Distinct folder path real) (p : Policy) (label : String) :
    (∀ name text, (name, text) ∈ scriptsIn folder real ↔
        isScriptName name = true ∧ ∃ bytes, folder.at? (real ++ [name]) = some (.file bytes) ∧
          text = .ofList (Text.Utf8.decode bytes)) ∧
      (∀ dir, (scriptsIn folder real).Pairwise fun f g => Text.before (dir ++ f.1) (dir ++ g.1) = true) ∧
      Holds p (scriptsIn folder real) (load p folder path label).1 ∧
      ∀ folder' path' real' label' name, Distinct folder' path' real' →
        (∀ other bytes, other ≠ name → (folder'.at? (real' ++ [other]) = some (.file bytes) ↔
          folder.at? (real ++ [other]) = some (.file bytes))) →
        AgreeBut p name (load p folder path label).1 (load p folder' path' label').1 := by
  refine ⟨fun _ _ => mem_scriptsIn_iff, fun dir => ?_, h.holds p label, ?_⟩
  · refine (inOrder_scriptsIn folder real).imp fun hfg => ?_
    rw [Text.before_append]
    exact hfg.1
  · intro folder' path' real' label' name h' hsame
    refine agreeBut_of_differAt ?_ (h.holds p label) (h'.holds p label')
    refine (inOrder_scriptsIn folder real).differAt (inOrder_scriptsIn folder' real') fun f hf => ?_
    rw [mem_scriptsIn_iff, mem_scriptsIn_iff]
    simp only [hsame _ _ hf]

/-- A draft, a text that cannot be read, an invalid script and one that is loaded. When the text is mended, what
becomes of the other files stays as it was. -/
theorem load_isolates_mended :
    let folder : Entry → Folder := fun e =>
      { entries := [(["_.script"], .file [0x6A]), (["b.script"], e),
          (["c.script"], Folder.textFile "%START%\n|SAY| a\n|GOTO| X\n%END%"),
          (["d.script"], Folder.textFile "%START%\n|SAY| a\n%END%")] }
    let broken := folder (.file [0x6A])
    let mended := folder (Folder.textFile "%START%\n|SAY| b\n%END%")
    let lib := (load {} broken "/" "").1
    let lib' := (load {} mended "/" "").1
    Distinct broken "/" [] ∧ Distinct mended "/" [] ∧ lib.scripts.names = ["d"] ∧ lib.errors.length = 2 ∧
      lib'.scripts.names = ["b", "d"] ∧ lib'.errors.length = 1 ∧ AgreeBut {} "b.script" lib lib' := by
  intro folder broken mended lib lib'
  have hfiles : broken.files [] = [("_.script", [0x6A]), ("b.script", [0x6A]),
      ("c.script", Text.Utf8.encode "%START%\n|SAY| a\n|GOTO| X\n%END%".toList),
      ("d.script", Text.Utf8.encode "%START%\n|SAY| a\n%END%".toList)] :=
    Folder.files_of_children (by decide +kernel) (by decide +kernel)
  have hfiles' : mended.files [] = [("_.script", [0x6A]),
      ("b.script", Text.Utf8.encode "%START%\n|SAY| b\n%END%".toList),
      ("c.script", Text.Utf8.encode "%START%\n|SAY| a\n|GOTO| X\n%END%".toList),
      ("d.script", Text.Utf8.encode "%START%\n|SAY| a\n%END%".toList)] :=
    Folder.files_of_children (by decide +kernel) (by decide +kernel)
  have hdistinct : Distinct broken "/" [] :=
    ⟨Folder.find_root (by decide +kernel) _, by rw [scriptsIn, hfiles]; decide +kernel⟩
  have hdistinct' : Distinct mended "/" [] :=
    ⟨Folder.find_root (by decide +kernel) _, by rw [scriptsIn, hfiles']; decide +kernel⟩
  obtain ⟨-, -, hholds, hisolates⟩ := load_isolates hdistinct {} ""
  obtain ⟨-, -, hholds', -⟩ := load_isolates hdistinct' {} ""
  refine ⟨hdistinct, hdistinct', ?_, ?_, ?_, ?_, hisolates mended "/" [] "" "b.script" hdistinct' ?_⟩
  · rw [Table.names, hholds.scripts, scriptsIn, hfiles]
    decide +kernel
  · rw [hholds.errors, scriptsIn, hfiles]
    decide +kernel
  · rw [Table.names, hholds'.scripts, scriptsIn, hfiles']
    decide +kernel
  · rw [hholds'.errors, scriptsIn, hfiles']
    decide +kernel
  · intro other bytes hother
    rw [← Folder.mem_files_iff, ← Folder.mem_files_iff, hfiles, hfiles']
    simp [hother]

end Library
end BranchingDialogue
