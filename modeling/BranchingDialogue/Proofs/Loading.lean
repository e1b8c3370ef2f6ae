import Mathlib.Data.List.Nodup
import BranchingDialogue.Library
import BranchingDialogue.Proofs.Approval
import BranchingDialogue.Proofs.Places

/-! What loading makes of the files of a directory. Files with different ids each keep their own place, and
two names have one id only if one of them is nothing but the extension. -/
namespace BranchingDialogue

namespace Path

variable {extension a b : List Char}

theorem stem_self (extension : List Char) : stem extension extension = extension := by
  rw [stem, if_neg (fun h => h.2 rfl)]

theorem stem_append (h : extension <:+ a) (hne : a ≠ extension) : stem extension a ++ extension = a := by
  rw [stem, if_pos ⟨List.isSuffixOf_iff_suffix.mpr h, hne⟩]
  exact List.suffix_iff_eq_append.mp h

/-- Names with one stem are equal, but that the bare extension has the stem of the doubled one. -/
theorem eq_or_of_stem_eq (ha : extension <:+ a) (hb : extension <:+ b)
    (h : stem extension a = stem extension b) :
    a = b ∨ a = extension ∧ b = extension ++ extension ∨ b = extension ∧ a = extension ++ extension := by
  by_cases hae : a = extension <;> by_cases hbe : b = extension
  · exact .inl (hae.trans hbe.symm)
  · have hstem := stem_append hb hbe
    rw [← h, hae, stem_self] at hstem
    exact .inr (.inl ⟨hae, hstem.symm⟩)
  · have hstem := stem_append ha hae
    rw [h, hbe, stem_self] at hstem
    exact .inr (.inr ⟨hbe, hstem.symm⟩)
  · left
    rw [← stem_append ha hae, h, stem_append hb hbe]

end Path

namespace Folder

theorem nodup_eraseDups {α : Type} [BEq α] [LawfulBEq α] (as : List α) : as.eraseDups.Nodup := by
  induction h : as.length using Nat.strongRecOn generalizing as with
  | ind n ih =>
    cases as with
    | nil => exact List.nodup_nil
    | cons a as =>
      rw [List.eraseDups_cons]
      refine List.nodup_cons.mpr ⟨?_, ih _ ?_ _ rfl⟩
      · simp [List.mem_eraseDups]
      · have hlength := List.length_filter_le (fun b => !b == a) as
        rw [List.length_cons] at h
        omega

/-- Dropping elements of a list leaves the keys of the others in their order. -/
theorem map_filterMap_sublist {α β : Type} {g : α → Option (String × β)} {k : α → String}
    (hg : ∀ a b, g a = some b → b.1 = k a) (as : List α) :
    List.Sublist ((as.filterMap g).map (·.1)) (as.map k) := by
  induction as with
  | nil => exact List.Sublist.slnil
  | cons a as ih =>
    rw [List.map_cons]
    cases hb : g a with
    | none =>
      rw [List.filterMap_cons_none hb]
      exact ih.cons _
    | some b =>
      rw [List.filterMap_cons_some hb, List.map_cons, hg a b hb]
      exact ih.cons_cons _

theorem nodup_names_children (f : Folder) (path : List String) : ((f.children path).map (·.1)).Nodup := by
  refine (List.Sublist.nodup (map_filterMap_sublist (k := id) ?_ _) ?_)
  · intro name e he
    obtain ⟨entry, -, rfl⟩ := Option.map_eq_some_iff.mp he
    rfl
  · rw [List.map_id]
    exact nodup_eraseDups _

/-- No two files of a directory have the same name. -/
theorem nodup_names_files (f : Folder) (path : List String) : ((f.files path).map (·.1)).Nodup := by
  rw [files, ((List.mergeSort_perm _ _).map _).nodup_iff]
  refine (f.nodup_names_children path).sublist (map_filterMap_sublist ?_ _)
  intro child file hfile
  split at hfile
  next =>
    cases hfile
    rfl
  next => cases hfile

/-- What a directory is found to hold are the files at the place that its path leads to. -/
theorem scan_eq_ok_iff {f : Folder} {home : List String} {path : String}
    {found : List (String × List Text.Utf8.Byte)} : f.scan home path = .ok found ↔
      ∃ real, f.find home path = .ok (real, .folder) ∧ found = f.files real := by
  rw [scan]
  cases f.find home path with
  | error e => exact iff_of_false nofun nofun
  | ok place =>
    obtain ⟨real, entry⟩ := place
    cases entry with
    | folder =>
      constructor
      · intro h
        cases h
        exact ⟨real, rfl, rfl⟩
      · rintro ⟨_, hreal, rfl⟩
        cases hreal
        rfl
    | file bytes => exact iff_of_false nofun nofun
    | link target => exact iff_of_false nofun nofun

/-- Files that come in order stay in it. -/
theorem files_of_children {f : Folder} {real : List String} {found : List (String × List Text.Utf8.Byte)}
    (hchildren : ((f.children real).filterMap fun e =>
      match e.2 with
      | .file bytes => some (e.1, bytes)
      | _ => none) = found)
    (hsorted : found.Pairwise fun a b => Text.before a.1 b.1) : f.files real = found := by
  rw [← hchildren] at hsorted ⊢
  exact List.mergeSort_of_pairwise hsorted

/-- What a directory is found to hold if its files come in order. -/
theorem scan_of_children {f : Folder} {home real : List String} {path : String}
    {found : List (String × List Text.Utf8.Byte)} (hfind : f.find home path = .ok (real, .folder))
    (hchildren : ((f.children real).filterMap fun e =>
      match e.2 with
      | .file bytes => some (e.1, bytes)
      | _ => none) = found)
    (hsorted : found.Pairwise fun a b => Text.before a.1 b.1) : f.scan home path = .ok found :=
  scan_eq_ok_iff.mpr ⟨real, hfind, (files_of_children hchildren hsorted).symm⟩

end Folder

namespace Library

variable {p : Policy} {lib : Library} {files done : List (String × String)} {f : String × String}

def outcome (p : Policy) (f : String × String) : Except Failure Script :=
  (Script.compile p (idOfName f.1) f.2).1

def textEntry (f : String × String) : String × String := (idOfName f.1, f.2)

def loaded? (p : Policy) (f : String × String) : Option (String × Script) :=
  (outcome p f).toOption.map fun script => (idOfName f.1, script)

/-- The complaint about a file, if it fails. -/
def complaint? (p : Policy) (f : String × String) : Option String :=
  match outcome p f with
  | .ok _ => none
  | .error e => some (f.1 ++ ": " ++ e.message)

def addTexts (p : Policy) (lib : Library) (files : List (String × String)) : Library × List Notice :=
  addFiles p (fun _ => none) lib files

/-- A library holds the texts of some files in their order, and of each the script or the complaint. -/
structure Holds (p : Policy) (files : List (String × String)) (lib : Library) : Prop where
  texts : lib.texts.entries = files.map textEntry
  scripts : lib.scripts.entries = files.filterMap (loaded? p)
  errors : lib.errors = files.filterMap (complaint? p)

theorem addTexts_cons (p : Policy) (lib : Library) (f : String × String) (files : List (String × String)) :
    (addTexts p lib (f :: files)).1 = (addTexts p (lib.addOutcome f.1 f.2 (outcome p f)) files).1 :=
  rfl

theorem Holds.names_texts (h : Holds p files lib) : lib.texts.names = files.map fun f => idOfName f.1 := by
  rw [Table.names, h.texts, List.map_map]
  rfl

theorem Holds.mem_ids_of_mem_names (h : Holds p files lib) {id : String} (hid : id ∈ lib.scripts.names) :
    id ∈ files.map fun f => idOfName f.1 := by
  rw [Table.names, h.scripts, List.mem_map] at hid
  obtain ⟨e, he, rfl⟩ := hid
  obtain ⟨f, hf, he⟩ := List.mem_filterMap.mp he
  obtain ⟨script, -, rfl⟩ := Option.map_eq_some_iff.mp he
  exact List.mem_map_of_mem hf

/-- A file with a new id adds its own text, and its script or the complaint about it. -/
theorem Holds.addOutcome (h : Holds p done lib) (hnew : idOfName f.1 ∉ done.map fun f => idOfName f.1) :
    Holds p (done ++ [f]) (lib.addOutcome f.1 f.2 (outcome p f)) := by
  have htext : idOfName f.1 ∉ lib.texts.names := by rwa [h.names_texts]
  have hscript : idOfName f.1 ∉ lib.scripts.names := fun hid => hnew (h.mem_ids_of_mem_names hid)
  have htexts := Table.entries_put_of_notMem htext f.2
  rw [h.texts] at htexts
  cases ho : outcome p f with
  | ok script =>
    have hscripts := Table.entries_put_of_notMem hscript script
    rw [h.scripts] at hscripts
    refine ⟨?_, ?_, ?_⟩
    · rw [List.map_append]
      exact htexts
    · rw [List.filterMap_append, List.filterMap_cons, loaded?, ho]
      exact hscripts
    · rw [List.filterMap_append, List.filterMap_cons, complaint?, ho, ← h.errors]
      exact (List.append_nil _).symm
  | error e =>
    refine ⟨?_, ?_, ?_⟩
    · rw [List.map_append]
      exact htexts
    · rw [List.filterMap_append, List.filterMap_cons, loaded?, ho, ← h.scripts]
      exact (List.append_nil _).symm
    · rw [List.filterMap_append, List.filterMap_cons, complaint?, ho, ← h.errors]
      rfl

/-- Files with different ids do not get into each other's way. -/
theorem Holds.addTexts (h : Holds p done lib)
    (hnodup : ((done ++ files).map fun f => idOfName f.1).Nodup) :
    Holds p (done ++ files) (addTexts p lib files).1 := by
  induction files generalizing done lib with
  | nil =>
    rw [List.append_nil]
    exact h
  | cons f files ih =>
    rw [List.append_cons] at hnodup ⊢
    rw [addTexts_cons]
    refine ih (h.addOutcome fun hmem => ?_) hnodup
    rw [List.map_append, List.map_append] at hnodup
    exact List.disjoint_of_nodup_append (List.nodup_append.mp hnodup).1 hmem (by simp)

theorem holds_nil (p : Policy) : Holds p [] {} := ⟨rfl, rfl, rfl⟩

theorem addOutcome_texts (lib : Library) (name text : String) (r : Except Failure Script) :
    (lib.addOutcome name text r).texts = lib.texts.put (idOfName name) text := by
  cases r <;> rfl

theorem nodup_names_texts (h : lib.texts.names.Nodup) (p : Policy) (files : List (String × String)) :
    (addTexts p lib files).1.texts.names.Nodup := by
  induction files generalizing lib with
  | nil => exact h
  | cons f files ih =>
    rw [addTexts_cons]
    refine ih ?_
    rw [addOutcome_texts]
    exact Table.nodup_names_put h _ _

/-- Nothing is lost just if no two files have one id. -/
theorem holds_addTexts_iff (p : Policy) (files : List (String × String)) :
    Holds p files (addTexts p {} files).1 ↔ (files.map fun f => idOfName f.1).Nodup := by
  constructor
  · intro h
    have hempty : ({} : Library).texts.names.Nodup := List.nodup_nil
    rw [← h.names_texts]
    exact nodup_names_texts hempty p files
  · intro h
    exact (holds_nil p).addTexts h

theorem eq_or_of_idOfName_eq {a b : String} (ha : isScriptName a = true) (hb : isScriptName b = true)
    (h : idOfName a = idOfName b) :
    a = b ∨ a = extension ∧ b = extension ++ extension ∨ b = extension ∧ a = extension ++ extension := by
  have hsuffix {name : String} (hname : isScriptName name = true) : extension.toList <:+ name.toList :=
    List.isSuffixOf_iff_suffix.mp (Bool.and_eq_true_iff.mp hname).1
  simpa only [← String.toList_append, String.toList_inj] using
    Path.eq_or_of_stem_eq (hsuffix ha) (hsuffix hb) (String.ofList_injective h)

/-- The ids of script files are different, unless one is named by the extension alone and another by the
extension doubled. -/
theorem nodup_ids_iff (hnames : (files.map (·.1)).Nodup) (hscripts : ∀ f ∈ files, isScriptName f.1 = true) :
    (files.map fun f => idOfName f.1).Nodup ↔
      ¬ (extension ∈ files.map (·.1) ∧ extension ++ extension ∈ files.map (·.1)) := by
  have hid : idOfName extension = idOfName (extension ++ extension) := by decide +kernel
  have hne : extension ≠ extension ++ extension := by decide +kernel
  constructor
  · rintro h ⟨hbare, hdoubled⟩
    obtain ⟨a, ha, habare⟩ := List.mem_map.mp hbare
    obtain ⟨b, hb, hbdoubled⟩ := List.mem_map.mp hdoubled
    obtain rfl : a = b := List.inj_on_of_nodup_map h ha hb (by rw [habare, hbdoubled, hid])
    exact hne (habare.symm.trans hbdoubled)
  · intro h
    refine List.Nodup.map_on (fun a ha b hb hab => ?_) hnames.of_map
    refine List.inj_on_of_nodup_map hnames ha hb ?_
    have hmem := fun f hf => List.mem_map_of_mem (f := (·.1)) (a := f) (l := files) hf
    rcases eq_or_of_idOfName_eq (hscripts a ha) (hscripts b hb) hab with heq | ⟨ha', hb'⟩ | ⟨hb', ha'⟩
    · exact heq
    · exact absurd ⟨ha' ▸ hmem a ha, hb' ▸ hmem b hb⟩ h
    · exact absurd ⟨hb' ▸ hmem b hb, ha' ▸ hmem a ha⟩ h

/-- A library accounts for some files: each has its text there and either its script or one complaint, so
the numbers add up, and every script is that of the text under its id. -/
structure AccountsFor (p : Policy) (files : List (String × String)) (lib : Library) : Prop
    extends Holds p files lib where
  balance : lib.scripts.size + lib.errors.length = lib.texts.size ∧ lib.texts.size = files.length
  agrees : ∀ id script, lib.scripts.get? id = some script →
    ∃ text, lib.texts.get? id = some text ∧ Document.parse text = .ok script.document

/-- Of each file there is the script or the complaint. -/
theorem length_outcomes (p : Policy) (files : List (String × String)) :
    (files.filterMap (loaded? p)).length + (files.filterMap (complaint? p)).length = files.length := by
  induction files with
  | nil => rfl
  | cons f files ih =>
    rw [List.length_cons, ← ih]
    cases ho : outcome p f with
    | ok script =>
      have hscript : loaded? p f = some (idOfName f.1, script) := by rw [loaded?, ho]; rfl
      have hcomplaint : complaint? p f = none := by rw [complaint?, ho]
      rw [List.filterMap_cons_some hscript, List.filterMap_cons_none hcomplaint, List.length_cons]
      omega
    | error e =>
      have hscript : loaded? p f = none := by rw [loaded?, ho]; rfl
      have hcomplaint : complaint? p f = some (f.1 ++ ": " ++ e.message) := by rw [complaint?, ho]
      rw [List.filterMap_cons_none hscript, List.filterMap_cons_some hcomplaint, List.length_cons]
      omega

theorem exists_compile_of_outcome {script : Script} (h : outcome p f = .ok script) :
    ∃ notices, Script.compile p (idOfName f.1) f.2 = (.ok script, notices) :=
  ⟨_, Prod.ext h rfl⟩

theorem Holds.accountsFor (h : Holds p files lib) (hnodup : (files.map fun f => idOfName f.1).Nodup) :
    AccountsFor p files lib where
  toHolds := h
  balance := by
    simp only [Table.size, h.texts, h.scripts, h.errors, List.length_map, length_outcomes, and_self]
  agrees := by
    intro id script hscript
    have hmem := Table.mem_entries_of_get? hscript
    rw [h.scripts] at hmem
    obtain ⟨f, hf, he⟩ := List.mem_filterMap.mp hmem
    obtain ⟨compiled, hcompiled, he⟩ := Option.map_eq_some_iff.mp he
    cases he
    have ho : outcome p f = .ok script := by
      cases ho : outcome p f with
      | ok other => rw [ho] at hcompiled; cases hcompiled; rfl
      | error e => rw [ho] at hcompiled; cases hcompiled
    obtain ⟨notices, hcompile⟩ := exists_compile_of_outcome ho
    refine ⟨f.2, Table.get?_of_mem_entries ?_ ?_, (Script.checks_of_compile hcompile).1⟩
    · rwa [h.names_texts]
    · rw [h.texts]
      exact List.mem_map_of_mem hf

theorem accountsFor_addTexts_iff (p : Policy) (files : List (String × String)) :
    AccountsFor p files (addTexts p {} files).1 ↔ (files.map fun f => idOfName f.1).Nodup := by
  rw [← holds_addTexts_iff p]
  refine ⟨fun h => h.toHolds, fun h => h.accountsFor ((holds_addTexts_iff p files).mp h)⟩

/-- Every script of a library was compiled from some text under its id. -/
def Compiled (p : Policy) (lib : Library) : Prop :=
  ∀ id script, lib.scripts.get? id = some script →
    ∃ source notices, Script.compile p id source = (.ok script, notices)

theorem Compiled.addOutcome (h : Compiled p lib) (f : String × String) :
    Compiled p (lib.addOutcome f.1 f.2 (outcome p f)) := by
  intro id script hscript
  cases ho : outcome p f with
  | error e =>
    rw [ho] at hscript
    exact h id script hscript
  | ok compiled =>
    rw [ho] at hscript
    change (lib.scripts.put (idOfName f.1) compiled).get? id = some script at hscript
    by_cases hid : id = idOfName f.1
    · subst hid
      rw [Table.get?_put_self] at hscript
      cases hscript
      exact ⟨f.2, exists_compile_of_outcome ho⟩
    · rw [Table.get?_put_of_ne _ _ hid] at hscript
      exact h id script hscript

theorem Compiled.addTexts (h : Compiled p lib) (files : List (String × String)) :
    Compiled p (addTexts p lib files).1 := by
  induction files generalizing lib with
  | nil => exact h
  | cons f files ih =>
    rw [addTexts_cons]
    exact ih (h.addOutcome f)

/-- The complaint about a file that cannot be read, or that fails. -/
def fault? (p : Policy) (denied : String → Option String) (f : String × String) : Option String :=
  match denied f.1 with
  | some reason => some (f.1 ++ ": Failed to read: " ++ reason)
  | none => complaint? p f

section
variable {denied : String → Option String} {other : Library}

theorem addFiles_cons_of_some {reason : String} (h : denied f.1 = some reason) :
    (addFiles p denied lib (f :: files)).1 = (addFiles p denied (lib.addUnread f.1 reason) files).1 := by
  rw [addFiles, h]

theorem addFiles_cons_of_none (h : denied f.1 = none) : (addFiles p denied lib (f :: files)).1 =
    (addFiles p denied (lib.addOutcome f.1 f.2 (outcome p f)) files).1 := by
  rw [addFiles, h]
  rfl

/-- What is loaded is what is loaded of the files that can be read, when there are no others. -/
theorem addFiles_eq_addTexts (hscripts : lib.scripts = other.scripts) (htexts : lib.texts = other.texts) :
    (addFiles p denied lib files).1.scripts =
        (addTexts p other (files.filter fun f => (denied f.1).isNone)).1.scripts ∧
      (addFiles p denied lib files).1.texts =
        (addTexts p other (files.filter fun f => (denied f.1).isNone)).1.texts := by
  induction files generalizing lib other with
  | nil => exact ⟨hscripts, htexts⟩
  | cons f files ih =>
    cases hf : denied f.1 with
    | some reason =>
      rw [addFiles_cons_of_some hf, List.filter_cons_of_neg (by simp [hf])]
      exact ih hscripts htexts
    | none =>
      rw [addFiles_cons_of_none hf, List.filter_cons_of_pos (by simp [hf]), addTexts_cons]
      apply ih
      · cases outcome p f <;> simp [Library.addOutcome, hscripts]
      · rw [addOutcome_texts, addOutcome_texts, htexts]

theorem errors_addFiles (p : Policy) (denied : String → Option String) (lib : Library)
    (files : List (String × String)) :
    (addFiles p denied lib files).1.errors = lib.errors ++ files.filterMap (fault? p denied) := by
  induction files generalizing lib with
  | nil => exact (List.append_nil _).symm
  | cons f files ih =>
    cases hf : denied f.1 with
    | some reason =>
      have hfault : fault? p denied f = some (f.1 ++ ": Failed to read: " ++ reason) := by rw [fault?, hf]
      rw [addFiles_cons_of_some hf, ih, List.filterMap_cons_some hfault, addUnread, List.append_assoc]
      rfl
    | none =>
      have hfault : fault? p denied f = complaint? p f := by rw [fault?, hf]
      rw [addFiles_cons_of_none hf, ih, List.filterMap_cons, hfault, complaint?]
      cases outcome p f <;> simp [Library.addOutcome]

end

theorem compiled_load (p : Policy) (folder : Folder) (path label : String) :
    Compiled p (load p folder path label).1 := by
  rw [load]
  split
  next => exact fun _ _ h => by cases h
  next => exact Compiled.addTexts (fun _ _ h => by cases h) _

section
variable {folder : Folder} {path label : String} {found : List (String × List Text.Utf8.Byte)}

theorem load_of_scan (h : folder.scan [] path = .ok found) (p : Policy) (label : String) :
    load p folder path label = addTexts p {} (scriptTexts found) := by
  rw [load, h]
  rfl

/-- Files that cannot be read make no difference to the others; each is complained of in its place. -/
theorem load_denied (h : folder.scan [] path = .ok found) (p : Policy) (label : String)
    (denied : String → Option String) :
    (load p folder path label denied).1.errors = (scriptTexts found).filterMap (fault? p denied) ∧
      ∃ rest, rest = (addTexts p {} ((scriptTexts found).filter fun f => (denied f.1).isNone)).1 ∧
        (load p folder path label denied).1.scripts = rest.scripts ∧
        (load p folder path label denied).1.texts = rest.texts := by
  rw [load, h]
  exact ⟨errors_addFiles p denied {} _, _, rfl, addFiles_eq_addTexts rfl rfl⟩

theorem nodup_names_of_scan (h : folder.scan [] path = .ok found) : (found.map (·.1)).Nodup := by
  obtain ⟨real, -, rfl⟩ := Folder.scan_eq_ok_iff.mp h
  exact folder.nodup_names_files real

theorem names_scriptTexts (found : List (String × List Text.Utf8.Byte)) :
    (scriptTexts found).map (·.1) = (found.map (·.1)).filter isScriptName := by
  rw [scriptTexts, List.map_map, List.filter_map]
  rfl

theorem mem_names_scriptTexts_iff {name : String} (hname : isScriptName name = true) :
    name ∈ (scriptTexts found).map (·.1) ↔ name ∈ found.map (·.1) := by
  rw [names_scriptTexts, List.mem_filter, and_iff_left hname]

/-- The library of a directory accounts for all script files in it, whatever they are called and whatever
they say, unless one is called by the extension alone and another by the extension doubled: these two have
the same id. -/
theorem accountsFor_load_iff (h : folder.scan [] path = .ok found) (p : Policy) (label : String) :
    AccountsFor p (scriptTexts found) (load p folder path label).1 ↔
      ¬ (".script" ∈ found.map (·.1) ∧ ".script.script" ∈ found.map (·.1)) := by
  have hnames : ((scriptTexts found).map (·.1)).Nodup := by
    rw [names_scriptTexts]
    exact (nodup_names_of_scan h).filter _
  have hscripts : ∀ f ∈ scriptTexts found, isScriptName f.1 = true := by
    intro f hf
    have hname := List.mem_map_of_mem (f := (·.1)) hf
    rw [names_scriptTexts] at hname
    exact (List.mem_filter.mp hname).2
  have hbare : isScriptName ".script" = true := by decide +kernel
  have hdoubled : isScriptName ".script.script" = true := by decide +kernel
  rw [load_of_scan h, accountsFor_addTexts_iff, nodup_ids_iff hnames hscripts,
    ← mem_names_scriptTexts_iff hbare, ← mem_names_scriptTexts_iff hdoubled]
  rfl

theorem accountsFor_load_iff_nested :
    let folder : Folder :=
      { entries := [(["d", ".script"], .file [0x6A]),
          (["d", "a.script.script"], Folder.textFile "%START%\n|SAY| a\n%END%\n"),
          (["d", "x", ".script.script"], .file [])] }
    ∃ found, folder.scan [] "/d" = .ok found ∧ (scriptTexts found).length = 2 ∧
      AccountsFor {} (scriptTexts found) (load {} folder "/d" "d").1 := by
  intro folder
  have hfind : folder.find [] "/d" = .ok (["d"], .folder) := by
    have hsegments : Path.segments "/d" = ["", "d"] := by decide +kernel
    have hroot : folder.at? [] = some .folder := by decide +kernel
    have hdir : folder.at? ["d"] = some .folder := by decide +kernel
    have hname : Folder.IsName "d" := ⟨by decide, by decide, by decide⟩
    refine Folder.find_of_leads rfl ?_
    rw [hsegments]
    exact .stay hroot (.inl rfl) (.enter hroot hname (by decide +kernel) hdir nofun (.here hdir))
  have hscan : folder.scan [] "/d" = .ok [(".script", [0x6A]),
      ("a.script.script", Text.Utf8.encode "%START%\n|SAY| a\n%END%\n".toList)] :=
    Folder.scan_of_children hfind (by decide +kernel) (by decide +kernel)
  exact ⟨_, hscan, by decide +kernel, (accountsFor_load_iff hscan {} "d").mpr (by decide)⟩

/-- Two files with one id: the text of the one stands beside the script of the other. -/
theorem exists_load_not_accountsFor :
    let folder : Folder :=
      { entries := [([".script"], Folder.textFile "%START%\n|SAY| a\n%END%\n"),
          ([".script.script"], .file [0x6A])] }
    ∃ found, folder.scan [] "/" = .ok found ∧
      let lib := (load {} folder "/" "").1
      ¬ AccountsFor {} (scriptTexts found) lib ∧ (scriptTexts found).length = 2 ∧ lib.texts.size = 1 ∧
        lib.scripts.size = 1 ∧ lib.errors.length = 1 ∧
        ∃ script, lib.scripts.get? ".script" = some script ∧ lib.texts.get? ".script" = some "j" ∧
          script.document.format = "%START%\n|SAY| a\n%END%\n" := by
  intro folder
  have hfind : folder.find [] "/" = .ok ([], .folder) := Folder.find_root (by decide +kernel) _
  have hscan : folder.scan [] "/" = .ok [
      (".script", Text.Utf8.encode "%START%\n|SAY| a\n%END%\n".toList), (".script.script", [0x6A])] :=
    Folder.scan_of_children hfind (by decide +kernel) (by decide +kernel)
  refine ⟨_, hscan, ?_⟩
  rw [load_of_scan hscan]
  intro lib
  have hlength : (scriptTexts [(".script", Text.Utf8.encode "%START%\n|SAY| a\n%END%\n".toList),
      (".script.script", [0x6A])]).length = 2 := by decide +kernel
  have htexts : lib.texts.size = 1 := by decide +kernel
  have hformat : (lib.scripts.get? ".script").map (·.document.format) =
      some "%START%\n|SAY| a\n%END%\n" := by decide +kernel
  obtain ⟨script, hscript, hformat⟩ := Option.map_eq_some_iff.mp hformat
  refine ⟨fun haccounts => ?_, hlength, htexts, by decide +kernel, by decide +kernel, script, hscript,
    by decide +kernel, hformat⟩
  have hsize := haccounts.balance.2
  omega

end

end Library
end BranchingDialogue
