import BranchingDialogue.Files.Folder
import BranchingDialogue.Json.Parse
import BranchingDialogue.Settings
import BranchingDialogue.Text.Mark

/-! Settings from a file, read once. -/
namespace BranchingDialogue.Settings

/-- Why a settings file cannot be used. -/
inductive FileError
  | notJson
  | isFolder
  deriving DecidableEq, Repr

/-- The settings once they have been read; nothing before. -/
abbrev Cache := Option Settings

/-- The settings in use. -/
def Cache.current (c : Cache) : Settings := c.getD {}

/-- The name of the settings file of an environment. -/
def fileName (environment : Option String) : String :=
  "config." ++ environment.getD "dev" ++ ".json"

/-- Reads the text of a settings file. -/
def ofText? (cs : List Char) : Option (Settings × List Notice) :=
  (Json.ofChars? (Text.withoutMark cs)).map ofJson

/-- Reads the settings file beneath `config` in the directory of the data, unless it was read before.
A file that is not there leaves all settings at their defaults; one that is no JSON is not taken
for read. -/
def load (folder : Folder) (root : String) (environment : Option String) (c : Cache) :
    Except FileError Settings × Cache × List Notice :=
  match c with
  | some s => (.ok s, some s, [])
  | none =>
    let name := fileName environment
    match folder.find [] (Path.resolve (root ++ "/config") name) with
    | .ok (_, .file bytes) =>
      match ofText? (Text.Utf8.decode bytes) with
      | some (s, notices) => (.ok s, some s, notices ++ [.log ("Loaded config from " ++ name)])
      | none => (.error .notJson, none, [])
    | .ok _ => (.error .isFolder, none, [])
    | .error _ =>
      (.ok {}, some {}, [.warn ("Config file " ++ name ++ " not found, using defaults")])

/-- Settings that were read are those in use, and are not read again. -/
theorem current_of_load {folder : Folder} {root : String} {environment : Option String} {c c' : Cache}
    {s : Settings} {notices : List Notice} (h : load folder root environment c = (.ok s, c', notices)) :
    c'.current = s ∧ ∀ folder root environment, load folder root environment c' = (.ok s, c', []) := by
  have hcache : c' = some s := by
    rw [load.eq_def] at h
    cases c with
    | some t =>
      obtain ⟨hs, hc⟩ := Prod.mk.inj h
      rw [← (Prod.mk.inj hc).1, Except.ok.inj hs]
    | none =>
      dsimp only at h
      generalize folder.find [] (Path.resolve (root ++ "/config") (fileName environment)) = found at h
      rcases found with e | ⟨path, bytes | _ | _⟩
      · cases h
        rfl
      · dsimp only at h
        split at h <;> cases h
        rfl
      · cases h
      · cases h
  subst hcache
  exact ⟨rfl, fun _ _ _ => rfl⟩

end BranchingDialogue.Settings
