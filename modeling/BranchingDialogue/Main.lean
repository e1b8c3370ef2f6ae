import BranchingDialogue.CheckTool

/-! The command line of the check tool. -/
namespace BranchingDialogue.CheckTool

/-- What lies at a path of the file system. -/
def lookUpFile (path : String) : IO Found := do
  try
    let bytes ← IO.FS.readBinFile path
    return .file (String.ofList (Text.Utf8.decode bytes.toList))
  catch
    | .noFileOrDirectory .. => return .missing
    | _ => return .folder

def performFile : Action → IO Unit
  | .tell { level := .log, text } => IO.println text
  | .tell { text, .. } => IO.eprintln text
  | .rename source target => IO.FS.rename source target
  | .write path text => IO.FS.writeFile path text

/-- Carries out a plan on the file system. -/
def performFiles (p : Plan) : IO UInt32 := do
  p.actions.forM performFile
  if let some crash := p.crash then IO.eprintln crash.message
  return p.exit.toUInt32

end BranchingDialogue.CheckTool

open BranchingDialogue.CheckTool in
def main (args : List String) : IO UInt32 := do
  let found ← (path? args).mapM lookUpFile
  performFiles (plan args fun _ => found.getD .missing)
