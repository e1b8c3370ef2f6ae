/-! Lines that a program prints while it works. -/
namespace BranchingDialogue

inductive NoticeLevel
  | log
  | warn
  | error
  deriving DecidableEq, Repr

structure Notice where
  level : NoticeLevel
  text : String
  deriving DecidableEq, Repr

def NoticeLevel.name : NoticeLevel → String
  | .log => "log"
  | .warn => "warn"
  | .error => "error"

namespace Notice

def log (text : String) : Notice := { level := .log, text }

def warn (text : String) : Notice := { level := .warn, text }

def error (text : String) : Notice := { level := .error, text }

/-- The notice as one line, its level first. -/
def line (n : Notice) : String := n.level.name ++ ": " ++ n.text

end Notice
end BranchingDialogue
