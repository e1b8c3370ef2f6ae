import BranchingDialogue.Text.Lines
import BranchingDialogue.Text.Units

/-! Paths: segments between slashes. -/
namespace BranchingDialogue.Path

def segments (path : String) : List String := (Text.pieces '/' path.toList).map String.ofList

/-- Goes on by a segment; `..` goes back by one. -/
def push (done : List String) (segment : String) : List String :=
  if segment = "" ∨ segment = "." then done
  else if segment = ".." then done.dropLast
  else done ++ [segment]

def normal (ss : List String) : List String := ss.foldl push []

def isAbsolute (path : String) : Bool := path.toList.head? == some '/'

def ofSegments (ss : List String) : String := "/".intercalate ss

def endsInSlash (path : String) : Bool := path.toList.getLast? == some '/'

/-- A path seen from an absolute one. An absolute path is seen the same from everywhere. -/
def resolve (base path : String) : String :=
  "/" ++ ofSegments (normal (if isAbsolute path then segments path else segments base ++ segments path))

/-- The absolute path that goes on from an absolute one. A slash at the end is kept. -/
def join (base path : String) : String :=
  let ss := normal (segments base ++ segments path)
  "/" ++ ofSegments ss ++ if endsInSlash path && !ss.isEmpty then "/" else ""

/-- A file name without its extension; a name that is nothing but the extension is kept. -/
def stem (extension name : List Char) : List Char :=
  if extension.isSuffixOf name ∧ name ≠ extension then name.take (name.length - extension.length)
  else name

/-- The last segment of a path without the extension, slashes at the end of the path left out. A
path that is nothing but the extension has no such segment, and a segment that is itself an ending
of the extension keeps its slashes in a path that is no shorter than the extension. -/
def baseStem (extension path : List Char) : List Char :=
  let slashes := (path.reverse.takeWhile (· == '/')).reverse
  let name := ((path.reverse.dropWhile (· == '/')).takeWhile (· != '/')).reverse
  if path = extension then []
  else if Text.length path < Text.length extension then name
  else if name.isSuffixOf extension ∧ name ≠ extension then name ++ slashes
  else stem extension name

example : resolve "/srv/app" "../up/./x/" = "/srv/up/x" := by decide +kernel
example : resolve "/srv/app" "../../../x" = "/x" := by decide +kernel
example : join "/srv/app" "/a/../b//" = "/srv/app/b/" := by decide +kernel
example : baseStem ".script".toList "some/dir/ferry.script/".toList = "ferry".toList := by decide +kernel
example : baseStem ".script".toList "dir/.script".toList = ".script".toList := by decide +kernel

end BranchingDialogue.Path
