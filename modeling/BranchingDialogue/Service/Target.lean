import BranchingDialogue.Service.MediaType
import BranchingDialogue.Text.Blank
import BranchingDialogue.Text.Percent
import BranchingDialogue.Text.Units

/-! Request targets: a path, or an address with a path after its host; then perhaps a query. An
address begins with a scheme, as in `http://host:80/path?query`. -/
namespace BranchingDialogue.Service.Target

def beforeQuery (cs : List Char) : List Char := cs.takeWhile (· != '?')

/-- Whether a target is a path that is taken as it stands up to the query. -/
def isPlain (cs : List Char) : Bool :=
  cs.head? == some '/' && !cs.any fun c => "\t\n\u000C\r #\u00A0\uFEFF".toList.contains c

/-- The characters that do not count at both ends of a target. -/
def isPadding (c : Char) : Bool := c.toNat < 0x21 || c == '\u00A0' || c == '\uFEFF'

def trim (cs : List Char) : List Char :=
  ((cs.dropWhile isPadding).reverse.dropWhile isPadding).reverse

/-- A question mark begins a query, a hash sign a fragment. -/
def isQueryMark (c : Char) : Bool := c == '?' || c == '#'

/-- Backslashes before a query or fragment are slashes. -/
def slashed (cs : List Char) : List Char :=
  (cs.takeWhile fun c => !isQueryMark c).map (fun c => if c = '\\' then '/' else c) ++
    cs.dropWhile fun c => !isQueryMark c

/-- Whether there is no host to be looked for in a target. -/
def isSimple (cs : List Char) : Bool :=
  cs.head? == some '/' && !"///".toList.isPrefixOf cs &&
    !(cs.any fun c => c == '#' || Text.isBlank c) && !(beforeQuery cs).contains '@'

/-- The scheme that a target begins with, without the colon after it. -/
def scheme? (cs : List Char) : Option (List Char) :=
  let name := cs.takeWhile fun c => c.isAlphanum || c == '.' || c == '+' || c == '-'
  if !name.isEmpty && (cs.drop name.length).head? == some ':' then some name else none

/-- The schemes that have a host after two slashes and nowhere else. -/
def schemesWithSlashes : List String := ["http", "https", "ftp", "gopher", "file", "ws", "wss"]

def hasSlashes (scheme : List Char) : Bool := schemesWithSlashes.contains (String.ofList scheme)

/-- Whether two slashes with a user after them are next. -/
def userNext : List Char → Bool
  | '/' :: '/' :: cs =>
    let isUserChar (c : Char) : Bool := c != '@' && c != '/'
    !(cs.takeWhile isUserChar).isEmpty &&
      match cs.dropWhile isUserChar with
      | '@' :: c :: _ => isUserChar c
      | _ => false
  | _ => false

/-- The host of an address and what follows it. -/
structure Authority where
  host : List Char
  rest : List Char
  deriving DecidableEq, Repr

/-- The user before the last at sign, and what follows that sign. -/
def splitUser (cs : List Char) : List Char × List Char :=
  if cs.contains '@' then
    let host := (cs.reverse.takeWhile (· != '@')).reverse
    (cs.take (cs.length - host.length - 1), host)
  else ([], cs)

def isHostChar (c : Char) : Bool := !" \"%';<>\\^\x7b|\x7d".toList.contains c && c.toNat != 0x60

/-- A host without the colon and the digits of a port at its end. -/
def withoutPort (cs : List Char) : List Char :=
  match cs.reverse.dropWhile Char.isDigit with
  | ':' :: before => before.reverse
  | _ => cs

def maxHost : Nat := 255

/-- Reads a host, which may be a name or stand in brackets. A colon in a name that is not that of a
port belongs to the path. A name that is too long does not count; there is none with a bracket. -/
def host? (name rest : List Char) : Option Authority :=
  if name.head? == some '[' && name.getLast? == some ']' then
    if name.contains '\x00' then none
    else some { host := name, rest := if rest.head? == some '/' then rest else '/' :: rest }
  else
    let host := name.takeWhile (· != ':')
    let rest := if host.length < name.length then '/' :: name.drop host.length ++ rest else rest
    if Text.length host > maxHost then some { host := [], rest }
    else if host.any fun c => c == '[' || c == ']' || c == '\x00' then none
    else some { host, rest }

/-- Reads what follows the slashes of an address: a user that is not kept, a host and a port. Tabs and
line ends do not count. -/
def authority? (cs : List Char) : Option Authority :=
  let isInside (c : Char) : Bool := c != '/' && !isQueryMark c
  let (user, host) := splitUser ((cs.takeWhile isInside).filter fun c => !"\t\n\r".toList.contains c)
  if (Text.Percent.decode? user).isSome then
    host? (withoutPort (host.takeWhile isHostChar)) (host.dropWhile isHostChar ++ cs.dropWhile isInside)
  else none

/-- The path at the beginning of a text, if it is not empty. -/
def pathNext? (cs : List Char) : Option (List Char) :=
  let path := cs.takeWhile fun c => !isQueryMark c
  if path.isEmpty then none else some path

/-- The path in what follows the scheme and the slashes of an address. -/
def pathAfterHost? (scheme : Option (List Char)) (cs : List Char) : Option (List Char) := do
  let a ← authority? cs
  let standard := if (scheme.map fun s => hasSlashes (MediaType.lower s)).getD false && !a.host.isEmpty
    then some ['/'] else none
  (pathNext? a.rest).or standard

/-- The path in a target that is not plain. -/
def pathWithin? (cs : List Char) : Option (List Char) :=
  let cs := slashed (trim cs)
  if isSimple cs then some (beforeQuery cs)
  else
    let scheme := scheme? cs
    let cs := match scheme with
      | some s => cs.drop (s.length + 1)
      | none => cs
    if (scheme.isSome || userNext cs) && "//".toList.isPrefixOf cs then
      pathAfterHost? scheme (cs.drop 2)
    else if (scheme.map fun s => !hasSlashes s).getD false then pathAfterHost? scheme cs
    else pathNext? cs

/-- The path that a target names, if it names any. -/
def path? (cs : List Char) : Option (List Char) :=
  if isPlain cs then some (beforeQuery cs) else pathWithin? cs

/-- A text up to and with the first colon that has two slashes after it. -/
def upToSlashes? : List Char → Option (List Char)
  | [] => none
  | ':' :: '/' :: '/' :: _ => some "://".toList
  | c :: cs => (upToSlashes? cs).map (c :: ·)

/-- The part of a target before its path, as it stands; empty if the target is a path or has no slash
after the host. -/
def origin (cs : List Char) : List Char :=
  if cs.head? == some '/' then []
  else
    match upToSlashes? (beforeQuery cs) with
    | none => []
    | some front =>
      let host := (cs.drop front.length).takeWhile (· != '/')
      if (cs.drop (front.length + host.length)).isEmpty then [] else front ++ host

/-- A target without the first `n` characters of its path. -/
def beneath (n : Nat) (cs : List Char) : List Char :=
  let before := origin cs
  let rest := cs.drop (before.length + n)
  if before.isEmpty && rest.head? != some '/' then '/' :: rest else before ++ rest

example : path? "http://u@host:80/a/b?c".toList = some "/a/b".toList := by decide +kernel
example : path? "http://host".toList = some ['/'] ∧ path? "?a".toList = none := by decide +kernel
example : beneath 2 "http://host/a/b".toList = "http://host/b".toList := by decide +kernel

end BranchingDialogue.Service.Target
