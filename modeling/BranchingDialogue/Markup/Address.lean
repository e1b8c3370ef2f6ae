import BranchingDialogue.Markup.Span
import BranchingDialogue.Markup.Html

/-! Addresses that link without brackets of their own: in angle brackets, or bare in the text. -/
namespace BranchingDialogue.Markup

/-- An address as it stands in the text, and where it leads to. -/
structure Address where
  text : List Char
  target : List Char
  deriving DecidableEq, Repr

/-- A mail address leads to what a mail program opens. -/
def Address.mail (text : List Char) : Address where
  text := text
  target := "mailto:".toList ++ escape text

def isHyphenated (c : Char) : Bool := c.isAlphanum || c == '-'

/-- A scheme, a colon, and no white space, control character or angle bracket. -/
def isUri (cs : List Char) : Bool :=
  let isSchemeChar (c : Char) : Bool := c.isAlphanum || c == '+' || c == '.' || c == '-'
  let scheme := cs.takeWhile isSchemeChar
  (scheme.head?.map Char.isAlpha).getD false && 2 ≤ scheme.length && scheme.length ≤ 32 &&
    match cs.dropWhile isSchemeChar with
    | ':' :: rest => rest.all fun c => !Text.isBlank c && !(c.toNat < 0x20) && c != '<' && c != '>'
    | _ => false

/-- A label of a domain: at most 63 letters, digits and hyphens, no hyphen at the ends. -/
def isDomainLabel (cs : List Char) : Bool :=
  (cs.head?.map Char.isAlphanum).getD false && (cs.getLast?.map Char.isAlphanum).getD false &&
    cs.length ≤ 63 && cs.all isHyphenated

/-- The labels between the dots of a domain. -/
def domainLabels (cs : List Char) : List (List Char) :=
  cs.foldr (fun c ls =>
    if c = '.' then [] :: ls
    else match ls with
      | [] => [[c]]
      | l :: ls => (c :: l) :: ls) [[]]

/-- A local part, an at sign and a domain of at least two labels. -/
def isMail (cs : List Char) : Bool :=
  let name := cs.takeWhile isLocalChar
  match cs.dropWhile isLocalChar with
  | '@' :: domain =>
    !name.isEmpty && (domainLabels domain).length ≥ 2 && (domainLabels domain).all isDomainLabel
  | _ => false

/-- An address between angle brackets. -/
def bracketedAddress? : List Char → Option (Address × List Char)
  | '<' :: cs =>
    let inner := cs.takeWhile (· != '>')
    if inner.length < cs.length then
      let rest := cs.drop (inner.length + 1)
      if isUri inner then some ({ text := inner, target := escape inner }, rest)
      else if isMail inner then some (.mail inner, rest)
      else none
    else none
  | _ => none

/-- Letters and digits and a semicolon up to the end: what a character reference at the end is made of. -/
def endsReference (cs : List Char) : Bool :=
  let run := cs.takeWhile Char.isAlphanum
  !run.isEmpty && cs.drop run.length == [';']

/-- One pass over an address from its start: parentheses as pairs, no punctuation mark at the end, no
character reference at the end. The first `n` characters are taken as they are. -/
def trimPass : Nat → List Char → List Char
  | _, [] => []
  | n + 1, c :: cs => c :: trimPass n cs
  | 0, c :: cs =>
    if c = '(' then
      let inner := cs.takeWhile (· != ')')
      if inner.length < cs.length then c :: trimPass (inner.length + 1) cs else []
    else if c = '&' then if endsReference cs then [] else c :: trimPass 0 cs
    else if "?!.,:;*_'\"~)".toList.contains c then if cs.isEmpty then [] else c :: trimPass 0 cs
    else c :: trimPass 0 cs

/-- An address without what only ends the sentence: the pass is repeated until nothing changes. -/
def trimAddress (cs : List Char) : List Char := Nat.repeat (trimPass 0) cs.length cs

/-- The text after a word, read without regard to case. -/
def afterWord? (word : String) (cs : List Char) : Option (List Char) :=
  if (cs.take word.length).map Char.toLower = word.toList then some (cs.drop word.length) else none

/-- A web address in the text, up to white space or an angle bracket. -/
def webAddress? (cs : List Char) : Option (List Char) := do
  let rest ← ["ftp://", "http://", "https://", "www."].findSome? fun w => afterWord? w cs
  if !(rest.head?.map isHyphenated).getD false then none
  return cs.take (cs.length - rest.length) ++ rest.takeWhile fun c => !Text.isBlank c && c != '<'

def isDomainChar (c : Char) : Bool := isHyphenated c || c == '_'

/-- The longest beginning of a run of domain characters at which a mail address may end: after a
letter or digit, with no hyphen or underscore next. -/
def domainEnd : List Char → List Char
  | [] => []
  | c :: cs =>
    match domainEnd cs with
    | [] =>
      if c.isAlphanum && (cs.head?.map Char.isAlphanum).getD true then [c] else []
    | d :: ds => c :: d :: ds

/-- Further labels of a bare mail address, each with the dot before it. The first `n` characters are
taken as they are. -/
def mailLabels : Nat → List Char → List Char
  | _, [] => []
  | n + 1, c :: cs => c :: mailLabels n cs
  | 0, c :: cs =>
    if c ≠ '.' then []
    else
      let run := cs.takeWhile isDomainChar
      let used := domainEnd run
      if used.isEmpty then []
      else if used.length < run.length then c :: used
      else c :: mailLabels run.length cs

/-- A mail address in the text. -/
def mailAddress? (cs : List Char) : Option (List Char) :=
  let isNameChar (c : Char) : Bool := c.isAlphanum || "._+-".toList.contains c
  let name := cs.takeWhile isNameChar
  match cs.dropWhile isNameChar with
  | '@' :: rest =>
    let host := rest.takeWhile isDomainChar
    let labels := mailLabels 0 (rest.dropWhile isDomainChar)
    if name.isEmpty || host.isEmpty || labels.isEmpty then none else some (name ++ '@' :: host ++ labels)
  | _ => none

/-- An address in the text, and the text after it. One that starts with `www.` lacks its scheme. -/
def bareAddress? (cs : List Char) : Option (Address × List Char) :=
  match webAddress? cs with
  | some found =>
    let text := trimAddress found
    let scheme := if "www.".toList.isPrefixOf cs then "http://".toList else []
    some ({ text, target := scheme ++ text }, cs.drop text.length)
  | none => (mailAddress? cs).map fun text => (.mail text, cs.drop text.length)

end BranchingDialogue.Markup
