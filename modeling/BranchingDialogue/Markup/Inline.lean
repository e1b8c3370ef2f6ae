import BranchingDialogue.Markup.Address
import BranchingDialogue.Markup.Emphasis
import BranchingDialogue.Markup.Link
import BranchingDialogue.Markup.Markdown

/-! A renderer of inline Markdown that can be run. -/
namespace BranchingDialogue.Markup

/-- A title as it is written, unless it is empty. -/
def writtenTitle (title : List Char) : Option (List Char) :=
  ((some title).filter fun t => !t.isEmpty).map escape

def Link.found (l : Link) : Found :=
  if l.image then .leaf (.image l.target (writtenTitle l.title) (escape l.label))
  else .branch (.link l.target (writtenTitle l.title)) l.label

def Address.found (a : Address) : Found := .address a.target (escape a.text)

def tokenizer : Kind → Tokenizer
  | .escape, _, cs => (escaped? cs).map fun r => (.leaf (.escape (escape [r.1])), r.2)
  | .link, _, cs => (link? cs).map fun r => (r.1.found, r.2)
  | .reflink, _, cs => (reference? cs).map fun r => (.leaf (.text [r.1]), r.2)
  | .emStrong, ctx, cs =>
    (emphasis? ctx.masked ctx.previous cs).map fun r =>
      (.branch (if r.1 then .strong else .em) r.2.1, r.2.2)
  | .codespan, _, cs => (code? cs).map fun r => (.leaf (.codespan (escapeAll r.1)), r.2)
  | .br, _, cs => (hardBreak? cs).map fun rest => (.leaf .br, rest)
  | .del, _, cs => (struck? cs).map fun r => (.branch .del r.1, r.2)
  | .autolink, _, cs => (bracketedAddress? cs).map fun r => (r.1.found, r.2)
  | .url, _, cs => (bareAddress? cs).map fun r => (r.1.found, r.2)
  | .text, ctx, cs =>
    some (.leaf (.text (if ctx.state.inRawBlock then (plain cs).1 else escape (plain cs).1)), (plain cs).2)

/-- The tokenizers that are tried before plain text. Bare addresses are not looked for within a link. -/
def tokenizersOfMarkup (tag : Tokenizer) (s : LexerState) : List Tokenizer :=
  [tokenizer .escape, tag, tokenizer .link, tokenizer .reflink, tokenizer .emStrong, tokenizer .codespan,
    tokenizer .br, tokenizer .del, tokenizer .autolink] ++ if s.inLink then [] else [tokenizer .url]

/-- The unit before what follows a stretch of plain text; underscores at its end do not count. -/
def previousAfter (previous : Option Char) (text : List Char) : Option Char :=
  match text.getLast? with
  | none => previous
  | some c => if c = '_' then previous else some (Text.lastUnit c)

/-- What is found at the front of a text, the rest, and the unit before the rest if that was plain text. -/
def next? (tag : Tokenizer) (ctx : LexerContext) (cs : List Char) :
    Option (Found × List Char × Option Char) :=
  match (tokenizersOfMarkup tag ctx.state).findSome? fun t => t ctx cs with
  | some (found, rest) => some (found, rest, none)
  | none =>
    (tokenizer .text ctx cs).map fun r =>
      (r.1, r.2, previousAfter ctx.previous (cs.take (cs.length - r.2.length)))

/-- The tokens of a text and the state after it. Each step takes a character or more, so a text of `n`
characters needs no more than `n + 1` steps in a row. -/
def scan (tag : Tokenizer) : Nat → LexerContext → List Char → Tokens × LexerState
  | _, ctx, [] => (.nil, ctx.state)
  | 0, ctx, _ => (.nil, ctx.state)
  | fuel + 1, ctx, cs =>
    match next? tag ctx cs with
    | none => (.nil, ctx.state)
    | some (.leaf head, rest, previous) =>
      let more := scan tag fuel { ctx with state := head.after ctx.state, previous } rest
      (.leaf head more.1, more.2)
    | some (.branch head content, rest, previous) =>
      let inner := scan tag fuel { state := head.enter ctx.state, masked := mask content } content
      let more := scan tag fuel { ctx with state := head.leave inner.2, previous } rest
      (.branch head inner.1 more.1, more.2)
    | some (.address address text, rest, previous) =>
      let more := scan tag fuel { ctx with previous } rest
      (.branch (.link address none) (.leaf (.text text) .nil) more.1, more.2)

def Markdown.standard : Markdown where
  tokenizer := Markup.tokenizer
  lex tag cs := (scan tag (cs.length + 1) { masked := mask cs } cs).1
  parse := Tokens.toHtml

def render : String → String := Markdown.standard.renderInline

end BranchingDialogue.Markup
