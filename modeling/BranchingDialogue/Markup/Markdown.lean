import BranchingDialogue.Markup.Html

/-! Inline Markdown as it is known from outside. A lexer takes tokens from a text with one tokenizer for
each kind of markup, and the tokens are then written as HTML. The tokenizer of raw tags can be replaced. -/
namespace BranchingDialogue.Markup

/-- A token that holds no others. Its text is what HTML will hold. -/
inductive Leaf
  | text (text : List Char)
  | escape (text : List Char)
  | html (text : List Char) (inLink inRawBlock : Bool)
  | codespan (text : List Char)
  | br
  | image (address : List Char) (title : Option (List Char)) (alt : List Char)
  deriving DecidableEq, Repr

/-- A token around others. -/
inductive Branch
  | em
  | strong
  | del
  | link (address : List Char) (title : Option (List Char))
  deriving DecidableEq, Repr

inductive Tokens
  | nil
  | leaf (head : Leaf) (rest : Tokens)
  | branch (head : Branch) (inner rest : Tokens)
  deriving DecidableEq, Repr

/-- What the lexer knows of where it is. -/
structure LexerState where
  inLink : Bool := false
  inRawBlock : Bool := false
  deriving DecidableEq, Repr

/-- A raw tag says itself where it leaves the lexer. -/
def Leaf.after : Leaf → LexerState → LexerState
  | .html _ inLink inRawBlock, _ => { inLink, inRawBlock }
  | _, s => s

def Branch.enter : Branch → LexerState → LexerState
  | .link _ _, s => { s with inLink := true }
  | _, s => s

def Branch.leave : Branch → LexerState → LexerState
  | .link _ _, s => { s with inLink := false }
  | _, s => s

/-- What a tokenizer is told besides the text that is left. -/
structure LexerContext where
  state : LexerState := {}
  masked : List Char
  previous : Option Char := none

/-- What a tokenizer finds. The tokens within a branch are still to be taken from its content; an address is
a link around its own text. -/
inductive Found
  | leaf (head : Leaf)
  | branch (head : Branch) (content : List Char)
  | address (address text : List Char)
  deriving DecidableEq, Repr

/-- Takes something from the front of a text and leaves the rest. -/
def Tokenizer : Type := LexerContext → List Char → Option (Found × List Char)

/-- The tokenizers other than that of raw tags. -/
inductive Kind
  | escape
  | link
  | reflink
  | emStrong
  | codespan
  | br
  | del
  | autolink
  | url
  | text
  deriving DecidableEq, Repr

/-- A renderer of Markdown; `lex` is given the tokenizer of raw tags. -/
structure Markdown where
  tokenizer : Kind → Tokenizer
  lex : Tokenizer → List Char → Tokens
  parse : Tokens → List Char

/-- No text is taken for a raw tag. -/
def noTag : Tokenizer := fun _ _ => none

namespace Markdown

def tokens (m : Markdown) (text : String) : Tokens := m.lex noTag text.toList

/-- A text with inline markup as HTML. -/
def renderInline (m : Markdown) (text : String) : String := String.ofList (m.parse (m.tokens text))

end Markdown

/-- An attribute and its value, which HTML may hold as it is. -/
def htmlAttribute (name : String) (value : List Char) : List Char :=
  ' ' :: name.toList ++ '=' :: '"' :: value ++ ['"']

def titleAttribute : Option (List Char) → List Char
  | none | some [] => []
  | some title => htmlAttribute "title" title

def startTag (name attributes : List Char) : List Char := '<' :: name ++ attributes ++ ['>']

def endTag (name : List Char) : List Char := '<' :: '/' :: name ++ ['>']

def Leaf.toHtml : Leaf → List Char
  | .text t | .escape t | .html t _ _ => t
  | .codespan t => startTag "code".toList [] ++ t ++ endTag "code".toList
  | .br => startTag "br".toList []
  | .image address title alt =>
    startTag "img".toList
      (htmlAttribute "src" (encodeAddress address) ++ htmlAttribute "alt" alt ++ titleAttribute title)

def Branch.name : Branch → List Char
  | .em => "em".toList
  | .strong => "strong".toList
  | .del => "del".toList
  | .link _ _ => "a".toList

def Branch.attributes : Branch → List Char
  | .link address title => htmlAttribute "href" (encodeAddress address) ++ titleAttribute title
  | _ => []

def Branch.toHtml (b : Branch) (inner : List Char) : List Char :=
  startTag b.name b.attributes ++ inner ++ endTag b.name

def Tokens.toHtml : Tokens → List Char
  | .nil => []
  | .leaf head rest => head.toHtml ++ rest.toHtml
  | .branch head inner rest => head.toHtml inner.toHtml ++ rest.toHtml

end BranchingDialogue.Markup
