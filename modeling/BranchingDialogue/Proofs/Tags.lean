import BranchingDialogue.Markup.Inline

/-! The tags in rendered text. Whatever a text holds, an angle bracket in what is rendered from it opens a
tag that markup has put there, and no value in such a tag can end it early. For this every tokenizer has to
escape what it finds, and no text may be taken for a raw tag. -/
namespace BranchingDialogue.Markup

/-- A tag with its attributes in order, values as they are written. -/
structure HtmlTag where
  name : List Char
  closing : Bool := false
  attributes : List (String × List Char) := []

namespace HtmlTag

def inside (t : HtmlTag) : List Char :=
  (if t.closing then ['/'] else []) ++ t.name ++
    t.attributes.flatMap (fun a => htmlAttribute a.1 a.2) ++ ['>']

def html (t : HtmlTag) : List Char := '<' :: t.inside

def titled : Option (List Char) → List (String × List Char)
  | none | some [] => []
  | some title => [("title", title)]

theorem eq_title_of_mem_titled {title : Option (List Char)} {a : String × List Char}
    (h : a ∈ titled title) : a.1 = "title" ∧ title = some a.2 := by
  rw [titled.eq_def] at h
  split at h
  · cases h
  · cases h
  · rw [List.mem_singleton.mp h]
    exact ⟨rfl, rfl⟩

theorem lt_notMem_of_mem_titled {title : Option (List Char)} {a : String × List Char}
    (h : a ∈ titled title) : '<' ∉ a.1.toList := by
  simp [(eq_title_of_mem_titled h).1]

/-- The tags that markup puts into a text. -/
inductive Generated : HtmlTag → Prop
  | around (name : String) (h : name ∈ ["em", "strong", "del", "code"]) (closing : Bool) :
      Generated { name := name.toList, closing }
  | lineBreak : Generated { name := "br".toList }
  | linkStart (address : List Char) (title : Option (List Char)) :
      Generated { name := "a".toList, attributes := ("href", address) :: titled title }
  | linkEnd : Generated { name := "a".toList, closing := true }
  | image (address alt : List Char) (title : Option (List Char)) :
      Generated { name := "img".toList, attributes := ("src", address) :: ("alt", alt) :: titled title }

def HasInertValues (t : HtmlTag) : Prop := ∀ a ∈ t.attributes, IsInert a.2

theorem Generated.lt_notMem_name {t : HtmlTag} (h : t.Generated) :
    '<' ∉ t.name ∧ ∀ a ∈ t.attributes, '<' ∉ a.1.toList := by
  cases h with
  | around name h closing =>
    simp only [List.mem_cons, List.not_mem_nil, or_false] at h
    rcases h with rfl | rfl | rfl | rfl <;> simp
  | lineBreak => simp
  | linkStart address title =>
    exact ⟨by simp, List.forall_mem_cons.mpr ⟨by simp, fun _ => lt_notMem_of_mem_titled⟩⟩
  | linkEnd => simp
  | image address alt title =>
    exact ⟨by simp, List.forall_mem_cons.mpr ⟨by simp,
      List.forall_mem_cons.mpr ⟨by simp, fun _ => lt_notMem_of_mem_titled⟩⟩⟩

/-- A tag holds no other opening bracket than its own. -/
theorem Generated.lt_notMem_inside {t : HtmlTag} (h : t.Generated) (hvalues : t.HasInertValues) :
    '<' ∉ t.inside := by
  obtain ⟨hname, hkeys⟩ := h.lt_notMem_name
  have hattributes : '<' ∉ t.attributes.flatMap fun a => htmlAttribute a.1 a.2 := by
    intro hm
    obtain ⟨a, ha, hm⟩ := List.mem_flatMap.mp hm
    have hkey := hkeys a ha
    have hvalue := (hvalues a ha).lt_notMem
    simp [htmlAttribute, hkey, hvalue] at hm
  cases hc : t.closing <;> simp [inside, hc, hname, hattributes]

end HtmlTag

inductive Part
  | text (cs : List Char)
  | tag (t : HtmlTag)

namespace Part

def html : Part → List Char
  | .text cs => cs
  | .tag t => t.html

/-- Text opens no tag, and a tag is one that markup makes, with values that stay in their attributes. -/
def Safe : Part → Prop
  | .text cs => '<' ∉ cs
  | .tag t => t.Generated ∧ t.HasInertValues

variable {ps : List Part} {before after : List Char}

/-- What holds no opening bracket lies before the first one. -/
theorem exists_of_append_eq_append {cs rest : List Char} (hcs : '<' ∉ cs)
    (h : cs ++ rest = before ++ '<' :: after) :
    ∃ more, before = cs ++ more ∧ rest = more ++ '<' :: after := by
  rcases List.append_eq_append_iff.mp h with hsplit | ⟨inner, rfl, hrest⟩
  · exact hsplit
  · cases inner with
    | nil => exact ⟨[], by simp, hrest.symm⟩
    | cons c inner =>
      obtain ⟨rfl, -⟩ := List.cons.inj hrest
      simp at hcs

/-- In a text made of safe parts an opening bracket begins one of the tags. -/
theorem exists_tag_of_flatMap_eq_append (hps : ∀ p ∈ ps, p.Safe)
    (h : ps.flatMap html = before ++ '<' :: after) :
    ∃ xs t ys, ps = xs ++ .tag t :: ys ∧ before = xs.flatMap html ∧
      '<' :: after = t.html ++ ys.flatMap html := by
  induction ps generalizing before with
  | nil => simp at h
  | cons p ps ih =>
    obtain ⟨hp, htail⟩ := List.forall_mem_cons.mp hps
    rw [List.flatMap_cons] at h
    cases p with
    | text cs =>
      obtain ⟨more, rfl, hrest⟩ := exists_of_append_eq_append hp h
      obtain ⟨xs, t, ys, rfl, rfl, hys⟩ := ih htail hrest
      exact ⟨.text cs :: xs, t, ys, rfl, rfl, hys⟩
    | tag t =>
      cases before with
      | nil => exact ⟨[], t, ps, rfl, rfl, h.symm⟩
      | cons c before =>
        obtain ⟨rfl, hinside⟩ := List.cons.inj h
        obtain ⟨more, rfl, hrest⟩ :=
          exists_of_append_eq_append (hp.1.lt_notMem_inside hp.2) hinside
        obtain ⟨xs, u, ys, rfl, rfl, hys⟩ := ih htail hrest
        exact ⟨.tag t :: xs, u, ys, rfl, rfl, hys⟩

end Part

/-! ### What is known of the renderer -/

/-- What the tokenizers make of what they find. Each escapes the text that it puts in a token, but plain text
within a raw block is left as it is. Without definitions a reference is no more than its first character. -/
inductive Makes (s : LexerState) : Kind → Found → Prop
  | escape (c : Char) : Makes s .escape (.leaf (.escape (Markup.escape [c])))
  | link (address : List Char) (title : Option (List Char)) (content : List Char) :
      Makes s .link (.branch (.link address (title.map Markup.escape)) content)
  | image (address : List Char) (title : Option (List Char)) (alt : List Char) :
      Makes s .link (.leaf (.image address (title.map Markup.escape) (Markup.escape alt)))
  | reflink {c : Char} (h : c = '[' ∨ c = '!') : Makes s .reflink (.leaf (.text [c]))
  | em (content : List Char) : Makes s .emStrong (.branch .em content)
  | strong (content : List Char) : Makes s .emStrong (.branch .strong content)
  | codespan (text : List Char) : Makes s .codespan (.leaf (.codespan (escapeAll text)))
  | br : Makes s .br (.leaf .br)
  | del (content : List Char) : Makes s .del (.branch .del content)
  | autolink (address text : List Char) : Makes s .autolink (.address address (Markup.escape text))
  | url (address text : List Char) : Makes s .url (.address address (Markup.escape text))
  | text (hblock : s.inRawBlock = false) (text : List Char) :
      Makes s .text (.leaf (.text (Markup.escape text)))
  | rawText (hblock : s.inRawBlock = true) (text : List Char) : Makes s .text (.leaf (.text text))

namespace Markdown

def Escapes (m : Markdown) : Prop :=
  ∀ kind ctx cs found rest, m.tokenizer kind ctx cs = some (found, rest) → Makes ctx.state kind found

def Finds (m : Markdown) (tag : Tokenizer) (ctx : LexerContext) (found : Found) : Prop :=
  ∃ cs rest, tag ctx cs = some (found, rest) ∨ ∃ kind, m.tokenizer kind ctx cs = some (found, rest)

/-- The tokens that tokenizers find one after the other, and within one another, from one state of the lexer
to another. Texts in a row may be joined to one token. -/
inductive Lexed (m : Markdown) (tag : Tokenizer) : LexerState → Tokens → LexerState → Prop
  | nil (s : LexerState) : Lexed m tag s .nil s
  | leaf {ctx : LexerContext} {head : Leaf} {rest : Tokens} {s : LexerState}
      (h : m.Finds tag ctx (.leaf head)) (hrest : Lexed m tag (head.after ctx.state) rest s) :
      Lexed m tag ctx.state (.leaf head rest) s
  | joined {ctx : LexerContext} {text more : List Char} {rest : Tokens} {s : LexerState}
      (h : m.Finds tag ctx (.leaf (.text text))) (hrest : Lexed m tag ctx.state (.leaf (.text more) rest) s) :
      Lexed m tag ctx.state (.leaf (.text (text ++ more)) rest) s
  | branch {ctx : LexerContext} {head : Branch} {content : List Char} {inner rest : Tokens}
      {s t : LexerState} (h : m.Finds tag ctx (.branch head content))
      (hinner : Lexed m tag (head.enter ctx.state) inner s) (hrest : Lexed m tag (head.leave s) rest t) :
      Lexed m tag ctx.state (.branch head inner rest) t
  | address {ctx : LexerContext} {address text : List Char} {rest : Tokens} {s : LexerState}
      (h : m.Finds tag ctx (.address address text)) (hrest : Lexed m tag ctx.state rest s) :
      Lexed m tag ctx.state (.branch (.link address none) (.leaf (.text text) .nil) rest) s

/-- The lexer has its tokens from the tokenizers, and begins outside of links and raw blocks. -/
def Lexes (m : Markdown) (tag : Tokenizer) : Prop := ∀ cs, ∃ s, Lexed m tag {} (m.lex tag cs) s

/-- The tokens are written one after the other. -/
structure Renders (m : Markdown) : Prop where
  nil : m.parse .nil = []
  leaf (head : Leaf) (rest : Tokens) : m.parse (.leaf head rest) = head.toHtml ++ m.parse rest
  branch (head : Branch) (inner rest : Tokens) :
    m.parse (.branch head inner rest) = head.toHtml (m.parse inner) ++ m.parse rest

end Markdown

/-! ### Tokens as tags and text -/

def Leaf.parts : Leaf → List Part
  | .text t | .escape t | .html t _ _ => [.text t]
  | .codespan t =>
    [.tag { name := "code".toList }, .text t, .tag { name := "code".toList, closing := true }]
  | .br => [.tag { name := "br".toList }]
  | .image address title alt =>
    [.tag { name := "img".toList
            attributes := ("src", encodeAddress address) :: ("alt", alt) :: HtmlTag.titled title }]

def Branch.opening (b : Branch) : HtmlTag where
  name := b.name
  attributes := match b with
    | .link address title => ("href", encodeAddress address) :: HtmlTag.titled title
    | _ => []

def Branch.closing (b : Branch) : HtmlTag := { name := b.name, closing := true }

def Tokens.parts : Tokens → List Part
  | .nil => []
  | .leaf head rest => head.parts ++ rest.parts
  | .branch head inner rest => .tag head.opening :: inner.parts ++ .tag head.closing :: rest.parts

theorem flatMap_titled (title : Option (List Char)) :
    (HtmlTag.titled title).flatMap (fun a => htmlAttribute a.1 a.2) = titleAttribute title := by
  rcases title with _ | _ | ⟨c, title⟩ <;> simp [HtmlTag.titled, titleAttribute]

theorem HtmlTag.html_start (name : List Char) (attributes : List (String × List Char)) :
    HtmlTag.html { name, attributes } =
      startTag name (attributes.flatMap fun a => htmlAttribute a.1 a.2) := by
  simp [html, inside, startTag]

theorem HtmlTag.html_end (name : List Char) : HtmlTag.html { name, closing := true } = endTag name := by
  simp [html, inside, endTag]

theorem Leaf.flatMap_parts (head : Leaf) : head.parts.flatMap Part.html = head.toHtml := by
  cases head with
  | codespan t => simp [parts, toHtml, Part.html, HtmlTag.html_start, HtmlTag.html_end]
  | br => simp [parts, toHtml, Part.html, HtmlTag.html_start]
  | image address title alt => simp [parts, toHtml, Part.html, HtmlTag.html_start, flatMap_titled]
  | _ => simp [parts, toHtml, Part.html]

theorem Branch.flatMap_attributes (head : Branch) :
    head.opening.attributes.flatMap (fun a => htmlAttribute a.1 a.2) = head.attributes := by
  cases head <;> simp [opening, attributes, flatMap_titled]

theorem Branch.html_opening (head : Branch) :
    head.opening.html = startTag head.name head.attributes := by
  rw [← head.flatMap_attributes]
  exact HtmlTag.html_start _ _

theorem Branch.html_opening_closing (head : Branch) (inner : List Char) :
    head.opening.html ++ inner ++ head.closing.html = head.toHtml inner := by
  rw [head.html_opening, closing, HtmlTag.html_end, toHtml]

theorem Markdown.Renders.parse_eq {m : Markdown} (h : m.Renders) (ts : Tokens) :
    m.parse ts = ts.parts.flatMap Part.html := by
  induction ts with
  | nil => exact h.nil
  | leaf head rest ih => rw [h.leaf, ih, Tokens.parts, List.flatMap_append, head.flatMap_parts]
  | branch head inner rest ihi ihr =>
    rw [h.branch, ihi, ihr, Tokens.parts, List.cons_append, List.flatMap_cons, List.flatMap_append,
      List.flatMap_cons, ← head.html_opening_closing]
    simp only [Part.html, List.append_assoc]

/-! ### Tokens that are safe -/

section
variable {s t : LexerState} {kind : Kind} {head : Leaf} {around : Branch} {content address text : List Char}

theorem isInert_of_mem_titled {title : Option (List Char)} {a : String × List Char}
    (h : a ∈ HtmlTag.titled (title.map escape)) : IsInert a.2 := by
  obtain ⟨t, -, ht⟩ := Option.map_eq_some_iff.mp (HtmlTag.eq_title_of_mem_titled h).2
  exact ht ▸ isInert_escape t

theorem hasInertValues_link (address : List Char) (title : Option (List Char)) :
    (Branch.link address (title.map escape)).opening.HasInertValues :=
  List.forall_mem_cons.mpr ⟨isInert_encodeAddress address, fun _ ha => isInert_of_mem_titled ha⟩

/-- Outside of raw blocks what a tokenizer finds is safe, and no raw block begins with it. -/
theorem Makes.leaf_safe (h : Makes s kind (.leaf head)) (hblock : s.inRawBlock = false) :
    (∀ p ∈ head.parts, p.Safe) ∧ (head.after s).inRawBlock = false := by
  cases h with
  | escape c => exact ⟨List.forall_mem_singleton.mpr (isInert_escape _).lt_notMem, hblock⟩
  | image address title alt =>
    refine ⟨List.forall_mem_singleton.mpr ⟨.image _ _ _, ?_⟩, hblock⟩
    exact List.forall_mem_cons.mpr ⟨isInert_encodeAddress address, List.forall_mem_cons.mpr
      ⟨isInert_escape alt, fun _ ha => isInert_of_mem_titled ha⟩⟩
  | reflink hc =>
    refine ⟨List.forall_mem_singleton.mpr ?_, hblock⟩
    rcases hc with rfl | rfl <;> simp [Part.Safe]
  | codespan text =>
    have hname : "code" ∈ ["em", "strong", "del", "code"] := by simp
    refine ⟨?_, hblock⟩
    simp only [Leaf.parts, List.forall_mem_cons]
    exact ⟨⟨.around "code" hname false, nofun⟩, (isInert_escapeAll text).lt_notMem,
      ⟨.around "code" hname true, nofun⟩, nofun⟩
  | br => exact ⟨List.forall_mem_singleton.mpr ⟨.lineBreak, nofun⟩, hblock⟩
  | text _ text => exact ⟨List.forall_mem_singleton.mpr (isInert_escape text).lt_notMem, hblock⟩
  | rawText hraw => exact absurd (hraw.symm.trans hblock) (by decide)

theorem Makes.branch_safe (h : Makes s kind (.branch around content)) :
    (Part.tag around.opening).Safe ∧ (Part.tag around.closing).Safe := by
  cases h with
  | link address title content =>
    exact ⟨⟨.linkStart _ _, hasInertValues_link address title⟩, .linkEnd, nofun⟩
  | em => exact ⟨⟨.around "em" (by simp) false, nofun⟩, .around "em" (by simp) true, nofun⟩
  | strong => exact ⟨⟨.around "strong" (by simp) false, nofun⟩, .around "strong" (by simp) true, nofun⟩
  | del => exact ⟨⟨.around "del" (by simp) false, nofun⟩, .around "del" (by simp) true, nofun⟩

theorem Makes.lt_notMem_of_address (h : Makes s kind (.address address text)) : '<' ∉ text := by
  cases h <;> exact (isInert_escape _).lt_notMem

@[simp] theorem Branch.inRawBlock_enter (s : LexerState) : (around.enter s).inRawBlock = s.inRawBlock := by
  cases around <;> rfl

@[simp] theorem Branch.inRawBlock_leave (s : LexerState) : (around.leave s).inRawBlock = s.inRawBlock := by
  cases around <;> rfl

variable {m : Markdown} {ctx : LexerContext} {found : Found} {ts : Tokens}

/-- If no text is taken for a raw tag, all is found by the tokenizers of markup. -/
theorem Markdown.Escapes.makes (hm : m.Escapes) (h : m.Finds noTag ctx found) :
    ∃ kind, Makes ctx.state kind found := by
  obtain ⟨cs, rest, htag | ⟨kind, hkind⟩⟩ := h
  · cases htag
  · exact ⟨kind, hm kind ctx cs found rest hkind⟩

/-- Without raw tags the lexer never comes into a raw block, so all that is found is safe. -/
theorem Markdown.Lexed.safe (h : m.Lexed noTag s ts t) (hm : m.Escapes) (hblock : s.inRawBlock = false) :
    (∀ p ∈ ts.parts, p.Safe) ∧ t.inRawBlock = false := by
  induction h with
  | nil => exact ⟨nofun, hblock⟩
  | leaf hfound hrest ih =>
    obtain ⟨kind, hmakes⟩ := hm.makes hfound
    obtain ⟨hhead, hafter⟩ := hmakes.leaf_safe hblock
    obtain ⟨hparts, hend⟩ := ih hafter
    exact ⟨List.forall_mem_append.mpr ⟨hhead, hparts⟩, hend⟩
  | joined hfound hrest ih =>
    obtain ⟨kind, hmakes⟩ := hm.makes hfound
    obtain ⟨hhead, -⟩ := hmakes.leaf_safe hblock
    obtain ⟨hparts, hend⟩ := ih hblock
    obtain ⟨hmore, hbehind⟩ := List.forall_mem_cons.mp hparts
    have htext : (Part.text _).Safe := hhead _ (List.mem_singleton_self _)
    have hjoined : (Part.text _).Safe := fun hm => (List.mem_append.mp hm).elim htext hmore
    exact ⟨List.forall_mem_cons.mpr ⟨hjoined, hbehind⟩, hend⟩
  | branch hfound hinner hrest ihi ihr =>
    obtain ⟨kind, hmakes⟩ := hm.makes hfound
    obtain ⟨hopening, hclosing⟩ := hmakes.branch_safe
    obtain ⟨hwithin, hleft⟩ := ihi (by simpa using hblock)
    obtain ⟨hparts, hend⟩ := ihr (by simpa using hleft)
    refine ⟨?_, hend⟩
    rw [Tokens.parts, List.cons_append]
    exact List.forall_mem_cons.mpr ⟨hopening, List.forall_mem_append.mpr
      ⟨hwithin, List.forall_mem_cons.mpr ⟨hclosing, hparts⟩⟩⟩
  | @address _ address _ _ _ hfound hrest ih =>
    obtain ⟨kind, hmakes⟩ := hm.makes hfound
    obtain ⟨hparts, hend⟩ := ih hblock
    have hopening : (Part.tag (Branch.link address none).opening).Safe :=
      ⟨.linkStart _ _, hasInertValues_link address none⟩
    refine ⟨List.forall_mem_cons.mpr ⟨hopening, List.forall_mem_cons.mpr
      ⟨hmakes.lt_notMem_of_address, List.forall_mem_cons.mpr ⟨⟨.linkEnd, nofun⟩, hparts⟩⟩⟩, hend⟩

end

/-! ### The renderer that is run -/

theorem mem_tokenizersOfMarkup {tag t : Tokenizer} {s : LexerState} (h : t ∈ tokenizersOfMarkup tag s) :
    t = tag ∨ ∃ kind, t = tokenizer kind := by
  simp only [tokenizersOfMarkup, List.mem_append, List.mem_cons, List.not_mem_nil, or_false] at h
  rcases h with (h | h | h | h | h | h | h | h | h) | hurl
  case inr =>
    split at hurl
    · cases hurl
    · exact .inr ⟨.url, List.mem_singleton.mp hurl⟩
  case inl.inr.inl => exact .inl h
  all_goals exact .inr ⟨_, h⟩

theorem of_reference?_eq_some {cs rest : List Char} {c : Char} (h : reference? cs = some (c, rest)) :
    c = '[' ∨ c = '!' := by
  obtain ⟨⟨image, inner⟩, -, h⟩ := Option.bind_eq_some_iff.mp h
  dsimp only at h
  split at h
  next =>
    cases h
    cases image <;> simp
  next => cases h

theorem Link.makes (l : Link) (s : LexerState) : Makes s .link l.found := by
  rw [found]
  split
  · exact .image _ _ _
  · exact .link _ _ _

theorem Markdown.escapes_standard : Markdown.standard.Escapes := by
  intro kind ctx cs found rest h
  cases kind
  case text =>
    cases h
    split
    next hblock => exact .rawText hblock _
    next hblock => exact .text (Bool.not_eq_true _ ▸ hblock) _
  all_goals
    obtain ⟨r, hr, hfound⟩ := Option.map_eq_some_iff.mp h
    cases hfound
  case escape => exact .escape _
  case link => exact r.1.makes _
  case reflink => exact .reflink (of_reference?_eq_some hr)
  case emStrong =>
    split
    · exact .strong _
    · exact .em _
  case codespan => exact .codespan _
  case br => exact .br
  case del => exact .del _
  case autolink => exact .autolink _ _
  case url => exact .url _ _

theorem finds_of_next? {tag : Tokenizer} {ctx : LexerContext} {cs rest : List Char} {found : Found}
    {previous : Option Char} (h : next? tag ctx cs = some (found, rest, previous)) :
    Markdown.standard.Finds tag ctx found := by
  rw [next?] at h
  split at h
  next hmarkup =>
    cases h
    obtain ⟨t, ht, hfound⟩ := List.exists_of_findSome?_eq_some hmarkup
    rcases mem_tokenizersOfMarkup ht with rfl | ⟨kind, rfl⟩
    · exact ⟨cs, _, .inl hfound⟩
    · exact ⟨cs, _, .inr ⟨kind, hfound⟩⟩
  next =>
    obtain ⟨r, hr, hfound⟩ := Option.map_eq_some_iff.mp h
    cases hfound
    exact ⟨cs, _, .inr ⟨.text, hr⟩⟩

theorem lexed_scan (tag : Tokenizer) (fuel : Nat) (ctx : LexerContext) (cs : List Char) :
    Markdown.standard.Lexed tag ctx.state (scan tag fuel ctx cs).1 (scan tag fuel ctx cs).2 := by
  induction fuel generalizing ctx cs with
  | zero => cases cs <;> exact .nil _
  | succ fuel ih =>
    cases cs with
    | nil => exact .nil _
    | cons c cs =>
      rw [scan]
      · split
        next => exact .nil _
        next head rest previous h =>
          have hrest := ih { ctx with state := head.after ctx.state, previous } rest
          exact .leaf (finds_of_next? h) hrest
        next head content rest previous h =>
          have hinner := ih { state := head.enter ctx.state, masked := mask content } content
          exact .branch (finds_of_next? h) hinner (ih { ctx with state := head.leave _, previous } rest)
        next address text rest previous h =>
          exact .address (finds_of_next? h) (ih { ctx with previous } rest)
      · exact nofun

theorem Markdown.lexes_standard (tag : Tokenizer) : Markdown.standard.Lexes tag :=
  fun cs => ⟨_, lexed_scan tag (cs.length + 1) { masked := mask cs } cs⟩

theorem Markdown.renders_standard : Markdown.standard.Renders := ⟨rfl, fun _ _ => rfl, fun _ _ _ => rfl⟩

/-- Whatever a text holds, an opening bracket in what is rendered from it begins a tag that its tokens are
rendered as: one of a few, and no value in it holds a bracket or a quotation mark. -/
theorem exists_tag_of_renderInline {m : Markdown} (hescapes : m.Escapes) (hlexes : m.Lexes noTag)
    (hrenders : m.Renders) {text : String} {before after : List Char}
    (h : (m.renderInline text).toList = before ++ '<' :: after) :
    ∃ xs t ys, (m.tokens text).parts = xs ++ .tag t :: ys ∧ before = xs.flatMap Part.html ∧
      '<' :: after = t.html ++ ys.flatMap Part.html ∧ t.Generated ∧
      ∀ a ∈ t.attributes, '<' ∉ a.2 ∧ '>' ∉ a.2 ∧ '"' ∉ a.2 := by
  obtain ⟨s, hlexed⟩ := hlexes text.toList
  have hsafe : ∀ p ∈ (m.tokens text).parts, p.Safe := (hlexed.safe hescapes rfl).1
  rw [Markdown.renderInline, String.toList_ofList, hrenders.parse_eq] at h
  obtain ⟨xs, t, ys, hparts, hbefore, hafter⟩ := Part.exists_tag_of_flatMap_eq_append hsafe h
  have ht : (Part.tag t).Safe := hsafe _ (by simp [hparts])
  refine ⟨xs, t, ys, hparts, hbefore, hafter, ht.1, fun a ha => ?_⟩
  have hvalue := ht.2 a ha
  exact ⟨fun hm => (hvalue _ hm).1 rfl, fun hm => (hvalue _ hm).2.1 rfl, fun hm => (hvalue _ hm).2.2 rfl⟩

theorem exists_tag_of_renderInline_link :
    let text := "[*<i>*](/\"x '<b>')"
    let before := "<a href=\"/%22x\" title=\"&lt;b&gt;\">".toList
    let after := "em>&lt;i&gt;</em></a>".toList
    Markdown.standard.Escapes ∧ Markdown.standard.Lexes noTag ∧ Markdown.standard.Renders ∧
      (Markdown.standard.renderInline text).toList = before ++ '<' :: after ∧
      ∃ xs t ys, (Markdown.standard.tokens text).parts = xs ++ .tag t :: ys ∧
        before = xs.flatMap Part.html ∧ '<' :: after = t.html ++ ys.flatMap Part.html ∧ t.Generated ∧
        ∀ a ∈ t.attributes, '<' ∉ a.2 ∧ '>' ∉ a.2 ∧ '"' ∉ a.2 := by
  intro text before after
  have h : (Markdown.standard.renderInline text).toList = before ++ '<' :: after := by decide +kernel
  exact ⟨Markdown.escapes_standard, Markdown.lexes_standard noTag, Markdown.renders_standard, h,
    exists_tag_of_renderInline Markdown.escapes_standard (Markdown.lexes_standard noTag)
      Markdown.renders_standard h⟩

end BranchingDialogue.Markup
