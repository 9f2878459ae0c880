import CodeAtlas.Tree.Document

/-!
# Documentation of a declaration

A Python declaration is documented by a string at the start of its body. In every other language
the documentation is the run of marked comments directly above the declaration, or above the
statement that wraps it; attributes and decorators may stand in between.
-/

namespace CodeAtlas

/-- A line of a comment without comment markers, unless nothing is left of it. -/
def cleanCommentLine (line : String) : Option String :=
  let line := Text.trim line
  let line := (["/**", "/*", "///", "//"].findSome? fun m => Text.dropStart? m line).getD line
  let line := Text.trimEnd line
  let line := Text.trim ((Text.dropEnd? "*/" line).getD line)
  let line := Text.trim ((Text.dropStart? "*" line).getD line)
  if line = "" then none else some line

/-- Statements that wrap a declaration; its comments stand above them. -/
def isDocWrapper (kind : String) : Bool :=
  ["export_statement", "lexical_declaration", "variable_declaration", "template_declaration",
    "var_declaration", "const_declaration"].contains kind

/-- Siblings that may stand between a declaration and its comments. -/
def isDocGap (kind : String) : Bool := kind == "attribute_item" || kind == "decorator"

/-- Does a comment with this text document what follows? -/
def isDocComment (lang : Language) (text : String) : Bool :=
  match lang with
  | .python => false
  | .rust =>
    (Text.startsWith "///" text && !Text.startsWith "////" text) || Text.startsWith "/**" text
  | .javaScript | .typeScript | .tsx | .java => Text.startsWith "/**" text
  | .go | .c | .cpp => Text.startsWith "//" text || Text.startsWith "/*" text

/-- The outermost statement that wraps a node, and the way from there to the root. -/
def docAnchor : Tree → Tree.Spine → Tree × Tree.Spine
  | t, [] => (t, [])
  | t, frame :: above =>
    if isDocWrapper frame.parent.kind then docAnchor frame.parent above else (t, frame :: above)

/-- Lines joined again, if there are any. -/
def joinedLines (lines : List String) : Option String :=
  if lines.isEmpty then none else some (Text.joinWith "\n" lines)

namespace Document

/-- The comments that document a node, nearest first, given the row where what they document starts
and the earlier siblings. The run ends at a gap of a line, at a comment without a mark and at
anything else. -/
def docComments (doc : Document) : (nextRow : Nat) → List Tree → List String
  | _, [] => []
  | nextRow, sibling :: earlier =>
    if isDocGap sibling.kind then docComments doc (doc.row sibling.label.start) earlier
    else if !sibling.isComment || doc.row sibling.label.stop + 1 < nextRow then []
    else if !isDocComment doc.language (doc.textOf sibling) then []
    else doc.textOf sibling :: docComments doc (doc.row sibling.label.start) earlier

/-- The documentation above a node. -/
def commentsAbove (doc : Document) (t : Tree) (spine : Tree.Spine) : Option String :=
  let (anchor, above) := docAnchor t spine
  let earlier := above.head?.elim [] (·.earlier)
  let blocks := (doc.docComments (doc.row anchor.label.start) earlier).reverse
  joinedLines ((blocks.flatMap Text.lines).filterMap cleanCommentLine)

/-- The text between the quotes of a Python string. -/
def unquotedDoc? (text : String) : Option String :=
  let text := String.ofList (text.toList.dropWhile fun c => "rRuUbBfF".toList.contains c)
  ["\"\"\"", "\x27\x27\x27", "\"", "\x27"].findSome? fun q =>
    (Text.dropStart? q text).bind (Text.dropEnd? q)

/-- The string at the start of a body. -/
def docString (doc : Document) (t : Tree) : Option String := do
  let body ← t.field? "body"
  let statement ← body.firstProper?
  if statement.kind ≠ "expression_statement" then none
  let string ← statement.firstProper?
  if string.kind ≠ "string" then none
  let inner ← unquotedDoc? (doc.textOf string)
  joinedLines (((Text.lines inner).map Text.trim).filter (· ≠ ""))

/-- The documentation of a declaration. -/
def docOf (doc : Document) (t : Tree) (spine : Tree.Spine) : Option String :=
  if doc.language = .python then doc.docString t else doc.commentsAbove t spine

end Document

end CodeAtlas
