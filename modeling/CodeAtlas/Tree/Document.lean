import CodeAtlas.Facts.Basic
import CodeAtlas.Language.Grammar
import CodeAtlas.Tree.Basic

/-!
# Documents

A document is a source text together with its language and its finished syntax tree. It turns
nodes into text, roles and extents.
-/

namespace CodeAtlas

/-- Is a child the expression inside a wrapper? -/
def Inner.selects : Inner → Tree → Bool
  | firstNamed, t => t.isProper
  | field name, t => t.inField name

/-- A source text with its syntax tree. -/
structure Document where
  language : Language
  text : String
  tree : Tree
  /-- The offsets at which the lines of the text start. -/
  lineStarts : List Nat := Text.lineStarts text

namespace Document

/-- The grammar tables of the document's language. -/
def grammar (doc : Document) : Grammar := doc.language.grammar

/-- The role of a node. -/
def role (doc : Document) (t : Tree) : Role := doc.grammar.role t.kind

/-- The text that a node covers. -/
def textOf (doc : Document) (t : Tree) : String := Text.slice doc.text t.label.start t.label.stop

/-- The text of the first child in a field. -/
def fieldText? (doc : Document) (t : Tree) (field : String) : Option String :=
  (t.field? field).map doc.textOf

/-- The number of lines that end before an offset. -/
def row (doc : Document) (offset : Nat) : Nat := doc.lineStarts.countP (· ≤ offset) - 1

/-- The number of bytes between the start of its line and an offset. -/
def column (doc : Document) (offset : Nat) : Nat :=
  offset - ((doc.lineStarts.filter (· ≤ offset)).getLast?).getD 0

/-- The extent of a node. -/
def extent (doc : Document) (t : Tree) : Extent where
  startLine := doc.row t.label.start + 1
  endLine := doc.row t.label.stop + 1
  startColumn := doc.column t.label.start
  endColumn := doc.column t.label.stop
  startByte := t.label.start
  endByte := t.label.stop

end Document

end CodeAtlas
