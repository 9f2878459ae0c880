import CodeAtlas.Text.Basic
import CodeAtlas.Tree.Basic

/-!
# Tree listings

A syntax tree as text, as a parser leaves it beside a source: one node to a line in pre-order, with
its properties separated by tabs. They are the kind, `named` or `token`, the field or nothing, the
first byte, the byte after the node, the number of children, and the marks `e` (an error below), `m`
(missing) and `x` (an error itself).
-/

namespace CodeAtlas.Tree

/-- Read the line of a node: its label and its number of children. -/
def readNode? (line : String) : Option (Label × Nat) := do
  let [kind, named, field, start, stop, count, marks] := Text.splitChar '\t' line | none
  let label : Label :=
    { kind := kind
      named := named == "named"
      field := if field = "" then none else some field
      start := ← start.toNat?
      stop := ← stop.toNat?
      hasError := marks.toList.contains 'e'
      isMissing := marks.toList.contains 'm'
      isError := marks.toList.contains 'x' }
  some (label, ← count.toNat?)

/-- Read a listing. -/
def ofListing? (text : String) : Option Tree :=
  ((Text.lines text).mapM readNode?).bind ofPreorder?

/-- The tree of a source that no parser has seen: an error at its start. -/
def unparsed : Tree :=
  node { kind := "", named := true, start := 0, stop := 0, hasError := true, isError := true } []

end CodeAtlas.Tree
