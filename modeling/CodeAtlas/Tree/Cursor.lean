import CodeAtlas.Tree.Basic

/-!
# Cursors

A cursor stands at a node of a tree and remembers the way back: the later siblings of the node, and
the nodes above it with theirs. It moves by one step at a time, so a walk with a cursor needs no
more memory for a deep tree than for the way to its place.
-/

namespace CodeAtlas.Tree

mutual

/-- The number of nodes of a tree. -/
def size : Tree → Nat
  | node _ children => 1 + sizes children

/-- The number of nodes of several trees. -/
def sizes : List Tree → Nat
  | [] => 0
  | t :: ts => size t + sizes ts

end

/-- A node above a cursor. -/
structure Cursor.Level where
  node : Tree
  /-- The later siblings of the node, nearest first. -/
  later : List Tree

/-- A place in a tree. -/
structure Cursor where
  focus : Tree
  /-- The later siblings of the focus, nearest first. -/
  later : List Tree := []
  /-- The nodes above the focus, nearest first. -/
  above : List Cursor.Level := []

namespace Cursor

/-- The number of nodes to the right of a place and of the places above it. -/
def sizeAhead (c : Cursor) : Nat :=
  sizes c.later + c.above.foldr (fun level ahead => sizes level.later + ahead) 0

/-- One step down, to the first child. -/
def firstChild? (c : Cursor) : Option Cursor :=
  match c.focus.children with
  | [] => none
  | child :: rest => some ⟨child, rest, ⟨c.focus, c.later⟩ :: c.above⟩

/-- One step to the right. -/
def nextSibling? (c : Cursor) : Option Cursor :=
  match c.later with
  | [] => none
  | next :: rest => some ⟨next, rest, c.above⟩

/-- One step up. -/
def parent? (c : Cursor) : Option Cursor :=
  match c.above with
  | [] => none
  | level :: above => some ⟨level.node, level.later, above⟩

end Cursor

end CodeAtlas.Tree
