/-!
# Syntax trees

A finished syntax tree: every node has a kind, may hang in a field of its parent, and covers a
range of bytes of the source. The trees are ordinary values, so every walk over them is a
structural recursion; parents and earlier siblings, where a walk needs them, are carried along as a
path of frames.
-/

namespace CodeAtlas

/-- What is known of a syntax node by itself. -/
structure Label where
  kind : String
  /-- Does the grammar name the node? Punctuation and keywords are not named. -/
  named : Bool
  /-- The field of the parent in which the node hangs. -/
  field : Option String := none
  /-- The first byte of the node. -/
  start : Nat
  /-- The byte after the node. -/
  stop : Nat
  /-- Does the node or one below it hold a syntax error? -/
  hasError : Bool := false
  /-- Was the node inserted because the source lacks it? -/
  isMissing : Bool := false
  /-- Is the node a piece of source that does not parse? -/
  isError : Bool := false
deriving DecidableEq, Inhabited

/-- A syntax tree. -/
inductive Tree where
  | node (label : Label) (children : List Tree)

/-- Some tree. -/
instance : Inhabited Tree := ⟨.node default []⟩

/-- Is this the kind of a comment? -/
def isCommentKind (kind : String) : Bool :=
  kind == "comment" || kind == "line_comment" || kind == "block_comment"

namespace Tree

/-- The label of the root. -/
def label : Tree → Label
  | node label _ => label

/-- The trees directly below the root. -/
def children : Tree → List Tree
  | node _ children => children

/-- The kind of the root. -/
def kind (t : Tree) : String := t.label.kind

/-- The range of bytes by which declarations are told apart. -/
def range (t : Tree) : Nat × Nat := (t.label.start, t.label.stop)

/-- Is the root a comment? -/
def isComment (t : Tree) : Bool := isCommentKind t.kind

/-- Named and not a comment: the nodes that carry meaning. -/
def isProper (t : Tree) : Bool := t.label.named && !t.isComment

/-- The children that carry meaning. -/
def proper (t : Tree) : List Tree := t.children.filter isProper

/-- The first child that carries meaning. -/
def firstProper? (t : Tree) : Option Tree := t.children.find? isProper

/-- Does the tree hang in the field? -/
def inField (name : String) (t : Tree) : Bool := t.label.field == some name

/-- The first child in a field. -/
def field? (name : String) (t : Tree) : Option Tree := t.children.find? (inField name)

/-- All children in a field. -/
def inFields (name : String) (t : Tree) : List Tree := t.children.filter (inField name)

mutual

/-- The offset of the first error: below an inner node with an error the search goes on in its
first child with one. -/
def firstErrorOffset : Tree → Nat
  | node label children =>
    if label.isError || label.isMissing then label.start
    else (firstErrorBelow children).getD label.start

/-- The offset of the first error in the first of several trees that has one. -/
def firstErrorBelow : List Tree → Option Nat
  | [] => none
  | t :: ts => if t.label.hasError then some (firstErrorOffset t) else firstErrorBelow ts

end

/-- The offset at which a tree fails to parse, if it does. -/
def errorOffset? (t : Tree) : Option Nat :=
  if t.label.hasError then some (firstErrorOffset t) else none

mutual

/-- Go down from a node as long as `next` points to a child. -/
def follow (next : Tree → Option Nat) : Tree → Tree
  | node label children =>
    match next (node label children) with
    | none => node label children
    | some i => (followAt next i children).getD (node label children)

/-- Go down from the tree at a position of a list. -/
def followAt (next : Tree → Option Nat) : Nat → List Tree → Option Tree
  | _, [] => none
  | 0, t :: _ => some (follow next t)
  | i + 1, _ :: ts => followAt next i ts

end

/-- The position of the first child in a field. -/
def fieldIndex? (name : String) (t : Tree) : Option Nat := t.children.findIdx? (inField name)

/-- The position of the first child that carries meaning. -/
def firstProperIndex? (t : Tree) : Option Nat := t.children.findIdx? isProper

/-- The position of the last child that carries meaning. -/
def lastProperIndex? (t : Tree) : Option Nat :=
  (t.children.reverse.findIdx? isProper).map fun i => t.children.length - 1 - i

/-- One step of rebuilding a forest from a list of labels in pre-order, read from its end: a node
takes as many of the finished trees as it has children. -/
def attach (entry : Label × Nat) (forest : List Tree) : List Tree :=
  node entry.1 (forest.take entry.2) :: forest.drop entry.2

/-- The tree whose nodes are listed in pre-order, each with its number of children. -/
def ofPreorder? (entries : List (Label × Nat)) : Option Tree :=
  (entries.foldr attach []).head?

/-- A parent on the way to a node, and the node's earlier siblings, nearest first. -/
structure Frame where
  parent : Tree
  earlier : List Tree

/-- The way from a node up to the root. -/
abbrev Spine := List Frame

end Tree

end CodeAtlas
