import CodeAtlas.Facts.Callee

/-!
# Declarators of C and C++

In C and C++ the declared name sits inside a declarator, below pointers, references, arrays and
parameter lists.
-/

namespace CodeAtlas

/-- A declared name, and the owner that a qualified name such as `Owner::name` gives it. -/
structure DeclaredName where
  name : String
  owner : Option String
deriving DecidableEq

/-- The position of the declarator that a pointer or reference declarator wraps. -/
def pointeeIndex? (t : Tree) : Option Nat :=
  match t.kind with
  | "pointer_declarator" | "reference_declarator" | "attributed_declarator" =>
    (t.fieldIndex? "declarator").or t.lastProperIndex?
  | _ => none

/-- The function declarator that a declarator comes down to. -/
def functionDeclarator? (t : Tree) : Option Tree :=
  let inner := t.follow pointeeIndex?
  if inner.kind == "function_declarator" then some inner else none

/-- The position of the declarator inside a declarator of any shape. -/
def declaratorIndex? (t : Tree) : Option Nat :=
  match t.kind with
  | "init_declarator" | "pointer_declarator" | "array_declarator" | "reference_declarator"
  | "parenthesized_declarator" | "attributed_declarator" | "function_declarator" =>
    (t.fieldIndex? "declarator").or t.firstProperIndex?
  | _ => none

namespace Document

/-- The identifier that a declarator declares. -/
def declaratorIdentifier? (doc : Document) (t : Tree) : Option String :=
  let inner := t.follow declaratorIndex?
  if inner.kind == "identifier" || inner.kind == "field_identifier" then some (doc.textOf inner)
  else none

mutual

/-- The name at the end of a possibly qualified declarator, with the innermost qualifier as its
owner; `owner` is the nearest qualifier further out. -/
def declaredName? (doc : Document) (owner : Option String) : Tree → Option DeclaredName
  | .node label children =>
    let t := Tree.node label children
    match label.kind with
    | "identifier" | "field_identifier" | "type_identifier" | "destructor_name"
    | "operator_name" => some ⟨doc.textOf t, owner⟩
    | "template_function" => declaredNameIn? doc owner children
    | "qualified_identifier" =>
      let scope := (doc.fieldText? t "scope").map fun s => Text.lastSegment (Text.withoutGenerics s)
      declaredNameIn? doc (scope.or owner) children
    | _ => none

/-- The declared name of the first of several trees that hangs in the field `name`. -/
def declaredNameIn? (doc : Document) (owner : Option String) : List Tree → Option DeclaredName
  | [] => none
  | t :: ts =>
    if t.inField "name" then declaredName? doc owner t else declaredNameIn? doc owner ts

end

/-- The function that a declarator declares: its function declarator and its name. -/
def declaredFunction? (doc : Document) (declarator : Tree) : Option (Tree × DeclaredName) := do
  let function ← functionDeclarator? declarator
  let inner ← function.field? "declarator"
  let name ← doc.declaredName? none inner
  some (function, name)

end Document

end CodeAtlas
