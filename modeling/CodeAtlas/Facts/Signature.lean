import CodeAtlas.Facts.Declarator

/-!
# Signatures

Parameters, returned type and base classes of a declaration, read off its node.
-/

namespace CodeAtlas

/-- The position of the parameter inside a type-annotated one. -/
def typedParameterIndex? (t : Tree) : Option Nat :=
  if t.kind == "typed_parameter" then t.firstProperIndex? else none

namespace Document

/-- The text of the first child that carries meaning. -/
def firstProperText? (doc : Document) (t : Tree) : Option String := t.firstProper?.map doc.textOf

/-- A parameter that takes the remaining positional arguments. -/
def variadicParameter (doc : Document) (t : Tree) : Parameter :=
  { name := (doc.firstProperText? t).getD "...", variadicPositional := true }

/-- The parameters that one entry of a parameter list declares. -/
def parametersOf (doc : Document) (t : Tree) : List Parameter :=
  let t := t.follow typedParameterIndex?
  let declared := (t.field? "declarator").bind doc.declaratorIdentifier?
  match t.kind with
  | "identifier" | "tuple_pattern" | "object_pattern" | "array_pattern" =>
    [{ name := Text.collapse (doc.textOf t) }]
  | "default_parameter" | "typed_default_parameter" =>
    (doc.fieldText? t "name").toList.map fun name => { name := name, hasDefault := true }
  | "optional_parameter_declaration" =>
    declared.toList.map fun name => { name := name, hasDefault := true }
  | "list_splat_pattern" | "rest_pattern" | "variadic_parameter" => [doc.variadicParameter t]
  | "dictionary_splat_pattern" =>
    [{ name := (doc.firstProperText? t).getD "", variadicKeyword := true }]
  | "parameter" => (doc.fieldText? t "pattern").toList.map fun name => { name := name }
  | "self_parameter" => [{ name := "self" }]
  | "parameter_declaration" =>
    if doc.language = .go then (t.inFields "name").map fun n => { name := doc.textOf n }
    else declared.toList.map fun name => { name := name }
  | "variadic_parameter_declaration" =>
    [{ name := (doc.fieldText? t "name").getD "...", variadicPositional := true }]
  | "formal_parameter" => (doc.fieldText? t "name").toList.map fun name => { name := name }
  | "spread_parameter" =>
    let declarator := t.proper.find? (·.kind == "variable_declarator")
    [{ name := (declarator.bind fun d => doc.fieldText? d "name").getD "..."
       variadicPositional := true }]
  | "required_parameter" | "optional_parameter" =>
    (t.field? "pattern").toList.map fun pattern =>
      if pattern.kind == "rest_pattern" then doc.variadicParameter pattern
      else
        { name := Text.collapse (doc.textOf pattern)
          hasDefault := t.kind == "optional_parameter" || (t.field? "value").isSome }
  | "assignment_pattern" =>
    (doc.fieldText? t "left").toList.map fun name => { name := name, hasDefault := true }
  | _ => []

/-- The parameters of a parameter list. -/
def parameterList (doc : Document) (list : Option Tree) : List Parameter :=
  (list.elim [] Tree.proper).flatMap doc.parametersOf

/-- The parameters of a declaration. -/
def parameters (doc : Document) (t : Tree) : List Parameter :=
  if doc.language.isCFamily then
    doc.parameterList (((t.field? "declarator").bind functionDeclarator?).bind
      (Tree.field? "parameters"))
  else
    match t.field? "parameter" with
    | some single => [{ name := doc.textOf single }]
    | none => doc.parameterList (t.field? "parameters")

/-- The field that holds the returned type. -/
def returnTypeField (lang : Language) : String :=
  match lang with
  | .go => "result"
  | .java | .c | .cpp => "type"
  | _ => "return_type"

/-- The returned type of a declaration. -/
def returnType (doc : Document) (t : Tree) : Option String :=
  if doc.role t = .classLike then none
  else
    ((doc.fieldText? t (returnTypeField doc.language)).map fun text =>
      Text.collapse (Text.trimStartChar ':' text)).filter (· ≠ "")

/-- The nodes that name the base classes of a class. -/
def baseNodes (doc : Document) (t : Tree) : List Tree :=
  match doc.language with
  | .python =>
    ((t.field? "superclasses").elim [] Tree.proper).filter fun n =>
      ! (["keyword_argument", "list_splat", "dictionary_splat"].contains n.kind)
  | .java =>
    t.proper.flatMap fun child =>
      match child.kind with
      | "superclass" => child.proper
      | "super_interfaces" | "extends_interfaces" => child.proper.flatMap Tree.proper
      | _ => []
  | .c | .cpp =>
    t.proper.flatMap fun child =>
      if child.kind == "base_class_clause" then
        child.proper.filter fun n => n.kind != "access_specifier"
      else []
  | .javaScript | .typeScript | .tsx =>
    t.proper.flatMap fun child =>
      match child.kind with
      | "class_heritage" =>
        child.proper.flatMap fun clause =>
          match clause.kind with
          | "extends_clause" | "implements_clause" =>
            clause.proper.filter fun n => n.kind != "type_arguments"
          | _ => [clause]
      | "extends_type_clause" => child.proper
      | _ => []
  | _ => []

/-- The base classes of a class by name, without type arguments. -/
def bases (doc : Document) (t : Tree) : List String :=
  ((doc.baseNodes t).map fun n => Text.withoutGenerics (doc.textOf n)).filterMap fun name =>
    if name = "" then none else some (Text.collapse name)

end Document

end CodeAtlas
