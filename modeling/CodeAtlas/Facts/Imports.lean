import CodeAtlas.Facts.Callee

/-!
# Imports

Every way of writing an import comes down to one of three: a module, one name of a module, or all
of its names. The imports of a document are listed in source order.
-/

namespace CodeAtlas

/-- An import before it is given a place in the source. -/
structure ImportForm where
  target : String
  name : ImportedName
  localName : Option String := none
  depth : Nat := 0
deriving DecidableEq

namespace ImportForm

/-- The name bound by an import: its alias, or what is imported. -/
def boundName (form : ImportForm) : String :=
  match form.localName, form.name with
  | some localName, _ => localName
  | none, .name text => text
  | none, .wildcard => "*"
  | none, .whole => form.target

/-- The fact for an import at an extent. -/
def placed (form : ImportForm) (extent : Extent) : ImportFact where
  target := form.target
  name := form.name
  localName := form.boundName
  depth := form.depth
  extent := extent

end ImportForm

/-- A text without one pair of quotes or angle brackets around it. -/
def unquoted (text : String) : String :=
  let text := Text.trim text
  ([("\"", "\""), ("\x27", "\x27"), ("\x60", "\x60"), ("<", ">")].findSome? fun (first, last) =>
    (Text.dropStart? first text).bind (Text.dropEnd? last)).getD text

/-- How often a specifier starts with `../`, and what is left of it. -/
def leadingUps : List Char → Nat × List Char
  | '.' :: '.' :: '/' :: rest =>
    let (ups, final) := leadingUps rest
    (ups + 1, final)
  | rest => (0, rest)

/-- The depth of a path-like specifier: one for `./x`, two for `../x`, zero for `x`. -/
def pathDepth (spec : String) : Nat :=
  let rest := Text.dropStart? "./" spec
  let explicit := rest.isSome || spec == "."
  let (ups, final) := leadingUps (rest.getD spec).toList
  let ups := if String.ofList final = ".." then ups + 1 else ups
  if explicit || ups > 0 then 1 + ups else 0

/-- The depth of a quoted include, which always starts at the including file. -/
def includeDepth (spec : String) : Nat :=
  1 + (leadingUps ((Text.dropStart? "./" spec).getD spec).toList).1

/-- The depth of a path of Rust modules. -/
def usePathDepth (segments : List String) : Nat :=
  match segments with
  | "self" :: _ => 1
  | "super" :: _ => 1 + (segments.takeWhile (· == "super")).length
  | _ => 0

/-- The import of a path of Rust modules. A final `self` means the module before it. -/
def usePathForm (segments : List String) (isWildcard : Bool) (localName : Option String) :
    List ImportForm :=
  let depth := usePathDepth segments
  if isWildcard then
    [{ target := Text.joinWith "::" segments, name := .wildcard, depth := depth }]
  else
    match segments.getLast?, segments.dropLast with
    | none, _ => []
    | some only, [] => [{ target := only, name := .whole, localName := localName, depth := depth }]
    | some last, path =>
      let target := Text.joinWith "::" path
      if last = "self" then
        [{ target := target, name := .whole, localName := localName.or path.getLast?
           depth := depth }]
      else [{ target := target, name := .name last, localName := localName, depth := depth }]

namespace Document

/-- A name with an optional alias, written with the fields `name` and `alias`. -/
def aliased (doc : Document) (t : Tree) : Option (String × Option String) :=
  (doc.fieldText? t "name").map fun name => (name, doc.fieldText? t "alias")

/-- A Python name that may be followed by `as`. -/
def pythonName (doc : Document) (t : Tree) : Option (String × Option String) :=
  if t.kind == "aliased_import" then doc.aliased t else some (doc.textOf t, none)

/-- The module of a Python `from` import and its depth, which is the number of dots. -/
def pythonModule (doc : Document) (t : Tree) : String × Nat :=
  match t.field? "module_name" with
  | none => ("__future__", 0)
  | some module =>
    if module.kind == "relative_import" then
      let dots := (module.proper.find? (·.kind == "import_prefix")).elim 0 fun p =>
        (doc.textOf p).toList.countP (· == '.')
      (doc.textOf module, dots)
    else (doc.textOf module, 0)

/-- The imports of a Python statement. -/
def pythonImports (doc : Document) (t : Tree) : List ImportForm :=
  let names := (t.inFields "name").filterMap doc.pythonName
  if t.kind == "import_statement" then
    names.map fun (target, localName) =>
      { target := target, name := .whole, localName := localName }
  else
    let (target, depth) := doc.pythonModule t
    if t.proper.any (·.kind == "wildcard_import") then
      [{ target := target, name := .wildcard, depth := depth }]
    else
      names.map fun (name, localName) =>
        { target := target, name := .name name, localName := localName, depth := depth }

/-- The segments of a Rust path. -/
def pathText (doc : Document) (t : Tree) : List String :=
  (Text.splitAt "::" (doc.textOf t)).map Text.trim

mutual

/-- The imports of a Rust use tree below a path. -/
def useForms (doc : Document) (path : List String) (localName : Option String) :
    Tree → List ImportForm
  | .node label children =>
    let t := Tree.node label children
    match label.kind with
    | "use_as_clause" => useFormsIn doc path (doc.fieldText? t "alias") "path" children
    | "use_wildcard" =>
      usePathForm (path ++ t.firstProper?.elim [] doc.pathText) true none
    | "scoped_use_list" =>
      useFormsIn doc (path ++ (t.field? "path").elim [] doc.pathText) none "list" children
    | "use_list" => useFormsAmong doc path children
    | _ => usePathForm (path ++ doc.pathText t) false localName

/-- The imports of the first of several trees that hangs in a field. -/
def useFormsIn (doc : Document) (path : List String) (localName : Option String) (field : String) :
    List Tree → List ImportForm
  | [] => []
  | t :: ts =>
    if t.inField field then useForms doc path localName t
    else useFormsIn doc path localName field ts

/-- The imports of several use trees below one path. -/
def useFormsAmong (doc : Document) (path : List String) : List Tree → List ImportForm
  | [] => []
  | t :: ts =>
    (if t.isProper then useForms doc path none t else []) ++ useFormsAmong doc path ts

end

/-- The imports of a Rust declaration. -/
def rustImports (doc : Document) (t : Tree) : List ImportForm :=
  if t.kind == "extern_crate_declaration" then
    (doc.aliased t).toList.map fun (name, localName) =>
      { target := name, name := .whole, localName := localName }
  else (t.field? "argument").elim [] (doc.useForms [] none)

/-- The import of a Go specification. A dot imports every name. -/
def goImport (doc : Document) (spec : Tree) : Option ImportForm :=
  (doc.fieldText? spec "path").map fun quoted =>
    let path := unquoted quoted
    let depth := pathDepth path
    match spec.field? "name" with
    | some name =>
      if name.kind == "dot" then { target := path, name := .wildcard, depth := depth }
      else { target := path, name := .whole, localName := some (doc.textOf name), depth := depth }
    | none =>
      { target := path, name := .whole, localName := some (Text.afterLast "/" path)
        depth := depth }

/-- The imports of a Go declaration. -/
def goImports (doc : Document) (t : Tree) : List ImportForm :=
  (t.proper.flatMap fun child =>
    match child.kind with
    | "import_spec" => [child]
    | "import_spec_list" => child.proper.filter (·.kind == "import_spec")
    | _ => []).filterMap doc.goImport

/-- The import of a name that is qualified by its module, or of a module. -/
def qualifiedImport (separator path : String) : ImportForm :=
  match Text.breakAtLast? separator path with
  | some (module, name) => { target := module, name := .name name }
  | none => { target := path, name := .whole }

/-- The imports of a Java declaration. -/
def javaImports (doc : Document) (t : Tree) : List ImportForm :=
  match t.proper.find? fun n => n.kind == "scoped_identifier" || n.kind == "identifier" with
  | none => []
  | some path =>
    if t.proper.any (·.kind == "asterisk") then [{ target := doc.textOf path, name := .wildcard }]
    else [qualifiedImport "." (doc.textOf path)]

/-- The text of the module that a script statement names. -/
def sourceModule? (doc : Document) (t : Tree) : Option String :=
  (doc.fieldText? t "source").map unquoted

/-- The imports of a script export statement that passes on names of another module. -/
def exportForms (doc : Document) (t : Tree) (source : String) : List ImportForm :=
  let depth := pathDepth source
  match t.proper.find? (·.kind == "export_clause"),
      t.proper.find? (·.kind == "namespace_export") with
  | some clause, _ =>
    (clause.proper.filterMap doc.aliased).map fun (name, localName) =>
      { target := source, name := .name name, localName := localName, depth := depth }
  | none, some namespaceNode =>
    [{ target := source, name := .whole, localName := namespaceNode.firstProper?.map doc.textOf
       depth := depth }]
  | none, none => [{ target := source, name := .wildcard, depth := depth }]

/-- The imports of one part of a script import clause. -/
def clauseForms (doc : Document) (source : String) (part : Tree) : List ImportForm :=
  let depth := pathDepth source
  match part.kind with
  | "identifier" =>
    [{ target := source, name := .name "default", localName := some (doc.textOf part)
       depth := depth }]
  | "namespace_import" =>
    [{ target := source, name := .whole, localName := part.firstProper?.map doc.textOf
       depth := depth }]
  | "named_imports" =>
    (part.proper.filterMap doc.aliased).map fun (name, localName) =>
      { target := source, name := .name (unquoted name), localName := localName, depth := depth }
  | _ => []

/-- The import of a clause such as `import x = require("m")`. -/
def requireClauseForms (doc : Document) (clause : Tree) : List ImportForm :=
  (doc.sourceModule? clause).toList.map fun target =>
    { target := target, name := .whole
      localName := (clause.proper.find? (·.kind == "identifier")).map doc.textOf
      depth := pathDepth target }

/-- The imports of a script statement. -/
def scriptImports (doc : Document) (t : Tree) : List ImportForm :=
  if t.kind == "export_statement" then (doc.sourceModule? t).elim [] (doc.exportForms t)
  else
    match t.proper.find? (·.kind == "import_require_clause") with
    | some clause => doc.requireClauseForms clause
    | none =>
      match doc.sourceModule? t, t.proper.find? (·.kind == "import_clause") with
      | none, _ => []
      | some source, none => [{ target := source, name := .whole, depth := pathDepth source }]
      | some source, some clause => clause.proper.flatMap (doc.clauseForms source)

/-- The module that a call of `require` with one string names. -/
def requiredModule? (doc : Document) (t : Tree) : Option String := do
  let function ← t.field? "function"
  if function.kind ≠ "identifier" || doc.textOf function ≠ "require" then none
  let arguments ← t.field? "arguments"
  match arguments.proper with
  | [only] => if only.kind = "string" then some (unquoted (doc.textOf only)) else none
  | _ => none

/-- The import of one property of a destructured module. -/
def propertyForm? (doc : Document) (source : String) (property : Tree) : Option ImportForm :=
  let depth := pathDepth source
  match property.kind with
  | "shorthand_property_identifier_pattern" =>
    some { target := source, name := .name (doc.textOf property), depth := depth }
  | "pair_pattern" =>
    (doc.fieldText? property "key").map fun key =>
      { target := source, name := .name (unquoted key)
        localName := ((property.field? "value").filter (·.kind == "identifier")).map doc.textOf
        depth := depth }
  | _ => none

/-- The imports of a call of `require`, by what its result is bound to. -/
def requireForms (doc : Document) (parent : Option Tree) (source : String) : List ImportForm :=
  let depth := pathDepth source
  let bound := (parent.filter (·.kind == "variable_declarator")).bind (Tree.field? "name")
  match bound.map fun name => (name, name.kind) with
  | some (name, "identifier") =>
    [{ target := source, name := .whole, localName := some (doc.textOf name), depth := depth }]
  | some (pattern, "object_pattern") => pattern.proper.filterMap (doc.propertyForm? source)
  | _ => [{ target := source, name := .whole, depth := depth }]

/-- The imports of an include or a using declaration. -/
def includeForms (doc : Document) (t : Tree) : List ImportForm :=
  if t.kind == "preproc_include" then
    (t.field? "path").toList.map fun path =>
      let spec := unquoted (doc.textOf path)
      let depth := if path.kind == "system_lib_string" then 0 else includeDepth spec
      { target := spec, name := .wildcard, depth := depth }
  else
    t.proper.getLast?.toList.map fun target =>
      if t.children.any (·.kind == "namespace") then
        { target := doc.textOf target, name := .wildcard }
      else qualifiedImport "::" (doc.textOf target)

/-- The imports that a node is by itself, given its parent. A Rust module without a body is a file
beside this one. -/
def ownImports (doc : Document) (parent : Option Tree) (t : Tree) : List ImportForm :=
  if doc.role t = .importLike then
    match doc.language with
    | .python => doc.pythonImports t
    | .rust => doc.rustImports t
    | .go => doc.goImports t
    | .java => doc.javaImports t
    | .javaScript | .typeScript | .tsx => doc.scriptImports t
    | .c | .cpp => doc.includeForms t
  else if t.kind == "call_expression" && doc.language.isScript then
    (doc.requiredModule? t).elim [] (doc.requireForms parent)
  else if t.kind == "mod_item" && (t.field? "body").isNone then
    (doc.fieldText? t "name").toList.map fun name => { target := name, name := .whole, depth := 1 }
  else []

mutual

/-- The imports of a tree in source order. -/
def importsBelow (doc : Document) (parent : Option Tree) : Tree → List ImportFact
  | .node label children =>
    let t := Tree.node label children
    (doc.ownImports parent t).map (·.placed (doc.extent t)) ++ importsAmong doc t children

/-- The imports of those of several trees that carry meaning. -/
def importsAmong (doc : Document) (parent : Tree) : List Tree → List ImportFact
  | [] => []
  | t :: ts =>
    (if t.isProper then importsBelow doc (some parent) t else []) ++ importsAmong doc parent ts

end

/-- The imports of a document. -/
def imports (doc : Document) : List ImportFact := doc.importsBelow none doc.tree

end Document

end CodeAtlas
