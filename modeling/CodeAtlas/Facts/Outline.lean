import CodeAtlas.Facts.Decorators
import CodeAtlas.Facts.Profile
import CodeAtlas.Facts.Signature

/-!
# The outline of a file

One walk over the syntax tree that records every declaration under the innermost declaration around
it. What surrounds a node is passed down and what has been found is passed along, so the walk
restores nothing on its way back.

Functions, classes and script variables that hold a function open a scope. Variables are recorded
at the level of the module only. In C and C++ a declaration without a body is a prototype.
-/

namespace CodeAtlas

/-- A declaration of an outline. -/
structure Entry where
  declaration : Declaration
  /-- Is it a C or C++ declaration without a body? -/
  isPrototype : Bool := false
deriving DecidableEq, Inhabited

/-- What a walk has found so far. -/
structure Outline where
  entries : List Entry := []
  /-- The entries that open a scope by the range of their node, the latest first. -/
  scopes : List ((Nat × Nat) × Nat) := []
  /-- The calls made by decorators. -/
  decoratorCalls : List CallFact := []
  /-- The traits that blocks of methods implement, by the name of the type. -/
  traits : List (String × String) := []
deriving Inhabited

/-- What surrounds a node. -/
structure Surroundings where
  /-- The innermost declaration around the node. -/
  enclosing : Option Nat := none
  /-- Is the innermost declaration a class? -/
  inClass : Bool := false
  /-- The type whose methods the node is among, unless a declaration stands in between. -/
  owner : Option String := none
  /-- Is the node inside of a lambda or a comprehension? -/
  anonymous : Bool := false
  /-- The way to the root. -/
  spine : Tree.Spine := []

namespace Surroundings

/-- Is the node at the level of the module? -/
def atModuleLevel (env : Surroundings) : Bool :=
  env.enclosing.isNone && env.owner.isNone && !env.anonymous

/-- The surroundings inside of the entry with an index. -/
def inside (env : Surroundings) (index : Nat) (isClass : Bool) : Surroundings :=
  { env with enclosing := some index, inClass := isClass }

/-- The surroundings of a child. -/
def below (env : Surroundings) (parent : Tree) (earlier : List Tree) : Surroundings :=
  { env with spine := ⟨parent, earlier⟩ :: env.spine }

end Surroundings

/-- What a walk does at a node. -/
inductive Visit where
  /-- Look at the node. -/
  | look
  /-- The node is declared with these decorators. -/
  | declare (decorators : List Tree)
  /-- Look at the children of the node. -/
  | enter
  /-- Look at the children of the first child in a field. -/
  | enterField (name : String)
  /-- Look at the children of the expression inside of the node's wrappers. -/
  | enterValue

/-- What a declaration node declares. -/
structure Header where
  name : String
  owner : Option String := none
  receiverName : Option String := none

namespace Outline

/-- The index of the next entry. -/
def next (out : Outline) : Nat := out.entries.length

/-- Is there a variable with the name? -/
def hasVariable (out : Outline) (name : String) : Bool :=
  out.entries.any fun e => e.declaration.kind == .var && e.declaration.name == name

/-- Add an entry. -/
def add (out : Outline) (entry : Entry) : Outline := { out with entries := out.entries ++ [entry] }

/-- Let the latest entry open a scope at a node. -/
def opening (out : Outline) (t : Tree) : Outline :=
  { out with scopes := (t.range, out.entries.length - 1) :: out.scopes }

end Outline

namespace Document

/-- The function that a script variable is initialized with. -/
def functionValue? (doc : Document) (t : Tree) : Option Tree :=
  if t.kind == "variable_declarator" then
    ((t.field? "value").map doc.unwrap).filter fun value => doc.role value == .lambda
  else none

/-- Can the node open a scope? -/
def opensScope (doc : Document) (t : Tree) : Bool :=
  match doc.role t with
  | .function | .classLike => true
  | .var => (doc.functionValue? t).isSome
  | _ => false

/-- A declaration with the profile that its node gives it. -/
def profiled (doc : Document) (t : Tree) (env : Surroundings) (d : Declaration) : Declaration :=
  { d with profile := doc.profileOf t env.spine d }

/-- The type and the name that the receiver of a Go method declares. -/
def receiverOf (doc : Document) (t : Tree) : Option String × Option String :=
  match (t.field? "receiver").bind Tree.firstProper? with
  | none => (none, none)
  | some parameter =>
    ((doc.fieldText? parameter "type").map fun type =>
      Text.withoutGenerics (Text.trimStartChar '*' type), doc.fieldText? parameter "name")

/-- What a function or class node declares, if it declares anything. A C class needs a body and a
C function a function declarator. -/
def header? (doc : Document) (t : Tree) : Option Header :=
  if doc.language.isCFamily then
    if doc.role t = .classLike then do
      let _ ← t.field? "body"
      let name ← doc.fieldText? t "name"
      some { name := Text.lastSegment (Text.withoutGenerics name) }
    else do
      let declarator ← t.field? "declarator"
      let (_, declared) ← doc.declaredFunction? declarator
      some { name := declared.name, owner := declared.owner }
  else do
    let name ← doc.fieldText? t "name"
    if t.kind == "method_declaration" && doc.language = .go then
      let (owner, receiverName) := doc.receiverOf t
      some { name := name, owner := owner, receiverName := receiverName }
    else some { name := name }

/-- The declaration of a function or class node. -/
def declarationOf (doc : Document) (t : Tree) (env : Surroundings) (decorators : List Decorator)
    (header : Header) : Declaration :=
  let isClass := doc.role t = .classLike
  let owner := header.owner.or env.owner
  let kind : SymbolKind :=
    if isClass then .classLike else if owner.isSome || env.inClass then .method else .function
  doc.profiled t env
    { name := header.name
      kind := kind
      parent := env.enclosing
      visibility := .ofName header.name
      decorators := decorators
      parameters := doc.parameters t
      returnType := doc.returnType t
      bases := if isClass then doc.bases t else []
      owner := owner
      receiverName := header.receiverName
      extent := doc.extent t }

/-- Record a function or class node. -/
def addDeclared (doc : Document) (t : Tree) (env : Surroundings) (decorators : List Tree)
    (header : Header) (out : Outline) : Outline :=
  let facts := decorators.map doc.decoratorFact
  let calls := facts.filterMap (·.2)
  let declared := (out.add ⟨doc.declarationOf t env (facts.map (·.1)) header, false⟩).opening t
  { declared with
    decoratorCalls := out.decoratorCalls ++ calls.map fun call =>
      { call with caller := env.enclosing, decorates := some out.next } }

/-- Record a variable at the level of the module, unless its name is taken. -/
def addVariable (doc : Document) (t : Tree) (env : Surroundings) (out : Outline) (name : String) :
    Outline :=
  if !env.atModuleLevel || out.hasVariable name then out
  else
    out.add ⟨doc.profiled t env
      { name := name, kind := .var, parent := none, visibility := .ofName name
        extent := doc.extent t }, false⟩

/-- The names that the left side of an assignment binds. -/
def patternNames (doc : Document) (pattern : Tree) : List String :=
  match pattern.kind with
  | "identifier" => [doc.textOf pattern]
  | "pattern_list" | "tuple_pattern" | "list_pattern" =>
    (pattern.proper.filter (·.kind == "identifier")).map doc.textOf
  | _ => []

/-- Record a prototype. -/
def addPrototype (doc : Document) (t : Tree) (env : Surroundings) (function : Tree)
    (declared : DeclaredName) (out : Outline) : Outline :=
  out.add ⟨doc.profiled t env
    { name := declared.name
      kind := if env.inClass || declared.owner.isSome then .method else .function
      parent := env.enclosing
      visibility := .ofName declared.name
      parameters := doc.parameterList (function.field? "parameters")
      returnType := (doc.fieldText? t "type").map Text.collapse
      owner := declared.owner
      extent := doc.extent t }, true⟩

/-- Record one declarator of a C declaration: a prototype, or a variable of the module. -/
def addDeclarator (doc : Document) (t : Tree) (env : Surroundings) (out : Outline)
    (declarator : Tree) : Outline :=
  match doc.declaredFunction? declarator with
  | some (function, declared) => doc.addPrototype t env function declared out
  | none =>
    if !env.inClass && t.kind == "declaration" then
      (doc.declaratorIdentifier? declarator).elim out (doc.addVariable t env out)
    else out

/-- The names of the variables that a node declares, C declarations apart. -/
def variableNames (doc : Document) (t : Tree) : List String :=
  match t.kind with
  | "assignment" => (t.field? "left").elim [] doc.patternNames
  | "variable_declarator" =>
    ((t.field? "name").filter (·.kind == "identifier")).toList.map doc.textOf
  | "const_item" | "static_item" => (doc.fieldText? t "name").toList
  | "var_spec" | "const_spec" => (t.inFields "name").map doc.textOf
  | _ => []

/-- Record the variables and prototypes that a node declares. C declarations count in the body of a
class and at the level of the module. -/
def addVariables (doc : Document) (t : Tree) (env : Surroundings) (out : Outline) : Outline :=
  match t.kind with
  | "declaration" | "field_declaration" =>
    if env.inClass || env.atModuleLevel then
      (t.inFields "declarator").foldl (doc.addDeclarator t env) out
    else out
  | _ => (doc.variableNames t).foldl (doc.addVariable t env) out

/-- Record a script variable that holds a function. -/
def addFunctionValue (doc : Document) (t value : Tree) (env : Surroundings) (name : String)
    (out : Outline) : Outline :=
  (out.add ⟨doc.profiled t env
    { name := name
      kind := .function
      parent := env.enclosing
      visibility := .ofName name
      parameters := doc.parameters value
      returnType := doc.returnType value
      extent := doc.extent t }, false⟩).opening t

/-- The aggregate that a type definition names: a class without a name of its own but with a
body. -/
def namedAggregate? (doc : Document) (t : Tree) : Option (Tree × String) := do
  if t.kind ≠ "type_definition" then none
  let aggregate ← t.field? "type"
  if doc.role aggregate ≠ .classLike || (aggregate.field? "name").isSome then none
  let _ ← aggregate.field? "body"
  let declarator ← t.field? "declarator"
  let name ← doc.declaratorIdentifier? declarator
  some (aggregate, name)

/-- Record a named aggregate. -/
def addAggregate (doc : Document) (t aggregate : Tree) (env : Surroundings) (name : String)
    (out : Outline) : Outline :=
  (out.add ⟨doc.profiled t env
    { name := name
      kind := .classLike
      parent := env.enclosing
      visibility := .ofName name
      extent := doc.extent aggregate }, false⟩).opening aggregate

/-- The simple name in a field, without type arguments and qualifiers. -/
def simpleName? (doc : Document) (t : Tree) (field : String) : Option String :=
  (doc.fieldText? t field).map fun text => Text.lastSegment (Text.withoutGenerics text)

/-- Record that a block of methods implements a trait. -/
def addTrait (doc : Document) (t : Tree) (out : Outline) : Outline :=
  match doc.simpleName? t "type", doc.simpleName? t "trait" with
  | some owner, some trait => { out with traits := out.traits ++ [(owner, trait)] }
  | _, _ => out

/-- Looking at a function or class means that it is declared with the decorators attached to it. -/
def refine (doc : Document) (t : Tree) (env : Surroundings) : Visit → Visit
  | .look =>
    if (doc.namedAggregate? t).isNone && (doc.role t == .function || doc.role t == .classLike) then
      .declare (doc.attachedDecorators t env.spine)
    else .look
  | visit => visit

mutual

/-- Walk a tree. -/
def walk (doc : Document) (env : Surroundings) (visit : Visit) : Tree → Outline → Outline
  | .node label children, out =>
    let t := Tree.node label children
    match doc.refine t env visit with
    | .enter => walkAll doc env t [] children out
    | .enterField name =>
      (walkFirst doc env t [] (Tree.inField name) .enter children out).getD out
    | .enterValue =>
      match (doc.grammar.inner? label.kind).bind fun inner =>
          walkFirst doc env t [] inner.selects .enterValue children out with
      | some walked => walked
      | none => walkAll doc env t [] children out
    | .declare decorators =>
      match doc.header? t with
      | none => walkAll doc env t [] children out
      | some header =>
        walkAll doc { env.inside out.next (doc.role t == .classLike) with owner := none } t []
          children (doc.addDeclared t env decorators header out)
    | .look =>
      match doc.namedAggregate? t with
      | some (aggregate, name) =>
        let added := doc.addAggregate t aggregate env name out
        (walkFirst doc (env.inside out.next true) t [] (Tree.inField "type") (.enterField "body")
          children added).getD added
      | none =>
        match doc.role t with
        | .decorated =>
          let decorators := t.proper.filter fun n => doc.role n == .decorator
          (walkFirst doc env t [] (Tree.inField "definition") (.declare decorators) children
            out).getD (walkAll doc env t [] children out)
        | .implBlock =>
          let inner := { env with owner := doc.simpleName? t "type" }
          let added := doc.addTrait t out
          (walkFirst doc inner t [] (Tree.inField "body") .enter children added).getD
            (walkAll doc inner t [] children added)
        | .var =>
          match doc.functionValue? t, doc.fieldText? t "name" with
          | some _, none => out
          | some value, some name =>
            let added := doc.addFunctionValue t value env name out
            (walkFirst doc (env.inside out.next false) t [] (Tree.inField "value") .enterValue
              children added).getD added
          | none, _ => walkAll doc env t [] children (doc.addVariables t env out)
        | .lambda | .comprehension =>
          walkAll doc { env with anonymous := true } t [] children out
        | _ => walkAll doc env t [] children out

/-- Look at several trees in a row. -/
def walkAll (doc : Document) (env : Surroundings) (parent : Tree) (earlier : List Tree) :
    List Tree → Outline → Outline
  | [], out => out
  | t :: ts, out =>
    walkAll doc env parent (t :: earlier) ts (walk doc (env.below parent earlier) .look t out)

/-- Walk the first of several trees that satisfies a condition, if there is one. -/
def walkFirst (doc : Document) (env : Surroundings) (parent : Tree) (earlier : List Tree)
    (selects : Tree → Bool) (visit : Visit) : List Tree → Outline → Option Outline
  | [], _ => none
  | t :: ts, out =>
    if selects t then some (walk doc (env.below parent earlier) visit t out)
    else walkFirst doc env parent (t :: earlier) selects visit ts out

end

/-- The outline of a document. -/
def outline (doc : Document) : Outline := doc.walk {} .look doc.tree {}

end Document

end CodeAtlas
