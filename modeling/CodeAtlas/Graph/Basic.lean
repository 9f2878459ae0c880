import CodeAtlas.Facts.Basic
import CodeAtlas.ModuleName

/-!
# The records of a code graph

The resolved facts of a unit: modules, symbols, import edges and call edges. Records refer to each
other by position, and a record carries its own position as its identity.
-/

namespace CodeAtlas

/-- One file of the unit. -/
structure Module where
  id : Nat
  path : Path
  /-- The logical name and whether the file stands for its directory. -/
  place : Place
  language : Language
  contentHash : String
  /-- The symbols of the module's own level, in the order of declaration. -/
  symbols : List Nat
deriving DecidableEq, Inhabited

namespace Module

/-- The logical name with dots. -/
def logicalName (m : Module) : String :=
  if m.place.segments.isEmpty then "<root>" else Text.joinWith "." m.place.segments

/-- The segments by which a module is imported: the files of a Go package share the name of their
directory. -/
def key (m : Module) : List String :=
  if m.language = .go then m.place.segments.dropLast else m.place.segments

end Module

/-- A named declaration of the unit. -/
structure Symbol where
  id : Nat
  name : String
  kind : SymbolKind
  module : Nat
  /-- The symbol in which it is declared; none at the level of the module. -/
  parent : Option Nat
  visibility : Visibility
  decorators : List Decorator
  parameters : List Parameter
  returnType : Option String
  bases : List String
  /-- The symbols declared directly in it, in the order of declaration. -/
  children : List Nat
  extent : Extent
  profile : Profile
deriving DecidableEq, Inhabited

namespace Symbol

/-- Is the symbol a class? -/
def isClass (s : Symbol) : Bool := s.kind == .classLike

/-- Is the symbol declared at the level of its module? -/
def isTopLevel (s : Symbol) : Bool := s.parent.isNone

end Symbol

/-- What has become of the target of an import. -/
inductive ImportStatus where
  | unresolved
  | resolved (module : Nat)
  /-- The target lies outside of the unit. -/
  | external
deriving DecidableEq, Inhabited

/-- What the alias of an import stands for. -/
inductive ImportBinding where
  | module (id : Nat)
  | symbol (id : Nat)
deriving DecidableEq, Inhabited

/-- An import of a module, written or derived from a wildcard. -/
structure ImportEdge where
  id : Nat
  /-- The importing module. -/
  module : Nat
  target : String
  name : ImportedName
  localName : String
  depth : Nat
  status : ImportStatus := .unresolved
  binding : Option ImportBinding := none
  /-- The wildcard import from which the edge was derived. -/
  expandedFrom : Option Nat := none
  extent : Extent
deriving DecidableEq, Inhabited

namespace ImportEdge

/-- Does the edge import every name? -/
def isWildcard (e : ImportEdge) : Bool := e.name == .wildcard

/-- Does the target lie outside of the unit? -/
def isExternal (e : ImportEdge) : Bool := e.status == .external

/-- Is the edge a wildcard whose names are not known? -/
def isUnexpandable (e : ImportEdge) : Bool := e.isWildcard && e.isExternal

/-- Was the edge derived from a wildcard? -/
def isSynthetic (e : ImportEdge) : Bool := e.expandedFrom.isSome

/-- The module to which a written import leads. -/
def importedModule? (e : ImportEdge) : Option Nat :=
  match e.expandedFrom, e.status with
  | none, .resolved m => some m
  | _, _ => none

/-- An import leads to a module exactly when it is written and resolved to it. -/
theorem importedModule?_eq_some {e : ImportEdge} {m : Nat} :
    e.importedModule? = some m ↔ e.isSynthetic = false ∧ e.status = .resolved m := by
  rw [importedModule?, isSynthetic]
  cases e.expandedFrom <;> cases e.status <;> simp

end ImportEdge

/-- What is called. -/
inductive CallTarget where
  | unresolved
  | symbol (id : Nat)
  | builtin (name : String)
  /-- A name bound by an import from outside of the unit. -/
  | external (name : String)
deriving DecidableEq, Inhabited

namespace CallTarget

/-- Is the target known to the unit or to the language? -/
def isResolved : CallTarget → Bool
  | symbol _ | builtin _ => true
  | _ => false

/-- Does the target lie outside of the unit? -/
def isExternal : CallTarget → Bool
  | external _ => true
  | _ => false

/-- The symbol that is called. -/
def symbol? : CallTarget → Option Nat
  | symbol id => some id
  | _ => none

/-- A call leads to a symbol exactly when that symbol is its target. -/
theorem symbol?_eq_some {target : CallTarget} {id : Nat} :
    target.symbol? = some id ↔ target = .symbol id := by
  cases target <;> simp [symbol?]

end CallTarget

/-- A call in the unit. -/
structure CallEdge where
  id : Nat
  module : Nat
  /-- The innermost symbol around the call. -/
  caller : Option Nat
  callee : String
  name : String
  receiver : Option String
  kind : CallKind
  arguments : Arguments
  target : CallTarget := .unresolved
  /-- The symbol that a decorator call decorates. -/
  decorates : Option Nat
  extent : Extent
deriving DecidableEq, Inhabited

/-- A name with several equally good meanings, of which the first was taken. -/
structure Diagnostic where
  module : Nat
  detail : String
deriving DecidableEq, Inhabited

end CodeAtlas
