import CodeAtlas.Config.Basic
import CodeAtlas.Graph.Imports
import CodeAtlas.Graph.Preorder
import CodeAtlas.Text.Qualified

/-!
# Looking names up

What a name or a qualified name means at a place. Declarations around the place come first,
innermost first and with the members that an enclosing class inherits, then the level of the module,
then the aliases of imports, then builtins. Inherited members are found by a depth-first search of
the base classes, which ends also when classes inherit from each other in a circle.
-/

namespace CodeAtlas

/-- What a name refers to. -/
inductive Meaning where
  | symbol (id : Nat)
  | module (id : Nat)
  | external (name : String)
  | builtin (name : String)
  | unknown
deriving DecidableEq

namespace Tables

/-- The separator of qualified names in a module. -/
def separator (tables : Tables) (module : Nat) : String := (tables.grammar module).separator

/-- The name outside of the unit that an import stands for. -/
def externalName (tables : Tables) (edge : ImportEdge) : String :=
  match edge.name with
  | .name name => edge.target ++ tables.separator edge.module ++ name
  | _ => edge.target

/-- The first import that binds an alias in a module; written imports come before derived ones. -/
def aliasEdge? (tables : Tables) (module : Nat) (localName : String) : Option ImportEdge :=
  tables.imports.find? fun e => e.module == module && !e.isWildcard && e.localName == localName

/-- What an import stands for. -/
def meaningOf (tables : Tables) (edge : ImportEdge) : Meaning :=
  match edge.binding, edge.status with
  | some (.symbol id), _ => .symbol id
  | some (.module id), _ => .module id
  | none, .external => .external (tables.externalName edge)
  | none, _ => .unknown

/-- What an alias stands for in a module, if an import binds it. -/
def aliasMeaning? (tables : Tables) (module : Nat) (localName : String) : Option Meaning :=
  (tables.aliasEdge? module localName).map tables.meaningOf

/-- What the longest beginning of a qualified name that is an alias stands for, and the segments
after it; the segments are tried from `length` downwards. -/
def longestAliasUpTo (tables : Tables) (module : Nat) (segments : List String) :
    (length : Nat) → Option (Meaning × List String)
  | 0 => none
  | length + 1 =>
    let localName := Text.joinWith (tables.separator module) (segments.take (length + 1))
    match tables.aliasMeaning? module localName with
    | some meaning => some (meaning, segments.drop (length + 1))
    | none => longestAliasUpTo tables module segments length

/-- What the longest beginning of a qualified name that is an alias stands for, and the segments
after it. -/
def longestAlias? (tables : Tables) (module : Nat) (segments : List String) :
    Option (Meaning × List String) :=
  tables.longestAliasUpTo module segments segments.length

/-- What a segment after a module means: a submodule, or else a symbol. -/
def memberOfModule (tables : Tables) (module : Nat) (segment : String) : Meaning :=
  match tables.submodule? module segment with
  | some sub => .module sub
  | none => (tables.topLevelNamed module segment).head?.elim .unknown .symbol

/-- What a segment after the name of a base class means; inheritance has no part in it. -/
def baseStep (tables : Tables) (meaning : Meaning) (segment : String) : Meaning :=
  match meaning with
  | .symbol id =>
    if tables.isClass id then (tables.childNamed? id segment).elim .unknown .symbol else .unknown
  | .module m => tables.memberOfModule m segment
  | _ => .unknown

/-- The symbol that the name of a base class means at a scope of a module. -/
def baseNamed? (tables : Tables) (module : Nat) (scope : Option Nat) (path : String) : Option Nat :=
  let segments := Text.segments path
  match segments with
  | [] => none
  | first :: rest =>
    let declared := ((tables.scopeChain scope).findSome? fun s => tables.childNamed? s first).or
      (tables.topLevelNamed module first).head?
    let start := (declared.map fun id => (Meaning.symbol id, rest)).or
      (tables.longestAlias? module segments)
    match start with
    | none => none
    | some (meaning, rest) =>
      match rest.foldl tables.baseStep meaning with
      | .symbol id => some id
      | _ => none

/-- The base classes of a class that the unit declares. -/
def baseClasses (tables : Tables) (id : Nat) : List Nat :=
  match tables.symbols[id]? with
  | none => []
  | some s =>
    (s.bases.filterMap (tables.baseNamed? s.module s.parent)).filter fun base =>
      base != id && tables.isClass base

/-- The classes from which a class inherits, in the order in which members are looked up. -/
def ancestors (tables : Tables) (id : Nat) : List Nat :=
  preorder tables.baseClasses ((List.range tables.symbols.size).erase id) (tables.baseClasses id)

/-- The member that a class inherits under a name. -/
def inherited? (tables : Tables) (config : ResolutionConfig) (id : Nat) (name : String) :
    Option Nat :=
  if config.walkBases then
    (tables.ancestors id).findSome? fun ancestor => tables.childNamed? ancestor name
  else none

/-- The member that a class declares or inherits under a name. -/
def member? (tables : Tables) (config : ResolutionConfig) (id : Nat) (name : String) : Option Nat :=
  (tables.childNamed? id name).or (tables.inherited? config id name)

/-- The names under which the initializer of a class is declared. -/
def initializerNames (tables : Tables) (s : Symbol) : List String :=
  let g := tables.grammar s.module
  g.initializers ++ if g.classNamedInitializer then [s.name] else []

/-- Is the symbol a function or a method? -/
def isCallable (tables : Tables) (id : Nat) : Bool :=
  tables.symbols[id]?.any fun s => s.kind == .method || s.kind == .function

/-- The function that initializes instances of a class. -/
def initializer? (tables : Tables) (config : ResolutionConfig) (id : Nat) : Option Nat :=
  tables.symbols[id]?.bind fun s =>
    (tables.initializerNames s).findSome? fun name =>
      (tables.member? config id name).filter tables.isCallable

/-- What constructing a class calls: its initializer, or the class itself. -/
def constructorTarget (tables : Tables) (config : ResolutionConfig) (id : Nat) : CallTarget :=
  .symbol ((tables.initializer? config id).getD id)

/-- The symbols that a scope offers under a name: those declared in it, or else the one that it
inherits. -/
def scopeHits (tables : Tables) (config : ResolutionConfig) (name : String) (scope : Nat) :
    List Nat :=
  let declared := tables.childrenNamed scope name
  if declared.isEmpty && tables.isClass scope then (tables.inherited? config scope name).toList
  else declared

/-- The first non-empty list. -/
def firstNonEmpty : List (List Nat) → List Nat
  | [] => []
  | hits :: rest => if hits.isEmpty then firstNonEmpty rest else hits

/-- The symbols that the nearest scope with the name offers. -/
def localHits (tables : Tables) (config : ResolutionConfig) (module : Nat) (caller : Option Nat)
    (name : String) : List Nat :=
  firstNonEmpty ((tables.scopeChain caller).map (tables.scopeHits config name) ++
    [tables.topLevelNamed module name])

/-- The symbol that a name means by declarations alone. Several in one scope are a doubt. -/
def lookupLocal (tables : Tables) (config : ResolutionConfig) (module : Nat) (caller : Option Nat)
    (name : String) : Judged (Option Nat) :=
  let hits := tables.localHits config module caller name
  (hits.head?,
    if hits.length > 1 then
      [⟨module, "'" ++ name ++ "' matches " ++ Nat.repr hits.length ++
        " declarations in one scope"⟩]
    else [])

/-- Is the name a builtin in a module? -/
def isBuiltin (tables : Tables) (config : ResolutionConfig) (module : Nat) (name : String) : Bool :=
  (tables.grammar module).isBuiltin name || config.extraBuiltins.contains name

/-- What a bare name means. -/
def lookupName (tables : Tables) (config : ResolutionConfig) (module : Nat) (caller : Option Nat)
    (name : String) : Judged Meaning :=
  let (found, doubts) := tables.lookupLocal config module caller name
  match found with
  | some id => (.symbol id, doubts)
  | none =>
    match tables.aliasMeaning? module name with
    | some meaning => (meaning, doubts)
    | none => (if tables.isBuiltin config module name then .builtin name else .unknown, doubts)

/-- What a segment after a meaning means; members are inherited. -/
def pathStep (tables : Tables) (config : ResolutionConfig) (module : Nat) (meaning : Meaning)
    (segment : String) : Meaning :=
  match meaning with
  | .symbol id =>
    if tables.isClass id then (tables.member? config id segment).elim .unknown .symbol
    else .unknown
  | .module m => tables.memberOfModule m segment
  | .external name => .external (name ++ tables.separator module ++ segment)
  | _ => .unknown

/-- Does a segment hold more than a name? -/
def isExpression (segment : String) : Bool :=
  Text.containsAny ['(', ')', '<', '[', ' ', '\x22', '\x27'] segment

/-- What a qualified name means. A builtin has no members. -/
def lookupPath (tables : Tables) (config : ResolutionConfig) (module : Nat) (caller : Option Nat)
    (path : String) : Judged Meaning :=
  let segments := Text.segments path
  match segments with
  | [] => (.unknown, [])
  | first :: rest =>
    if segments.any isExpression then (.unknown, [])
    else
      let (found, doubts) := tables.lookupLocal config module caller first
      match found, tables.longestAlias? module segments with
      | some id, _ => (rest.foldl (tables.pathStep config module) (.symbol id), doubts)
      | none, some (meaning, rest) =>
        (rest.foldl (tables.pathStep config module) meaning, doubts)
      | none, none =>
        (if tables.isBuiltin config module first then .builtin first else .unknown, doubts)

end Tables

end CodeAtlas
