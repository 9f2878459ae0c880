import CodeAtlas.Graph.Basic
import CodeAtlas.Language.Grammar

/-!
# Tables of a unit

The records of a unit while they are being linked, and how they are filled from the facts of its
files. Files are taken in the order of their paths; of several files with one path the first
counts. Declarations, imports and calls keep their order and are numbered through.
-/

namespace CodeAtlas

/-- The records of a unit. -/
structure Tables where
  modules : List Module := []
  symbols : Array Symbol := #[]
  /-- For each symbol the name by which it refers to its instance, if it chooses one. -/
  receiverNames : Array (Option String) := #[]
  imports : List ImportEdge := []
  calls : List CallEdge := []
  diagnostics : List Diagnostic := []
deriving DecidableEq, Inhabited

/-- Leave out the files that repeat the path of the file before them. -/
def dropSamePath (previous : FileFacts) : List FileFacts → List FileFacts
  | [] => []
  | file :: rest =>
    if file.path.same previous.path then dropSamePath previous rest
    else file :: dropSamePath file rest

/-- Leave out all but the first file of each path, in a list sorted by path. -/
def distinctPaths : List FileFacts → List FileFacts
  | [] => []
  | file :: rest => file :: dropSamePath file rest

/-- The files in the order of their paths, each path once. -/
def orderedFiles (files : List FileFacts) : List FileFacts :=
  distinctPaths (files.mergeSort fun a b => a.path.le b.path)

namespace Tables

/-- The positions of the declarations with a given parent. -/
def childrenOf (declarations : List Declaration) (parent : Option Nat) : List Nat :=
  (declarations.zipIdx.filter fun (d, _) => d.parent == parent).map (·.2)

/-- The symbol for a declaration of a module, when `base` symbols come before the module's. -/
def symbolOf (module base : Nat) (declarations : List Declaration) (d : Declaration) (index : Nat) :
    Symbol where
  id := base + index
  name := d.name
  kind := d.kind
  module := module
  parent := d.parent.map (base + ·)
  visibility := d.visibility
  decorators := d.decorators
  parameters := d.parameters
  returnType := d.returnType
  bases := d.bases
  children := (childrenOf declarations (some index)).map (base + ·)
  extent := d.extent
  profile := d.profile

/-- The edge for an import of a module. -/
def importOf (module id : Nat) (i : ImportFact) : ImportEdge where
  id := id
  module := module
  target := i.target
  name := i.name
  localName := i.localName
  depth := i.depth
  extent := i.extent

/-- The edge for a call of a module, when `base` symbols come before the module's. -/
def callOf (module base id : Nat) (c : CallFact) : CallEdge where
  id := id
  module := module
  caller := c.caller.map (base + ·)
  callee := c.callee
  name := c.name
  receiver := c.receiver
  kind := c.kind
  arguments := c.arguments
  decorates := c.decorates.map (base + ·)
  extent := c.extent

/-- Add the facts of a file. -/
def addFile (tables : Tables) (file : FileFacts) : Tables :=
  let module := tables.modules.length
  let base := tables.symbols.size
  { tables with
    modules := tables.modules ++
      [{ id := module
         path := file.path
         place := .ofPath file.path file.language
         language := file.language
         contentHash := file.contentHash
         symbols := (childrenOf file.declarations none).map (base + ·) }]
    symbols := tables.symbols ++ file.declarations.zipIdx.map fun (d, index) =>
      symbolOf module base file.declarations d index
    receiverNames := tables.receiverNames ++ file.declarations.map (·.receiverName)
    imports := tables.imports ++
      (file.imports.zipIdx tables.imports.length).map fun (i, id) => importOf module id i
    calls := tables.calls ++
      (file.calls.zipIdx tables.calls.length).map fun (c, id) => callOf module base id c }

/-- The tables of a list of files. -/
def ofFiles (files : List FileFacts) : Tables := (orderedFiles files).foldl addFile {}

/-- Is the symbol a class? -/
def isClass (tables : Tables) (id : Nat) : Bool := tables.symbols[id]?.any (·.isClass)

/-- Does the symbol have the name? -/
def isNamed (tables : Tables) (name : String) (id : Nat) : Bool :=
  tables.symbols[id]?.any (·.name == name)

/-- The grammar of a module's language. -/
def grammar (tables : Tables) (module : Nat) : Grammar :=
  ((tables.modules[module]?).getD default).language.grammar

/-- The modules that a module in the given language can import and whose key satisfies a
condition. -/
def modulesWhere (tables : Tables) (lang : Language) (p : List String → Bool) : List Module :=
  tables.modules.filter fun m => m.language.sharesModulesWith lang && p m.key

/-- The first module with a key. -/
def moduleAt? (tables : Tables) (lang : Language) (key : List String) : Option Nat :=
  ((tables.modulesWhere lang (· == key)).head?).map (·.id)

/-- The module with a name directly below another module. -/
def submodule? (tables : Tables) (module : Nat) (name : String) : Option Nat :=
  tables.modules[module]?.bind fun m => tables.moduleAt? m.language (m.place.segments ++ [name])

/-- The symbols at the level of a module. The files of a Go package share theirs. -/
def topLevel (tables : Tables) (module : Nat) : List Nat :=
  match tables.modules[module]? with
  | none => []
  | some m =>
    if m.language = .go then
      (tables.modules.filter fun n => n.language == .go && n.key == m.key).flatMap (·.symbols)
    else m.symbols

/-- The symbols with a name at the level of a module. -/
def topLevelNamed (tables : Tables) (module : Nat) (name : String) : List Nat :=
  (tables.topLevel module).filter (tables.isNamed name)

/-- The symbols with a name directly in a symbol. -/
def childrenNamed (tables : Tables) (parent : Nat) (name : String) : List Nat :=
  (tables.symbols[parent]?.elim [] (·.children)).filter (tables.isNamed name)

/-- The first symbol with a name directly in a symbol. -/
def childNamed? (tables : Tables) (parent : Nat) (name : String) : Option Nat :=
  (tables.symbols[parent]?.elim [] (·.children)).find? (tables.isNamed name)

/-- At most `limit` symbols from a symbol outwards. -/
def outwards (tables : Tables) : (limit : Nat) → Option Nat → List Nat
  | 0, _ => []
  | _, none => []
  | limit + 1, some id => id :: outwards tables limit (tables.symbols[id]?.bind (·.parent))

/-- The symbols around a place, innermost first. -/
def scopeChain (tables : Tables) (caller : Option Nat) : List Nat :=
  tables.outwards tables.symbols.size caller

/-- The innermost class around a place. -/
def enclosingClass? (tables : Tables) (caller : Option Nat) : Option Nat :=
  (tables.scopeChain caller).find? tables.isClass

/-- Is the receiver the instance of a method around the place? -/
def isOwnReceiver (tables : Tables) (caller : Option Nat) (receiver : String) : Bool :=
  (tables.scopeChain caller).any fun id => tables.receiverNames[id]? == some (some receiver)

end Tables

end CodeAtlas
