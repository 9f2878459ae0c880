import CodeAtlas.Format.Yaml.Printer
import CodeAtlas.Graph.Preorder
import CodeAtlas.Graph.Snapshot

/-!
# Querying a graph

A finished graph holds the records of a unit and an index over them: modules by path, symbols by
name, and for each symbol and module the edges that lead to it. Queries answer with the records in
the order of their identities, and with nothing for an identity that does not exist.
-/

namespace CodeAtlas

/-- Look-up structures over the records of a graph. -/
structure Index where
  /-- Modules by the components of their path. -/
  byPath : List (List Path.Component × Nat) := []
  /-- Symbols by name, in the order of their identities. -/
  byName : List (String × List Nat) := []
  /-- For each symbol the calls that lead to it. -/
  callsTo : List (List Nat) := []
  /-- For each module the written imports that lead to it. -/
  importsTo : List (List Nat) := []
deriving DecidableEq, Inhabited

namespace Index

/-- Add an identity to those under a name. -/
def addName (name : String) (id : Nat) : List (String × List Nat) → List (String × List Nat)
  | [] => [(name, [id])]
  | (other, ids) :: rest =>
    if other = name then (other, ids ++ [id]) :: rest else (other, ids) :: addName name id rest

/-- Add an identity to one of several buckets. -/
def addTo (buckets : List (List Nat)) (bucket : Option Nat) (id : Nat) : List (List Nat) :=
  bucket.elim buckets fun b => buckets.modify b (· ++ [id])

/-- The index over records. -/
def ofRecords (s : Snapshot) : Index where
  byPath := s.modules.map fun m => (m.path.components, m.id)
  byName := s.symbols.foldl (fun acc x => addName x.name x.id acc) []
  callsTo := s.calls.foldl (fun acc c => addTo acc c.target.symbol? c.id)
    (List.replicate s.symbols.length [])
  importsTo := s.imports.foldl (fun acc e => addTo acc e.importedModule? e.id)
    (List.replicate s.modules.length [])

end Index

/-- A finished graph. -/
structure Graph where
  records : Snapshot
  index : Index
deriving DecidableEq, Inhabited

namespace Graph

/-- Index records into a graph. -/
def ofRecords (s : Snapshot) : Graph := ⟨s, .ofRecords s⟩

/-- The graph of linked tables. -/
def ofTables (tables : Tables) : Graph :=
  ofRecords
    { modules := tables.modules
      symbols := tables.symbols.toList
      imports := tables.imports
      calls := tables.calls
      diagnostics := tables.diagnostics
      stats := tables.stats }

/-- The graph without any facts. -/
def empty : Graph := ofRecords {}

/-- The module with an identity. -/
def module? (g : Graph) (id : Nat) : Option Module := g.records.modules[id]?

/-- The symbol with an identity. -/
def symbol? (g : Graph) (id : Nat) : Option Symbol := g.records.symbols[id]?

/-- The module of a path. -/
def moduleByPath? (g : Graph) (path : Path) : Option Module :=
  (g.index.byPath.lookup path.components).bind g.module?

/-- The symbols with these identities. -/
def symbolsAt (g : Graph) (ids : List Nat) : List Symbol := ids.filterMap g.symbol?

/-- The symbols with a name. -/
def findSymbols (g : Graph) (name : String) : List Symbol :=
  g.symbolsAt ((g.index.byName.lookup name).getD [])

/-- All symbols of a module. -/
def symbolsInModule (g : Graph) (module : Nat) : List Symbol :=
  g.records.symbols.filter (·.module == module)

/-- The symbols at the level of a module. -/
def topLevelSymbols (g : Graph) (module : Nat) : List Symbol :=
  g.symbolsAt ((g.module? module).elim [] (·.symbols))

/-- The symbols directly in a symbol. -/
def childrenOf (g : Graph) (symbol : Nat) : List Symbol :=
  g.symbolsAt ((g.symbol? symbol).elim [] (·.children))

/-- Calls without a target in the unit or in the language. -/
def unresolvedCalls (g : Graph) : List CallEdge :=
  g.records.calls.filter fun c => !c.target.isResolved

/-- Calls bound by an import from outside of the unit. -/
def externalCalls (g : Graph) : List CallEdge := g.records.calls.filter (·.target.isExternal)

/-- Calls of a kind. -/
def callsByKind (g : Graph) (kind : CallKind) : List CallEdge :=
  g.records.calls.filter (·.kind == kind)

/-- Calls made directly in a symbol. -/
def callsFrom (g : Graph) (symbol : Nat) : List CallEdge :=
  g.records.calls.filter (·.caller == some symbol)

/-- Calls that lead to a symbol. -/
def callsTo (g : Graph) (symbol : Nat) : List CallEdge :=
  ((g.index.callsTo[symbol]?).getD []).filterMap fun id => g.records.calls[id]?

/-- Calls in a module. -/
def callsInModule (g : Graph) (module : Nat) : List CallEdge :=
  g.records.calls.filter (·.module == module)

/-- Imports of a module, written and derived. -/
def importsOf (g : Graph) (module : Nat) : List ImportEdge :=
  g.records.imports.filter (·.module == module)

/-- Written imports that lead to a module. -/
def importersOf (g : Graph) (module : Nat) : List ImportEdge :=
  ((g.index.importsTo[module]?).getD []).filterMap fun id => g.records.imports[id]?

/-- Imports from outside of the unit. -/
def externalImports (g : Graph) : List ImportEdge := g.records.imports.filter (·.isExternal)

/-- Wildcards from outside of the unit. -/
def unexpandableImports (g : Graph) : List ImportEdge :=
  g.records.imports.filter (·.isUnexpandable)

/-- The modules that a module imports. -/
def importedModules (g : Graph) (module : Nat) : List Nat :=
  (g.importsOf module).filterMap (·.importedModule?)

/-- The modules that can be reached from a module in one or more imports. -/
def reachableModules (g : Graph) (module : Nat) : List Nat :=
  preorder g.importedModules (List.range g.records.modules.length) (g.importedModules module)

/-- For each module the modules that can be reached from it. -/
def reachTable (g : Graph) : List (List Nat) :=
  (List.range g.records.modules.length).map g.reachableModules

/-- Does each of two modules reach the other? -/
def connected (table : List (List Nat)) (a b : Nat) : Bool :=
  ((table[a]?).getD []).contains b && ((table[b]?).getD []).contains a

/-- The modules that import each other with a module, in the order of their identities. -/
def cycleAt (table : List (List Nat)) (module : Nat) : List Nat :=
  (List.range table.length).filter (connected table module)

/-- The groups of modules that import each other, each listed once, at its first member. A module
that imports itself is a group. -/
def importCycles (g : Graph) : List (List Nat) :=
  let table := g.reachTable
  (List.range table.length).filterMap fun m =>
    let cycle := cycleAt table m
    if cycle.head? = some m then some cycle else none

/-- The graph as indented JSON. -/
def toJsonText (g : Graph) : String := g.records.toJson.pretty 0

/-- The graph as YAML. -/
def toYamlText (g : Graph) : String := Yaml.print g.records.toJson

end Graph

end CodeAtlas
