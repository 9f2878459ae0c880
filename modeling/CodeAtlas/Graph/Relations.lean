import CodeAtlas.Graph.Query

/-!
# The relationship graph

The modules and symbols of a unit are the nodes of a graph. Its edges lead from a module or a symbol
to what it declares, from a module to each module that it imports, and from a caller to each symbol
that it calls; code outside of all symbols calls in the name of its module. An edge for an import or a
call carries the identity of its record.

Edges that lead to a node are met in any order, so queries along the edges sort what they find. Those
for cycles use an algorithm for strongly connected components.
-/

namespace CodeAtlas

/-- A node of the relationship graph. -/
inductive GraphNode where
  | module (id : Nat)
  | symbol (id : Nat)
deriving DecidableEq, Repr

/-- What an edge of the relationship graph stands for. -/
inductive EdgeKind where
  /-- A module has a symbol at its level. -/
  | defines
  /-- A symbol has a symbol directly in it. -/
  | contains
  /-- A module has a written import that is resolved to a module. -/
  | imports
  /-- A symbol, or a module outside of its symbols, has a call that leads to a symbol. -/
  | calls
deriving DecidableEq, Repr

/-- An edge of the relationship graph. -/
structure GraphEdge where
  source : GraphNode
  target : GraphNode
  kind : EdgeKind
  /-- The import or the call that the edge comes from. -/
  fact : Option Nat := none
deriving DecidableEq, Repr

/-- A graph over modules and symbols. -/
structure RelationGraph where
  nodes : List GraphNode
  edges : List GraphEdge

namespace GraphEdge

/-- The edge to a symbol from the symbol around it, or from its module. -/
def ofSymbol (s : Symbol) : GraphEdge where
  source := s.parent.elim (.module s.module) .symbol
  target := .symbol s.id
  kind := if s.parent.isSome then .contains else .defines

/-- The edge of an import. Derived imports share the edge of the wildcard that they come from. -/
def ofImport? (e : ImportEdge) : Option GraphEdge :=
  e.importedModule?.map fun target =>
    { source := .module e.module, target := .module target, kind := .imports, fact := some e.id }

/-- The edge of a call that leads to a symbol. -/
def ofCall? (c : CallEdge) : Option GraphEdge :=
  c.target.symbol?.map fun target =>
    { source := c.caller.elim (.module c.module) .symbol
      target := .symbol target
      kind := .calls
      fact := some c.id }

/-- The modules that an edge for an import connects. -/
def importArc? (e : GraphEdge) : Option (Nat × Nat) :=
  match e.kind, e.source, e.target with
  | .imports, .module a, .module b => some (a, b)
  | _, _, _ => none

end GraphEdge

namespace RelationGraph

/-- The relationship graph of records. -/
def ofRecords (s : Snapshot) : RelationGraph where
  nodes := s.modules.map (.module ·.id) ++ s.symbols.map (.symbol ·.id)
  edges := s.symbols.map .ofSymbol ++ s.imports.filterMap GraphEdge.ofImport? ++
    s.calls.filterMap GraphEdge.ofCall?

/-- The edges that lead to a node, the last one that was added first. -/
def incoming (g : RelationGraph) (node : GraphNode) : List GraphEdge :=
  (g.edges.filter (·.target == node)).reverse

/-- What the edges of a kind that lead to a node come from. -/
def factsTo (g : RelationGraph) (kind : EdgeKind) (node : GraphNode) : List Nat :=
  ((g.incoming node).filter (·.kind == kind)).filterMap (·.fact)

/-- The imports between modules, each pair of modules once. -/
def importArcs (g : RelationGraph) : List (Nat × Nat) :=
  (g.edges.filterMap (·.importArc?)).eraseDups

/-- The import cycles, read off the strongly connected components of the import graph: those with
more than one module, and modules that import themselves. -/
def cyclesAmong (g : RelationGraph) (components : List (List Nat)) : List (List Nat) :=
  ((components.map (·.mergeSort)).filter fun ids =>
    1 < ids.length || ids.head?.any fun m => g.importArcs.contains (m, m)).mergeSort
      fun c d => !d.lex c (· < ·)

end RelationGraph

namespace Graph

/-- The relationship graph of a finished graph. -/
def relations (g : Graph) : RelationGraph := .ofRecords g.records

/-- The calls that lead to a symbol along edges of the relationship graph. -/
def callsAlongEdges (g : Graph) (symbol : Nat) : List CallEdge :=
  if symbol < g.records.symbols.length then
    ((g.relations.factsTo .calls (.symbol symbol)).filterMap
      fun id => g.records.calls[id]?).mergeSort fun c d => c.id ≤ d.id
  else []

/-- The written imports that lead to a module along edges of the relationship graph. -/
def importsAlongEdges (g : Graph) (module : Nat) : List ImportEdge :=
  if module < g.records.modules.length then
    ((g.relations.factsTo .imports (.module module)).filterMap
      fun id => g.records.imports[id]?).mergeSort fun e f => e.id ≤ f.id
  else []

end Graph

end CodeAtlas
