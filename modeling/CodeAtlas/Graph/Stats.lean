import CodeAtlas.Graph.Tables

/-!
# Statistics

Counts over the records of a linked unit.
-/

namespace CodeAtlas

/-- Counts over a graph. -/
structure Stats where
  modules : Nat := 0
  symbols : Nat := 0
  imports : Nat := 0
  importsResolved : Nat := 0
  importsExternal : Nat := 0
  wildcardsExpanded : Nat := 0
  unexpandableWildcards : Nat := 0
  syntheticImports : Nat := 0
  calls : Nat := 0
  callsResolved : Nat := 0
  callsBuiltin : Nat := 0
  callsExternal : Nat := 0
  callsUnresolved : Nat := 0
  /-- The kinds of calls that occur, with their counts. -/
  callsByKind : List (CallKind × Nat) := []
  ambiguous : Nat := 0
deriving DecidableEq, Inhabited

/-- The kinds that occur among calls, with their counts. -/
def countKinds (calls : List CallEdge) : List (CallKind × Nat) :=
  (CallKind.all.map fun kind => (kind, calls.countP (·.kind == kind))).filter fun (_, n) => n > 0

/-- The counts over a unit. -/
def Tables.stats (tables : Tables) : Stats where
  modules := tables.modules.length
  symbols := tables.symbols.size
  imports := tables.imports.length
  importsResolved := tables.imports.countP fun e =>
    match e.status with
    | .resolved _ => true
    | _ => false
  importsExternal := tables.imports.countP (·.isExternal)
  wildcardsExpanded :=
    tables.imports.countP fun e => !e.isSynthetic && e.isWildcard && !e.isExternal
  unexpandableWildcards := tables.imports.countP (·.isUnexpandable)
  syntheticImports := tables.imports.countP (·.isSynthetic)
  calls := tables.calls.length
  callsResolved := tables.calls.countP (·.target.symbol?.isSome)
  callsBuiltin := tables.calls.countP fun c => c.target.isResolved && c.target.symbol?.isNone
  callsExternal := tables.calls.countP (·.target.isExternal)
  callsUnresolved := tables.calls.countP (·.target == .unresolved)
  callsByKind := countKinds tables.calls
  ambiguous := tables.diagnostics.length

end CodeAtlas
