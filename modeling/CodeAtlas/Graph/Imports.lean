import CodeAtlas.Graph.Tables

/-!
# Linking imports

Every written import is linked once, by itself: its target is located among the modules of the
ecosystem, and its name, if it has one, among the symbols and submodules there. A wildcard with a
target in the unit is then expanded into one edge for every exposed symbol of the target. Cycles of
imports need no care, since no edge looks at another.
-/

namespace CodeAtlas.Tables

/-- A meaning and the doubts about it. -/
abbrev Judged (α : Type) := α × List Diagnostic

/-- Locate a module by the end of its key. Several modules with different keys are a doubt. -/
def locateByEnd (tables : Tables) (module : Nat) (lang : Language) (segments : List String) :
    Judged (Option Nat) :=
  let found := tables.modulesWhere lang fun key => endsWithSegments key segments
  let keys := (found.map (·.key)).eraseDups.length
  (found.head?.map (·.id),
    if keys > 1 then
      [⟨module, "module '" ++ Text.joinWith "." segments ++ "' matches " ++ Nat.repr keys ++
        " modules"⟩]
    else [])

/-- Locate the module that an import of the given depth means. A relative import starts at the
importer's place; an absolute one means a key or the end of one. A quoted include is relative first.
-/
def locate (tables : Tables) (module depth : Nat) (segments : List String) :
    Judged (Option Nat) :=
  let origin := (tables.modules[module]?).getD default
  let lang := origin.language
  let relative := if depth = 0 then none else
    (origin.place.base? depth).bind fun base => tables.moduleAt? lang (base ++ segments)
  if depth > 0 && (relative.isSome || !lang.isCFamily) then (relative, [])
  else if segments.isEmpty then (none, [])
  else
    match tables.moduleAt? lang segments with
    | some found => (some found, [])
    | none => tables.locateByEnd module lang segments

/-- What a name imported from a located module stands for: a symbol of the module, or else a
submodule. -/
def bindName (tables : Tables) (module : Nat) (name : String) :
    ImportStatus × Option ImportBinding :=
  match (tables.topLevelNamed module name).head? with
  | some symbol => (.resolved module, some (.symbol symbol))
  | none =>
    match tables.submodule? module name with
    | some sub => (.resolved sub, some (.module sub))
    | none => (.resolved module, none)

/-- What becomes of an import. A name whose module is not a file may itself be a module. -/
def judgeImport (tables : Tables) (edge : ImportEdge) :
    Judged (ImportStatus × Option ImportBinding) :=
  let segments := targetSegments edge.target
    ((tables.modules[edge.module]?).getD default).language
  let (found, doubts) := tables.locate edge.module edge.depth segments
  match edge.name, found with
  | .whole, some m => ((.resolved m, some (.module m)), doubts)
  | .wildcard, some m => ((.resolved m, none), doubts)
  | .name name, some m => (tables.bindName m name, doubts)
  | .name name, none =>
    let (sub, more) := tables.locate edge.module edge.depth (segments ++ [name])
    match sub with
    | some m => ((.resolved m, some (.module m)), doubts ++ more)
    | none => ((.external, none), doubts ++ more)
  | _, none => ((.external, none), doubts)

/-- An import with what becomes of it, and the doubts about that. -/
def linkImport (tables : Tables) (edge : ImportEdge) : Judged ImportEdge :=
  let ((status, binding), doubts) := tables.judgeImport edge
  ({ edge with status := status, binding := binding }, doubts)

/-- The exposed symbols at the level of a module. -/
def exposedSymbols (tables : Tables) (module : Nat) : List Symbol :=
  (tables.topLevel module).filterMap fun id =>
    tables.symbols[id]?.filter (·.visibility.isExposed)

/-- The edge that a wildcard gives for a symbol; it is numbered later. -/
def expansionFor (edge : ImportEdge) (s : Symbol) : ImportEdge :=
  { edge with
    name := .name s.name
    localName := s.name
    status := .resolved s.module
    binding := some (.symbol s.id)
    expandedFrom := some edge.id }

/-- The edges that a linked import expands to. -/
def expansions (tables : Tables) (edge : ImportEdge) : List ImportEdge :=
  match edge.name, edge.status with
  | .wildcard, .resolved m => (tables.exposedSymbols m).map (expansionFor edge)
  | _, _ => []

/-- Number edges through, starting at an index. -/
def numbered (start : Nat) (edges : List ImportEdge) : List ImportEdge :=
  (edges.zipIdx start).map fun (e, id) => { e with id := id }

/-- Link every written import and append the expansions of wildcards. -/
def linkImports (tables : Tables) : Tables :=
  let judged := tables.imports.map tables.linkImport
  let linked := judged.map (·.1)
  { tables with
    imports := linked ++ numbered linked.length (linked.flatMap tables.expansions)
    diagnostics := tables.diagnostics ++ judged.flatMap (·.2) }

end CodeAtlas.Tables
