import CodeAtlas.Facts.Json
import CodeAtlas.Graph.Stats

/-!
# Snapshots

All records of a finished graph as one value, written as JSON and read back without loss. The
fields of a symbol's profile stand beside those of the symbol.
-/

namespace CodeAtlas

/-- The records of a finished graph. -/
structure Snapshot where
  modules : List Module := []
  symbols : List Symbol := []
  imports : List ImportEdge := []
  calls : List CallEdge := []
  diagnostics : List Diagnostic := []
  stats : Stats := {}
deriving DecidableEq, Inhabited

/-- Write a module. -/
def Module.toJson (m : Module) : Json :=
  .obj [("id", .nat m.id), ("path", .str m.path.text), ("logical_path", .texts m.place.segments),
    ("is_package", .bool m.place.isPackage), ("language", m.language.toJson),
    ("content_hash", .str m.contentHash), ("symbols", .arr (m.symbols.map .nat))]

/-- Read a module. -/
def Module.ofJson? (v : Json) : Option Module := do
  some
    { id := ← v.required? "id" Json.nat?
      path := ⟨← v.required? "path" Json.text?⟩
      place :=
        { segments := ← v.required? "logical_path" (Json.list? Json.text?)
          isPackage := ← v.required? "is_package" Json.bool? }
      language := ← v.required? "language" Language.ofJson?
      contentHash := ← v.required? "content_hash" Json.text?
      symbols := ← v.required? "symbols" (Json.list? Json.nat?) }

/-- Write where a symbol is declared. -/
def scopeToJson : Option Nat → Json
  | none => .obj [("type", .str "module")]
  | some id => .obj [("type", .str "symbol"), ("id", .nat id)]

/-- Read where a symbol is declared. -/
def scopeOfJson? (v : Json) : Option (Option Nat) := do
  match ← v.required? "type" Json.text? with
  | "module" => some none
  | "symbol" => (v.required? "id" Json.nat?).map some
  | _ => none

/-- Write a symbol. -/
def Symbol.toJson (s : Symbol) : Json :=
  .obj ([("id", .nat s.id), ("name", .str s.name), ("kind", s.kind.toJson),
    ("module", .nat s.module), ("scope", scopeToJson s.parent),
    ("visibility", s.visibility.toJson), ("decorators", .arr (s.decorators.map (·.toJson))),
    ("parameters", .arr (s.parameters.map (·.toJson))),
    ("return_type", .ofOption .str s.returnType), ("bases", .texts s.bases),
    ("children", .arr (s.children.map .nat)), ("span", s.extent.toJson)] ++ s.profile.jsonFields)

/-- Read a symbol. -/
def Symbol.ofJson? (v : Json) : Option Symbol := do
  some
    { id := ← v.required? "id" Json.nat?
      name := ← v.required? "name" Json.text?
      kind := ← v.required? "kind" SymbolKind.ofJson?
      module := ← v.required? "module" Json.nat?
      parent := ← v.required? "scope" scopeOfJson?
      visibility := ← v.required? "visibility" Visibility.ofJson?
      decorators := ← v.required? "decorators" (Json.list? Decorator.ofJson?)
      parameters := ← v.required? "parameters" (Json.list? Parameter.ofJson?)
      returnType := ← v.optional? "return_type" Json.text?
      bases := ← v.required? "bases" (Json.list? Json.text?)
      children := ← v.required? "children" (Json.list? Json.nat?)
      extent := ← v.required? "span" Extent.ofJson?
      profile := ← Profile.ofJson? v }

/-- Write the status of an import. -/
def ImportStatus.toJson : ImportStatus → Json
  | unresolved => .obj [("type", .str "unresolved")]
  | resolved module => .obj [("type", .str "resolved"), ("module", .nat module)]
  | external => .obj [("type", .str "external")]

/-- Read the status of an import. -/
def ImportStatus.ofJson? (v : Json) : Option ImportStatus := do
  match ← v.required? "type" Json.text? with
  | "unresolved" => some unresolved
  | "resolved" => (v.required? "module" Json.nat?).map resolved
  | "external" => some external
  | _ => none

/-- Write the binding of an import. -/
def ImportBinding.toJson : ImportBinding → Json
  | module id => .obj [("type", .str "module"), ("id", .nat id)]
  | symbol id => .obj [("type", .str "symbol"), ("id", .nat id)]

/-- Read the binding of an import. -/
def ImportBinding.ofJson? (v : Json) : Option ImportBinding := do
  match ← v.required? "type" Json.text? with
  | "module" => (v.required? "id" Json.nat?).map module
  | "symbol" => (v.required? "id" Json.nat?).map symbol
  | _ => none

/-- Write an import edge. -/
def ImportEdge.toJson (e : ImportEdge) : Json :=
  .obj [("id", .nat e.id), ("module", .nat e.module), ("target", .str e.target),
    ("name", e.name.toJson), ("alias", .str e.localName), ("depth", .nat e.depth),
    ("status", e.status.toJson), ("binding", .ofOption ImportBinding.toJson e.binding),
    ("expanded_from", .ofOption .nat e.expandedFrom), ("span", e.extent.toJson)]

/-- Read an import edge. -/
def ImportEdge.ofJson? (v : Json) : Option ImportEdge := do
  some
    { id := ← v.required? "id" Json.nat?
      module := ← v.required? "module" Json.nat?
      target := ← v.required? "target" Json.text?
      name := ← v.required? "name" ImportedName.ofJson?
      localName := ← v.required? "alias" Json.text?
      depth := ← v.required? "depth" Json.nat?
      status := ← v.required? "status" ImportStatus.ofJson?
      binding := ← v.optional? "binding" ImportBinding.ofJson?
      expandedFrom := ← v.optional? "expanded_from" Json.nat?
      extent := ← v.required? "span" Extent.ofJson? }

/-- Write the target of a call. -/
def CallTarget.toJson : CallTarget → Json
  | unresolved => .obj [("type", .str "unresolved")]
  | symbol id => .obj [("type", .str "symbol"), ("target", .nat id)]
  | builtin name => .obj [("type", .str "builtin"), ("target", .str name)]
  | external name => .obj [("type", .str "external"), ("target", .str name)]

/-- Read the target of a call. -/
def CallTarget.ofJson? (v : Json) : Option CallTarget := do
  match ← v.required? "type" Json.text? with
  | "unresolved" => some unresolved
  | "symbol" => (v.required? "target" Json.nat?).map symbol
  | "builtin" => (v.required? "target" Json.text?).map builtin
  | "external" => (v.required? "target" Json.text?).map external
  | _ => none

/-- Write a call edge. -/
def CallEdge.toJson (c : CallEdge) : Json :=
  .obj [("id", .nat c.id), ("module", .nat c.module), ("caller", .ofOption .nat c.caller),
    ("callee", .str c.callee), ("name", .str c.name), ("receiver", .ofOption .str c.receiver),
    ("kind", c.kind.toJson), ("arguments", c.arguments.toJson), ("target", c.target.toJson),
    ("decorates", .ofOption .nat c.decorates), ("span", c.extent.toJson)]

/-- Read a call edge. -/
def CallEdge.ofJson? (v : Json) : Option CallEdge := do
  some
    { id := ← v.required? "id" Json.nat?
      module := ← v.required? "module" Json.nat?
      caller := ← v.optional? "caller" Json.nat?
      callee := ← v.required? "callee" Json.text?
      name := ← v.required? "name" Json.text?
      receiver := ← v.optional? "receiver" Json.text?
      kind := ← v.required? "kind" CallKind.ofJson?
      arguments := ← v.required? "arguments" Arguments.ofJson?
      target := ← v.required? "target" CallTarget.ofJson?
      decorates := ← v.optional? "decorates" Json.nat?
      extent := ← v.required? "span" Extent.ofJson? }

/-- Write a diagnostic. -/
def Diagnostic.toJson (d : Diagnostic) : Json :=
  .obj [("kind", .str "ambiguous-resolution"), ("module", .nat d.module), ("detail", .str d.detail)]

/-- Read a diagnostic. -/
def Diagnostic.ofJson? (v : Json) : Option Diagnostic := do
  match ← v.required? "kind" Json.text? with
  | "ambiguous-resolution" =>
    some
      { module := ← v.required? "module" Json.nat?
        detail := ← v.required? "detail" Json.text? }
  | _ => none

/-- Write the counts of kinds. -/
def kindCountsToJson (counts : List (CallKind × Nat)) : Json :=
  .obj (counts.map fun (kind, n) => (kind.word, .nat n))

/-- Read the counts of kinds. -/
def kindCountsOfJson? (v : Json) : Option (List (CallKind × Nat)) :=
  v.fields?.bind fun fields => fields.mapM fun (word, n) => do
    some (← CallKind.ofWord? word, ← n.nat?)

/-- Write statistics. -/
def Stats.toJson (s : Stats) : Json :=
  .obj [("modules", .nat s.modules), ("symbols", .nat s.symbols), ("imports", .nat s.imports),
    ("imports_resolved", .nat s.importsResolved), ("imports_external", .nat s.importsExternal),
    ("wildcards_expanded", .nat s.wildcardsExpanded),
    ("unexpandable_wildcards", .nat s.unexpandableWildcards),
    ("synthetic_imports", .nat s.syntheticImports), ("calls", .nat s.calls),
    ("calls_resolved", .nat s.callsResolved), ("calls_builtin", .nat s.callsBuiltin),
    ("calls_external", .nat s.callsExternal), ("calls_unresolved", .nat s.callsUnresolved),
    ("calls_by_kind", kindCountsToJson s.callsByKind), ("ambiguous", .nat s.ambiguous)]

/-- Read statistics. -/
def Stats.ofJson? (v : Json) : Option Stats := do
  some
    { modules := ← v.required? "modules" Json.nat?
      symbols := ← v.required? "symbols" Json.nat?
      imports := ← v.required? "imports" Json.nat?
      importsResolved := ← v.required? "imports_resolved" Json.nat?
      importsExternal := ← v.required? "imports_external" Json.nat?
      wildcardsExpanded := ← v.required? "wildcards_expanded" Json.nat?
      unexpandableWildcards := ← v.required? "unexpandable_wildcards" Json.nat?
      syntheticImports := ← v.required? "synthetic_imports" Json.nat?
      calls := ← v.required? "calls" Json.nat?
      callsResolved := ← v.required? "calls_resolved" Json.nat?
      callsBuiltin := ← v.required? "calls_builtin" Json.nat?
      callsExternal := ← v.required? "calls_external" Json.nat?
      callsUnresolved := ← v.required? "calls_unresolved" Json.nat?
      callsByKind := ← v.required? "calls_by_kind" kindCountsOfJson?
      ambiguous := ← v.required? "ambiguous" Json.nat? }

/-- Write a snapshot. -/
def Snapshot.toJson (s : Snapshot) : Json :=
  .obj [("modules", .arr (s.modules.map (·.toJson))), ("symbols", .arr (s.symbols.map (·.toJson))),
    ("imports", .arr (s.imports.map (·.toJson))), ("calls", .arr (s.calls.map (·.toJson))),
    ("diagnostics", .arr (s.diagnostics.map (·.toJson))), ("stats", s.stats.toJson)]

/-- Read a snapshot. -/
def Snapshot.ofJson? (v : Json) : Option Snapshot := do
  some
    { modules := ← v.required? "modules" (Json.list? Module.ofJson?)
      symbols := ← v.required? "symbols" (Json.list? Symbol.ofJson?)
      imports := ← v.required? "imports" (Json.list? ImportEdge.ofJson?)
      calls := ← v.required? "calls" (Json.list? CallEdge.ofJson?)
      diagnostics := ← v.required? "diagnostics" (Json.list? Diagnostic.ofJson?)
      stats := ← v.required? "stats" Stats.ofJson? }

end CodeAtlas
