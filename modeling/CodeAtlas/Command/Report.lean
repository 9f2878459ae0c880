import CodeAtlas.Unit.Run

/-!
# Reports

Plain text about a finished analysis, one fact to a line: a name, its kind and where it stands. A
report is a list of lines.
-/

namespace CodeAtlas.Report

/-- Where a line of a module is found. -/
def location (g : Graph) (module line : Nat) : String :=
  (g.module? module).elim "?" (·.path.text) ++ ":" ++ Nat.repr line

/-- The counts of a graph and the failures of a run. -/
def stats (analysis : Analysis) : List String :=
  let s := analysis.graph.records.stats
  let n := Nat.repr
  let kinds := s.callsByKind.map fun (kind, count) =>
    "  " ++ Text.padEnd 16 kind.word ++ " " ++ n count
  let failures := analysis.errors.map fun f =>
    "  " ++ f.path.text ++ " [" ++ f.kind.word ++ "] " ++ f.message
  ["modules      " ++ n s.modules,
    "symbols      " ++ n s.symbols,
    "imports      " ++ n s.imports ++ " (" ++ n s.importsResolved ++ " resolved, " ++
      n s.importsExternal ++ " external, " ++ n s.syntheticImports ++ " synthetic, " ++
      n s.unexpandableWildcards ++ " unexpandable)",
    "calls        " ++ n s.calls ++ " (" ++ n s.callsResolved ++ " resolved, " ++
      n s.callsBuiltin ++ " builtin, " ++ n s.callsExternal ++ " external, " ++
      n s.callsUnresolved ++ " unresolved)"] ++ kinds ++
    ["ambiguous    " ++ n s.ambiguous] ++
    if failures.isEmpty then []
    else ["", "errors (" ++ n failures.length ++ "):"] ++ failures

/-- The line of a symbol at a depth. -/
def symbolLine (depth : Nat) (s : Symbol) : String :=
  let bases := if s.bases.isEmpty then "" else " (" ++ Text.joinWith ", " s.bases ++ ")"
  Text.repeatText depth "  " ++ s.name ++ bases ++ " " ++ s.kind.word ++ " " ++
    s.visibility.word ++ " :" ++ Nat.repr s.extent.startLine

/-- The lines of a symbol and of those in it, nested at most `levels` deep. -/
def symbolTree (g : Graph) : (levels depth : Nat) → Symbol → List String
  | 0, _, _ => []
  | levels + 1, depth, s =>
    symbolLine depth s :: (g.childrenOf s.id).flatMap (symbolTree g levels (depth + 1))

/-- The symbols of a module as a tree. No symbol is nested deeper than there are symbols. -/
def symbols (g : Graph) (m : Module) : List String :=
  (m.path.text ++ " (" ++ m.logicalName ++ ")") ::
    (g.topLevelSymbols m.id).flatMap (symbolTree g g.records.symbols.length 1)

/-- The line of a call without a target. -/
def unresolvedLine (g : Graph) (c : CallEdge) : String :=
  let mark := match c.target with
    | .external name => " (external " ++ name ++ ")"
    | _ => ""
  c.callee ++ " " ++ c.kind.word ++ mark ++ " " ++ location g c.module c.extent.startLine

/-- The calls without a target, at most `limit` of them. -/
def unresolved (g : Graph) (limit : Nat) : List String :=
  let calls := g.unresolvedCalls
  if calls.isEmpty then ["All calls resolved"]
  else
    (calls.take limit).map (unresolvedLine g) ++
      if limit < calls.length then ["... " ++ Nat.repr (calls.length - limit) ++ " more"] else []

/-- The imports from outside of the unit. -/
def externals (g : Graph) : List String :=
  g.externalImports.map fun e =>
    e.target ++ " " ++ e.name.word ++ (if e.isUnexpandable then " (unexpandable)" else "") ++ " " ++
      location g e.module e.extent.startLine

/-- The line of a call that leads to a symbol. -/
def callerLine (g : Graph) (c : CallEdge) : String :=
  let caller := ((c.caller.bind g.symbol?).map (·.name)).getD "<module>"
  "  <- " ++ caller ++ " " ++ c.kind.word ++ " " ++ location g c.module c.extent.startLine

/-- Does the call lead to a name outside of the unit that ends so? -/
def endsOutside (name : String) (c : CallEdge) : Bool :=
  match c.target with
  | .external target => Text.endsWith name target
  | _ => false

/-- The symbols with a name and the calls that lead to them. -/
def callers (g : Graph) (name : String) : List String :=
  let targets := g.findSymbols name
  let outside := g.records.calls.countP (endsOutside name)
  if targets.isEmpty then ["No symbol named '" ++ name ++ "'"]
  else
    (targets.flatMap fun s =>
      (s.name ++ " " ++ s.kind.word ++ " " ++ location g s.module s.extent.startLine) ::
        (g.callsTo s.id).map (callerLine g)) ++
      if 0 < outside then ["(" ++ Nat.repr outside ++ " external calls end in '" ++ name ++ "')"]
      else []

/-- The groups of modules that import each other. -/
def cycles (g : Graph) : List String :=
  let groups := g.importCycles
  if groups.isEmpty then ["No import cycles"]
  else groups.map fun group =>
    Text.joinWith " -> " ((group.filterMap g.module?).map (·.path.text))

end CodeAtlas.Report
