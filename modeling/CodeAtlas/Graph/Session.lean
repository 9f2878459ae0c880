import CodeAtlas.Error
import CodeAtlas.Graph.Calls
import CodeAtlas.Graph.Query

/-!
# Resolving a unit

A session resolves one unit in three phases: collect the facts of all files, link the imports, link
the calls. Each phase runs once and in this order; a step at the wrong time fails and changes
nothing. Finishing freezes the records into a graph.
-/

namespace CodeAtlas

/-- A resolution in progress. -/
structure Session where
  config : ResolutionConfig := {}
  phase : Phase := .pending
  tables : Tables := {}
deriving DecidableEq, Inhabited

namespace Session

/-- Fail unless the session is in a phase. -/
def require (s : Session) (expected : Phase) : Except Error Unit :=
  if s.phase = expected then .ok () else .error (.phaseOrder expected s.phase)

/-- Gather the facts of all files. -/
def collect (s : Session) (files : List FileFacts) : Except Error Session := do
  s.require .pending
  if files.isEmpty then .error .emptyUnit
  else .ok { s with phase := .collected, tables := .ofFiles files }

/-- Link the imports. -/
def linkImports (s : Session) : Except Error Session := do
  s.require .collected
  .ok { s with phase := .importsLinked, tables := s.tables.linkImports }

/-- Link the calls. -/
def linkCalls (s : Session) : Except Error Session := do
  s.require .importsLinked
  .ok { s with phase := .callsLinked, tables := s.tables.linkCalls s.config }

/-- Freeze the records. -/
def finish (s : Session) : Except Error Graph := do
  s.require .callsLinked
  .ok (.ofTables s.tables)

/-- Run all phases of a session and freeze the records. -/
def resolve (s : Session) (files : List FileFacts) : Except Error Graph := do
  let collected ← s.collect files
  let imported ← collected.linkImports
  let called ← imported.linkCalls
  called.finish

end Session

/-- Resolve the facts of a unit. -/
def resolveFacts (config : ResolutionConfig) (files : List FileFacts) : Except Error Graph :=
  Session.resolve { config := config } files

end CodeAtlas
