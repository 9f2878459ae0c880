import CodeAtlas.Proofs.Collection
import CodeAtlas.Proofs.FileOrder
import CodeAtlas.Proofs.Linking
import CodeAtlas.Proofs.Lists
import CodeAtlas.Proofs.Phases
import Mathlib.Data.List.Forall2

/-!
# Conservation of facts

A unit holds the first file of every path, in the order of paths. Its symbols, written imports and
calls are the facts of these files in a row: none is lost, repeated or moved, and the positions
inside of a file are shifted by the number of declarations in the files before it. Linking imports
decides the status and binding of written edges, appends derived edges and reports doubts; linking
calls decides the kind and target of calls and reports doubts. Nothing else changes.
-/

namespace CodeAtlas

/-- The first file of every path, in strictly increasing order of paths. -/
structure Selects (files chosen : List FileFacts) : Prop where
  increasing : chosen.Pairwise FileFacts.Precedes
  first : ∀ file ∈ chosen, files.find? (fun other => other.path.same file.path) = some file
  covers : ∀ file ∈ files, ∃ listed ∈ chosen, listed.path.same file.path = true

/-- The files of a unit are the first of every path. -/
theorem selects_orderedFiles (files : List FileFacts) : Selects files (orderedFiles files) :=
  ⟨orderedFiles_precedes files, fun _ => find?_of_mem_orderedFiles,
    fun _ => exists_mem_orderedFiles⟩

/-- The number of declarations in several files. -/
def declarationCount (files : List FileFacts) : Nat :=
  (files.flatMap (·.declarations)).length

/-- A fact of a file at a place of a unit: the position of its file, and the number of declarations
in the files before. -/
structure Placed (α : Type) where
  module : Nat
  base : Nat
  fact : α

/-- The facts of several files in a row. -/
def placed {α : Type} (facts : FileFacts → List α) (files : List FileFacts) : List (Placed α) :=
  files.zipIdx.flatMap fun (file, module) =>
    (facts file).map (Placed.mk module (declarationCount (files.take module)))

/-- One more file adds its facts at the end. -/
theorem placed_concat {α : Type} (facts : FileFacts → List α) (files : List FileFacts)
    (file : FileFacts) :
    placed facts (files ++ [file]) =
      placed facts files ++ (facts file).map (Placed.mk files.length (declarationCount files)) := by
  have hbefore : ∀ x ∈ files.zipIdx, (files ++ [file]).take x.2 = files.take x.2 := by
    intro x hx
    have hlt := List.snd_lt_of_mem_zipIdx hx
    exact List.take_append_of_le_length (by omega)
  rw [placed, List.zipIdx_append, List.flatMap_append]
  congr 1
  · refine List.flatMap_congr fun x hx => ?_
    dsimp only
    rw [hbefore x hx]
  · simp

/-- A module carries the facts of a file as a whole. -/
structure Module.Carries (m : Module) (file : FileFacts) : Prop where
  path : m.path = file.path
  place : m.place = .ofPath file.path file.language
  language : m.language = file.language
  contentHash : m.contentHash = file.contentHash

/-- A symbol copies a declaration, with its parent shifted. -/
structure Symbol.Copies (s : Symbol) (d : Placed Declaration) : Prop where
  module : s.module = d.module
  parent : s.parent = d.fact.parent.map (d.base + ·)
  name : s.name = d.fact.name
  kind : s.kind = d.fact.kind
  visibility : s.visibility = d.fact.visibility
  decorators : s.decorators = d.fact.decorators
  parameters : s.parameters = d.fact.parameters
  returnType : s.returnType = d.fact.returnType
  bases : s.bases = d.fact.bases
  extent : s.extent = d.fact.extent
  profile : s.profile = d.fact.profile

/-- A written edge copies an import. -/
structure ImportEdge.Copies (e : ImportEdge) (i : Placed ImportFact) : Prop where
  module : e.module = i.module
  target : e.target = i.fact.target
  name : e.name = i.fact.name
  localName : e.localName = i.fact.localName
  depth : e.depth = i.fact.depth
  extent : e.extent = i.fact.extent
  written : e.expandedFrom = none

/-- An edge copies a call up to its kind, with its caller and what it decorates shifted. -/
structure CallEdge.Copies (e : CallEdge) (c : Placed CallFact) : Prop where
  module : e.module = c.module
  caller : e.caller = c.fact.caller.map (c.base + ·)
  decorates : e.decorates = c.fact.decorates.map (c.base + ·)
  callee : e.callee = c.fact.callee
  name : e.name = c.fact.name
  receiver : e.receiver = c.fact.receiver
  arguments : e.arguments = c.fact.arguments
  extent : e.extent = c.fact.extent

/-- The tables hold the facts of some files in a row, and nothing has been decided yet. -/
structure Collected (files : List FileFacts) (tables : Tables) : Prop where
  modules : List.Forall₂ Module.Carries tables.modules files
  symbols : List.Forall₂ Symbol.Copies tables.symbols.toList (placed (·.declarations) files)
  symbolCount : tables.symbols.size = declarationCount files
  receiverNames : tables.receiverNames.toList =
    files.flatMap fun file => file.declarations.map (·.receiverName)
  imports : List.Forall₂
    (fun e i => e.Copies i ∧ e.status = .unresolved ∧ e.binding = none)
    tables.imports (placed (·.imports) files)
  calls : List.Forall₂ (fun e c => e.Copies c ∧ e.kind = c.fact.kind ∧ e.target = .unresolved)
    tables.calls (placed (·.calls) files)
  diagnostics : tables.diagnostics = []

/-- Adding a file appends its facts. -/
theorem Collected.addFile {files : List FileFacts} {tables : Tables} (h : Collected files tables)
    (file : FileFacts) : Collected (files ++ [file]) (tables.addFile file) := by
  have hmodules : tables.modules.length = files.length := h.modules.length_eq
  refine ⟨?_, ?_, ?_, ?_, ?_, ?_, h.diagnostics⟩
  · exact List.rel_append h.modules (.cons ⟨rfl, rfl, rfl, rfl⟩ .nil)
  · rw [Tables.addFile_symbols, placed_concat, hmodules, h.symbolCount]
    refine List.rel_append h.symbols (forall₂_map_zipIdx (fun d i => ?_) _ _)
    exact ⟨rfl, rfl, rfl, rfl, rfl, rfl, rfl, rfl, rfl, rfl, rfl⟩
  · rw [← Array.length_toList, Tables.addFile_symbols, List.length_append, Array.length_toList,
      h.symbolCount]
    simp [declarationCount]
  · rw [Tables.addFile_receiverNames, h.receiverNames]
    simp
  · rw [Tables.addFile_imports, placed_concat, hmodules]
    refine List.rel_append h.imports (forall₂_map_zipIdx (fun i id => ?_) _ _)
    exact ⟨⟨rfl, rfl, rfl, rfl, rfl, rfl, rfl⟩, rfl, rfl⟩
  · rw [Tables.addFile_calls, placed_concat, hmodules, h.symbolCount]
    refine List.rel_append h.calls (forall₂_map_zipIdx (fun c id => ?_) _ _)
    exact ⟨⟨rfl, rfl, rfl, rfl, rfl, rfl, rfl, rfl⟩, rfl, rfl⟩

/-- Adding several files appends their facts. -/
theorem Collected.foldl {files : List FileFacts} {tables : Tables} (h : Collected files tables)
    (more : List FileFacts) : Collected (files ++ more) (more.foldl Tables.addFile tables) := by
  induction more generalizing files tables with
  | nil => simpa using h
  | cons file more ih => simpa using ih (h.addFile file)

/-- The tables of a unit hold the facts of its files in a row. -/
theorem collected_ofFiles (files : List FileFacts) :
    Collected (orderedFiles files) (Tables.ofFiles files) := by
  have hempty : Collected [] {} := ⟨.nil, .nil, rfl, rfl, .nil, .nil, rfl⟩
  exact hempty.foldl (orderedFiles files)

/-- What linking imports may change: the status and binding of written edges. Derived edges come
after them, and doubts after earlier ones. -/
structure ImportFrame (before after : Tables) : Prop where
  written : List.Forall₂
    (fun old new => new = { old with status := new.status, binding := new.binding })
    before.imports (after.imports.take before.imports.length)
  derived : ∀ e ∈ after.imports.drop before.imports.length, e.expandedFrom.isSome
  doubts : before.diagnostics <+: after.diagnostics
  rest : after = { before with imports := after.imports, diagnostics := after.diagnostics }

/-- What linking calls may change: the kind and target of calls. Doubts come after earlier ones. -/
structure CallFrame (before after : Tables) : Prop where
  decided : List.Forall₂ (fun old new => new = { old with kind := new.kind, target := new.target })
    before.calls after.calls
  doubts : before.diagnostics <+: after.diagnostics
  rest : after = { before with calls := after.calls, diagnostics := after.diagnostics }

namespace Tables

/-- The edges that were written, after linking. -/
theorem take_linkImports (tables : Tables) :
    tables.linkImports.imports.take tables.imports.length =
      tables.imports.map fun e => (tables.linkImport e).1 := by
  rw [linkImports_imports, List.take_left' (List.length_map _)]

/-- Behind the written edges there are only derived ones. -/
theorem drop_linkImports (tables : Tables) :
    ∀ e ∈ tables.linkImports.imports.drop tables.imports.length, e.expandedFrom.isSome := by
  rw [linkImports_imports, List.drop_left' (List.length_map _)]
  intro e he
  obtain ⟨edge, hedge, id, rfl⟩ := mem_numbered he
  obtain ⟨wildcard, _, hexpansion⟩ := List.mem_flatMap.mp hedge
  obtain ⟨_, _, s, _, rfl⟩ := mem_expansions hexpansion
  rfl

/-- Linking imports stays within its frame. -/
theorem importFrame_linkImports (tables : Tables) : ImportFrame tables tables.linkImports where
  written := by
    rw [take_linkImports, List.forall₂_map_right_iff, List.forall₂_same]
    exact fun _ _ => rfl
  derived := drop_linkImports tables
  doubts := List.prefix_append _ _
  rest := rfl

/-- Linking calls stays within its frame. -/
theorem callFrame_linkCalls (tables : Tables) (config : ResolutionConfig) :
    CallFrame tables (tables.linkCalls config) where
  decided := by
    rw [linkCalls_calls, List.forall₂_map_right_iff, List.forall₂_same]
    exact fun _ _ => rfl
  doubts := List.prefix_append _ _
  rest := rfl

end Tables

/-- A completed session over some files whose graph holds exactly the facts of the first file of
every path. -/
structure ConservingRun (config : ResolutionConfig) (files chosen : List FileFacts)
    (collected imported called : Session) (graph : Graph) : Prop
    extends CompletedRun config files collected imported called graph where
  selects : Selects files chosen
  collecting : Collected chosen collected.tables
  linkingImports : ImportFrame collected.tables imported.tables
  linkingCalls : CallFrame imported.tables called.tables
  modules : List.Forall₂ Module.Carries graph.records.modules chosen
  symbols : List.Forall₂ Symbol.Copies graph.records.symbols (placed (·.declarations) chosen)
  writtenImports : List.Forall₂ ImportEdge.Copies
    (graph.records.imports.take (placed (·.imports) chosen).length) (placed (·.imports) chosen)
  derivedImports : ∀ e ∈ graph.records.imports.drop (placed (·.imports) chosen).length,
    e.expandedFrom.isSome
  calls : List.Forall₂ CallEdge.Copies graph.records.calls (placed (·.calls) chosen)

/-- Every non-empty list of files is resolved to exactly the facts of the first file of every path:
linking changes the outcome of imports and calls, appends derived imports and reports doubts. -/
theorem resolve_conserves_facts (config : ResolutionConfig) (files : List FileFacts)
    (hnonempty : files ≠ []) :
    ∃ chosen collected imported called graph,
      ConservingRun config files chosen collected imported called graph := by
  have hcollected := collected_ofFiles files
  have hwritten : (Tables.ofFiles files).imports.length =
      (placed (·.imports) (orderedFiles files)).length := hcollected.imports.length_eq
  refine ⟨orderedFiles files, _, _, _, _, completedRun_of_ne_nil config hnonempty,
    selects_orderedFiles files, hcollected, Tables.importFrame_linkImports _,
    Tables.callFrame_linkCalls _ config, hcollected.modules, hcollected.symbols, ?_, ?_, ?_⟩
  · change List.Forall₂ _ ((Tables.ofFiles files).linkImports.imports.take _) _
    rw [← hwritten, Tables.take_linkImports, List.forall₂_map_left_iff]
    refine hcollected.imports.imp fun e i h => ?_
    exact ⟨h.1.module, h.1.target, h.1.name, h.1.localName, h.1.depth, h.1.extent, h.1.written⟩
  · rw [← hwritten]
    exact Tables.drop_linkImports _
  · change List.Forall₂ _ ((Tables.ofFiles files).linkImports.linkCalls config).calls _
    rw [Tables.linkCalls_calls, List.forall₂_map_left_iff]
    refine hcollected.calls.imp fun e c h => ?_
    exact ⟨h.1.module, h.1.caller, h.1.decorates, h.1.callee, h.1.name, h.1.receiver,
      h.1.arguments, h.1.extent⟩

/-- Two files with one path, written in two ways, behind a file whose method calls itself. -/
theorem resolve_conserves_facts_repeated_path :
    ∃ chosen collected imported called graph,
      ConservingRun { walkBases := false }
        [{ path := ⟨"pkg/view.py"⟩
           language := .python
           declarations :=
            [{ name := "View", kind := .classLike, parent := none, visibility := .exposed },
              { name := "draw", kind := .method, parent := some 0, visibility := .exposed }]
           calls :=
            [{ callee := "self.draw", name := "draw", receiver := some "self", kind := .method
               caller := some 1 }] },
          { path := ⟨"pkg/base.py"⟩, language := .python, contentHash := "first"
            imports := [{ target := "pkg.view", name := .wildcard, localName := "*" }] },
          { path := ⟨"pkg//base.py"⟩, language := .python, contentHash := "second" }]
        chosen collected imported called graph :=
  resolve_conserves_facts _ _ (List.cons_ne_nil _ _)

/-- An import that two modules answer to. -/
def ambiguousImport : List FileFacts :=
  [{ path := ⟨"a/util.py"⟩, language := .python }, { path := ⟨"b/util.py"⟩, language := .python },
    { path := ⟨"main.py"⟩, language := .python
      imports := [{ target := "util", name := .whole, localName := "util" }] }]

/-- A file with one function, whose owner may be named outside of it. -/
def ownedFunction (owner : Option String) : FileFacts where
  path := ⟨"t.rs"⟩
  language := .rust
  declarations :=
    [{ name := "f", kind := .method, parent := none, visibility := .exposed, owner := owner }]

/-- Linking imports also reports doubts, and the owner of a declaration has no place in a graph. -/
theorem linkImports_reports_doubts :
    (ambiguousImport ≠ [] ∧ (∀ file ∈ ambiguousImport, file.WellFormed) ∧
      (Tables.ofFiles ambiguousImport).linkImports ≠
        { Tables.ofFiles ambiguousImport with
          imports := (Tables.ofFiles ambiguousImport).linkImports.imports }) ∧
    ownedFunction (some "T") ≠ ownedFunction none ∧
      resolveFacts {} [ownedFunction (some "T")] = resolveFacts {} [ownedFunction none] := by
  have hordered : orderedFiles ambiguousImport = ambiguousImport := by
    rw [orderedFiles, List.mergeSort_of_pairwise (by decide)]
    decide
  have hdoubts : (Tables.ofFiles ambiguousImport).linkImports.diagnostics =
      [⟨2, "module 'util' matches 2 modules"⟩] := by
    rw [Tables.ofFiles, hordered]
    decide
  have hsilent : (Tables.ofFiles ambiguousImport).diagnostics = [] :=
    (collected_ofFiles ambiguousImport).diagnostics
  refine ⟨⟨by decide, ?_, ?_⟩, by decide, ?_⟩
  · intro file hfile
    have hbare : file.declarations = [] ∧ file.calls = [] := by
      simp only [ambiguousImport, List.mem_cons, List.not_mem_nil, or_false] at hfile
      rcases hfile with rfl | rfl | rfl <;> exact ⟨rfl, rfl⟩
    constructor <;> simp [hbare]
  · intro hsame
    have hnone := (congrArg Tables.diagnostics hsame).trans hsilent
    rw [hdoubts] at hnone
    cases hnone
  · simp only [resolveFacts, Session.resolve, Session.collect, Tables.ofFiles, orderedFiles,
      List.mergeSort_singleton]
    rfl

end CodeAtlas
