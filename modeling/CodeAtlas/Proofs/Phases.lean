import CodeAtlas.Graph.Session

/-!
# The phases of a resolution

A fresh session over at least one file passes collecting, linking imports and linking calls, one
after the other, and ends with a graph. The tables of each phase are those of the files, then with
linked imports, then with linked calls.
-/

namespace CodeAtlas

/-- A fresh session over some files that passes every phase, and the graph that it ends with. -/
structure CompletedRun (config : ResolutionConfig) (files : List FileFacts)
    (collected imported called : Session) (graph : Graph) : Prop where
  collects : Session.collect { config := config } files = .ok collected
  linksImports : collected.linkImports = .ok imported
  linksCalls : imported.linkCalls = .ok called
  finishes : called.finish = .ok graph
  resolves : resolveFacts config files = .ok graph

/-- The tables of a unit after each of its phases. -/
def Tables.phases (config : ResolutionConfig) (files : List FileFacts) : List Tables :=
  [ofFiles files, (ofFiles files).linkImports, (ofFiles files).linkImports.linkCalls config]

/-- The tables of a single file. -/
theorem Tables.ofFiles_singleton (file : FileFacts) : ofFiles [file] = addFile {} file := by
  simp [ofFiles, orderedFiles, distinctPaths, dropSamePath]

/-- Files that are listed in the order of their paths, each path once, are taken as they are. -/
theorem Tables.ofFiles_of_ordered {files : List FileFacts}
    (hsorted : files.Pairwise fun a b => a.path.le b.path = true)
    (hdistinct : distinctPaths files = files) : ofFiles files = files.foldl addFile {} := by
  rw [ofFiles, orderedFiles, List.mergeSort_of_pairwise hsorted, hdistinct]

/-- A fresh session completes over every non-empty list of files. -/
theorem completedRun_of_ne_nil (config : ResolutionConfig) {files : List FileFacts}
    (hnonempty : files ≠ []) :
    CompletedRun config files
      { config := config, phase := .collected, tables := .ofFiles files }
      { config := config, phase := .importsLinked, tables := (Tables.ofFiles files).linkImports }
      { config := config, phase := .callsLinked
        tables := (Tables.ofFiles files).linkImports.linkCalls config }
      (.ofTables ((Tables.ofFiles files).linkImports.linkCalls config)) := by
  have hcollects : Session.collect { config := config } files =
      .ok { config := config, phase := .collected, tables := .ofFiles files } := by
    cases files with
    | nil => exact absurd rfl hnonempty
    | cons file rest => rfl
  refine ⟨hcollects, rfl, rfl, rfl, ?_⟩
  rw [resolveFacts, Session.resolve, hcollects]
  rfl

end CodeAtlas
