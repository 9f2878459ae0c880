import CodeAtlas.Proofs.FileOrder
import CodeAtlas.Proofs.Phases
import CodeAtlas.Unit.Run

/-!
# The order of the input does not matter

Resolving starts with sorting the files by path, and nothing after that looks at the order in which
they were given. Two orders of the same files can only be told apart by files of one path. In a run
over a unit every file is read by itself and failures are sorted by path too, so when the files of
the unit have distinct paths, neither the graph nor the failures depend on the order of the files.
-/

namespace CodeAtlas

/-- Rearranged files have the same tables. -/
theorem Tables.ofFiles_eq_of_rearranges {files others : List FileFacts}
    (h : Rearranges FileFacts.path files others) : ofFiles files = ofFiles others := by
  rw [ofFiles, ofFiles, orderedFiles_eq_of_rearranges h]

/-- Rearranged files are resolved alike. -/
theorem resolveFacts_eq_of_rearranges (config : ResolutionConfig) {files others : List FileFacts}
    (h : Rearranges FileFacts.path files others) :
    resolveFacts config files = resolveFacts config others := by
  by_cases hempty : files = []
  · have hothers : others = [] := (hempty ▸ h.perm).nil_eq.symm
    rw [hempty, hothers]
  · have hothers : others ≠ [] := fun hnil => hempty (hnil ▸ h.perm).eq_nil
    rw [(completedRun_of_ne_nil config hempty).resolves,
      (completedRun_of_ne_nil config hothers).resolves, Tables.ofFiles_eq_of_rearranges h]

/-- The facts of a file have the path of the file. -/
theorem SourceFile.path_of_read {file : SourceFile} {facts : FileFacts}
    (h : file.read.toOption = some facts) : facts.path = file.path := by
  rw [read, extractSource] at h
  split at h
  · cases h
  · cases h
    rfl

/-- The failure of a file has the path of the file. -/
theorem SourceFile.path_of_failure {file : SourceFile} {failure : FileFailure}
    (h : failure? file.read = some failure) : failure.path = file.path := by
  rw [read, extractSource] at h
  split at h
  · cases h
    rfl
  · cases h

namespace SourceUnit

/-- The same files with distinct paths and the same failures, in another order. -/
structure Reorders (unit other : SourceUnit) : Prop where
  files : unit.files.Perm other.files
  distinct : DistinctPaths SourceFile.path unit.files
  skipped : Rearranges FileFailure.path unit.skipped other.skipped

variable {unit other : SourceUnit}

/-- The facts of a unit are read file by file. -/
theorem files_readAll (unit : SourceUnit) :
    unit.readAll.files = unit.files.filterMap fun file => file.read.toOption := by
  simp only [readAll, List.filterMap_map]
  rfl

/-- The failures of a unit are those of finding and of reading its files. -/
theorem errors_readAll (unit : SourceUnit) :
    unit.readAll.errors = sortByPath FileFailure.path
      (unit.skipped ++ unit.files.filterMap fun file => failure? file.read) := by
  simp only [readAll, List.filterMap_map]
  rfl

/-- The facts that reordered units hold are rearranged. -/
theorem Reorders.readAll_files (h : unit.Reorders other) :
    Rearranges FileFacts.path unit.readAll.files other.readAll.files := by
  rw [files_readAll, files_readAll]
  refine Rearranges.of_distinct (h.files.filterMap _) ?_
  exact h.distinct.filterMap _ fun _ _ => SourceFile.path_of_read

/-- Reordered units fail alike. -/
theorem Reorders.readAll_errors (h : unit.Reorders other) :
    unit.readAll.errors = other.readAll.errors := by
  rw [errors_readAll, errors_readAll]
  refine sortByPath_eq_of_rearranges (h.skipped.append ?_)
  refine Rearranges.of_distinct (h.files.filterMap _) ?_
  exact h.distinct.filterMap _ fun _ _ => SourceFile.path_of_failure

/-- Reordered units run alike, unless they are cancelled on the way. -/
theorem Reorders.run_eq (h : unit.Reorders other) (config : Config) (machine : Machine)
    (cancelled : Bool) :
    unit.run config machine (.constantly cancelled) =
      other.run config machine (.constantly cancelled) := by
  have hnone : unit.readAdmitted (.constantly true) = other.readAdmitted (.constantly true) := by
    rw [readAdmitted, readAdmitted, Token.admitted_constantly_true, Token.admitted_constantly_true]
    simp only [readAll, List.map_nil, List.filterMap_nil, List.append_nil]
    exact congrArg (PartialRun.mk []) (sortByPath_eq_of_rearranges h.skipped)
  have hall (unit : SourceUnit) : unit.readAdmitted (.constantly false) = unit.readAll := by
    rw [readAdmitted, Token.admitted_of_unset rfl]
  have hresolve : unit.readAll.resolve config.resolution =
      other.readAll.resolve config.resolution := by
    rw [PartialRun.resolve, PartialRun.resolve, h.readAll_errors,
      resolveFacts_eq_of_rearranges config.resolution h.readAll_files]
  cases cancelled with
  | true =>
    simp only [run, h.files.isEmpty_eq, h.skipped.perm.isEmpty_eq, hnone]
  | false =>
    simp only [run, h.files.isEmpty_eq, h.skipped.perm.isEmpty_eq, hall,
      h.readAll_files.perm.isEmpty_eq, h.readAll_errors, hresolve]
    rfl

end SourceUnit

/-- Resolving depends on the order of files with one path only, so not at all on that of files with
distinct paths. A run depends neither on the order of its files nor on that of its failures. -/
theorem input_order_does_not_matter :
    (∀ config files others, Rearranges FileFacts.path files others →
      resolveFacts config files = resolveFacts config others) ∧
    (∀ config files others, files.Perm others → DistinctPaths FileFacts.path files →
      resolveFacts config files = resolveFacts config others) ∧
    ∀ config machine cancelled unit other, SourceUnit.Reorders unit other →
      unit.run config machine (.constantly cancelled) =
        other.run config machine (.constantly cancelled) := by
  refine ⟨?_, ?_, ?_⟩
  · intro config files others h
    exact resolveFacts_eq_of_rearranges config h
  · intro config files others hperm hdistinct
    exact resolveFacts_eq_of_rearranges config (Rearranges.of_distinct hperm hdistinct)
  · intro config machine cancelled unit other h
    exact h.run_eq config machine cancelled

/-- A file of another path moves past the first of two files of one path, and in a unit a file that
does not parse moves past one that does. -/
theorem input_order_does_not_matter_swapped :
    let first : FileFacts := { path := ⟨"a.py"⟩, language := .python, contentHash := "first" }
    let second : FileFacts := { path := ⟨"a.py"⟩, language := .python, contentHash := "second" }
    let other : FileFacts := { path := ⟨"b.py"⟩, language := .python }
    let parsed : SourceFile := ⟨⟨"a.py"⟩, .python, "", .node default []⟩
    let broken : SourceFile :=
      ⟨⟨"b.py"⟩, .python, "(", .node { (default : Label) with hasError := true } []⟩
    let skipped : List FileFailure := [⟨⟨"c.py"⟩, .read, "unreadable"⟩]
    resolveFacts {} [first, other, second] = resolveFacts {} [other, first, second] ∧
      resolveFacts {} [first, other] = resolveFacts {} [other, first] ∧
      SourceUnit.run ⟨[parsed, broken], skipped⟩ {} {} (.constantly false) =
        SourceUnit.run ⟨[broken, parsed], skipped⟩ {} {} (.constantly false) := by
  intro first second other parsed broken skipped
  have hfacts : DistinctPaths FileFacts.path [first, other] := by
    simp only [DistinctPaths, List.pairwise_cons, List.mem_singleton, forall_eq]
    decide
  have hsources : DistinctPaths SourceFile.path [parsed, broken] := by
    simp only [DistinctPaths, List.pairwise_cons, List.mem_singleton, forall_eq]
    decide
  have hswap := Rearranges.of_distinct (.swap other first []) hfacts
  refine ⟨?_, ?_, ?_⟩
  · exact input_order_does_not_matter.1 _ _ _ (hswap.append ⟨.refl [second], fun _ => rfl⟩)
  · exact input_order_does_not_matter.2.1 _ _ _ (.swap other first []) hfacts
  · exact input_order_does_not_matter.2.2 _ _ _ _ _
      ⟨.swap broken parsed [], hsources, .refl skipped, fun _ => rfl⟩

end CodeAtlas
