import CodeAtlas.Proofs.InputOrder
import Mathlib.Data.List.Forall2

/-!
# Failures stay with their files

A run reads every file by itself, so a file with a syntax error has one effect only: its failure
stands among the failures, at the place where sorting by path puts it. The graph is made of the facts
of the other files, and if there are none it is empty. On a machine that starts the workers, a run
that is not cancelled therefore ends with a graph whenever there is a file or a failure of finding
one.
-/

namespace CodeAtlas

namespace SourceFile

/-- Does the source have a syntax error? -/
def isBroken (file : SourceFile) : Bool := file.tree.label.hasError

/-- The failure of a file with a syntax error. -/
def parseFailure (file : SourceFile) : FileFailure where
  path := file.path
  kind := .parse file.tree.firstErrorOffset
  message := (Error.parse file.path file.tree.firstErrorOffset).message

variable {file : SourceFile}

/-- A file with a syntax error has no facts. -/
theorem read_of_broken (h : file.isBroken = true) : file.read = .error file.parseFailure := by
  unfold isBroken at h
  have hoffset : file.tree.errorOffset? = some file.tree.firstErrorOffset := by
    rw [Tree.errorOffset?, if_pos h]
  rw [read, extractSource, hoffset]
  rfl

/-- A file without a syntax error has facts. -/
theorem exists_facts (h : file.isBroken = false) :
    ∃ facts, extractSource file.path file.language file.text file.tree = .ok facts ∧
      file.read = .ok facts := by
  unfold isBroken at h
  have hoffset : file.tree.errorOffset? = none := by
    rw [Tree.errorOffset?, if_neg (Bool.eq_false_iff.mp h)]
  refine ⟨({ language := file.language, text := file.text, tree := file.tree } : Document).facts
    file.path, ?_, ?_⟩
  · rw [extractSource, hoffset]
  · rw [read, extractSource, hoffset]
    rfl

end SourceFile

/-- The facts that are read are those of the files without a syntax error, in their order. -/
theorem forall₂_read_facts (files : List SourceFile) :
    List.Forall₂
      (fun file facts => extractSource file.path file.language file.text file.tree = .ok facts)
      (files.filter (!·.isBroken)) (files.filterMap fun file => file.read.toOption) := by
  induction files with
  | nil => exact .nil
  | cons file files ih =>
    cases hbroken : file.isBroken with
    | true =>
      have hnone : file.read.toOption = none := by
        rw [SourceFile.read_of_broken hbroken]
        rfl
      rw [List.filter_cons_of_neg (by simp [hbroken]), List.filterMap_cons, hnone]
      exact ih
    | false =>
      obtain ⟨facts, hextract, hread⟩ := SourceFile.exists_facts hbroken
      have hsome : file.read.toOption = some facts := by
        rw [hread]
        rfl
      rw [List.filter_cons_of_pos (by simp [hbroken]), List.filterMap_cons, hsome]
      exact .cons hextract ih

/-- The failures of reading are those of the files with a syntax error, in their order. -/
theorem filterMap_failure? (files : List SourceFile) :
    (files.filterMap fun file => failure? file.read) =
      (files.filter (·.isBroken)).map SourceFile.parseFailure := by
  induction files with
  | nil => rfl
  | cons file files ih =>
    cases hbroken : file.isBroken with
    | true =>
      have hsome : failure? file.read = some file.parseFailure := by
        rw [SourceFile.read_of_broken hbroken]
        rfl
      rw [List.filterMap_cons, hsome, List.filter_cons_of_pos hbroken, List.map_cons, ih]
    | false =>
      obtain ⟨facts, _, hread⟩ := SourceFile.exists_facts hbroken
      have hnone : failure? file.read = none := by
        rw [hread]
        rfl
      rw [List.filterMap_cons, hnone, List.filter_cons_of_neg (by simp [hbroken]), ih]

/-- The graph of some facts; without any it is empty. -/
def graphOf (config : ResolutionConfig) (facts : List FileFacts) : Graph :=
  match resolveFacts config facts with
  | .ok graph => graph
  | .error _ => .empty

/-- Facts are resolved to their graph. -/
theorem resolveFacts_eq_graphOf (config : ResolutionConfig) {facts : List FileFacts}
    (hnonempty : facts ≠ []) : resolveFacts config facts = .ok (graphOf config facts) := by
  rw [graphOf, (completedRun_of_ne_nil config hnonempty).resolves]

namespace SourceUnit

variable {unit : SourceUnit}

/-- There is something in a unit with a file or a failure. -/
theorem isEmpty_eq_false (hunit : unit.files ≠ [] ∨ unit.skipped ≠ []) :
    (unit.files.isEmpty && unit.skipped.isEmpty) = false := by
  rcases hunit with hfiles | hskipped
  · simp [hfiles]
  · simp [hskipped]

/-- A unit with nothing in it cannot be run. -/
theorem run_of_empty (hfiles : unit.files = []) (hskipped : unit.skipped = []) (config : Config)
    (machine : Machine) (token : Token) : unit.run config machine token = .error .emptyUnit := by
  rw [run, hfiles, hskipped]
  rfl

/-- No other unit can be run on a machine that does not start the workers. -/
theorem run_of_refused (hunit : unit.files ≠ [] ∨ unit.skipped ≠ []) {config : Config}
    {machine : Machine} {reason : String}
    (hrefused : machine.refuses (config.workerThreads machine.processors) = some reason)
    (token : Token) : unit.run config machine token = .error (.workers reason) := by
  rw [run, isEmpty_eq_false hunit, if_neg Bool.false_ne_true, hrefused]

/-- With workers, a run that is cancelled on the way keeps what was read before. -/
theorem run_eq_cancelled (hunit : unit.files ≠ [] ∨ unit.skipped ≠ []) {config : Config}
    {machine : Machine} (hstarts : machine.Starts config) {token : Token}
    (hset : token.setAfter = true) :
    unit.run config machine token = .ok (.cancelled (unit.readAdmitted token)) := by
  rw [Machine.Starts] at hstarts
  rw [run, isEmpty_eq_false hunit, if_neg Bool.false_ne_true, hstarts]
  exact if_pos hset

/-- With workers, a run that is not cancelled comes to the graph of the facts and to the failures. -/
theorem run_eq_complete (hunit : unit.files ≠ [] ∨ unit.skipped ≠ []) {config : Config}
    {machine : Machine} (hstarts : machine.Starts config) {token : Token}
    (hunset : token.setAfter = false) :
    unit.run config machine token =
      .ok (.complete ⟨graphOf config.resolution unit.readAll.files, unit.readAll.errors⟩) := by
  rw [Machine.Starts] at hstarts
  have hall : unit.readAdmitted token = unit.readAll := by
    rw [readAdmitted, Token.admitted_of_unset hunset]
  rw [run, isEmpty_eq_false hunit, if_neg Bool.false_ne_true, hstarts, hall, hunset]
  dsimp only
  rw [if_neg Bool.false_ne_true]
  by_cases hfacts : unit.readAll.files = []
  · rw [if_pos (by rw [hfacts]; rfl), hfacts]
    rfl
  · rw [if_neg (by simpa using hfacts), PartialRun.resolve,
      resolveFacts_eq_graphOf config.resolution hfacts]
    rfl

end SourceUnit

/-- What a completed run over a unit consists of, given the facts that were resolved. -/
structure Analysis.AccountsFor (analysis : Analysis) (config : Config) (unit : SourceUnit)
    (facts : List FileFacts) : Prop where
  /-- Exactly the files without a syntax error have facts. -/
  extracted : List.Forall₂
    (fun file facts => extractSource file.path file.language file.text file.tree = .ok facts)
    (unit.files.filter (!·.isBroken)) facts
  graph : facts ≠ [] → resolveFacts config.resolution facts = .ok analysis.graph
  noGraph : facts = [] → analysis.graph = .empty
  /-- Exactly the files with a syntax error add a failure. -/
  errors : Rearranges FileFailure.path analysis.errors
    (unit.skipped ++ (unit.files.filter (·.isBroken)).map SourceFile.parseFailure)
  sorted : SortedByPath FileFailure.path analysis.errors

/-- A run with the same graph and with one failure in between the others. -/
structure Analysis.AddsFailure (analysis more : Analysis) (failure : FileFailure) : Prop where
  graph : more.graph = analysis.graph
  errors : ∃ earlier later, analysis.errors = earlier ++ later ∧
    more.errors = earlier ++ failure :: later
  sorted : SortedByPath FileFailure.path more.errors

namespace SourceUnit

/-- The outcome of a run accounts for every file. -/
theorem accountsFor_readAll (config : Config) (unit : SourceUnit) :
    Analysis.AccountsFor ⟨graphOf config.resolution unit.readAll.files, unit.readAll.errors⟩ config
      unit unit.readAll.files where
  extracted := by
    rw [files_readAll]
    exact forall₂_read_facts unit.files
  graph := resolveFacts_eq_graphOf config.resolution
  noGraph := by
    intro hfacts
    change graphOf config.resolution unit.readAll.files = .empty
    rw [hfacts]
    rfl
  errors := by
    change Rearranges _ unit.readAll.errors _
    rw [errors_readAll, filterMap_failure?]
    exact ⟨List.mergeSort_perm _ _, fun p => underPath_sortByPath _ p _⟩
  sorted := by
    change SortedByPath _ unit.readAll.errors
    rw [errors_readAll]
    exact sortByPath_sorted _ _

/-- A file with a syntax error adds its failure to what is read and nothing else. -/
theorem readAll_insert_broken (before after : List SourceFile) (skipped : List FileFailure)
    {bad : SourceFile} (hbad : bad.isBroken = true) :
    (readAll ⟨before ++ bad :: after, skipped⟩).files = (readAll ⟨before ++ after, skipped⟩).files ∧
      ∃ earlier later, (readAll ⟨before ++ after, skipped⟩).errors = earlier ++ later ∧
        (readAll ⟨before ++ bad :: after, skipped⟩).errors =
          earlier ++ bad.parseFailure :: later := by
  constructor
  · have hnone : bad.read.toOption = none := by
      rw [SourceFile.read_of_broken hbad]
      rfl
    rw [files_readAll, files_readAll, List.filterMap_append, List.filterMap_append,
      List.filterMap_cons, hnone]
  · rw [errors_readAll, errors_readAll, filterMap_failure?, filterMap_failure?, List.filter_append,
      List.filter_append, List.filter_cons_of_pos hbad, List.map_append, List.map_append,
      List.map_cons, ← List.append_assoc, ← List.append_assoc]
    exact exists_sortByPath_insert _ _ _

end SourceUnit

/-- On a machine that starts the workers, a run that is not cancelled fails only for a unit with
nothing in it. Otherwise every file is resolved or its failure listed, apart from all others. -/
theorem file_failures_are_isolated (config : Config) (unit : SourceUnit) (machine : Machine)
    (hstarts : machine.Starts config) (token : Token) (hunset : token.setAfter = false) :
    (∀ e, unit.run config machine token = .error e ↔
      e = .emptyUnit ∧ unit.files = [] ∧ unit.skipped = []) ∧
    (unit.files ≠ [] ∨ unit.skipped ≠ [] →
      ∃ analysis facts, unit.run config machine token = .ok (.complete analysis) ∧
        analysis.AccountsFor config unit facts ∧
        ∀ before after bad, unit.files = before ++ after → bad.isBroken = true →
          ∃ more, SourceUnit.run { unit with files := before ++ bad :: after } config machine token =
              .ok (.complete more) ∧
            analysis.AddsFailure more bad.parseFailure) := by
  constructor
  · intro e
    by_cases hunit : unit.files = [] ∧ unit.skipped = []
    · rw [SourceUnit.run_of_empty hunit.1 hunit.2]
      constructor
      · intro herror
        exact ⟨(Except.error.inj herror).symm, hunit⟩
      · rintro ⟨rfl, _⟩
        rfl
    · rw [SourceUnit.run_eq_complete (not_and_or.mp hunit) hstarts hunset]
      constructor
      · intro herror
        cases herror
      · rintro ⟨_, hempty⟩
        exact absurd hempty hunit
  · intro hunit
    refine ⟨_, _, SourceUnit.run_eq_complete hunit hstarts hunset,
      SourceUnit.accountsFor_readAll config unit, ?_⟩
    intro before after bad hfiles hbad
    obtain ⟨hsame, herrors⟩ := SourceUnit.readAll_insert_broken before after unit.skipped hbad
    rw [← hfiles] at hsame herrors
    refine ⟨_, SourceUnit.run_eq_complete (.inl (by simp)) hstarts hunset, ?_, herrors, ?_⟩
    · exact congrArg (graphOf config.resolution) hsame
    · exact (SourceUnit.accountsFor_readAll config _).sorted

/-- A broken file in front of the only file of the unit, whose path it repeats, beside a file that
could not be read, on a machine with few workers to spare. -/
theorem file_failures_are_isolated_repeated_path :
    let good : SourceFile := ⟨⟨"pkg/a.py"⟩, .python, "", .node default []⟩
    let bad : SourceFile :=
      ⟨⟨"pkg//a.py"⟩, .python, "(", .node { (default : Label) with hasError := true } []⟩
    let unit : SourceUnit := ⟨[good], [⟨⟨"c.py"⟩, .read, "unreadable"⟩]⟩
    let machine : Machine :=
      { processors := some 4, refuses := fun n => if n ≤ 64 then none else some "out of memory" }
    machine.Starts {} ∧ ∃ analysis facts,
      unit.run {} machine (.constantly false) = .ok (.complete analysis) ∧
      analysis.AccountsFor {} unit facts ∧
      ∃ more, SourceUnit.run ⟨[bad, good], unit.skipped⟩ {} machine (.constantly false) =
          .ok (.complete more) ∧
        analysis.AddsFailure more bad.parseFailure := by
  intro good bad unit machine
  have hstarts : machine.Starts {} := rfl
  obtain ⟨analysis, facts, hrun, haccounts, hinsert⟩ :=
    (file_failures_are_isolated {} unit machine hstarts (.constantly false) rfl).2
      (.inl (List.cons_ne_nil _ _))
  exact ⟨hstarts, analysis, facts, hrun, haccounts, hinsert [] [good] bad rfl rfl⟩

end CodeAtlas
