import CodeAtlas.Config.Basic
import CodeAtlas.Facts.Extract
import CodeAtlas.Graph.Session
import CodeAtlas.Unit.Basic

/-!
# Running an analysis

A run starts workers, reads the facts of every file on its own and resolves those of the files without
errors. A file with an error is reported and leaves the rest alone. A unit with nothing in it cannot
be run, and no unit on a machine that does not start the workers. Every file looks whether the run is
cancelled before it is read; a cancelled run keeps the facts it has and resolves nothing.
-/

namespace CodeAtlas

/-- A finished run: the graph and the failures, ordered by path. -/
structure Analysis where
  graph : Graph
  errors : List FileFailure

/-- What a cancelled run has read. -/
structure PartialRun where
  files : List FileFacts
  errors : List FileFailure

/-- How a run ends. -/
inductive Outcome where
  | complete (analysis : Analysis)
  | cancelled (run : PartialRun)

/-- What a run takes from the machine: how many processors there are, if that can be told, and why so
many workers cannot be started, if they cannot. -/
structure Machine where
  processors : Option Nat := none
  refuses : Nat → Option String := fun _ => none

/-- The machine starts the workers that a configuration asks for. -/
def Machine.Starts (machine : Machine) (config : Config) : Prop :=
  machine.refuses (config.workerThreads machine.processors) = none

/-- What a run finds when it looks at its cancellation token: before every file, by the place of the
file in the unit, and once more after the last. A token that is set stays set. -/
structure Token where
  setBefore : Nat → Bool
  setAfter : Bool
  stays : ∀ i, setBefore i = true → setAfter = true

namespace Token

/-- The token of a run that is cancelled from the start, or never. -/
def constantly (set : Bool) : Token := ⟨fun _ => set, set, fun _ h => h⟩

/-- The files that do not find the token set. -/
def admitted (token : Token) (files : List SourceFile) : List SourceFile :=
  (files.zipIdx.filter fun x => !token.setBefore x.2).map Prod.fst

/-- A token that is not set at the end was never set. -/
theorem setBefore_eq_false {token : Token} (h : token.setAfter = false) (i : Nat) :
    token.setBefore i = false :=
  Bool.eq_false_iff.mpr fun hset => Bool.eq_false_iff.mp h (token.stays i hset)

/-- So it admits all files. -/
theorem admitted_of_unset {token : Token} (h : token.setAfter = false) (files : List SourceFile) :
    token.admitted files = files := by
  rw [admitted, List.filter_eq_self.mpr fun x _ => by simp [setBefore_eq_false h]]
  exact List.zipIdx_map_fst 0 files

/-- A token that is set from the start admits none. -/
theorem admitted_constantly_true (files : List SourceFile) :
    (constantly true).admitted files = [] := by
  simp [admitted, constantly]

end Token

/-- Resolve whatever was read. -/
def PartialRun.resolve (run : PartialRun) (config : ResolutionConfig) : Except Error Analysis :=
  (resolveFacts config run.files).map fun graph => ⟨graph, run.errors⟩

/-- The facts of a file, or why there are none. -/
def SourceFile.read (file : SourceFile) : Except FileFailure FileFacts :=
  (extractSource file.path file.language file.text file.tree).mapError (.ofError file.path)

/-- The failure among the results of reading a file. -/
def failure? {α : Type} : Except FileFailure α → Option FileFailure
  | .ok _ => none
  | .error failure => some failure

/-- Failures in the order of their paths; those of one path keep their order. -/
def sortFailures (failures : List FileFailure) : List FileFailure :=
  failures.mergeSort fun a b => a.path.le b.path

namespace SourceUnit

/-- Read every file and put the results together. -/
def readAll (unit : SourceUnit) : PartialRun :=
  let results := unit.files.map SourceFile.read
  { files := results.filterMap Except.toOption
    errors := sortFailures (unit.skipped ++ results.filterMap failure?) }

/-- Read the files that do not find the run cancelled. -/
def readAdmitted (unit : SourceUnit) (token : Token) : PartialRun :=
  readAll { unit with files := token.admitted unit.files }

/-- Run an analysis. -/
def run (unit : SourceUnit) (config : Config) (machine : Machine) (token : Token) :
    Except Error Outcome :=
  if unit.files.isEmpty && unit.skipped.isEmpty then .error .emptyUnit
  else
    match machine.refuses (config.workerThreads machine.processors) with
    | some reason => .error (.workers reason)
    | none =>
      let read := unit.readAdmitted token
      if token.setAfter then .ok (.cancelled read)
      else if read.files.isEmpty then .ok (.complete ⟨.empty, read.errors⟩)
      else (read.resolve config.resolution).map .complete

end SourceUnit

end CodeAtlas
