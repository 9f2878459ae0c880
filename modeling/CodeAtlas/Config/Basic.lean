import CodeAtlas.Language

/-!
# Configuration

The settings of an analysis and their defaults: which directory and which languages are read, how
files are chosen, and how names are resolved.
-/

namespace CodeAtlas

/-- What is analyzed. -/
structure ProjectConfig where
  /-- The directory to scan, relative to the configuration file. -/
  root : String := "."
  /-- Tags of the languages to read. -/
  languages : List String := Language.all.map (·.name)
  /-- Names of directories to skip. -/
  ignore : List String := []
deriving DecidableEq, Inhabited

/-- How files are chosen and read. -/
structure AnalysisConfig where
  /-- The number of workers; zero leaves the choice to the machine. -/
  threads : Nat := 0
  /-- Larger files are skipped. -/
  maxFileBytes : Nat := 1024 * 1024
  /-- Are the ignore files of the version control honored? -/
  followGitignore : Bool := true
deriving DecidableEq, Inhabited

/-- How names are resolved. -/
structure ResolutionConfig where
  /-- Are inherited members found through the bases of a class? -/
  walkBases : Bool := true
  /-- Names that count as builtins in every language. -/
  extraBuiltins : List String := []
deriving DecidableEq, Inhabited

/-- All settings. -/
structure Config where
  project : ProjectConfig := {}
  analysis : AnalysisConfig := {}
  resolution : ResolutionConfig := {}
deriving DecidableEq, Inhabited

namespace Config

/-- The languages to read, each once; unknown tags are passed over. -/
def enabledLanguages (config : Config) : List Language :=
  (config.project.languages.filterMap Language.ofTag?).eraseDups

/-- The directory to scan, given the path of the configuration file. -/
def rootFor (config : Config) (file : Path) : Path :=
  (file.parent?.getD file).join ⟨config.project.root⟩

/-- The number of workers, if the configuration fixes it. -/
def fixedThreads? (config : Config) : Option Nat :=
  if config.analysis.threads = 0 then none else some config.analysis.threads

/-- The number of workers on a machine: as many as it has processors, if nothing else is fixed. -/
def workerThreads (config : Config) (processors : Option Nat) : Nat :=
  config.fixedThreads?.getD (processors.getD 1)

end Config

end CodeAtlas
