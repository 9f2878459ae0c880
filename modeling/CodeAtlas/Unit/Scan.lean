import CodeAtlas.Config.Basic
import CodeAtlas.FileSystem
import CodeAtlas.Ignore.Walk
import CodeAtlas.Unit.Basic

/-!
# Scanning a directory

A scan walks a directory of a file system and keeps the files it finds, in the order of the walk. The
settings only filter what the walk comes to: by the names on the way to a file, by language and by
size. A file that cannot be read, or is no text, is kept as a failure.

A directory in memory is a file system, too, with a walk that honors the ignore files in it.
-/

namespace CodeAtlas

/-- Names that are never part of a unit. -/
def alwaysIgnored : List String :=
  ["node_modules", "vendor", "dist", "build", ".git", ".svn", ".hg", "__pycache__", ".tox", ".venv",
    "venv", "target", ".next", ".nuxt", "coverage", ".cache", ".turbo", ".output"]

/-- Do the settings pass over one of the names? A name that is no text counts as the empty one. -/
def Config.ignores (config : Config) (names : List DiskName) : Bool :=
  names.any fun name =>
    let text := name.text?.getD ""
    alwaysIgnored.contains text || config.project.ignore.contains text

/-- A file that a scan has read. -/
structure ScannedFile where
  /-- The names that lead to it from the scanned directory. -/
  names : List DiskName
  language : Language
  text : String
  tree : Tree

/-- A file that a scan has found and could not read. -/
structure ScanFailure where
  names : List DiskName
  kind : FailureKind
  message : String

/-- What a scan has found, in the order of its walk. -/
structure Scan where
  files : List ScannedFile := []
  skipped : List ScanFailure := []

namespace FileSystem

/-- The language in which an entry is read, if it is a file that the settings choose. -/
def choose? (fs : FileSystem) (root : Path) (config : Config) (entry : WalkEntry) :
    Option Language :=
  if !entry.isFile || config.ignores entry.names ||
      config.analysis.maxFileBytes < fs.sizeOf root entry.names then none
  else (DiskName.languageOf? entry.names).filter config.enabledLanguages.contains

/-- Read a file that was chosen. -/
def addChosen (fs : FileSystem) (root : Path) (names : List DiskName) (scan : Scan)
    (language : Language) : Scan :=
  match fs.readText root names with
  | .ok text =>
    { scan with files := scan.files ++ [⟨names, language, withoutMark text, fs.tree root names⟩] }
  | .error reason =>
    let e := Error.io reason
    { scan with skipped := scan.skipped ++ [⟨names, .ofError e, e.message⟩] }

/-- Go on with what a walk comes to next. -/
def addWalked (fs : FileSystem) (root : Path) (config : Config) (scan : Scan)
    (walked : Option WalkEntry) : Scan :=
  match walked with
  | none => scan
  | some entry => (fs.choose? root config entry).elim scan (fs.addChosen root entry.names scan)

/-- Scan the directory at a path. -/
def scan (fs : FileSystem) (root : Path) (config : Config) : Except Error Scan :=
  if fs.isDirectory root then
    .ok ((fs.walk root config.analysis.followGitignore).foldl (fs.addWalked root config) {})
  else .error (.io (root.text ++ " is not a directory"))

end FileSystem

namespace Directory

/-- The file to which names lead from a directory. -/
def storedBelow? (working : Directory) (root : Path) (names : List DiskName) : Option StoredFile :=
  (DiskName.path? names).bind fun path => working.fileAt? (root.join path)

/-- A directory as a file system. -/
def fileSystem (working : Directory) : FileSystem where
  isDirectory root := (working.locate? root).isSome
  walk root versionControl :=
    ((working.locate? root).elim [] (Ignore.walk versionControl root)).map fun found =>
      some ⟨found.names.map .text, true⟩
  size? root names := (working.storedBelow? root names).map (·.content.size)
  read root names :=
    (working.storedBelow? root names).elim (.error "entity not found") fun file => .ok file.content
  tree root names := (working.storedBelow? root names).elim default (·.tree)

end Directory

namespace SourceUnit

/-- The unit of the files that a scan has found; their paths have to be texts. -/
def ofScan (scan : Scan) : SourceUnit where
  files := scan.files.filterMap fun f =>
    (DiskName.path? f.names).map fun path => ⟨path, f.language, f.text, f.tree⟩
  skipped := scan.skipped.filterMap fun s =>
    (DiskName.path? s.names).map fun path => ⟨path, s.kind, s.message⟩

/-- The unit of the files below a directory, given by its path from the working directory. -/
def scan (working : Directory) (root : Path) (config : Config) : Except Error SourceUnit :=
  (working.fileSystem.scan root config).map ofScan

end SourceUnit

end CodeAtlas
