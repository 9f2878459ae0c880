import CodeAtlas.Directory
import CodeAtlas.Ignore.Rule

/-!
# Walking a directory

A walk visits the files below a directory in the order of their names and leaves out what the ignore
files say. Every directory on the way may hold ignore files of its own; they speak about everything
below it, and the innermost one that has something to say is heard. The files of the program itself
come before the general ones, and these before those of the version control, which count only inside
a repository and not beyond its top. What no rule keeps or ignores is left out if its name starts
with a dot.

The directories of a walk are known by the path as it was written, so where the rules of a directory
apply depends on how many `./` that path starts with; see `relativeTo`.
-/

namespace CodeAtlas.Ignore

/-- Drop `./` at the start, once. -/
def dropDotSlash (path : String) : String := (Text.dropStart? "./" path).getD path

/-- The part of a written path that the rules of a written directory look at. It loses up to two
`./` in front, and then the directory and a slash, unless that is the working directory. -/
def relativeTo (directory path : String) : String :=
  let directory := dropDotSlash directory
  let path := dropDotSlash (dropDotSlash path)
  if Path.same ⟨directory⟩ ⟨"."⟩ || !Text.contains "/" path then path
  else
    match Text.dropStart? directory path with
    | none => path
    | some rest => (Text.dropStart? "/" rest).getD rest

/-- Where a directory with ignore files lies. -/
inductive Origin where
  /-- Around the walked directory, to which the names lead. -/
  | around (names : List String)
  /-- At or below the walked directory, as written. -/
  | within (written : String)

/-- An entry that a walk comes to. -/
structure Visited where
  /-- The names that lead to it from the walked directory. -/
  names : List String
  /-- Its path as written. -/
  written : String
  isDirectory : Bool

/-- The segments of the path of an entry that the rules of a directory look at. -/
def Origin.segments : Origin → Visited → List String
  | around names, entry => names ++ entry.names
  | within written, entry => Text.splitChar '/' (relativeTo written entry.written)

/-- The ignore files of a directory on the way to an entry. -/
structure Level where
  /-- Rules for this program. -/
  own : List Rule
  /-- Rules for every program. -/
  general : List Rule
  /-- Rules of the version control. -/
  versioned : List Rule
  /-- Rules of the version control that are not shared. -/
  excluded : List Rule
  /-- Is the directory the top of a repository? -/
  isRepository : Bool
  origin : Origin

/-- The rules of an ignore file in a directory. -/
def rulesIn (dir : Directory) (name : String) : List Rule :=
  (dir.file? name).elim [] fun file => parse file.content

/-- The ignore files of a directory; those of the version control only if they are asked for. -/
def Level.ofDirectory (versionControl : Bool) (origin : Origin) (dir : Directory) : Level where
  own := rulesIn dir ".factgraphignore"
  general := rulesIn dir ".ignore"
  versioned := if versionControl then rulesIn dir ".gitignore" else []
  excluded :=
    if versionControl then rulesIn ((dir.subdirectory ".git").subdirectory "info") "exclude" else []
  isRepository := versionControl && (dir.lookup ".git").isSome
  origin := origin

/-- The levels up to the top of the innermost repository; none outside of a repository. -/
def repositoryLevels : List Level → List Level
  | [] => []
  | level :: outer =>
    if level.isRepository then [level]
    else
      match repositoryLevels outer with
      | [] => []
      | levels => level :: levels

/-- What the innermost level with something to say says about an entry. -/
def verdictOf? (rules : Level → List Rule) (levels : List Level) (entry : Visited) :
    Option Verdict :=
  levels.findSome? fun level =>
    verdict? (rules level) (level.origin.segments entry) entry.isDirectory

/-- Is an entry with this name left out? -/
def isLeftOut (levels : List Level) (name : String) (entry : Visited) : Bool :=
  let versionControl := repositoryLevels levels
  let verdict :=
    ((verdictOf? Level.own levels entry).or (verdictOf? Level.general levels entry)).or
    ((verdictOf? Level.versioned versionControl entry).or
      (verdictOf? Level.excluded versionControl entry))
  match verdict with
  | some .ignored => true
  | some .kept => false
  | none => Text.startsWith "." name

/-- A file that a walk has found: the names that lead to it, and the file. -/
structure Found where
  names : List String
  file : StoredFile

/-- A directory that a walk has come to: the names that lead to it, its path as written, and the
levels on the way, the innermost first. -/
structure Position where
  names : List String
  written : Path
  levels : List Level

/-- The entry with a name in the directory at a position. -/
def Position.visited (place : Position) (name : String) (isDirectory : Bool) : Visited where
  names := place.names ++ [name]
  written := (place.written.join ⟨name⟩).text
  isDirectory := isDirectory

/-- Go down into a directory. -/
def Position.enter (place : Position) (versionControl : Bool) (name : String) (dir : Directory) :
    Position :=
  let written := place.written.join ⟨name⟩
  { names := place.names ++ [name]
    written := written
    levels := .ofDirectory versionControl (.within written.text) dir :: place.levels }

mutual

/-- The files below the entries of a directory. -/
def walkEntries (versionControl : Bool) (place : Position) :
    List (String × DirectoryEntry) → List Found
  | [] => []
  | (name, entry) :: rest =>
    walkEntry versionControl place name entry ++ walkEntries versionControl place rest

/-- The files at or below an entry. -/
def walkEntry (versionControl : Bool) (place : Position) (name : String) :
    DirectoryEntry → List Found
  | .file file =>
    if isLeftOut place.levels name (place.visited name false) then []
    else [⟨place.names ++ [name], file⟩]
  | .directory entries =>
    if isLeftOut place.levels name (place.visited name true) then []
    else walkEntries versionControl (place.enter versionControl name entries) entries

end

/-- The levels of the directories around one, to which the names lead. -/
def levelsAround (versionControl : Bool) (names : List String) : Directory.Trail → List Level
  | [] => []
  | (name, dir) :: outer =>
    .ofDirectory versionControl (.around names) dir ::
      levelsAround versionControl (name :: names) outer

/-- The files below the innermost directory of a trail, which is written as `root`. The ignore files
of the directories around it count, too. A lone dash means the standard input and has no files. -/
def walk (versionControl : Bool) (root : Path) (trail : Directory.Trail) : List Found :=
  match trail with
  | [] => []
  | (name, dir) :: outer =>
    if root.same ⟨"-"⟩ then []
    else
      let levels := .ofDirectory versionControl (.within root.text) dir ::
        levelsAround versionControl [name] outer
      walkEntries versionControl ⟨[], root, levels⟩ dir

end CodeAtlas.Ignore
