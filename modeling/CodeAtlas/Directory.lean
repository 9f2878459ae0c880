import CodeAtlas.Path
import CodeAtlas.Tree.Basic

/-!
# Directories

A directory holds files and directories under names, in the order of their names. Directories are
built from the paths of their files, and found again by following a path from the working
directory.
-/

namespace CodeAtlas

/-- A file as it is stored. -/
structure StoredFile where
  content : ByteArray
  /-- The finished syntax tree of the source, if it is one. -/
  tree : Tree
deriving Inhabited

/-- What stands under a name. -/
inductive DirectoryEntry where
  | file (file : StoredFile)
  | directory (entries : List (String × DirectoryEntry))
deriving Inhabited

/-- The entries of a directory. -/
abbrev Directory := List (String × DirectoryEntry)

namespace Directory

/-- Put an entry in its place by name, instead of one of the same name. -/
def put (name : String) (entry : DirectoryEntry) : Directory → Directory
  | [] => [(name, entry)]
  | (other, e) :: rest =>
    if name = other then (name, entry) :: rest
    else if name < other then (name, entry) :: (other, e) :: rest
    else (other, e) :: put name entry rest

/-- The directory under a name, empty if there is none. -/
def subdirectory (dir : Directory) (name : String) : Directory :=
  match dir.lookup name with
  | some (.directory entries) => entries
  | _ => []

/-- The file under a name. -/
def file? (dir : Directory) (name : String) : Option StoredFile :=
  match dir.lookup name with
  | some (.file file) => some file
  | _ => none

/-- Make the directories along a path of names. -/
def addDirectory : List String → Directory → Directory
  | [], dir => dir
  | name :: rest, dir => dir.put name (.directory (addDirectory rest (dir.subdirectory name)))

/-- Store a file under a path of names. -/
def addFile (file : StoredFile) : List String → Directory → Directory
  | [], dir => dir
  | [name], dir => dir.put name (.file file)
  | name :: rest, dir => dir.put name (.directory (addFile file rest (dir.subdirectory name)))

/-- A directory together with those that lead to it, the innermost first; each but the outermost has
its name in the next one. -/
abbrev Trail := List (String × Directory)

/-- Follow the components of a path. The way leads through directories only and never out of the
outermost one. -/
def follow : List Path.Component → Trail → Option Trail
  | [], trail => some trail
  | .root :: _, _ => none
  | .current :: rest, trail => follow rest trail
  | .parent :: rest, trail =>
    match trail with
    | _ :: outer :: more => follow rest (outer :: more)
    | _ => none
  | .name name :: rest, trail =>
    match trail with
    | [] => none
    | (_, dir) :: _ =>
      match dir.lookup name with
      | some (.directory inner) => follow rest ((name, inner) :: trail)
      | _ => none

/-- The directory at a path, with the directories around it. -/
def locate? (working : Directory) (path : Path) : Option Trail :=
  if path.text = "" then none else follow path.components [("", working)]

/-- Can the path only name a directory, by the way it ends? -/
def endsAsDirectory (path : Path) : Bool :=
  Text.endsWith "/" path.text || Text.endsWith "/." path.text

/-- The file at a path. -/
def fileAt? (working : Directory) (path : Path) : Option StoredFile :=
  if endsAsDirectory path then none
  else
    match path.components.getLast? with
    | some (.name name) => do
      let trail ← follow path.components.dropLast [("", working)]
      let (_, dir) ← trail.head?
      dir.file? name
    | _ => none

end Directory

end CodeAtlas
