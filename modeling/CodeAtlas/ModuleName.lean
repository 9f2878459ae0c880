import CodeAtlas.Language

/-!
# Names of modules

A file answers to a logical name, the list of its directories and its stem, and may stand for its
directory as a whole. An import names its target in the notation of its language, absolutely or
relative to the importing file. Everything here is arithmetic on lists of segments.
-/

namespace CodeAtlas

/-- The place of a file among the modules of its unit. -/
structure Place where
  segments : List String
  /-- Does the file stand for its directory? Relative imports then start at the file itself. -/
  isPackage : Bool
deriving DecidableEq, Inhabited

/-- The place of a file. -/
def Place.ofPath (path : Path) (lang : Language) : Place :=
  let directories := path.directories
  let stem := path.stem?.getD ""
  match lang with
  | .python =>
    if stem = "__init__" then ⟨directories, true⟩ else ⟨directories ++ [stem], false⟩
  | .rust =>
    -- The root of a program is a module beside the library root, yet its paths start at the
    -- directory. Any other file can have child modules.
    if stem = "main" then ⟨directories ++ [stem], false⟩
    else if stem = "mod" || stem = "lib" then ⟨directories, true⟩
    else ⟨directories ++ [stem], true⟩
  | .javaScript | .typeScript | .tsx =>
    let stem := (Text.dropEnd? ".d" stem).getD stem
    if stem = "index" then ⟨directories, true⟩ else ⟨directories ++ [stem], false⟩
  | .go | .java => ⟨directories ++ [stem], false⟩
  | .c | .cpp => ⟨directories ++ [path.fileName?.getD ""], false⟩

/-- Where a relative import of the given depth starts, unless that lies above the unit. -/
def Place.base? (place : Place) (depth : Nat) : Option (List String) :=
  let steps := (if place.isPackage then 0 else 1) + (depth - 1)
  if steps ≤ place.segments.length then
    some (place.segments.take (place.segments.length - steps))
  else none

/-- Is the second list a non-empty final part of the first? -/
def endsWithSegments (key tail : List String) : Bool := !tail.isEmpty && tail.isSuffixOf key

/-- The file extensions that an import between scripts may spell out. -/
def scriptExtensions : List String := ["js", "jsx", "mjs", "cjs", "ts", "tsx", "mts", "cts"]

/-- Pieces without surrounding blanks, empty ones left out. -/
def cleanSegments (pieces : List String) : List String :=
  (pieces.map Text.trim).filter (· ≠ "")

/-- The names in a path-like specifier. -/
def pathSegments (target : String) : List String :=
  cleanSegments ((Text.splitChar '/' target).filter fun s => s ≠ "." && s ≠ "..")

/-- The stem of a script file name whose extension is spelled out. -/
def scriptStem (name : String) : String :=
  match Text.breakAtLast? "." name with
  | some (stem, extension) => if scriptExtensions.contains extension then stem else name
  | none => name

/-- The segments of a script specifier: its last one loses a script extension, and a final
`index` means the directory. -/
def scriptSegments (target : String) : List String :=
  let segments := pathSegments target
  match segments.getLast? with
  | none => []
  | some last =>
    let stem := scriptStem last
    if stem = "index" then segments.dropLast else segments.dropLast ++ [stem]

/-- The segments of an import target, without the part that only says where it starts. -/
def targetSegments (target : String) (lang : Language) : List String :=
  match lang with
  | .python => cleanSegments (Text.splitChar '.' (Text.trimStartChar '.' target))
  | .java => cleanSegments (Text.splitChar '.' target)
  | .rust =>
    cleanSegments ((Text.splitAt "::" target).dropWhile fun s =>
      s = "self" || s = "super" || s = "crate")
  | .go => pathSegments target
  | .javaScript | .typeScript | .tsx => scriptSegments target
  | .c | .cpp =>
    if Text.contains "::" target then cleanSegments (Text.splitAt "::" target)
    else pathSegments target

end CodeAtlas
