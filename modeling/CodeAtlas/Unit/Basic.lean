import CodeAtlas.Error
import CodeAtlas.Facts.Basic
import CodeAtlas.Tree.Basic

/-!
# Source units

A unit is the set of files that are analyzed together: those that can be read, with their finished
syntax trees, and the failures of those that cannot. A byte order mark at the start of a source is
not part of its text.
-/

namespace CodeAtlas

/-- What went wrong with a file. -/
inductive FailureKind where
  /-- The source has a syntax error at a byte. -/
  | parse (offset : Nat)
  /-- The file cannot be read. -/
  | read
  /-- The file is in no supported language. -/
  | unsupported
deriving DecidableEq, Inhabited

/-- The word for a kind of failure. -/
def FailureKind.word : FailureKind → String
  | parse _ => "parse"
  | read => "read"
  | unsupported => "unsupported"

/-- Why a file contributes nothing to the graph. -/
structure FileFailure where
  path : Path
  kind : FailureKind
  message : String
deriving DecidableEq, Inhabited

/-- What an error says went wrong. -/
def FailureKind.ofError : Error → FailureKind
  | .parse _ offset => .parse offset
  | .unsupportedLanguage _ => .unsupported
  | .io _ => .read
  | _ => .parse 0

/-- The failure of a file that an error stands for. -/
def FileFailure.ofError (path : Path) (e : Error) : FileFailure where
  path := path
  kind := .ofError e
  message := e.message

/-- A file of a unit. -/
structure SourceFile where
  /-- The path relative to the root of the unit. -/
  path : Path
  language : Language
  text : String
  /-- The syntax tree of the text. -/
  tree : Tree
deriving Inhabited

/-- The files that are analyzed together. -/
structure SourceUnit where
  files : List SourceFile := []
  /-- The files that were found and could not be read. -/
  skipped : List FileFailure := []
deriving Inhabited

/-- Drop one byte order mark at the start. -/
def withoutMark (text : String) : String := (Text.dropStart? "\ufeff" text).getD text

namespace SourceUnit

/-- Is there no file that can be read? -/
def isEmpty (unit : SourceUnit) : Bool := unit.files.isEmpty

/-- Add a file in a given language. -/
def addFile (unit : SourceUnit) (path : Path) (language : Language) (text : String) (tree : Tree) :
    SourceUnit :=
  { unit with files := unit.files ++ [⟨path, language, withoutMark text, tree⟩] }

/-- Add a file whose language is that of its extension. -/
def addSource (unit : SourceUnit) (path : Path) (text : String) (tree : Tree) :
    Except Error SourceUnit :=
  match Language.ofPath? path with
  | none => .error (.unsupportedLanguage path)
  | some language => .ok (unit.addFile path language text tree)

end SourceUnit

end CodeAtlas
