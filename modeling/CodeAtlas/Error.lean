import CodeAtlas.Path

/-!
# Errors

The causes for which an operation fails, and how each is worded. Only an empty unit, a phase out of
order and workers that cannot be started end a whole run; every other error concerns one file or one
argument.
-/

namespace CodeAtlas

/-- How far the resolution of a unit has come. -/
inductive Phase where
  | pending
  | collected
  | importsLinked
  | callsLinked
deriving DecidableEq, Inhabited

/-- The word for a phase. -/
def Phase.word : Phase → String
  | pending => "pending"
  | collected => "collected"
  | importsLinked => "imports-linked"
  | callsLinked => "calls-linked"

/-- Why an operation fails. -/
inductive Error where
  /-- The source has a syntax error at a byte. -/
  | parse (path : Path) (offset : Nat)
  /-- The extension of the file belongs to no language. -/
  | unsupportedLanguage (path : Path)
  /-- The tag belongs to no language. -/
  | unknownTag (tag : String)
  /-- The parser for the language of a file cannot be set up. -/
  | parserSetup (path : Path) (reason : String)
  /-- The parser gives no tree for a file. -/
  | noTree (path : Path)
  /-- A file or directory cannot be read. -/
  | io (reason : String)
  /-- There is nothing to analyze. -/
  | emptyUnit
  /-- A step of the resolution is not the next one. -/
  | phaseOrder (expected found : Phase)
  /-- The workers that read the files cannot be started. -/
  | workers (reason : String)
  /-- The configuration cannot be read. -/
  | config
deriving DecidableEq

namespace Error

/-- The message for an error. -/
def message : Error → String
  | parse path offset => path.text ++ ": syntax error at byte " ++ Nat.repr offset
  | unsupportedLanguage path => "unsupported language for " ++ path.text
  | unknownTag tag => "unknown language tag '" ++ tag ++ "'"
  | parserSetup path reason => "failed to initialize parser for " ++ path.text ++ ": " ++ reason
  | noTree path => path.text ++ ": parser produced no tree"
  | io reason => "I/O error: " ++ reason
  | emptyUnit => "analyzed unit contains no files"
  | phaseOrder expected found =>
    "resolver phase out of order: expected " ++ expected.word ++ ", found " ++ found.word
  | workers reason => "failed to build worker pool: " ++ reason
  | config => "invalid configuration"

/-- Does the error end the whole run? -/
def isFatal : Error → Bool
  | emptyUnit | phaseOrder _ _ | workers _ => true
  | _ => false

end Error

end CodeAtlas
