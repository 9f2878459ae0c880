import CodeAtlas.Language

/-!
# The facts of one file

What reading one syntax tree yields: the declarations with their scopes, signatures and profiles,
the imports, and the calls. Facts refer to declarations by their position in the file's own list;
nothing is resolved yet.
-/

namespace CodeAtlas

/-- Where a fact stands in its file. Lines count from one, columns and bytes from zero. -/
structure Extent where
  startLine : Nat := 0
  endLine : Nat := 0
  startColumn : Nat := 0
  endColumn : Nat := 0
  startByte : Nat := 0
  endByte : Nat := 0
deriving DecidableEq, Inhabited

/-- What is declared. -/
inductive SymbolKind where
  | function
  | classLike
  | var
  /-- A function that belongs to a class. -/
  | method
deriving DecidableEq, Inhabited

/-- The word for a kind of symbol. -/
def SymbolKind.word : SymbolKind → String
  | function => "function"
  | classLike => "class"
  | var => "variable"
  | method => "method"

/-- Who is meant to use a name, by the convention of leading underscores. -/
inductive Visibility where
  | exposed
  /-- One leading underscore. -/
  | hidden
  /-- Two leading underscores, and not two at the end of a longer name. -/
  | mangled
deriving DecidableEq, Inhabited

namespace Visibility

/-- The visibility that a name announces. A name such as `__init__` is exposed. -/
def ofName (name : String) : Visibility :=
  let special := name.utf8ByteSize > 4 && Text.startsWith "__" name && Text.endsWith "__" name
  if special then exposed
  else if Text.startsWith "__" name then mangled
  else if Text.startsWith "_" name then hidden
  else exposed

/-- The word for a visibility. -/
def word : Visibility → String
  | exposed => "public"
  | hidden => "private"
  | mangled => "name-mangled"

/-- Is the name meant for everyone? -/
def isExposed : Visibility → Bool
  | exposed => true
  | _ => false

end Visibility

/-- One entry of a parameter list. -/
structure Parameter where
  name : String
  hasDefault : Bool := false
  variadicPositional : Bool := false
  variadicKeyword : Bool := false
deriving DecidableEq, Inhabited

/-- A decorator or annotation of a declaration. -/
structure Decorator where
  /-- The expression without the leading `@`. -/
  expression : String
  /-- The normalized callee. -/
  callee : String
  /-- Is it applied with call syntax? -/
  hasCall : Bool
deriving DecidableEq, Inhabited

/-- What the text of a declaration tells about it. -/
structure Profile where
  /-- Digest of path, kind, qualified name and fingerprint. -/
  stableId : String := ""
  /-- Digest of the header and the node kinds of the declaration. -/
  fingerprint : String := ""
  /-- Can other files see it? -/
  exported : Bool := false
  /-- The documentation without comment markers. -/
  doc : Option String := none
  /-- One line about the declaration. -/
  summary : String := ""
  /-- Conditions stated by the documentation or checked by the body. -/
  invariants : List String := []
  /-- Kinds of effects that the body seems to have. -/
  sideEffects : List String := []
deriving DecidableEq, Inhabited

/-- A named declaration; `parent` is the position of the enclosing one. -/
structure Declaration where
  name : String
  kind : SymbolKind
  parent : Option Nat
  visibility : Visibility
  decorators : List Decorator := []
  parameters : List Parameter := []
  returnType : Option String := none
  /-- Base classes by name, in the order of declaration. -/
  bases : List String := []
  /-- The type it belongs to, when that is named outside of the declaration's scope. -/
  owner : Option String := none
  /-- The name by which the body refers to the instance, when the declaration chooses it. -/
  receiverName : Option String := none
  extent : Extent := {}
  profile : Profile := {}
deriving DecidableEq, Inhabited

/-- What an import binds. -/
inductive ImportedName where
  /-- The module itself. -/
  | whole
  /-- One name of the module. -/
  | name (text : String)
  /-- Every exposed name of the module. -/
  | wildcard
deriving DecidableEq, Inhabited

/-- How an imported name is shown. -/
def ImportedName.word : ImportedName → String
  | whole => "<module>"
  | name text => text
  | wildcard => "*"

/-- One imported module, name or wildcard. -/
structure ImportFact where
  /-- The module as written. -/
  target : String
  name : ImportedName
  /-- The name bound in the importing file. -/
  localName : String
  /-- Zero for an absolute import, one for the importer's own package, and so on upwards. -/
  depth : Nat := 0
  extent : Extent := {}
deriving DecidableEq, Inhabited

/-- The kinds of calls. -/
inductive CallKind where
  | direct
  | method
  /-- The receiver is the result of another call. -/
  | chained
  /-- The receiver is a class or a module. -/
  | static
  | constructor
  | literalReceiver
  | decoratorCall
  | builtin
deriving DecidableEq, Inhabited

namespace CallKind

/-- Every kind, in the order in which kinds are counted. -/
def all : List CallKind :=
  [direct, method, chained, static, constructor, literalReceiver, decoratorCall, builtin]

/-- The word for a kind of call. -/
def word : CallKind → String
  | direct => "direct"
  | method => "method"
  | chained => "chained"
  | static => "static"
  | constructor => "constructor"
  | literalReceiver => "literal-receiver"
  | decoratorCall => "decorator-call"
  | builtin => "builtin"

/-- The kind with the given word. -/
def ofWord? (text : String) : Option CallKind := all.find? (·.word == text)

end CallKind

/-- The shape of an argument list; unpacked arguments are flagged and not counted. -/
structure Arguments where
  positional : Nat := 0
  star : Bool := false
  doubleStar : Bool := false
  named : List String := []
deriving DecidableEq, Inhabited

/-- One call; `caller` and `decorates` are positions of declarations. -/
structure CallFact where
  /-- The normalized callee, with nested calls as `f()`. -/
  callee : String
  /-- The last segment of the callee. -/
  name : String
  receiver : Option String := none
  kind : CallKind := .direct
  caller : Option Nat := none
  arguments : Arguments := {}
  decorates : Option Nat := none
  extent : Extent := {}
deriving DecidableEq, Inhabited

/-- Everything that one file contributes. -/
structure FileFacts where
  path : Path
  language : Language
  contentHash : String := ""
  declarations : List Declaration := []
  imports : List ImportFact := []
  calls : List CallFact := []
deriving DecidableEq, Inhabited

namespace FileFacts

/-- How many declarations have the kind? -/
def declarationCount (facts : FileFacts) (kind : SymbolKind) : Nat :=
  facts.declarations.countP (·.kind == kind)

/-- How many calls have the kind? -/
def callCount (facts : FileFacts) (kind : CallKind) : Nat := facts.calls.countP (·.kind == kind)

end FileFacts

end CodeAtlas
