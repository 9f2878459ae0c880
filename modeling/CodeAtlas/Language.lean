import CodeAtlas.Path

/-!
# Supported languages

A language is recognized by a file extension or by a tag. Languages that can import each other's
files form an ecosystem.
-/

namespace CodeAtlas

/-- The languages whose syntax trees can be read. -/
inductive Language where
  | python
  | rust
  | go
  | java
  | javaScript
  | typeScript
  | tsx
  | c
  | cpp
deriving DecidableEq, Inhabited

/-- Languages that share one space of module names. -/
inductive Ecosystem where
  | python
  | rust
  | go
  | java
  | script
  | cFamily
deriving DecidableEq

namespace Language

/-- Every language, in the order in which they are listed to users. -/
def all : List Language := [python, rust, go, java, javaScript, typeScript, tsx, c, cpp]

/-- The canonical tag. -/
def name : Language → String
  | python => "python"
  | rust => "rust"
  | go => "go"
  | java => "java"
  | javaScript => "javascript"
  | typeScript => "typescript"
  | tsx => "tsx"
  | c => "c"
  | cpp => "cpp"

/-- The file extensions of a language. -/
def extensions : Language → List String
  | python => ["py", "pyi", "pyw"]
  | rust => ["rs"]
  | go => ["go"]
  | java => ["java"]
  | javaScript => ["js", "mjs", "cjs", "jsx"]
  | typeScript => ["ts", "mts", "cts"]
  | tsx => ["tsx"]
  | c => ["c", "h"]
  | cpp => ["cpp", "cc", "cxx", "hpp", "hh", "hxx"]

/-- The tags of a language, in lower case. -/
def tags : Language → List String
  | python => ["python", "py"]
  | rust => ["rust", "rs"]
  | go => ["go", "golang"]
  | java => ["java"]
  | javaScript => ["javascript", "js", "jsx"]
  | typeScript => ["typescript", "ts"]
  | tsx => ["tsx"]
  | c => ["c"]
  | cpp => ["cpp", "c++", "cxx"]

/-- The language with an extension. -/
def ofExtension? (extension : String) : Option Language :=
  all.find? fun lang => lang.extensions.contains extension

/-- The language of a file, by its extension. -/
def ofPath? (p : Path) : Option Language := p.extension?.bind ofExtension?

/-- The language of a tag; case and surrounding blanks do not matter. -/
def ofTag? (tag : String) : Option Language :=
  all.find? fun lang => lang.tags.contains (Text.lowerAscii (Text.trim tag))

/-- Script dialects import each other freely, and C and C++ share headers. -/
def ecosystem : Language → Ecosystem
  | python => .python
  | rust => .rust
  | go => .go
  | java => .java
  | javaScript | typeScript | tsx => .script
  | c | cpp => .cFamily

/-- Can the two languages import each other? -/
def sharesModulesWith (a b : Language) : Bool := a.ecosystem == b.ecosystem

/-- Is this C or C++? -/
def isCFamily (lang : Language) : Bool := lang.ecosystem == .cFamily

/-- Is this JavaScript or one of its typed dialects? -/
def isScript (lang : Language) : Bool := lang.ecosystem == .script

end Language

end CodeAtlas
