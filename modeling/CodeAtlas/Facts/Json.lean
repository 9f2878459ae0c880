import CodeAtlas.Facts.Basic
import CodeAtlas.Format.Json

/-!
# Facts as JSON

How facts are written as JSON values and read back. Every member of an object has to be there, once,
unless it holds a value that can be absent; members that are not known are passed over.
-/

namespace CodeAtlas

/-- Write an extent. -/
def Extent.toJson (e : Extent) : Json :=
  .obj [("start_line", .nat e.startLine), ("end_line", .nat e.endLine),
    ("start_column", .nat e.startColumn), ("end_column", .nat e.endColumn),
    ("start_byte", .nat e.startByte), ("end_byte", .nat e.endByte)]

/-- Read an extent. -/
def Extent.ofJson? (v : Json) : Option Extent := do
  some
    { startLine := ← v.required? "start_line" Json.nat?
      endLine := ← v.required? "end_line" Json.nat?
      startColumn := ← v.required? "start_column" Json.nat?
      endColumn := ← v.required? "end_column" Json.nat?
      startByte := ← v.required? "start_byte" Json.nat?
      endByte := ← v.required? "end_byte" Json.nat? }

/-- Write a language. -/
def Language.toJson (lang : Language) : Json := .str lang.name

/-- Read a language by its canonical tag. -/
def Language.ofJson? (v : Json) : Option Language :=
  v.text?.bind fun text => all.find? fun lang => lang.name == text

/-- Write a kind of symbol. -/
def SymbolKind.toJson (kind : SymbolKind) : Json := .str kind.word

/-- Read a kind of symbol. -/
def SymbolKind.ofJson? (v : Json) : Option SymbolKind :=
  v.text?.bind fun text => [function, classLike, var, method].find? fun kind => kind.word == text

/-- Write a visibility. -/
def Visibility.toJson (v : Visibility) : Json := .str v.word

/-- Read a visibility. -/
def Visibility.ofJson? (v : Json) : Option Visibility :=
  v.text?.bind fun text => [exposed, hidden, mangled].find? fun x => x.word == text

/-- Write a kind of call. -/
def CallKind.toJson (kind : CallKind) : Json := .str kind.word

/-- Read a kind of call. -/
def CallKind.ofJson? (v : Json) : Option CallKind := v.text?.bind ofWord?

/-- Write a decorator. -/
def Decorator.toJson (d : Decorator) : Json :=
  .obj [("expression", .str d.expression), ("callee", .str d.callee), ("has_call", .bool d.hasCall)]

/-- Read a decorator. -/
def Decorator.ofJson? (v : Json) : Option Decorator := do
  some
    { expression := ← v.required? "expression" Json.text?
      callee := ← v.required? "callee" Json.text?
      hasCall := ← v.required? "has_call" Json.bool? }

/-- Write a parameter. -/
def Parameter.toJson (p : Parameter) : Json :=
  .obj [("name", .str p.name), ("has_default", .bool p.hasDefault),
    ("variadic_positional", .bool p.variadicPositional),
    ("variadic_keyword", .bool p.variadicKeyword)]

/-- Read a parameter. -/
def Parameter.ofJson? (v : Json) : Option Parameter := do
  some
    { name := ← v.required? "name" Json.text?
      hasDefault := ← v.required? "has_default" Json.bool?
      variadicPositional := ← v.required? "variadic_positional" Json.bool?
      variadicKeyword := ← v.required? "variadic_keyword" Json.bool? }

/-- The fields of a profile. -/
def Profile.jsonFields (p : Profile) : List (String × Json) :=
  [("stable_id", .str p.stableId), ("fingerprint", .str p.fingerprint),
    ("exported", .bool p.exported), ("doc", .ofOption .str p.doc), ("summary", .str p.summary),
    ("invariants", .texts p.invariants), ("side_effects", .texts p.sideEffects)]

/-- Write a profile. -/
def Profile.toJson (p : Profile) : Json := .obj p.jsonFields

/-- Read a profile from an object that has its fields. -/
def Profile.ofJson? (v : Json) : Option Profile := do
  some
    { stableId := ← v.required? "stable_id" Json.text?
      fingerprint := ← v.required? "fingerprint" Json.text?
      exported := ← v.required? "exported" Json.bool?
      doc := ← v.optional? "doc" Json.text?
      summary := ← v.required? "summary" Json.text?
      invariants := ← v.required? "invariants" (Json.list? Json.text?)
      sideEffects := ← v.required? "side_effects" (Json.list? Json.text?) }

/-- Write a declaration. -/
def Declaration.toJson (d : Declaration) : Json :=
  .obj [("name", .str d.name), ("kind", d.kind.toJson), ("parent", .ofOption .nat d.parent),
    ("visibility", d.visibility.toJson), ("decorators", .arr (d.decorators.map (·.toJson))),
    ("parameters", .arr (d.parameters.map (·.toJson))),
    ("return_type", .ofOption .str d.returnType), ("bases", .texts d.bases),
    ("owner", .ofOption .str d.owner), ("receiver_name", .ofOption .str d.receiverName),
    ("span", d.extent.toJson), ("profile", d.profile.toJson)]

/-- Read a declaration. -/
def Declaration.ofJson? (v : Json) : Option Declaration := do
  some
    { name := ← v.required? "name" Json.text?
      kind := ← v.required? "kind" SymbolKind.ofJson?
      parent := ← v.optional? "parent" Json.nat?
      visibility := ← v.required? "visibility" Visibility.ofJson?
      decorators := ← v.required? "decorators" (Json.list? Decorator.ofJson?)
      parameters := ← v.required? "parameters" (Json.list? Parameter.ofJson?)
      returnType := ← v.optional? "return_type" Json.text?
      bases := ← v.required? "bases" (Json.list? Json.text?)
      owner := ← v.optional? "owner" Json.text?
      receiverName := ← v.optional? "receiver_name" Json.text?
      extent := ← v.required? "span" Extent.ofJson?
      profile := ← v.required? "profile" Profile.ofJson? }

/-- Write an imported name. -/
def ImportedName.toJson : ImportedName → Json
  | whole => .obj [("type", .str "module")]
  | name text => .obj [("type", .str "name"), ("name", .str text)]
  | wildcard => .obj [("type", .str "wildcard")]

/-- Read an imported name. -/
def ImportedName.ofJson? (v : Json) : Option ImportedName := do
  match ← v.required? "type" Json.text? with
  | "module" => some whole
  | "name" => (v.required? "name" Json.text?).map name
  | "wildcard" => some wildcard
  | _ => none

/-- Write an import. -/
def ImportFact.toJson (i : ImportFact) : Json :=
  .obj [("target", .str i.target), ("name", i.name.toJson), ("alias", .str i.localName),
    ("depth", .nat i.depth), ("span", i.extent.toJson)]

/-- Read an import. -/
def ImportFact.ofJson? (v : Json) : Option ImportFact := do
  some
    { target := ← v.required? "target" Json.text?
      name := ← v.required? "name" ImportedName.ofJson?
      localName := ← v.required? "alias" Json.text?
      depth := ← v.required? "depth" Json.nat?
      extent := ← v.required? "span" Extent.ofJson? }

/-- Write the shape of an argument list. -/
def Arguments.toJson (a : Arguments) : Json :=
  .obj [("positional", .nat a.positional), ("star", .bool a.star),
    ("double_star", .bool a.doubleStar), ("named", .texts a.named)]

/-- Read the shape of an argument list. -/
def Arguments.ofJson? (v : Json) : Option Arguments := do
  some
    { positional := ← v.required? "positional" Json.nat?
      star := ← v.required? "star" Json.bool?
      doubleStar := ← v.required? "double_star" Json.bool?
      named := ← v.required? "named" (Json.list? Json.text?) }

/-- Write a call. -/
def CallFact.toJson (c : CallFact) : Json :=
  .obj [("callee", .str c.callee), ("name", .str c.name), ("receiver", .ofOption .str c.receiver),
    ("kind", c.kind.toJson), ("caller", .ofOption .nat c.caller),
    ("arguments", c.arguments.toJson), ("decorates", .ofOption .nat c.decorates),
    ("span", c.extent.toJson)]

/-- Read a call. -/
def CallFact.ofJson? (v : Json) : Option CallFact := do
  some
    { callee := ← v.required? "callee" Json.text?
      name := ← v.required? "name" Json.text?
      receiver := ← v.optional? "receiver" Json.text?
      kind := ← v.required? "kind" CallKind.ofJson?
      caller := ← v.optional? "caller" Json.nat?
      arguments := ← v.required? "arguments" Arguments.ofJson?
      decorates := ← v.optional? "decorates" Json.nat?
      extent := ← v.required? "span" Extent.ofJson? }

/-- Write the facts of a file. -/
def FileFacts.toJson (f : FileFacts) : Json :=
  .obj [("file_path", .str f.path.text), ("language", f.language.toJson),
    ("content_hash", .str f.contentHash),
    ("symbols", .arr (f.declarations.map (·.toJson))),
    ("imports", .arr (f.imports.map (·.toJson))), ("calls", .arr (f.calls.map (·.toJson)))]

/-- Read the facts of a file. -/
def FileFacts.ofJson? (v : Json) : Option FileFacts := do
  some
    { path := ⟨← v.required? "file_path" Json.text?⟩
      language := ← v.required? "language" Language.ofJson?
      contentHash := ← v.required? "content_hash" Json.text?
      declarations := ← v.required? "symbols" (Json.list? Declaration.ofJson?)
      imports := ← v.required? "imports" (Json.list? ImportFact.ofJson?)
      calls := ← v.required? "calls" (Json.list? CallFact.ofJson?) }

end CodeAtlas
