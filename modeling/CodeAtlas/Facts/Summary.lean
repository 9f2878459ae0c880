import CodeAtlas.Facts.Basic
import CodeAtlas.Text.Case
import CodeAtlas.Text.Qualified

/-!
# One line about a declaration

The first two sentences of the documentation, or else the words of the name, what some parameters
stand for, and the returned type.
-/

namespace CodeAtlas

/-- Does a line of documentation start a tag or a section? -/
def isTagLine (line : String) : Bool :=
  ["@", ":param", ":raises", ":return"].any (Text.startsWith · line) ||
  ["Args:", "Arguments:", "Returns:", "Raises:", "Parameters", "Example:",
    "Examples:"].contains line

/-- The free text of a documentation: every line before the first tag or section. -/
def docDescription (doc : String) : String :=
  Text.joinWith " " ((Text.lines doc).takeWhile fun line => !isTagLine line)

/-- The first two sentences of a documentation. -/
def docSentences (doc : String) : List String :=
  ((((Text.splitBy (fun c => c == '.' || c == '!' || c == '?') (docDescription doc)).map
    Text.trim).filter (· ≠ "")).take 2)

/-- Does the character only separate the words of a name? -/
def isNameGap (c : Char) : Bool := c == '_' || c == '-' || c == '.' || c == '$'

/-- Does a word start at the character `c`, given its neighbours? A capital starts one unless it
continues a run of capitals. -/
def startsNameWord (before : Option Char) (c : Char) (after : Option Char) : Bool :=
  match before with
  | none => false
  | some b => Text.isUpper c && (!Text.isUpper b || after.any Text.isLower)

/-- The words of a name, given the character before and the current word in reverse. -/
def nameWordsFrom : (before : Option Char) → (word s : List Char) → List String
  | _, word, [] => Text.addSegment word []
  | before, word, c :: s =>
    if isNameGap c then Text.addSegment word (nameWordsFrom (some c) [] s)
    else if startsNameWord before c s.head? then
      Text.addSegment word (nameWordsFrom (some c) [c] s)
    else nameWordsFrom (some c) (c :: word) s

/-- The words of a name, such as `load`, `User`, `Config` for `loadUserConfig`. -/
def nameWords (name : String) : List String := nameWordsFrom none [] name.toList

/-- The preposition for what a parameter seems to stand for. -/
def preposition? (name : String) : Option String :=
  let words := (nameWords name).map Text.lower
  let has (options : List String) : Bool := words.any options.contains
  if has ["id"] then some "by"
  else if has ["config", "options", "opts", "settings"] then some "with"
  else if has ["data", "input"] then some "from"
  else if has ["path", "file", "dir"] then some "at"
  else none

/-- What a parameter adds to the summary. -/
def parameterPhrase? (p : Parameter) : Option String :=
  if p.variadicPositional || p.variadicKeyword then none
  else if ["self", "cls", "this"].contains p.name then none
  else (preposition? p.name).map fun word => word ++ " " ++ p.name

/-- Drop arrows at the start. -/
def dropArrows : List Char → List Char
  | '-' :: '>' :: s => dropArrows s
  | s => s

/-- The leading type of an annotation, such as `Dict` for `Dict[str, int]` and `A` for `A | B`. -/
def leadingType (written : String) : String :=
  let text := Text.trim (Text.trimStartChar ':' (.ofList (dropArrows (Text.trim written).toList)))
  let first := String.ofList (text.toList.takeWhile fun c => c ≠ '|')
  let first := String.ofList (first.toList.takeWhile fun c => c ≠ '&')
  Text.withoutGenerics (Text.trim first)

/-- What the returned type adds to the summary. -/
def returnPhrase (kind : SymbolKind) (returnType : Option String) : String :=
  if kind = .function || kind = .method then
    match returnType.map leadingType with
    | some type =>
      if type = "" || ["void", "None", "()", "unknown"].contains type then ""
      else " and returns " ++ type
    | none => ""
  else ""

/-- The summary of a declaration without documentation. -/
def derivedSummary (d : Declaration) : String :=
  let words := match nameWords d.name with
    | [] => []
    | word :: rest => Text.capitalize word :: rest.map Text.lower
  Text.joinWith " " words ++
    String.join ((d.parameters.filterMap parameterPhrase?).map (" " ++ ·)) ++
    returnPhrase d.kind d.returnType

/-- The summary of a declaration. -/
def summaryOf (d : Declaration) (doc : Option String) : String :=
  match doc.map docSentences with
  | some (s :: rest) => Text.joinWith ". " (s :: rest)
  | _ => derivedSummary d

end CodeAtlas
