import CodeAtlas.Text.Basic

/-!
# Ignore rules

An ignore file lists patterns, one to a line. A pattern matches an entry anywhere below the ignore
file, or at one place if it has a slash before its end; a slash at the end limits it to directories;
`*` stands for any part of a name, `?` for one byte of it, `**` for any number of directories, and a
backslash takes away the meaning of the next character. A rule that starts with `!` keeps what it
matches. Of several rules that match, the last one counts.
-/

namespace CodeAtlas.Ignore

/-- The ends of a list, itself and the empty list included. -/
def suffixes {α : Type} : List α → List (List α)
  | [] => [[]]
  | a :: s => (a :: s) :: suffixes s

/-- A part of a pattern for a name. -/
inductive Piece where
  | byte (value : UInt8)
  | anyByte
  | anyRun
deriving DecidableEq

/-- A part of a pattern between slashes. -/
inductive Segment where
  | name (pieces : List Piece)
  | anyDepth
deriving DecidableEq

/-- Does a name match? -/
def matchesName : List Piece → List UInt8 → Bool
  | [], s => s.isEmpty
  | .byte b :: pieces, s =>
    match s with
    | [] => false
    | c :: rest => b == c && matchesName pieces rest
  | .anyByte :: pieces, s =>
    match s with
    | [] => false
    | _ :: rest => matchesName pieces rest
  | .anyRun :: pieces, s => (suffixes s).any (matchesName pieces)

/-- Does a path of names match? -/
def matchesNames : List Segment → List String → Bool
  | [], names => names.isEmpty
  | .name pieces :: segments, names =>
    match names with
    | [] => false
    | name :: rest => matchesName pieces name.toUTF8.toList && matchesNames segments rest
  | .anyDepth :: segments, names => (suffixes names).any (matchesNames segments)

/-- A rule of an ignore file. -/
structure Rule where
  /-- Does the rule keep what it matches? -/
  keeps : Bool
  onlyDirectories : Bool
  segments : List Segment
deriving DecidableEq

/-- What a rule says about an entry. -/
inductive Verdict where
  | ignored
  | kept
deriving DecidableEq

/-- Does the rule apply to the entry at a path? -/
def Rule.applies (rule : Rule) (names : List String) (isDirectory : Bool) : Bool :=
  (!rule.onlyDirectories || isDirectory) && matchesNames rule.segments names

/-- What a rule says when it applies. -/
def Rule.verdict (rule : Rule) : Verdict := if rule.keeps then .kept else .ignored

/-- What the rules of a file say about the entry at a path: the last one that applies counts. -/
def verdict? (rules : List Rule) (names : List String) (isDirectory : Bool) : Option Verdict :=
  (rules.reverse.find? (·.applies names isDirectory)).map (·.verdict)

/-- The pieces of a pattern between its slashes, unless it ends in a lone backslash. -/
def pieces? : List Char → Option (List (List Piece))
  | [] => some [[]]
  | '\\' :: [] => none
  | '\\' :: c :: s => (pieces? s).map (extend (if c = '/' then none else some (bytes c)))
  | '/' :: s => (pieces? s).map (extend none)
  | '*' :: s => (pieces? s).map (extend (some [.anyRun]))
  | '?' :: s => (pieces? s).map (extend (some [.anyByte]))
  | c :: s => (pieces? s).map (extend (some (bytes c)))
where
  /-- The bytes of a character. -/
  bytes (c : Char) : List Piece := (String.singleton c).toUTF8.toList.map .byte
  /-- Put pieces in front of the first segment, or open a new one. -/
  extend (front : Option (List Piece)) (segments : List (List Piece)) : List (List Piece) :=
    match front, segments with
    | none, _ => [] :: segments
    | some new, [] => [new]
    | some new, first :: rest => (new ++ first) :: rest

/-- Two stars alone between slashes stand for any number of directories. -/
def segmentOf (pieces : List Piece) : Segment :=
  if pieces = [.anyRun, .anyRun] then .anyDepth else .name pieces

/-- The segments of a pattern. One that is bound to no place may match at any depth, without a name
it matches everything, and one that ends in two stars matches what is below, not the directory
itself. -/
def segmentsOf (bound : Bool) (pieces : List (List Piece)) : List Segment :=
  let segments := pieces.map segmentOf
  let placed :=
    if bound || segments = [.anyDepth] then segments
    else if pieces = [[]] then [.anyDepth]
    else .anyDepth :: segments
  if 1 < placed.length && placed.getLast? = some .anyDepth then placed ++ [.name [.anyRun]]
  else placed

/-- Take off a slash at the end, and a backslash before it. -/
def dropLastSlash (s : List Char) : Bool × List Char :=
  match s.reverse with
  | '/' :: '\\' :: rest => (true, rest.reverse)
  | '/' :: rest => (true, rest.reverse)
  | _ => (false, s)

/-- A rule from the text after its marks. -/
def ruleOf? (keeps anchored : Bool) (s : List Char) : Option Rule := do
  let (onlyDirectories, s) := dropLastSlash s
  let pieces ← pieces? s
  some
    { keeps := keeps, onlyDirectories := onlyDirectories
      segments := segmentsOf (anchored || s.contains '/') pieces }

/-- The rule on a line, if there is one. -/
def parseLine? (line : String) : Option Rule :=
  let line := if Text.endsWith "\\ " line then line else Text.trimEnd line
  match line.toList with
  | [] => none
  | '#' :: _ => none
  | '\\' :: '!' :: s => ruleOf? false false ('!' :: s)
  | '\\' :: '#' :: s => ruleOf? false false ('#' :: s)
  | '!' :: '/' :: s => ruleOf? true true s
  | '!' :: s => ruleOf? true false s
  | '/' :: s => ruleOf? false true s
  | s => ruleOf? false false s

/-- Split bytes at line feeds. -/
def byteLines : List UInt8 → List (List UInt8)
  | [] => [[]]
  | b :: s =>
    if b = 10 then [] :: byteLines s
    else
      match byteLines s with
      | [] => [[b]]
      | line :: rest => (b :: line) :: rest

/-- The lines of a file up to the first one that is not text, without a byte order mark. -/
def textLines (content : ByteArray) : List String :=
  let lines := ((byteLines content.toList).map fun line => String.fromUTF8? ⟨line.toArray⟩)
  match (lines.takeWhile (·.isSome)).filterMap id with
  | [] => []
  | first :: rest => Text.trimStartChar '\ufeff' first :: rest

/-- The rules of an ignore file. -/
def parse (content : ByteArray) : List Rule := (textLines content).filterMap parseLine?

end CodeAtlas.Ignore
