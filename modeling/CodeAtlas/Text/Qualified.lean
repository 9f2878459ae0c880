import CodeAtlas.Text.Basic

/-!
# Qualified names

Names such as `pkg.mod.Class`, `std::fs::read` and `node->next`: segments between the separators
`.`, `::` and `->`. `segments` cuts such a text at every separator, `lastSegment` takes what follows
the last one, and `withoutGenerics` drops type arguments.
-/

namespace CodeAtlas.Text

/-- The separators of qualified names. -/
def separators : List String := [".", "::", "->"]

/-- The text after the rightmost occurrence of a separator, the whole text if there is none. -/
def afterLast (sep s : String) : String := ((breakAtLast? sep s).map (·.2)).getD s

/-- The text after the last separator of any kind. -/
def lastSegment (s : String) : String :=
  separators.foldl (fun best sep =>
    let rest := afterLast sep s
    if rest.utf8ByteSize < best.utf8ByteSize then rest else best) s

/-- A name without its generic arguments. -/
def withoutGenerics (s : String) : String :=
  trim (.ofList (s.toList.takeWhile fun c => c ≠ '<' && c ≠ '['))

/-- Add a finished piece, read in reverse, in front of later ones unless it is empty. -/
def addSegment (piece : List Char) (rest : List String) : List String :=
  if piece.isEmpty then rest else .ofList piece.reverse :: rest

/-- The non-empty pieces between separators, scanning from the left; `piece` holds the current
piece in reverse. -/
def segmentsFrom : (piece s : List Char) → List String
  | piece, [] => addSegment piece []
  | piece, '.' :: s => addSegment piece (segmentsFrom [] s)
  | piece, ':' :: ':' :: s => addSegment piece (segmentsFrom [] s)
  | piece, '-' :: '>' :: s => addSegment piece (segmentsFrom [] s)
  | piece, c :: s => segmentsFrom (c :: piece) s

/-- The segments of a qualified name. -/
def segments (s : String) : List String := segmentsFrom [] s.toList

end CodeAtlas.Text
