/-!
# Text as a list of characters

The operations that the analysis performs on source text, file names and documentation: trimming,
splitting at a separator, cutting off a known beginning or end, and breaking into lines and words.
They are written on `List Char`, where each is a structural recursion, and then lifted to `String`.

Blanks are the characters with the Unicode property `White_Space`; nothing here is limited to
ASCII unless its name says so.
-/

namespace CodeAtlas.Text

/-- The characters with the Unicode property `White_Space`. -/
def isBlank (c : Char) : Bool :=
  let n := c.toNat
  (9 ≤ n && n ≤ 13) || n == 32 || n == 0x85 || n == 0xa0 || n == 0x1680 ||
    (0x2000 ≤ n && n ≤ 0x200a) || n == 0x2028 || n == 0x2029 || n == 0x202f || n == 0x205f ||
    n == 0x3000

namespace Chars

/-- What follows `start` in `s`, if `s` begins with `start`. -/
def dropStart? : (start s : List Char) → Option (List Char)
  | [], s => some s
  | _ :: _, [] => none
  | c :: start, d :: s => if c = d then dropStart? start s else none

/-- What precedes `tail` in `s`, if `s` ends with `tail`. -/
def dropEnd? (tail s : List Char) : Option (List Char) :=
  (dropStart? tail.reverse s.reverse).map List.reverse

/-- Does `s` begin with `start`? -/
def startsWith (start s : List Char) : Bool := (dropStart? start s).isSome

/-- Does `s` end with `tail`? -/
def endsWith (tail s : List Char) : Bool := (dropEnd? tail s).isSome

/-- The text before and after the leftmost occurrence of `sep`. -/
def breakAt? (sep : List Char) : List Char → Option (List Char × List Char)
  | [] => if sep.isEmpty then some ([], []) else none
  | c :: s =>
    match dropStart? sep (c :: s) with
    | some rest => some ([], rest)
    | none => (breakAt? sep s).map fun (before, after) => (c :: before, after)

/-- The text before and after the rightmost occurrence of `sep`. -/
def breakAtLast? (sep s : List Char) : Option (List Char × List Char) :=
  (breakAt? sep.reverse s.reverse).map fun (after, before) => (before.reverse, after.reverse)

/-- Does `part` occur in `s`? -/
def contains (part s : List Char) : Bool := (breakAt? part s).isSome

/-- Split at every character that satisfies `p`; there is always at least one piece. -/
def splitBy (p : Char → Bool) : List Char → List (List Char)
  | [] => [[]]
  | c :: s =>
    if p c then [] :: splitBy p s
    else
      match splitBy p s with
      | [] => [[c]]
      | piece :: pieces => (c :: piece) :: pieces

/-- Split at `sep`, scanning from the left; `skip` characters still belong to the last separator
found and `piece` holds the current piece in reverse. -/
def splitAtGo (sep : List Char) : (skip : Nat) → (piece s : List Char) → List (List Char)
  | _, piece, [] => [piece.reverse]
  | skip + 1, piece, _ :: s => splitAtGo sep skip piece s
  | 0, piece, c :: s =>
    if startsWith sep (c :: s) then piece.reverse :: splitAtGo sep (sep.length - 1) [] s
    else splitAtGo sep 0 (c :: piece) s

/-- Split at every non-overlapping occurrence of a non-empty separator, from the left. -/
def splitAt (sep s : List Char) : List (List Char) := splitAtGo sep 0 [] s

/-- Drop the leading characters that satisfy `p`. -/
def trimStart (p : Char → Bool) (s : List Char) : List Char := s.dropWhile p

/-- Drop the trailing characters that satisfy `p`. -/
def trimEnd (p : Char → Bool) (s : List Char) : List Char := (s.reverse.dropWhile p).reverse

/-- Drop the characters at both ends that satisfy `p`. -/
def trim (p : Char → Bool) (s : List Char) : List Char := trimEnd p (trimStart p s)

/-- The maximal runs of characters that do not satisfy `p`. -/
def fields (p : Char → Bool) (s : List Char) : List (List Char) :=
  (splitBy p s).filter fun piece => !piece.isEmpty

/-- Remove one carriage return at the end of a line. -/
def dropReturn (line : List Char) : List Char := (dropEnd? ['\r'] line).getD line

/-- A line that was ended by a line feed loses one carriage return before it; the last line, which
was not, keeps it, and does not count when it is empty. -/
def closeLines : List (List Char) → List (List Char)
  | [] => []
  | [last] => if last.isEmpty then [] else [last]
  | line :: rest => dropReturn line :: closeLines rest

/-- The lines of a text, which end at `\n` or `\r\n`. -/
def lines (s : List Char) : List (List Char) := closeLines (splitBy (· == '\n') s)

end Chars

/-- Remove blanks at both ends. -/
def trim (s : String) : String := .ofList (Chars.trim isBlank s.toList)

/-- Remove blanks at the end. -/
def trimEnd (s : String) : String := .ofList (Chars.trimEnd isBlank s.toList)

/-- Remove every leading occurrence of the character. -/
def trimStartChar (c : Char) (s : String) : String := .ofList (Chars.trimStart (· == c) s.toList)

/-- Does the text begin so? -/
def startsWith (start s : String) : Bool := Chars.startsWith start.toList s.toList

/-- Does the text end so? -/
def endsWith (tail s : String) : Bool := Chars.endsWith tail.toList s.toList

/-- Does the text contain the part? -/
def contains (part s : String) : Bool := Chars.contains part.toList s.toList

/-- Does the text contain one of the characters? -/
def containsAny (cs : List Char) (s : String) : Bool := s.toList.any cs.contains

/-- The rest of the text after a known beginning. -/
def dropStart? (start s : String) : Option String :=
  (Chars.dropStart? start.toList s.toList).map .ofList

/-- The rest of the text before a known end. -/
def dropEnd? (tail s : String) : Option String :=
  (Chars.dropEnd? tail.toList s.toList).map .ofList

/-- The parts before and after the rightmost separator. -/
def breakAtLast? (sep s : String) : Option (String × String) :=
  (Chars.breakAtLast? sep.toList s.toList).map fun (a, b) => (.ofList a, .ofList b)

/-- The pieces between the occurrences of a non-empty separator. -/
def splitAt (sep s : String) : List String :=
  (Chars.splitAt sep.toList s.toList).map .ofList

/-- The pieces between the characters that satisfy `p`. -/
def splitBy (p : Char → Bool) (s : String) : List String :=
  (Chars.splitBy p s.toList).map .ofList

/-- The pieces between the occurrences of a character. -/
def splitChar (c : Char) (s : String) : List String := splitBy (· == c) s

/-- The lines of a text, which end at `\n` or `\r\n`; a final empty line does not count. -/
def lines (s : String) : List String := (Chars.lines s.toList).map .ofList

/-- The maximal runs of characters that are not blank. -/
def words (s : String) : List String := (Chars.fields isBlank s.toList).map .ofList

/-- Join pieces with a separator between neighbours. -/
def joinWith (sep : String) : List String → String
  | [] => ""
  | [piece] => piece
  | piece :: rest => piece ++ sep ++ joinWith sep rest

/-- Write every run of blanks as one space and none at the ends. -/
def collapse (s : String) : String := joinWith " " (words s)

/-- The ASCII capitals made small; all else stays. -/
def lowerAscii (s : String) : String := .ofList (s.toList.map Char.toLower)

/-- A text repeated. -/
def repeatText (n : Nat) (s : String) : String := String.join (List.replicate n s)

/-- Extend a text with spaces to the given number of characters. -/
def padEnd (width : Nat) (s : String) : String :=
  s ++ .ofList (List.replicate (width - s.length) ' ')

/-- The part of the text from one byte offset to another, empty unless both lie between
characters. -/
def slice (s : String) (start stop : Nat) : String :=
  if (String.Pos.Raw.mk start).isValid s && (String.Pos.Raw.mk stop).isValid s then
    String.Pos.Raw.extract s ⟨start⟩ ⟨stop⟩
  else ""

/-- The byte offsets at which lines start, given the offset of the first character. -/
def lineStartsFrom : (offset : Nat) → List Char → List Nat
  | _, [] => []
  | offset, c :: s =>
    let next := offset + c.utf8Size
    if c = '\n' then next :: lineStartsFrom next s else lineStartsFrom next s

/-- The byte offsets at which the lines of a text start. -/
def lineStarts (s : String) : List Nat := 0 :: lineStartsFrom 0 s.toList

end CodeAtlas.Text
