import CodeAtlas.Text.Basic
import CodeAtlas.Text.Letter

/-!
# Patterns

Regular expressions with captures, as a small algebra. A search goes over the text once. It carries
a list of threads, each of which is what remains to be matched of the pattern, best first: an
alternative prefers its left side, a greedy repetition prefers to go on, a reluctant one prefers to
stop, and an earlier start is better than a later one. Threads with the same remainder match the
same texts from there on, so of those only the best is kept. This bounds their number by the pattern
and the work by the length of the text.

Only single characters are repeated, so every definition here is a structural recursion.
-/

namespace CodeAtlas.Text

/-- A set of characters. -/
inductive CharSet where
  /-- No character at all. -/
  | nothing
  | single (c : Char)
  | blank
  | word
  | union (left right : CharSet)
  | compl (set : CharSet)
deriving DecidableEq

namespace CharSet

/-- Is the character in the set? -/
def contains : CharSet → Char → Bool
  | nothing, _ => false
  | single c, d => d == c
  | blank, d => isBlank d
  | word, d => isWordChar d
  | union left right, d => left.contains d || right.contains d
  | compl set, d => !set.contains d

/-- All characters but one. -/
def except (c : Char) : CharSet := compl (single c)

end CharSet

/-- A regular expression. -/
inductive Pattern where
  | empty
  /-- One character of a set. -/
  | one (set : CharSet)
  | seq (first second : Pattern)
  | alt (left right : Pattern)
  /-- Characters of a set, as many as possible. -/
  | star (set : CharSet)
  /-- Characters of a set, as few as possible. -/
  | reluctant (set : CharSet)
  /-- The position is remembered under a number. -/
  | mark (number : Nat)
  /-- Between a character of a word and one that is not. -/
  | wordEdge
  | textStart
  | textEnd
deriving DecidableEq

namespace Pattern

/-- A position in a text: the characters around it and the number of those before it. -/
structure Spot where
  before : Option Char
  after : Option Char
  offset : Nat

/-- Is there a word character on exactly one side? -/
def Spot.atWordEdge (spot : Spot) : Bool :=
  spot.before.any isWordChar != spot.after.any isWordChar

/-- The offsets that have been remembered, under their numbers. -/
abbrev Marks := List (Nat × Nat)

/-- What remains to be matched, and what has been remembered on the way. -/
structure Thread where
  rest : List Pattern
  marks : Marks

/-- What becomes of a thread at a position. -/
inductive Branch where
  /-- Nothing remains to be matched. -/
  | done (marks : Marks)
  /-- The next character is matched. -/
  | next (thread : Thread)

/-- The thread that is left after a character of a set, if the next one is in it. -/
def consume (spot : Spot) (set : CharSet) (rest : List Pattern) (marks : Marks) : List Branch :=
  if spot.after.any set.contains then [.next ⟨rest, marks⟩] else []

/-- The branches of a pattern at a position, best first, where `rest` follows the pattern and
`further` gives the branches of `rest`. -/
def branches (spot : Spot) :
    Pattern → (rest : List Pattern) → (further : Marks → List Branch) → Marks → List Branch
  | empty, _, further, marks => further marks
  | one set, rest, _, marks => consume spot set rest marks
  | seq first second, rest, further, marks =>
    branches spot first (second :: rest) (branches spot second rest further) marks
  | alt left right, rest, further, marks =>
    branches spot left rest further marks ++ branches spot right rest further marks
  | star set, rest, further, marks => consume spot set (star set :: rest) marks ++ further marks
  | reluctant set, rest, further, marks =>
    further marks ++ consume spot set (reluctant set :: rest) marks
  | mark number, _, further, marks => further ((number, spot.offset) :: marks)
  | wordEdge, _, further, marks => if spot.atWordEdge then further marks else []
  | textStart, _, further, marks => if spot.before.isNone then further marks else []
  | textEnd, _, further, marks => if spot.after.isNone then further marks else []

/-- The branches of several patterns in a row. -/
def branchesAll (spot : Spot) : List Pattern → Marks → List Branch
  | [], marks => [.done marks]
  | p :: rest, marks => branches spot p rest (branchesAll spot rest) marks

/-- The threads before the first finished branch, and what that branch remembers. Whatever comes
after it is worse. -/
def untilDone : List Branch → List Thread × Option Marks
  | [] => ([], none)
  | .done marks :: _ => ([], some marks)
  | .next thread :: rest =>
    let (threads, found) := untilDone rest
    (thread :: threads, found)

/-- Keep the best thread of each remainder. -/
def distinctThreads : List Thread → List Thread
  | [] => []
  | thread :: rest =>
    thread :: (distinctThreads rest).filter fun other => other.rest != thread.rest

/-- Move all threads past a position. -/
def advance (spot : Spot) (threads : List Thread) : List Thread × Option Marks :=
  let (next, found) := untilDone (threads.flatMap fun t => branchesAll spot t.rest t.marks)
  (distinctThreads next, found)

/-- What the best match at the leftmost position remembers, given the threads that started earlier
and the best match so far. After a match no thread starts any more. -/
def searchFrom (p : Pattern) :
    (before : Option Char) → (offset : Nat) → List Thread → Option Marks → List Char → Option Marks
  | before, offset, threads, best, s =>
    let started := if best.isNone then threads ++ [⟨[p], []⟩] else threads
    let (next, found) := advance ⟨before, s.head?, offset⟩ started
    let best := found.or best
    match s with
    | [] => best
    | c :: s =>
      if next.isEmpty && best.isSome then best else searchFrom p (some c) (offset + 1) next best s

/-- A match: the text that was searched, and what was remembered. -/
structure Found where
  text : List Char
  marks : Marks

/-- The first match in a text. -/
def search? (p : Pattern) (text : String) : Option Found :=
  (searchFrom p none 0 [] none text.toList).map fun marks => ⟨text.toList, marks⟩

/-- Does the pattern match somewhere in the text? -/
def found (p : Pattern) (text : String) : Bool := (p.search? text).isSome

/-- What is matched lies between two marks. -/
def capture (number : Nat) (p : Pattern) : Pattern :=
  seq (mark (2 * number)) (seq p (mark (2 * number + 1)))

/-- The text captured under a number. -/
def Found.captured (found : Found) (number : Nat) : String :=
  let start := (found.marks.lookup (2 * number)).getD 0
  let stop := (found.marks.lookup (2 * number + 1)).getD 0
  .ofList ((found.text.drop start).take (stop - start))

/-- Several patterns one after the other. -/
def inOrder (ps : List Pattern) : Pattern := ps.foldr seq empty

/-- The first of several patterns that leads to a match. -/
def anyOf : List Pattern → Pattern
  | [] => one .nothing
  | [p] => p
  | p :: ps => alt p (anyOf ps)

/-- Exactly this text. -/
def lit (text : String) : Pattern := inOrder (text.toList.map fun c => one (.single c))

/-- One of these texts. -/
def words (texts : List String) : Pattern := anyOf (texts.map lit)

/-- At least one character of a set, as many as possible. -/
def plus (set : CharSet) : Pattern := seq (one set) (star set)

/-- At least one character of a set, as few as possible. -/
def reluctantPlus (set : CharSet) : Pattern := seq (one set) (reluctant set)

/-- Preferably once. -/
def opt (p : Pattern) : Pattern := alt p empty

/-- Any number of blanks. -/
def blanks : Pattern := star .blank

/-- At least one blank. -/
def someBlanks : Pattern := plus .blank

/-- Any character of a line. -/
def inLine : CharSet := .except '\n'

end Pattern

end CodeAtlas.Text
