import CodeAtlas.Format.Toml.Number
import CodeAtlas.Text.Basic

/-!
# Reading TOML

A document is read line by line: blank lines and comments, section headers, and keys with values.
Every reader takes the remaining characters and returns what it read together with what is left, or
fails. Values nest, so their reader counts down from the length of the document.
-/

namespace CodeAtlas.Toml

open Digits

/-- Can the character stand in a bare key or in a number? -/
def isBare (c : Char) : Bool := c.isAlphanum || c == '-' || c == '_'

/-- Skip spaces and tabs. -/
def skipSpace (s : List Char) : List Char := s.dropWhile fun c => c == ' ' || c == '\t'

/-- Can the character stand in a comment? -/
def isCommentChar (c : Char) : Bool := c == '\t' || 32 ≤ c.toNat

/-- Can the character stand in a string as it is? -/
def isStringChar (c : Char) : Bool := c == '\t' || (32 ≤ c.toNat && c.toNat != 127)

/-- Skip a comment, which reaches to the end of its line. -/
def skipComment (s : List Char) : List Char :=
  match s with
  | '#' :: rest => rest.dropWhile isCommentChar
  | s => s

/-- The end of a line: blanks, perhaps a comment, and a line feed or the end of the document. -/
def endOfLine (s : List Char) : Option (List Char) :=
  match skipComment (skipSpace s) with
  | [] => some []
  | '\n' :: rest => some rest
  | _ => none

/-- The character with a code point, if there is one. -/
def charOf? (n : Nat) : Option Char := if h : n.isValidChar then some (Char.ofNatAux n h) else none

/-- The character that hexadecimal digits stand for. -/
def hexChar? (digits : List Char) : Option Char :=
  if digits.all (isDigitOf 16) then charOf? (valueOf 16 digits) else none

/-- The character that a backslash and a letter stand for. -/
def simpleEscape? (c : Char) : Option Char :=
  match c with
  | '\x22' => some '\x22'
  | '\\' => some '\\'
  | 'b' => some (Char.ofNat 8)
  | 'f' => some (Char.ofNat 12)
  | 'n' => some '\n'
  | 'r' => some '\r'
  | 't' => some '\t'
  | _ => none

/-- Where the reader of a long string is: in the text, between a backslash and the end of its line,
or in the blanks at the start of the next lines. -/
inductive LongState where
  | text
  | beforeBreak
  | afterBreak

/-- Read a string with escapes up to its quote; `long` strings run over several lines and end at
three quotes, up to two more of which belong to the text. -/
def readBasic (long : Bool) : LongState → (done : List Char) → List Char →
    Option (List Char × List Char)
  | _, _, [] => none
  | .beforeBreak, done, c :: s =>
    if c == ' ' || c == '\t' then readBasic long .beforeBreak done s
    else if c == '\n' then readBasic long .afterBreak done s
    else none
  | state, done, '\x22' :: '\x22' :: '\x22' :: '\x22' :: '\x22' :: s =>
    match state, long with
    | _, true => some (('\x22' :: '\x22' :: done).reverse, s)
    | _, false => some (done.reverse, '\x22' :: '\x22' :: '\x22' :: '\x22' :: s)
  | state, done, '\x22' :: '\x22' :: '\x22' :: '\x22' :: s =>
    match state, long with
    | _, true => some (('\x22' :: done).reverse, s)
    | _, false => some (done.reverse, '\x22' :: '\x22' :: '\x22' :: s)
  | state, done, '\x22' :: '\x22' :: '\x22' :: s =>
    match state, long with
    | _, true => some (done.reverse, s)
    | _, false => some (done.reverse, '\x22' :: '\x22' :: s)
  | _, done, '\x22' :: s =>
    if long then readBasic long .text ('\x22' :: done) s else some (done.reverse, s)
  | _, done, '\\' :: 'u' :: a :: b :: c :: d :: s =>
    (hexChar? [a, b, c, d]).bind fun x => readBasic long .text (x :: done) s
  | _, done, '\\' :: 'U' :: a :: b :: c :: d :: e :: f :: g :: h :: s =>
    (hexChar? [a, b, c, d, e, f, g, h]).bind fun x => readBasic long .text (x :: done) s
  | _, done, '\\' :: c :: s =>
    match simpleEscape? c with
    | some x => readBasic long .text (x :: done) s
    | none =>
      if long && (c == ' ' || c == '\t') then readBasic long .beforeBreak done s
      else if long && c == '\n' then readBasic long .afterBreak done s
      else none
  | .afterBreak, done, c :: s =>
    if c == ' ' || c == '\t' || c == '\n' then readBasic long .afterBreak done s
    else if isStringChar c then readBasic long .text (c :: done) s
    else none
  | .text, done, c :: s =>
    if isStringChar c || (long && c == '\n') then readBasic long .text (c :: done) s else none

/-- Read a string without escapes up to its quote. -/
def readLiteral (long : Bool) : (done : List Char) → List Char → Option (List Char × List Char)
  | _, [] => none
  | done, '\x27' :: '\x27' :: '\x27' :: '\x27' :: '\x27' :: s =>
    if long then some (('\x27' :: '\x27' :: done).reverse, s)
    else some (done.reverse, '\x27' :: '\x27' :: '\x27' :: '\x27' :: s)
  | done, '\x27' :: '\x27' :: '\x27' :: '\x27' :: s =>
    if long then some (('\x27' :: done).reverse, s)
    else some (done.reverse, '\x27' :: '\x27' :: '\x27' :: s)
  | done, '\x27' :: '\x27' :: '\x27' :: s =>
    if long then some (done.reverse, s) else some (done.reverse, '\x27' :: '\x27' :: s)
  | done, '\x27' :: s =>
    if long then readLiteral long ('\x27' :: done) s else some (done.reverse, s)
  | done, c :: s =>
    if isStringChar c || (long && c == '\n') then readLiteral long (c :: done) s else none

/-- Drop a line feed right after the opening quotes of a long string. -/
def dropBreak : List Char → List Char
  | '\n' :: s => s
  | s => s

/-- Read a string of any form: is it long, its text, and the rest. -/
def readString : List Char → Option (Bool × String × List Char)
  | '\x22' :: '\x22' :: '\x22' :: s =>
    (readBasic true .text [] (dropBreak s)).map fun (text, rest) => (true, .ofList text, rest)
  | '\x22' :: s =>
    (readBasic false .text [] s).map fun (text, rest) => (false, .ofList text, rest)
  | '\x27' :: '\x27' :: '\x27' :: s =>
    (readLiteral true [] (dropBreak s)).map fun (text, rest) => (true, .ofList text, rest)
  | '\x27' :: s =>
    (readLiteral false [] s).map fun (text, rest) => (false, .ofList text, rest)
  | _ => none

/-- Read a bare word. -/
def readBare (s : List Char) : Option (List Char × List Char) :=
  let word := s.takeWhile isBare
  if word.isEmpty then none else some (word, s.dropWhile isBare)

/-- Read one key, bare or quoted on one line. -/
def readKey (s : List Char) : Option (String × List Char) :=
  match readBare s with
  | some (word, rest) => some (.ofList word, rest)
  | none =>
    match readString s with
    | some (false, text, rest) => some (text, rest)
    | _ => none

/-- Read keys with dots between them, at most `limit`. -/
def readDotted : (limit : Nat) → List Char → Option (List String × List Char)
  | 0, _ => none
  | limit + 1, s => do
    let (key, rest) ← readKey (skipSpace s)
    match skipSpace rest with
    | '.' :: more =>
      let (keys, rest) ← readDotted limit more
      some (key :: keys, rest)
    | rest => some ([key], rest)

/-- Skip one bare word. -/
def skipBare (s : List Char) : Option (List Char) := (readBare s).map (·.2)

/-- Skip a character and a bare word after it, if the character is there. -/
def skipPart (mark : Char) (s : List Char) : Option (List Char) :=
  match s with
  | [] => some []
  | c :: rest => if c = mark then skipBare rest else some (c :: rest)

/-- Skip the hour that may follow a date after one space. -/
def skipHour (s : List Char) : List Char :=
  match s with
  | ' ' :: rest => (skipBare rest).getD s
  | s => s

/-- Skip what follows the hour and its colon: minutes, seconds, a fraction and an offset. -/
def skipTime (s : List Char) : Option (List Char) := do
  let rest ← skipBare s
  match rest with
  | ':' :: rest =>
    let rest ← skipBare rest
    let rest ← skipPart '.' rest
    let rest ← skipPart '+' rest
    skipPart ':' rest
  | _ => none

/-- Read the rest of a date or time. -/
def readDatetime (colonRead : Bool) (s : List Char) : Option (Value × List Char) :=
  let s := skipHour s
  if colonRead then (skipTime s).map fun rest => (.datetime, rest)
  else
    match s with
    | ':' :: rest => (skipTime rest).map fun rest => (.datetime, rest)
    | rest => some (.datetime, rest)

/-- Read the exponent of a number that starts with the given characters: its sign, its digits and
the rest of the document. -/
def readExponent (tail rest : List Char) : Option (Bool × List Char × List Char) :=
  match tail with
  | [] => some (false, [], rest)
  | mark :: body =>
    if mark == 'e' || mark == 'E' then
      if body.isEmpty then do
        let rest := match rest with
          | '+' :: more => more
          | more => more
        let (word, rest) ← readBare rest
        let (digits, left) ← scanDigits 10 true true false false word
        if left.isEmpty then some (false, digits, rest) else none
      else do
        let (negative, body) := takeSign body
        let (digits, left) ← scanDigits 10 true true false false body
        if left.isEmpty then some (negative, digits, rest) else none
    else none

/-- Read a number whose first word has been read. -/
def readNumber (word rest : List Char) : Option (Value × List Char) :=
  match word with
  | '0' :: 'x' :: digits => (integer? 16 digits).map fun v => (v, rest)
  | '0' :: 'o' :: digits => (integer? 8 digits).map fun v => (v, rest)
  | '0' :: 'b' :: digits => (integer? 2 digits).map fun v => (v, rest)
  | _ =>
    if word.contains 'e' || word.contains 'E' then do
      let (whole, tail) ← scanDigits 10 false true false false (takeSign word).2
      let (negative, exponent, rest) ← readExponent tail rest
      (float? whole [] negative exponent).map fun v => (v, rest)
    else
      match rest with
      | '.' :: more => do
        let (after, rest) ← readBare more
        let (whole, left) ← scanDigits 10 false true false false (takeSign word).2
        if !left.isEmpty then none
        let (fraction, tail) ← scanDigits 10 true true false false after
        let (negative, exponent, rest) ← readExponent tail rest
        (float? whole fraction negative exponent).map fun v => (v, rest)
      | _ =>
        let text := String.ofList (takeSign word).2
        if text = "inf" || text = "nan" then some (.float, rest)
        else (integer? 10 word).map fun v => (v, rest)

/-- Does a word look like a date? -/
def isDateWord (word : List Char) : Bool :=
  word.contains 'T' || word.contains 't' ||
    ((word.drop 1).contains '-' && !Text.Chars.contains ['e', '-'] word &&
      !Text.Chars.contains ['E', '-'] word)

/-- Read a value that starts with a bare word. -/
def readWord (word rest : List Char) : Option (Value × List Char) :=
  match String.ofList word with
  | "true" => some (.boolean true, rest)
  | "false" => some (.boolean false, rest)
  | text =>
    if text = "inf" || text = "nan" || word.head?.any fun c => c == '-' || c.isDigit then
      if isDateWord word then readDatetime false rest
      else
        match rest with
        | ':' :: more => readDatetime true more
        | _ => readNumber word rest
    else none

/-- Skip blanks, line feeds and comments between the items of an array, at most `limit` of them. -/
def skipBetween : (limit : Nat) → List Char → Option (List Char)
  | 0, s => some s
  | limit + 1, s =>
    match skipSpace s with
    | '\n' :: rest => skipBetween limit rest
    | '#' :: rest =>
      match rest.dropWhile isCommentChar with
      | [] => some []
      | '\n' :: rest => skipBetween limit rest
      | _ => none
    | rest => some rest

mutual

/-- Read a value. -/
def readValue : (limit : Nat) → List Char → Option (Value × List Char)
  | 0, _ => none
  | limit + 1, s =>
    match s with
    | '\x7b' :: rest =>
      match skipSpace rest with
      | '\x7d' :: rest => some (.table [], rest)
      | rest => readInline limit [] rest
    | '[' :: rest => readItems limit [] rest
    | '+' :: rest => (readBare rest).bind fun (word, rest) => readNumber word rest
    | _ =>
      match readBare s with
      | some (word, rest) => readWord word rest
      | none => (readString s).map fun (_, text, rest) => (.string text, rest)

/-- Read the items of an array, `done` holding those before in reverse. -/
def readItems : (limit : Nat) → (done : List Value) → List Char → Option (Value × List Char)
  | 0, _, _ => none
  | limit + 1, done, s => do
    match ← skipBetween s.length s with
    | ']' :: rest => some (.array done.reverse, rest)
    | s =>
      let (v, rest) ← readValue limit s
      match ← skipBetween rest.length rest with
      | ',' :: rest => readItems limit (v :: done) rest
      | ']' :: rest => some (.array (v :: done).reverse, rest)
      | _ => none

/-- Read the entries of a table on one line, `done` holding those before. -/
def readInline : (limit : Nat) → (done : Entries) → List Char → Option (Value × List Char)
  | 0, _, _ => none
  | limit + 1, done, s => do
    let (keys, rest) ← readDotted s.length s
    match skipSpace rest with
    | '=' :: rest =>
      let (v, rest) ← readValue limit (skipSpace rest)
      let entries ← addDotted keys.dropLast (keys.getLast?.getD "") v done
      match skipSpace rest with
      | '\x7d' :: rest => some (.table entries, rest)
      | ',' :: rest => readInline limit entries (skipSpace rest)
      | _ => none
    | _ => none

end

/-- Read a section header after its first bracket. -/
def readHeader (s : List Char) : Option (Section × List Char) :=
  match s with
  | '[' :: s => do
    let (keys, rest) ← readDotted s.length s
    match rest with
    | ']' :: ']' :: rest => (endOfLine rest).map fun rest => (⟨keys, true, []⟩, rest)
    | _ => none
  | s => do
    let (keys, rest) ← readDotted s.length s
    match rest with
    | ']' :: rest => (endOfLine rest).map fun rest => (⟨keys, false, []⟩, rest)
    | _ => none

/-- Read the lines of a document, at most `limit`, with the sections so far in reverse. -/
def readLines : (limit : Nat) → (current : Section) → (done : List Section) → List Char →
    Option (List Section)
  | 0, current, done, _ => some (current :: done).reverse
  | limit + 1, current, done, s =>
    match skipSpace s with
    | [] => some (current :: done).reverse
    | '\n' :: rest => readLines limit current done rest
    | '#' :: rest => (endOfLine ('#' :: rest)).bind (readLines limit current done)
    | '[' :: rest => do
      let (next, rest) ← readHeader rest
      readLines limit next (current :: done) rest
    | s => do
      let (keys, rest) ← readDotted s.length s
      match skipSpace rest with
      | '=' :: rest =>
        let (v, rest) ← readValue s.length (skipSpace rest)
        let rest ← endOfLine rest
        let entries ← addDotted keys.dropLast (keys.getLast?.getD "") v current.entries
        readLines limit { current with entries := entries } done rest
      | _ => none

/-- Line ends in one form. -/
def foldBreaks : List Char → List Char
  | '\r' :: '\n' :: s => '\n' :: foldBreaks s
  | c :: s => c :: foldBreaks s
  | [] => []

/-- Drop a byte order mark. -/
def dropMark : List Char → List Char
  | c :: s => if c.toNat = 0xfeff then s else c :: s
  | [] => []

/-- The table of a document, if the document is well formed. -/
def read? (text : String) : Option Entries :=
  let s := foldBreaks (dropMark text.toList)
  (readLines (s.length + 1) ⟨[], false, []⟩ [] s).bind ofSections

end CodeAtlas.Toml
