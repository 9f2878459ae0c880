import CodeAtlas.Format.Digits

/-!
# YAML scalars

How a text is written so that it reads back as the same text. A text with line feeds is written as
a block, a text that would read as a number, a truth value or nothing is quoted, and any other text
stands as it is unless its characters could be taken for structure. Characters that cannot be
printed force double quotes, where they are escaped.
-/

namespace CodeAtlas.Yaml

open Digits

/-! ## Texts that read as something else -/

/-- Take one plus sign off the front, unless another sign follows it. -/
def dropPlus : List Char → Option (List Char)
  | '+' :: '+' :: _ => none
  | '+' :: '-' :: _ => none
  | '+' :: s => some s
  | s => some s

/-- Take one sign off the front. -/
def dropSign : List Char → List Char
  | '+' :: s => s
  | '-' :: s => s
  | s => s

/-- The exponent that the end of a number stands for. -/
def exponent? : List Char → Option Int
  | [] => some 0
  | mark :: s =>
    let digits := dropSign s
    if (mark == 'e' || mark == 'E') && !digits.isEmpty && digits.all (isDigitOf 10) then
      let n : Int := valueOf 10 digits
      some (if s.head? = some '-' then -n else n)
    else none

/-- Is this a decimal number, with an optional minus sign, fraction and exponent, that is finite as
a double? -/
def isDecimal (s : List Char) : Bool :=
  let body := dropSign s
  let whole := body.takeWhile (isDigitOf 10)
  let rest := body.dropWhile (isDigitOf 10)
  let (fraction, tail) := match rest with
    | '.' :: more => (more.takeWhile (isDigitOf 10), more.dropWhile (isDigitOf 10))
    | _ => ([], rest)
  !(whole.isEmpty && fraction.isEmpty) &&
    (exponent? tail).any fun e => isFinite (whole ++ fraction) (e - fraction.length)

/-- Are these digits of a base, for a number below a limit? -/
def isBelow (base limit : Nat) (digits : List Char) : Bool :=
  !digits.isEmpty && digits.all (isDigitOf base) && valueOf base digits < limit

/-- Is this an integer in base sixteen, eight or two that fits into 128 bits? -/
def isRadixInteger : List Char → Bool
  | '-' :: '0' :: mark :: digits => go mark digits (Nat.pow 2 127 + 1)
  | '+' :: '0' :: mark :: digits => go mark digits (Nat.pow 2 128)
  | '0' :: mark :: digits => go mark digits (Nat.pow 2 128)
  | _ => false
where
  /-- The digits after the mark of the base. -/
  go (mark : Char) (digits : List Char) (limit : Nat) : Bool :=
    (mark == 'x' && isBelow 16 limit digits) || (mark == 'o' && isBelow 8 limit digits) ||
      (mark == 'b' && isBelow 2 limit digits)

/-- Is this a run of digits with a superfluous zero in front? -/
def isZeroPadded (s : List Char) : Bool :=
  match dropSign s with
  | '0' :: c :: rest => (c :: rest).all (isDigitOf 10)
  | _ => false

/-- The words for nothing, for truth values and for numbers that are not finite. -/
def reservedWords : List String :=
  ["", "~", "null", "Null", "NULL", "true", "True", "TRUE", "false", "False", "FALSE",
    ".inf", ".Inf", ".INF", "+.inf", "+.Inf", "+.INF", "-.inf", "-.Inf", "-.INF",
    ".nan", ".NaN", ".NAN"]

/-- Would the text, written as it is, read as something other than a text? -/
def readsAsOther (text : String) : Bool :=
  let s := text.toList
  reservedWords.contains text || isZeroPadded s || isRadixInteger s ||
    (dropPlus s).any isDecimal

/-! ## Texts that could be taken for structure -/

/-- Does the character end a line? -/
def isBreak (c : Char) : Bool :=
  let n := c.toNat
  n == 10 || n == 13 || n == 0x85 || n == 0x2028 || n == 0x2029

/-- Can the character be written as it is? -/
def isPrintable (c : Char) : Bool :=
  let n := c.toNat
  n == 10 || (32 ≤ n && n ≤ 126) ||
    (0xa0 ≤ n && n != 0xfeff && n != 0xfffe && n != 0xffff)

/-- Is there a blank, a line end or nothing at all? -/
def isGap : Option Char → Bool
  | none => true
  | some c => c == ' ' || c == '\t' || c.toNat == 0 || isBreak c

/-- The characters that mean something at the start of a scalar. -/
def startIndicators : List Char := "#,[]\x7b\x7d&*!|>'\"%@`".toList

/-- Does the text begin like structure? -/
def startsLikeStructure : List Char → Bool
  | [] => false
  | c :: s =>
    Text.Chars.startsWith ['-', '-', '-'] (c :: s) ||
      Text.Chars.startsWith ['.', '.', '.'] (c :: s) || startIndicators.contains c ||
      ((c == '?' || c == ':' || c == '-') && isGap s.head?)

/-- Is there a colon before a gap or a hash after one, given the character before? -/
def hasInnerIndicator : (before : Char) → List Char → Bool
  | _, [] => false
  | before, c :: s =>
    (c == ':' && isGap s.head?) || (c == '#' && isGap (some before)) || hasInnerIndicator c s

/-- Could the text be taken for structure? -/
def looksLikeStructure (s : List Char) : Bool :=
  startsLikeStructure s ||
    match s with
    | [] => false
    | c :: rest => hasInnerIndicator c rest

/-- Are there two neighbors of which the first satisfies `p` and the second `q`? -/
def hasNeighbors (p q : Char → Bool) : List Char → Bool
  | c :: d :: s => (p c && q d) || hasNeighbors p q (d :: s)
  | _ => false

/-- Is the character a space? -/
def isSpace (c : Char) : Bool := c == ' '

/-- Is the character a space or a line end? -/
def isSpaceOrBreak (c : Char) : Bool := isSpace c || isBreak c

/-! ## Styles -/

/-- The ways to write a scalar. -/
inductive Style where
  | plain
  | single
  | double
  | literal
deriving DecidableEq

/-- Can every character be shown and does no space stand before a line end? -/
def isShowable (s : List Char) : Bool := s.all isPrintable && !hasNeighbors isSpace isBreak s

/-- Can the text stand as it is? -/
def allowsPlain (s : List Char) : Bool :=
  isShowable s && !s.any isBreak && !looksLikeStructure s &&
    !s.head?.any isSpaceOrBreak && !s.getLast?.any isSpaceOrBreak

/-- Can the text stand in single quotes? -/
def allowsSingle (s : List Char) : Bool := isShowable s && !hasNeighbors isBreak isSpace s

/-- Can the text stand in a block? -/
def allowsLiteral (s : List Char) : Bool := isShowable s && !s.getLast?.any isSpace

/-- The way to write a text. -/
def styleOf (text : String) : Style :=
  let s := text.toList
  let quoted := if allowsSingle s then Style.single else .double
  if s.contains '\n' then if allowsLiteral s then .literal else .double
  else if readsAsOther text then quoted
  else if allowsPlain s then .plain
  else quoted

/-! ## Writing -/

/-- The hexadecimal digit of a number below sixteen. -/
def hexDigit (n : Nat) : Char := if n < 10 then Char.ofNat (48 + n) else Char.ofNat (55 + n)

/-- The last hexadecimal digits of a number. -/
def hexDigits : (width n : Nat) → List Char
  | 0, _ => []
  | width + 1, n => hexDigits width (n / 16) ++ [hexDigit (n % 16)]

/-- The letter that stands for a character after a backslash. -/
def escapeLetter? (c : Char) : Option Char :=
  match c.toNat with
  | 0 => some '0'
  | 7 => some 'a'
  | 8 => some 'b'
  | 9 => some 't'
  | 10 => some 'n'
  | 11 => some 'v'
  | 12 => some 'f'
  | 13 => some 'r'
  | 27 => some 'e'
  | 34 => some '\x22'
  | 92 => some '\\'
  | 0x85 => some 'N'
  | 0xa0 => some '_'
  | 0x2028 => some 'L'
  | 0x2029 => some 'P'
  | _ => none

/-- The escape of a character. -/
def escape (c : Char) : List Char :=
  match escapeLetter? c with
  | some letter => ['\\', letter]
  | none =>
    if c.toNat ≤ 0xff then '\\' :: 'x' :: hexDigits 2 c.toNat
    else if c.toNat ≤ 0xffff then '\\' :: 'u' :: hexDigits 4 c.toNat
    else '\\' :: 'U' :: hexDigits 8 c.toNat

/-- A character in double quotes. -/
def doubleQuotedChar (c : Char) : List Char :=
  if !isPrintable c || isBreak c || c == '\x22' || c == '\\' then escape c else [c]

/-- Write the characters of a text line by line, with an indentation before the first character of
a line that is not empty. -/
def indentLines (indent : Nat) (write : Char → List Char) : (atStart : Bool) → List Char → List Char
  | _, [] => []
  | atStart, c :: s =>
    if isBreak c then c :: indentLines indent write true s
    else (if atStart then List.replicate indent ' ' else []) ++ write c ++
      indentLines indent write false s

/-- A character in single quotes. -/
def singleQuotedChar (c : Char) : List Char := if c == '\x27' then ['\x27', '\x27'] else [c]

/-- The marks after the bar of a block: the indentation, if it cannot be seen, and what happens to
the line ends at the end. -/
def literalMarks (s : List Char) : List Char :=
  let indentMark := if s.head?.any isSpaceOrBreak then ['2'] else []
  let endMark := match s.reverse with
    | last :: before :: _ => if !isBreak last then ['-'] else if isBreak before then ['+'] else []
    | [last] => if isBreak last then ['+'] else ['-']
    | [] => ['-']
  indentMark ++ endMark

/-- The text of a scalar whose further lines are indented. -/
def scalar (indent : Nat) (text : String) : String :=
  let s := text.toList
  match styleOf text with
  | .plain => text
  | .single =>
    let body := indentLines indent singleQuotedChar false s
    let close := if s.getLast?.any isBreak then List.replicate indent ' ' else []
    .ofList ('\x27' :: body ++ close ++ ['\x27'])
  | .double => .ofList ('\x22' :: s.flatMap doubleQuotedChar ++ ['\x22'])
  | .literal =>
    .ofList ('|' :: literalMarks s ++ '\n' :: indentLines indent (fun c => [c]) true s)

end CodeAtlas.Yaml
