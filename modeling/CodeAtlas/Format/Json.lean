import CodeAtlas.Text.Basic

/-!
# JSON values and their text

The values that facts and graphs are written as, a compact and an indented text form, and the
accessors that decoders are made of. Numbers are natural: every number in a graph counts something.
Objects keep their fields in the order in which they are written.
-/

namespace CodeAtlas

/-- A JSON value. -/
inductive Json where
  | null
  | bool (value : Bool)
  | nat (value : Nat)
  | str (value : String)
  | arr (items : List Json)
  | obj (fields : List (String × Json))
deriving Inhabited

namespace Json

/-- The hexadecimal digit of a number below sixteen. -/
def digit (n : Nat) : Char := if n < 10 then Char.ofNat (48 + n) else Char.ofNat (87 + n)

/-- A character inside a JSON string: the quote, the backslash and control characters are
escaped. -/
def escapeChar (c : Char) : List Char :=
  if c = '\x22' then ['\\', '\x22']
  else if c = '\\' then ['\\', '\\']
  else if c.toNat = 8 then ['\\', 'b']
  else if c.toNat = 9 then ['\\', 't']
  else if c.toNat = 10 then ['\\', 'n']
  else if c.toNat = 12 then ['\\', 'f']
  else if c.toNat = 13 then ['\\', 'r']
  else if c.toNat < 32 then ['\\', 'u', '0', '0', digit (c.toNat / 16), digit (c.toNat % 16)]
  else [c]

/-- A text as a JSON string. -/
def quote (s : String) : String := "\"" ++ .ofList (s.toList.flatMap escapeChar) ++ "\""

/-- Two spaces for each level. -/
def indent (depth : Nat) : String := Text.repeatText depth "  "

/-- A container at a depth: its entries one to a line, or nothing between the brackets. -/
def block (depth : Nat) (first last : String) (entries : List String) : String :=
  if entries.isEmpty then first ++ last
  else
    first ++ "\n" ++ Text.joinWith ",\n" (entries.map fun e => indent (depth + 1) ++ e) ++ "\n" ++
      indent depth ++ last

mutual

/-- The indented text of a value at a depth. -/
def pretty (depth : Nat) : Json → String
  | null => "null"
  | bool b => if b then "true" else "false"
  | nat n => Nat.repr n
  | str s => quote s
  | arr items => block depth "[" "]" (prettyItems (depth + 1) items)
  | obj fields => block depth "\x7b" "\x7d" (prettyFields (depth + 1) fields)

/-- The texts of the items of an array. -/
def prettyItems (depth : Nat) : List Json → List String
  | [] => []
  | x :: xs => pretty depth x :: prettyItems depth xs

/-- The texts of the fields of an object. -/
def prettyFields (depth : Nat) : List (String × Json) → List String
  | [] => []
  | (key, v) :: rest => (quote key ++ ": " ++ pretty depth v) :: prettyFields depth rest

end

/-- The fields of an object. -/
def fields? : Json → Option (List (String × Json))
  | obj fields => some fields
  | _ => none

/-- The value of a member of an object, if it has one of that name; none at all for what is no object
and for an object with several such members. -/
def member? (name : String) : Json → Option (Option Json)
  | obj fields =>
    match fields.filter (·.1 == name) with
    | [] => some none
    | [field] => some (some field.2)
    | _ => none
  | _ => none

/-- The items of an array. -/
def items? : Json → Option (List Json)
  | arr items => some items
  | _ => none

/-- The text of a string. -/
def text? : Json → Option String
  | str s => some s
  | _ => none

/-- The value of a natural number. -/
def nat? : Json → Option Nat
  | nat n => some n
  | _ => none

/-- The value of a truth value. -/
def bool? : Json → Option Bool
  | bool b => some b
  | _ => none

/-- A value that may be absent, written as `null`. -/
def ofOption {α : Type} (write : α → Json) : Option α → Json
  | none => null
  | some a => write a

/-- Read a value that may be absent. -/
def option? {α : Type} (read : Json → Option α) : Json → Option (Option α)
  | null => some none
  | v => (read v).map some

/-- Read every item of an array. -/
def list? {α : Type} (read : Json → Option α) (v : Json) : Option (List α) :=
  v.items?.bind fun items => items.mapM read

/-- A list of texts. -/
def texts (xs : List String) : Json := arr (xs.map str)

/-- Read a member that has to be there. -/
def required? {α : Type} (name : String) (read : Json → Option α) (v : Json) : Option α :=
  (v.member? name).bind fun member => member.bind read

/-- Read a member that stands for an absent value when it is missing or `null`. -/
def optional? {α : Type} (name : String) (read : Json → Option α) (v : Json) :
    Option (Option α) :=
  (v.member? name).bind fun member => member.elim (some none) (option? read)

end Json

end CodeAtlas
