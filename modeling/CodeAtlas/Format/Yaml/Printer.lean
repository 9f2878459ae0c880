import CodeAtlas.Format.Json
import CodeAtlas.Format.Yaml.Scalar

/-!
# Printing YAML

Values are written in block form: the fields of an object and the items of an array one to a line,
the items of an array that is the value of a field as far to the left as the field itself. An empty
container is written as its brackets.
-/

namespace CodeAtlas.Yaml

/-- Spaces. -/
def spaces (n : Nat) : String := .ofList (List.replicate n ' ')

/-- A scalar and the end of its line, which a block that ends in a line end has already. -/
def scalarLine (indent : Nat) (text : String) : String :=
  let written := scalar indent text
  if written.toList.getLast?.any isBreak then written else written ++ "\n"

mutual

/-- A value after its key, in an object at an indentation. -/
def afterKey (indent : Nat) : Json → String
  | .null => " null\n"
  | .bool b => if b then " true\n" else " false\n"
  | .nat n => " " ++ Nat.repr n ++ "\n"
  | .str s => " " ++ scalarLine (indent + 2) s
  | .arr items =>
    if items.isEmpty then " []\n" else "\n" ++ itemLines indent (spaces indent) items
  | .obj fields =>
    if fields.isEmpty then " \x7b\x7d\n"
    else "\n" ++ fieldLines (indent + 2) (spaces (indent + 2)) fields

/-- A value at the start of its line or after a dash, with its further lines at an indentation. -/
def inPlace (indent : Nat) : Json → String
  | .null => "null\n"
  | .bool b => if b then "true\n" else "false\n"
  | .nat n => Nat.repr n ++ "\n"
  | .str s => scalarLine indent s
  | .arr items => if items.isEmpty then "[]\n" else itemLines indent "" items
  | .obj fields => if fields.isEmpty then "\x7b\x7d\n" else fieldLines indent "" fields

/-- The items of an array, the first of them after `lead`. -/
def itemLines (indent : Nat) (lead : String) : List Json → String
  | [] => ""
  | item :: rest =>
    lead ++ "- " ++ inPlace (indent + 2) item ++ itemLines indent (spaces indent) rest

/-- The fields of an object, the first of them after `lead`. -/
def fieldLines (indent : Nat) (lead : String) : List (String × Json) → String
  | [] => ""
  | (key, v) :: rest =>
    lead ++ scalar (indent + 2) key ++ ":" ++ afterKey indent v ++
      fieldLines indent (spaces indent) rest

end

/-- The text of a document. -/
def print (v : Json) : String := inPlace 0 v

end CodeAtlas.Yaml
