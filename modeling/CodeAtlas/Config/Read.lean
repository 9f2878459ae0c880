import CodeAtlas.Config.Basic
import CodeAtlas.Error
import CodeAtlas.Format.Toml.Reader

/-!
# Reading a configuration

A configuration is a TOML document with the sections `project`, `analysis` and `resolution`. A field
that is not given keeps its default, a field of another name is passed over, and a field that is
given twice or has a value of the wrong type makes the whole configuration invalid.
-/

namespace CodeAtlas

namespace Toml

/-- The text of a string. -/
def Value.text? : Value → Option String
  | string text => some text
  | _ => none

/-- The value of an integer that is not negative. -/
def Value.nat? : Value → Option Nat
  | integer value => if 0 ≤ value then some value.toNat else none
  | _ => none

/-- The value of a truth value. -/
def Value.bool? : Value → Option Bool
  | boolean value => some value
  | _ => none

/-- The texts of an array of strings. -/
def Value.texts? : Value → Option (List String)
  | array items => items.mapM Value.text?
  | _ => none

/-- Keep the entries of the given fields, if each is given at most once. -/
def selectFields (fields : List String) (entries : Entries) : Option Entries :=
  let known := entries.filter fun entry => fields.contains entry.1
  if (known.map (·.1)).Nodup then some known else none

/-- The entries of a record with the given fields. A record is a table, or an array that lists the
values of its fields in order and may stop early; a date names none of the fields. -/
def Value.record? (fields : List String) : Value → Option Entries
  | table entries | dotted entries => selectFields fields entries
  | array items => if items.length ≤ fields.length then some (fields.zip items) else none
  | datetime => some []
  | _ => none

/-- Read one field of a record, which has a default. -/
def readField {α : Type} (entries : Entries) (name : String) (default : α)
    (read : Value → Option α) : Option α :=
  match entries.lookup name with
  | none => some default
  | some v => read v

end Toml

open Toml in
/-- Read what is analyzed. -/
def ProjectConfig.ofToml? (v : Value) : Option ProjectConfig := do
  let default : ProjectConfig := {}
  let entries ← v.record? ["root", "languages", "ignore"]
  some {
    root := ← readField entries "root" default.root Value.text?
    languages := ← readField entries "languages" default.languages Value.texts?
    ignore := ← readField entries "ignore" default.ignore Value.texts? }

open Toml in
/-- Read how files are chosen. -/
def AnalysisConfig.ofToml? (v : Value) : Option AnalysisConfig := do
  let default : AnalysisConfig := {}
  let entries ← v.record? ["threads", "max_file_bytes", "follow_gitignore"]
  some {
    threads := ← readField entries "threads" default.threads Value.nat?
    maxFileBytes := ← readField entries "max_file_bytes" default.maxFileBytes Value.nat?
    followGitignore := ← readField entries "follow_gitignore" default.followGitignore Value.bool? }

open Toml in
/-- Read how names are resolved. -/
def ResolutionConfig.ofToml? (v : Value) : Option ResolutionConfig := do
  let default : ResolutionConfig := {}
  let entries ← v.record? ["walk_bases", "extra_builtins"]
  some {
    walkBases := ← readField entries "walk_bases" default.walkBases Value.bool?
    extraBuiltins := ← readField entries "extra_builtins" default.extraBuiltins Value.texts? }

namespace Config

open Toml in
/-- Read all settings from the table of a document. -/
def ofToml? (document : Entries) : Option Config := do
  let entries ← selectFields ["project", "analysis", "resolution"] document
  some {
    project := ← readField entries "project" {} ProjectConfig.ofToml?
    analysis := ← readField entries "analysis" {} AnalysisConfig.ofToml?
    resolution := ← readField entries "resolution" {} ResolutionConfig.ofToml? }

/-- Read all settings from the text of a document. -/
def parse (text : String) : Except Error Config :=
  match (Toml.read? text).bind ofToml? with
  | some config => .ok config
  | none => .error .config

end Config

end CodeAtlas
