/-!
# TOML documents

The values of a TOML document, and how the sections of a document make up one table. A table keeps
all its entries in order, repeated keys included; who reads an entry decides whether a repetition
matters. Sections may not repeat.
-/

namespace CodeAtlas.Toml

/-- A value. Numbers with a fraction, dates and times are not kept. -/
inductive Value where
  | string (text : String)
  | integer (value : Int)
  | float
  | boolean (value : Bool)
  | datetime
  | array (items : List Value)
  | table (entries : List (String × Value))
  /-- A table that was opened by a dotted key and can be extended by further ones. -/
  | dotted (entries : List (String × Value))
deriving Inhabited

/-- The entries of a table. -/
abbrev Entries := List (String × Value)

/-- Put a value under a dotted key. The keys before the last one open tables; a key that already has
another value cannot be extended. -/
def addDotted : (path : List String) → (last : String) → Value → Entries → Option Entries
  | [], last, v, entries => some (entries ++ [(last, v)])
  | key :: path, last, v, entries =>
    match entries.lookup key with
    | none => (addDotted path last v []).map fun inner => entries ++ [(key, .dotted inner)]
    | some (.dotted inner) =>
      (addDotted path last v inner).map fun extended =>
        entries.map fun (k, w) => if k == key then (k, .dotted extended) else (k, w)
    | some _ => none

/-- A section: its header, whether it adds to an array, and its entries. -/
structure Section where
  header : List String
  isArray : Bool
  entries : Entries

/-- The first segments of the headers, each once. -/
def firstKeys (sections : List Section) : List String :=
  (sections.filterMap (·.header.head?)).eraseDups

/-- The sections below a key, with the key taken off their headers. -/
def below (key : String) (sections : List Section) : List Section :=
  sections.filterMap fun s =>
    match s.header with
    | [] => none
    | first :: rest => if first = key then some { s with header := rest } else none

/-- Does the section add an element to the array it stands in? -/
def Section.opensElement (s : Section) : Bool := s.header.isEmpty && s.isArray

/-- Split the sections of an array of tables into its elements, each of which starts at a section
that opens an element. -/
def elements : List Section → List (List Section)
  | [] => []
  | s :: rest =>
    match elements rest with
    | [] => [[s]]
    | element :: others =>
      if (element.head?.any (·.opensElement)) then [s] :: element :: others
      else (s :: element) :: others

/-- The table that sections make up, with headers of at most `depth` segments. A section may appear
once, and an array of tables has to start with its first element. -/
def assemble : (depth : Nat) → List Section → Option Entries
  | 0, sections =>
    match sections with
    | [] => some []
    | [s] => if s.header.isEmpty && !s.isArray then some s.entries else none
    | _ => none
  | depth + 1, sections => do
    let own ← match sections.filter (·.header.isEmpty) with
      | [] => some []
      | [s] => if s.isArray then none else some s.entries
      | _ => none
    let groups ← (firstKeys sections).mapM fun key =>
      let inner := below key sections
      if inner.any (·.opensElement) then
        if inner.head?.any (·.opensElement) then
          ((elements inner).mapM fun element =>
            (assemble depth (element.zipIdx.map fun (s, i) =>
              if i = 0 then { s with isArray := false } else s)).map Value.table).map
            fun items => (key, Value.array items)
        else none
      else (assemble depth inner).map fun entries => (key, Value.table entries)
    some (own ++ groups)

/-- The length of the longest header. -/
def longestHeader (sections : List Section) : Nat :=
  sections.foldl (fun n s => max n s.header.length) 0

/-- The table of a whole document. -/
def ofSections (sections : List Section) : Option Entries :=
  assemble (longestHeader sections) sections

end CodeAtlas.Toml
