import CodeAtlas.Text.Basic

/-!
# File paths

A path is kept exactly as it was written, and read as a list of components: repeated separators,
inner `.` components and a trailing separator do not count, a leading `.` does. Two paths name the
same file when their components agree, and paths are ordered by their components, so that
`a/b.py` comes before `a.py`.
-/

namespace CodeAtlas

/-- A file path with `/` as separator, as written. -/
structure Path where
  text : String
deriving DecidableEq, Inhabited

namespace Path

/-- One step of a path. -/
inductive Component where
  | root
  | current
  | parent
  | name (text : String)
deriving DecidableEq

/-- Components are ordered root, `.`, `..`, names; names by their characters. -/
def Component.rank : Component → Nat × String
  | root => (0, "")
  | current => (1, "")
  | parent => (2, "")
  | name text => (3, text)

/-- Does one component come strictly before the other? -/
def Component.before (a b : Component) : Bool :=
  a.rank.1 < b.rank.1 || (a.rank.1 == b.rank.1 && a.rank.2 < b.rank.2)

/-- A component together with the number of characters of the path up to its end. -/
structure Step where
  component : Component
  stop : Nat

/-- The component that a piece between separators stands for; `first` says whether a `.` counts. -/
def component? (first : Bool) (piece : String) : Option Component :=
  if piece = "" then none
  else if piece = "." then if first then some .current else none
  else if piece = ".." then some .parent
  else some (.name piece)

/-- The steps of the pieces between separators; `start` is where the first piece begins. -/
def stepsOf : (first : Bool) → (start : Nat) → List String → List Step
  | _, _, [] => []
  | first, start, piece :: rest =>
    let stop := start + piece.length
    match component? first piece with
    | some c => ⟨c, stop⟩ :: stepsOf false (stop + 1) rest
    | none => stepsOf false (stop + 1) rest

/-- Does the path start at the root? -/
def isAbsolute (p : Path) : Bool := Text.startsWith "/" p.text

/-- The components of a path and where each ends. -/
def steps (p : Path) : List Step :=
  let pieces := Text.splitChar '/' p.text
  if p.isAbsolute then ⟨.root, 1⟩ :: stepsOf false 0 pieces else stepsOf true 0 pieces

/-- The components of a path. -/
def components (p : Path) : List Component := p.steps.map (·.component)

/-- Do two paths have the same components? -/
def same (p q : Path) : Bool := p.components == q.components

/-- Lexicographic order of components, equal lists included. -/
def componentsLe : List Component → List Component → Bool
  | [], _ => true
  | _ :: _, [] => false
  | a :: as, b :: bs => a.before b || (a == b && componentsLe as bs)

/-- Does the first path come before the second, or have the same components? -/
def le (p q : Path) : Bool := componentsLe p.components q.components

/-- The names of a component list; `.`, `..` and the root have none. -/
def namesOf (cs : List Component) : List String :=
  cs.filterMap fun
    | .name text => some text
    | _ => none

/-- The directory part, if the path is neither empty nor the root. -/
def parent? (p : Path) : Option Path :=
  match p.steps.reverse with
  | [] => none
  | last :: before =>
    if last.component = .root then none
    else some ⟨.ofList (p.text.toList.take (before.head?.elim 0 (·.stop)))⟩

/-- The last component, if it is a name. -/
def fileName? (p : Path) : Option String :=
  match p.components.getLast? with
  | some (.name text) => some text
  | _ => none

/-- A file name cut at its last dot. A name whose only dot comes first has no extension. -/
def splitExtension (name : String) : String × Option String :=
  match Text.breakAtLast? "." name with
  | some (stem, extension) => if stem = "" then (name, none) else (stem, some extension)
  | none => (name, none)

/-- The file name without its extension. -/
def stem? (p : Path) : Option String := p.fileName?.map fun name => (splitExtension name).1

/-- The part of the file name after its last dot. -/
def extension? (p : Path) : Option String := p.fileName?.bind fun name => (splitExtension name).2

/-- The names of the directories that lead to the file. -/
def directories (p : Path) : List String := (p.parent?.map fun d => namesOf d.components).getD []

/-- A path below another; an absolute path replaces the base. -/
def join (base p : Path) : Path :=
  if p.isAbsolute then p
  else if base.text = "" || Text.endsWith "/" base.text then ⟨base.text ++ p.text⟩
  else ⟨base.text ++ "/" ++ p.text⟩

end Path

end CodeAtlas
