import CodeAtlas.Proofs.ImportedClasses
import CodeAtlas.Proofs.Splitting

/-!
# Names through modules

A name can be imported from a module, or be reached by the name of the module with a dot. Importing
takes a symbol at the level of the module and only without one a submodule; the qualified name takes
a submodule and only without one a symbol. So both mean the same as long as the module has only one
of the two. Where it has both, the import binds the symbol and the qualified name means the
submodule. An import that binds the qualified name as a whole comes before either.
-/

namespace CodeAtlas

/-- What a name means that an import binds so. -/
def ImportBinding.meaning : ImportBinding → Meaning
  | .module id => .module id
  | .symbol id => .symbol id

namespace Tables

variable {tables : Tables} {config : ResolutionConfig}

/-! ### Importing a name -/

/-- A name that is imported from a module stands for a symbol there, or else for a submodule. -/
theorem bindName_snd (m : Nat) (name : String) :
    (tables.bindName m name).2 = ((tables.topLevelNamed m name).head?.map ImportBinding.symbol).or
      ((tables.submodule? m name).map ImportBinding.module) := by
  rw [bindName]
  cases (tables.topLevelNamed m name).head? with
  | some s => rfl
  | none => cases tables.submodule? m name <;> rfl

/-! ### Reaching a name -/

/-- Two segments stand for an alias as a whole, or for an alias with one segment behind it. -/
theorem longestAlias?_pair (module : Nat) (localName name : String) :
    tables.longestAlias? module [localName, name] =
      ((tables.aliasMeaning? module (localName ++ tables.separator module ++ name)).map
        (·, [])).or ((tables.aliasMeaning? module localName).map (·, [name])) := by
  have hboth : Text.joinWith (tables.separator module) ([localName, name].take 2) =
      localName ++ tables.separator module ++ name := rfl
  have hfirst : Text.joinWith (tables.separator module) ([localName, name].take 1) = localName :=
    rfl
  simp only [longestAlias?, List.length_cons, List.length_nil, longestAliasUpTo, hboth, hfirst]
  cases tables.aliasMeaning? module (localName ++ tables.separator module ++ name) with
  | some meaning => rfl
  | none => cases tables.aliasMeaning? module localName <;> rfl

/-- A qualified name of two segments whose first one only an import binds to a module. -/
theorem lookupPath_through_module {module m : Nat} {caller : Option Nat} {localName name : String}
    (hlocalName : IsPlainName localName) (hname : IsPlainName name)
    (hseparator : tables.separator module = ".")
    (halias : tables.aliasMeaning? module localName = some (.module m))
    (hlocal : (tables.lookupLocal config module caller localName).1 = none) :
    (tables.lookupPath config module caller (localName ++ "." ++ name)).1 =
      (tables.aliasMeaning? module (localName ++ "." ++ name)).getD
        (tables.memberOfModule m name) := by
  have hsegments : Text.segments (localName ++ "." ++ name) = [localName, name] := by
    rw [Text.segments_append_dot, hlocalName.1, hname.1]
    rfl
  have hlongest := tables.longestAlias?_pair module localName name
  rw [hseparator, halias] at hlongest
  rw [lookupPath, hsegments]
  simp only [List.any_cons, List.any_nil, hlocalName.2, hname.2, Bool.or_false,
    Bool.false_eq_true, if_false, hlocal, hlongest]
  cases tables.aliasMeaning? module (localName ++ "." ++ name) <;> rfl

/-! ### Both ways -/

section Unit

variable (tables) (importer : Module) (m : Nat) (whole part : ImportEdge)
variable (localName name : String)

/-- A module imports another one under a name, and a name from it. -/
structure ImportsThrough : Prop where
  importer_mem : importer ∈ tables.modules
  separator : importer.language.grammar.separator = "."
  localName_plain : IsPlainName localName
  name_plain : IsPlainName name
  /-- The first import of the module that binds the alias. -/
  whole_first : tables.linkImports.aliasEdge? importer.id localName = some whole
  whole_bound : whole.binding = some (.module m)
  part_mem : part ∈ tables.linkImports.imports
  part_module : part.module = importer.id
  part_written : part.expandedFrom = none
  part_name : part.name = .name name
  /-- The target of the other import is the same module. -/
  part_source : (tables.locate importer.id part.depth
    (targetSegments part.target importer.language)).1 = some m

/-- What the qualified name means, next to what the import of its last segment binds. -/
structure PathFollowsImport (config : ResolutionConfig) (scope : Option Nat)
    (binding : ImportBinding) : Prop where
  /-- An import that binds the qualified name as a whole decides. -/
  asWhole : ∀ meaning,
    tables.aliasMeaning? importer.id (localName ++ "." ++ name) = some meaning →
      (tables.lookupPath config importer.id scope (localName ++ "." ++ name)).1 = meaning
  /-- Otherwise both mean the same exactly where the module has no two things of the name. -/
  same : tables.aliasMeaning? importer.id (localName ++ "." ++ name) = none →
    ((tables.lookupPath config importer.id scope (localName ++ "." ++ name)).1 = binding.meaning ↔
      tables.topLevelNamed m name = [] ∨ tables.submodule? m name = none)
  /-- Of two things the import binds the symbol, and the qualified name means the submodule. -/
  apart : tables.aliasMeaning? importer.id (localName ++ "." ++ name) = none → ∀ s sub,
    (tables.topLevelNamed m name).head? = some s → tables.submodule? m name = some sub →
      binding = .symbol s ∧
        (tables.lookupPath config importer.id scope (localName ++ "." ++ name)).1 = .module sub

end Unit

namespace ImportsThrough

variable {importer : Module} {m : Nat} {whole part : ImportEdge} {localName name : String}
variable (h : tables.ImportsThrough importer m whole part localName name)
variable (hconsistent : tables.records.Consistent)
variable (hwritten : ∀ e ∈ tables.imports, e.expandedFrom = none)
include h hconsistent

/-- The import of the name binds what the module offers. -/
theorem binding_eq (hwritten : ∀ e ∈ tables.imports, e.expandedFrom = none) :
    part.binding = (tables.bindName m name).2 := by
  rcases mem_linkImports hwritten h.part_mem with ⟨hlinked, _⟩ | ⟨_, _, _, _, _, _, rfl⟩
  · obtain ⟨e, _, rfl⟩ := List.mem_map.mp hlinked
    have hmodule : e.module = importer.id := h.part_module
    have horigin : tables.modules[e.module]? = some importer := by
      rw [hmodule]
      exact hconsistent.symbols.modulesNumbered.getElem?_of_mem h.importer_mem
    have hsource := h.part_source
    rw [← hmodule] at hsource
    have hjudged := congrArg (·.1.2) (judgeImport_of_located horigin hsource)
    rwa [show e.name = .name name from h.part_name] at hjudged
  · cases h.part_written

include hwritten in
/-- The qualified name means what an import of it as a whole binds, or else what stands behind the
module. -/
theorem lookupPath_eq {scope : Option Nat}
    (hfree : tables.linkImports.Unshadowed config importer.id scope localName) :
    (tables.linkImports.lookupPath config importer.id scope (localName ++ "." ++ name)).1 =
      (tables.linkImports.aliasMeaning? importer.id (localName ++ "." ++ name)).getD
        (tables.memberOfModule m name) := by
  have hlinked := linkImports_consistent hconsistent hwritten
  have hseparator : tables.linkImports.separator importer.id = "." := by
    have hget : tables.linkImports.modules[importer.id]? = some importer :=
      hconsistent.symbols.modulesNumbered.getElem?_of_mem h.importer_mem
    rw [Tables.separator, grammar, hget, Option.getD_some, h.separator]
  have halias : tables.linkImports.aliasMeaning? importer.id localName = some (.module m) := by
    rw [aliasMeaning?, h.whole_first, Option.map_some, meaningOf, h.whole_bound]
  exact lookupPath_through_module h.localName_plain h.name_plain hseparator halias
    (hfree.lookupLocal_eq_none hlinked)

include hwritten in
/-- How the qualified name and the import of its last segment go together. -/
theorem pathFollowsImport {scope : Option Nat} {binding : ImportBinding}
    (hbinding : part.binding = some binding)
    (hfree : tables.linkImports.Unshadowed config importer.id scope localName) :
    tables.linkImports.PathFollowsImport importer m localName name config scope binding := by
  have hpath := h.lookupPath_eq hconsistent hwritten hfree
  rw [h.binding_eq hconsistent hwritten, bindName_snd] at hbinding
  have hstep (hnone : tables.linkImports.aliasMeaning? importer.id (localName ++ "." ++ name) =
      none) : (tables.linkImports.lookupPath config importer.id scope
        (localName ++ "." ++ name)).1 = tables.memberOfModule m name := by
    rw [hpath, hnone, Option.getD_none]
  constructor
  · intro meaning hwhole
    rw [hpath, hwhole, Option.getD_some]
  · intro hnone
    change _ ↔ tables.topLevelNamed m name = [] ∨ tables.submodule? m name = none
    rw [hstep hnone, memberOfModule]
    cases hsub : tables.submodule? m name with
    | none =>
      rw [hsub, Option.map_none, Option.or_none] at hbinding
      obtain ⟨s, hs, rfl⟩ := Option.map_eq_some_iff.mp hbinding
      simp [hs, ImportBinding.meaning]
    | some sub =>
      rw [hsub] at hbinding
      cases hlevel : tables.topLevelNamed m name with
      | nil =>
        rw [hlevel] at hbinding
        cases hbinding
        simp [ImportBinding.meaning]
      | cons s rest =>
        rw [hlevel] at hbinding
        cases hbinding
        simp [ImportBinding.meaning]
  · intro hnone s sub hs hsub
    replace hs : (tables.topLevelNamed m name).head? = some s := hs
    replace hsub : tables.submodule? m name = some sub := hsub
    rw [hs] at hbinding
    cases hbinding
    rw [hstep hnone, memberOfModule, hsub]
    exact ⟨rfl, rfl⟩

end ImportsThrough

end Tables

/-- A name that is reached through an imported module means what an import of the name from that
module binds, unless the module has both a symbol and a submodule of that name. -/
theorem qualified_names_follow_imports (config : ResolutionConfig) (files : List FileFacts)
    (hfiles : ∀ file ∈ files, file.WellFormed) {importer : Module} {m : Nat}
    {whole part : ImportEdge} {localName name : String}
    (h : (Tables.ofFiles files).ImportsThrough importer m whole part localName name)
    {binding : ImportBinding} (hbinding : part.binding = some binding) {scope : Option Nat}
    (hfree : (Tables.ofFiles files).linkImports.Unshadowed config importer.id scope localName) :
    (Tables.ofFiles files).linkImports.PathFollowsImport importer m localName name config scope
      binding :=
  h.pathFollowsImport (Tables.ofFiles_consistent files hfiles) (Tables.ofFiles_written files)
    hbinding hfree

/-- A package that declares a class and a function, next to a file of the package with the name of
the class, and a module that imports the package and both names from it. -/
def namesakes : List FileFacts :=
  [{ path := ⟨"main.py"⟩, language := .python
     imports :=
      [{ target := "pkg", name := .whole, localName := "pkg" },
        { target := "pkg", name := .name "shape", localName := "shape" },
        { target := "pkg", name := .name "area", localName := "area" }]
     calls :=
      [{ callee := "pkg.shape.make", name := "make", receiver := some "pkg.shape"
         kind := .method },
        { callee := "shape.make", name := "make", receiver := some "shape", kind := .method }] },
    { path := ⟨"pkg/__init__.py"⟩, language := .python
      declarations :=
        [{ name := "shape", kind := .classLike, parent := none, visibility := .exposed },
          { name := "make", kind := .method, parent := some 0, visibility := .exposed },
          { name := "area", kind := .function, parent := none, visibility := .exposed }] },
    { path := ⟨"pkg/shape.py"⟩, language := .python
      declarations :=
        [{ name := "make", kind := .function, parent := none, visibility := .exposed }] }]

/-- The tables of the three files. -/
theorem ofFiles_namesakes : Tables.ofFiles namesakes = namesakes.foldl Tables.addFile {} :=
  Tables.ofFiles_of_ordered (by decide) (by decide)

/-- All files are well formed. -/
theorem wellFormed_namesakes : ∀ file ∈ namesakes, file.WellFormed := by
  intro file hfile
  have hshallow : ({ file with calls := [] } : FileFacts).WellFormed := by
    refine FileFacts.wellFormed_of_shallow ?_ rfl
    revert file
    simp [namesakes, parentAt]
  refine ⟨hshallow.parents, ?_, ?_, hshallow.climbs⟩ <;> (revert file; simp [namesakes])

/-- Nothing in the importing module has the name of the package. -/
theorem unshadowed_namesakes :
    (Tables.ofFiles namesakes).linkImports.Unshadowed {} 0 none "pkg" := by
  refine ⟨[], .done, by simp, ?_⟩
  rw [ofFiles_namesakes]
  decide +kernel

/-- Both names are imported from the package, next to the package itself. -/
theorem importsThrough_namesakes {name : String} {symbol : Nat}
    (hname : name = "shape" ∧ symbol = 0 ∨ name = "area" ∧ symbol = 2) :
    ∃ importer whole part,
      (Tables.ofFiles namesakes).ImportsThrough importer 1 whole part "pkg" name ∧
        importer.id = 0 ∧ part.binding = some (.symbol symbol) := by
  rw [ofFiles_namesakes]
  generalize htables : namesakes.foldl Tables.addFile {} = tables
  refine ⟨tables.modules[0]?.getD default, tables.linkImports.imports[0]?.getD default, ?_⟩
  rcases hname with ⟨rfl, rfl⟩ | ⟨rfl, rfl⟩
  · refine ⟨tables.linkImports.imports[1]?.getD default, ?_⟩
    subst htables
    exact ⟨by constructor <;> decide +kernel, by decide +kernel⟩
  · refine ⟨tables.linkImports.imports[2]?.getD default, ?_⟩
    subst htables
    exact ⟨by constructor <;> decide +kernel, by decide +kernel⟩

/-- The function is reached through its package as it is imported. -/
theorem qualified_names_follow_imports_function :
    (∀ file ∈ namesakes, file.WellFormed) ∧
      (Tables.ofFiles namesakes).linkImports.Unshadowed {} 0 none "pkg" ∧
      (∃ importer whole part,
        (Tables.ofFiles namesakes).ImportsThrough importer 1 whole part "pkg" "area" ∧
          importer.id = 0 ∧ part.binding = some (.symbol 2) ∧
          (Tables.ofFiles namesakes).linkImports.PathFollowsImport importer 1 "pkg" "area" {} none
            (.symbol 2)) ∧
      ((Tables.ofFiles namesakes).linkImports.lookupPath {} 0 none "pkg.area").1 = .symbol 2 := by
  refine ⟨wellFormed_namesakes, unshadowed_namesakes, ?_, ?_⟩
  · obtain ⟨importer, whole, part, h, hid, hbinding⟩ :=
      importsThrough_namesakes (.inr ⟨rfl, rfl⟩)
    have hfree := unshadowed_namesakes
    rw [← hid] at hfree
    exact ⟨importer, whole, part, h, hid, hbinding,
      qualified_names_follow_imports {} namesakes wellFormed_namesakes h hbinding hfree⟩
  · rw [ofFiles_namesakes]
    decide +kernel

/-- The class is imported by its name, but through its package its name means the other file. So the
two calls of `make` go to different functions. -/
theorem namesakes_part_ways :
    (∃ importer whole part,
      (Tables.ofFiles namesakes).ImportsThrough importer 1 whole part "pkg" "shape" ∧
        importer.id = 0 ∧ part.binding = some (.symbol 0)) ∧
    (Tables.ofFiles namesakes).linkImports.Unshadowed {} 0 none "pkg" ∧
    ((Tables.ofFiles namesakes).linkImports.lookupPath {} 0 none "pkg.shape").1 = .module 2 ∧
    ∃ graph, resolveFacts {} namesakes = .ok graph ∧
      graph.records.calls.map (·.target) = [.symbol 3, .symbol 1] := by
  refine ⟨importsThrough_namesakes (.inl ⟨rfl, rfl⟩), unshadowed_namesakes, ?_, _,
    (completedRun_of_ne_nil {} (List.cons_ne_nil _ _)).resolves, ?_⟩
  · rw [ofFiles_namesakes]
    decide +kernel
  · change ((Tables.ofFiles namesakes).linkImports.linkCalls {}).calls.map (·.target) = _
    rw [ofFiles_namesakes]
    decide +kernel

end CodeAtlas
