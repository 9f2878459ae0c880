import CodeAtlas.Proofs.ImportStatements
import CodeAtlas.Proofs.ModuleLocation

/-!
# Relative imports

A relative import starts at the package of its file and goes up some steps. In most languages the
package is the directory of the file; a Rust file is itself a package, unless it stands for its
directory or is the root of a program. An import of depth `n + 1` goes up `n` steps, and where the
package has fewer segments it leaves the unit. Otherwise it looks for the one key that continues the
place where it starts.
-/

namespace CodeAtlas

/-! ### Going up -/

/-- What is left of some segments when the last ones are removed one by one, if there are enough. -/
def ancestor? : (steps : Nat) → List String → Option (List String)
  | 0, segments => some segments
  | steps + 1, segments => if segments = [] then none else ancestor? steps segments.dropLast

/-- The segments that are left are those in front of the removed ones. -/
theorem ancestor?_eq (steps : Nat) (segments : List String) :
    ancestor? steps segments =
      if steps ≤ segments.length then some (segments.take (segments.length - steps)) else none := by
  induction steps generalizing segments with
  | zero => simp [ancestor?]
  | succ steps ih =>
    by_cases hempty : segments = []
    · rw [ancestor?, if_pos hempty, hempty, if_neg (by simp)]
    · have hlength := List.length_pos_of_ne_nil hempty
      rw [ancestor?, if_neg hempty, ih, List.length_dropLast, List.dropLast_eq_take,
        List.take_take]
      by_cases hsteps : steps + 1 ≤ segments.length
      · rw [if_pos (by omega), if_pos hsteps]
        congr 2
        omega
      · rw [if_neg (by omega), if_neg hsteps]

/-- There are not enough segments exactly when there are fewer than steps. -/
theorem ancestor?_eq_none_iff {steps : Nat} {segments : List String} :
    ancestor? steps segments = none ↔ segments.length < steps := by
  rw [ancestor?_eq]
  split
  · simp_all
  · simp_all

/-- Every step takes off one segment. -/
theorem length_of_ancestor? {steps : Nat} {segments top : List String}
    (h : ancestor? steps segments = some top) : top.length + steps = segments.length := by
  rw [ancestor?_eq] at h
  split at h
  · cases h
    rw [List.length_take]
    omega
  · cases h

/-! ### Packages -/

/-- The package of a file. -/
def Path.package (path : Path) (lang : Language) : List String :=
  let stem := path.stem?.getD ""
  if lang = .rust ∧ stem ∉ ["main", "mod", "lib"] then path.directories ++ [stem]
  else path.directories

/-- A file that stands for its directory starts there. -/
theorem Place.base?_package (segments : List String) (steps : Nat) :
    (Place.mk segments true).base? (steps + 1) = ancestor? steps segments := by
  rw [base?, ancestor?_eq]
  simp

/-- Any other file starts at its directory, too. -/
theorem Place.base?_file (segments : List String) (stem : String) (steps : Nat) :
    (Place.mk (segments ++ [stem]) false).base? (steps + 1) = ancestor? steps segments := by
  rw [base?, ancestor?_eq]
  simp only [Bool.false_eq_true, if_false, Nat.add_sub_cancel, List.length_append,
    List.length_singleton]
  by_cases hsteps : steps ≤ segments.length
  · rw [if_pos (by omega), if_pos hsteps, List.take_append_of_le_length (by omega)]
    congr 2
    omega
  · rw [if_neg (by omega), if_neg hsteps]

/-- A relative import goes up from the package of its file, one step less than its depth. -/
theorem Place.base?_ofPath (path : Path) (lang : Language) (steps : Nat) :
    (Place.ofPath path lang).base? (steps + 1) = ancestor? steps (path.package lang) := by
  cases lang with
  | rust =>
    simp only [ofPath, Path.package, true_and]
    split
    · rename_i hmain
      rw [base?_file, if_neg (by simp [hmain])]
    · split
      · rename_i hroot
        rw [base?_package, if_neg (by simp_all)]
      · rename_i hmain hroot
        rw [base?_package, if_pos (by simp_all)]
  | python | javaScript | typeScript | tsx =>
    simp only [ofPath, Path.package, reduceCtorEq, false_and, if_false]
    split
    · rw [base?_package]
    · rw [base?_file]
  | go | java | c | cpp =>
    simp only [ofPath, Path.package, reduceCtorEq, false_and, if_false]
    rw [base?_file]

/-! ### What an import means -/

namespace Tables

variable {tables : Tables} {importer : Module}

/-- The modules of the importer's ecosystem with a key. -/
def modulesAt (tables : Tables) (importer : Module) (key : List String) : Set Module :=
  {m | m ∈ tables.modules ∧ m.language.ecosystem = importer.language.ecosystem ∧ m.key = key}

/-- What becomes of an import that looks for one key. -/
structure LooksFor (tables : Tables) (importer : Module) (key : List String) (e : ImportEdge) :
    Prop where
  /-- The first module with the key is the one that is imported, or from which a name is. -/
  found : ∀ m, IsLeast (Module.id '' tables.modulesAt importer key) m →
    (e.status, e.binding) = tables.outcomeAt m e.name
  /-- Without one, a name may itself be a module. -/
  named : tables.modulesAt importer key = ∅ → ∀ name, e.name = .name name →
    ∀ m, IsLeast (Module.id '' tables.modulesAt importer (key ++ [name])) m →
      (e.status, e.binding) = (.resolved m, some (.module m))
  missing : tables.modulesAt importer key = ∅ →
    (∀ name, e.name = .name name → tables.modulesAt importer (key ++ [name]) = ∅) →
      (e.status, e.binding) = (.external, none)

/-- What becomes of an import that goes up some steps from the package of its file and then down
along some segments. -/
structure GoesUp (tables : Tables) (importer : Module) (steps : Nat) (segments : List String)
    (e : ImportEdge) : Prop where
  inside : ∀ start, ancestor? steps (importer.path.package importer.language) = some start →
    tables.LooksFor importer (start ++ segments) e
  outside : ancestor? steps (importer.path.package importer.language) = none →
    (e.status, e.binding) = (.external, none)

/-- The module at a key is the first one there. -/
theorem findsLeast_moduleAt? (h : Numbered Module.id tables.modules) (importer : Module)
    (key : List String) :
    FindsLeast (tables.moduleAt? importer.language key) (tables.modulesAt importer key) := by
  have hset : {m | m ∈ tables.modulesWhere importer.language (· == key)} =
      tables.modulesAt importer key := by
    ext m
    rw [Set.mem_ofPred_eq, mem_modulesWhere_iff, beq_iff_eq, Language.sharesModulesWith,
      beq_iff_eq]
    rfl
  rw [← hset]
  exact findsLeast_head?_modulesWhere h importer.language (· == key)

section Linked

variable {steps : Nat} {e : ImportEdge} (hnumbered : Numbered Module.id tables.modules)
  (himporter : tables.modules[e.module]? = some importer)
  (hplace : importer.place = .ofPath importer.path importer.language)
  (hfamily : importer.language.isCFamily = false) (hdepth : e.depth = steps + 1)
include himporter hplace hfamily hdepth

/-- A relative search looks at the key that continues its start, and nowhere else. -/
theorem locate_of_goesUp (segments : List String) :
    tables.locate e.module e.depth segments =
      ((ancestor? steps (importer.path.package importer.language)).bind fun start =>
        tables.moduleAt? importer.language (start ++ segments), []) := by
  rw [locate, himporter, hdepth]
  simp only [Option.getD_some, Nat.succ_ne_zero, if_false, hplace, Place.base?_ofPath, hfamily]
  simp

include hnumbered

/-- A written relative import means what its steps and segments say. -/
theorem linkImport_goesUp :
    tables.GoesUp importer steps (targetSegments e.target importer.language)
      (tables.linkImport e).1 := by
  have hlocate := locate_of_goesUp himporter hplace hfamily hdepth
  have hjudged : ((tables.linkImport e).1.status, (tables.linkImport e).1.binding) =
      (tables.judgeImport e).1 := rfl
  constructor
  · intro start hstart
    have hfinds := findsLeast_moduleAt? hnumbered importer
    simp only [hstart, Option.bind_some] at hlocate
    constructor
    · intro m hm
      rw [hjudged, judgeImport_of_located himporter]
      · rfl
      · rw [hlocate]
        exact (hfinds _ m).mpr hm
    · intro hnone name hname m hm
      change e.name = .name name at hname
      have hmissing := (hfinds _).eq_none_iff.mpr hnone
      have hsub := (hfinds _ m).mpr hm
      rw [List.append_assoc] at hsub
      rw [hjudged, judgeImport, himporter]
      simp only [Option.getD_some, hlocate, hmissing, hname, hsub]
    · intro hnone hnames
      have hmissing := (hfinds _).eq_none_iff.mpr hnone
      rw [hjudged, judgeImport, himporter]
      simp only [Option.getD_some, hlocate, hmissing]
      cases hname : e.name with
      | whole => rfl
      | wildcard => rfl
      | name name =>
        have hsub := (hfinds _).eq_none_iff.mpr (hnames name hname)
        rw [List.append_assoc] at hsub
        simp only [hsub]
  · intro hstart
    simp only [hstart, Option.bind_none] at hlocate
    rw [hjudged, judgeImport, himporter]
    simp only [Option.getD_some, hlocate]
    cases e.name <;> rfl

end Linked

end Tables

/-- In every unit that holds a document, a relative import of the document outside of the C family
has an edge that goes up one step less than its depth. -/
theorem exists_edge_goesUp {files : List FileFacts} {module : Nat} {doc : Document} {path : Path}
    (hfile : (orderedFiles files)[module]? = some (doc.facts path)) {p : List Nat} {t : Tree}
    (hnode : doc.tree.Leads p t) {form : ImportForm} (hform : form ∈ doc.importsAt p t)
    (hfamily : doc.language.isCFamily = false) {steps : Nat} (hdepth : form.depth = steps + 1) :
    ∃ importer e base, (Tables.ofFiles files).modules[module]? = some importer ∧
      importer.path = path ∧ importer.language = doc.language ∧
      e ∈ (Tables.ofFiles files).linkImports.imports ∧
      e.Copies ⟨module, base, form.placed (doc.extent t)⟩ ∧
      (Tables.ofFiles files).GoesUp importer steps (targetSegments form.target doc.language) e := by
  obtain ⟨importer, himporter, hcarries⟩ := exists_module_of_file hfile
  have hlisted : form.placed (doc.extent t) ∈ (doc.facts path).imports :=
    (Document.importsAt_infix hnode).subset (List.mem_map.mpr ⟨form, hform, rfl⟩)
  obtain ⟨e, he, base, hcopies⟩ := exists_edge_of_fact hfile hlisted
  have hlanguage : importer.language = doc.language := hcarries.language
  have hpath : importer.path = path := hcarries.path
  have hplace : importer.place = .ofPath importer.path importer.language := by
    rw [hlanguage, hpath]
    exact hcarries.place
  have hgoes := Tables.linkImport_goesUp (Tables.ofFiles_importers files).1
    (hcopies.module ▸ himporter) hplace (hlanguage ▸ hfamily) (hcopies.depth.trans hdepth)
  rw [hcopies.target, hlanguage] at hgoes
  refine ⟨importer, _, base, himporter, hpath, hlanguage, ?_, ?_, hgoes⟩
  · rw [Tables.linkImports_imports]
    exact List.mem_append_left _ (List.mem_map.mpr ⟨e, he, rfl⟩)
  · exact ⟨hcopies.module, hcopies.target, hcopies.name, hcopies.localName, hcopies.depth,
      hcopies.extent, hcopies.written⟩

end CodeAtlas
