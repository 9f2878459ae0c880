import CodeAtlas.Proofs.RelativeDepth

/-!
# Inline modules

A module can be written out inside of its file. Its members count as those of the file, but a use
declaration in it is still read as if it stood at the top: every `super` goes up from the file, also
one that only leaves an inline module. So the path starts where its text says exactly for
declarations outside of all inline modules, and the import of everything above an inline module
always looks in another file.
-/

namespace CodeAtlas

/-! ### Nesting -/

namespace Tree

/-- Is this a module with its body in the same file? -/
def isInlineModule (t : Tree) : Bool := t.kind == "mod_item" && (t.field? "body").isSome

/-- The number of inline modules around the node at an address. -/
def inlineModules (t : Tree) : List Nat → Nat
  | [] => 0
  | i :: p => (if t.isInlineModule then 1 else 0) + t.children[i]?.elim 0 (·.inlineModules p)

end Tree

/-! ### Steps that are taken too often -/

/-- Fewer steps lead to the same place only if they already lead outside. -/
theorem ancestor?_sub_eq_iff {steps spared : Nat} (hsteps : steps ≠ 0) (segments : List String) :
    ancestor? steps segments = ancestor? (steps - spared) segments ↔
      spared = 0 ∨ segments.length < steps - spared := by
  constructor
  · intro heq
    cases hfewer : ancestor? (steps - spared) segments with
    | none => exact .inr (ancestor?_eq_none_iff.mp hfewer)
    | some top =>
      have hlength := length_of_ancestor? hfewer
      have hsame := length_of_ancestor? (heq.trans hfewer)
      omega
  · intro hspared
    rcases hspared with rfl | houtside
    · rfl
    · rw [ancestor?_eq_none_iff.mpr houtside, ancestor?_eq_none_iff]
      omega

/-- The package of a Rust file is not longer than its logical name. -/
theorem length_package_le (path : Path) :
    (path.package .rust).length ≤ (Place.ofPath path .rust).segments.length := by
  simp only [Path.package, Place.ofPath, true_and]
  by_cases hmain : path.stem?.getD "" = "main"
  · simp [hmain]
  · by_cases hroot : path.stem?.getD "" = "mod" ∨ path.stem?.getD "" = "lib"
    · simp [hmain, hroot]
    · simp [hmain, hroot]

namespace Tables

variable {tables : Tables} {importer : Module} {key : List String} {steps : Nat} {e : ImportEdge}

/-- A wildcard that is resolved leads to a module with the key it looks for. -/
theorem LooksFor.exists_of_resolved (h : tables.LooksFor importer key e)
    (hname : e.name = .wildcard) {m : Nat} (hresolved : e.status = .resolved m) :
    ∃ found ∈ tables.modulesAt importer key, found.id = m := by
  by_cases hempty : tables.modulesAt importer key = ∅
  · have hmissing := h.missing hempty (by simp [hname])
    rw [hresolved] at hmissing
    cases hmissing
  · have hids := (Set.nonempty_iff_ne_empty.mpr hempty).image Module.id
    have houtcome := h.found _ ⟨Nat.sInf_mem hids, fun _ hid => Nat.sInf_le hid⟩
    rw [hname, hresolved] at houtcome
    obtain ⟨found, hfound, hid⟩ := Nat.sInf_mem hids
    refine ⟨found, hfound, hid.trans ?_⟩
    simpa [outcomeAt] using (congrArg Prod.fst houtcome).symm

/-- A wildcard above the package of its file is not resolved to the file. -/
theorem GoesUp.ne_of_resolved (h : tables.GoesUp importer (steps + 1) [] e)
    (hname : e.name = .wildcard) (hnumbered : Numbered Module.id tables.modules) {module : Nat}
    (himporter : tables.modules[module]? = some importer) (hlanguage : importer.language = .rust)
    (hplace : importer.place = .ofPath importer.path importer.language) {m : Nat}
    (hresolved : e.status = .resolved m) : m ≠ module := by
  intro hsame
  cases hstart : ancestor? (steps + 1) (importer.path.package importer.language) with
  | none =>
    have houtside := h.outside hstart
    rw [hresolved] at houtside
    cases houtside
  | some start =>
    have hlooks := h.inside start hstart
    rw [List.append_nil] at hlooks
    obtain ⟨found, ⟨hfound, -, hkey⟩, hid⟩ := hlooks.exists_of_resolved hname hresolved
    obtain ⟨i, hi⟩ := List.mem_iff_getElem?.mp hfound
    have hposition : i = module := (hnumbered i found hi).symm.trans (hid.trans hsame)
    obtain rfl : found = importer := Option.some.inj (hi.symm.trans (hposition ▸ himporter))
    -- The key of the file is at least as long as its package, and the one above is shorter.
    have hlength := length_of_ancestor? hstart
    have hshort := length_package_le found.path
    rw [Module.key, if_neg (by rw [hlanguage]; decide), hplace, hlanguage] at hkey
    rw [hlanguage, ← hkey] at hlength
    omega

end Tables

/-! ### Declarations in inline modules -/

/-- The depth of an import is that of its path. -/
theorem UseLeaf.Yields.depth_eq {leaf : UseLeaf} {form : ImportForm} (h : leaf.Yields form) :
    form.depth = usePathDepth leaf.segments := by
  have hmem : form ∈ usePathForm leaf.segments leaf.isWildcard leaf.localName := by simp [h.emitted]
  unfold usePathForm at hmem
  split at hmem
  · rw [List.mem_singleton.mp hmem]
  · split at hmem
    · cases hmem
    · rw [List.mem_singleton.mp hmem]
    · split at hmem
      · rw [List.mem_singleton.mp hmem]
      · rw [List.mem_singleton.mp hmem]

namespace Document

variable {doc : Document} {p : List Nat} {t : Tree}

/-- How the import of a leaf that starts with some `super`s is read, in a declaration at an address.
The steps are counted from the file. -/
structure CountsFromFile (doc : Document) (p : List Nat) (t : Tree) (steps : Nat) (leaf : UseLeaf)
    (form : ImportForm) : Prop where
  depth : form.depth = steps + 1
  start : ∀ path, (Place.ofPath path .rust).base? form.depth = ancestor? steps (path.package .rust)
  /-- If every inline module took one of the steps, the path would start at the same place only
  outside of inline modules, or where both ways lead out of the unit. -/
  spared : ∀ path, (Place.ofPath path .rust).base? form.depth =
      ancestor? (steps - doc.tree.inlineModules p) (path.package .rust) ↔
    doc.tree.inlineModules p = 0 ∨
      (path.package .rust).length < steps - doc.tree.inlineModules p
  /-- The import of everything that is reached by `super` alone has an edge that looks above the
  package of the file, and never finds the file itself. -/
  away : leaf.isWildcard = true → leaf.segments = upwards steps → ∀ files module path,
    (orderedFiles files)[module]? = some (doc.facts path) →
      ∃ importer e base, (Tables.ofFiles files).modules[module]? = some importer ∧
        importer.path = path ∧ importer.language = .rust ∧
        e ∈ (Tables.ofFiles files).linkImports.imports ∧
        e.Copies ⟨module, base, form.placed (doc.extent t)⟩ ∧
        (Tables.ofFiles files).GoesUp importer steps [] e ∧
        ∀ m, e.status = .resolved m → m ≠ module

/-- A wildcard that goes up has an edge that leads away from its file. -/
theorem ReadsRelative.exists_edge_away {steps : Nat} {form : ImportForm}
    (h : doc.ReadsRelative t (steps + 1) [] form) (hlanguage : doc.language = .rust)
    (hname : form.name = .wildcard) {files : List FileFacts} {module : Nat} {path : Path}
    (hfile : (orderedFiles files)[module]? = some (doc.facts path)) :
    ∃ importer e base, (Tables.ofFiles files).modules[module]? = some importer ∧
      importer.path = path ∧ importer.language = .rust ∧
      e ∈ (Tables.ofFiles files).linkImports.imports ∧
      e.Copies ⟨module, base, form.placed (doc.extent t)⟩ ∧
      (Tables.ofFiles files).GoesUp importer (steps + 1) [] e ∧
      ∀ m, e.status = .resolved m → m ≠ module := by
  obtain ⟨importer, e, base, himporter, hpath, hsame, he, hcopies, hgoes⟩ :=
    h.linked files module path hfile
  obtain ⟨carrier, hcarrier, hcarries⟩ := exists_module_of_file hfile
  obtain rfl : carrier = importer := Option.some.inj (hcarrier.symm.trans himporter)
  have hplace : carrier.place = .ofPath carrier.path carrier.language := by
    rw [hcarries.place, hcarries.path, hcarries.language]
  refine ⟨carrier, e, base, himporter, hpath, hsame.trans hlanguage, he, hcopies, hgoes, ?_⟩
  intro m hresolved
  exact hgoes.ne_of_resolved (hcopies.name.trans hname) (Tables.ofFiles_importers files).1
    himporter (hsame.trans hlanguage) hplace hresolved

end Document

/-- In every use declaration, inside of inline modules or not, the `super`s at the start of a path
go up from the file. -/
theorem supers_count_from_the_file {doc : Document} {p : List Nat} {t : Tree} {u : UseTree}
    (hnode : doc.tree.Leads p t) (hdeclares : doc.DeclaresUse t u) :
    List.Forall₂ (fun (leaf : UseLeaf) (form : ImportForm) => ∀ steps rest,
      leaf.segments = List.replicate (steps + 1) "super" ++ rest → rest.head? ≠ some "super" →
        doc.CountsFromFile p t (steps + 1) leaf form)
      u.leaves (doc.importsAt p t) := by
  apply (hdeclares.forall₂_yields_mem p).imp
  intro leaf form hleaf steps rest hsegments hrest
  have hdepth : form.depth = steps + 2 := by
    rw [hleaf.2.depth_eq, hsegments, usePathDepth_super steps hrest]
  have hstart (path : Path) : (Place.ofPath path .rust).base? form.depth =
      ancestor? (steps + 1) (path.package .rust) := by
    rw [hdepth, Place.base?_ofPath]
  refine ⟨hdepth, hstart, ?_, ?_⟩
  · intro path
    rw [hstart]
    exact ancestor?_sub_eq_iff (Nat.succ_ne_zero steps) _
  · intro hwildcard hupwards files module path hfile
    have hgoes : leaf.GoesUp (steps + 1) [] .wildcard := by
      have hpath : UseLeaf.GoesUp (steps + 1) [] ⟨upwards (steps + 1) ++ [], true, leaf.localName⟩
          .wildcard := .all _
      rwa [List.append_nil, ← hupwards, ← hwildcard] at hpath
    obtain ⟨hname, hreads⟩ :=
      hdeclares.readsRelative hnode hleaf.1 hleaf.2 (List.forall_mem_nil _) hgoes
    exact hreads.exists_edge_away hdeclares.language hname hfile

/-- The document of `mod tests { use super::*; }`. -/
def inlineTests : Document :=
  { language := .rust
    text := "mod tests { use super::*; }"
    tree := .named "source_file" none 0 27
      [.named "mod_item" none 0 27
        [.named "identifier" (some "name") 4 9 [],
          .named "declaration_list" (some "body") 10 27
            [.named "use_declaration" none 12 25
              [.named "use_wildcard" (some "argument") 16 24 [.named "super" none 16 21 []]]]]] }

/-- One `super` in one inline module. -/
theorem supers_count_from_the_file_inline :
    ∃ t, inlineTests.tree.Leads [0, 1, 0] t ∧ inlineTests.DeclaresUse t (.wildcard ["super"]) ∧
      inlineTests.tree.inlineModules [0, 1, 0] = 1 ∧
      ∃ form, inlineTests.importsAt [0, 1, 0] t = [form] ∧
        inlineTests.CountsFromFile [0, 1, 0] t 1 ⟨["super"], true, none⟩ form := by
  have hstatement : ∃ t, inlineTests.tree.Leads [0, 1, 0] t ∧
      inlineTests.DeclaresUse t (.wildcard ["super"]) :=
    ⟨_, .child rfl rfl (.child rfl rfl (.child rfl rfl .here)), rfl, rfl, _, rfl,
      .wildcard rfl (by decide)⟩
  obtain ⟨t, hnode, hdeclares⟩ := hstatement
  refine ⟨t, hnode, hdeclares, by decide, ?_⟩
  obtain ⟨form, forms, hform, hnil, heq⟩ :=
    List.forall₂_cons_left_iff.mp (supers_count_from_the_file hnode hdeclares)
  rw [List.forall₂_nil_left_iff.mp hnil] at heq
  exact ⟨form, heq, hform 0 [] rfl (by simp)⟩

/-- A library root with one function, and a module of it with tests. -/
def testedLibrary : List FileFacts :=
  [{ path := ⟨"src/lib.rs"⟩, language := .rust
     imports := [{ target := "util", name := .whole, localName := "util", depth := 1 }]
     declarations := [{ name := "f", kind := .function, parent := none, visibility := .exposed }] },
    inlineTests.facts ⟨"src/util.rs"⟩]

/-- The tests of a module import the root of the library, although one `super` only leaves the
inline module. The root and the module then import each other. -/
theorem inline_super_leaves_the_file :
    inlineTests.tree.inlineModules [0, 1, 0] = 1 ∧ inlineTests.imports.map (·.depth) = [2] ∧
      (Place.ofPath ⟨"src/util.rs"⟩ .rust).base? 2 = some ["src"] ∧
      ancestor? (1 - 1) (Path.package ⟨"src/util.rs"⟩ .rust) = some ["src", "util"] ∧
      (Tables.ofFiles testedLibrary).linkImports.imports.map
        (fun e => (e.module, e.name, e.status, e.expandedFrom)) =
        [(0, .whole, .resolved 1, none), (1, .wildcard, .resolved 0, none),
          (1, .name "f", .resolved 0, some 1)] := by
  rw [Tables.ofFiles_of_ordered (by decide +kernel) (by decide +kernel)]
  decide +kernel

end CodeAtlas
