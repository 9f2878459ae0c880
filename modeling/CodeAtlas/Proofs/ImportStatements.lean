import CodeAtlas.Facts.Extract
import CodeAtlas.Proofs.Conservation
import CodeAtlas.Proofs.EvaluationOrder
import CodeAtlas.Proofs.Lists

/-!
# Import statements

The imports of a document are read off its nodes, each node before what is below it. What a node
imports by itself depends on the node and the one above it only, so the imports of a statement stand
together among those of the document, wherever in the tree the statement is. In a unit that holds
the document, each of them has an edge of its own.
-/

namespace CodeAtlas

/-- A named node between two offsets of a text. -/
def Tree.named (kind : String) (field : Option String) (start stop : Nat) (children : List Tree) :
    Tree :=
  .node { kind := kind, named := true, field := field, start := start, stop := stop } children

/-- The node above the one at an address; `parent` is the node above the root. -/
def Tree.above? (t : Tree) (parent : Option Tree) : List Nat → Option Tree
  | [] => parent
  | i :: p => t.children[i]?.bind fun c => c.above? (some t) p

namespace Document

variable {doc : Document} {t n : Tree} {p : List Nat}

/-- The imports that the node at an address is by itself. -/
def importsAt (doc : Document) (p : List Nat) (n : Tree) : List ImportForm :=
  doc.ownImports (doc.tree.above? none p) n

/-- The imports of several trees are those of the ones that carry meaning. -/
theorem importsAmong_eq (parent : Tree) (ts : List Tree) :
    doc.importsAmong parent ts =
      (ts.filter Tree.isProper).flatMap (doc.importsBelow (some parent)) := by
  induction ts with
  | nil => rfl
  | cons t ts ih =>
    rw [importsAmong, ih, List.filter_cons]
    cases t.isProper <;> simp

/-- The imports of a tree start with those of its root, and the children follow. -/
theorem importsBelow_eq (parent : Option Tree) (t : Tree) :
    doc.importsBelow parent t = (doc.ownImports parent t).map (·.placed (doc.extent t)) ++
      t.proper.flatMap (doc.importsBelow (some t)) := by
  obtain ⟨label, children⟩ := t
  rw [importsBelow, importsAmong_eq]
  rfl

/-- What a node imports by itself stands together among the imports of every tree around it. -/
theorem ownImports_infix (parent : Option Tree) (h : t.Leads p n) :
    (doc.ownImports (t.above? parent p) n).map (·.placed (doc.extent n)) <:+:
      doc.importsBelow parent t := by
  induction h generalizing parent with
  | here =>
    rw [importsBelow_eq]
    exact (List.prefix_append _ _).isInfix
  | @child t c n i p hchild hproper _ ih =>
    have hmem : c ∈ t.proper := List.mem_filter.mpr ⟨List.mem_of_getElem? hchild, hproper⟩
    obtain ⟨before, after, hsplit⟩ := List.append_of_mem hmem
    have habove : t.above? parent (i :: p) = c.above? (some t) p := by
      rw [Tree.above?, hchild, Option.bind_some]
    rw [importsBelow_eq, habove, hsplit, List.flatMap_append, List.flatMap_cons]
    apply (ih (some t)).trans
    apply List.IsInfix.trans _ (List.suffix_append _ _).isInfix
    exact List.infix_append' _ _ _

/-- The imports of a statement stand together among those of its document. -/
theorem importsAt_infix (h : doc.tree.Leads p n) :
    (doc.importsAt p n).map (·.placed (doc.extent n)) <:+: doc.imports :=
  ownImports_infix none h

end Document

/-! ### Edges of statements -/

variable {files : List FileFacts} {module : Nat} {file : FileFacts}

/-- The module of a file in the collected unit. -/
theorem exists_module_of_file (hfile : (orderedFiles files)[module]? = some file) :
    ∃ importer, (Tables.ofFiles files).modules[module]? = some importer ∧
      importer.Carries file := by
  have hmodules := (collected_ofFiles files).modules
  obtain ⟨hlt, hget⟩ := List.getElem?_eq_some_iff.mp hfile
  have hlt' : module < (Tables.ofFiles files).modules.length := hmodules.length_eq ▸ hlt
  exact ⟨_, List.getElem?_eq_getElem hlt', hget ▸ hmodules.get hlt' hlt⟩

/-- Every import of a file has an edge in the collected unit. -/
theorem exists_edge_of_fact (hfile : (orderedFiles files)[module]? = some file) {fact : ImportFact}
    (hfact : fact ∈ file.imports) :
    ∃ e ∈ (Tables.ofFiles files).imports, ∃ base, e.Copies ⟨module, base, fact⟩ := by
  have hplaced : Placed.mk module (declarationCount ((orderedFiles files).take module)) fact ∈
      placed (·.imports) (orderedFiles files) := by
    apply List.mem_flatMap.mpr
    exact ⟨(file, module), List.mk_mem_zipIdx_iff_getElem?.mpr hfile,
      List.mem_map.mpr ⟨fact, hfact, rfl⟩⟩
  obtain ⟨e, he, hcopies, -⟩ := exists_mem_of_forall₂ (collected_ofFiles files).imports hplaced
  exact ⟨e, he, _, hcopies⟩

end CodeAtlas
