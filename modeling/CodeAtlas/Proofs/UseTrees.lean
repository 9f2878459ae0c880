import CodeAtlas.Proofs.ImportStatements
import CodeAtlas.Proofs.Lists
import CodeAtlas.Proofs.Splitting
import Mathlib.Data.List.TakeWhile

/-!
# Use trees

A use declaration holds a tree of paths: groups put a path in front of everything inside of them,
and the leaves are paths, perhaps under another name, and wildcards. A declaration means an import
for each leaf, in the order of the text, and it is that of the leaf's full path. So a group is
nothing but the row of its items, each with the path of the group in front.

What a declaration imports depends on the use tree alone and not on the nodes that spell it.
-/

namespace CodeAtlas

/-! ### Trees and their leaves -/

/-- A use tree, as it is written. -/
inductive UseTree where
  /-- A path, perhaps under another name. -/
  | path (segments : List String) (localName : Option String)
  /-- Every name below a path. -/
  | wildcard (segments : List String)
  /-- Several use trees below a path. -/
  | group (segments : List String) (items : List UseTree)

/-- A leaf of a use tree, with its full path. -/
structure UseLeaf where
  segments : List String
  isWildcard : Bool
  localName : Option String
deriving DecidableEq

/-- A leaf below a path. -/
def UseLeaf.under (path : List String) (leaf : UseLeaf) : UseLeaf :=
  { leaf with segments := path ++ leaf.segments }

namespace UseTree

mutual

/-- The leaves of a use tree in the order of the text. -/
def leaves : UseTree → List UseLeaf
  | path segments localName => [⟨segments, false, localName⟩]
  | wildcard segments => [⟨segments, true, none⟩]
  | group segments items => (leavesAmong items).map (·.under segments)

/-- The leaves of several use trees. -/
def leavesAmong : List UseTree → List UseLeaf
  | [] => []
  | u :: us => leaves u ++ leavesAmong us

end

/-- A use tree with a path in front of it. -/
def under (front : List String) : UseTree → UseTree
  | path segments localName => path (front ++ segments) localName
  | wildcard segments => wildcard (front ++ segments)
  | group segments items => group (front ++ segments) items

/-- The imports of the leaves of a use tree. -/
def imports (u : UseTree) : List ImportForm :=
  u.leaves.flatMap fun leaf => usePathForm leaf.segments leaf.isWildcard leaf.localName

/-- The leaves among several trees are those of the single trees. -/
theorem leavesAmong_eq (us : List UseTree) : leavesAmong us = us.flatMap leaves := by
  induction us with
  | nil => rfl
  | cons u us ih => rw [leavesAmong, ih, List.flatMap_cons]

/-- The leaves of a group are those of its items below its path. -/
theorem leaves_group (segments : List String) (items : List UseTree) :
    (group segments items).leaves = (items.flatMap leaves).map (·.under segments) := by
  rw [leaves, leavesAmong_eq]

/-- A path in front of a use tree is a path in front of every leaf. -/
theorem leaves_under (front : List String) (u : UseTree) :
    (u.under front).leaves = u.leaves.map (·.under front) := by
  cases u with
  | path => simp [under, leaves, UseLeaf.under]
  | wildcard => simp [under, leaves, UseLeaf.under]
  | group segments items => simp [under, leaves_group, UseLeaf.under, Function.comp_def]

/-- A group imports what its items import with the path of the group in front. -/
theorem imports_group (segments : List String) (items : List UseTree) :
    (group segments items).imports = items.flatMap fun u => (u.under segments).imports := by
  simp only [imports, leaves_group, leaves_under, List.map_flatMap, List.flatMap_assoc]

/-- Every leaf has a path or is a wildcard. -/
def Filled (u : UseTree) : Prop := ∀ leaf ∈ u.leaves, leaf.isWildcard = true ∨ leaf.segments ≠ []

/-- A path in front leaves nothing empty. -/
theorem Filled.under {u : UseTree} (h : u.Filled) (front : List String) :
    (u.under front).Filled := by
  intro leaf hleaf
  rw [leaves_under] at hleaf
  obtain ⟨inner, hinner, rfl⟩ := List.mem_map.mp hleaf
  apply (h inner hinner).imp_right
  intro hsegments
  exact List.append_ne_nil_of_right_ne_nil _ hsegments

/-- A group of filled use trees is filled. -/
theorem filled_group {items : List UseTree} (h : ∀ u ∈ items, u.Filled) :
    (group [] items).Filled := by
  intro leaf hleaf
  rw [leaves_group] at hleaf
  obtain ⟨inner, hinner, rfl⟩ := List.mem_map.mp hleaf
  obtain ⟨u, hu, hinner⟩ := List.mem_flatMap.mp hinner
  exact h u hu inner hinner

end UseTree

/-! ### Imports of leaves -/

/-- The depth of a path: `self` stays at the module, and every `super` at the start goes up once. -/
inductive HasUseDepth : List String → Nat → Prop
  | ofSelf (rest : List String) : HasUseDepth ("self" :: rest) 1
  | ofSuper (n : Nat) {rest : List String} (hrest : rest.head? ≠ some "super") :
      HasUseDepth (List.replicate (n + 1) "super" ++ rest) (n + 2)
  | absolute {segments : List String} (hself : segments.head? ≠ some "self")
      (hsuper : segments.head? ≠ some "super") : HasUseDepth segments 0

/-- The `super`s at the start of a path are counted. -/
theorem usePathDepth_super (n : Nat) {rest : List String} (hrest : rest.head? ≠ some "super") :
    usePathDepth (List.replicate (n + 1) "super" ++ rest) = n + 2 := by
  have hstop : rest.takeWhile (· == "super") = [] := by
    cases rest with
    | nil => rfl
    | cons s rest =>
      apply List.takeWhile_cons_of_neg
      simpa using hrest
  have hrun : (List.replicate (n + 1) "super" ++ rest).takeWhile (· == "super") =
      List.replicate (n + 1) "super" := by
    rw [List.takeWhile_append_of_pos (by simp), hstop, List.append_nil]
  change 1 + ((List.replicate (n + 1) "super" ++ rest).takeWhile (· == "super")).length = n + 2
  rw [hrun, List.length_replicate]
  omega

/-- Every path has the depth that is computed for it. -/
theorem hasUseDepth_usePathDepth (segments : List String) :
    HasUseDepth segments (usePathDepth segments) := by
  unfold usePathDepth
  split
  · exact .ofSelf _
  · rename_i tail
    have hrun : tail.takeWhile (· == "super") =
        List.replicate (tail.takeWhile (· == "super")).length "super" := by
      apply List.eq_replicate_of_mem
      intro s hs
      simpa using List.mem_takeWhile_imp hs
    have hsplit : "super" :: tail = List.replicate ((tail.takeWhile (· == "super")).length + 1)
        "super" ++ tail.dropWhile (· == "super") := by
      rw [List.replicate_succ, List.cons_append, ← hrun, List.takeWhile_append_dropWhile]
    have hrest : (tail.dropWhile (· == "super")).head? ≠ some "super" := by
      intro hhead
      have hfails := List.head?_dropWhile_not (· == "super") tail
      rw [hhead] at hfails
      simp at hfails
    have hcount : 1 + (("super" :: tail).takeWhile (· == "super")).length =
        (tail.takeWhile (· == "super")).length + 2 := by
      rw [List.takeWhile_cons_of_pos rfl, List.length_cons]
      omega
    rw [hcount, hsplit]
    exact .ofSuper _ hrest
  · rename_i hself hsuper
    apply HasUseDepth.absolute
    · intro hhead
      obtain ⟨rest, hsegments⟩ := List.head?_eq_some_iff.mp hhead
      exact hself rest hsegments
    · intro hhead
      obtain ⟨rest, hsegments⟩ := List.head?_eq_some_iff.mp hhead
      exact hsuper rest hsegments

/-- What the import of a leaf is. -/
structure UseLeaf.Yields (leaf : UseLeaf) (form : ImportForm) : Prop where
  /-- It is the import of the leaf's full path. -/
  emitted : usePathForm leaf.segments leaf.isWildcard leaf.localName = [form]
  depth : HasUseDepth leaf.segments form.depth
  /-- A path of several segments imports the last one from the others. -/
  named : leaf.isWildcard = false → ∀ path last, leaf.segments = path ++ [last] → path ≠ [] →
    last ≠ "self" → form.name = .name last ∧
      form.target ++ "::" ++ last = Text.joinWith "::" leaf.segments ∧
      form.boundName = leaf.localName.getD last
  /-- A final `self` imports the module before it under the name of the module. -/
  itself : leaf.isWildcard = false → ∀ path last, leaf.segments = path ++ [last, "self"] →
    form.name = .whole ∧ form.target = Text.joinWith "::" (path ++ [last]) ∧
      form.boundName = leaf.localName.getD last
  alone : leaf.isWildcard = false → ∀ only, leaf.segments = [only] →
    form.name = .whole ∧ form.target = only ∧ form.boundName = leaf.localName.getD only
  all : leaf.isWildcard = true → form.name = .wildcard ∧
    form.target = Text.joinWith "::" leaf.segments ∧ form.boundName = "*"

/-- The import of a path that is no wildcard and has several segments. -/
theorem usePathForm_concat (localName : Option String) (last : String) {path : List String}
    (hpath : path ≠ []) :
    usePathForm (path ++ [last]) false localName =
      if last = "self" then
        [{ target := Text.joinWith "::" path, name := .whole
           localName := localName.or path.getLast?, depth := usePathDepth (path ++ [last]) }]
      else
        [{ target := Text.joinWith "::" path, name := .name last, localName := localName
           depth := usePathDepth (path ++ [last]) }] := by
  obtain ⟨first, rest, rfl⟩ := List.exists_cons_of_ne_nil hpath
  rw [usePathForm, List.getLast?_concat, List.dropLast_concat]
  rfl

/-- A wildcard has exactly one import. -/
theorem UseLeaf.exists_yields_of_wildcard (segments : List String) (localName : Option String) :
    ∃ form, (UseLeaf.mk segments true localName).Yields form := by
  refine ⟨_, rfl, hasUseDepth_usePathDepth segments, nofun, nofun, nofun, fun _ => ⟨rfl, rfl, rfl⟩⟩

/-- A path of one segment has exactly one import. -/
theorem UseLeaf.exists_yields_of_single (only : String) (localName : Option String) :
    ∃ form, (UseLeaf.mk [only] false localName).Yields form := by
  refine ⟨_, rfl, hasUseDepth_usePathDepth [only], fun _ path last hsegments hpath => ?_,
    fun _ path last hsegments => ?_, fun _ other hsegments => ?_, nofun⟩
  · have hnil : path = [] := by simpa using congrArg List.length hsegments
    exact absurd hnil hpath
  · have hlength := congrArg List.length hsegments
    simp at hlength
  · obtain rfl : only = other := by simpa using hsegments
    cases localName <;> exact ⟨rfl, rfl, rfl⟩

/-- A path of several segments has exactly one import. -/
theorem UseLeaf.exists_yields_of_concat (last : String) (localName : Option String)
    {path : List String} (hpath : path ≠ []) :
    ∃ form, (UseLeaf.mk (path ++ [last]) false localName).Yields form := by
  have hdepth := hasUseDepth_usePathDepth (path ++ [last])
  have hsingle : ∀ only, path ++ [last] ≠ [only] := by
    intro only hsegments
    apply hpath
    simpa using congrArg List.length hsegments
  by_cases hself : last = "self"
  · subst hself
    have hemitted := usePathForm_concat localName "self" hpath
    rw [if_pos rfl] at hemitted
    refine ⟨_, hemitted, hdepth, fun _ front other hsegments _ hother => ?_,
      fun _ front other hsegments => ?_, fun _ only h => absurd h (hsingle only), nofun⟩
    · exact absurd (List.append_singleton_inj.mp hsegments).2.symm hother
    · obtain ⟨rfl, -⟩ : path = front ++ [other] ∧ "self" = "self" := by
        apply List.append_singleton_inj.mp
        simpa using hsegments
      refine ⟨rfl, rfl, ?_⟩
      cases localName <;> simp [ImportForm.boundName]
  · have hemitted := usePathForm_concat localName last hpath
    rw [if_neg hself] at hemitted
    refine ⟨_, hemitted, hdepth, fun _ front other hsegments _ _ => ?_,
      fun _ front other hsegments => ?_, fun _ only h => absurd h (hsingle only), nofun⟩
    · obtain ⟨rfl, rfl⟩ := List.append_singleton_inj.mp hsegments
      refine ⟨rfl, (Text.joinWith_concat "::" last hpath).symm, ?_⟩
      cases localName <;> rfl
    · have hends : path ++ [last] = front ++ [other] ++ ["self"] := by simpa using hsegments
      exact absurd (List.append_singleton_inj.mp hends).2 hself

/-- Every leaf with a path or a wildcard has exactly one import. -/
theorem UseLeaf.exists_yields {leaf : UseLeaf}
    (h : leaf.isWildcard = true ∨ leaf.segments ≠ []) : ∃ form, leaf.Yields form := by
  obtain ⟨segments, isWildcard, localName⟩ := leaf
  cases isWildcard with
  | true => exact exists_yields_of_wildcard segments localName
  | false =>
    have hsegments : segments ≠ [] := by simpa using h
    rw [← List.dropLast_append_getLast hsegments]
    by_cases hsingle : segments.dropLast = []
    · rw [hsingle]
      exact exists_yields_of_single _ localName
    · exact exists_yields_of_concat _ localName hsingle

/-! ### Declarations -/

namespace Document

variable {doc : Document} {t : Tree} {u : UseTree} {p : List Nat}

/-- The kinds of nodes that make up a use tree around its paths. -/
def useKinds : List String := ["use_as_clause", "use_wildcard", "scoped_use_list", "use_list"]

/-- A node of the document spells a use tree. A path is cut at its colons. -/
inductive SpellsUse (doc : Document) : Tree → UseTree → Prop
  | path {t : Tree} {segments : List String} (hkind : t.kind ∉ useKinds)
      (hsegments : doc.pathText t = segments) : SpellsUse doc t (.path segments none)
  | renamed {t path : Tree} {segments : List String} {name : String}
      (hkind : t.kind = "use_as_clause") (hpath : t.field? "path" = some path)
      (hleaf : path.kind ∉ useKinds) (hsegments : doc.pathText path = segments)
      (hname : doc.fieldText? t "alias" = some name) :
      SpellsUse doc t (.path segments (some name))
  | wildcard {t : Tree} {segments : List String} (hkind : t.kind = "use_wildcard")
      (hsegments : t.firstProper?.elim [] doc.pathText = segments) :
      SpellsUse doc t (.wildcard segments)
  | list {t : Tree} {items : List UseTree} (hkind : t.kind = "use_list")
      (hitems : List.Forall₂ (SpellsUse doc) t.proper items) : SpellsUse doc t (.group [] items)
  | grouped {t list : Tree} {segments : List String} {items : List UseTree}
      (hkind : t.kind = "scoped_use_list")
      (hsegments : (t.field? "path").elim [] doc.pathText = segments)
      (hlist : t.field? "list" = some list) (hitems : SpellsUse doc list (.group [] items)) :
      SpellsUse doc t (.group segments items)

/-- The imports of the first child in a field. -/
theorem useFormsIn_eq (path : List String) (localName : Option String) (field : String)
    (ts : List Tree) :
    doc.useFormsIn path localName field ts =
      (ts.find? (·.inField field)).elim [] (doc.useForms path localName) := by
  induction ts with
  | nil => rfl
  | cons t ts ih =>
    rw [useFormsIn, ih, List.find?_cons]
    cases t.inField field <;> rfl

/-- The imports of the items of a list. -/
theorem useFormsAmong_eq (path : List String) (ts : List Tree) :
    doc.useFormsAmong path ts = (ts.filter Tree.isProper).flatMap (doc.useForms path none) := by
  induction ts with
  | nil => rfl
  | cons t ts ih =>
    rw [useFormsAmong, ih, List.filter_cons]
    cases t.isProper <;> simp

/-- The imports of a path. -/
theorem useForms_of_path (path : List String) (localName : Option String)
    (hkind : t.kind ∉ useKinds) :
    doc.useForms path localName t = usePathForm (path ++ doc.pathText t) false localName := by
  obtain ⟨label, children⟩ := t
  simp only [Tree.kind, Tree.label, useKinds, List.mem_cons, List.not_mem_nil, or_false,
    not_or] at hkind
  obtain ⟨hrenamed, hwildcard, hscoped, hlist⟩ := hkind
  simp only [useForms]

/-- The imports of a wildcard. -/
theorem useForms_of_wildcard (path : List String) (hkind : t.kind = "use_wildcard") :
    doc.useForms path none t =
      usePathForm (path ++ t.firstProper?.elim [] doc.pathText) true none := by
  obtain ⟨label, children⟩ := t
  have hlabel : label.kind = "use_wildcard" := hkind
  simp only [useForms, hlabel]

/-- The imports of a path under another name. -/
theorem useForms_of_renamed (path : List String) (hkind : t.kind = "use_as_clause") :
    doc.useForms path none t =
      (t.field? "path").elim [] (doc.useForms path (doc.fieldText? t "alias")) := by
  obtain ⟨label, children⟩ := t
  have hlabel : label.kind = "use_as_clause" := hkind
  simp only [useForms, hlabel, useFormsIn_eq]
  rfl

/-- The imports of a group below a path. -/
theorem useForms_of_scoped (path : List String) (hkind : t.kind = "scoped_use_list") :
    doc.useForms path none t = (t.field? "list").elim []
      (doc.useForms (path ++ (t.field? "path").elim [] doc.pathText) none) := by
  obtain ⟨label, children⟩ := t
  have hlabel : label.kind = "scoped_use_list" := hkind
  simp only [useForms, hlabel, useFormsIn_eq]
  rfl

/-- The imports of a group. -/
theorem useForms_of_list (path : List String) (hkind : t.kind = "use_list") :
    doc.useForms path none t = t.proper.flatMap (doc.useForms path none) := by
  obtain ⟨label, children⟩ := t
  have hlabel : label.kind = "use_list" := hkind
  simp only [useForms, hlabel, useFormsAmong_eq]
  rfl

/-- A path has at least one segment. -/
theorem pathText_ne_nil (doc : Document) (t : Tree) : doc.pathText t ≠ [] := by
  have hpieces (skip : Nat) (piece s : List Char) :
      Text.Chars.splitAtGo "::".toList skip piece s ≠ [] := by
    fun_induction Text.Chars.splitAtGo "::".toList skip piece s <;> simp_all
  simp only [pathText, Text.splitAt, Text.Chars.splitAt, ne_eq, List.map_eq_nil_iff]
  exact hpieces 0 [] _

/-- A node of a use tree has the imports of the use tree that it spells, whatever path is in front
of it. -/
theorem SpellsUse.useForms_eq (h : doc.SpellsUse t u) (path : List String) :
    doc.useForms path none t = (u.under path).imports := by
  induction t using Tree.induction_on_children generalizing u path with
  | hstep t ih =>
    cases h with
    | path hkind hsegments =>
      rw [useForms_of_path path none hkind, hsegments]
      simp [UseTree.imports, UseTree.under, UseTree.leaves]
    | renamed hkind hpath hleaf hsegments hname =>
      rw [useForms_of_renamed path hkind, hpath, hname, Option.elim_some,
        useForms_of_path path _ hleaf, hsegments]
      simp [UseTree.imports, UseTree.under, UseTree.leaves]
    | wildcard hkind hsegments =>
      rw [useForms_of_wildcard path hkind, hsegments]
      simp [UseTree.imports, UseTree.under, UseTree.leaves]
    | list hkind hitems =>
      rw [useForms_of_list path hkind, UseTree.under, List.append_nil, UseTree.imports_group]
      apply flatMap_eq_of_forall₂ hitems
      intro item hitem spelled hspells
      exact ih item (List.mem_of_mem_filter hitem) hspells path
    | @grouped _ list segments items hkind hsegments hlist hitems =>
      have hbelow := ih list (List.mem_of_find?_eq_some hlist) hitems (path ++ segments)
      rw [useForms_of_scoped path hkind, hlist, hsegments, Option.elim_some, hbelow, UseTree.under,
        UseTree.under, List.append_nil]

/-- The leaves of a use tree that is spelled have paths or are wildcards. -/
theorem SpellsUse.filled (h : doc.SpellsUse t u) : u.Filled := by
  induction t using Tree.induction_on_children generalizing u with
  | hstep t ih =>
    cases h with
    | path hkind hsegments =>
      simp [UseTree.Filled, UseTree.leaves, ← hsegments, pathText_ne_nil]
    | renamed hkind hpath hleaf hsegments hname =>
      simp [UseTree.Filled, UseTree.leaves, ← hsegments, pathText_ne_nil]
    | wildcard hkind hsegments => simp [UseTree.Filled, UseTree.leaves]
    | list hkind hitems =>
      apply UseTree.filled_group
      intro item hitem
      obtain ⟨c, hc, hspells⟩ := exists_mem_of_forall₂ hitems hitem
      exact ih c (List.mem_of_mem_filter hc) hspells
    | @grouped _ list segments items hkind hsegments hlist hitems =>
      have hbelow := ih list (List.mem_of_find?_eq_some hlist) hitems
      simpa [UseTree.under] using hbelow.under segments

/-- A use declaration and the use tree that it declares. -/
structure DeclaresUse (doc : Document) (t : Tree) (u : UseTree) : Prop where
  language : doc.language = .rust
  kind : t.kind = "use_declaration"
  argument : ∃ argument, t.field? "argument" = some argument ∧ doc.SpellsUse argument u

/-- A declaration imports what its use tree does. -/
theorem DeclaresUse.ownImports_eq (h : doc.DeclaresUse t u) (parent : Option Tree) :
    doc.ownImports parent t = u.imports := by
  obtain ⟨argument, hargument, hspells⟩ := h.argument
  have hrole : doc.role t = .importLike := by
    rw [role, Document.grammar, h.language, h.kind]
    rfl
  have hunder : u.under [] = u := by cases u <;> rfl
  have hother : (t.kind == "extern_crate_declaration") = false := by
    rw [h.kind]
    rfl
  rw [ownImports, if_pos hrole, h.language]
  simp only [rustImports, hother, hargument, Option.elim_some, hspells.useForms_eq, hunder]
  rfl

/-- A declaration has one import for each leaf. -/
theorem DeclaresUse.forall₂_yields (h : doc.DeclaresUse t u) (parent : Option Tree) :
    List.Forall₂ UseLeaf.Yields u.leaves (doc.ownImports parent t) := by
  obtain ⟨argument, -, hspells⟩ := h.argument
  have hall : ∀ leaf ∈ u.leaves, ∃ form, leaf.Yields form := fun leaf hleaf =>
    UseLeaf.exists_yields (hspells.filled leaf hleaf)
  rw [h.ownImports_eq, UseTree.imports]
  generalize u.leaves = leaves at hall
  induction leaves with
  | nil => exact .nil
  | cons leaf leaves ih =>
    obtain ⟨hfirst, hrest⟩ := List.forall_mem_cons.mp hall
    obtain ⟨form, hform⟩ := hfirst
    rw [List.flatMap_cons, hform.emitted]
    exact .cons hform (ih hrest)

/-- How a use declaration at an address is read. -/
structure FlatImports (doc : Document) (p : List Nat) (t : Tree) (u : UseTree) : Prop where
  /-- There is one import for each leaf, in the same order. -/
  leafwise : List.Forall₂ UseLeaf.Yields u.leaves (doc.importsAt p t)
  /-- A group imports what its items would import in declarations of their own, each with the path
  of the group in front. -/
  itemwise : ∀ path items, u = .group path items → ∀ alone : List (Document × Tree),
    List.Forall₂ (fun item d => d.1.DeclaresUse d.2 (item.under path)) items alone →
      doc.importsAt p t = alone.flatMap fun d => d.1.ownImports none d.2
  /-- The imports stand together among those of the document. -/
  listed : (doc.importsAt p t).map (·.placed (doc.extent t)) <:+: doc.imports

end Document

/-- Every use declaration, however its groups are nested, imports the full paths of its leaves one
after the other. -/
theorem use_groups_are_rows_of_paths {doc : Document} {p : List Nat} {t : Tree} {u : UseTree}
    (hnode : doc.tree.Leads p t) (hdeclares : doc.DeclaresUse t u) : doc.FlatImports p t u := by
  refine ⟨hdeclares.forall₂_yields _, ?_, Document.importsAt_infix hnode⟩
  intro path items hgroup alone halone
  rw [Document.importsAt, hdeclares.ownImports_eq, hgroup, UseTree.imports_group]
  apply flatMap_eq_of_forall₂ halone
  intro item _ d hd
  exact (hd.ownImports_eq none).symm

/-- The document of `use a::{self,b::{c as d,*}};`. -/
def nestedGroups : Document :=
  { language := .rust
    text := "use a::{self,b::{c as d,*}};"
    tree := .named "source_file" none 0 28
      [.named "use_declaration" none 0 28
        [.named "scoped_use_list" (some "argument") 4 27
          [.named "identifier" (some "path") 4 5 [],
            .named "use_list" (some "list") 7 27
              [.named "self" none 8 12 [],
                .named "scoped_use_list" none 13 26
                  [.named "identifier" (some "path") 13 14 [],
                    .named "use_list" (some "list") 16 26
                      [.named "use_as_clause" none 17 23
                        [.named "identifier" (some "path") 17 18 [],
                          .named "identifier" (some "alias") 22 23 []],
                        .named "use_wildcard" none 24 25 []]]]]]] }

/-- The use tree of the document. -/
def nestedUse : UseTree :=
  .group ["a"] [.path ["self"] none, .group ["b"] [.path ["c"] (some "d"), .wildcard []]]

/-- Three leaves in two groups: the outer module, a name of the inner one under another name, and
all of its names. -/
theorem use_groups_are_rows_of_paths_nested :
    ∃ t, nestedGroups.tree.Leads [0] t ∧ nestedGroups.DeclaresUse t nestedUse ∧
      nestedGroups.FlatImports [0] t nestedUse ∧
      nestedUse.leaves.map (·.segments) = [["a", "self"], ["a", "b", "c"], ["a", "b"]] ∧
      nestedGroups.imports.map (fun i => (i.target, i.name, i.localName, i.depth)) =
        [("a", .whole, "a", 0), ("a::b", .name "c", "d", 0), ("a::b", .wildcard, "*", 0)] := by
  have hspells : ∃ t, nestedGroups.tree.Leads [0] t ∧ nestedGroups.DeclaresUse t nestedUse := by
    refine ⟨_, .child rfl rfl .here, rfl, rfl, _, rfl, .grouped rfl (by decide) rfl (.list rfl ?_)⟩
    refine .cons (.path (by decide) (by decide)) (.cons (.grouped rfl (by decide) rfl ?_) .nil)
    refine .list rfl (.cons (.renamed rfl rfl (by decide) (by decide) (by decide)) ?_)
    exact .cons (.wildcard rfl rfl) .nil
  obtain ⟨t, hnode, hdeclares⟩ := hspells
  exact ⟨t, hnode, hdeclares, use_groups_are_rows_of_paths hnode hdeclares, by decide,
    by decide +kernel⟩

end CodeAtlas
