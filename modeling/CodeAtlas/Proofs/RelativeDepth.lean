import CodeAtlas.Proofs.OwnNames
import CodeAtlas.Proofs.RelativeImports
import CodeAtlas.Proofs.UseTrees

/-!
# Exact relative depths

How far up a relative import goes is written in front of its target: as dots in Python, as `self` or
a row of `super` in Rust. The depth counts exactly these, and the target is read without them. So
what is looked for is the module that is reached from the package of the file by going up as often
as it is written and then down along the names, and nothing where there is not enough to go up.
-/

namespace CodeAtlas

/-! ### Splitting around blanks -/

variable {c : Char}

/-- A separator parts the names before it from those behind it. -/
theorem cleanSegments_splitChar_append (c : Char) (s rest : String) :
    cleanSegments (Text.splitChar c (s ++ String.singleton c ++ rest)) =
      cleanSegments (Text.splitChar c s) ++ cleanSegments (Text.splitChar c rest) := by
  rw [Text.splitChar_append rfl, cleanSegments, List.map_append, List.filter_append]
  rfl

/-- Separators in front of all names do not count. -/
theorem cleanSegments_splitChar_trimStartChar (c : Char) (s : String) :
    cleanSegments (Text.splitChar c (Text.trimStartChar c s)) =
      cleanSegments (Text.splitChar c s) := by
  simp only [cleanSegments, Text.splitChar, Text.splitBy, Text.trimStartChar, String.toList_ofList,
    Text.Chars.trimStart]
  induction s.toList with
  | nil => rfl
  | cons d chars ih =>
    by_cases hd : (d == c) = true
    · rw [List.dropWhile_cons_of_pos (p := (· == c)) hd, ih, Text.Chars.splitBy, if_pos hd]
      rfl
    · rw [List.dropWhile_cons_of_neg (p := (· == c)) hd]

/-- A text of separators and blanks holds no names. -/
theorem cleanSegments_splitChar_of_blank {s : String}
    (h : ∀ d ∈ s.toList, d = c ∨ Text.isBlank d = true) :
    cleanSegments (Text.splitChar c s) = [] := by
  rw [cleanSegments, List.filter_eq_nil_iff]
  intro name hname
  obtain ⟨piece, hpiece, rfl⟩ := List.mem_map.mp hname
  obtain ⟨chars, hchars, rfl⟩ := List.mem_map.mp hpiece
  have hblank : ∀ d ∈ chars, Text.isBlank d = true := by
    intro d hd
    obtain ⟨hmem, hother⟩ := Text.Chars.mem_of_mem_splitBy hchars hd
    apply (h d hmem).resolve_left
    simpa using hother
  simp [Text.trim, Text.Chars.trim_eq_nil hblank]

/-! ### Identifiers -/

/-- A name without blanks and without the characters that part names. -/
structure IsIdentifier (s : String) : Prop where
  filled : s ≠ ""
  solid : ∀ d ∈ s.toList, Text.isBlank d = false ∧ d ≠ '.' ∧ d ≠ ':'

/-- A condition on all characters of a text is checked along the text. -/
instance (s : String) : Decidable (IsIdentifier s) :=
  decidable_of_iff
    (s ≠ "" ∧ (s.toList.all fun d => !Text.isBlank d && d != '.' && d != ':') = true)
    ⟨fun h => ⟨h.1, by simpa [and_assoc] using h.2⟩,
      fun h => ⟨h.filled, by simpa [and_assoc] using h.solid⟩⟩

namespace IsIdentifier

variable {s : String}

/-- An identifier has no blanks around it. -/
theorem trim_eq (h : IsIdentifier s) : Text.trim s = s := by
  have hkeep {l : List Char} (hl : ∀ d ∈ l, Text.isBlank d = false) :
      l.dropWhile Text.isBlank = l := by
    cases l with
    | nil => rfl
    | cons d l =>
      apply List.dropWhile_cons_of_neg
      simp [hl d List.mem_cons_self]
  have hsolid : ∀ d ∈ s.toList, Text.isBlank d = false := fun d hd => (h.solid d hd).1
  rw [Text.trim, Text.Chars.trim, Text.Chars.trimStart, Text.Chars.trimEnd, hkeep hsolid,
    hkeep (by simpa using hsolid), List.reverse_reverse, String.ofList_toList]

/-- Two colons are not part of an identifier. -/
theorem contains_colons (h : IsIdentifier s) : Text.contains "::" s = false := by
  apply Text.contains_eq_false_iff.mpr
  intro before after hs
  have hcolon : ':' ∈ s.toList := by simp [hs]
  exact (h.solid _ hcolon).2.2 rfl

/-- An identifier does not end in a colon. -/
theorem endsWith_colon (h : IsIdentifier s) : Text.endsWith ":" s = false := by
  cases hends : Text.endsWith ":" s with
  | false => rfl
  | true =>
    obtain ⟨front, hfront⟩ := Option.isSome_iff_exists.mp hends
    have hcolon : ':' ∈ s.toList := by
      rw [Text.Chars.dropEnd?_eq_some_iff.mp hfront]
      simp
    exact absurd rfl (h.solid _ hcolon).2.2

/-- No dot stands in an identifier with blanks around it. -/
theorem contains_dot_of_trim {piece : String} (h : IsIdentifier (Text.trim piece)) :
    Text.contains "." piece = false := by
  apply Text.contains_eq_false_iff.mpr
  intro before after hpiece
  have hdot : '.' ∈ piece.toList := by simp [hpiece]
  have hinside : '.' ∈ (Text.trim piece).toList := by
    rw [Text.trim, String.toList_ofList]
    exact (Text.Chars.mem_trim_of_mem hdot).resolve_left (by decide)
  exact (h.solid _ hinside).2.1 rfl

end IsIdentifier

/-! ### Dots -/

/-- The names behind the dots of a relative module. -/
theorem targetSegments_of_dots {front : String} {pieces names : List String}
    (hfront : ∀ d ∈ front.toList, d = '.' ∨ Text.isBlank d = true)
    (hpieces : pieces.map Text.trim = names) (hnames : ∀ name ∈ names, IsIdentifier name) :
    targetSegments (front ++ "." ++ Text.joinWith "." pieces) .python = names := by
  have hbehind : cleanSegments (Text.splitChar '.' (Text.joinWith "." pieces)) = names := by
    subst hpieces
    by_cases hempty : pieces = []
    · rw [hempty]
      rfl
    · have hsplit : Text.splitChar '.' (Text.joinWith "." pieces) = pieces := by
        apply Text.splitChar_joinWith rfl hempty
        intro piece hpiece
        exact (hnames _ (List.mem_map_of_mem hpiece)).contains_dot_of_trim
      rw [hsplit, cleanSegments, List.filter_eq_self]
      intro name hname
      simpa using (hnames name hname).filled
  have happend := cleanSegments_splitChar_append '.' front (Text.joinWith "." pieces)
  rw [cleanSegments_splitChar_of_blank hfront, List.nil_append, hbehind] at happend
  rw [targetSegments, cleanSegments_splitChar_trimStartChar]
  exact happend

/-! ### Keywords -/

/-- The keywords with which a path of modules can start. -/
def pathKeywords : List String := ["self", "super", "crate"]

/-- An identifier that can stand anywhere in a path of modules. -/
structure IsPathName (s : String) : Prop extends IsIdentifier s where
  free : s ∉ pathKeywords

/-- How a relative path starts: with `self`, or with one `super` for every step. -/
def upwards : (steps : Nat) → List String
  | 0 => ["self"]
  | steps + 1 => List.replicate (steps + 1) "super"

/-- A relative path starts with keywords. -/
theorem mem_pathKeywords_of_mem_upwards {steps : Nat} {s : String} (hs : s ∈ upwards steps) :
    s ∈ pathKeywords := by
  cases steps with
  | zero =>
    rw [List.mem_singleton.mp hs]
    decide
  | succ steps =>
    rw [List.eq_of_mem_replicate hs]
    decide

/-- Even no step up is written with a keyword. -/
theorem upwards_ne_nil (steps : Nat) : upwards steps ≠ [] := by cases steps <;> simp [upwards]

/-- The keywords are written like names. -/
theorem isIdentifier_of_mem_pathKeywords {s : String} (hs : s ∈ pathKeywords) :
    IsIdentifier s := by
  have hall : ∀ s ∈ pathKeywords, IsIdentifier s := by decide
  exact hall s hs

/-- Joined identifiers are taken apart again. -/
theorem splitAt_joinWith_identifiers {segments : List String} (hsegments : segments ≠ [])
    (h : ∀ s ∈ segments, IsIdentifier s) :
    Text.splitAt "::" (Text.joinWith "::" segments) = segments := by
  apply Text.splitAt_joinWith hsegments (by decide)
  · intro s hs
    exact (h s hs).contains_colons
  · intro s hs before after hcut
    have hidentifier := h s (List.dropLast_subset _ hs)
    exact Text.eq_empty_of_append_colons hidentifier.contains_colons hidentifier.endsWith_colon hcut

section Path

variable {names : List String} (hnames : ∀ name ∈ names, IsPathName name)
include hnames

/-- The names behind the keywords of a relative path. -/
theorem targetSegments_of_keywords (steps : Nat) :
    targetSegments (Text.joinWith "::" (upwards steps ++ names)) .rust = names := by
  have hidentifiers : ∀ s ∈ upwards steps ++ names, IsIdentifier s := by
    intro s hs
    rcases List.mem_append.mp hs with hs | hs
    · exact isIdentifier_of_mem_pathKeywords (mem_pathKeywords_of_mem_upwards hs)
    · exact (hnames s hs).toIsIdentifier
  have hkeywords : ∀ s ∈ upwards steps,
      (s = "self" || s = "super" || s = "crate" : Bool) = true := by
    intro s hs
    simpa [pathKeywords, or_assoc] using mem_pathKeywords_of_mem_upwards hs
  have hstop : (names.dropWhile fun s => s = "self" || s = "super" || s = "crate") = names := by
    cases names with
    | nil => rfl
    | cons name names =>
      apply List.dropWhile_cons_of_neg
      simpa [pathKeywords, not_or, and_assoc] using (hnames name List.mem_cons_self).free
  rw [targetSegments, splitAt_joinWith_identifiers _ hidentifiers,
    List.dropWhile_append_of_pos hkeywords, hstop]
  · apply cleanSegments_eq_self
    · intro s hs
      exact (hnames s hs).filled
    · intro s hs
      exact (hnames s hs).trim_eq
  · exact List.append_ne_nil_of_left_ne_nil (upwards_ne_nil steps) _

/-- Every step counts for the depth of a relative path. -/
theorem usePathDepth_upwards (steps : Nat) :
    usePathDepth (upwards steps ++ names) = steps + 1 := by
  cases steps with
  | zero => rfl
  | succ steps =>
    apply usePathDepth_super
    intro hhead
    apply (hnames "super" (List.mem_of_head? hhead)).free
    decide

end Path

/-- A leaf of a use tree whose path goes up some steps and then down along some names, and what it
imports from there. -/
inductive UseLeaf.GoesUp (steps : Nat) (names : List String) : UseLeaf → ImportedName → Prop
  | named {last : String} (hlast : IsPathName last) (localName : Option String) :
      GoesUp steps names ⟨upwards steps ++ names ++ [last], false, localName⟩ (.name last)
  | all (localName : Option String) :
      GoesUp steps names ⟨upwards steps ++ names, true, localName⟩ .wildcard

/-- The import of a leaf that goes up. -/
theorem UseLeaf.GoesUp.form_eq {steps : Nat} {names : List String}
    (hnames : ∀ name ∈ names, IsPathName name) {leaf : UseLeaf} {taken : ImportedName}
    (h : leaf.GoesUp steps names taken) {form : ImportForm} (hform : leaf.Yields form) :
    form.name = taken ∧ form.depth = steps + 1 ∧
      form.target = Text.joinWith "::" (upwards steps ++ names) := by
  have hemitted := hform.emitted
  cases h with
  | @named last hlast localName =>
    have hother : last ≠ "self" := by
      intro hself
      apply hlast.free
      rw [hself]
      decide
    have hall : ∀ name ∈ names ++ [last], IsPathName name := by
      intro name hname
      rcases List.mem_append.mp hname with hname | hname
      · exact hnames name hname
      · exact List.mem_singleton.mp hname ▸ hlast
    rw [usePathForm_concat localName last
      (List.append_ne_nil_of_left_ne_nil (upwards_ne_nil steps) _), if_neg hother,
      List.append_assoc, usePathDepth_upwards hall] at hemitted
    obtain rfl := List.singleton_inj.mp hemitted
    exact ⟨rfl, rfl, rfl⟩
  | all localName =>
    rw [usePathForm, if_pos rfl, usePathDepth_upwards hnames] at hemitted
    obtain rfl := List.singleton_inj.mp hemitted
    exact ⟨rfl, rfl, rfl⟩

/-! ### Statements -/

namespace Document

variable {doc : Document} {p : List Nat} {t : Tree}

/-- A node spells the module of a relative import: dots, perhaps with blanks between them, and then
names with dots between them. -/
structure SpellsRelative (doc : Document) (t : Tree) (dots : Nat) (names : List String) : Prop where
  kind : t.kind = "relative_import"
  identifiers : ∀ name ∈ names, IsIdentifier name
  written : ∃ marks front pieces, t.proper.find? (·.kind == "import_prefix") = some marks ∧
    doc.textOf marks = front ++ "." ∧ (doc.textOf marks).toList.count '.' = dots ∧
    (∀ d ∈ front.toList, d = '.' ∨ Text.isBlank d = true) ∧
    doc.textOf t = doc.textOf marks ++ Text.joinWith "." pieces ∧ pieces.map Text.trim = names

/-- A `from` import whose module is some dots and then some names. -/
structure ImportsFrom (doc : Document) (t : Tree) (dots : Nat) (names : List String) : Prop where
  language : doc.language = .python
  kind : t.kind = "import_from_statement"
  module : ∃ module, t.field? "module_name" = some module ∧ doc.SpellsRelative module dots names

/-- What a `from` import takes: every name, or those that it lists. -/
def fromNames (doc : Document) (t : Tree) : List ImportedName :=
  if t.proper.any (·.kind == "wildcard_import") then [.wildcard]
  else ((t.inFields "name").filterMap doc.pythonName).map fun (name, _) => .name name

/-- An import of a node goes up some steps from the package of its file and then down along some
names. -/
structure ReadsRelative (doc : Document) (t : Tree) (steps : Nat) (names : List String)
    (form : ImportForm) : Prop where
  depth : form.depth = steps + 1
  segments : targetSegments form.target doc.language = names
  /-- In every unit with the document, at every path, there is an edge that looks for the module
  there. -/
  linked : ∀ files module path, (orderedFiles files)[module]? = some (doc.facts path) →
    ∃ importer e base, (Tables.ofFiles files).modules[module]? = some importer ∧
      importer.path = path ∧ importer.language = doc.language ∧
      e ∈ (Tables.ofFiles files).linkImports.imports ∧
      e.Copies ⟨module, base, form.placed (doc.extent t)⟩ ∧
      (Tables.ofFiles files).GoesUp importer steps names e

/-- The depth and the segments of an import outside of the C family say where its edges lead. -/
theorem readsRelative_of_depth (hnode : doc.tree.Leads p t) {form : ImportForm}
    (hform : form ∈ doc.importsAt p t) (hfamily : doc.language.isCFamily = false) {steps : Nat}
    (hdepth : form.depth = steps + 1) {names : List String}
    (hsegments : targetSegments form.target doc.language = names) :
    doc.ReadsRelative t steps names form := by
  refine ⟨hdepth, hsegments, ?_⟩
  intro files module path hfile
  rw [← hsegments]
  exact exists_edge_goesUp hfile hnode hform hfamily hdepth

/-- The module of a relative import and its depth. -/
theorem ImportsFrom.pythonModule_eq {dots : Nat} {names : List String}
    (h : doc.ImportsFrom t dots names) :
    ∃ target, doc.pythonModule t = (target, dots) ∧ targetSegments target .python = names := by
  obtain ⟨module, hmodule, hspells⟩ := h.module
  obtain ⟨marks, front, pieces, hmarks, hends, hcount, hfront, htext, hpieces⟩ := hspells.written
  refine ⟨doc.textOf module, ?_, ?_⟩
  · have hrelative : (module.kind == "relative_import") = true := beq_iff_eq.mpr hspells.kind
    rw [pythonModule, hmodule]
    simp only [hrelative, if_true, hmarks, Option.elim_some, Prod.mk.injEq, true_and]
    exact hcount
  · rw [htext, hends]
    exact targetSegments_of_dots hfront hpieces hspells.identifiers

/-- What a relative `from` import is read as. -/
theorem ImportsFrom.importsAt_eq {dots : Nat} {names : List String}
    (h : doc.ImportsFrom t dots names) :
    (doc.importsAt p t).map (·.name) = doc.fromNames t ∧
      ∀ form ∈ doc.importsAt p t,
        form.depth = dots ∧ targetSegments form.target .python = names := by
  obtain ⟨target, hmodule, hsegments⟩ := h.pythonModule_eq
  have hrole : doc.role t = .importLike := by
    rw [role, Document.grammar, h.language, h.kind]
    rfl
  have hother : (t.kind == "import_statement") = false := by
    rw [h.kind]
    rfl
  rw [importsAt, ownImports, if_pos hrole, h.language]
  simp only [pythonImports, fromNames, hother, hmodule, Bool.false_eq_true, if_false]
  by_cases hall : t.proper.any (·.kind == "wildcard_import") = true
  · simp [hall, hsegments]
  · simp only [hall, Bool.false_eq_true, if_false, List.map_map, List.forall_mem_map, hsegments,
      and_self, implies_true, and_true]
    rfl

/-- The leaves of a declaration beside the imports of its node. -/
theorem DeclaresUse.forall₂_yields_mem {u : UseTree} (h : doc.DeclaresUse t u) (p : List Nat) :
    List.Forall₂ (fun (leaf : UseLeaf) (form : ImportForm) =>
      form ∈ doc.importsAt p t ∧ leaf.Yields form) u.leaves (doc.importsAt p t) := by
  have hyields : List.Forall₂ UseLeaf.Yields u.leaves (doc.importsAt p t) := h.forall₂_yields _
  exact ((List.forall₂_and_left _ _).mpr ⟨fun _ hform => hform, hyields.flip⟩).flip

/-- The import of a leaf that goes up is read so. -/
theorem DeclaresUse.readsRelative {u : UseTree} (h : doc.DeclaresUse t u)
    (hnode : doc.tree.Leads p t) {leaf : UseLeaf} {form : ImportForm}
    (hform : form ∈ doc.importsAt p t) (hyields : leaf.Yields form) {steps : Nat}
    {names : List String} {taken : ImportedName} (hnames : ∀ name ∈ names, IsPathName name)
    (hgoes : leaf.GoesUp steps names taken) :
    form.name = taken ∧ doc.ReadsRelative t steps names form := by
  obtain ⟨hname, hdepth, htarget⟩ := hgoes.form_eq hnames hyields
  have hsegments : targetSegments form.target doc.language = names := by
    rw [htarget, h.language]
    exact targetSegments_of_keywords hnames steps
  refine ⟨hname, readsRelative_of_depth hnode hform ?_ hdepth hsegments⟩
  rw [h.language]
  rfl

/-- How the relative imports of a node at an address are read. -/
structure ExactDepth (doc : Document) (p : List Nat) (t : Tree) : Prop where
  /-- One dot stays in the package, and every further dot goes up once. -/
  dotted : ∀ dots names, doc.ImportsFrom t (dots + 1) names →
    (doc.importsAt p t).map (·.name) = doc.fromNames t ∧
      ∀ form ∈ doc.importsAt p t, doc.ReadsRelative t dots names form
  /-- `self` stays in the package, and every `super` goes up once. -/
  spelled : ∀ u, doc.DeclaresUse t u →
    List.Forall₂ (fun (leaf : UseLeaf) (form : ImportForm) => ∀ steps names taken,
      (∀ name ∈ names, IsPathName name) → leaf.GoesUp steps names taken →
        form.name = taken ∧ doc.ReadsRelative t steps names form)
      u.leaves (doc.importsAt p t)

end Document

/-- Every relative import of a Python or Rust document goes up as often as it is written and then
down along its names. -/
theorem relative_depth_is_exact {doc : Document} {p : List Nat} {t : Tree}
    (hnode : doc.tree.Leads p t) : doc.ExactDepth p t := by
  constructor
  · intro dots names hfrom
    obtain ⟨hnames, hforms⟩ := hfrom.importsAt_eq (p := p)
    refine ⟨hnames, ?_⟩
    intro form hform
    obtain ⟨hdepth, hsegments⟩ := hforms form hform
    rw [← hfrom.language] at hsegments
    apply Document.readsRelative_of_depth hnode hform _ hdepth hsegments
    rw [hfrom.language]
    rfl
  · intro u hdeclares
    apply (hdeclares.forall₂_yields_mem p).imp
    intro leaf form hleaf steps names taken hnames hgoes
    exact hdeclares.readsRelative hnode hleaf.1 hleaf.2 hnames hgoes

/-- The document of `from .. a import b`. -/
def dottedImport : Document :=
  { language := .python
    text := "from .. a import b"
    tree := .named "module" none 0 18
      [.named "import_from_statement" none 0 18
        [.named "relative_import" (some "module_name") 5 9
          [.named "import_prefix" none 5 7 [], .named "dotted_name" none 8 9 []],
          .named "dotted_name" (some "name") 17 18 []]] }

/-- The document of `use super::super::a::b;`. -/
def superImport : Document :=
  { language := .rust
    text := "use super::super::a::b;"
    tree := .named "source_file" none 0 23
      [.named "use_declaration" none 0 23 [.named "scoped_identifier" (some "argument") 4 22 []]] }

/-- Two dots lead from a package to a module beside it. Two steps up from a module in the topmost
directory leave the unit. -/
theorem relative_depth_is_exact_two_steps :
    (∃ t, dottedImport.tree.Leads [0] t ∧ dottedImport.ImportsFrom t 2 ["a"] ∧
      dottedImport.ExactDepth [0] t ∧ (Tables.ofFiles
        [{ path := ⟨"p/a.py"⟩, language := .python },
          dottedImport.facts ⟨"p/q/__init__.py"⟩]).linkImports.imports.map (·.status) =
        [.resolved 0]) ∧
      ∃ t, superImport.tree.Leads [0] t ∧
        superImport.DeclaresUse t (.path ["super", "super", "a", "b"] none) ∧
        UseLeaf.GoesUp 2 ["a"] ⟨["super", "super", "a", "b"], false, none⟩ (.name "b") ∧
        superImport.ExactDepth [0] t ∧ (Tables.ofFiles
          [superImport.facts ⟨"m.rs"⟩]).linkImports.imports.map (·.status) = [.external] := by
  have hidentifier : IsIdentifier "a" := by decide
  constructor
  · have hstatement : ∃ t, dottedImport.tree.Leads [0] t ∧ dottedImport.ImportsFrom t 2 ["a"] := by
      refine ⟨_, .child rfl rfl .here, rfl, rfl, _, rfl, rfl, by simpa using hidentifier, ?_⟩
      exact ⟨_, ".", [" a"], rfl, by decide +kernel, by decide +kernel, by simp, by decide +kernel,
        by decide⟩
    obtain ⟨t, hnode, hfrom⟩ := hstatement
    refine ⟨t, hnode, hfrom, relative_depth_is_exact hnode, ?_⟩
    rw [Tables.ofFiles_of_ordered (by decide +kernel) (by decide +kernel)]
    decide +kernel
  · have hstatement : ∃ t, superImport.tree.Leads [0] t ∧
        superImport.DeclaresUse t (.path ["super", "super", "a", "b"] none) :=
      ⟨_, .child rfl rfl .here, rfl, rfl, _, rfl, .path (by decide) (by decide)⟩
    obtain ⟨t, hnode, hdeclares⟩ := hstatement
    have hlast : IsPathName "b" := ⟨by decide, by decide⟩
    refine ⟨t, hnode, hdeclares, .named hlast none, relative_depth_is_exact hnode, ?_⟩
    rw [Tables.ofFiles_singleton]
    decide +kernel

end CodeAtlas
