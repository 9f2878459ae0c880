import CodeAtlas.Proofs.Conservation
import CodeAtlas.Proofs.ImportedClasses
import CodeAtlas.Proofs.Lists

/-!
# Written imports come before wildcards

An alias of a module is looked for along the table of imports, so the edge with the least identity
decides. The table holds the statements of every file in their order and behind them, for all
modules, what the wildcards expand to. A statement that binds the alias by itself is therefore taken
before every name that a wildcard gives, wherever in the file the wildcard is written. Only an alias
that no statement binds comes from a wildcard: the expansions follow their wildcards and each
wildcard's symbols, so it is the first exposed symbol of the earliest wildcard that has one.
-/

namespace CodeAtlas

/-! ### Searching facts in a row -/

/-- Among facts in a row, those of one file are searched by themselves. -/
theorem find?_placed {α : Type} (facts : FileFacts → List α) (p : α → Bool)
    (files : List FileFacts) (module : Nat) :
    (placed facts files).find? (fun i => i.module == module && p i.fact) =
      files[module]?.bind fun file => ((facts file).find? p).map
        (Placed.mk module (declarationCount (files.take module))) := by
  induction files using List.reverseRecOn with
  | nil => rfl
  | append_singleton files file ih =>
    have hcomp : (fun i : Placed α => i.module == module && p i.fact) ∘
        Placed.mk files.length (declarationCount files) =
          fun x => files.length == module && p x := rfl
    rw [placed_concat, List.find?_append, ih, List.find?_map, hcomp]
    have hforeign (hother : files.length ≠ module) :
        (facts file).find? (fun x => files.length == module && p x) = none := by
      simp [beq_eq_false_iff_ne.mpr hother]
    rcases Nat.lt_trichotomy module files.length with hless | rfl | hmore
    · rw [hforeign hless.ne', List.getElem?_append_left hless,
        List.take_append_of_le_length hless.le]
      simp
    · simp
    · rw [hforeign hmore.ne, List.getElem?_eq_none hmore.le, List.getElem?_eq_none (by simp; omega)]
      rfl

/-! ### Statements -/

/-- Does an import statement bind the name by itself? -/
def ImportFact.binds (i : ImportFact) (name : String) : Bool :=
  i.name != .wildcard && i.localName == name

/-- Does an edge of a module, written or derived, bind the name? -/
def ImportEdge.bindsIn (module : Nat) (name : String) (e : ImportEdge) : Bool :=
  e.module == module && !e.isWildcard && e.localName == name

/-- An alias is found at the first edge of the module that binds it. -/
theorem Tables.aliasEdge?_eq_find? (tables : Tables) (module : Nat) (name : String) :
    tables.aliasEdge? module name = tables.imports.find? (ImportEdge.bindsIn module name) := rfl

/-- In the collected unit an alias is found where the module's file first binds it. -/
theorem rel_aliasEdge?_ofFiles (files : List FileFacts) (module : Nat) (name : String) :
    Option.Rel ImportEdge.Copies ((Tables.ofFiles files).aliasEdge? module name)
      ((orderedFiles files)[module]?.bind fun file => (file.imports.find? (·.binds name)).map
        (Placed.mk module (declarationCount ((orderedFiles files).take module)))) := by
  rw [← find?_placed (·.imports) (·.binds name)]
  refine rel_find?_of_forall₂ ((collected_ofFiles files).imports.imp fun _ _ h => h.1) ?_
  intro e i h
  rw [ImportEdge.isWildcard, h.module, h.name, h.localName, Bool.and_assoc]
  rfl

/-! ### Wildcards -/

namespace Tables

variable {tables : Tables} {module : Nat} {name : String}

/-- A wildcard gives a symbol under the name: it has a target in the unit, and the symbol is exposed
at the level of the target. -/
structure Provides (tables : Tables) (name : String) (w : ImportEdge) (s : Symbol) : Prop where
  wildcard : w.name = .wildcard
  exposed : ∃ t, w.status = .resolved t ∧ s ∈ tables.exposedAt t
  named : s.name = name

/-- The first symbol that the earliest wildcard of a module with such a symbol gives under the
name. -/
structure FirstProvided (tables : Tables) (name : String) (module : Nat) (w : ImportEdge)
    (s : Symbol) : Prop extends tables.Provides name w s where
  listed : w ∈ tables.imports
  ofModule : w.module = module
  earliest : ∀ v ∈ tables.imports, v.module = module → ∀ u, tables.Provides name v u → w.id ≤ v.id
  first : ∀ u, tables.Provides name w u → s.id ≤ u.id

/-- The edge that a wildcard gives for a symbol binds the name of the symbol. -/
theorem bindsIn_expansionFor (w : ImportEdge) (s : Symbol) :
    (expansionFor w s).bindsIn module name = (w.module == module && s.name == name) := by
  change (w.module == module && true && s.name == name) = _
  rw [Bool.and_true]

/-- What a wildcard with a target in the unit gives. -/
theorem provides_iff {w : ImportEdge} {t : Nat} (hname : w.name = .wildcard)
    (hstatus : w.status = .resolved t) {s : Symbol} :
    tables.Provides name w s ↔ s ∈ tables.exposedAt t ∧ s.name = name := by
  constructor
  · rintro ⟨_, ⟨t', hstatus', hs⟩, hnamed⟩
    cases hstatus.symm.trans hstatus'
    exact ⟨hs, hnamed⟩
  · rintro ⟨hs, hnamed⟩
    exact ⟨hname, ⟨t, hstatus, hs⟩, hnamed⟩

/-- The first symbol with a name among the exposed ones is the one with the least identity. -/
theorem find?_exposedAt_eq_some_iff (h : Numbered Symbol.id tables.symbols.toList) {t : Nat}
    {s : Symbol} :
    (tables.exposedAt t).find? (·.name == name) = some s ↔
      (s ∈ tables.exposedAt t ∧ s.name = name) ∧
        ∀ u, u ∈ tables.exposedAt t ∧ u.name = name → s.id ≤ u.id := by
  rw [exposedAt, List.find?_filter, h.find?_eq_some_iff]
  simp only [decide_eq_true_eq, List.mem_filter, beq_iff_eq]
  constructor
  · rintro ⟨hmem, ⟨hexposed, hname⟩, hfirst⟩
    exact ⟨⟨⟨hmem, hexposed⟩, hname⟩, fun u hu => hfirst u hu.1.1 ⟨hu.1.2, hu.2⟩⟩
  · rintro ⟨⟨⟨hmem, hexposed⟩, hname⟩, hfirst⟩
    exact ⟨hmem, ⟨hexposed, hname⟩, fun u hu hrest => hfirst u ⟨⟨hu, hrest.1⟩, hrest.2⟩⟩

/-- Linking imports does not change what wildcards give. -/
theorem provides_linkImports {w : ImportEdge} {s : Symbol} :
    tables.linkImports.Provides name w s ↔ tables.Provides name w s :=
  ⟨fun ⟨hname, hexposed, hnamed⟩ => ⟨hname, hexposed, hnamed⟩,
    fun ⟨hname, hexposed, hnamed⟩ => ⟨hname, hexposed, hnamed⟩⟩

/-- The wildcards of a linked unit are written ones. -/
theorem mem_linkedImports_of_wildcard (hwritten : ∀ e ∈ tables.imports, e.expandedFrom = none)
    {w : ImportEdge} (hw : w ∈ tables.linkImports.imports) (hname : w.name = .wildcard) :
    w ∈ tables.linkedImports := by
  rcases mem_linkImports hwritten hw with ⟨hw, _⟩ | ⟨_, _, _, _, s, id, rfl⟩
  · exact hw
  · cases hname

section Derived

variable (h : SymbolRecords tables.modules tables.symbols.toList)
variable (horder : InModuleOrder tables.symbols.toList)
include h horder

/-- Among the expansions of a wildcard, an alias is found at the first symbol that it gives. -/
theorem find?_expansions_eq_some_iff {w d : ImportEdge} :
    (tables.expansions w).find? (ImportEdge.bindsIn module name) = some d ↔
      w.module = module ∧ ∃ s, tables.Provides name w s ∧
        (∀ u, tables.Provides name w u → s.id ≤ u.id) ∧ d = expansionFor w s := by
  by_cases hresolved : w.name = .wildcard ∧ ∃ t, w.status = .resolved t
  · obtain ⟨hname, t, hstatus⟩ := hresolved
    have hexpansions : tables.expansions w = (tables.exposedAt t).map (expansionFor w) := by
      rw [expansions, hname, hstatus, ← exposedSymbols_eq_exposedAt h horder]
    have hbinds : ImportEdge.bindsIn module name ∘ expansionFor w =
        fun s => w.module == module && s.name == name := funext fun s => bindsIn_expansionFor w s
    simp only [provides_iff hname hstatus]
    rw [hexpansions, List.find?_map, hbinds, Option.map_eq_some_iff]
    by_cases hmodule : w.module = module
    · simp only [hmodule, beq_self_eq_true, Bool.true_and, true_and,
        find?_exposedAt_eq_some_iff h.symbolsNumbered, and_assoc, eq_comm]
    · rw [List.find?_eq_none.mpr (by simp [hmodule])]
      simp [hmodule]
  · have hnone : tables.expansions w = [] := by
      refine List.eq_nil_iff_forall_not_mem.mpr fun e he => hresolved ?_
      obtain ⟨hname, hstatus, _⟩ := mem_expansions he
      exact ⟨hname, hstatus⟩
    rw [hnone]
    refine iff_of_false (by simp) ?_
    rintro ⟨_, s, hs, _⟩
    obtain ⟨t, hstatus, _⟩ := hs.exposed
    exact hresolved ⟨hs.wildcard, t, hstatus⟩

/-- A wildcard has an expansion for an alias exactly when it is one of the module and gives a symbol
under the name. -/
theorem any_expansions_iff {w : ImportEdge} :
    (tables.expansions w).any (ImportEdge.bindsIn module name) = true ↔
      w.module = module ∧ ∃ s, tables.Provides name w s := by
  rw [List.any_eq_true]
  constructor
  · rintro ⟨e, he, hbinds⟩
    obtain ⟨hname, t, hstatus, s, hs, rfl⟩ := mem_expansions_iff.mp he
    rw [bindsIn_expansionFor, Bool.and_eq_true, beq_iff_eq, beq_iff_eq] at hbinds
    rw [exposedSymbols_eq_exposedAt h horder] at hs
    exact ⟨hbinds.1, s, hname, ⟨t, hstatus, hs⟩, hbinds.2⟩
  · rintro ⟨rfl, s, hname, ⟨t, hstatus, hs⟩, rfl⟩
    rw [← exposedSymbols_eq_exposedAt h horder] at hs
    refine ⟨_, mem_expansions_iff.mpr ⟨hname, t, hstatus, s, hs, rfl⟩, ?_⟩
    simp [bindsIn_expansionFor]

/-- Among all expansions, an alias is found at the first symbol of the earliest wildcard. -/
theorem find?_derived_eq_some_iff (hnumbered : Numbered ImportEdge.id tables.imports)
    (hwritten : ∀ e ∈ tables.imports, e.expandedFrom = none) {d : ImportEdge} :
    (tables.linkedImports.flatMap tables.expansions).find? (ImportEdge.bindsIn module name) =
        some d ↔
      ∃ w s, tables.linkImports.FirstProvided name module w s ∧ d = expansionFor w s := by
  have hlinked : Numbered ImportEdge.id tables.linkedImports := hnumbered.map _ fun _ => rfl
  rw [find?_flatMap_eq_bind, Option.bind_eq_some_iff]
  simp only [hlinked.find?_eq_some_iff, any_expansions_iff h horder,
    find?_expansions_eq_some_iff h horder]
  constructor
  · rintro ⟨w, ⟨hw, _, hearliest⟩, hmodule, s, hs, hfirst, rfl⟩
    refine ⟨w, s, ⟨provides_linkImports.mpr hs, ?_, hmodule, ?_, ?_⟩, rfl⟩
    · rw [linkImports_imports]
      exact List.mem_append_left _ hw
    · intro v hv hmodule' u hu
      have hv := mem_linkedImports_of_wildcard hwritten hv hu.wildcard
      exact hearliest v hv ⟨hmodule', u, provides_linkImports.mp hu⟩
    · exact fun u hu => hfirst u (provides_linkImports.mp hu)
  · rintro ⟨w, s, hs, rfl⟩
    have hprovides := provides_linkImports.mp hs.toProvides
    have hw := mem_linkedImports_of_wildcard hwritten hs.listed hs.wildcard
    refine ⟨w, ⟨hw, ⟨hs.ofModule, s, hprovides⟩, ?_⟩, hs.ofModule, s, hprovides, ?_, rfl⟩
    · rintro v hv ⟨hmodule, u, hu⟩
      have hv : v ∈ tables.linkImports.imports := by
        rw [linkImports_imports]
        exact List.mem_append_left _ hv
      exact hs.earliest v hv hmodule u (provides_linkImports.mpr hu)
    · exact fun u hu => hs.first u (provides_linkImports.mpr hu)

end Derived

/-- Numbering edges through changes nothing but their identities. -/
theorem forall₂_numbered (start : Nat) (edges : List ImportEdge) :
    List.Forall₂ (fun new old => ∃ id, new = { old with id := id }) (numbered start edges)
      edges := by
  have hall := numbered_filter_forall₂ (p := fun _ => true) (fun _ _ => rfl) start edges
  rwa [List.filter_true, List.filter_true] at hall

/-- Where no statement binds an alias, it is found among the expansions. -/
theorem rel_aliasEdge?_linkImports (hnone : tables.aliasEdge? module name = none) :
    Option.Rel (fun new old => ∃ id, new = { old with id := id })
      (tables.linkImports.aliasEdge? module name)
      ((tables.linkedImports.flatMap tables.expansions).find?
        (ImportEdge.bindsIn module name)) := by
  have hunwritten : tables.linkedImports.find? (ImportEdge.bindsIn module name) = none := by
    rw [linkedImports, List.find?_map]
    exact Option.map_eq_none_iff.mpr hnone
  have himports : tables.linkImports.imports = tables.linkedImports ++
      numbered tables.imports.length (tables.linkedImports.flatMap tables.expansions) :=
    linkImports_imports tables
  rw [aliasEdge?_eq_find?, himports, List.find?_append, hunwritten, Option.none_or]
  refine rel_find?_of_forall₂ (forall₂_numbered _ _) ?_
  rintro _ e ⟨id, rfl⟩
  rfl

section Unwritten

variable (h : tables.records.Consistent)
variable (hwritten : ∀ e ∈ tables.imports, e.expandedFrom = none)
variable (horder : InModuleOrder tables.symbols.toList)
variable (hnone : tables.aliasEdge? module name = none)
include h hwritten horder hnone

/-- An alias that no statement binds comes from the earliest wildcard with such a symbol. -/
theorem exists_firstProvided {e : ImportEdge}
    (halias : tables.linkImports.aliasEdge? module name = some e) :
    ∃ w s, tables.linkImports.FirstProvided name module w s ∧ w.Exposes e s := by
  have hrel := rel_aliasEdge?_linkImports hnone
  rw [halias] at hrel
  generalize hsearch : List.find? _ _ = found at hrel
  cases hrel with
  | @some _ d hsame =>
    obtain ⟨w, s, hfirst, rfl⟩ :=
      (find?_derived_eq_some_iff h.symbols horder h.imports.numbered hwritten).mp hsearch
    obtain ⟨id, rfl⟩ := hsame
    exact ⟨w, s, hfirst, rfl, rfl, rfl, rfl, rfl, rfl, rfl, rfl, rfl⟩

/-- The earliest wildcard with a symbol for an alias gives the alias, if no statement does. -/
theorem FirstProvided.aliasMeaning?_eq {w : ImportEdge} {s : Symbol}
    (hfirst : tables.linkImports.FirstProvided name module w s) :
    tables.linkImports.aliasMeaning? module name = some (.symbol s.id) := by
  have hrel := rel_aliasEdge?_linkImports hnone
  rw [(find?_derived_eq_some_iff h.symbols horder h.imports.numbered hwritten).mpr
    ⟨w, s, hfirst, rfl⟩] at hrel
  generalize halias : tables.linkImports.aliasEdge? module name = found at hrel
  cases hrel with
  | some hsame =>
    obtain ⟨id, rfl⟩ := hsame
    rw [aliasMeaning?, halias]
    rfl

end Unwritten

/-! ### The order of aliases -/

/-- Linking calls does not change what wildcards give. -/
theorem firstProvided_linkCalls {config : ResolutionConfig} {w : ImportEdge} {s : Symbol} :
    (tables.linkCalls config).FirstProvided name module w s ↔
      tables.FirstProvided name module w s := by
  have hprovides {v : ImportEdge} {u : Symbol} :
      (tables.linkCalls config).Provides name v u ↔ tables.Provides name v u :=
    ⟨fun ⟨hname, hexposed, hnamed⟩ => ⟨hname, hexposed, hnamed⟩,
      fun ⟨hname, hexposed, hnamed⟩ => ⟨hname, hexposed, hnamed⟩⟩
  constructor
  · rintro ⟨hs, hlisted, hmodule, hearliest, hfirst⟩
    exact ⟨hprovides.mp hs, hlisted, hmodule,
      fun v hv hmodule u hu => hearliest v hv hmodule u (hprovides.mpr hu),
      fun u hu => hfirst u (hprovides.mpr hu)⟩
  · rintro ⟨hs, hlisted, hmodule, hearliest, hfirst⟩
    exact ⟨hprovides.mpr hs, hlisted, hmodule,
      fun v hv hmodule u hu => hearliest v hv hmodule u (hprovides.mp hu),
      fun u hu => hfirst u (hprovides.mp hu)⟩

/-- Which import an alias of a module stands for, given the file of the module. -/
structure AliasesInOrder (tables : Tables) (file : FileFacts) (module : Nat) (name : String) :
    Prop where
  /-- The edge with the least identity is consulted, wildcards apart. -/
  consulted : ∀ e, tables.aliasEdge? module name = some e ↔ tables.FirstImport name module e
  meant : ∀ meaning, tables.aliasMeaning? module name = some meaning ↔
    ∃ e, tables.FirstImport name module e ∧ tables.meaningOf e = meaning
  /-- The first statement of the file that binds the name by itself, and no expansion. -/
  written : ∀ fact, file.imports.find? (·.binds name) = some fact →
    ∃ e base, tables.aliasEdge? module name = some e ∧ e.Copies ⟨module, base, fact⟩
  /-- Without such a statement, the first exposed symbol of the earliest wildcard that has one. -/
  derived : file.imports.find? (·.binds name) = none → ∀ e,
    tables.aliasEdge? module name = some e →
      ∃ w s, tables.FirstProvided name module w s ∧ w.Exposes e s
  provided : file.imports.find? (·.binds name) = none → ∀ w s,
    tables.FirstProvided name module w s →
      tables.aliasMeaning? module name = some (.symbol s.id)
  unbound : (∀ e, ¬ tables.Imports name module e) → tables.aliasMeaning? module name = none

end Tables

/-- In a linked unit an alias is found at the first statement of the module's file that binds it. -/
theorem exists_copy_of_statement {files : List FileFacts} {module : Nat} {file : FileFacts}
    (hfile : (orderedFiles files)[module]? = some file) {name : String} {fact : ImportFact}
    (hfact : file.imports.find? (·.binds name) = some fact) :
    ∃ e base, (Tables.ofFiles files).linkImports.aliasEdge? module name = some e ∧
      e.Copies ⟨module, base, fact⟩ := by
  have hrel := rel_aliasEdge?_ofFiles files module name
  rw [hfile, Option.bind_some, hfact, Option.map_some] at hrel
  generalize halias : (Tables.ofFiles files).aliasEdge? module name = found at hrel
  cases hrel with
  | @some e _ hcopies =>
    obtain ⟨hmodule, htarget, hname, hlocal, hdepth, hextent, hwritten⟩ := hcopies
    exact ⟨((Tables.ofFiles files).linkImport e).1, _, Tables.aliasEdge?_linkImports halias,
      hmodule, htarget, hname, hlocal, hdepth, hextent, hwritten⟩

/-- An alias that no statement of the module's file binds is not found in the collected unit. -/
theorem aliasEdge?_eq_none_of_no_statement {files : List FileFacts} {module : Nat}
    {file : FileFacts} (hfile : (orderedFiles files)[module]? = some file) {name : String}
    (hnone : file.imports.find? (·.binds name) = none) :
    (Tables.ofFiles files).aliasEdge? module name = none := by
  have hrel := rel_aliasEdge?_ofFiles files module name
  rw [hfile, Option.bind_some, hnone, Option.map_none] at hrel
  generalize (Tables.ofFiles files).aliasEdge? module name = found at hrel
  cases hrel
  rfl

/-- In every unit of well-formed files an alias of a module stands for the first statement of its
file that binds it. Only without one it comes from a wildcard, the earliest that exposes such a
symbol. -/
theorem written_imports_come_before_wildcards (config : ResolutionConfig) (files : List FileFacts)
    (hnonempty : files ≠ []) (hfiles : ∀ file ∈ files, file.WellFormed) :
    ∃ chosen collected imported called graph,
      CompletedRun config files collected imported called graph ∧ Selects files chosen ∧
        List.Forall₂ Module.Carries called.tables.modules chosen ∧
        ∀ module file, chosen[module]? = some file → ∀ name,
          called.tables.AliasesInOrder file module name := by
  refine ⟨orderedFiles files, _, _, _, _, completedRun_of_ne_nil config hnonempty,
    selects_orderedFiles files, (collected_ofFiles files).modules, ?_⟩
  intro module file hfile name
  have hconsistent := Tables.ofFiles_consistent files hfiles
  have hwritten := Tables.ofFiles_written files
  have horder := Tables.ofFiles_inModuleOrder files
  generalize hcalled : (Tables.ofFiles files).linkImports.linkCalls config = called
  have hnumbered : Numbered ImportEdge.id called.imports := by
    rw [← hcalled]
    exact (Tables.linkImports_consistent hconsistent hwritten).imports.numbered
  have hconsulted (e : ImportEdge) :
      called.aliasEdge? module name = some e ↔ called.FirstImport name module e :=
    Tables.aliasEdge?_eq_some_iff hnumbered
  refine ⟨hconsulted, ?_, ?_, ?_, ?_, ?_⟩
  · intro meaning
    rw [Tables.aliasMeaning?, Option.map_eq_some_iff]
    simp only [hconsulted]
  · intro fact hfact
    rw [← hcalled]
    exact exists_copy_of_statement hfile hfact
  · intro hnone e halias
    rw [← hcalled] at halias ⊢
    obtain ⟨w, s, hfirst, hexposes⟩ := Tables.exists_firstProvided hconsistent hwritten horder
      (aliasEdge?_eq_none_of_no_statement hfile hnone) halias
    exact ⟨w, s, Tables.firstProvided_linkCalls.mpr hfirst, hexposes⟩
  · intro hnone w s hfirst
    rw [← hcalled] at hfirst ⊢
    exact (Tables.firstProvided_linkCalls.mp hfirst).aliasMeaning?_eq hconsistent hwritten horder
      (aliasEdge?_eq_none_of_no_statement hfile hnone)
  · intro hnone
    rw [Tables.aliasMeaning?, Tables.aliasEdge?_eq_none_iff.mpr hnone, Option.map_none]

/-- Two files that expose one name, and a file that imports every name of the first and then this
name from the second. -/
def wildcardFirst : List FileFacts :=
  [{ path := ⟨"a.py"⟩, language := .python
     declarations :=
      [{ name := "area", kind := .function, parent := none, visibility := .exposed },
        { name := "Box", kind := .classLike, parent := none, visibility := .exposed }] },
    { path := ⟨"b.py"⟩, language := .python
      declarations :=
        [{ name := "area", kind := .function, parent := none, visibility := .exposed }] },
    { path := ⟨"main.py"⟩, language := .python
      imports :=
        [{ target := "a", name := .wildcard, localName := "*" },
          { target := "b", name := .name "area", localName := "area" }] }]

/-- The name that both expose comes from the second file, though the wildcard is written first; the
other one comes from the wildcard. -/
theorem written_imports_come_before_wildcards_expanded :
    wildcardFirst ≠ [] ∧ (∀ file ∈ wildcardFirst, file.WellFormed) ∧
      (∃ chosen collected imported called graph,
        CompletedRun {} wildcardFirst collected imported called graph ∧
          Selects wildcardFirst chosen ∧
          List.Forall₂ Module.Carries called.tables.modules chosen ∧
          ∀ module file, chosen[module]? = some file → ∀ name,
            called.tables.AliasesInOrder file module name) ∧
      (Tables.ofFiles wildcardFirst).linkImports.aliasMeaning? 2 "area" = some (.symbol 2) ∧
      (Tables.ofFiles wildcardFirst).linkImports.aliasMeaning? 2 "Box" = some (.symbol 1) := by
  have hnonempty : wildcardFirst ≠ [] := List.cons_ne_nil _ _
  have hfiles : ∀ file ∈ wildcardFirst, file.WellFormed := by
    intro file hfile
    simp only [wildcardFirst, List.mem_cons, List.not_mem_nil, or_false] at hfile
    rcases hfile with rfl | rfl | rfl
    all_goals exact FileFacts.wellFormed_of_flat (by simp) rfl
  have htables : Tables.ofFiles wildcardFirst = wildcardFirst.foldl Tables.addFile {} :=
    Tables.ofFiles_of_ordered (by decide) (by decide)
  refine ⟨hnonempty, hfiles,
    written_imports_come_before_wildcards {} wildcardFirst hnonempty hfiles, ?_⟩
  rw [htables]
  decide +kernel

end CodeAtlas
