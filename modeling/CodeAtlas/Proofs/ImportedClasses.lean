import CodeAtlas.Proofs.ModuleLocation
import CodeAtlas.Proofs.NamePrecedence

/-!
# A class that is imported by the path of its file

A Java import names a class by the path of its package. The package is a directory and no module, so
the import is located by the path with the name of the class behind it, which leads to the file of
the class, and the name comes to stand for this file as a whole. What follows is that the class is
missed wherever the name is used for it: constructing it has no target, neither has a call of one of
its members, and a class that extends it does not inherit. Only a call that names the class once
more behind its file reaches it.
-/

namespace CodeAtlas

/-- Is the text a single name, without separators and without anything else than a name? -/
def IsPlainName (name : String) : Prop :=
  Text.segments name = [name] ∧ Tables.isExpression name = false

/-- Being a plain name can be decided. -/
instance (name : String) : Decidable (IsPlainName name) := inferInstanceAs (Decidable (_ ∧ _))

/-- Java modules import each other only. -/
theorem Language.sharesModulesWith_java {lang : Language} :
    lang.sharesModulesWith .java = true ↔ lang = .java := by
  cases lang <;> decide

namespace Tables

variable {tables : Tables}

/-! ### The import -/

/-- A search with one candidate, whatever the tier, finds it. -/
theorem locate_eq_of_unique (h : Numbered Module.id tables.modules) {module : Nat}
    {origin home : Module} (horigin : tables.modules[module]? = some origin) {depth : Nat}
    {segments : List String} (tier : Tier)
    (hhome : home ∈ tables.candidates origin depth segments tier)
    (honly : ∀ tier, ∀ m ∈ tables.candidates origin depth segments tier, m = home) :
    (tables.locate module depth segments).1 = some home.id := by
  have hlocates := locatesInTiers h horigin depth segments
  cases hfound : (tables.locate module depth segments).1 with
  | none =>
    rw [hlocates.missing.mp hfound tier] at hhome
    cases hhome
  | some t =>
    obtain ⟨decisive, _, hleast⟩ := (hlocates.found t).mp hfound
    obtain ⟨m, hm, rfl⟩ := hleast.1
    rw [honly decisive m hm]

/-- A name whose module is not found stands for the file that its path leads to. -/
theorem judgeImport_of_file {e : ImportEdge} {origin : Module} {name : String} {home : Nat}
    (horigin : tables.modules[e.module]? = some origin) (hname : e.name = .name name)
    (hmissing : (tables.locate e.module e.depth
      (targetSegments e.target origin.language)).1 = none)
    (hfound : (tables.locate e.module e.depth
      (targetSegments e.target origin.language ++ [name])).1 = some home) :
    (tables.judgeImport e).1 = (.resolved home, some (.module home)) := by
  simp [judgeImport, horigin, hname, hmissing, hfound]

/-- Linking changes nothing about which import binds a name first, if a written one does. -/
theorem aliasEdge?_linkImports {module : Nat} {name : String} {e : ImportEdge}
    (hfirst : tables.aliasEdge? module name = some e) :
    tables.linkImports.aliasEdge? module name = some (tables.linkImport e).1 := by
  have hwritten : (tables.imports.map fun e => (tables.linkImport e).1).find?
      (fun e => e.module == module && !e.isWildcard && e.localName == name) =
        some (tables.linkImport e).1 := by
    rw [List.find?_map]
    exact congrArg (Option.map fun e => (tables.linkImport e).1) hfirst
  rw [aliasEdge?, linkImports_imports, List.find?_append, hwritten, Option.some_or]

/-! ### The name -/

/-- A single name is looked up among the aliases as it is. -/
theorem longestAlias?_singleton (module : Nat) (name : String) :
    tables.longestAlias? module [name] = (tables.aliasMeaning? module name).map (·, []) := by
  have hwhole : Text.joinWith (tables.separator module) ([name].take 1) = name := rfl
  simp only [longestAlias?, List.length_singleton, longestAliasUpTo, hwhole]
  cases tables.aliasMeaning? module name <;> rfl

section Name

variable {config : ResolutionConfig} {module : Nat} {name : String} {meaning : Meaning}
variable (hplain : IsPlainName name) (halias : tables.aliasMeaning? module name = some meaning)
include hplain halias

/-- A single name that only an import binds means what the import stands for. -/
theorem lookupPath_of_alias {caller : Option Nat}
    (hlocal : (tables.lookupLocal config module caller name).1 = none) :
    (tables.lookupPath config module caller name).1 = meaning := by
  simp [lookupPath, hplain.1, hplain.2, hlocal, longestAlias?_singleton, halias]

/-- A name for a module is the name of no base class. -/
theorem baseNamed?_of_module {scope : Option Nat} {m : Nat} (hmodule : meaning = .module m)
    (hscopes : ∀ s ∈ tables.scopeChain scope, tables.childNamed? s name = none)
    (hlevel : tables.topLevelNamed module name = []) :
    tables.baseNamed? module scope name = none := by
  have hscopes : (tables.scopeChain scope).findSome? (fun s => tables.childNamed? s name) = none :=
    List.findSome?_eq_none_iff.mpr hscopes
  simp [baseNamed?, hplain.1, hscopes, hlevel, longestAlias?_singleton, halias, hmodule]

end Name

/-! ### Calls -/

section Calls

variable {config : ResolutionConfig} {name : String} {m : Nat} {call : CallEdge}
variable (hplain : IsPlainName name)
variable (halias : tables.aliasMeaning? call.module name = some (.module m))
variable (hlocal : (tables.lookupLocal config call.module call.caller name).1 = none)
variable (hself : (tables.grammar call.module).isSelf name = false)
variable (hsuper : (tables.grammar call.module).isSuper name = false)
include hplain halias hlocal hself hsuper

/-- A module cannot be constructed. -/
theorem judgeCall_constructs_module (hkind : call.kind = .constructor)
    (hcallee : call.callee = name) :
    (tables.judgeCall config call).1 = (.constructor, .unresolved) := by
  have hmeaning := lookupPath_of_alias hplain halias hlocal
  simp [judgeCall, hkind, linkConstructor, hcallee, hself, hsuper, hmeaning]

/-- A call through a name for a module leads to the level of the module. -/
theorem judgeCall_through_module (hkind : call.kind = .method)
    (hreceiver : call.receiver = some name)
    (hown : tables.isOwnReceiver call.caller name = false) :
    (tables.judgeCall config call).1 = tables.linkInModule config m call.name := by
  have hmeaning := lookupPath_of_alias hplain halias hlocal
  simp [judgeCall, hkind, linkByReceiver, hreceiver, linkMember, hself, hsuper, hown, hmeaning,
    linkQualified]

end Calls

/-- The names at the level of a file whose only symbol is a class. -/
theorem topLevelNamed_of_single {home : Module} {c : Symbol} {name : String}
    (hhome : tables.modules[home.id]? = some home) (hjava : home.language ≠ .go)
    (hsingle : home.symbols = [c.id]) (hc : tables.symbols[c.id]? = some c) :
    tables.topLevelNamed home.id name = if c.name = name then [c.id] else [] := by
  simp only [topLevelNamed, topLevel, hhome, if_neg hjava, hsingle, List.filter_cons,
    List.filter_nil, isNamed, hc, Option.any_some, beq_iff_eq]

/-- Behind a file whose only symbol is a class, only the name of the class means something. -/
theorem linkInModule_of_single {config : ResolutionConfig} {home : Module} {c : Symbol}
    {name : String} (hhome : tables.modules[home.id]? = some home) (hjava : home.language ≠ .go)
    (hsingle : home.symbols = [c.id]) (hc : tables.symbols[c.id]? = some c)
    (hclass : c.isClass = true) :
    tables.linkInModule config home.id name =
      if c.name = name then (.constructor, tables.constructorTarget config c.id)
      else (.static, .unresolved) := by
  have hisClass : tables.isClass c.id = true := by
    rw [isClass, hc, Option.any_some, hclass]
  rw [linkInModule, topLevelNamed_of_single hhome hjava hsingle hc]
  by_cases hname : c.name = name
  · simp [hname, hisClass]
  · simp [hname]

/-! ### The unit -/

section Unit

variable (tables) (importer home : Module) (package : List String) (e : ImportEdge) (c : Symbol)

/-- A Java module imports the class of another file by the path of its package: the path ends the
key of this file only, the package alone ends no key, and the class is all that the file
declares. -/
structure ImportsClass : Prop where
  importer_mem : importer ∈ tables.modules
  importer_java : importer.language = .java
  home_mem : home ∈ tables.modules
  home_java : home.language = .java
  /-- The first import of the module that binds the name of the class. -/
  first : tables.aliasEdge? importer.id c.name = some e
  name : e.name = .name c.name
  depth : e.depth = 0
  target : targetSegments e.target .java = package
  path : package ++ [c.name] <:+ home.key
  unique : ∀ m ∈ tables.modules, m.language = .java → package ++ [c.name] <:+ m.key → m = home
  noPackage : ∀ m ∈ tables.modules, m.language = .java → ¬ package <:+ m.key
  single : home.symbols = [c.id]
  symbol : tables.symbols[c.id]? = some c
  isClass : c.isClass = true
  plain : IsPlainName c.name
  notSelf : Language.java.grammar.isSelf c.name = false
  notSuper : Language.java.grammar.isSuper c.name = false

/-- Nothing around a place has the name, neither by declaration nor by inheritance. -/
def Unshadowed (config : ResolutionConfig) (module : Nat) (caller : Option Nat) (name : String) :
    Prop :=
  ∃ chain, Climb tables.parentAt caller chain ∧ tables.NothingNearby config name module chain

/-- Nothing around a class declares the name. -/
def UndeclaredAround (module : Nat) (scope : Option Nat) (name : String) : Prop :=
  ∃ chain, Climb tables.parentAt scope chain ∧
    (∀ around ∈ chain, ∀ t, ¬ tables.Declares around name t) ∧
    ∀ s ∈ tables.symbols.toList, s.name = name → tables.atLevel module s = false

/-- A call of the importing module through the name of the class. -/
structure CallsThrough (config : ResolutionConfig) (call : CallEdge) : Prop where
  listed : call ∈ tables.calls
  ofModule : call.module = importer.id
  kind : call.kind = .method
  receiver : call.receiver = some c.name
  notOwn : tables.linkImports.isOwnReceiver call.caller c.name = false
  unshadowed : tables.linkImports.Unshadowed config importer.id call.caller c.name

/-- What the uses of the class come to in a resolved unit. -/
structure MissesClass (config : ResolutionConfig) (calls : List CallEdge) : Prop where
  /-- The import is resolved, and binds the name to the file. -/
  bound : ∃ linked ∈ tables.linkImports.imports, linked.id = e.id ∧
    linked.status = .resolved home.id ∧ linked.binding = some (.module home.id)
  /-- Constructing the class has no target. -/
  constructed : ∀ call ∈ tables.calls, call.module = importer.id → call.kind = .constructor →
    call.callee = c.name →
    tables.linkImports.Unshadowed config importer.id call.caller c.name →
      { call with target := .unresolved } ∈ calls
  /-- A member that is called through the class is looked for in the file. -/
  selected : ∀ call, tables.CallsThrough importer c config call → call.name ≠ c.name →
    { call with kind := .static, target := .unresolved } ∈ calls
  /-- The class is reached where its name stands behind that of its file. -/
  repeated : ∀ call, tables.CallsThrough importer c config call → call.name = c.name →
    { call with
      kind := .constructor
      target := tables.linkImports.constructorTarget config c.id } ∈ calls
  /-- A class has its base classes by other names only. -/
  extended : ∀ d s, tables.symbols[d]? = some s → s.module = importer.id →
    tables.linkImports.UndeclaredAround importer.id s.parent c.name →
      ∀ b ∈ tables.linkImports.baseClasses d, ∃ base ∈ s.bases, base ≠ c.name ∧
        tables.linkImports.baseNamed? importer.id s.parent base = some b

end Unit

variable {importer home : Module} {package : List String} {e : ImportEdge} {c : Symbol}

namespace ImportsClass

variable (h : tables.ImportsClass importer home package e c)
include h

/-- The import is one of the importing module. -/
theorem module_eq : e.module = importer.id := by
  have hbinds := List.find?_some h.first
  simp only [Bool.and_eq_true, beq_iff_eq] at hbinds
  exact hbinds.1.1

variable (hnumbered : Numbered Module.id tables.modules)
include hnumbered

/-- The import is resolved to the file of the class, and the name stands for this file. -/
theorem judgeImport_eq :
    (tables.judgeImport e).1 = (.resolved home.id, some (.module home.id)) := by
  have horigin : tables.modules[e.module]? = some importer := by
    rw [h.module_eq]
    exact hnumbered.getElem?_of_mem h.importer_mem
  have hcandidate {tier : Tier} {segments : List String} {m : Module}
      (hm : m ∈ tables.candidates importer e.depth segments tier) :
      m ∈ tables.modules ∧ m.language = .java ∧ segments <:+ m.key := by
    obtain ⟨hmem, hshared, hadmits⟩ := hm
    rw [h.importer_java, Language.sharesModulesWith_java] at hshared
    refine ⟨hmem, hshared, ?_⟩
    cases tier with
    | relative => exact absurd h.depth hadmits.1.ne'
    | exact => exact hadmits.2 ▸ List.suffix_rfl
    | ending => exact hadmits.2
  refine judgeImport_of_file horigin h.name ?_ ?_
  · rw [h.importer_java, h.target]
    refine (locatesInTiers hnumbered horigin e.depth package).missing.mpr fun tier => ?_
    refine Set.eq_empty_iff_forall_notMem.mpr fun m hm => ?_
    obtain ⟨hmem, hjava, hends⟩ := hcandidate hm
    exact h.noPackage m hmem hjava hends
  · rw [h.importer_java, h.target]
    refine locate_eq_of_unique hnumbered horigin .ending ⟨h.home_mem, ?_, ?_, h.path⟩ ?_
    · rw [h.importer_java, h.home_java]
      rfl
    · exact ⟨by simp, .inl h.depth⟩
    · intro tier m hm
      obtain ⟨hmem, hjava, hends⟩ := hcandidate hm
      exact h.unique m hmem hjava hends

/-- In the linked unit the name of the class stands for its file. -/
theorem aliasMeaning?_eq :
    tables.linkImports.aliasMeaning? importer.id c.name = some (.module home.id) := by
  have hbinding : (tables.linkImport e).1.binding = some (.module home.id) :=
    congrArg Prod.snd (h.judgeImport_eq hnumbered)
  rw [aliasMeaning?, aliasEdge?_linkImports h.first, Option.map_some, meaningOf, hbinding]

/-- The name of the class is no keyword of the importing module. -/
theorem not_keyword : (tables.linkImports.grammar importer.id).isSelf c.name = false ∧
    (tables.linkImports.grammar importer.id).isSuper c.name = false := by
  have hgrammar : tables.linkImports.grammar importer.id = Language.java.grammar := by
    have hget : tables.linkImports.modules[importer.id]? = some importer :=
      hnumbered.getElem?_of_mem h.importer_mem
    rw [grammar, hget, Option.getD_some, h.importer_java]
  rw [hgrammar]
  exact ⟨h.notSelf, h.notSuper⟩

end ImportsClass

/-- A call stands among the linked ones with the kind and the target that it was given. -/
theorem mem_linkCalls {config : ResolutionConfig} {call : CallEdge} (hcall : call ∈ tables.calls)
    {kind : CallKind} {target : CallTarget}
    (hjudged : (tables.judgeCall config call).1 = (kind, target)) :
    { call with kind := kind, target := target } ∈ (tables.linkCalls config).calls := by
  refine List.mem_map.mpr ⟨_, List.mem_map_of_mem hcall, ?_⟩
  change { call with
    kind := (tables.judgeCall config call).1.1
    target := (tables.judgeCall config call).1.2 } = _
  rw [hjudged]

/-- A name that nothing around a place has is not found by declarations. -/
theorem Unshadowed.lookupLocal_eq_none {config : ResolutionConfig} {module : Nat}
    {caller : Option Nat} {name : String} (h : tables.Unshadowed config module caller name)
    (hconsistent : tables.records.Consistent) :
    (tables.lookupLocal config module caller name).1 = none := by
  obtain ⟨chain, hchain, hnothing⟩ := h
  exact (lookupLocal_eq_none_iff hconsistent hchain).mpr hnothing

namespace ImportsClass

variable {config : ResolutionConfig} (h : tables.ImportsClass importer home package e c)
variable (hconsistent : tables.records.Consistent)
variable (hwritten : ∀ e ∈ tables.imports, e.expandedFrom = none)
include h hconsistent hwritten

/-- Constructing the class has no target. -/
theorem judgeCall_constructor {call : CallEdge} (hmodule : call.module = importer.id)
    (hkind : call.kind = .constructor) (hcallee : call.callee = c.name)
    (hfree : tables.linkImports.Unshadowed config importer.id call.caller c.name) :
    (tables.linkImports.judgeCall config call).1 = (.constructor, .unresolved) := by
  have hnumbered : Numbered Module.id tables.modules := hconsistent.symbols.modulesNumbered
  have hlocal := hfree.lookupLocal_eq_none (linkImports_consistent hconsistent hwritten)
  have halias := h.aliasMeaning?_eq hnumbered
  obtain ⟨hself, hsuper⟩ := h.not_keyword hnumbered
  rw [← hmodule] at hlocal halias hself hsuper
  exact judgeCall_constructs_module h.plain halias hlocal hself hsuper hkind hcallee

/-- Through the name of the class only the class itself is found. -/
theorem judgeCall_through {call : CallEdge} (hcall : tables.CallsThrough importer c config call) :
    (tables.linkImports.judgeCall config call).1 =
      if c.name = call.name then (.constructor, tables.linkImports.constructorTarget config c.id)
      else (.static, .unresolved) := by
  have hnumbered : Numbered Module.id tables.modules := hconsistent.symbols.modulesNumbered
  have hlocal :=
    hcall.unshadowed.lookupLocal_eq_none (linkImports_consistent hconsistent hwritten)
  have halias := h.aliasMeaning?_eq hnumbered
  obtain ⟨hself, hsuper⟩ := h.not_keyword hnumbered
  rw [← hcall.ofModule] at hlocal halias hself hsuper
  have hhome : tables.linkImports.modules[home.id]? = some home :=
    hnumbered.getElem?_of_mem h.home_mem
  have hgo : home.language ≠ .go := by
    rw [h.home_java]
    decide
  rw [judgeCall_through_module h.plain halias hlocal hself hsuper hcall.kind hcall.receiver
    hcall.notOwn]
  exact linkInModule_of_single hhome hgo h.single h.symbol h.isClass

/-- The name of the class is the name of no base class. -/
theorem baseNamed?_eq_none {scope : Option Nat}
    (hundeclared : tables.linkImports.UndeclaredAround importer.id scope c.name) :
    tables.linkImports.baseNamed? importer.id scope c.name = none := by
  have hsymbols := (linkImports_consistent hconsistent hwritten).symbols
  obtain ⟨chain, hchain, hscopes, hlevel⟩ := hundeclared
  refine baseNamed?_of_module h.plain
    (h.aliasMeaning?_eq hconsistent.symbols.modulesNumbered) rfl ?_ ?_
  · intro around haround
    rw [scopeChain_eq_of_climb hchain] at haround
    exact (childNamed?_eq_none_iff hsymbols).mpr (hscopes around haround)
  · exact (topLevelNamed_eq_nil_iff hsymbols).mpr hlevel

/-- A class that is imported by the path of its file is missed. -/
theorem missesClass :
    tables.MissesClass importer home e c config (tables.linkImports.linkCalls config).calls := by
  have hsame {call : CallEdge} (hcall : call ∈ tables.calls) : call ∈ tables.linkImports.calls :=
    hcall
  constructor
  · have hjudged := h.judgeImport_eq hconsistent.symbols.modulesNumbered
    refine ⟨(tables.linkImport e).1, ?_, rfl, congrArg Prod.fst hjudged, congrArg Prod.snd hjudged⟩
    rw [linkImports_imports]
    exact List.mem_append_left _ (List.mem_map_of_mem (List.mem_of_find?_eq_some h.first))
  · intro call hcall hmodule hkind hcallee hfree
    have hjudged := h.judgeCall_constructor hconsistent hwritten hmodule hkind hcallee hfree
    rw [← hkind] at hjudged
    exact mem_linkCalls (hsame hcall) hjudged
  · intro call hcall hname
    have hjudged := h.judgeCall_through hconsistent hwritten hcall
    rw [if_neg hname.symm] at hjudged
    exact mem_linkCalls (hsame hcall.listed) hjudged
  · intro call hcall hname
    have hjudged := h.judgeCall_through hconsistent hwritten hcall
    rw [if_pos hname.symm] at hjudged
    exact mem_linkCalls (hsame hcall.listed) hjudged
  · intro d s (hs : tables.linkImports.symbols[d]? = some s) hmodule hundeclared b hb
    rw [baseClasses, hs] at hb
    obtain ⟨base, hbase, hnamed⟩ := List.mem_filterMap.mp (List.mem_filter.mp hb).1
    rw [hmodule] at hnamed
    refine ⟨base, hbase, ?_, hnamed⟩
    rintro rfl
    rw [h.baseNamed?_eq_none hconsistent hwritten hundeclared] at hnamed
    cases hnamed

end ImportsClass

end Tables

/-- The name of a class that a Java module imports by the path of its file stands for this file. The
class is missed where it is constructed, where its members are called and where it is extended. -/
theorem imported_class_names_stand_for_files (config : ResolutionConfig) (files : List FileFacts)
    (hnonempty : files ≠ []) (hfiles : ∀ file ∈ files, file.WellFormed) {importer home : Module}
    {package : List String} {e : ImportEdge} {c : Symbol}
    (h : (Tables.ofFiles files).ImportsClass importer home package e c) :
    ∃ graph, resolveFacts config files = .ok graph ∧
      (Tables.ofFiles files).MissesClass importer home e c config graph.records.calls :=
  ⟨_, (completedRun_of_ne_nil config hnonempty).resolves,
    h.missesClass (Tables.ofFiles_consistent files hfiles) (Tables.ofFiles_written files)⟩

/-- The facts of two files, of which the first imports and extends the class of the second. -/
def importedBase : List FileFacts :=
  [{ path := ⟨"A.java"⟩
     language := .java
     declarations :=
      [{ name := "A", kind := .classLike, parent := none, visibility := .exposed, bases := ["B"] },
        { name := "m", kind := .method, parent := some 0, visibility := .exposed }]
     imports := [{ target := "util", name := .name "B", localName := "B" }]
     calls :=
      [{ callee := "B", name := "B", kind := .constructor, caller := some 1 },
        { callee := "B.stat", name := "stat", receiver := some "B", kind := .method
          caller := some 1 },
        { callee := "super.inst", name := "inst", receiver := some "super", kind := .method
          caller := some 1 }] },
    { path := ⟨"util/B.java"⟩
      language := .java
      declarations :=
        [{ name := "B", kind := .classLike, parent := none, visibility := .exposed },
          { name := "B", kind := .method, parent := some 0, visibility := .exposed },
          { name := "stat", kind := .method, parent := some 0, visibility := .exposed },
          { name := "inst", kind := .method, parent := some 0, visibility := .exposed }] }]

/-- The tables of the two files. -/
theorem ofFiles_importedBase :
    Tables.ofFiles importedBase = importedBase.foldl Tables.addFile {} :=
  Tables.ofFiles_of_ordered (by decide) (by decide)

/-- The first file imports the class of the second by its path. -/
theorem importsClass_importedBase :
    ∃ importer home e c, (Tables.ofFiles importedBase).ImportsClass importer home ["util"] e c ∧
      importer.id = 0 ∧ home.id = 1 ∧ c.id = 2 ∧ c.name = "B" := by
  rw [ofFiles_importedBase]
  generalize htables : importedBase.foldl Tables.addFile {} = tables
  refine ⟨tables.modules[0]?.getD default, tables.modules[1]?.getD default,
    tables.imports[0]?.getD default, tables.symbols[2]?.getD default, ?_, ?_⟩
  · subst htables
    constructor <;> decide +kernel
  · subst htables
    decide +kernel

/-- Both files are well formed. -/
theorem wellFormed_importedBase : ∀ file ∈ importedBase, file.WellFormed := by
  intro file hfile
  have hshallow : ({ file with calls := [] } : FileFacts).WellFormed := by
    refine FileFacts.wellFormed_of_shallow ?_ rfl
    revert file
    simp [importedBase, parentAt]
  refine ⟨hshallow.parents, ?_, ?_, hshallow.climbs⟩ <;> (revert file; simp [importedBase])

/-- The class of the second file is imported by the first one and stands for the file there. -/
theorem imported_class_names_stand_for_files_base :
    importedBase ≠ [] ∧ (∀ file ∈ importedBase, file.WellFormed) ∧
      ∃ importer home e c, (Tables.ofFiles importedBase).ImportsClass importer home ["util"] e c ∧
        ∃ graph, resolveFacts {} importedBase = .ok graph ∧
          (Tables.ofFiles importedBase).MissesClass importer home e c {} graph.records.calls := by
  have hnonempty : importedBase ≠ [] := List.cons_ne_nil _ _
  obtain ⟨importer, home, e, c, h, _⟩ := importsClass_importedBase
  exact ⟨hnonempty, wellFormed_importedBase, importer, home, e, c, h,
    imported_class_names_stand_for_files {} importedBase hnonempty wellFormed_importedBase h⟩

/-- In the method of the first file nothing nearby has the name of the imported class. -/
theorem unshadowed_importedBase :
    (Tables.ofFiles importedBase).linkImports.Unshadowed {} 0 (some 1) "B" := by
  have hconsistent := Tables.linkImports_consistent
    (Tables.ofFiles_consistent _ wellFormed_importedBase) (Tables.ofFiles_written _)
  generalize htables : (Tables.ofFiles importedBase).linkImports = tables at hconsistent ⊢
  rw [ofFiles_importedBase] at htables
  have hparents : tables.parentAt 1 = some (some 0) ∧ tables.parentAt 0 = some none := by
    rw [← htables]
    decide
  have hmembers : tables.childNamed? 1 "B" = none ∧ tables.childNamed? 0 "B" = none := by
    rw [← htables]
    decide
  have hlevel : ∀ s ∈ tables.symbols.toList, s.name = "B" → tables.atLevel 0 s = false := by
    rw [← htables]
    decide +kernel
  have hbases : tables.baseClasses 0 = [] ∧ tables.isClass 1 = false := by
    rw [← htables]
    decide +kernel
  have hinherited : tables.inherited? {} 0 "B" = none := by
    rw [Tables.inherited?, if_pos rfl, Tables.ancestors, hbases.1, preorder]
    rfl
  refine ⟨[1, 0], .step hparents.1 (.step hparents.2 .done), ?_, hlevel⟩
  intro scope hscope
  simp only [List.mem_cons, List.not_mem_nil, or_false] at hscope
  rcases hscope with rfl | rfl
  · refine ⟨(Tables.childNamed?_eq_none_iff hconsistent.symbols).mp hmembers.1, fun hclass => ?_⟩
    simp [hbases.2] at hclass
  · exact ⟨(Tables.childNamed?_eq_none_iff hconsistent.symbols).mp hmembers.2, fun _ => hinherited⟩

/-- The imported class has an initializer and the called member, yet neither call has a target, and
the class that extends it has no base class. -/
theorem imported_base_is_missed :
    (∃ importer home e c, (Tables.ofFiles importedBase).ImportsClass importer home ["util"] e c ∧
      importer.id = 0 ∧ home.id = 1 ∧ c.id = 2 ∧ c.name = "B") ∧
    (Tables.ofFiles importedBase).linkImports.Unshadowed {} 0 (some 1) "B" ∧
    (Tables.ofFiles importedBase).childNamed? 2 "B" = some 3 ∧
    (Tables.ofFiles importedBase).childNamed? 2 "stat" = some 4 ∧
    (Tables.ofFiles importedBase).symbols[0]?.map (·.bases) = some ["B"] ∧
    (Tables.ofFiles importedBase).linkImports.baseClasses 0 = [] ∧
    ∃ graph, resolveFacts {} importedBase = .ok graph ∧
      (∃ call ∈ graph.records.calls, call.kind = .constructor ∧ call.callee = "B" ∧
        call.caller = some 1 ∧ call.target = .unresolved) ∧
      ∃ call ∈ graph.records.calls, call.kind = .static ∧ call.callee = "B.stat" ∧
        call.caller = some 1 ∧ call.target = .unresolved := by
  refine ⟨importsClass_importedBase, unshadowed_importedBase, ?_, ?_, ?_, ?_,
    _, (completedRun_of_ne_nil {} (List.cons_ne_nil _ _)).resolves, ?_⟩
  iterate 4
    rw [ofFiles_importedBase]
    decide +kernel
  have hcalls : (∃ call ∈ (Tables.ofFiles importedBase).calls, call.module = 0 ∧
        call.kind = .constructor ∧ call.callee = "B" ∧ call.caller = some 1) ∧
      ∃ call ∈ (Tables.ofFiles importedBase).calls, call.module = 0 ∧ call.kind = .method ∧
        call.receiver = some "B" ∧ call.name = "stat" ∧ call.callee = "B.stat" ∧
        call.caller = some 1 ∧
        (Tables.ofFiles importedBase).linkImports.isOwnReceiver call.caller "B" = false := by
    rw [ofFiles_importedBase]
    decide +kernel
  obtain ⟨⟨first, hfirst, hmodule, hkind, hcallee, hcaller⟩,
    second, hsecond, hmodule', hkind', hreceiver, hname, hcallee', hcaller', hown⟩ := hcalls
  obtain ⟨importer, home, e, c, h, himporter, _, _, hclass⟩ := importsClass_importedBase
  have hmisses : (Tables.ofFiles importedBase).MissesClass importer home e c {} _ :=
    h.missesClass (Tables.ofFiles_consistent _ wellFormed_importedBase) (Tables.ofFiles_written _)
  have hfree := unshadowed_importedBase
  rw [← himporter, ← hclass] at hfree
  constructor
  · exact ⟨_, hmisses.constructed first hfirst (by omega) hkind (hcallee.trans hclass.symm)
      (hcaller ▸ hfree), hkind, hcallee, hcaller, rfl⟩
  · have hthrough : (Tables.ofFiles importedBase).CallsThrough importer c {} second :=
      ⟨hsecond, by omega, hkind', by rw [hreceiver, hclass], hclass ▸ hown, hcaller' ▸ hfree⟩
    have hother : second.name ≠ c.name := by
      rw [hname, hclass]
      decide
    exact ⟨_, hmisses.selected second hthrough hother, rfl, hcallee', hcaller', rfl⟩

end CodeAtlas
