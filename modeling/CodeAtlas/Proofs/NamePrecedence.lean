import CodeAtlas.Proofs.InheritanceOrder

/-!
# What a bare name means

A bare name means the symbol that the nearest place offers: the scopes around it, innermost first,
each with what it declares and, if it is a class and declares nothing under the name, with what it
inherits; then the level of the module. Behind the declarations come the imports of the module,
where the first one that binds the name counts, whatever has become of it, and behind these the
builtins. `NameMeans` states each of these tiers by itself, together with what must be missing in
the tiers before it, and a look-up gives a meaning exactly when one of the tiers does.
-/

namespace CodeAtlas

/-- Does a symbol not stand behind another one, going by modules and then by identities? -/
def Symbol.NotAfter (s t : Symbol) : Prop :=
  s.module < t.module ∨ s.module = t.module ∧ s.id ≤ t.id

namespace Tables

/-! ### The tiers -/

section Tiers

variable (tables : Tables) (config : ResolutionConfig) (name : String)

/-- A scope has nothing under the name: it declares nothing, and as a class it inherits nothing. -/
structure Lacks (scope : Nat) : Prop where
  undeclared : ∀ t, ¬ tables.Declares scope name t
  uninherited : tables.isClass scope = true → tables.inherited? config scope name = none

/-- What a scope offers under the name: the first symbol that it declares, or, for a class that
declares none, the one that it inherits. -/
inductive Offers (scope t : Nat) : Prop
  | declared (hfirst : IsLeast {u | tables.Declares scope name u} t)
  | inherited (hundeclared : ∀ u, ¬ tables.Declares scope name u)
      (hclass : tables.isClass scope = true)
      (hinherited : tables.inherited? config scope name = some t)

/-- The first symbol with the name at the level of a module, which the files of a Go package
share. -/
def FirstAtLevel (module t : Nat) : Prop :=
  ∃ s, tables.symbols.toList[t]? = some s ∧ s.name = name ∧ tables.atLevel module s = true ∧
    ∀ other ∈ tables.symbols.toList, other.name = name → tables.atLevel module other = true →
      s.NotAfter other

/-- What the declarations around a place mean by the name, when these scopes are around it. -/
inductive FoundNearby (module : Nat) (chain : List Nat) (t : Nat) : Prop
  | inScope {inside outside : List Nat} {scope : Nat} (hchain : chain = inside ++ scope :: outside)
      (hinside : ∀ inner ∈ inside, tables.Lacks config name inner)
      (hoffers : tables.Offers config name scope t)
  | atLevel (hscopes : ∀ scope ∈ chain, tables.Lacks config name scope)
      (hfirst : tables.FirstAtLevel name module t)

/-- No declaration around a place has the name. -/
structure NothingNearby (module : Nat) (chain : List Nat) : Prop where
  scopes : ∀ scope ∈ chain, tables.Lacks config name scope
  level : ∀ s ∈ tables.symbols.toList, s.name = name → tables.atLevel module s = false

/-- An import of a module, written or derived, binds the name. -/
structure Imports (module : Nat) (e : ImportEdge) : Prop where
  listed : e ∈ tables.imports
  ofModule : e.module = module
  single : e.isWildcard = false
  bound : e.localName = name

/-- The first import of a module that binds the name. -/
structure FirstImport (module : Nat) (e : ImportEdge) : Prop
    extends tables.Imports name module e where
  first : ∀ other, tables.Imports name module other → e.id ≤ other.id

/-- Is the name a builtin of the module's language or of the configuration? -/
def IsBuiltin (module : Nat) : Prop :=
  (tables.grammar module).isBuiltin name = true ∨ name ∈ config.extraBuiltins

/-- What a bare name means in a module with these scopes around, tier by tier. -/
inductive NameMeans (module : Nat) (chain : List Nat) : Meaning → Prop
  | declared {t : Nat} (hfound : tables.FoundNearby config name module chain t) :
      NameMeans module chain (.symbol t)
  | importedSymbol {e : ImportEdge} {t : Nat}
      (hnone : tables.NothingNearby config name module chain)
      (hfirst : tables.FirstImport name module e) (hbinding : e.binding = some (.symbol t)) :
      NameMeans module chain (.symbol t)
  | importedModule {e : ImportEdge} {m : Nat}
      (hnone : tables.NothingNearby config name module chain)
      (hfirst : tables.FirstImport name module e) (hbinding : e.binding = some (.module m)) :
      NameMeans module chain (.module m)
  | external {e : ImportEdge} (hnone : tables.NothingNearby config name module chain)
      (hfirst : tables.FirstImport name module e) (hbinding : e.binding = none)
      (hstatus : e.status = .external) : NameMeans module chain (.external (tables.externalName e))
  /-- An import that was not found to bind anything hides a builtin all the same. -/
  | unbound {e : ImportEdge} (hnone : tables.NothingNearby config name module chain)
      (hfirst : tables.FirstImport name module e) (hbinding : e.binding = none)
      (hstatus : e.status ≠ .external) : NameMeans module chain .unknown
  | builtin (hnone : tables.NothingNearby config name module chain)
      (himports : ∀ e, ¬ tables.Imports name module e)
      (hbuiltin : tables.IsBuiltin config name module) : NameMeans module chain (.builtin name)
  | unknown (hnone : tables.NothingNearby config name module chain)
      (himports : ∀ e, ¬ tables.Imports name module e)
      (hbuiltin : ¬ tables.IsBuiltin config name module) : NameMeans module chain .unknown

end Tiers

/-! ### Declarations -/

section Declarations

variable {tables : Tables} {config : ResolutionConfig} {name : String}
variable (h : SymbolRecords tables.modules tables.symbols.toList)
include h

/-- A scope declares nothing under a name exactly when nothing is listed for it. -/
theorem childrenNamed_eq_nil_iff {scope : Nat} :
    tables.childrenNamed scope name = [] ↔ ∀ t, ¬ tables.Declares scope name t :=
  (enumerates_childrenNamed h scope name).eq_nil_iff

/-- A scope without hits lacks the name. -/
theorem scopeHits_eq_nil_iff {scope : Nat} :
    tables.scopeHits config name scope = [] ↔ tables.Lacks config name scope := by
  rw [scopeHits]
  split
  · rename_i hclass
    obtain ⟨hempty, hclass⟩ := Bool.and_eq_true_iff.mp hclass
    have hundeclared := (childrenNamed_eq_nil_iff h).mp (List.isEmpty_iff.mp hempty)
    rw [Option.toList_eq_nil_iff]
    exact ⟨fun hnone => ⟨hundeclared, fun _ => hnone⟩, fun hlacks => hlacks.uninherited hclass⟩
  · rename_i hclass
    rw [childrenNamed_eq_nil_iff h]
    refine ⟨fun hundeclared => ⟨hundeclared, fun hscope => ?_⟩, fun hlacks => hlacks.undeclared⟩
    have hempty := List.isEmpty_iff.mpr ((childrenNamed_eq_nil_iff h).mpr hundeclared)
    exact absurd (Bool.and_eq_true_iff.mpr ⟨hempty, hscope⟩) hclass

/-- The first hit of a scope is what it offers. -/
theorem head?_scopeHits_eq_some_iff {scope t : Nat} :
    (tables.scopeHits config name scope).head? = some t ↔
      tables.Offers config name scope t := by
  rw [scopeHits]
  split
  · rename_i hclass
    obtain ⟨hempty, hclass⟩ := Bool.and_eq_true_iff.mp hclass
    have hundeclared := (childrenNamed_eq_nil_iff h).mp (List.isEmpty_iff.mp hempty)
    rw [Option.head?_toList]
    refine ⟨fun hinherited => .inherited hundeclared hclass hinherited, fun hoffers => ?_⟩
    cases hoffers with
    | declared hfirst => exact absurd hfirst.1 (hundeclared t)
    | inherited _ _ hinherited => exact hinherited
  · rename_i hclass
    rw [(enumerates_childrenNamed h scope name).head?_eq_some_iff]
    refine ⟨fun hfirst => .declared hfirst, fun hoffers => ?_⟩
    cases hoffers with
    | declared hfirst => exact hfirst
    | inherited hundeclared hscope _ =>
      have hempty := List.isEmpty_iff.mpr ((childrenNamed_eq_nil_iff h).mpr hundeclared)
      exact absurd (Bool.and_eq_true_iff.mpr ⟨hempty, hscope⟩) hclass

/-- The level of a module lists its symbols module by module, and each module's in their order. -/
theorem topLevel_inOrder (module : Nat) :
    (tables.topLevel module).Pairwise fun a b => ∀ s t, tables.symbols.toList[a]? = some s →
      tables.symbols.toList[b]? = some t → s.NotAfter t := by
  have hlists : ∀ n ∈ tables.modules, n.symbols.Pairwise fun a b => ∀ s t,
      tables.symbols.toList[a]? = some s → tables.symbols.toList[b]? = some t →
        s.NotAfter t := by
    intro n hn
    have hlisted := h.topLevels n.id n (h.modulesNumbered.getElem?_of_mem hn)
    refine hlisted.increasing.imp_of_mem fun {a b} ha hb hless s t hs ht => ?_
    obtain ⟨s', hs', hmodule, _⟩ := (hlisted.mem_iff a).mp ha
    obtain ⟨t', ht', hmodule', _⟩ := (hlisted.mem_iff b).mp hb
    obtain rfl := Option.some.inj (hs.symm.trans hs')
    obtain rfl := Option.some.inj (ht.symm.trans ht')
    refine .inr ⟨hmodule.trans hmodule'.symm, ?_⟩
    rw [h.symbolsNumbered a s hs, h.symbolsNumbered b t ht]
    exact hless.le
  rw [topLevel]
  split
  · exact .nil
  · rename_i m hm
    split
    · refine List.pairwise_flatMap.mpr ⟨fun n hn => hlists n (List.mem_filter.mp hn).1, ?_⟩
      refine (h.modulesNumbered.increasing.sublist List.filter_sublist).imp_of_mem ?_
      intro n k hn hk hless a ha b hb s t hs ht
      obtain ⟨s', hs', hmodule, _⟩ := (mem_symbols_iff h (List.mem_filter.mp hn).1).mp ha
      obtain ⟨t', ht', hmodule', _⟩ := (mem_symbols_iff h (List.mem_filter.mp hk).1).mp hb
      obtain rfl := Option.some.inj (hs.symm.trans hs')
      obtain rfl := Option.some.inj (ht.symm.trans ht')
      rw [Symbol.NotAfter, hmodule, hmodule']
      exact .inl hless
    · exact hlists m (List.mem_of_getElem? hm)

/-- The first hit at the level of a module is the first symbol with the name there. -/
theorem head?_topLevelNamed_eq_some_iff {module t : Nat} :
    (tables.topLevelNamed module name).head? = some t ↔ tables.FirstAtLevel name module t := by
  have hfirstOf {first : Nat} (hfirst : (tables.topLevelNamed module name).head? = some first) :
      tables.FirstAtLevel name module first := by
    obtain ⟨rest, hlist⟩ := List.head?_eq_some_iff.mp hfirst
    obtain ⟨s, hs, hname, hlevel⟩ :=
      (mem_topLevelNamed_iff h).mp (List.mem_of_mem_head? hfirst)
    refine ⟨s, hs, hname, hlevel, fun other hother hname' hlevel' => ?_⟩
    have hget := h.symbolsNumbered.getElem?_of_mem hother
    have hmem : other.id ∈ tables.topLevelNamed module name :=
      (mem_topLevelNamed_iff h).mpr ⟨other, hget, hname', hlevel'⟩
    have horder := (topLevel_inOrder h module).filter (tables.isNamed name)
    rw [show (tables.topLevel module).filter (tables.isNamed name) = first :: rest from hlist]
      at horder
    rw [hlist] at hmem
    rcases List.mem_cons.mp hmem with hsame | hrest
    · rw [hsame] at hget
      obtain rfl := Option.some.inj (hs.symm.trans hget)
      exact .inr ⟨rfl, le_rfl⟩
    · exact List.rel_of_pairwise_cons horder hrest s other hs hget
  refine ⟨hfirstOf, fun hfirst => ?_⟩
  obtain ⟨s, hs, hname, hlevel, hbefore⟩ := hfirst
  cases hhead : (tables.topLevelNamed module name).head? with
  | none =>
    have hmem := (mem_topLevelNamed_iff h).mpr ⟨s, hs, hname, hlevel⟩
    rw [List.head?_eq_none_iff.mp hhead] at hmem
    cases hmem
  | some first =>
    -- Neither symbol stands behind the other one, so they are the same.
    obtain ⟨s', hs', hname', hlevel', hbefore'⟩ := hfirstOf hhead
    have hle := hbefore s' (List.mem_of_getElem? hs') hname' hlevel'
    have hge := hbefore' s (List.mem_of_getElem? hs) hname hlevel
    rw [Symbol.NotAfter, h.symbolsNumbered t s hs, h.symbolsNumbered first s' hs'] at hle hge
    congr 1
    omega

/-- Nothing is listed at the level of a module exactly when no symbol there has the name. -/
theorem topLevelNamed_eq_nil_iff {module : Nat} :
    tables.topLevelNamed module name = [] ↔
      ∀ s ∈ tables.symbols.toList, s.name = name → tables.atLevel module s = false := by
  rw [List.eq_nil_iff_forall_not_mem]
  constructor
  · intro hnone s hs hname
    rw [Bool.eq_false_iff]
    intro hlevel
    exact hnone s.id ((mem_topLevelNamed_iff h).mpr
      ⟨s, h.symbolsNumbered.getElem?_of_mem hs, hname, hlevel⟩)
  · intro hnone id hid
    obtain ⟨s, hs, hname, hlevel⟩ := (mem_topLevelNamed_iff h).mp hid
    rw [hnone s (List.mem_of_getElem? hs) hname] at hlevel
    cases hlevel

/-- Going outwards finds what the declarations around a place mean. -/
theorem head?_hitsAlong_eq_some_iff {module t : Nat} {chain : List Nat} :
    (tables.hitsAlong config module name chain).head? = some t ↔
      tables.FoundNearby config name module chain t := by
  induction chain with
  | nil =>
    rw [hitsAlong, head?_topLevelNamed_eq_some_iff h]
    refine ⟨fun hfirst => .atLevel (by simp) hfirst, fun hfound => ?_⟩
    cases hfound with
    | inScope hchain _ _ => simp at hchain
    | atLevel _ hfirst => exact hfirst
  | cons scope rest ih =>
    rw [hitsAlong]
    split
    · rename_i hnone
      have hlacks := (scopeHits_eq_nil_iff h).mp hnone
      rw [ih]
      constructor
      · intro hfound
        cases hfound with
        | @inScope inside outside nearest hchain hinside hoffers =>
          have hlonger : scope :: rest = (scope :: inside) ++ nearest :: outside := by
            rw [hchain, List.cons_append]
          exact .inScope hlonger (List.forall_mem_cons.mpr ⟨hlacks, hinside⟩) hoffers
        | atLevel hscopes hfirst =>
          exact .atLevel (List.forall_mem_cons.mpr ⟨hlacks, hscopes⟩) hfirst
      · intro hfound
        cases hfound with
        | @inScope inside outside nearest hchain hinside hoffers =>
          cases inside with
          | nil =>
            -- The scope lacks the name, so it is not the one that offers it.
            obtain ⟨rfl, rfl⟩ := List.cons.inj hchain
            have hhit := (head?_scopeHits_eq_some_iff h).mpr hoffers
            rw [hnone] at hhit
            cases hhit
          | cons inner inside =>
            obtain ⟨rfl, rfl⟩ := List.cons.inj hchain
            exact .inScope rfl (List.forall_mem_cons.mp hinside).2 hoffers
        | atLevel hscopes hfirst => exact .atLevel (List.forall_mem_cons.mp hscopes).2 hfirst
    · rename_i hsome
      rw [head?_scopeHits_eq_some_iff h]
      constructor
      · intro hoffers
        exact .inScope (List.nil_append _).symm (by simp) hoffers
      · intro hfound
        cases hfound with
        | @inScope inside outside nearest hchain hinside hoffers =>
          cases inside with
          | nil =>
            obtain ⟨rfl, rfl⟩ := List.cons.inj hchain
            exact hoffers
          | cons inner inside =>
            obtain ⟨rfl, rfl⟩ := List.cons.inj hchain
            exact absurd ((scopeHits_eq_nil_iff h).mpr (hinside scope List.mem_cons_self)) hsome
        | atLevel hscopes _ =>
          exact absurd ((scopeHits_eq_nil_iff h).mpr (hscopes scope List.mem_cons_self)) hsome

/-- Going outwards finds nothing exactly when no declaration around a place has the name. -/
theorem hitsAlong_eq_nil_iff {module : Nat} {chain : List Nat} :
    tables.hitsAlong config module name chain = [] ↔
      tables.NothingNearby config name module chain := by
  induction chain with
  | nil =>
    rw [hitsAlong, topLevelNamed_eq_nil_iff h]
    exact ⟨fun hlevel => ⟨by simp, hlevel⟩, fun hnone => hnone.level⟩
  | cons scope rest ih =>
    rw [hitsAlong]
    split
    · rename_i hnone
      rw [ih]
      constructor
      · intro hrest
        have hlacks := (scopeHits_eq_nil_iff h).mp hnone
        exact ⟨List.forall_mem_cons.mpr ⟨hlacks, hrest.scopes⟩, hrest.level⟩
      · intro hall
        exact ⟨(List.forall_mem_cons.mp hall.scopes).2, hall.level⟩
    · rename_i hsome
      refine ⟨fun hnone => absurd hnone hsome, fun hall => ?_⟩
      exact absurd ((scopeHits_eq_nil_iff h).mpr (hall.scopes scope List.mem_cons_self)) hsome

end Declarations

/-! ### Imports and builtins -/

section Imports

variable {tables : Tables} {config : ResolutionConfig} {name : String} {module : Nat}

/-- The imports that are searched for an alias are those that bind the name. -/
theorem imports_iff {e : ImportEdge} :
    tables.Imports name module e ↔
      e ∈ tables.imports ∧ (e.module == module && !e.isWildcard && e.localName == name) = true := by
  simp only [Bool.and_eq_true, beq_iff_eq, Bool.not_eq_true']
  constructor
  · rintro ⟨hlisted, hmodule, hsingle, hbound⟩
    exact ⟨hlisted, ⟨hmodule, hsingle⟩, hbound⟩
  · rintro ⟨hlisted, ⟨hmodule, hsingle⟩, hbound⟩
    exact ⟨hlisted, hmodule, hsingle, hbound⟩

/-- No import is found for an alias exactly when none binds the name. -/
theorem aliasEdge?_eq_none_iff :
    tables.aliasEdge? module name = none ↔ ∀ e, ¬ tables.Imports name module e := by
  rw [aliasEdge?, List.find?_eq_none]
  simp only [imports_iff, not_and]

/-- The import that is found for an alias is the first one that binds the name. -/
theorem aliasEdge?_eq_some_iff (hnumbered : Numbered ImportEdge.id tables.imports)
    {e : ImportEdge} :
    tables.aliasEdge? module name = some e ↔ tables.FirstImport name module e := by
  rw [aliasEdge?, hnumbered.find?_eq_some_iff]
  constructor
  · rintro ⟨hlisted, hbinds, hfirst⟩
    refine ⟨imports_iff.mpr ⟨hlisted, hbinds⟩, fun other hother => ?_⟩
    obtain ⟨hlisted', hbinds'⟩ := imports_iff.mp hother
    exact hfirst other hlisted' hbinds'
  · rintro ⟨himports, hfirst⟩
    obtain ⟨hlisted, hbinds⟩ := imports_iff.mp himports
    exact ⟨hlisted, hbinds, fun other hlisted' hbinds' =>
      hfirst other (imports_iff.mpr ⟨hlisted', hbinds'⟩)⟩

/-- The names that count as builtins are those of the language and of the configuration. -/
theorem isBuiltin_iff :
    tables.isBuiltin config module name = true ↔ tables.IsBuiltin config name module := by
  rw [isBuiltin, Bool.or_eq_true, List.contains_iff_mem]
  exact Iff.rfl

end Imports

/-! ### Looking a name up -/

section Lookup

variable {tables : Tables} {config : ResolutionConfig} {name : String} {module : Nat}
variable {caller : Option Nat} {chain : List Nat}

/-- The symbol that is found by declarations is the first hit on the way outwards. -/
theorem lookupLocal_fst (hchain : Climb tables.parentAt caller chain) :
    (tables.lookupLocal config module caller name).1 =
      (tables.hitsAlong config module name chain).head? := by
  rw [← scopeChain_eq_of_climb hchain, ← localHits_eq_hitsAlong]
  rfl

/-- A name that a declaration around it has means that symbol. -/
theorem lookupName_of_local {t : Nat}
    (hlocal : (tables.lookupLocal config module caller name).1 = some t) :
    (tables.lookupName config module caller name).1 = .symbol t := by
  simp [lookupName, hlocal]

/-- A name that only an import binds means what the import stands for. -/
theorem lookupName_of_alias {e : ImportEdge}
    (hlocal : (tables.lookupLocal config module caller name).1 = none)
    (halias : tables.aliasEdge? module name = some e) :
    (tables.lookupName config module caller name).1 = tables.meaningOf e := by
  simp [lookupName, hlocal, aliasMeaning?, halias]

/-- A name that nothing binds is a builtin or unknown. -/
theorem lookupName_of_unbound (hlocal : (tables.lookupLocal config module caller name).1 = none)
    (halias : tables.aliasEdge? module name = none) :
    (tables.lookupName config module caller name).1 =
      if tables.isBuiltin config module name then .builtin name else .unknown := by
  simp [lookupName, hlocal, aliasMeaning?, halias]

variable (h : tables.records.Consistent) (hchain : Climb tables.parentAt caller chain)
include h hchain

/-- Declarations give nothing for a name exactly when none around the place has it. -/
theorem lookupLocal_eq_none_iff :
    (tables.lookupLocal config module caller name).1 = none ↔
      tables.NothingNearby config name module chain := by
  rw [lookupLocal_fst hchain, List.head?_eq_none_iff, hitsAlong_eq_nil_iff h.symbols]

/-- Declarations give what the nearest place offers. -/
theorem lookupLocal_eq_some_iff {t : Nat} :
    (tables.lookupLocal config module caller name).1 = some t ↔
      tables.FoundNearby config name module chain t := by
  rw [lookupLocal_fst hchain, head?_hitsAlong_eq_some_iff h.symbols]

/-- What a look-up gives is a meaning by one of the tiers. -/
theorem nameMeans_lookupName :
    tables.NameMeans config name module chain
      (tables.lookupName config module caller name).1 := by
  cases hlocal : (tables.lookupLocal config module caller name).1 with
  | some t =>
    rw [lookupName_of_local hlocal]
    exact .declared ((lookupLocal_eq_some_iff h hchain).mp hlocal)
  | none =>
    have hnone := (lookupLocal_eq_none_iff h hchain).mp hlocal
    cases halias : tables.aliasEdge? module name with
    | some e =>
      have hfirst := (aliasEdge?_eq_some_iff h.imports.numbered).mp halias
      rw [lookupName_of_alias hlocal halias, meaningOf]
      split
      · exact .importedSymbol hnone hfirst ‹_›
      · exact .importedModule hnone hfirst ‹_›
      · exact .external hnone hfirst ‹_› ‹_›
      · rename_i hbinding hstatus
        exact .unbound hnone hfirst hbinding hstatus
    | none =>
      have himports := aliasEdge?_eq_none_iff.mp halias
      rw [lookupName_of_unbound hlocal halias]
      split
      · exact .builtin hnone himports (isBuiltin_iff.mp ‹_›)
      · exact .unknown hnone himports (mt isBuiltin_iff.mpr ‹_›)

/-- A meaning by one of the tiers is what a look-up gives. -/
theorem NameMeans.lookupName_eq {meaning : Meaning}
    (hmeans : tables.NameMeans config name module chain meaning) :
    (tables.lookupName config module caller name).1 = meaning := by
  have hlocal (hnone : tables.NothingNearby config name module chain) :=
    (lookupLocal_eq_none_iff h hchain).mpr hnone
  have halias {e : ImportEdge} (hfirst : tables.FirstImport name module e) :=
    (aliasEdge?_eq_some_iff h.imports.numbered).mpr hfirst
  cases hmeans with
  | declared hfound => exact lookupName_of_local ((lookupLocal_eq_some_iff h hchain).mpr hfound)
  | importedSymbol hnone hfirst hbinding =>
    rw [lookupName_of_alias (hlocal hnone) (halias hfirst), meaningOf, hbinding]
  | importedModule hnone hfirst hbinding =>
    rw [lookupName_of_alias (hlocal hnone) (halias hfirst), meaningOf, hbinding]
  | external hnone hfirst hbinding hstatus =>
    rw [lookupName_of_alias (hlocal hnone) (halias hfirst), meaningOf, hbinding, hstatus]
  | @unbound e hnone hfirst hbinding hstatus =>
    rw [lookupName_of_alias (hlocal hnone) (halias hfirst), meaningOf, hbinding]
    cases hcases : e.status <;> simp_all
  | builtin hnone himports hbuiltin =>
    rw [lookupName_of_unbound (hlocal hnone) (aliasEdge?_eq_none_iff.mpr himports),
      if_pos (isBuiltin_iff.mpr hbuiltin)]
  | unknown hnone himports hbuiltin =>
    rw [lookupName_of_unbound (hlocal hnone) (aliasEdge?_eq_none_iff.mpr himports),
      if_neg (mt isBuiltin_iff.mp hbuiltin)]

end Lookup

end Tables

/-- In consistent tables whose parent links end, a bare name means what the first tier with the name
gives: the nearest scope, the level of the module, the first import that binds it, or the builtins.
-/
theorem bare_names_mean_the_nearest_declaration {tables : Tables}
    (h : tables.records.Consistent) (hclimbs : tables.Climbs)
    (config : ResolutionConfig) (module : Nat) (caller : Option Nat)
    (hcaller : ∀ id, caller = some id → id < tables.symbols.size) (name : String) :
    ∃ chain, Climb tables.parentAt caller chain ∧ ∀ meaning,
      (tables.lookupName config module caller name).1 = meaning ↔
        tables.NameMeans config name module chain meaning := by
  obtain ⟨chain, hchain⟩ : ∃ chain, Climb tables.parentAt caller chain := by
    cases caller with
    | none => exact ⟨[], .done⟩
    | some id => exact hclimbs id (hcaller id rfl)
  refine ⟨chain, hchain, fun meaning => ⟨?_, fun hmeans => hmeans.lookupName_eq h hchain⟩⟩
  rintro rfl
  exact Tables.nameMeans_lookupName h hchain

/-- A class inherits a member whose name a function of the module has as well. -/
def hiddenFunction : FileFacts where
  path := ⟨"shapes.py"⟩
  language := .python
  declarations :=
    [{ name := "area", kind := .function, parent := none, visibility := .exposed },
      { name := "Shape", kind := .classLike, parent := none, visibility := .exposed },
      { name := "area", kind := .method, parent := some 1, visibility := .exposed },
      { name := "Square", kind := .classLike, parent := none, visibility := .exposed
        bases := ["Shape"] },
      { name := "draw", kind := .method, parent := some 3, visibility := .exposed }]

/-- In the method the name means the inherited member, since the class around it is nearer than the
module. -/
theorem bare_names_mean_the_nearest_declaration_inherited :
    (Tables.ofFiles [hiddenFunction]).records.Consistent ∧
      (Tables.ofFiles [hiddenFunction]).Climbs ∧
      (∀ id, some 4 = some id → id < (Tables.ofFiles [hiddenFunction]).symbols.size) ∧
      (∃ chain, Climb (Tables.ofFiles [hiddenFunction]).parentAt (some 4) chain ∧ ∀ meaning,
        ((Tables.ofFiles [hiddenFunction]).lookupName {} 0 (some 4) "area").1 = meaning ↔
          (Tables.ofFiles [hiddenFunction]).NameMeans {} "area" 0 chain meaning) ∧
      ((Tables.ofFiles [hiddenFunction]).lookupName {} 0 (some 4) "area").1 = .symbol 2 := by
  have hfiles : ∀ file ∈ [hiddenFunction], file.WellFormed := by
    intro file hmem
    rw [List.mem_singleton.mp hmem]
    exact FileFacts.wellFormed_of_shallow (by simp [hiddenFunction, parentAt]) rfl
  have hconsistent := Tables.ofFiles_consistent _ hfiles
  have hclimbs := Tables.ofFiles_climbs _ hfiles
  generalize htables : Tables.ofFiles [hiddenFunction] = tables at hconsistent hclimbs ⊢
  rw [Tables.ofFiles_singleton] at htables
  have hcaller : ∀ id, some 4 = some id → id < tables.symbols.size := by
    rintro _ ⟨⟩
    rw [← htables]
    decide
  obtain ⟨chain, hclimb, hmeans⟩ :=
    bare_names_mean_the_nearest_declaration hconsistent hclimbs {} 0 (some 4) hcaller "area"
  refine ⟨hconsistent, hclimbs, hcaller, ⟨chain, hclimb, hmeans⟩, ?_⟩
  have hparents : tables.parentAt 4 = some (some 3) ∧ tables.parentAt 3 = some none := by
    rw [← htables]
    decide
  have hbases : tables.baseClasses 3 = [1] ∧ tables.baseClasses 1 = [] := by
    rw [← htables]
    decide +kernel
  have hmembers : tables.childNamed? 4 "area" = none ∧ tables.childNamed? 3 "area" = none ∧
      tables.childNamed? 1 "area" = some 2 := by
    rw [← htables]
    decide +kernel
  have hclasses : tables.isClass 4 = false ∧ tables.isClass 3 = true := by
    rw [← htables]
    decide
  obtain rfl : chain = [4] ++ 3 :: [] :=
    hclimb.unique (.step hparents.1 (.step hparents.2 .done))
  have hancestors : tables.ancestors 3 = 1 :: ([] ++ []) := by
    refine (tables.ancestors_depthFirst 3).unique ?_
    rw [hbases.1]
    refine .visit (by simp) ?_ .done
    rw [hbases.2]
    exact .done
  have hinherited : tables.inherited? {} 3 "area" = some 2 := by
    rw [Tables.inherited?, if_pos rfl, hancestors]
    simp [hmembers.2.2]
  refine (hmeans _).mpr (.declared (.inScope rfl ?_ (.inherited ?_ hclasses.2 hinherited)))
  · intro inner hinner
    rw [List.mem_singleton.mp hinner]
    refine ⟨(Tables.childNamed?_eq_none_iff hconsistent.symbols).mp hmembers.1, fun hclass => ?_⟩
    simp [hclasses.1] at hclass
  · exact (Tables.childNamed?_eq_none_iff hconsistent.symbols).mp hmembers.2.1

end CodeAtlas
