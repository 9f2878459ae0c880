import CodeAtlas.Proofs.Collection
import CodeAtlas.Proofs.Renumbering

/-!
# Looking names up in a part of a unit

The tables of a unit hold those of one of its ecosystems, under other numbers. Every look-up that
starts within the ecosystem gives the same answer in both, up to these numbers: modules are only
matched within an ecosystem, and the symbols, scopes, aliases and base classes of a module are
records of the ecosystem as well. So the judgement of an import or of a call is the same in both.
-/

namespace CodeAtlas

/-- A renumbering that respects successors carries a depth-first search over. -/
theorem preorder_map {up : Nat → Nat} (hinjective : Function.Injective up)
    {next next' : Nat → List Nat} (hnext : ∀ x, next' (up x) = (next x).map up)
    (fresh stack : List Nat) {fresh' : List Nat} (hfresh : fresh.Nodup) (hfresh' : fresh'.Nodup)
    (hsame : ∀ x, up x ∈ fresh' ↔ x ∈ fresh) :
    preorder next' fresh' (stack.map up) = (preorder next fresh stack).map up := by
  induction fresh, stack using preorder.induct next generalizing fresh' with
  | case1 fresh => simp [preorder]
  | case2 fresh x rest hx ih =>
    -- Only one occurrence is erased, so this needs lists without repetition.
    have herased : ∀ y, up y ∈ fresh'.erase (up x) ↔ y ∈ fresh.erase x := by
      intro y
      rw [hfresh'.mem_erase_iff, hfresh.mem_erase_iff, hsame, hinjective.ne_iff]
    have hrest := ih (hfresh.erase x) (hfresh'.erase (up x)) herased
    rw [List.map_append, ← hnext] at hrest
    rw [List.map_cons, preorder, if_pos ((hsame x).mpr hx), hrest, preorder, if_pos hx,
      List.map_cons]
  | case3 fresh x rest hx ih =>
    rw [List.map_cons, preorder, if_neg (mt (hsame x).mp hx), ih hfresh hfresh' hsame, preorder,
      if_neg hx]

namespace Tables

/-- Does a number belong to the ecosystem? Numbers without a module belong to each. -/
def within (tables : Tables) (eco : Ecosystem) (module : Nat) : Bool :=
  tables.modules[module]?.all fun m => m.language.ecosystem == eco

/-- Does the climb from a place end? -/
def ClimbEnds (tables : Tables) (place : Option Nat) : Prop :=
  ∃ chain, Climb tables.parentAt place chain

/-- The tables of a unit hold those of one of its ecosystems under other numbers. -/
structure Restricts (up : Renumbering) (eco : Ecosystem) (part whole : Tables) : Prop where
  modules : (whole.modules.filter fun m => m.language.ecosystem == eco) =
    part.modules.map (Module.renumber up)
  moduleAt : ∀ i, whole.modules[up.onModules i]? = part.modules[i]?.map (Module.renumber up)
  symbolAt : ∀ i, whole.symbols[up.onSymbols i]? = part.symbols[i]?.map (Symbol.renumber up)
  receiverAt : ∀ i, whole.receiverNames[up.onSymbols i]? = part.receiverNames[i]?
  imports : (whole.imports.filter fun e => whole.within eco e.module) =
    part.imports.map (ImportEdge.renumber up)
  climbs : part.Climbs

namespace Restricts

variable {up : Renumbering} {eco : Ecosystem} {part whole : Tables}
  (h : Restricts up eco part whole)
include h

/-! ### Modules -/

/-- The modules of the part are in the ecosystem. -/
theorem ecosystem_of_mem {m : Module} (hm : m ∈ part.modules) : m.language.ecosystem = eco := by
  have hmem : m.renumber up ∈ whole.modules.filter fun m => m.language.ecosystem == eco := by
    rw [h.modules]
    exact List.mem_map_of_mem hm
  simpa [Module.renumber] using (List.mem_filter.mp hmem).2

/-- Renumbered modules are in the ecosystem. -/
theorem within_up (m : Nat) : whole.within eco (up.onModules m) = true := by
  rw [within, h.moduleAt]
  cases hm : part.modules[m]? with
  | none => rfl
  | some found => simpa [Module.renumber] using h.ecosystem_of_mem (List.mem_of_getElem? hm)

/-- The grammar of a module is the same in both. -/
theorem grammar (m : Nat) : whole.grammar (up.onModules m) = part.grammar m := by
  rw [Tables.grammar, Tables.grammar, h.moduleAt]
  cases part.modules[m]? <;> rfl

/-- The separator of a module is the same in both. -/
theorem separator (m : Nat) : whole.separator (up.onModules m) = part.separator m := by
  rw [Tables.separator, Tables.separator, h.grammar]

/-- Modules are only looked for within an ecosystem. -/
theorem modulesWhere {lang : Language} (hlang : lang.ecosystem = eco) (p : List String → Bool) :
    whole.modulesWhere lang p = (part.modulesWhere lang p).map (Module.renumber up) := by
  have hshares : ∀ m : Module, m.language.sharesModulesWith lang = (m.language.ecosystem == eco) :=
    fun m => by rw [Language.sharesModulesWith, hlang]
  have hwhole : whole.modulesWhere lang p =
      (whole.modules.filter fun m => m.language.ecosystem == eco).filter fun m => p m.key := by
    rw [Tables.modulesWhere, List.filter_filter]
    exact List.filter_congr fun m _ => by rw [hshares, Bool.and_comm]
  have hpart : part.modulesWhere lang p = part.modules.filter fun m => p m.key := by
    refine List.filter_congr fun m hm => ?_
    rw [hshares, h.ecosystem_of_mem hm, beq_self_eq_true, Bool.true_and]
  rw [hwhole, hpart, h.modules, List.filter_map]
  rfl

/-- The first module with a key is the same in both. -/
theorem moduleAt? {lang : Language} (hlang : lang.ecosystem = eco) (key : List String) :
    whole.moduleAt? lang key = (part.moduleAt? lang key).map up.onModules := by
  simp only [Tables.moduleAt?, h.modulesWhere hlang, List.head?_map, Option.map_map]
  rfl

/-- Submodules are the same in both. -/
theorem submodule? (m : Nat) (name : String) :
    whole.submodule? (up.onModules m) name = (part.submodule? m name).map up.onModules := by
  rw [Tables.submodule?, Tables.submodule?, h.moduleAt]
  cases hm : part.modules[m]? with
  | none => rfl
  | some found => exact h.moduleAt? (h.ecosystem_of_mem (List.mem_of_getElem? hm)) _

/-- The level of a module is the same in both. -/
theorem topLevel (m : Nat) :
    whole.topLevel (up.onModules m) = (part.topLevel m).map up.onSymbols := by
  rw [Tables.topLevel, Tables.topLevel, h.moduleAt]
  cases hm : part.modules[m]? with
  | none => rfl
  | some found =>
    have heco := h.ecosystem_of_mem (List.mem_of_getElem? hm)
    change (if found.language = .go then _ else _) = List.map _ (if found.language = .go then _ else _)
    by_cases hgo : found.language = .go
    · rw [if_pos hgo, if_pos hgo]
      rw [hgo] at heco
      -- Go files are the only ones of their ecosystem.
      have hwhole : (whole.modules.filter fun n => n.language == .go && n.key == found.key) =
          (whole.modules.filter fun m => m.language.ecosystem == eco).filter
            fun n => n.language == .go && n.key == found.key := by
        rw [List.filter_filter]
        refine List.filter_congr fun n _ => ?_
        cases hn : n.language == Language.go with
        | false => simp
        | true => simp [beq_iff_eq.mp hn, heco]
      change List.flatMap _ (whole.modules.filter fun n => n.language == .go && n.key == found.key) = _
      rw [hwhole, h.modules, List.filter_map, List.flatMap_map, List.map_flatMap]
      rfl
    · rw [if_neg hgo, if_neg hgo]
      rfl

/-! ### Symbols -/

/-- The classes are the same in both. -/
theorem isClass (id : Nat) : whole.isClass (up.onSymbols id) = part.isClass id := by
  rw [Tables.isClass, Tables.isClass, h.symbolAt]
  cases part.symbols[id]? <;> rfl

/-- The names of symbols are the same in both. -/
theorem isNamed (name : String) (id : Nat) :
    whole.isNamed name (up.onSymbols id) = part.isNamed name id := by
  rw [Tables.isNamed, Tables.isNamed, h.symbolAt]
  cases part.symbols[id]? <;> rfl

/-- The functions and methods are the same in both. -/
theorem isCallable (id : Nat) : whole.isCallable (up.onSymbols id) = part.isCallable id := by
  rw [Tables.isCallable, Tables.isCallable, h.symbolAt]
  cases part.symbols[id]? <;> rfl

/-- The children of a symbol are the same in both. -/
theorem children (id : Nat) :
    whole.symbols[up.onSymbols id]?.elim [] (·.children) =
      (part.symbols[id]?.elim [] (·.children)).map up.onSymbols := by
  rw [h.symbolAt]
  cases part.symbols[id]? <;> rfl

/-- Renumbering goes along with choosing symbols by name. -/
theorem filter_isNamed (name : String) (ids : List Nat) :
    (ids.map up.onSymbols).filter (whole.isNamed name) =
      (ids.filter (part.isNamed name)).map up.onSymbols := by
  rw [List.filter_map]
  exact congrArg _ (List.filter_congr fun id _ => h.isNamed name id)

/-- Named symbols at the level of a module are the same in both. -/
theorem topLevelNamed (m : Nat) (name : String) :
    whole.topLevelNamed (up.onModules m) name = (part.topLevelNamed m name).map up.onSymbols := by
  rw [Tables.topLevelNamed, h.topLevel, h.filter_isNamed]
  rfl

/-- Named children are the same in both. -/
theorem childrenNamed (id : Nat) (name : String) :
    whole.childrenNamed (up.onSymbols id) name = (part.childrenNamed id name).map up.onSymbols := by
  rw [Tables.childrenNamed, h.children, h.filter_isNamed]
  rfl

/-- The first child with a name is the same in both. -/
theorem childNamed? (id : Nat) (name : String) :
    whole.childNamed? (up.onSymbols id) name = (part.childNamed? id name).map up.onSymbols := by
  rw [Tables.childNamed?, ← List.head?_filter, h.children, h.filter_isNamed, List.head?_map,
    List.head?_filter]
  rfl

/-! ### Scopes -/

/-- The scopes around a place are the same in both. -/
theorem scopeChain {caller : Option Nat} (hcaller : part.ClimbEnds caller) :
    whole.scopeChain (caller.map up.onSymbols) = (part.scopeChain caller).map up.onSymbols := by
  obtain ⟨chain, hclimb⟩ := hcaller
  have hlinks : ∀ i parent, part.parentAt i = some parent →
      whole.parentAt (up.onSymbols i) = some (parent.map up.onSymbols) := by
    intro i parent hparent
    obtain ⟨s, hs, rfl⟩ := Option.map_eq_some_iff.mp hparent
    rw [parentAt, h.symbolAt, hs]
    rfl
  rw [scopeChain_eq_of_climb hclimb, scopeChain_eq_of_climb (hclimb.map up.onSymbols hlinks)]

/-- The climb from a symbol goes on from its parent. -/
theorem climb_parent {id : Nat} {s : Symbol} (hs : part.symbols[id]? = some s) :
    part.ClimbEnds s.parent := by
  obtain ⟨chain, hclimb⟩ := h.climbs id (Array.getElem?_eq_some_iff.mp hs).1
  cases hclimb with
  | step hparent habove =>
    rw [parentAt, hs, Option.map_some] at hparent
    exact ⟨_, Option.some.inj hparent ▸ habove⟩

/-- The class around a place is the same in both. -/
theorem enclosingClass? {caller : Option Nat}
    (hcaller : part.ClimbEnds caller) :
    whole.enclosingClass? (caller.map up.onSymbols) =
      (part.enclosingClass? caller).map up.onSymbols := by
  rw [Tables.enclosingClass?, h.scopeChain hcaller, List.find?_map]
  exact congrArg _ (congrArg (List.find? · _) (funext h.isClass))

/-- The names of instances are the same in both. -/
theorem isOwnReceiver {caller : Option Nat} (hcaller : part.ClimbEnds caller)
    (receiver : String) :
    whole.isOwnReceiver (caller.map up.onSymbols) receiver = part.isOwnReceiver caller receiver := by
  rw [Tables.isOwnReceiver, h.scopeChain hcaller, List.any_map]
  exact congrArg (List.any _) (funext fun id => by simp [h.receiverAt])

/-! ### Aliases -/

/-- The import that binds an alias is the same in both. -/
theorem aliasEdge? (m : Nat) (localName : String) :
    whole.aliasEdge? (up.onModules m) localName =
      (part.aliasEdge? m localName).map (ImportEdge.renumber up) := by
  have hfind (imports : List ImportEdge) (p : ImportEdge → Bool)
      (hp : ∀ e, p e = true → whole.within eco e.module = true) :
      imports.find? p = (imports.filter fun e => whole.within eco e.module).find? p := by
    rw [List.find?_filter]
    refine congrArg (List.find? · _) (funext fun e => ?_)
    cases hpe : p e with
    | false => simp
    | true => simp [hp e hpe]
  rw [Tables.aliasEdge?, hfind _ _ ?_, h.imports, List.find?_map]
  · refine congrArg _ (congrArg (List.find? · _) (funext fun e => ?_))
    simp [ImportEdge.renumber, ImportEdge.isWildcard, up.onModules.injective.beq_eq]
  · intro e he
    simp only [Bool.and_eq_true, beq_iff_eq] at he
    rw [he.1.1]
    exact h.within_up m

/-- What an import stands for is the same in both. -/
theorem meaningOf (e : ImportEdge) :
    whole.meaningOf (e.renumber up) = (part.meaningOf e).renumber up := by
  have hname : whole.externalName (e.renumber up) = part.externalName e := by
    simp only [externalName, ImportEdge.renumber, h.separator]
  simp only [Tables.meaningOf, hname]
  simp only [ImportEdge.renumber]
  cases e.binding with
  | some binding => cases binding <;> rfl
  | none => cases e.status <;> rfl

/-- What an alias stands for is the same in both. -/
theorem aliasMeaning? (m : Nat) (localName : String) :
    whole.aliasMeaning? (up.onModules m) localName =
      (part.aliasMeaning? m localName).map (Meaning.renumber up) := by
  rw [Tables.aliasMeaning?, Tables.aliasMeaning?, h.aliasEdge?, Option.map_map, Option.map_map]
  exact congrArg (Option.map · _) (funext h.meaningOf)

/-- What the longest alias stands for is the same in both. -/
theorem longestAliasUpTo (m : Nat) (segments : List String) (length : Nat) :
    whole.longestAliasUpTo (up.onModules m) segments length =
      (part.longestAliasUpTo m segments length).map fun found => (found.1.renumber up, found.2) := by
  induction length with
  | zero => rfl
  | succ length ih =>
    simp only [Tables.longestAliasUpTo, h.separator, h.aliasMeaning?]
    cases part.aliasMeaning? m _ with
    | none => exact ih
    | some meaning => rfl

/-! ### Base classes -/

/-- What a segment after a module means is the same in both. -/
theorem memberOfModule (m : Nat) (segment : String) :
    whole.memberOfModule (up.onModules m) segment = (part.memberOfModule m segment).renumber up := by
  rw [Tables.memberOfModule, Tables.memberOfModule, h.submodule?, h.topLevelNamed, List.head?_map]
  cases part.submodule? m segment with
  | some sub => rfl
  | none => cases (part.topLevelNamed m segment).head? <;> rfl

/-- What a segment after a base class means is the same in both. -/
theorem baseStep (meaning : Meaning) (segment : String) :
    whole.baseStep (meaning.renumber up) segment = (part.baseStep meaning segment).renumber up := by
  cases meaning with
  | symbol id =>
    simp only [Tables.baseStep, Meaning.renumber, h.isClass, h.childNamed?]
    cases part.isClass id with
    | false => rfl
    | true => cases part.childNamed? id segment <;> rfl
  | module m => exact h.memberOfModule m segment
  | external name => rfl
  | builtin name => rfl
  | unknown => rfl

/-- The symbol that the name of a base class means is the same in both. -/
theorem baseNamed? (m : Nat) {scope : Option Nat} (hscope : part.ClimbEnds scope)
    (path : String) :
    whole.baseNamed? (up.onModules m) (scope.map up.onSymbols) path =
      (part.baseNamed? m scope path).map up.onSymbols := by
  have hfold (rest : List String) (meaning : Meaning) :
      rest.foldl whole.baseStep (meaning.renumber up) =
        (rest.foldl part.baseStep meaning).renumber up := by
    induction rest generalizing meaning with
    | nil => rfl
    | cons segment rest ih => rw [List.foldl_cons, List.foldl_cons, h.baseStep, ih]
  rw [Tables.baseNamed?, Tables.baseNamed?]
  cases hsegments : Text.segments path with
  | nil => rfl
  | cons first rest =>
    have hscopes : (whole.scopeChain (scope.map up.onSymbols)).findSome?
        (fun s => whole.childNamed? s first) =
          ((part.scopeChain scope).findSome? fun s => part.childNamed? s first).map up.onSymbols := by
      rw [h.scopeChain hscope, List.findSome?_map, List.map_findSome?]
      exact congrArg (List.findSome? · _) (funext fun s => h.childNamed? s first)
    have hlevel : (whole.topLevelNamed (up.onModules m) first).head? =
        (part.topLevelNamed m first).head?.map up.onSymbols := by
      rw [h.topLevelNamed, List.head?_map]
    simp only [hscopes, hlevel, longestAlias?, h.longestAliasUpTo, ← Option.map_or]
    generalize ((part.scopeChain scope).findSome? fun s => part.childNamed? s first).or
      (part.topLevelNamed m first).head? = declared
    generalize part.longestAliasUpTo m (first :: rest) (first :: rest).length = aliased
    -- The same start, declared or aliased, is followed along the same segments.
    cases declared with
    | some id =>
      have hfound : rest.foldl whole.baseStep (.symbol (up.onSymbols id)) = _ :=
        hfold rest (.symbol id)
      simp only [Option.map_some, Option.some_or, hfound]
      cases rest.foldl part.baseStep (.symbol id) <;> rfl
    | none =>
      cases aliased with
      | none => rfl
      | some found =>
        simp only [Option.map_none, Option.none_or, Option.map_some, hfold]
        cases found.2.foldl part.baseStep found.1 <;> rfl

/-- The base classes of a class are the same in both. -/
theorem baseClasses (id : Nat) :
    whole.baseClasses (up.onSymbols id) = (part.baseClasses id).map up.onSymbols := by
  rw [Tables.baseClasses, Tables.baseClasses, h.symbolAt]
  cases hs : part.symbols[id]? with
  | none => rfl
  | some s =>
    have hnamed : s.bases.filterMap
        (whole.baseNamed? (up.onModules s.module) (s.parent.map up.onSymbols)) =
          (s.bases.filterMap (part.baseNamed? s.module s.parent)).map up.onSymbols := by
      rw [List.map_filterMap]
      exact congrArg (List.filterMap · _) (funext (h.baseNamed? s.module (h.climb_parent hs)))
    change List.filter _ (s.bases.filterMap
      (whole.baseNamed? (up.onModules s.module) (s.parent.map up.onSymbols))) = _
    rw [hnamed, List.filter_map]
    refine congrArg _ (List.filter_congr fun base _ => ?_)
    simp [h.isClass, bne, up.onSymbols.injective.beq_eq]

/-- The symbols of the part are renumbered into the whole, and no others. -/
theorem lt_size_iff (id : Nat) : up.onSymbols id < whole.symbols.size ↔ id < part.symbols.size := by
  rw [← not_iff_not, Nat.not_lt, Nat.not_lt, ← Array.getElem?_eq_none_iff,
    ← Array.getElem?_eq_none_iff, h.symbolAt, Option.map_eq_none_iff]

/-- The classes from which a class inherits are the same in both. -/
theorem ancestors (id : Nat) :
    whole.ancestors (up.onSymbols id) = (part.ancestors id).map up.onSymbols := by
  have hfresh : ∀ x, up.onSymbols x ∈ (List.range whole.symbols.size).erase (up.onSymbols id) ↔
      x ∈ (List.range part.symbols.size).erase id := by
    intro x
    rw [List.nodup_range.mem_erase_iff, List.nodup_range.mem_erase_iff, List.mem_range,
      List.mem_range, h.lt_size_iff, up.onSymbols.injective.ne_iff]
  rw [Tables.ancestors, h.baseClasses]
  exact preorder_map up.onSymbols.injective h.baseClasses _ _ (List.nodup_range.erase _)
    (List.nodup_range.erase _) hfresh

/-! ### Members -/

variable (config : ResolutionConfig)

/-- Inherited members are the same in both. -/
theorem inherited? (id : Nat) (name : String) :
    whole.inherited? config (up.onSymbols id) name =
      (part.inherited? config id name).map up.onSymbols := by
  have hsearch : (whole.ancestors (up.onSymbols id)).findSome? (whole.childNamed? · name) =
      ((part.ancestors id).findSome? (part.childNamed? · name)).map up.onSymbols := by
    rw [h.ancestors, List.findSome?_map, List.map_findSome?]
    exact congrArg (List.findSome? · _) (funext fun ancestor => h.childNamed? ancestor name)
  rw [Tables.inherited?, Tables.inherited?, hsearch]
  cases config.walkBases <;> rfl

/-- Members are the same in both. -/
theorem member? (id : Nat) (name : String) :
    whole.member? config (up.onSymbols id) name =
      (part.member? config id name).map up.onSymbols := by
  rw [Tables.member?, Tables.member?, h.childNamed?, h.inherited?, Option.map_or]

/-- The initializer of a class is the same in both. -/
theorem initializer? (id : Nat) :
    whole.initializer? config (up.onSymbols id) =
      (part.initializer? config id).map up.onSymbols := by
  have hcallable (found : Option Nat) : (found.map up.onSymbols).filter whole.isCallable =
      (found.filter part.isCallable).map up.onSymbols := by
    cases found with
    | none => rfl
    | some id =>
      simp only [Option.map_some, Option.filter_some, h.isCallable]
      cases part.isCallable id <;> rfl
  rw [Tables.initializer?, Tables.initializer?, h.symbolAt]
  cases part.symbols[id]? with
  | none => rfl
  | some s =>
    have hnames : whole.initializerNames (s.renumber up) = part.initializerNames s := by
      simp only [initializerNames, Symbol.renumber, h.grammar]
    simp only [Option.map_some, Option.bind_some, hnames, h.member?, hcallable]
    rw [List.map_findSome?]
    rfl

/-- What constructing a class calls is the same in both. -/
theorem constructorTarget (id : Nat) :
    whole.constructorTarget config (up.onSymbols id) =
      (part.constructorTarget config id).renumber up := by
  rw [Tables.constructorTarget, Tables.constructorTarget, h.initializer?]
  cases part.initializer? config id <;> rfl

/-! ### Names -/

/-- What a scope offers is the same in both. -/
theorem scopeHits (name : String) (scope : Nat) :
    whole.scopeHits config name (up.onSymbols scope) =
      (part.scopeHits config name scope).map up.onSymbols := by
  simp only [Tables.scopeHits, h.childrenNamed, h.isClass, h.inherited?, List.isEmpty_map]
  split
  · cases part.inherited? config scope name <;> rfl
  · rfl

omit h in
/-- The first non-empty list is the same under other numbers. -/
theorem firstNonEmpty_map (lists : List (List Nat)) :
    firstNonEmpty (lists.map (List.map up.onSymbols)) = (firstNonEmpty lists).map up.onSymbols := by
  induction lists with
  | nil => rfl
  | cons hits rest ih =>
    simp only [List.map_cons, firstNonEmpty, List.isEmpty_map, ih]
    split <;> rfl

/-- The symbols that the nearest scope offers are the same in both. -/
theorem localHits (m : Nat) {caller : Option Nat}
    (hcaller : part.ClimbEnds caller) (name : String) :
    whole.localHits config (up.onModules m) (caller.map up.onSymbols) name =
      (part.localHits config m caller name).map up.onSymbols := by
  rw [Tables.localHits, Tables.localHits, ← firstNonEmpty_map, h.scopeChain hcaller,
    h.topLevelNamed, List.map_append, List.map_map, List.map_map]
  refine congrArg (fun hits => firstNonEmpty (hits ++ _)) (List.map_congr_left fun scope _ => ?_)
  exact h.scopeHits config name scope

/-- What a name means by declarations is the same in both. -/
theorem lookupLocal (m : Nat) {caller : Option Nat}
    (hcaller : part.ClimbEnds caller) (name : String) :
    whole.lookupLocal config (up.onModules m) (caller.map up.onSymbols) name =
      renumbered up (Option.map up.onSymbols) (part.lookupLocal config m caller name) := by
  simp only [Tables.lookupLocal, h.localHits config m hcaller, List.head?_map, List.length_map,
    renumbered]
  split <;> rfl

/-- The builtins of a module are the same in both. -/
theorem isBuiltin (m : Nat) (name : String) :
    whole.isBuiltin config (up.onModules m) name = part.isBuiltin config m name := by
  rw [Tables.isBuiltin, Tables.isBuiltin, h.grammar]

/-- What a bare name means is the same in both. -/
theorem lookupName (m : Nat) {caller : Option Nat}
    (hcaller : part.ClimbEnds caller) (name : String) :
    whole.lookupName config (up.onModules m) (caller.map up.onSymbols) name =
      renumbered up (Meaning.renumber up) (part.lookupName config m caller name) := by
  rw [Tables.lookupName, Tables.lookupName, h.lookupLocal config m hcaller, h.aliasMeaning?,
    h.isBuiltin]
  obtain ⟨found, doubts⟩ := part.lookupLocal config m caller name
  cases found with
  | some id => rfl
  | none =>
    cases part.aliasMeaning? m name with
    | some meaning => rfl
    | none => cases part.isBuiltin config m name <;> rfl

/-- What a segment after a meaning means is the same in both. -/
theorem pathStep (m : Nat) (meaning : Meaning) (segment : String) :
    whole.pathStep config (up.onModules m) (meaning.renumber up) segment =
      (part.pathStep config m meaning segment).renumber up := by
  cases meaning with
  | symbol id =>
    simp only [Tables.pathStep, Meaning.renumber, h.isClass, h.member?]
    cases part.isClass id with
    | false => rfl
    | true => cases part.member? config id segment <;> rfl
  | module n => exact h.memberOfModule n segment
  | external name => simp only [Tables.pathStep, Meaning.renumber, h.separator]
  | builtin name => rfl
  | unknown => rfl

/-- What a qualified name means is the same in both. -/
theorem lookupPath (m : Nat) {caller : Option Nat}
    (hcaller : part.ClimbEnds caller) (path : String) :
    whole.lookupPath config (up.onModules m) (caller.map up.onSymbols) path =
      renumbered up (Meaning.renumber up) (part.lookupPath config m caller path) := by
  have hfold (rest : List String) (meaning : Meaning) :
      rest.foldl (whole.pathStep config (up.onModules m)) (meaning.renumber up) =
        (rest.foldl (part.pathStep config m) meaning).renumber up := by
    induction rest generalizing meaning with
    | nil => rfl
    | cons segment rest ih => rw [List.foldl_cons, List.foldl_cons, h.pathStep, ih]
  rw [Tables.lookupPath, Tables.lookupPath]
  cases Text.segments path with
  | nil => rfl
  | cons first rest =>
    simp only [h.lookupLocal config m hcaller, longestAlias?, h.longestAliasUpTo, h.isBuiltin]
    generalize part.longestAliasUpTo m (first :: rest) (first :: rest).length = aliased
    obtain ⟨found, doubts⟩ := part.lookupLocal config m caller first
    split
    · rfl
    · cases found with
      | some id =>
        exact congrArg (·, doubts.map (Diagnostic.renumber up)) (hfold rest (.symbol id))
      | none =>
        cases aliased with
        | some start =>
          exact congrArg (·, doubts.map (Diagnostic.renumber up)) (hfold start.2 start.1)
        | none => cases part.isBuiltin config m first <;> rfl

/-! ### Calls -/

/-- Calling a class or another symbol comes to the same in both. -/
theorem called (id : Nat) (kind : CallKind) :
    (if whole.isClass (up.onSymbols id) then
        (CallKind.constructor, whole.constructorTarget config (up.onSymbols id))
      else (kind, CallTarget.symbol (up.onSymbols id))) =
    Linked.renumber up
      (if part.isClass id then (CallKind.constructor, part.constructorTarget config id)
        else (kind, CallTarget.symbol id)) := by
  rw [h.isClass, h.constructorTarget]
  cases part.isClass id <;> rfl

/-- A call without a receiver is linked alike in both. -/
theorem linkDirect (call : CallEdge) (hcaller : part.ClimbEnds call.caller) :
    whole.linkDirect config (call.renumber up) =
      renumbered up (Linked.renumber up) (part.linkDirect config call) := by
  have hname := h.lookupName config call.module hcaller call.callee
  simp only [Tables.linkDirect, CallEdge.renumber, hname]
  generalize part.lookupName config call.module call.caller call.callee = judged
  obtain ⟨meaning, doubts⟩ := judged
  cases meaning with
  | symbol id => exact congrArg (·, doubts.map (Diagnostic.renumber up)) (h.called config id call.kind)
  | module m => rfl
  | external name => rfl
  | builtin name => rfl
  | unknown => rfl

/-- A call of a name of a module is linked alike in both. -/
theorem linkInModule (m : Nat) (name : String) :
    whole.linkInModule config (up.onModules m) name =
      Linked.renumber up (part.linkInModule config m name) := by
  rw [Tables.linkInModule, Tables.linkInModule, h.topLevelNamed, List.head?_map]
  cases (part.topLevelNamed m name).head? with
  | none => rfl
  | some id => exact h.called config id .static

omit h in
/-- A target that may not have been found, under other numbers. -/
theorem targetOf_map (found : Option Nat) :
    targetOf (found.map up.onSymbols) = (targetOf found).renumber up := by
  cases found <;> rfl

/-- A call whose receiver has a meaning is linked alike in both. -/
theorem linkQualified (call : CallEdge) (meaning : Meaning) :
    whole.linkQualified config (call.renumber up) (meaning.renumber up) =
      Linked.renumber up (part.linkQualified config call meaning) := by
  have hbuiltin := h.isBuiltin config call.module call.callee
  cases meaning with
  | symbol id =>
    simp only [Tables.linkQualified, Meaning.renumber, CallEdge.renumber, h.isClass, h.member?,
      targetOf_map]
    cases part.isClass id <;> rfl
  | module m => exact h.linkInModule config m call.name
  | external name =>
    simp only [Tables.linkQualified, Meaning.renumber, CallEdge.renumber, h.separator,
      Linked.renumber, CallTarget.renumber]
  | builtin name =>
    simp only [Tables.linkQualified, Meaning.renumber, CallEdge.renumber, hbuiltin]
    cases part.isBuiltin config call.module call.callee <;> rfl
  | unknown =>
    simp only [Tables.linkQualified, Meaning.renumber, CallEdge.renumber, hbuiltin]
    cases part.isBuiltin config call.module call.callee <;> rfl

/-- A call with a receiver is linked alike in both. -/
theorem linkMember (call : CallEdge) (hcaller : part.ClimbEnds call.caller)
    (receiver : String) :
    whole.linkMember config (call.renumber up) receiver =
      renumbered up (Linked.renumber up) (part.linkMember config call receiver) := by
  have hgrammar : whole.grammar (call.renumber up).module = part.grammar call.module :=
    h.grammar call.module
  have henclosing : whole.enclosingClass? (call.renumber up).caller = _ := h.enclosingClass? hcaller
  have hown : whole.isOwnReceiver (call.renumber up).caller receiver = _ :=
    h.isOwnReceiver hcaller receiver
  have hpath : whole.lookupPath config (call.renumber up).module (call.renumber up).caller receiver =
    _ := h.lookupPath config call.module hcaller receiver
  have hname : (call.renumber up).name = call.name := rfl
  simp only [Tables.linkMember, hgrammar, henclosing, hown, hpath, hname]
  split
  · cases part.enclosingClass? call.caller with
    | none => rfl
    | some c => simp [renumbered, Linked.renumber, h.inherited?, targetOf_map]
  · split
    · cases part.enclosingClass? call.caller with
      | none => rfl
      | some c => simp [renumbered, Linked.renumber, h.member?, targetOf_map]
    · exact congrArg (·, _) (h.linkQualified config call _)

/-- A call with or without a receiver is linked alike in both. -/
theorem linkByReceiver (call : CallEdge) (hcaller : part.ClimbEnds call.caller) :
    whole.linkByReceiver config (call.renumber up) =
      renumbered up (Linked.renumber up) (part.linkByReceiver config call) := by
  have hreceiver : (call.renumber up).receiver = call.receiver := rfl
  rw [Tables.linkByReceiver, Tables.linkByReceiver, hreceiver]
  cases call.receiver with
  | none => exact h.linkDirect config call hcaller
  | some receiver => exact h.linkMember config call hcaller receiver

/-- A constructor call is linked alike in both. -/
theorem linkConstructor (call : CallEdge)
    (hcaller : part.ClimbEnds call.caller) :
    whole.linkConstructor config (call.renumber up) =
      renumbered up (CallTarget.renumber up) (part.linkConstructor config call) := by
  have hgrammar : whole.grammar (call.renumber up).module = part.grammar call.module :=
    h.grammar call.module
  have henclosing : whole.enclosingClass? (call.renumber up).caller = _ := h.enclosingClass? hcaller
  have hpath : whole.lookupPath config (call.renumber up).module (call.renumber up).caller
    call.callee = _ := h.lookupPath config call.module hcaller call.callee
  have hcallee : (call.renumber up).callee = call.callee := rfl
  have hconstructed (found : Option Nat) :
      (found.map up.onSymbols).elim .unresolved (whole.constructorTarget config) =
        (found.elim .unresolved (part.constructorTarget config)).renumber up := by
    cases found with
    | none => rfl
    | some id => exact h.constructorTarget config id
  simp only [Tables.linkConstructor, hgrammar, henclosing, hpath, hcallee]
  split
  · exact congrArg (·, []) (hconstructed _)
  · split
    · cases part.enclosingClass? call.caller with
      | none => rfl
      | some c =>
        simp only [Option.map_some, Option.bind_some, h.baseClasses, List.head?_map, hconstructed]
        rfl
    · generalize part.lookupPath config call.module call.caller call.callee = judged
      obtain ⟨meaning, doubts⟩ := judged
      cases meaning with
      | symbol id =>
        have hfilter : (some (up.onSymbols id)).filter whole.isClass =
            ((some id).filter part.isClass).map up.onSymbols := by
          simp only [Option.filter_some, h.isClass]
          cases part.isClass id <;> rfl
        simp only [renumbered, Meaning.renumber, hfilter, hconstructed]
      | module m => rfl
      | external name => rfl
      | builtin name => rfl
      | unknown => rfl

/-- What becomes of a call is the same in both. -/
theorem judgeCall (call : CallEdge) (hcaller : part.ClimbEnds call.caller) :
    whole.judgeCall config (call.renumber up) =
      renumbered up (Linked.renumber up) (part.judgeCall config call) := by
  have hkind : (call.renumber up).kind = call.kind := rfl
  have hbuiltin : whole.isBuiltin config (call.renumber up).module (call.renumber up).name = _ :=
    h.isBuiltin config call.module call.name
  simp only [Tables.judgeCall, hkind, h.linkDirect config call hcaller,
    h.linkByReceiver config call hcaller, h.linkConstructor config call hcaller, hbuiltin]
  split
  · rfl
  · rfl
  · rfl
  · rfl
  · split <;> rfl
  · rfl

/-- A call is linked alike in both. -/
theorem linkCall (call : CallEdge) (hcaller : part.ClimbEnds call.caller) :
    whole.linkCall config (call.renumber up) =
      renumbered up (CallEdge.renumber up) (part.linkCall config call) := by
  rw [Tables.linkCall, Tables.linkCall, h.judgeCall config call hcaller]
  rfl

omit config

/-! ### Imports -/

/-- A module located by the end of its key is the same in both. -/
theorem locateByEnd (m : Nat) {lang : Language} (hlang : lang.ecosystem = eco)
    (segments : List String) :
    whole.locateByEnd (up.onModules m) lang segments =
      renumbered up (Option.map up.onModules) (part.locateByEnd m lang segments) := by
  have hkeys (found : List Module) :
      (found.map (Module.renumber up)).map Module.key = found.map Module.key := by
    rw [List.map_map]
    rfl
  simp only [Tables.locateByEnd, h.modulesWhere hlang, hkeys, List.head?_map, Option.map_map,
    renumbered]
  split <;> rfl

/-- The module that an import means is the same in both. -/
theorem locate {m : Nat} {origin : Module} (horigin : part.modules[m]? = some origin) (depth : Nat)
    (segments : List String) :
    whole.locate (up.onModules m) depth segments =
      renumbered up (Option.map up.onModules) (part.locate m depth segments) := by
  have hlang : origin.language.ecosystem = eco := h.ecosystem_of_mem (List.mem_of_getElem? horigin)
  have hmoved : whole.modules[up.onModules m]? = some (origin.renumber up) := by
    rw [h.moduleAt, horigin, Option.map_some]
  have hplace : (origin.renumber up).place = origin.place := rfl
  have hlanguage : (origin.renumber up).language = origin.language := rfl
  have hrelative : (if depth = 0 then none else (origin.place.base? depth).bind fun base =>
        whole.moduleAt? origin.language (base ++ segments)) =
      (if depth = 0 then none else (origin.place.base? depth).bind fun base =>
        part.moduleAt? origin.language (base ++ segments)).map up.onModules := by
    simp only [h.moduleAt? hlang]
    split
    · rfl
    · cases origin.place.base? depth <;> rfl
  simp only [Tables.locate, hmoved, horigin, Option.getD_some, hplace, hlanguage, hrelative]
  generalize (if depth = 0 then none else (origin.place.base? depth).bind fun base =>
    part.moduleAt? origin.language (base ++ segments)) = relative
  rw [Option.isSome_map, h.moduleAt? hlang, h.locateByEnd m hlang]
  split
  · rfl
  · split
    · rfl
    · cases part.moduleAt? origin.language segments <;> rfl

/-- What a name imported from a module stands for is the same in both. -/
theorem bindName (m : Nat) (name : String) :
    whole.bindName (up.onModules m) name =
      Prod.map (ImportStatus.renumber up) (Option.map (ImportBinding.renumber up))
        (part.bindName m name) := by
  rw [Tables.bindName, Tables.bindName, h.topLevelNamed, h.submodule?, List.head?_map]
  cases (part.topLevelNamed m name).head? with
  | some id => rfl
  | none => cases part.submodule? m name <;> rfl

/-- What becomes of an import is the same in both. -/
theorem judgeImport {e : ImportEdge} {origin : Module}
    (horigin : part.modules[e.module]? = some origin) :
    whole.judgeImport (e.renumber up) =
      renumbered up (Prod.map (ImportStatus.renumber up) (Option.map (ImportBinding.renumber up)))
        (part.judgeImport e) := by
  have hlanguage : ((whole.modules[(e.renumber up).module]?).getD default).language =
      ((part.modules[e.module]?).getD default).language := by
    have hmoved : whole.modules[(e.renumber up).module]? = _ := h.moduleAt e.module
    rw [hmoved, horigin]
    rfl
  have hlocate (segments : List String) :
      whole.locate (e.renumber up).module (e.renumber up).depth segments = _ :=
    h.locate horigin e.depth segments
  have hname : (e.renumber up).name = e.name := rfl
  have htarget : (e.renumber up).target = e.target := rfl
  simp only [Tables.judgeImport, hlanguage, hlocate, hname, htarget]
  generalize targetSegments e.target ((part.modules[e.module]?).getD default).language = segments
  generalize part.locate e.module e.depth segments = located
  obtain ⟨found, doubts⟩ := located
  cases e.name with
  | whole => cases found <;> rfl
  | wildcard => cases found <;> rfl
  | name name =>
    cases found with
    | some m => exact congrArg (·, doubts.map (Diagnostic.renumber up)) (h.bindName m name)
    | none =>
      cases hsub : (part.locate e.module e.depth (segments ++ [name])).1 <;>
        simp [renumbered, hsub, ImportStatus.renumber, ImportBinding.renumber]

/-- An import is linked alike in both. -/
theorem linkImport {e : ImportEdge} {origin : Module}
    (horigin : part.modules[e.module]? = some origin) :
    whole.linkImport (e.renumber up) =
      renumbered up (ImportEdge.renumber up) (part.linkImport e) := by
  rw [Tables.linkImport, Tables.linkImport, h.judgeImport horigin]
  rfl

/-- The exposed symbols of a module are the same in both. -/
theorem exposedSymbols (m : Nat) :
    whole.exposedSymbols (up.onModules m) = (part.exposedSymbols m).map (Symbol.renumber up) := by
  rw [Tables.exposedSymbols, h.topLevel, List.filterMap_map, Tables.exposedSymbols,
    List.map_filterMap]
  refine congrArg (List.filterMap · _) (funext fun id => ?_)
  simp only [Function.comp_apply, h.symbolAt]
  cases part.symbols[id]? with
  | none => rfl
  | some s =>
    simp only [Option.map_some, Option.filter_some, Symbol.renumber]
    cases s.visibility.isExposed <;> rfl

/-- A wildcard expands alike in both. -/
theorem expansions (e : ImportEdge) :
    whole.expansions (e.renumber up) = (part.expansions e).map (ImportEdge.renumber up) := by
  have hname : (e.renumber up).name = e.name := rfl
  have hstatus : (e.renumber up).status = e.status.renumber up := rfl
  rw [Tables.expansions, Tables.expansions, hname, hstatus]
  cases e.name with
  | whole => rfl
  | name name => rfl
  | wildcard =>
    cases e.status with
    | unresolved => rfl
    | external => rfl
    | resolved m =>
      simp only [ImportStatus.renumber, h.exposedSymbols, List.map_map]
      rfl

end Restricts

end Tables

end CodeAtlas
