import CodeAtlas.Graph.Calls
import CodeAtlas.Proofs.ModuleLevel

/-!
# Searching a name along scopes

A name is searched in the scopes around a place, innermost first, and then at the level of the
module; the search ends at the first of them that offers the name. A scope offers what it declares
under the name, or else the one member that a class inherits. So several hits are always rivals:
symbols that the same scope declares, or the same level.
-/

namespace CodeAtlas

/-- Two symbols of one name that nothing ranks: they have one parent, or none and one level. -/
structure Symbol.Rivals (modules : List Module) (s t : Symbol) : Prop where
  distinct : s.id ≠ t.id
  name : s.name = t.name
  parent : s.parent = t.parent
  level : s.parent = none → sharesLevel modules s.module t.module = true

/-- Being a rival can be decided. -/
instance (modules : List Module) (s t : Symbol) : Decidable (s.Rivals modules t) :=
  decidable_of_iff (s.id ≠ t.id ∧ s.name = t.name ∧ s.parent = t.parent ∧
      (s.parent = none → sharesLevel modules s.module t.module = true))
    ⟨fun ⟨hdistinct, hname, hparent, hlevel⟩ => ⟨hdistinct, hname, hparent, hlevel⟩,
      fun h => ⟨h.distinct, h.name, h.parent, h.level⟩⟩

/-- An increasing list of several numbers holds two different ones. -/
theorem exists_ne_of_increasing {ids : List Nat} (h : ids.Pairwise (· < ·))
    (hseveral : 1 < ids.length) : ∃ a ∈ ids, ∃ b ∈ ids, a ≠ b := by
  match ids, h, hseveral with
  | a :: b :: rest, h, _ =>
    have hlt : a < b := List.rel_of_pairwise_cons h List.mem_cons_self
    exact ⟨a, List.mem_cons_self, b, List.mem_cons_of_mem _ List.mem_cons_self, hlt.ne⟩

namespace Tables

/-- The symbols that the first scope of a chain with the name offers, or else the level of the
module. -/
def hitsAlong (tables : Tables) (config : ResolutionConfig) (module : Nat) (name : String) :
    List Nat → List Nat
  | [] => tables.topLevelNamed module name
  | scope :: rest =>
    if tables.scopeHits config name scope = [] then hitsAlong tables config module name rest
    else tables.scopeHits config name scope

/-- The first scope of a chain with the name declares the symbol under it, or the level of the
module does when no scope has the name. -/
inductive DeclaresAlong (tables : Tables) (config : ResolutionConfig) (module : Nat)
    (name : String) : List Nat → Symbol → Prop
  | level {s : Symbol} (hname : s.name = name) (hlevel : tables.atLevel module s = true) :
      DeclaresAlong tables config module name [] s
  | here {scope : Nat} {rest : List Nat} {s : Symbol} (hname : s.name = name)
      (hparent : s.parent = some scope) : DeclaresAlong tables config module name (scope :: rest) s
  | outwards {scope : Nat} {rest : List Nat} {s : Symbol}
      (hnone : tables.scopeHits config name scope = [])
      (hrest : DeclaresAlong tables config module name rest s) :
      DeclaresAlong tables config module name (scope :: rest) s

section Search

variable {tables : Tables} {config : ResolutionConfig} {module : Nat} {name : String}

/-- The nearest scope with a name is found by going outwards. -/
theorem localHits_eq_hitsAlong (tables : Tables) (config : ResolutionConfig) (module : Nat)
    (caller : Option Nat) (name : String) :
    tables.localHits config module caller name =
      tables.hitsAlong config module name (tables.scopeChain caller) := by
  rw [localHits]
  induction tables.scopeChain caller with
  | nil =>
    rw [List.map_nil, List.nil_append, firstNonEmpty, firstNonEmpty, hitsAlong]
    split
    · exact (List.isEmpty_iff.mp ‹_›).symm
    · rfl
  | cons scope rest ih =>
    rw [List.map_cons, List.cons_append, firstNonEmpty, hitsAlong, ih]
    simp only [List.isEmpty_iff]

/-- Where a symbol is declared, its rivals are. -/
theorem DeclaresAlong.rival {chain : List Nat} {s t : Symbol}
    (h : tables.DeclaresAlong config module name chain s) (hrival : s.Rivals tables.modules t) :
    tables.DeclaresAlong config module name chain t := by
  induction h with
  | level hname hlevel =>
    obtain ⟨hparent, hshare⟩ := atLevel_iff.mp hlevel
    exact .level (hrival.name ▸ hname) (atLevel_iff.mpr
      ⟨hrival.parent ▸ hparent, sharesLevel_trans hshare (hrival.level hparent)⟩)
  | here hname hparent => exact .here (hrival.name ▸ hname) (hrival.parent ▸ hparent)
  | outwards hnone _ ih => exact .outwards hnone (ih hrival)

/-- A symbol has a name when the record at its position has it. -/
theorem isNamed_iff {id : Nat} :
    tables.isNamed name id = true ↔ ∃ s, tables.symbols.toList[id]? = some s ∧ s.name = name := by
  simp [isNamed, Option.any_eq_true]

variable (h : SymbolRecords tables.modules tables.symbols.toList)
include h

/-- The symbols of a name directly in a scope. -/
theorem mem_childrenNamed_iff {scope id : Nat} :
    id ∈ tables.childrenNamed scope name ↔
      ∃ s, tables.symbols.toList[id]? = some s ∧ s.name = name ∧ s.parent = some scope := by
  rw [childrenNamed, List.mem_filter, isNamed_iff, ← Array.getElem?_toList]
  constructor
  · rintro ⟨hchild, s, hs, hname⟩
    cases hscope : tables.symbols.toList[scope]? with
    | none => simp [hscope] at hchild
    | some around =>
      rw [hscope] at hchild
      obtain ⟨s', hs', hparent⟩ := ((h.children scope around hscope).mem_iff id).mp hchild
      obtain rfl := Option.some.inj (hs.symm.trans hs')
      exact ⟨s, hs, hname, hparent⟩
  · rintro ⟨s, hs, hname, hparent⟩
    obtain ⟨around, hscope, _⟩ := h.parents s (List.mem_of_getElem? hs) scope hparent
    rw [hscope]
    exact ⟨((h.children scope around hscope).mem_iff id).mpr ⟨s, hs, hparent⟩, s, hs, hname⟩

/-- The symbols of a name at the level of a module. -/
theorem mem_topLevelNamed_iff {id : Nat} :
    id ∈ tables.topLevelNamed module name ↔
      ∃ s, tables.symbols.toList[id]? = some s ∧ s.name = name ∧
        tables.atLevel module s = true := by
  rw [topLevelNamed, List.mem_filter, isNamed_iff, mem_topLevel_iff h]
  constructor
  · rintro ⟨⟨s, hs, hlevel⟩, s', hs', hname⟩
    obtain rfl := Option.some.inj (hs.symm.trans hs')
    exact ⟨s, hs, hname, hlevel⟩
  · rintro ⟨s, hs, hname, hlevel⟩
    exact ⟨⟨s, hs, hlevel⟩, s, hs, hname⟩

/-- What is declared along a chain is among the hits. -/
theorem DeclaresAlong.mem_hitsAlong {chain : List Nat} {s : Symbol}
    (hdeclares : tables.DeclaresAlong config module name chain s)
    (hs : s ∈ tables.symbols.toList) : s.id ∈ tables.hitsAlong config module name chain := by
  have hget := h.symbolsNumbered.getElem?_of_mem hs
  induction hdeclares with
  | level hname hlevel => exact (mem_topLevelNamed_iff h).mpr ⟨_, hget, hname, hlevel⟩
  | @here scope rest s hname hparent =>
    have hchild : s.id ∈ tables.childrenNamed scope name :=
      (mem_childrenNamed_iff h).mpr ⟨s, hget, hname, hparent⟩
    have hdeclared : tables.scopeHits config name scope = tables.childrenNamed scope name := by
      have hne := List.ne_nil_of_mem hchild
      simp [scopeHits, hne]
    rw [hitsAlong, hdeclared, if_neg (List.ne_nil_of_mem hchild)]
    exact hchild
  | outwards hnone _ ih =>
    rw [hitsAlong, if_pos hnone]
    exact ih hs hget

/-- Several symbols of one name at the level of a module are rivals. -/
theorem exists_rivals_at_level (horder : InModuleOrder tables.symbols.toList)
    (hseveral : 1 < (tables.topLevelNamed module name).length) :
    ∃ s ∈ tables.symbols.toList, ∃ t ∈ tables.symbols.toList,
      s.name = name ∧ tables.atLevel module s = true ∧ s.Rivals tables.modules t := by
  obtain ⟨a, ha, b, hb, hne⟩ := exists_ne_of_increasing
    ((topLevel_increasing h horder module).sublist List.filter_sublist) hseveral
  obtain ⟨s, hs, hname, hlevel⟩ := (mem_topLevelNamed_iff h).mp ha
  obtain ⟨t, ht, hname', hlevel'⟩ := (mem_topLevelNamed_iff h).mp hb
  obtain ⟨hparent, hshare⟩ := atLevel_iff.mp hlevel
  obtain ⟨hparent', hshare'⟩ := atLevel_iff.mp hlevel'
  have hdistinct : s.id ≠ t.id := by
    rwa [h.symbolsNumbered a s hs, h.symbolsNumbered b t ht]
  exact ⟨s, List.mem_of_getElem? hs, t, List.mem_of_getElem? ht, hname, hlevel, hdistinct,
    hname.trans hname'.symm, hparent.trans hparent'.symm,
    fun _ => sharesLevel_trans (sharesLevel_symm hshare) hshare'⟩

/-- The symbols of a name directly in a scope are listed in increasing order. -/
theorem childrenNamed_increasing {scope : Nat} :
    (tables.childrenNamed scope name).Pairwise (· < ·) := by
  refine List.Pairwise.filter _ ?_
  rw [← Array.getElem?_toList]
  cases hscope : tables.symbols.toList[scope]? with
  | none => exact .nil
  | some around => exact (h.children scope around hscope).increasing

/-- Several symbols of one name directly in a scope are rivals. -/
theorem exists_rivals_in_scope {scope : Nat}
    (hseveral : 1 < (tables.childrenNamed scope name).length) :
    ∃ s ∈ tables.symbols.toList, ∃ t ∈ tables.symbols.toList,
      s.name = name ∧ s.parent = some scope ∧ s.Rivals tables.modules t := by
  obtain ⟨a, ha, b, hb, hne⟩ := exists_ne_of_increasing (childrenNamed_increasing h) hseveral
  obtain ⟨s, hs, hname, hparent⟩ := (mem_childrenNamed_iff h).mp ha
  obtain ⟨t, ht, hname', hparent'⟩ := (mem_childrenNamed_iff h).mp hb
  have hdistinct : s.id ≠ t.id := by
    rwa [h.symbolsNumbered a s hs, h.symbolsNumbered b t ht]
  exact ⟨s, List.mem_of_getElem? hs, t, List.mem_of_getElem? ht, hname, hparent, hdistinct,
    hname.trans hname'.symm, hparent.trans hparent'.symm, by simp [hparent]⟩

/-- Several hits along a chain are rivals that are declared there. -/
theorem exists_rivals_of_hitsAlong (horder : InModuleOrder tables.symbols.toList) {chain : List Nat}
    (hseveral : 1 < (tables.hitsAlong config module name chain).length) :
    ∃ s ∈ tables.symbols.toList, ∃ t ∈ tables.symbols.toList,
      tables.DeclaresAlong config module name chain s ∧ s.Rivals tables.modules t := by
  induction chain with
  | nil =>
    obtain ⟨s, hs, t, ht, hname, hlevel, hrivals⟩ := exists_rivals_at_level h horder hseveral
    exact ⟨s, hs, t, ht, .level hname hlevel, hrivals⟩
  | cons scope rest ih =>
    rw [hitsAlong] at hseveral
    split at hseveral
    · rename_i hnone
      obtain ⟨s, hs, t, ht, hdeclares, hrivals⟩ := ih hseveral
      exact ⟨s, hs, t, ht, .outwards hnone hdeclares, hrivals⟩
    · rw [scopeHits] at hseveral
      split at hseveral
      · -- A class inherits one member under a name, so this is no tie.
        have hone := Option.length_toList_le (o := tables.inherited? config scope name)
        omega
      · obtain ⟨s, hs, t, ht, hname, hparent, hrivals⟩ := exists_rivals_in_scope h hseveral
        exact ⟨s, hs, t, ht, .here hname hparent, hrivals⟩

/-- The first hit along a chain is declared there, or a class of the chain inherits it. -/
theorem declares_or_inherits_of_hitsAlong {chain : List Nat} {id : Nat}
    (hfirst : (tables.hitsAlong config module name chain).head? = some id) :
    (∃ s, tables.symbols.toList[id]? = some s ∧
        tables.DeclaresAlong config module name chain s) ∨
      ∃ c ∈ chain, tables.isClass c = true ∧ tables.inherited? config c name = some id := by
  induction chain with
  | nil =>
    obtain ⟨s, hs, hname, hlevel⟩ := (mem_topLevelNamed_iff h).mp (List.mem_of_mem_head? hfirst)
    exact .inl ⟨s, hs, .level hname hlevel⟩
  | cons scope rest ih =>
    rw [hitsAlong] at hfirst
    split at hfirst
    · rename_i hnone
      rcases ih hfirst with ⟨s, hs, hdeclares⟩ | ⟨c, hc, hinherits⟩
      · exact .inl ⟨s, hs, .outwards hnone hdeclares⟩
      · exact .inr ⟨c, List.mem_cons_of_mem _ hc, hinherits⟩
    · rw [scopeHits] at hfirst
      split at hfirst
      · rename_i hclass
        refine .inr ⟨scope, List.mem_cons_self, (Bool.and_eq_true_iff.mp hclass).2, ?_⟩
        exact Option.mem_toList.mp (List.mem_of_mem_head? hfirst)
      · obtain ⟨s, hs, hname, hparent⟩ :=
          (mem_childrenNamed_iff h).mp (List.mem_of_mem_head? hfirst)
        exact .inl ⟨s, hs, .here hname hparent⟩

end Search

end Tables

end CodeAtlas
