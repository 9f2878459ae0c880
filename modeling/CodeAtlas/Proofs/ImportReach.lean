import CodeAtlas.Proofs.Linking
import CodeAtlas.Proofs.ModuleLevel
import CodeAtlas.Proofs.Phases
import Mathlib.Logic.Relation

/-!
# Calls follow imports

One module leads to another by an import that binds the other module or one of its symbols, by being
directly above it in the tree of modules, or by being a file of the same Go package. A name is looked
up in a module, in the scopes around the call, among the members of classes and their bases, and
behind the aliases of imports, and each of these moves stays in a module or goes on to one that it
leads to. So the modules reachable from a call are closed under look-up steps, and no call crosses
into a module that imports do not reach.
-/

namespace CodeAtlas

section Records

variable (modules : List Module) (symbols : List Symbol) (imports : List ImportEdge)

/-- One module leads directly to another. -/
inductive LeadsTo : Nat → Nat → Prop
  /-- An import, written or derived, binds the other module. -/
  | boundModule {e : ImportEdge} {b : Nat} (he : e ∈ imports)
      (hbinding : e.binding = some (.module b)) : LeadsTo e.module b
  /-- An import, written or derived, binds a symbol of the other module. -/
  | boundSymbol {e : ImportEdge} {id : Nat} {s : Symbol} (he : e ∈ imports)
      (hbinding : e.binding = some (.symbol id)) (hs : symbols[id]? = some s) :
      LeadsTo e.module s.module
  /-- The key of the other module extends the module's own name by one segment. -/
  | submodule {a b : Nat} {m n : Module} {name : String} (hm : modules[a]? = some m)
      (hn : modules[b]? = some n) (hshares : n.language.sharesModulesWith m.language = true)
      (hkey : n.key = m.place.segments ++ [name]) : LeadsTo a b
  /-- Both are files of one Go package. -/
  | package {a b : Nat} {m n : Module} (hm : modules[a]? = some m) (hn : modules[b]? = some n)
      (hgo : m.language = .go) (hgo' : n.language = .go) (hkey : m.key = n.key) : LeadsTo a b

/-- A module leads to another in any number of steps. -/
def Reaches (a b : Nat) : Prop := Relation.ReflTransGen (LeadsTo modules symbols imports) a b

/-- A module outside of Go packages that binds nothing by imports and has no submodules. -/
structure Isolated (a : Nat) : Prop where
  notGo : ∀ m, modules[a]? = some m → m.language ≠ .go
  unbound : ∀ e ∈ imports, e.module = a → e.binding = none
  noSubmodule : ∀ m, modules[a]? = some m → ∀ n ∈ modules,
    n.language.sharesModulesWith m.language = true → ∀ name, n.key ≠ m.place.segments ++ [name]

variable {modules symbols imports}

/-- An isolated module reaches itself only. -/
theorem Isolated.eq_of_reaches {a b : Nat} (h : Isolated modules imports a)
    (hreach : Reaches modules symbols imports a b) : b = a := by
  rcases Relation.ReflTransGen.cases_head hreach with rfl | ⟨c, hstep, _⟩
  · rfl
  · cases hstep with
    | boundModule he hbinding =>
      rw [h.unbound _ he rfl] at hbinding
      cases hbinding
    | boundSymbol he hbinding hs =>
      rw [h.unbound _ he rfl] at hbinding
      cases hbinding
    | submodule hm hn hshares hkey =>
      exact absurd hkey (h.noSubmodule _ hm _ (List.mem_of_getElem? hn) hshares _)
    | package hm hn hgo hgo' hkey => exact absurd hgo (h.notGo _ hm)

/-- Modules that share a level are the same or lead to each other. -/
theorem reaches_of_sharesLevel {a b : Nat} (h : sharesLevel modules a b = true) :
    Reaches modules symbols imports a b := by
  rcases sharesLevel_iff.mp h with rfl | ⟨m, n, hm, hn, hgo, hgo', hkey⟩
  · exact .refl
  · exact .single (.package hm hn hgo hgo' hkey)

end Records

/-- Every call that leads to a symbol leads into a module that its own module reaches. -/
def Snapshot.CallsFollowImports (r : Snapshot) : Prop :=
  ∀ c ∈ r.calls, ∀ t, c.target = .symbol t →
    ∃ s, r.symbols[t]? = some s ∧ Reaches r.modules r.symbols r.imports c.module s.module

namespace Tables

variable {tables : Tables}

/-- A module leads to its submodules. -/
theorem leadsTo_of_submodule? (h : Numbered Module.id tables.modules) {m : Nat} {name : String}
    {sub : Nat} (hsub : tables.submodule? m name = some sub) :
    LeadsTo tables.modules tables.symbols.toList tables.imports m sub := by
  obtain ⟨above, habove, hat⟩ := Option.bind_eq_some_iff.mp hsub
  obtain ⟨below, hbelow, rfl⟩ := Option.map_eq_some_iff.mp hat
  obtain ⟨hmem, hfound⟩ := List.mem_filter.mp (List.mem_of_mem_head? hbelow)
  simp only [Bool.and_eq_true, beq_iff_eq] at hfound
  exact .submodule habove (h.getElem?_of_mem hmem) hfound.1 hfound.2

/-- The modules reachable from a module, and their symbols, are closed under look-up steps. -/
theorem closed_of_reaches (h : tables.records.Consistent) (start : Nat) :
    tables.Closed (Reaches tables.modules tables.symbols.toList tables.imports start)
      fun id => ∃ s, tables.symbols.toList[id]? = some s ∧
        Reaches tables.modules tables.symbols.toList tables.imports start s.module := by
  have hsymbols : SymbolRecords tables.modules tables.symbols.toList := h.symbols
  have himports : ImportRecords tables.modules tables.symbols.toList tables.imports := h.imports
  refine ⟨?_, ?_, ?_, ?_, ?_, ?_, ?_⟩
  · intro m hm id hid
    obtain ⟨s, hs, hlevel⟩ := (mem_topLevel_iff hsymbols).mp hid
    exact ⟨s, hs, hm.trans (reaches_of_sharesLevel (atLevel_iff.mp hlevel).2)⟩
  · intro m name sub hm hsub
    exact hm.tail (leadsTo_of_submodule? hsymbols.modulesNumbered hsub)
  · rintro id s ⟨_, hs', hreach⟩ hs c hc
    rw [← Array.getElem?_toList] at hs
    obtain rfl := Option.some.inj (hs.symm.trans hs')
    obtain ⟨child, hchild, hparent⟩ := ((hsymbols.children id s hs).mem_iff c).mp hc
    obtain ⟨around, haround, hmodule⟩ :=
      hsymbols.parents child (List.mem_of_getElem? hchild) id hparent
    obtain rfl := Option.some.inj (haround.symm.trans hs)
    exact ⟨child, hchild, hmodule ▸ hreach⟩
  · rintro id s p ⟨_, hs', hreach⟩ hs hp
    rw [← Array.getElem?_toList] at hs
    obtain rfl := Option.some.inj (hs.symm.trans hs')
    obtain ⟨around, haround, hmodule⟩ := hsymbols.parents s (List.mem_of_getElem? hs) p hp
    exact ⟨around, haround, hmodule ▸ hreach⟩
  · rintro id s ⟨_, hs', hreach⟩ hs
    rw [← Array.getElem?_toList] at hs
    obtain rfl := Option.some.inj (hs.symm.trans hs')
    exact hreach
  · intro e he hm id hid
    have hexists : id < tables.symbols.toList.length := himports.bindings e he _ hid
    have hs := List.getElem?_eq_getElem hexists
    exact ⟨_, hs, hm.tail (.boundSymbol he hid hs)⟩
  · intro e he hm id hid
    exact hm.tail (.boundModule he hid)

/-- In consistent tables the calls are linked along imports. -/
theorem linkCalls_followImports (config : ResolutionConfig) (h : tables.records.Consistent) :
    (tables.linkCalls config).records.CallsFollowImports := by
  have hcalls : CallRecords tables.modules tables.symbols.toList tables.calls := h.calls
  intro c hc t ht
  change c ∈ (tables.linkCalls config).calls at hc
  rw [linkCalls_calls] at hc
  obtain ⟨call, hcall, rfl⟩ := List.mem_map.mp hc
  refine (closed_of_reaches h call.module).judgeCall config call .refl (fun id hid => ?_) t ht
  obtain ⟨s, hs, hmodule⟩ := hcalls.callers call hcall id hid
  exact ⟨s, hs, hmodule ▸ .refl⟩

end Tables

/-- In the graph of well-formed files every call that leads to a symbol leads into a module that
imports, submodules and packages reach from the call's own, hence stays in its module when that is
isolated. -/
theorem calls_follow_imports (config : ResolutionConfig) (files : List FileFacts)
    (hnonempty : files ≠ []) (hfiles : ∀ file ∈ files, file.WellFormed) :
    ∃ graph, resolveFacts config files = .ok graph ∧ graph.records.CallsFollowImports ∧
      ∀ c ∈ graph.records.calls, Isolated graph.records.modules graph.records.imports c.module →
        ∀ t, c.target = .symbol t →
          ∃ s, graph.records.symbols[t]? = some s ∧ s.module = c.module := by
  have hcollected := Tables.ofFiles_consistent files hfiles
  have himported := Tables.linkImports_consistent hcollected (Tables.ofFiles_written files)
  have hfollow := Tables.linkCalls_followImports config himported
  refine ⟨_, (completedRun_of_ne_nil config hnonempty).resolves, hfollow, ?_⟩
  intro c hc hisolated t ht
  obtain ⟨s, hs, hreach⟩ := hfollow c hc t ht
  exact ⟨s, hs, hisolated.eq_of_reaches hreach⟩

/-- A method calls a member that its class inherits from a class of another module. -/
theorem calls_follow_imports_inherited_member :
    ∃ graph,
      resolveFacts { walkBases := true }
        [{ path := ⟨"shape.py"⟩
           language := .python
           declarations :=
            [{ name := "Shape", kind := .classLike, parent := none, visibility := .exposed },
              { name := "area", kind := .method, parent := some 0, visibility := .exposed }] },
          { path := ⟨"square.py"⟩
            language := .python
            declarations :=
              [{ name := "Square", kind := .classLike, parent := none, visibility := .exposed
                 bases := ["Shape"] },
                { name := "show", kind := .method, parent := some 0, visibility := .exposed }]
            imports := [{ target := "shape", name := .name "Shape", localName := "Shape" }]
            calls :=
              [{ callee := "self.area", name := "area", receiver := some "self", kind := .method
                 caller := some 1 }] }] = .ok graph ∧
      graph.records.CallsFollowImports ∧
        ∀ c ∈ graph.records.calls, Isolated graph.records.modules graph.records.imports c.module →
          ∀ t, c.target = .symbol t →
            ∃ s, graph.records.symbols[t]? = some s ∧ s.module = c.module := by
  refine calls_follow_imports _ _ (List.cons_ne_nil _ _) fun file hfile => ?_
  simp only [List.mem_cons, List.not_mem_nil, or_false] at hfile
  rcases hfile with rfl | rfl
  all_goals
    refine ⟨by simp, by simp, by simp, ?_⟩
    intro i hi
    match i, hi with
    | 0, _ => exact ⟨[0], .step rfl .done⟩
    | 1, _ => exact ⟨[1, 0], .step rfl (.step rfl .done)⟩

end CodeAtlas
