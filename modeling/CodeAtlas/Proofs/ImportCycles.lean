import CodeAtlas.Proofs.Linking
import CodeAtlas.Proofs.ModuleLevel
import CodeAtlas.Proofs.Phases
import Mathlib.Data.List.Lex
import Mathlib.Logic.Relation

/-!
# Import cycles are strongly connected components

A module imports another when one of its written imports is resolved to it. A depth-first search from
a module meets exactly what the module reaches: the stack is met, and with every node that is met its
successors are. Two modules are connected when each reaches the other, so the modules connected with
one of them are its strongly connected component, less the module itself when it is alone and does
not import itself. Every component is listed once, at its first member, which also sorts the list.
-/

namespace CodeAtlas

section Search

variable {next : Nat → List Nat}

/-- Pending nodes that are fresh are met. -/
theorem mem_preorder_of_mem_stack {fresh stack : List Nat} {y : Nat} (hstack : y ∈ stack)
    (hfresh : y ∈ fresh) : y ∈ preorder next fresh stack := by
  induction fresh, stack using preorder.induct next with
  | case1 fresh => simp at hstack
  | case2 fresh x rest hx ih =>
    rw [preorder, if_pos hx, List.mem_cons]
    by_cases hyx : y = x
    · exact .inl hyx
    · refine .inr (ih ?_ ((List.mem_erase_of_ne hyx).mpr hfresh))
      exact List.mem_append_right _ (List.mem_of_ne_of_mem hyx hstack)
  | case3 fresh x rest hx ih =>
    rw [preorder, if_neg hx]
    refine ih (List.mem_of_ne_of_mem ?_ hstack) hfresh
    rintro rfl
    exact hx hfresh

/-- With every node that is met its fresh successors are met. -/
theorem mem_preorder_of_mem_next {fresh stack : List Nat} {x y : Nat}
    (hx : x ∈ preorder next fresh stack) (hnext : y ∈ next x) (hfresh : y ∈ fresh) :
    y ∈ preorder next fresh stack := by
  induction fresh, stack using preorder.induct next with
  | case1 fresh => simp [preorder] at hx
  | case2 fresh z rest hz ih =>
    rw [preorder, if_pos hz] at hx ⊢
    by_cases hyz : y = z
    · exact List.mem_cons.mpr (.inl hyz)
    · have hleft : y ∈ fresh.erase z := (List.mem_erase_of_ne hyz).mpr hfresh
      refine List.mem_cons_of_mem _ ?_
      rcases List.mem_cons.mp hx with rfl | hx
      · exact mem_preorder_of_mem_stack (List.mem_append_left _ hnext) hleft
      · exact ih hx hleft
  | case3 fresh z rest hz ih =>
    rw [preorder, if_neg hz] at hx ⊢
    exact ih hx hfresh

/-- When all successors are fresh, a search meets what can be reached from its stack. -/
theorem mem_preorder_iff {fresh stack : List Nat} (hstack : ∀ x ∈ stack, x ∈ fresh)
    (hnext : ∀ x y, y ∈ next x → y ∈ fresh) {y : Nat} :
    y ∈ preorder next fresh stack ↔
      ∃ x ∈ stack, Relation.ReflTransGen (fun a b => b ∈ next a) x y := by
  constructor
  · refine preorder_forall next (P := fun y => ∃ x ∈ stack,
      Relation.ReflTransGen (fun a b => b ∈ next a) x y) ?_ fresh stack ?_ y
    · rintro a ⟨x, hx, hreach⟩ b hb
      exact ⟨x, hx, hreach.tail hb⟩
    · exact fun x hx => ⟨x, hx, .refl⟩
  · rintro ⟨x, hx, hreach⟩
    induction hreach with
    | refl => exact mem_preorder_of_mem_stack hx (hstack x hx)
    | tail _ hstep ih => exact mem_preorder_of_mem_next ih hstep (hnext _ _ hstep)

end Search

namespace Graph

/-- A written import of the first module is resolved to the second. -/
def Imports (g : Graph) (a b : Nat) : Prop :=
  ∃ e ∈ g.records.imports, e.module = a ∧ e.isSynthetic = false ∧ e.status = .resolved b

/-- The first module leads to the second in one or more imports. -/
def ReachesByImports (g : Graph) : Nat → Nat → Prop := Relation.TransGen g.Imports

/-- Each of two modules leads to the other, or they are the same. -/
def StronglyConnected (g : Graph) (a b : Nat) : Prop :=
  Relation.ReflTransGen g.Imports a b ∧ Relation.ReflTransGen g.Imports b a

/-- Imports lead from and to modules of the graph. -/
def ImportsWithin (g : Graph) : Prop :=
  ∀ a b, g.Imports a b → a < g.records.modules.length ∧ b < g.records.modules.length

/-- The cycles of a graph are its strongly connected components, those of one module only where the
module imports itself. They are sorted, do not overlap, and cover what lies on a cycle. -/
structure CyclesAreComponents (g : Graph) : Prop where
  increasing : ∀ cycle ∈ g.importCycles, cycle.Pairwise (· < ·)
  disjoint : g.importCycles.Pairwise List.Disjoint
  sorted : g.importCycles.Pairwise (· < ·)
  components : ∀ cycle, cycle ∈ g.importCycles ↔ ∃ m < g.records.modules.length,
    Enumerates cycle (g.StronglyConnected m) ∧ (1 < cycle.length ∨ g.Imports m m)
  together : ∀ a b, a ≠ b →
    ((∃ cycle ∈ g.importCycles, a ∈ cycle ∧ b ∈ cycle) ↔
      g.ReachesByImports a b ∧ g.ReachesByImports b a)
  absent : ∀ m, (∀ cycle ∈ g.importCycles, m ∉ cycle) ↔ ¬ g.ReachesByImports m m

variable {g : Graph}

/-- The imported modules are those that a written import is resolved to. -/
theorem mem_importedModules {a b : Nat} : b ∈ g.importedModules a ↔ g.Imports a b := by
  rw [importedModules, List.mem_filterMap]
  constructor
  · rintro ⟨e, he, hb⟩
    obtain ⟨hmem, hmodule⟩ := List.mem_filter.mp he
    exact ⟨e, hmem, beq_iff_eq.mp hmodule, ImportEdge.importedModule?_eq_some.mp hb⟩
  · rintro ⟨e, hmem, hmodule, hb⟩
    exact ⟨e, List.mem_filter.mpr ⟨hmem, beq_iff_eq.mpr hmodule⟩,
      ImportEdge.importedModule?_eq_some.mpr hb⟩

/-- The listed cycles are those at their first members. -/
theorem mem_importCycles {cycle : List Nat} :
    cycle ∈ g.importCycles ↔ ∃ m < g.records.modules.length,
      cycle = cycleAt g.reachTable m ∧ cycle.head? = some m := by
  have hlength : g.reachTable.length = g.records.modules.length := by simp [reachTable]
  rw [importCycles, List.mem_filterMap, hlength]
  refine exists_congr fun m => and_congr List.mem_range ?_
  dsimp only
  constructor
  · intro hcycle
    split at hcycle
    · rename_i hhead
      obtain rfl := Option.some.inj hcycle
      exact ⟨rfl, hhead⟩
    · cases hcycle
  · rintro ⟨rfl, hhead⟩
    rw [if_pos hhead]

/-- The cycles are listed in the order of their first members. -/
theorem importCycles_ordered :
    g.importCycles.Pairwise fun c d => ∃ m n, c.head? = some m ∧ d.head? = some n ∧ m < n := by
  rw [importCycles]
  refine List.pairwise_filterMap.mpr (List.pairwise_lt_range.imp ?_)
  intro m n hless c hc d hd
  dsimp only at hc hd
  split at hc
  · rename_i hm
    split at hd
    · rename_i hn
      exact ⟨m, n, Option.some.inj hc ▸ hm, Option.some.inj hd ▸ hn, hless⟩
    · cases hd
  · cases hc

/-- Modules that lead to each other lead to the same modules and are reached from the same. -/
theorem reachesByImports_congr {a m : Nat} (hto : g.ReachesByImports m a)
    (hfrom : g.ReachesByImports a m) (b : Nat) :
    (g.ReachesByImports m b ∧ g.ReachesByImports b m) ↔
      (g.ReachesByImports a b ∧ g.ReachesByImports b a) := by
  constructor
  · rintro ⟨hb, hback⟩
    exact ⟨hfrom.trans hb, hback.trans hto⟩
  · rintro ⟨hb, hback⟩
    exact ⟨hto.trans hb, hback.trans hfrom⟩

/-- On a cycle, leading to each other and being strongly connected are the same. -/
theorem stronglyConnected_iff {m : Nat} (hself : g.ReachesByImports m m) {b : Nat} :
    g.StronglyConnected m b ↔ g.ReachesByImports m b ∧ g.ReachesByImports b m := by
  constructor
  · rintro ⟨hto, hfrom⟩
    exact ⟨hself.trans_left hto, Relation.TransGen.trans_right hfrom hself⟩
  · rintro ⟨hto, hfrom⟩
    exact ⟨hto.to_reflTransGen, hfrom.to_reflTransGen⟩

section Within

variable (h : g.ImportsWithin)
include h

/-- The modules reachable from a module are those that it leads to. -/
theorem mem_reachableModules {a b : Nat} :
    b ∈ g.reachableModules a ↔ g.ReachesByImports a b := by
  have hnext : ∀ x y, y ∈ g.importedModules x → y ∈ List.range g.records.modules.length :=
    fun x y hy => List.mem_range.mpr (h x y (mem_importedModules.mp hy)).2
  have hsteps : (fun x y => y ∈ g.importedModules x) = g.Imports := by
    funext x y
    exact propext mem_importedModules
  rw [reachableModules, mem_preorder_iff (hnext a) hnext, hsteps]
  simp only [mem_importedModules]
  exact Relation.TransGen.head'_iff.symm

/-- What lies on a path of imports is a module of the graph. -/
theorem ReachesByImports.within {a b : Nat} (hreach : g.ReachesByImports a b) :
    a < g.records.modules.length ∧ b < g.records.modules.length := by
  obtain ⟨_, hfirst, _⟩ := Relation.TransGen.head'_iff.mp hreach
  obtain ⟨_, _, hlast⟩ := Relation.TransGen.tail'_iff.mp hreach
  exact ⟨(h _ _ hfirst).1, (h _ _ hlast).2⟩

/-- Two modules are connected in the table when each leads to the other. -/
theorem connected_reachTable {a b : Nat} (ha : a < g.records.modules.length)
    (hb : b < g.records.modules.length) :
    connected g.reachTable a b = true ↔ g.ReachesByImports a b ∧ g.ReachesByImports b a := by
  have hrow : ∀ m < g.records.modules.length,
      (g.reachTable[m]?).getD [] = g.reachableModules m := by
    intro m hm
    rw [reachTable, List.getElem?_map, List.getElem?_range hm, Option.map_some, Option.getD_some]
  rw [connected, hrow a ha, hrow b hb, Bool.and_eq_true, List.contains_iff_mem,
    List.contains_iff_mem, mem_reachableModules h, mem_reachableModules h]

/-- The cycle at a module lists what it leads to and is reached from. -/
theorem enumerates_cycleAt {m : Nat} (hm : m < g.records.modules.length) :
    Enumerates (cycleAt g.reachTable m) fun b => g.ReachesByImports m b ∧ g.ReachesByImports b m where
  increasing := List.pairwise_lt_range.filter _
  mem_iff := by
    intro b
    rw [cycleAt, reachTable, List.length_map, List.length_range, List.mem_filter, List.mem_range]
    constructor
    · rintro ⟨hb, hconnected⟩
      exact (connected_reachTable h hm hb).mp hconnected
    · rintro ⟨hto, hfrom⟩
      have hb := (ReachesByImports.within h hto).2
      exact ⟨hb, (connected_reachTable h hm hb).mpr ⟨hto, hfrom⟩⟩

/-- A module that leads to itself is listed in a cycle, with all that it is connected with. -/
theorem exists_cycle_of_reaches {m : Nat} (hself : g.ReachesByImports m m) :
    ∃ cycle ∈ g.importCycles,
      Enumerates cycle fun b => g.ReachesByImports m b ∧ g.ReachesByImports b m := by
  have hm := (ReachesByImports.within h hself).1
  have hlisted := enumerates_cycleAt h hm
  -- The first member of the cycle has the same cycle, which is listed there.
  cases hcycle : cycleAt g.reachTable m with
  | nil =>
    have hmem := (hlisted.mem_iff m).mpr ⟨hself, hself⟩
    rw [hcycle] at hmem
    cases hmem
  | cons first rest =>
    obtain ⟨hto, hfrom⟩ := (hlisted.mem_iff first).mp (hcycle ▸ List.mem_cons_self)
    have hfirst := (ReachesByImports.within h hto).2
    have hsame : cycleAt g.reachTable first = cycleAt g.reachTable m := by
      refine (enumerates_cycleAt h hfirst).unique (hlisted.congr fun b => ?_)
      exact reachesByImports_congr hto hfrom b
    refine ⟨first :: rest, mem_importCycles.mpr ⟨first, hfirst, ?_, rfl⟩, hcycle ▸ hlisted⟩
    rw [hsame, hcycle]

/-- The modules of a cycle are those that one of them leads to and is reached from. -/
theorem enumerates_of_mem_importCycles {cycle : List Nat} (hcycle : cycle ∈ g.importCycles) {a : Nat}
    (ha : a ∈ cycle) :
    Enumerates cycle fun b => g.ReachesByImports a b ∧ g.ReachesByImports b a := by
  obtain ⟨m, hm, rfl, _⟩ := mem_importCycles.mp hcycle
  have hlisted := enumerates_cycleAt h hm
  obtain ⟨hto, hfrom⟩ := (hlisted.mem_iff a).mp ha
  exact hlisted.congr fun b => reachesByImports_congr hto hfrom b

/-- A module lies in a listed cycle exactly when it leads to itself. -/
theorem mem_cycle_iff {m : Nat} :
    (∃ cycle ∈ g.importCycles, m ∈ cycle) ↔ g.ReachesByImports m m := by
  constructor
  · rintro ⟨cycle, hcycle, hm⟩
    exact ((enumerates_of_mem_importCycles h hcycle hm).mem_iff m).mp hm |>.1
  · intro hself
    obtain ⟨cycle, hcycle, hlisted⟩ := exists_cycle_of_reaches h hself
    exact ⟨cycle, hcycle, (hlisted.mem_iff m).mpr ⟨hself, hself⟩⟩

/-- The listed cycles are the strongly connected components with more than one module or an import
of a module by itself. -/
theorem mem_importCycles_iff_component {cycle : List Nat} :
    cycle ∈ g.importCycles ↔ ∃ m < g.records.modules.length,
      Enumerates cycle (g.StronglyConnected m) ∧ (1 < cycle.length ∨ g.Imports m m) := by
  constructor
  · intro hcycle
    obtain ⟨m, hm, heq, hhead⟩ := mem_importCycles.mp hcycle
    have hlisted := enumerates_of_mem_importCycles h hcycle (List.mem_of_mem_head? hhead)
    have hself := ((hlisted.mem_iff m).mp (List.mem_of_mem_head? hhead)).1
    refine ⟨m, hm, hlisted.congr fun b => (stronglyConnected_iff hself).symm, ?_⟩
    -- An import of the module stays in the cycle, so it leads to another member or to the module.
    obtain ⟨b, hstep, hback⟩ := Relation.TransGen.head'_iff.mp hself
    by_cases hb : b = m
    · exact .inr (hb ▸ hstep)
    · have hmem : b ∈ cycle :=
        (hlisted.mem_iff b).mpr ⟨.single hstep, Relation.TransGen.trans_right hback hself⟩
      cases cycle with
      | nil => cases hhead
      | cons first rest =>
        obtain rfl := Option.some.inj hhead
        exact .inl (Nat.succ_lt_succ (List.length_pos_of_mem (List.mem_of_ne_of_mem hb hmem)))
  · rintro ⟨m, hm, hlisted, hreason⟩
    have hself : g.ReachesByImports m m := by
      rcases hreason with hlong | hown
      · obtain ⟨b, hb, hne⟩ : ∃ b ∈ cycle, b ≠ m := by
          match cycle, hlisted.increasing, hlong with
          | first :: second :: rest, hincreasing, _ =>
            have hless := (List.pairwise_cons.mp hincreasing).1 second List.mem_cons_self
            by_cases hfirst : first = m
            · exact ⟨second, by simp, by omega⟩
            · exact ⟨first, by simp, hfirst⟩
        obtain ⟨hto, hfrom⟩ := (hlisted.mem_iff b).mp hb
        rcases Relation.reflTransGen_iff_eq_or_transGen.mp hto with heq | hto
        · exact absurd heq hne
        · exact hto.trans_left hfrom
      · exact .single hown
    obtain ⟨listed, hmem, hsame⟩ := exists_cycle_of_reaches h hself
    have heq : cycle = listed :=
      hlisted.unique (hsame.congr fun b => (stronglyConnected_iff hself).symm)
    exact heq ▸ hmem

/-- When imports stay within the graph, its cycles are its strongly connected components. -/
theorem cyclesAreComponents : g.CyclesAreComponents where
  increasing := by
    intro cycle hcycle
    obtain ⟨m, hm, rfl, _⟩ := mem_importCycles.mp hcycle
    exact (enumerates_cycleAt h hm).increasing
  disjoint := by
    refine importCycles_ordered.imp_of_mem ?_
    rintro c d hc hd ⟨m, n, hm, hn, hless⟩ x hxc hxd
    have hc := enumerates_of_mem_importCycles h hc hxc
    have hd := enumerates_of_mem_importCycles h hd hxd
    have heq : c = d := hc.unique hd
    rw [heq, hn] at hm
    exact absurd (Option.some.inj hm) (by omega)
  sorted := by
    refine importCycles_ordered.imp ?_
    rintro (_ | ⟨m', c⟩) (_ | ⟨n', d⟩) ⟨m, n, hm, hn, hless⟩
    · cases hm
    · cases hm
    · cases hn
    · obtain rfl := Option.some.inj hm
      obtain rfl := Option.some.inj hn
      exact List.cons_lt_cons_iff.mpr (.inl hless)
  components := fun _ => mem_importCycles_iff_component h
  together := by
    intro a b hne
    constructor
    · rintro ⟨cycle, hcycle, ha, hb⟩
      exact ((enumerates_of_mem_importCycles h hcycle ha).mem_iff b).mp hb
    · rintro ⟨hto, hfrom⟩
      obtain ⟨cycle, hcycle, hlisted⟩ := exists_cycle_of_reaches h (hto.trans hfrom)
      exact ⟨cycle, hcycle, (hlisted.mem_iff a).mpr ⟨hto.trans hfrom, hto.trans hfrom⟩,
        (hlisted.mem_iff b).mpr ⟨hto, hfrom⟩⟩
  absent := by
    intro m
    rw [← mem_cycle_iff h]
    simp only [not_exists, not_and]

end Within

end Graph

namespace Tables

variable {tables : Tables}

/-- Modules are numbered and imports belong to modules, whatever the files declare. -/
theorem ofFiles_importers (files : List FileFacts) :
    Numbered Module.id (ofFiles files).modules ∧
      ∀ e ∈ (ofFiles files).imports, e.module < (ofFiles files).modules.length := by
  refine ofFiles_induction (P := fun t => Numbered Module.id t.modules ∧
    ∀ e ∈ t.imports, e.module < t.modules.length) files ⟨by simp [Numbered], by simp⟩ ?_
  rintro tables file - ⟨hnumbered, himporters⟩
  rw [addFile_modules, addFile_imports]
  constructor
  · refine hnumbered.append fun i m hm => ?_
    obtain ⟨rfl, rfl⟩ : i = 0 ∧ m = moduleOf tables.modules.length tables.symbols.size file := by
      simpa [List.getElem?_singleton, eq_comm] using hm
    rfl
  · intro e he
    rw [List.length_append, List.length_singleton]
    rcases List.mem_append.mp he with hold | hnew
    · exact Nat.lt_succ_of_lt (himporters e hold)
    · obtain ⟨_, _, rfl⟩ := List.mem_map.mp hnew
      exact Nat.lt_succ_self _

/-- The module that an import is resolved to exists. -/
theorem lt_of_judgeImport (h : Numbered Module.id tables.modules) {edge : ImportEdge} {m : Nat}
    (hm : (tables.judgeImport edge).1.1 = .resolved m) : m < tables.modules.length := by
  rw [judgeImport] at hm
  dsimp only at hm
  split at hm
  · cases hm
    exact lt_of_locate h ‹_›
  · cases hm
    exact lt_of_locate h ‹_›
  · rename_i found _ hfound
    rw [bindName] at hm
    split at hm
    · cases hm
      exact lt_of_locate h hfound
    · split at hm
      · cases hm
        exact lt_of_submodule? h ‹_›
      · cases hm
        exact lt_of_locate h hfound
  · split at hm
    · cases hm
      exact lt_of_locate h ‹_›
    · cases hm
  · cases hm

/-- The imports of a resolved unit lead from and to its modules. -/
theorem resolved_importsWithin (config : ResolutionConfig) (files : List FileFacts) :
    (Graph.ofTables ((ofFiles files).linkImports.linkCalls config)).ImportsWithin := by
  obtain ⟨hnumbered, himporters⟩ := ofFiles_importers files
  rintro a b ⟨e, he, rfl, hwritten, hstatus⟩
  change e ∈ (ofFiles files).linkImports.imports at he
  change e.module < (ofFiles files).modules.length ∧ b < (ofFiles files).modules.length
  rw [linkImports_imports] at he
  rcases List.mem_append.mp he with he | he
  · obtain ⟨edge, hedge, rfl⟩ := List.mem_map.mp he
    exact ⟨himporters edge hedge, lt_of_judgeImport hnumbered hstatus⟩
  · obtain ⟨edge, hedge, id, rfl⟩ := mem_numbered he
    obtain ⟨_, _, hexpansion⟩ := List.mem_flatMap.mp hedge
    obtain ⟨_, _, s, _, rfl⟩ := mem_expansions hexpansion
    cases hwritten

end Tables

/-- The import cycles of every resolved unit are the strongly connected components of its written,
resolved imports, those of a single module only where it imports itself. -/
theorem import_cycles_are_components (config : ResolutionConfig) (files : List FileFacts)
    (hnonempty : files ≠ []) :
    ∃ graph, resolveFacts config files = .ok graph ∧ graph.CyclesAreComponents :=
  ⟨_, (completedRun_of_ne_nil config hnonempty).resolves,
    Graph.cyclesAreComponents (Tables.resolved_importsWithin config files)⟩

/-- Two modules that import each other, one that imports itself, and one that is not imported. -/
def tangledImports : List FileFacts :=
  [{ path := ⟨"a.py"⟩, language := .python
     imports := [{ target := "b", name := .whole, localName := "b" }] },
    { path := ⟨"b.py"⟩, language := .python
      imports :=
        [{ target := "a", name := .whole, localName := "a" },
          { target := "c", name := .wildcard, localName := "*" }] },
    { path := ⟨"c.py"⟩, language := .python
      imports := [{ target := "c", name := .whole, localName := "c" }] },
    { path := ⟨"d.py"⟩, language := .python
      imports := [{ target := "a", name := .whole, localName := "a" }] }]

/-- The first two modules share a cycle, and the last one is in none. -/
theorem import_cycles_are_components_tangled :
    tangledImports ≠ [] ∧
      ∃ graph, resolveFacts {} tangledImports = .ok graph ∧ graph.CyclesAreComponents ∧
        (∃ cycle ∈ graph.importCycles, 0 ∈ cycle ∧ 1 ∈ cycle) ∧
        ∀ cycle ∈ graph.importCycles, 3 ∉ cycle := by
  have hnonempty : tangledImports ≠ [] := List.cons_ne_nil _ _
  obtain ⟨graph, hgraph, hcycles⟩ := import_cycles_are_components {} tangledImports hnonempty
  have hordered : orderedFiles tangledImports = tangledImports := by
    rw [orderedFiles, List.mergeSort_of_pairwise (by decide)]
    decide
  have himports : graph.records.imports.map (fun e => (e.module, e.importedModule?)) =
      [(0, some 1), (1, some 0), (1, some 2), (2, some 2), (3, some 0)] := by
    obtain rfl := Except.ok.inj (hgraph.symm.trans (completedRun_of_ne_nil {} hnonempty).resolves)
    rw [Tables.ofFiles, hordered]
    decide
  have hstep : ∀ a b, graph.Imports a b ↔
      (a, some b) ∈ graph.records.imports.map fun e => (e.module, e.importedModule?) := by
    intro a b
    rw [List.mem_map]
    refine exists_congr fun e => and_congr_right fun _ => ?_
    rw [Prod.mk.injEq, ImportEdge.importedModule?_eq_some]
  refine ⟨hnonempty, graph, hgraph, hcycles, ?_, ?_⟩
  · refine (hcycles.together 0 1 (by decide)).mpr ⟨.single ?_, .single ?_⟩
    · rw [hstep, himports]
      decide
    · rw [hstep, himports]
      decide
  · refine (hcycles.absent 3).mpr fun hself => ?_
    obtain ⟨a, _, hlast⟩ := Relation.TransGen.tail'_iff.mp hself
    rw [hstep, himports] at hlast
    simp at hlast

end CodeAtlas
