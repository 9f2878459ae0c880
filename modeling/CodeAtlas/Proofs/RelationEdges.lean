import CodeAtlas.Graph.Relations
import CodeAtlas.Proofs.ImportCycles
import CodeAtlas.Proofs.Lists
import CodeAtlas.Proofs.Queries

/-!
# Queries follow the relationship graph

The index of a graph holds for each record the edges that lead to it, in the order of the records. The
relationship graph holds the same edges in one list, between nodes for modules and symbols, and may
meet them in any order. Sorted by the identities of their records they are what the index holds.

The cycles are read off the strongly connected components of the imports among its edges. In whatever
order an algorithm finds these, and the modules in them, the cycles are those that the searches from
the single modules find.
-/

namespace CodeAtlas

/-- Records with a property come back in the order of their identities, in whatever order they are
sorted. -/
theorem Numbered.mergeSort_perm {α : Type} {identity : α → Nat} {records found : List α}
    {p : α → Bool} (h : Numbered identity records) (hfound : found.Perm (records.filter p)) :
    found.mergeSort (fun a b => identity a ≤ identity b) = records.filter p := by
  have hsorted : (found.mergeSort fun a b => identity a ≤ identity b).Pairwise
      fun a b => identity a ≤ identity b := by
    have htrans (a b c : α) : decide (identity a ≤ identity b) → decide (identity b ≤ identity c) →
        decide (identity a ≤ identity c) := by
      simpa using Nat.le_trans
    have htotal (a b : α) : decide (identity a ≤ identity b) || decide (identity b ≤ identity a) := by
      simpa using Nat.le_total _ _
    exact (List.pairwise_mergeSort htrans htotal found).imp of_decide_eq_true
  have hincreasing : (records.filter p).Pairwise fun a b => identity a ≤ identity b :=
    (h.increasing.imp Nat.le_of_lt).filter p
  have hperm := (List.mergeSort_perm found fun a b => identity a ≤ identity b).trans hfound
  refine List.Perm.eq_of_pairwise (fun a b ha hb hab hba => ?_) hsorted hincreasing hperm
  have ha := h.getElem?_of_mem (List.mem_of_mem_filter (hperm.mem_iff.mp ha))
  have hb := h.getElem?_of_mem (List.mem_of_mem_filter hb)
  rw [Nat.le_antisymm hab hba, hb] at ha
  exact (Option.some.inj ha).symm

/-- Records that are met by their identities, the last one first, are put in order by sorting. -/
theorem Numbered.mergeSort_met {α : Type} {identity : α → Nat} {records : List α}
    (h : Numbered identity records) (p : α → Bool) :
    ((((records.filter p).map identity).reverse.filterMap fun id => records[id]?).mergeSort
      fun a b => identity a ≤ identity b) = records.filter p := by
  rw [List.filterMap_reverse, h.filterMap_identities fun _ ha => (List.mem_filter.mp ha).1]
  exact h.mergeSort_perm (List.reverse_perm _)

namespace GraphEdge

/-- The edge to a symbol stands for no import and no call. -/
theorem ofSymbol_kind (s : Symbol) :
    (ofSymbol s).kind ≠ .imports ∧ (ofSymbol s).kind ≠ .calls := by
  rw [ofSymbol]
  cases s.parent <;> simp

/-- The edge of an import stands for an import. -/
theorem kind_of_ofImport? {i : ImportEdge} {e : GraphEdge} (h : ofImport? i = some e) :
    e.kind = .imports := by
  obtain ⟨_, _, rfl⟩ := Option.map_eq_some_iff.mp h
  rfl

/-- The edge of a call stands for a call. -/
theorem kind_of_ofCall? {c : CallEdge} {e : GraphEdge} (h : ofCall? c = some e) :
    e.kind = .calls := by
  obtain ⟨_, _, rfl⟩ := Option.map_eq_some_iff.mp h
  rfl

end GraphEdge

namespace RelationGraph

/-- The edges of a kind. -/
def edgesOf (g : RelationGraph) (kind : EdgeKind) : List GraphEdge := g.edges.filter (·.kind == kind)

/-- The nodes to which the edges of a kind lead from a node. -/
def targetsOf (g : RelationGraph) (kind : EdgeKind) (node : GraphNode) : List GraphNode :=
  ((g.edgesOf kind).filter (·.source == node)).map (·.target)

/-- What the edges that lead to a node come from is met in the order opposite to that of the edges. -/
theorem factsTo_eq (g : RelationGraph) (kind : EdgeKind) (node : GraphNode) :
    g.factsTo kind node =
      (((g.edgesOf kind).filter (·.target == node)).filterMap (·.fact)).reverse := by
  rw [factsTo, incoming, List.filter_reverse, List.filterMap_reverse, edgesOf, List.filter_filter,
    List.filter_filter]
  refine congrArg (fun edges : List GraphEdge => (edges.filterMap (·.fact)).reverse) ?_
  exact List.filter_congr fun e _ => Bool.and_comm _ _

variable {r : Snapshot}

/-- The edges of another kind are not among the edges of one kind. -/
theorem filter_kind_of_ne {edges : List GraphEdge} {kind other : EdgeKind}
    (hkind : ∀ e ∈ edges, e.kind = other) (hne : other ≠ kind) :
    edges.filter (·.kind == kind) = [] :=
  List.filter_eq_nil_iff.mpr fun e he => by simpa [hkind e he] using hne

/-- The edges of one kind are all among its edges. -/
theorem filter_kind_of_eq {edges : List GraphEdge} {kind : EdgeKind}
    (hkind : ∀ e ∈ edges, e.kind = kind) : edges.filter (·.kind == kind) = edges :=
  List.filter_eq_self.mpr fun e he => by simpa using hkind e he

/-- The kind of an edge says which records it comes from. -/
theorem edgesOf_ofRecords (kind : EdgeKind) :
    (ofRecords r).edgesOf kind =
      match kind with
      | .imports => r.imports.filterMap GraphEdge.ofImport?
      | .calls => r.calls.filterMap GraphEdge.ofCall?
      | _ => (r.symbols.map GraphEdge.ofSymbol).filter (·.kind == kind) := by
  have himports : ∀ e ∈ r.imports.filterMap GraphEdge.ofImport?, e.kind = .imports := by
    intro e he
    obtain ⟨_, _, hedge⟩ := List.mem_filterMap.mp he
    exact GraphEdge.kind_of_ofImport? hedge
  have hcalls : ∀ e ∈ r.calls.filterMap GraphEdge.ofCall?, e.kind = .calls := by
    intro e he
    obtain ⟨_, _, hedge⟩ := List.mem_filterMap.mp he
    exact GraphEdge.kind_of_ofCall? hedge
  rw [edgesOf, ofRecords, List.filter_append, List.filter_append]
  cases kind with
  | imports =>
    have hsymbols : (r.symbols.map GraphEdge.ofSymbol).filter (·.kind == .imports) = [] := by
      simp [GraphEdge.ofSymbol_kind]
    rw [hsymbols, filter_kind_of_eq himports, filter_kind_of_ne hcalls (by decide), List.append_nil]
    rfl
  | calls =>
    have hsymbols : (r.symbols.map GraphEdge.ofSymbol).filter (·.kind == .calls) = [] := by
      simp [GraphEdge.ofSymbol_kind]
    rw [hsymbols, filter_kind_of_ne himports (by decide), filter_kind_of_eq hcalls]
    rfl
  | defines | contains =>
    rw [filter_kind_of_ne himports (by decide), filter_kind_of_ne hcalls (by decide),
      List.append_nil, List.append_nil]

/-- The edges for calls that lead to a symbol come from the calls to it. -/
theorem factsTo_calls (s : Nat) :
    (ofRecords r).factsTo .calls (.symbol s) =
      ((r.calls.filter fun c => c.target.symbol? == some s).map (·.id)).reverse := by
  rw [factsTo_eq, edgesOf_ofRecords, List.filterMap_filter, List.filterMap_filterMap]
  refine congrArg List.reverse (filterMap_eq_map_filter (fun c => ?_) _)
  rw [GraphEdge.ofCall?]
  cases c.target.symbol? <;> simp

/-- The edges for imports that lead to a module come from the written imports of it. -/
theorem factsTo_imports (m : Nat) :
    (ofRecords r).factsTo .imports (.module m) =
      ((r.imports.filter fun e => e.importedModule? == some m).map (·.id)).reverse := by
  rw [factsTo_eq, edgesOf_ofRecords, List.filterMap_filter, List.filterMap_filterMap]
  refine congrArg List.reverse (filterMap_eq_map_filter (fun e => ?_) _)
  rw [GraphEdge.ofImport?]
  cases e.importedModule? <;> simp

/-- The edges from a module to what it defines lead to the symbols at its level. -/
theorem targetsOf_defines (m : Nat) :
    (ofRecords r).targetsOf .defines (.module m) =
      (r.symbols.filter fun s => s.module == m && s.parent == none).map (.symbol ·.id) := by
  rw [targetsOf, edgesOf_ofRecords, List.filter_filter, List.filter_map, List.map_map]
  refine congrArg (List.map _) (List.filter_congr fun s _ => ?_)
  rw [Function.comp_apply, GraphEdge.ofSymbol]
  cases s.parent <;> simp

/-- The edges from a symbol to what it contains lead to the symbols directly in it. -/
theorem targetsOf_contains (i : Nat) :
    (ofRecords r).targetsOf .contains (.symbol i) =
      (r.symbols.filter (·.parent == some i)).map (.symbol ·.id) := by
  rw [targetsOf, edgesOf_ofRecords, List.filter_filter, List.filter_map, List.map_map]
  refine congrArg (List.map _) (List.filter_congr fun s _ => ?_)
  rw [Function.comp_apply, GraphEdge.ofSymbol]
  cases s.parent <;> simp

/-- Two modules are connected by an edge when a written import of the first is resolved to the
second. -/
theorem mem_importArcs {a b : Nat} :
    (a, b) ∈ (ofRecords r).importArcs ↔ (Graph.ofRecords r).Imports a b := by
  have harc (e : GraphEdge) : e.importArc? = some (a, b) ↔
      e.kind = .imports ∧ e.source = .module a ∧ e.target = .module b := by
    obtain ⟨source, target, kind, _⟩ := e
    cases kind <;> cases source <;> cases target <;> simp [GraphEdge.importArc?]
  have hedge (e : GraphEdge) : (e ∈ (ofRecords r).edges ∧ e.importArc? = some (a, b)) ↔
      e ∈ (ofRecords r).edgesOf .imports ∧ e.source = .module a ∧ e.target = .module b := by
    rw [harc, edgesOf, List.mem_filter, beq_iff_eq, and_assoc]
  rw [importArcs, List.mem_eraseDups, List.mem_filterMap]
  simp only [hedge, edgesOf_ofRecords, List.mem_filterMap]
  constructor
  · rintro ⟨e, ⟨i, hi, hedge⟩, hsource, htarget⟩
    obtain ⟨target, htarget', rfl⟩ := Option.map_eq_some_iff.mp hedge
    obtain ⟨hwritten, hstatus⟩ := ImportEdge.importedModule?_eq_some.mp htarget'
    cases hsource
    cases htarget
    exact ⟨i, hi, rfl, hwritten, hstatus⟩
  · rintro ⟨i, hi, rfl, himported⟩
    refine ⟨⟨.module i.module, .module b, .imports, some i.id⟩, ⟨i, hi, ?_⟩, rfl, rfl⟩
    rw [GraphEdge.ofImport?, ImportEdge.importedModule?_eq_some.mpr himported]
    rfl

/-- Lists are the strongly connected components of a graph over the numbers below a size. Neither the
order of the components nor that within one of them matters. -/
structure StrongComponents (size : Nat) (arcs : List (Nat × Nat)) (components : List (List Nat)) :
    Prop where
  covers : components.flatten.Perm (List.range size)
  inhabited : [] ∉ components
  connected : ∀ c ∈ components, ∀ a ∈ c, ∀ b, b ∈ c ↔
    Relation.ReflTransGen (fun a b => (a, b) ∈ arcs) a b ∧
      Relation.ReflTransGen (fun a b => (a, b) ∈ arcs) b a

/-- Every graph over the numbers below a size has strongly connected components. -/
theorem exists_strongComponents {size : Nat} {arcs : List (Nat × Nat)}
    (hwithin : ∀ a b, (a, b) ∈ arcs → a < size ∧ b < size) :
    ∃ components, StrongComponents size arcs components := by
  have hequivalence : Equivalence fun a b =>
      Relation.ReflTransGen (fun a b => (a, b) ∈ arcs) a b ∧
        Relation.ReflTransGen (fun a b => (a, b) ∈ arcs) b a :=
    ⟨fun a => ⟨.refl, .refl⟩, fun h => h.symm, fun h h' => ⟨h.1.trans h'.1, h'.2.trans h.2⟩⟩
  obtain ⟨components, hcovers, hinhabited, hconnected⟩ :=
    exists_classes hequivalence (List.range size)
  refine ⟨components, hcovers, hinhabited, fun c hc a ha b => ?_⟩
  have hrange : ∀ x ∈ c, x ∈ List.range size := fun x hx =>
    hcovers.mem_iff.mp (List.mem_flatten.mpr ⟨c, hc, hx⟩)
  refine ⟨fun hb => (hconnected c hc a ha b (hrange b hb)).mp hb, fun h => ?_⟩
  refine (hconnected c hc a ha b ?_).mpr h
  rcases Relation.ReflTransGen.cases_tail h.1 with rfl | ⟨_, _, hlast⟩
  · exact hrange _ ha
  · exact List.mem_range.mpr (hwithin _ _ hlast).2

section Components

variable {components : List (List Nat)}
  (h : StrongComponents r.modules.length (ofRecords r).importArcs components)
include h

/-- A sorted component lists a module and what it is strongly connected with. -/
theorem StrongComponents.enumerates {c : List Nat} (hc : c ∈ components) {m : Nat} (hm : m ∈ c) :
    Enumerates c.mergeSort ((Graph.ofRecords r).StronglyConnected m) where
  increasing := by
    have hnodup := (List.nodup_flatten.mp (h.covers.nodup_iff.mpr List.nodup_range)).1 c hc
    have hsorted : c.mergeSort.SortedLE := List.sortedLE_mergeSort
    exact (hsorted.sortedLT_of_nodup ((List.mergeSort_perm c _).nodup_iff.mpr hnodup)).pairwise
  mem_iff := by
    intro b
    have hsteps : (fun a b => (a, b) ∈ (ofRecords r).importArcs) = (Graph.ofRecords r).Imports := by
      funext a b
      exact propext mem_importArcs
    rw [List.mem_mergeSort, h.connected c hc m hm b, hsteps, Graph.StronglyConnected]

/-- A sorted component is listed as a cycle when it has more modules than one or its only module
imports itself. -/
theorem StrongComponents.mem_cyclesAmong {cycle : List Nat} :
    cycle ∈ (ofRecords r).cyclesAmong components ↔ ∃ m < r.modules.length,
      Enumerates cycle ((Graph.ofRecords r).StronglyConnected m) ∧
        (1 < cycle.length ∨ (Graph.ofRecords r).Imports m m) := by
  simp only [cyclesAmong, List.mem_mergeSort, List.mem_filter, List.mem_map, Bool.or_eq_true,
    decide_eq_true_eq, Option.any_eq_true, List.contains_iff_mem, mem_importArcs]
  constructor
  · rintro ⟨⟨c, hc, rfl⟩, hreason⟩
    obtain ⟨first, hfirst⟩ : ∃ first, c.mergeSort.head? = some first := by
      refine Option.isSome_iff_exists.mp (List.isSome_head?.mpr fun hempty => h.inhabited ?_)
      rwa [← List.perm_nil.mp (hempty ▸ (List.mergeSort_perm c _).symm)]
    have hmem : first ∈ c := List.mem_mergeSort.mp (List.mem_of_mem_head? hfirst)
    refine ⟨first, List.mem_range.mp (h.covers.mem_iff.mp (List.mem_flatten.mpr ⟨c, hc, hmem⟩)),
      h.enumerates hc hmem, hreason.imp_right ?_⟩
    rintro ⟨m, hm, hself⟩
    rwa [Option.some.inj (hfirst.symm.trans hm)]
  · rintro ⟨m, hm, hlisted, hreason⟩
    obtain ⟨c, hc, hmem⟩ := List.mem_flatten.mp (h.covers.mem_iff.mpr (List.mem_range.mpr hm))
    refine ⟨⟨c, hc, (h.enumerates hc hmem).unique hlisted⟩, ?_⟩
    rcases hreason with hlong | hself
    · exact .inl hlong
    -- The module itself is in the cycle, which either lists nothing else or is long enough.
    · have hown : m ∈ cycle := (hlisted.mem_iff m).mpr ⟨.refl, .refl⟩
      cases cycle with
      | nil => cases hown
      | cons first rest =>
        cases rest with
        | nil =>
          obtain rfl := List.mem_singleton.mp hown
          exact .inr ⟨m, rfl, hself⟩
        | cons second rest => exact .inl (by simp)

/-- No cycle is listed twice. -/
theorem StrongComponents.nodup_cyclesAmong : ((ofRecords r).cyclesAmong components).Nodup := by
  have hdisjoint := (List.nodup_flatten.mp (h.covers.nodup_iff.mpr List.nodup_range)).2
  have hdistinct : (components.map (·.mergeSort)).Nodup := by
    refine List.pairwise_map.mpr (hdisjoint.imp_of_mem fun {c d} hc _ happart heq => ?_)
    obtain ⟨m, hm⟩ := List.exists_mem_of_ne_nil c fun hempty => h.inhabited (hempty ▸ hc)
    have hd : m ∈ d.mergeSort := heq ▸ List.mem_mergeSort.mpr hm
    exact happart hm (List.mem_mergeSort.mp hd)
  exact (List.mergeSort_perm _ _).nodup_iff.mpr (hdistinct.filter _)

/-- The cycles read off strongly connected components, in whatever order, are the import cycles. -/
theorem StrongComponents.cyclesAmong_eq (hwithin : (Graph.ofRecords r).ImportsWithin) :
    (ofRecords r).cyclesAmong components = (Graph.ofRecords r).importCycles := by
  have hcycles := Graph.cyclesAreComponents hwithin
  have hsorted : ((ofRecords r).cyclesAmong components).Pairwise fun c d => ¬ d < c := by
    have hafter (a b : List Nat) : (!b.lex a (· < ·)) = true ↔ ¬ b < a := by
      rw [Bool.not_eq_true', ← Bool.not_eq_true, List.lex_eq_true_iff_lt]
    have htrans (a b c : List Nat) : !b.lex a (· < ·) → !c.lex b (· < ·) → !c.lex a (· < ·) := by
      simp only [hafter, not_lt]
      exact le_trans
    have htotal (a b : List Nat) : !b.lex a (· < ·) || !a.lex b (· < ·) := by
      rw [Bool.or_eq_true, hafter, hafter, not_lt, not_lt]
      exact le_total a b
    exact (List.pairwise_mergeSort htrans htotal _).imp fun {a b} => (hafter a b).mp
  have hlisted : (Graph.ofRecords r).importCycles.Pairwise fun c d => ¬ d < c :=
    hcycles.sorted.imp fun hless => hless.asymm
  have hnodup : (Graph.ofRecords r).importCycles.Nodup := hcycles.sorted.imp ne_of_lt
  refine List.Perm.eq_of_pairwise (fun c d _ _ hcd hdc => ?_) hsorted hlisted ?_
  · exact le_antisymm (not_lt.mp hcd) (not_lt.mp hdc)
  rw [List.perm_ext_iff_of_nodup h.nodup_cyclesAmong hnodup]
  intro cycle
  rw [h.mem_cyclesAmong]
  exact (hcycles.components cycle).symm

end Components

end RelationGraph

/-- The queries of a graph follow the edges of its relationship graph, which connect its modules and
symbols. -/
structure Graph.FollowsEdges (g : Graph) : Prop where
  nodes : g.relations.nodes.Nodup
  ends : ∀ e ∈ g.relations.edges, e.source ∈ g.relations.nodes ∧ e.target ∈ g.relations.nodes
  topLevelSymbols : ∀ m, g.relations.targetsOf .defines (.module m) =
    (g.topLevelSymbols m).map (.symbol ·.id)
  childrenOf : ∀ s, g.relations.targetsOf .contains (.symbol s) =
    (g.childrenOf s).map (.symbol ·.id)
  callsTo : ∀ s, g.callsTo s = g.callsAlongEdges s
  importersOf : ∀ m, g.importersOf m = g.importsAlongEdges m
  hasComponents : ∃ components, RelationGraph.StrongComponents g.records.modules.length
    g.relations.importArcs components
  importCycles : ∀ components, RelationGraph.StrongComponents g.records.modules.length
    g.relations.importArcs components → g.importCycles = g.relations.cyclesAmong components

namespace Graph

section Edges

variable {r : Snapshot} (h : r.Consistent)
include h

/-- No module and no symbol is a node twice. -/
theorem nodup_nodes : (ofRecords r).relations.nodes.Nodup := by
  have hmodules : (r.modules.map fun m => GraphNode.module m.id).Nodup :=
    List.pairwise_map.mpr (h.symbols.modulesNumbered.increasing.imp fun hless => by
      simpa using Nat.ne_of_lt hless)
  have hsymbols : (r.symbols.map fun s => GraphNode.symbol s.id).Nodup :=
    List.pairwise_map.mpr (h.symbols.symbolsNumbered.increasing.imp fun hless => by
      simpa using Nat.ne_of_lt hless)
  refine List.nodup_append.mpr ⟨hmodules, hsymbols, fun a ha b hb => ?_⟩
  obtain ⟨_, _, rfl⟩ := List.mem_map.mp ha
  obtain ⟨_, _, rfl⟩ := List.mem_map.mp hb
  exact GraphNode.noConfusion

/-- Every module is a node. -/
theorem module_mem_nodes {m : Nat} (hm : m < r.modules.length) :
    .module m ∈ (ofRecords r).relations.nodes := by
  have hget := List.getElem?_eq_getElem hm
  have hid := h.symbols.modulesNumbered m _ hget
  exact List.mem_append_left _ (List.mem_map.mpr ⟨_, List.mem_of_getElem? hget, by rw [hid]⟩)

/-- Every symbol is a node. -/
theorem symbol_mem_nodes {s : Nat} (hs : s < r.symbols.length) :
    .symbol s ∈ (ofRecords r).relations.nodes := by
  have hget := List.getElem?_eq_getElem hs
  have hid := h.symbols.symbolsNumbered s _ hget
  exact List.mem_append_right _ (List.mem_map.mpr ⟨_, List.mem_of_getElem? hget, by rw [hid]⟩)

/-- A record in or around which something stands is a node, as is the module without such a record. -/
theorem around_mem_nodes {around : Option Nat} {m : Nat} (hm : m < r.modules.length)
    (haround : ∀ p, around = some p → ∃ s, r.symbols[p]? = some s ∧ s.module = m) :
    around.elim (.module m) .symbol ∈ (ofRecords r).relations.nodes := by
  cases around with
  | none => exact module_mem_nodes h hm
  | some p =>
    obtain ⟨_, hp, _⟩ := haround p rfl
    exact symbol_mem_nodes h (List.getElem?_eq_some_iff.mp hp).1

/-- Every edge connects nodes of the graph. -/
theorem ends_of_mem_edges {e : GraphEdge} (he : e ∈ (ofRecords r).relations.edges) :
    e.source ∈ (ofRecords r).relations.nodes ∧ e.target ∈ (ofRecords r).relations.nodes := by
  change e ∈ _ ++ _ ++ _ at he
  rw [List.mem_append, List.mem_append] at he
  rcases he with (he | he) | he
  · obtain ⟨s, hs, rfl⟩ := List.mem_map.mp he
    obtain ⟨i, hi⟩ := List.mem_iff_getElem?.mp hs
    have hid := h.symbols.symbolsNumbered i s hi
    refine ⟨around_mem_nodes h (h.symbols.inModule s hs) (h.symbols.parents s hs), ?_⟩
    exact symbol_mem_nodes h (hid ▸ (List.getElem?_eq_some_iff.mp hi).1)
  · obtain ⟨i, hi, hedge⟩ := List.mem_filterMap.mp he
    obtain ⟨m, hm, rfl⟩ := Option.map_eq_some_iff.mp hedge
    have hresolved := (ImportEdge.importedModule?_eq_some.mp hm).2
    exact ⟨module_mem_nodes h (h.imports.importers i hi),
      module_mem_nodes h (h.imports.resolved i hi m hresolved)⟩
  · obtain ⟨c, hc, hedge⟩ := List.mem_filterMap.mp he
    obtain ⟨s, hs, rfl⟩ := Option.map_eq_some_iff.mp hedge
    have htarget := CallTarget.symbol?_eq_some.mp hs
    exact ⟨around_mem_nodes h (h.calls.inModule c hc) (h.calls.callers c hc),
      symbol_mem_nodes h (h.calls.targets c hc s htarget)⟩

/-- The calls to a symbol are found along the edges. -/
theorem callsTo_eq_callsAlongEdges (s : Nat) :
    (ofRecords r).callsTo s = (ofRecords r).callsAlongEdges s := by
  have hscan : (r.calls.filter fun c => c.target == .symbol s) =
      r.calls.filter fun c => c.target.symbol? == some s := by
    refine List.filter_congr fun c _ => ?_
    rw [Bool.eq_iff_iff, beq_iff_eq, beq_iff_eq, CallTarget.symbol?_eq_some]
  rw [callsTo_ofRecords h, hscan, callsAlongEdges]
  split
  · rw [relations, RelationGraph.factsTo_calls]
    exact (h.calls.numbered.mergeSort_met _).symm
  · refine List.filter_eq_nil_iff.mpr fun c hc htarget => ?_
    have := h.calls.targets c hc s (CallTarget.symbol?_eq_some.mp (beq_iff_eq.mp htarget))
    contradiction

/-- The written imports of a module are found along the edges. -/
theorem importersOf_eq_importsAlongEdges (m : Nat) :
    (ofRecords r).importersOf m = (ofRecords r).importsAlongEdges m := by
  have hscan : (r.imports.filter fun e => !e.isSynthetic && e.status == .resolved m) =
      r.imports.filter fun e => e.importedModule? == some m := by
    refine List.filter_congr fun e _ => ?_
    rw [Bool.eq_iff_iff, beq_iff_eq, ImportEdge.importedModule?_eq_some, Bool.and_eq_true,
      beq_iff_eq, Bool.not_eq_true']
  rw [importersOf_ofRecords h, hscan, importsAlongEdges]
  split
  · rw [relations, RelationGraph.factsTo_imports]
    exact (h.imports.numbered.mergeSort_met _).symm
  · refine List.filter_eq_nil_iff.mpr fun e he himported => ?_
    have hresolved := (ImportEdge.importedModule?_eq_some.mp (beq_iff_eq.mp himported)).2
    have := h.imports.resolved e he m hresolved
    contradiction

/-- In a graph of consistent records imports stay within the graph. -/
theorem importsWithin_ofRecords : (ofRecords r).ImportsWithin := by
  rintro a b ⟨e, he, rfl, _, hstatus⟩
  exact ⟨h.imports.importers e he, h.imports.resolved e he b hstatus⟩

/-- Queries over consistent records follow the edges. -/
theorem followsEdges_ofRecords : (ofRecords r).FollowsEdges := by
  have hwithin := importsWithin_ofRecords h
  refine ⟨nodup_nodes h, fun e => ends_of_mem_edges h, fun m => ?_, fun s => ?_,
    callsTo_eq_callsAlongEdges h, importersOf_eq_importsAlongEdges h,
    RelationGraph.exists_strongComponents fun a b harc => ?_, fun components hcomponents => ?_⟩
  · rw [topLevelSymbols_ofRecords h]
    exact RelationGraph.targetsOf_defines m
  · rw [childrenOf_ofRecords h]
    exact RelationGraph.targetsOf_contains s
  · exact hwithin a b (RelationGraph.mem_importArcs.mp harc)
  · exact (RelationGraph.StrongComponents.cyclesAmong_eq hcomponents hwithin).symm

end Edges

end Graph

/-- In the graph of well-formed files the calls to a symbol, the imports of a module and the import
cycles are those that the relationship graph gives. -/
theorem queries_follow_edges (config : ResolutionConfig) (files : List FileFacts)
    (hnonempty : files ≠ []) (hfiles : ∀ file ∈ files, file.WellFormed) :
    ∃ graph, resolveFacts config files = .ok graph ∧ graph.FollowsEdges := by
  have himported := Tables.linkImports_consistent (Tables.ofFiles_consistent files hfiles)
    (Tables.ofFiles_written files)
  exact ⟨_, (completedRun_of_ne_nil config hnonempty).resolves,
    Graph.followsEdges_ofRecords (Tables.linkCalls_consistent config himported)⟩

end CodeAtlas
