import CodeAtlas.Proofs.Closure
import CodeAtlas.Proofs.Consistency

/-!
# Linking keeps records consistent

In consistent tables the existing modules and symbols are closed under the steps of a look-up, so
every look-up that starts at an existing place ends at one. Linking imports fills in located modules
and bindings and appends the expansions of wildcards, each of which points back to its wildcard.
Linking calls fills in targets. Neither touches modules and symbols.
-/

namespace CodeAtlas.Tables

variable {tables : Tables}

/-- The symbols at the level of any module exist. -/
theorem lt_of_mem_topLevel (h : SymbolRecords tables.modules tables.symbols.toList) {m id : Nat}
    (hid : id ∈ tables.topLevel m) : id < tables.symbols.size := by
  have hlisted : ∀ n ∈ tables.modules, ∀ c ∈ n.symbols, c < tables.symbols.size := by
    intro n hn c hc
    obtain ⟨i, hget⟩ := List.mem_iff_getElem?.mp hn
    obtain ⟨s, hs, _⟩ := ((h.topLevels i n hget).mem_iff c).mp hc
    rw [← Array.length_toList]
    exact (List.getElem?_eq_some_iff.mp hs).1
  rw [topLevel] at hid
  split at hid
  · simp at hid
  · rename_i n hn
    split at hid
    · obtain ⟨other, hother, hmem⟩ := List.mem_flatMap.mp hid
      exact hlisted other (List.mem_filter.mp hother).1 id hmem
    · exact hlisted n (List.mem_of_getElem? hn) id hid

/-- Modules that are found among those of an ecosystem exist. -/
theorem lt_of_head?_modulesWhere (h : Numbered Module.id tables.modules) {lang : Language}
    {p : List String → Bool} {m : Nat}
    (hm : ((tables.modulesWhere lang p).head?).map (·.id) = some m) : m < tables.modules.length := by
  obtain ⟨found, hfound, rfl⟩ := Option.map_eq_some_iff.mp hm
  have hmem := (List.mem_filter.mp (List.mem_of_mem_head? hfound)).1
  exact h.lt_of_mem hmem

/-- A module with a key exists. -/
theorem lt_of_moduleAt? (h : Numbered Module.id tables.modules) {lang : Language}
    {key : List String} {m : Nat} (hm : tables.moduleAt? lang key = some m) :
    m < tables.modules.length := lt_of_head?_modulesWhere h hm

/-- A submodule exists. -/
theorem lt_of_submodule? (h : Numbered Module.id tables.modules) {m : Nat} {name : String}
    {sub : Nat} (hsub : tables.submodule? m name = some sub) : sub < tables.modules.length := by
  obtain ⟨_, _, hat⟩ := Option.bind_eq_some_iff.mp hsub
  exact lt_of_moduleAt? h hat

/-- A located module exists. -/
theorem lt_of_locate (h : Numbered Module.id tables.modules) {origin depth m : Nat}
    {segments : List String} (hm : (tables.locate origin depth segments).1 = some m) :
    m < tables.modules.length := by
  rw [locate] at hm
  generalize hrelative : (if depth = 0 then none else
    (Place.base? ((tables.modules[origin]?).getD default).place depth).bind fun base =>
      tables.moduleAt? ((tables.modules[origin]?).getD default).language (base ++ segments)) =
        relative at hm
  split at hm
  · change relative = some m at hm
    rw [hm] at hrelative
    split at hrelative
    · cases hrelative
    · obtain ⟨_, _, hat⟩ := Option.bind_eq_some_iff.mp hrelative
      exact lt_of_moduleAt? h hat
  · split at hm
    · cases hm
    · split at hm
      · rename_i found hfound
        exact Option.some.inj hm ▸ lt_of_moduleAt? h hfound
      · exact lt_of_head?_modulesWhere h hm

/-- The existing modules and symbols of consistent tables are closed under look-up steps. -/
theorem closed_of_consistent (h : tables.records.Consistent) :
    tables.Closed (· < tables.modules.length) (· < tables.symbols.size) := by
  have hsymbols : SymbolRecords tables.modules tables.symbols.toList := h.symbols
  have hmem {id : Nat} {s : Symbol} (hs : tables.symbols[id]? = some s) :
      s ∈ tables.symbols.toList :=
    List.mem_of_getElem? (by rwa [Array.getElem?_toList])
  have hlt {id : Nat} {s : Symbol} (hs : tables.symbols.toList[id]? = some s) :
      id < tables.symbols.size := by
    rw [← Array.length_toList]
    exact (List.getElem?_eq_some_iff.mp hs).1
  refine ⟨?_, ?_, ?_, ?_, ?_, ?_, ?_⟩
  · intro m _ id hid
    exact lt_of_mem_topLevel hsymbols hid
  · intro m name sub _ hsub
    exact lt_of_submodule? hsymbols.modulesNumbered hsub
  · intro id s _ hs c hc
    rw [← Array.getElem?_toList] at hs
    obtain ⟨child, hchild, _⟩ := ((hsymbols.children id s hs).mem_iff c).mp hc
    exact hlt hchild
  · intro id s p _ hs hp
    obtain ⟨around, haround, _⟩ := hsymbols.parents s (hmem hs) p hp
    exact hlt haround
  · intro id s _ hs
    exact hsymbols.inModule s (hmem hs)
  · intro e he _ id hid
    have hexists : id < tables.symbols.toList.length := h.imports.bindings e he _ hid
    rwa [Array.length_toList] at hexists
  · intro e he _ id hid
    exact h.imports.bindings e he _ hid

/-- What becomes of an import leads to existing records. -/
def ImportOutcomeExists (tables : Tables) (outcome : ImportStatus × Option ImportBinding) : Prop :=
  (∀ m, outcome.1 = .resolved m → m < tables.modules.length) ∧
    ∀ b, outcome.2 = some b → b.Exists tables.modules tables.symbols.toList

/-- Resolving an import to an existing module as a whole leads to existing records. -/
theorem outcome_module {m : Nat} (hm : m < tables.modules.length) :
    tables.ImportOutcomeExists (.resolved m, some (.module m)) := by
  constructor
  · rintro _ ⟨⟩
    exact hm
  · rintro _ ⟨⟩
    exact hm

/-- Resolving an import to an existing module without a binding leads to existing records. -/
theorem outcome_unbound {m : Nat} (hm : m < tables.modules.length) :
    tables.ImportOutcomeExists (.resolved m, none) := by
  constructor
  · rintro _ ⟨⟩
    exact hm
  · rintro _ ⟨⟩

/-- An import from outside of the unit leads nowhere. -/
theorem outcome_external : tables.ImportOutcomeExists (.external, none) := by
  constructor <;> rintro _ ⟨⟩

/-- A name of an existing module is bound to existing records. -/
theorem outcome_bindName (h : SymbolRecords tables.modules tables.symbols.toList) {m : Nat}
    (hm : m < tables.modules.length) (name : String) :
    tables.ImportOutcomeExists (tables.bindName m name) := by
  rw [bindName]
  split
  · rename_i id hid
    have hmem := (List.mem_filter.mp (List.mem_of_mem_head? hid)).1
    constructor
    · rintro _ ⟨⟩
      exact hm
    · rintro _ ⟨⟩
      change id < tables.symbols.toList.length
      rw [Array.length_toList]
      exact lt_of_mem_topLevel h hmem
  · split
    · exact outcome_module (lt_of_submodule? h.modulesNumbered ‹_›)
    · exact outcome_unbound hm

/-- What becomes of any import leads to existing records. -/
theorem outcome_judgeImport (h : SymbolRecords tables.modules tables.symbols.toList)
    (edge : ImportEdge) : tables.ImportOutcomeExists (tables.judgeImport edge).1 := by
  have hlocated {depth m : Nat} {segments : List String}
      (hm : (tables.locate edge.module depth segments).1 = some m) : m < tables.modules.length :=
    lt_of_locate h.modulesNumbered hm
  rw [judgeImport]
  dsimp only
  split
  · exact outcome_module (hlocated ‹_›)
  · exact outcome_unbound (hlocated ‹_›)
  · exact outcome_bindName h (hlocated ‹_›) _
  · split
    · exact outcome_module (hlocated ‹_›)
    · exact outcome_external
  · exact outcome_external

/-- The expansions of a linked import are those of a wildcard for the exposed symbols of its
target. -/
theorem mem_expansions_iff {edge e : ImportEdge} :
    e ∈ tables.expansions edge ↔
      edge.name = .wildcard ∧ ∃ m, edge.status = .resolved m ∧
        ∃ s ∈ tables.exposedSymbols m, e = expansionFor edge s := by
  rw [expansions]
  split
  · rename_i m hname hstatus
    simp [hname, hstatus, eq_comm]
  · rename_i hnot
    simp only [List.not_mem_nil, false_iff]
    rintro ⟨hname, m, hstatus, _⟩
    exact hnot m hname hstatus

/-- The expansions of a linked import come from a resolved wildcard. -/
theorem mem_expansions {edge e : ImportEdge} (he : e ∈ tables.expansions edge) :
    edge.name = .wildcard ∧ (∃ m, edge.status = .resolved m) ∧
      ∃ s ∈ tables.symbols.toList, e = expansionFor edge s := by
  obtain ⟨hname, m, hstatus, s, hs, rfl⟩ := mem_expansions_iff.mp he
  obtain ⟨id, _, hget⟩ := List.mem_filterMap.mp hs
  have hsymbol := (Option.filter_eq_some_iff.mp hget).1
  rw [← Array.getElem?_toList] at hsymbol
  exact ⟨hname, ⟨m, hstatus⟩, s, List.mem_of_getElem? hsymbol, rfl⟩

/-- The imports after linking: the written ones, then the numbered expansions. -/
theorem linkImports_imports (tables : Tables) :
    tables.linkImports.imports =
      tables.imports.map (fun e => (tables.linkImport e).1) ++
        numbered tables.imports.length
          ((tables.imports.map fun e => (tables.linkImport e).1).flatMap tables.expansions) := by
  simp [linkImports, Function.comp_def]

/-- Numbered edges differ from the given ones in their identity only. -/
theorem mem_numbered {start : Nat} {edges : List ImportEdge} {e : ImportEdge}
    (he : e ∈ numbered start edges) : ∃ edge ∈ edges, ∃ id, e = { edge with id := id } := by
  obtain ⟨⟨edge, id⟩, hmem, rfl⟩ := List.mem_map.mp he
  exact ⟨edge, List.fst_mem_of_mem_zipIdx hmem, id, rfl⟩

/-- An import after linking is one that was written, or it is expanded from a wildcard among these. -/
theorem mem_linkImports_cases {e : ImportEdge} (he : e ∈ tables.linkImports.imports) :
    (∃ edge ∈ tables.imports, e = (tables.linkImport edge).1) ∨
      ∃ edge ∈ tables.imports, (tables.linkImport edge).1.name = .wildcard ∧
        (∃ m, (tables.linkImport edge).1.status = .resolved m) ∧
        ∃ s ∈ tables.symbols.toList, ∃ id,
          e = { expansionFor (tables.linkImport edge).1 s with id := id } := by
  rw [linkImports_imports] at he
  rcases List.mem_append.mp he with he | he
  · obtain ⟨edge, hedge, rfl⟩ := List.mem_map.mp he
    exact .inl ⟨edge, hedge, rfl⟩
  · obtain ⟨expanded, hexpanded, id, rfl⟩ := mem_numbered he
    obtain ⟨wildcard, hwildcard, hexpansion⟩ := List.mem_flatMap.mp hexpanded
    obtain ⟨edge, hedge, rfl⟩ := List.mem_map.mp hwildcard
    obtain ⟨hname, hstatus, s, hs, rfl⟩ := mem_expansions hexpansion
    exact .inr ⟨edge, hedge, hname, hstatus, s, hs, id, rfl⟩

section Records

variable {e : ImportEdge}

/-- Linking goes on with the numbering of the imports. -/
theorem linkImports_numbered (h : Numbered ImportEdge.id tables.imports) :
    Numbered ImportEdge.id tables.linkImports.imports := by
  have hlinked : Numbered ImportEdge.id (tables.imports.map fun e => (tables.linkImport e).1) :=
    h.map _ fun _ => rfl
  rw [linkImports_imports]
  refine hlinked.append fun i e he => ?_
  rw [numbered, List.getElem?_map, List.getElem?_zipIdx] at he
  obtain ⟨_, hpair, rfl⟩ := Option.map_eq_some_iff.mp he
  obtain ⟨_, _, rfl⟩ := Option.map_eq_some_iff.mp hpair
  rw [List.length_map]

/-- Linked and expanded imports belong to modules. -/
theorem importer_of_mem_linkImports
    (h : ImportRecords tables.modules tables.symbols.toList tables.imports)
    (he : e ∈ tables.linkImports.imports) : e.module < tables.modules.length := by
  rcases mem_linkImports_cases he with ⟨edge, hedge, rfl⟩ | ⟨edge, hedge, _, _, _, _, _, rfl⟩
  · exact h.importers edge hedge
  · exact h.importers edge hedge

/-- Linked and expanded imports are resolved to modules. -/
theorem resolved_of_mem_linkImports (h : SymbolRecords tables.modules tables.symbols.toList)
    (he : e ∈ tables.linkImports.imports) {m : Nat} (hm : e.status = .resolved m) :
    m < tables.modules.length := by
  rcases mem_linkImports_cases he with ⟨edge, _, rfl⟩ | ⟨_, _, _, _, s, hs, _, rfl⟩
  · exact (outcome_judgeImport h edge).1 m hm
  · cases hm
    exact h.inModule s hs

/-- Linked and expanded imports bind existing records. -/
theorem binding_of_mem_linkImports (h : SymbolRecords tables.modules tables.symbols.toList)
    (he : e ∈ tables.linkImports.imports) {b : ImportBinding} (hb : e.binding = some b) :
    b.Exists tables.modules tables.symbols.toList := by
  rcases mem_linkImports_cases he with ⟨edge, _, rfl⟩ | ⟨_, _, _, _, s, hs, _, rfl⟩
  · exact (outcome_judgeImport h edge).2 b hb
  · cases hb
    exact h.symbolsNumbered.lt_of_mem hs

/-- An expanded import refers to the wildcard that it comes from. -/
theorem derived_of_mem_linkImports (h : Numbered ImportEdge.id tables.imports)
    (hwritten : ∀ e ∈ tables.imports, e.expandedFrom = none)
    (he : e ∈ tables.linkImports.imports) {w : Nat} (hw : e.expandedFrom = some w) :
    ∃ wildcard, tables.linkImports.imports[w]? = some wildcard ∧ wildcard.expandedFrom = none ∧
      wildcard.name = .wildcard ∧ (∃ m, wildcard.status = .resolved m) ∧
      wildcard.module = e.module := by
  rcases mem_linkImports_cases he with ⟨edge, hedge, rfl⟩ |
    ⟨edge, hedge, hname, hstatus, _, _, _, rfl⟩
  · rw [show (tables.linkImport edge).1.expandedFrom = none from hwritten edge hedge] at hw
    cases hw
  · cases hw
    refine ⟨(tables.linkImport edge).1, ?_, hwritten edge hedge, hname, hstatus, rfl⟩
    have hmem : (tables.linkImport edge).1 ∈ tables.linkImports.imports := by
      rw [linkImports_imports]
      exact List.mem_append_left _ (List.mem_map_of_mem hedge)
    exact (linkImports_numbered h).getElem?_of_mem hmem

end Records

/-- Linking written imports keeps all records consistent. -/
theorem linkImports_consistent (h : tables.records.Consistent)
    (hwritten : ∀ e ∈ tables.imports, e.expandedFrom = none) :
    tables.linkImports.records.Consistent := by
  have hsymbols : SymbolRecords tables.modules tables.symbols.toList := h.symbols
  have himports : ImportRecords tables.modules tables.symbols.toList tables.imports := h.imports
  refine ⟨h.symbols, ?_, h.calls⟩
  change ImportRecords tables.modules tables.symbols.toList tables.linkImports.imports
  exact
    { numbered := linkImports_numbered himports.numbered
      importers := fun _ he => importer_of_mem_linkImports himports he
      resolved := fun _ he _ hm => resolved_of_mem_linkImports hsymbols he hm
      bindings := fun _ he _ hb => binding_of_mem_linkImports hsymbols he hb
      derived := fun _ he _ hw => derived_of_mem_linkImports himports.numbered hwritten he hw }

/-- The calls after linking. -/
theorem linkCalls_calls (tables : Tables) (config : ResolutionConfig) :
    (tables.linkCalls config).calls =
      tables.calls.map fun c => (tables.linkCall config c).1 := by
  simp [linkCalls, Function.comp_def]

/-- Linking calls adds the doubts about each of them, in their order. -/
theorem linkCalls_diagnostics (tables : Tables) (config : ResolutionConfig) :
    (tables.linkCalls config).diagnostics =
      tables.diagnostics ++ tables.calls.flatMap fun call => (tables.linkCall config call).2 := by
  simp [linkCalls, List.flatMap_map]

/-- Linking calls keeps all records consistent. -/
theorem linkCalls_consistent (config : ResolutionConfig) (h : tables.records.Consistent) :
    (tables.linkCalls config).records.Consistent := by
  have hcalls : CallRecords tables.modules tables.symbols.toList tables.calls := h.calls
  have hlinked := linkCalls_calls tables config
  have horigin : ∀ c ∈ (tables.linkCalls config).calls,
      ∃ call ∈ tables.calls, c = (tables.linkCall config call).1 := by
    intro c hc
    rw [hlinked] at hc
    obtain ⟨call, hcall, rfl⟩ := List.mem_map.mp hc
    exact ⟨call, hcall, rfl⟩
  refine ⟨h.symbols, h.imports, ?_⟩
  change CallRecords tables.modules tables.symbols.toList (tables.linkCalls config).calls
  refine ⟨?_, ?_, ?_, ?_, ?_⟩
  · rw [hlinked]
    exact hcalls.numbered.map _ fun _ => rfl
  · intro c hc
    obtain ⟨call, hcall, rfl⟩ := horigin c hc
    exact hcalls.inModule call hcall
  · intro c hc p hp
    obtain ⟨call, hcall, rfl⟩ := horigin c hc
    exact hcalls.callers call hcall p hp
  · intro c hc p hp
    obtain ⟨call, hcall, rfl⟩ := horigin c hc
    exact hcalls.decorated call hcall p hp
  · intro c hc p hp
    obtain ⟨call, hcall, rfl⟩ := horigin c hc
    have hcaller : ∀ id, call.caller = some id → id < tables.symbols.size := by
      intro id hid
      obtain ⟨s, hs, _⟩ := hcalls.callers call hcall id hid
      rw [← Array.length_toList]
      exact (List.getElem?_eq_some_iff.mp hs).1
    rw [Array.length_toList]
    exact (closed_of_consistent h).judgeCall config call (hcalls.inModule call hcall) hcaller p hp

end CodeAtlas.Tables
