import CodeAtlas.Proofs.Linking
import CodeAtlas.Proofs.Lists
import CodeAtlas.Proofs.ModuleLevel
import CodeAtlas.Proofs.Phases
import Mathlib.Data.List.Forall2

/-!
# Wildcards are expanded exactly

Linking the imports of a unit is one pass over the written edges, each of which is linked in place
and, if it is a wildcard with a target in the unit, appends its expansions behind everything that is
there. The table grows while the pass runs, but no edge looks at another, so the pass ends with the
linked edges followed by all expansions, in the order of their wildcards.

The expansions of a wildcard are then exactly one edge for every exposed symbol at the level of the
target, in the order of declaration. Nothing else is expanded, and an expansion never is.
-/

namespace CodeAtlas

/-- An edge that a wildcard gives for a symbol. -/
structure ImportEdge.Exposes (wildcard : ImportEdge) (e : ImportEdge) (s : Symbol) : Prop where
  module : e.module = wildcard.module
  target : e.target = wildcard.target
  depth : e.depth = wildcard.depth
  extent : e.extent = wildcard.extent
  name : e.name = .name s.name
  localName : e.localName = s.name
  binding : e.binding = some (.symbol s.id)
  status : e.status = .resolved s.module
  expandedFrom : e.expandedFrom = some wildcard.id

/-- Among numbered records only a record itself has its identity. -/
theorem Numbered.filter_identity {α : Type} {identity : α → Nat} {records : List α}
    (h : Numbered identity records) {record : α} (hmem : record ∈ records) :
    records.filter (fun other => identity other == identity record) = [record] := by
  have hincreasing := h.increasing
  clear h
  induction records with
  | nil => simp at hmem
  | cons first rest ih =>
    obtain ⟨hfirst, hrest⟩ := List.pairwise_cons.mp hincreasing
    rcases List.mem_cons.mp hmem with rfl | hmem
    · rw [List.filter_cons_of_pos (by simp), List.filter_eq_nil_iff.mpr]
      intro other hother
      have := hfirst other hother
      simp only [beq_iff_eq]
      omega
    · have := hfirst record hmem
      rw [List.filter_cons_of_neg (by simp only [beq_iff_eq]; omega), ih hmem hrest]

/-- In numbered records, what holds along the list holds from smaller to larger identities. -/
theorem Numbered.rel_of_pairwise {α : Type} {identity : α → Nat} {records : List α}
    (h : Numbered identity records) {R : α → α → Prop} (hpairwise : records.Pairwise R) {a b : α}
    (ha : a ∈ records) (hb : b ∈ records) (hlt : identity a < identity b) : R a b := by
  obtain ⟨halt, hget⟩ := List.getElem?_eq_some_iff.mp (h.getElem?_of_mem ha)
  obtain ⟨hblt, hget'⟩ := List.getElem?_eq_some_iff.mp (h.getElem?_of_mem hb)
  have hrel := List.pairwise_iff_getElem.mp hpairwise _ _ halt hblt hlt
  rwa [hget, hget'] at hrel

namespace Tables

variable {tables : Tables}

/-- The exposed symbols that stand at the level of a module, in the order of their identities. -/
def exposedAt (tables : Tables) (module : Nat) : List Symbol :=
  tables.symbols.toList.filter fun s => tables.atLevel module s && s.visibility.isExposed

/-- A wildcard offers the exposed symbols at the level of its target. -/
theorem exposedSymbols_eq_exposedAt (h : SymbolRecords tables.modules tables.symbols.toList)
    (horder : InModuleOrder tables.symbols.toList) (m : Nat) :
    tables.exposedSymbols m = tables.exposedAt m := by
  have hself : ∀ s ∈ tables.symbols.toList.filter (tables.atLevel m),
      (tables.symbols[s.id]?.filter fun t => t.visibility.isExposed) =
        Option.guard (fun t : Symbol => t.visibility.isExposed) s := by
    intro s hs
    have hget := h.symbolsNumbered.getElem?_of_mem (List.mem_filter.mp hs).1
    rw [Array.getElem?_toList] at hget
    rw [hget, Option.filter_some]
    rfl
  rw [exposedSymbols, topLevel_eq_filter h horder, List.filterMap_map]
  refine (List.filterMap_congr hself).trans ?_
  rw [List.filterMap_eq_filter, List.filter_filter]
  exact List.filter_congr fun s _ => Bool.and_comm _ _

/-- The expansions of an edge point back to it and are no wildcards. -/
theorem expansions_source {edge e : ImportEdge} (he : e ∈ tables.expansions edge) :
    e.expandedFrom = some edge.id ∧ e.name ≠ .wildcard := by
  obtain ⟨_, _, s, _, rfl⟩ := mem_expansions he
  exact ⟨rfl, ImportedName.noConfusion⟩

/-- Numbering edges changes nothing but their identities. -/
theorem numbered_filter_forall₂ {p : ImportEdge → Bool}
    (hp : ∀ e id, p { e with id := id } = p e) (start : Nat) (edges : List ImportEdge) :
    List.Forall₂ (fun new old => ∃ id, new = { old with id := id })
      ((numbered start edges).filter p) (edges.filter p) := by
  induction edges generalizing start with
  | nil => exact .nil
  | cons e edges ih =>
    have hcons : numbered start (e :: edges) = { e with id := start } :: numbered (start + 1) edges :=
      rfl
    rw [hcons, List.filter_cons, List.filter_cons, hp]
    split
    · exact .cons ⟨start, rfl⟩ (ih (start + 1))
    · exact ih (start + 1)

/-- A relation between edges that does not look at identities holds along numbered edges. -/
theorem numbered_pairwise {R : ImportEdge → ImportEdge → Prop}
    (hR : ∀ e e' id id', R e e' → R { e with id := id } { e' with id := id' }) (start : Nat)
    {edges : List ImportEdge} (h : edges.Pairwise R) : (numbered start edges).Pairwise R := by
  have hfirsts : ((edges.zipIdx start).map Prod.fst).Pairwise R := by
    rw [List.zipIdx_map_fst]
    exact h
  refine List.pairwise_map.mpr ((List.pairwise_map.mp hfirsts).imp ?_)
  intro a b hab
  exact hR a.1 b.1 a.2 b.2 hab

/-- Numbering can be done in two parts. -/
theorem numbered_append (start : Nat) (edges more : List ImportEdge) :
    numbered start (edges ++ more) =
      numbered start edges ++ numbered (start + edges.length) more := by
  rw [numbered, List.zipIdx_append, List.map_append]
  rfl

/-- The number of edges stays the same when they are numbered. -/
@[simp] theorem length_numbered (start : Nat) (edges : List ImportEdge) :
    (numbered start edges).length = edges.length := by
  simp [numbered]

/-- Among the expansions of numbered edges, those of one edge are recognized by its identity. -/
theorem filter_flatMap_expansions {linked : List ImportEdge} (h : Numbered ImportEdge.id linked)
    {edge : ImportEdge} (hedge : edge ∈ linked) :
    (linked.flatMap tables.expansions).filter (·.expandedFrom == some edge.id) =
      tables.expansions edge := by
  have hblock : ∀ other ∈ linked, ∀ e ∈ tables.expansions other,
      (e.expandedFrom == some edge.id) = (other.id == edge.id) := by
    intro other _ e he
    rw [(expansions_source he).1]
    rfl
  rw [filter_flatMap_of_blocks hblock, h.filter_identity hedge, List.flatMap_singleton]

/-- Link the edge at a position in place and append its expansions. -/
def linkAt (tables : Tables) (position : Nat) : Tables :=
  match tables.imports[position]? with
  | none => tables
  | some edge =>
    let (linked, doubts) := tables.linkImport edge
    { tables with
      imports := tables.imports.set position linked ++
        numbered tables.imports.length (tables.expansions linked)
      diagnostics := tables.diagnostics ++ doubts }

/-- One step of the pass links the edge that it has come to and appends its expansions. -/
theorem linkAt_next (tables : Tables) (done rest : List ImportEdge) {edge : ImportEdge}
    (h : tables.imports = done ++ edge :: rest) :
    tables.linkAt done.length =
      { tables with
        imports := done ++ (tables.linkImport edge).1 :: rest ++
          numbered tables.imports.length (tables.expansions (tables.linkImport edge).1)
        diagnostics := tables.diagnostics ++ (tables.linkImport edge).2 } := by
  have hget : tables.imports[done.length]? = some edge := by
    rw [h, List.getElem?_append_right (Nat.le_refl _), Nat.sub_self]
    rfl
  have hset (linked : ImportEdge) :
      tables.imports.set done.length linked = done ++ linked :: rest := by
    rw [h, List.set_append_right _ _ (Nat.le_refl _), Nat.sub_self]
    rfl
  simp only [linkAt, hget, hset]

/-- The pass over the edges that are still to come links them where they stand, and collects their
expansions behind those of earlier edges. -/
theorem foldl_linkAt (tables : Tables) (done rest derived : List ImportEdge)
    (doubts : List Diagnostic) :
    (List.range' done.length rest.length).foldl linkAt
        { tables with imports := done ++ (rest ++ derived), diagnostics := doubts } =
      { tables with
        imports := done ++ ((rest.map fun e => (tables.linkImport e).1) ++ (derived ++
          numbered (done ++ (rest ++ derived)).length
            ((rest.map fun e => (tables.linkImport e).1).flatMap tables.expansions)))
        diagnostics := doubts ++ rest.flatMap fun e => (tables.linkImport e).2 } := by
  -- An edge that has been linked moves to `done`, and its expansions to `derived`.
  induction rest generalizing done derived doubts with
  | nil => simp [numbered]
  | cons edge rest ih =>
    rw [List.length_cons, List.range'_succ, List.foldl_cons,
      linkAt_next _ done (rest ++ derived) rfl]
    have hnext := ih (done ++ [(tables.linkImport edge).1])
      (derived ++ numbered (done ++ (edge :: rest ++ derived)).length
        (tables.expansions (tables.linkImport edge).1)) (doubts ++ (tables.linkImport edge).2)
    refine Eq.trans (Eq.trans ?_ hnext) ?_
    · simp only [List.length_append, List.length_singleton, List.append_assoc, List.cons_append,
        List.nil_append]
      rfl
    · rw [List.map_cons, List.flatMap_cons, List.flatMap_cons, numbered_append]
      have hlength : (done ++ [(tables.linkImport edge).1] ++ (rest ++ (derived ++
          numbered (done ++ (edge :: rest ++ derived)).length
            (tables.expansions (tables.linkImport edge).1)))).length =
          (done ++ (edge :: rest ++ derived)).length +
            (tables.expansions (tables.linkImport edge).1).length := by
        simp only [List.length_append, List.length_cons, List.length_nil, length_numbered]
        omega
      rw [hlength]
      simp only [List.append_assoc, List.cons_append, List.nil_append]

/-- Linking the imports is one pass over the positions of the written edges. -/
theorem linkImports_eq_foldl (tables : Tables) :
    tables.linkImports = (List.range tables.imports.length).foldl linkAt tables := by
  have hpass := foldl_linkAt tables [] tables.imports [] tables.diagnostics
  simp only [List.nil_append, List.append_nil, List.length_nil] at hpass
  rw [List.range_eq_range', hpass]
  simp [linkImports, Function.comp_def, List.flatMap_map]

/-- What linking the imports of a unit makes of its wildcards. -/
structure WildcardsExpanded (before after : Tables) : Prop where
  /-- The pass takes every written edge once, in order, while it appends others. -/
  onePass : after = (List.range before.imports.length).foldl linkAt before
  /-- The written edges stay where they are, each with its own outcome. -/
  written : after.imports.take before.imports.length =
    before.imports.map fun e => (before.linkImport e).1
  decided : ∀ e ∈ after.imports, e.status ≠ .unresolved
  /-- A wildcard with a target in the unit gives one edge for each exposed symbol there, in order. -/
  complete : ∀ w ∈ after.imports, ∀ m, w.name = .wildcard → w.status = .resolved m →
    List.Forall₂ w.Exposes (after.imports.filter (·.expandedFrom == some w.id)) (after.exposedAt m)
  /-- Only written wildcards with a target in the unit are expanded. -/
  source : ∀ e ∈ after.imports, ∀ d ∈ after.imports, d.expandedFrom = some e.id →
    e.expandedFrom = none ∧ e.name = .wildcard ∧ ∃ m, e.status = .resolved m
  noWildcard : ∀ d ∈ after.imports, d.expandedFrom.isSome → d.name ≠ .wildcard
  behind : ∀ e ∈ after.imports, ∀ d ∈ after.imports, e.expandedFrom = none →
    d.expandedFrom.isSome → e.id < d.id
  grouped : ∀ d ∈ after.imports, ∀ other ∈ after.imports, d.id < other.id → ∀ w v,
    d.expandedFrom = some w → other.expandedFrom = some v → w ≤ v
  symbolOrder : InModuleOrder after.symbols.toList

/-- The name of a located module is decided. -/
theorem bindName_decided (tables : Tables) (m : Nat) (name : String) :
    (tables.bindName m name).1 ≠ .unresolved := by
  rw [bindName]
  split
  · exact ImportStatus.noConfusion
  · split <;> exact ImportStatus.noConfusion

/-- Every import is decided. -/
theorem judgeImport_decided (tables : Tables) (edge : ImportEdge) :
    (tables.judgeImport edge).1.1 ≠ .unresolved := by
  rw [judgeImport]
  dsimp only
  split
  · exact ImportStatus.noConfusion
  · exact ImportStatus.noConfusion
  · exact bindName_decided tables _ _
  · split <;> exact ImportStatus.noConfusion
  · exact ImportStatus.noConfusion

/-- The written edges of a unit after linking. -/
def linkedImports (tables : Tables) : List ImportEdge :=
  tables.imports.map fun e => (tables.linkImport e).1

/-- A linked edge is a written one, or an expansion of a resolved wildcard among these. -/
theorem mem_linkImports (hwritten : ∀ e ∈ tables.imports, e.expandedFrom = none) {e : ImportEdge}
    (he : e ∈ tables.linkImports.imports) :
    (e ∈ tables.linkedImports ∧ e.expandedFrom = none) ∨
      ∃ w ∈ tables.linkedImports, w.name = .wildcard ∧ (∃ m, w.status = .resolved m) ∧
        ∃ s id, e = { expansionFor w s with id := id } := by
  rw [linkImports_imports] at he
  rcases List.mem_append.mp he with he | he
  · obtain ⟨edge, hedge, rfl⟩ := List.mem_map.mp he
    exact .inl ⟨he, hwritten edge hedge⟩
  · obtain ⟨edge, hedge, id, rfl⟩ := mem_numbered he
    obtain ⟨w, hw, hexpansion⟩ := List.mem_flatMap.mp hedge
    obtain ⟨hname, hstatus, s, _, rfl⟩ := mem_expansions hexpansion
    exact .inr ⟨w, hw, hname, hstatus, s, id, rfl⟩

/-- After linking no edge is undecided. -/
theorem linkImports_decided (hwritten : ∀ e ∈ tables.imports, e.expandedFrom = none)
    {e : ImportEdge} (he : e ∈ tables.linkImports.imports) : e.status ≠ .unresolved := by
  rcases mem_linkImports hwritten he with ⟨he, _⟩ | ⟨_, _, _, _, s, id, rfl⟩
  · obtain ⟨edge, _, rfl⟩ := List.mem_map.mp he
    exact judgeImport_decided tables edge
  · exact ImportStatus.noConfusion

/-- Expansions are no wildcards. -/
theorem linkImports_noWildcard (hwritten : ∀ e ∈ tables.imports, e.expandedFrom = none)
    {d : ImportEdge} (hd : d ∈ tables.linkImports.imports) (hsome : d.expandedFrom.isSome) :
    d.name ≠ .wildcard := by
  rcases mem_linkImports hwritten hd with ⟨_, hnone⟩ | ⟨_, _, _, _, s, id, rfl⟩
  · rw [hnone] at hsome
    cases hsome
  · exact ImportedName.noConfusion

/-- Expansions stand behind every written edge. -/
theorem linkImports_behind (h : Numbered ImportEdge.id tables.imports)
    (hwritten : ∀ e ∈ tables.imports, e.expandedFrom = none) {e d : ImportEdge}
    (he : e ∈ tables.linkImports.imports) (hd : d ∈ tables.linkImports.imports)
    (hnone : e.expandedFrom = none) (hsome : d.expandedFrom.isSome) : e.id < d.id := by
  have hfirst : e.id < tables.imports.length := by
    rcases mem_linkImports hwritten he with ⟨he, _⟩ | ⟨_, _, _, _, s, id, rfl⟩
    · obtain ⟨edge, hedge, rfl⟩ := List.mem_map.mp he
      exact (h.lt_of_mem hedge : edge.id < _)
    · cases hnone
  rw [linkImports_imports] at hd
  rcases List.mem_append.mp hd with hd | hd
  · obtain ⟨edge, hedge, rfl⟩ := List.mem_map.mp hd
    rw [show (tables.linkImport edge).1.expandedFrom = none from hwritten edge hedge] at hsome
    cases hsome
  · obtain ⟨⟨edge, id⟩, hmem, rfl⟩ := List.mem_map.mp hd
    exact hfirst.trans_le (List.le_snd_of_mem_zipIdx hmem)

/-- Along the table of linked edges the expansions follow the order of their wildcards. -/
theorem linkImports_grouped (h : Numbered ImportEdge.id tables.imports)
    (hwritten : ∀ e ∈ tables.imports, e.expandedFrom = none) :
    tables.linkImports.imports.Pairwise fun d other => ∀ w v,
      d.expandedFrom = some w → other.expandedFrom = some v → w ≤ v := by
  have hnumbered : Numbered ImportEdge.id tables.linkedImports := h.map _ fun _ => rfl
  have hlinked : ∀ e ∈ tables.linkedImports, e.expandedFrom = none := by
    intro e he
    obtain ⟨edge, hedge, rfl⟩ := List.mem_map.mp he
    exact hwritten edge hedge
  rw [linkImports_imports]
  change (tables.linkedImports ++ _).Pairwise _
  refine List.pairwise_append.mpr ⟨?_, ?_, ?_⟩
  · refine List.Pairwise.imp_of_mem ?_ (List.pairwise_of_forall fun _ _ => trivial)
    intro d other hd _ _ w v hw
    rw [hlinked d hd] at hw
    cases hw
  · refine numbered_pairwise (fun _ _ _ _ h => h) _ (List.pairwise_flatMap.mpr ⟨?_, ?_⟩)
    · intro e _
      refine List.Pairwise.imp_of_mem ?_ (List.pairwise_of_forall fun _ _ => trivial)
      intro d other hd hother _ w v hw hv
      rw [(expansions_source hd).1] at hw
      rw [(expansions_source hother).1] at hv
      exact (Option.some.inj (hw.symm.trans hv)).le
    · refine hnumbered.increasing.imp ?_
      intro e e' hlt d hd other hother w v hw hv
      rw [(expansions_source hd).1] at hw
      rw [(expansions_source hother).1] at hv
      cases hw
      cases hv
      exact hlt.le
  · intro d hd other _ w v hw
    rw [hlinked d hd] at hw
    cases hw

/-- The expansions of a wildcard in the table of linked edges. -/
theorem linkImports_complete (h : tables.records.Consistent)
    (hwritten : ∀ e ∈ tables.imports, e.expandedFrom = none)
    (horder : InModuleOrder tables.symbols.toList) {w : ImportEdge} (hw : w ∈ tables.linkedImports)
    {m : Nat} (hname : w.name = .wildcard) (hstatus : w.status = .resolved m) :
    List.Forall₂ w.Exposes (tables.linkImports.imports.filter (·.expandedFrom == some w.id))
      (tables.exposedAt m) := by
  have hnumbered : Numbered ImportEdge.id tables.linkedImports :=
    h.imports.numbered.map _ fun _ => rfl
  have hnone : tables.linkedImports.filter (·.expandedFrom == some w.id) = [] := by
    refine List.filter_eq_nil_iff.mpr fun e he hfrom => ?_
    obtain ⟨edge, hedge, rfl⟩ := List.mem_map.mp he
    rw [show (tables.linkImport edge).1.expandedFrom = none from hwritten edge hedge] at hfrom
    cases hfrom
  have hexpansions : tables.expansions w = (tables.exposedAt m).map (expansionFor w) := by
    rw [expansions, hname, hstatus, ← exposedSymbols_eq_exposedAt h.symbols horder]
  have hderived := numbered_filter_forall₂ (p := fun e => e.expandedFrom == some w.id)
    (fun _ _ => rfl) tables.imports.length (tables.linkedImports.flatMap tables.expansions)
  rw [filter_flatMap_expansions hnumbered hw, hexpansions, List.forall₂_map_right_iff] at hderived
  rw [linkImports_imports, List.filter_append]
  change List.Forall₂ _ (tables.linkedImports.filter _ ++ _) _
  rw [hnone, List.nil_append]
  refine hderived.imp ?_
  rintro e s ⟨id, rfl⟩
  exact ⟨rfl, rfl, rfl, rfl, rfl, rfl, rfl, rfl, rfl⟩

/-- Linking the written imports of a unit expands its wildcards exactly. -/
theorem linkImports_expands (h : tables.records.Consistent)
    (hwritten : ∀ e ∈ tables.imports, e.expandedFrom = none)
    (horder : InModuleOrder tables.symbols.toList) :
    WildcardsExpanded tables tables.linkImports := by
  have hlinked : Numbered ImportEdge.id tables.linkedImports :=
    h.imports.numbered.map _ fun _ => rfl
  have hnumbered : Numbered ImportEdge.id tables.linkImports.imports :=
    (linkImports_consistent h hwritten).imports.numbered
  refine ⟨linkImports_eq_foldl tables, ?_, ?_, ?_, ?_, ?_, ?_, ?_, horder⟩
  · rw [linkImports_imports, List.take_left' (List.length_map _)]
  · intro e he
    exact linkImports_decided hwritten he
  · intro w hw m hname hstatus
    rcases mem_linkImports hwritten hw with ⟨hw, _⟩ | ⟨_, _, _, _, s, id, rfl⟩
    · exact linkImports_complete h hwritten horder hw hname hstatus
    · cases hname
  · intro e he d hd hfrom
    obtain ⟨w, hw, hrest⟩ := (linkImports_consistent h hwritten).imports.derived d hd e.id hfrom
    obtain rfl := Option.some.inj (hw.symm.trans (hnumbered.getElem?_of_mem he))
    exact ⟨hrest.1, hrest.2.1, hrest.2.2.1⟩
  · intro d hd hsome
    exact linkImports_noWildcard hwritten hd hsome
  · intro e he d hd
    exact linkImports_behind h.imports.numbered hwritten he hd
  · intro d hd other hother hlt
    exact hnumbered.rel_of_pairwise (linkImports_grouped h.imports.numbered hwritten) hd hother hlt

end Tables

/-- Over every non-empty list of well-formed files, linking the imports expands exactly the written
wildcards with a target in the unit, each into one edge for every symbol that the target exposes. -/
theorem wildcards_are_expanded_exactly (config : ResolutionConfig) (files : List FileFacts)
    (hnonempty : files ≠ []) (hfiles : ∀ file ∈ files, file.WellFormed) :
    ∃ collected imported called graph,
      CompletedRun config files collected imported called graph ∧
        Tables.WildcardsExpanded collected.tables imported.tables ∧
        graph.records.imports = imported.tables.imports := by
  refine ⟨_, _, _, _, completedRun_of_ne_nil config hnonempty, ?_, rfl⟩
  exact Tables.linkImports_expands (Tables.ofFiles_consistent files hfiles)
    (Tables.ofFiles_written files) (Tables.ofFiles_inModuleOrder files)

/-- A file that imports every name of itself and of a file that does the same, next to the two files
of a package. -/
theorem wildcards_are_expanded_exactly_cyclic :
    ∃ collected imported called graph,
      CompletedRun {}
        [{ path := ⟨"a.py"⟩
           language := .python
           declarations :=
            [{ name := "shown", kind := .function, parent := none, visibility := .exposed },
              { name := "_kept", kind := .function, parent := none, visibility := .hidden }]
           imports :=
            [{ target := "a", name := .wildcard, localName := "*" },
              { target := "b", name := .wildcard, localName := "*" }] },
          { path := ⟨"b.py"⟩, language := .python
            imports := [{ target := "a", name := .wildcard, localName := "*" }] },
          { path := ⟨"pkg/one.go"⟩, language := .go
            declarations :=
              [{ name := "One", kind := .function, parent := none, visibility := .exposed }] },
          { path := ⟨"pkg/two.go"⟩, language := .go
            declarations :=
              [{ name := "Two", kind := .function, parent := none, visibility := .exposed }]
            imports := [{ target := "pkg", name := .wildcard, localName := "." }] }]
        collected imported called graph ∧
        Tables.WildcardsExpanded collected.tables imported.tables ∧
        graph.records.imports = imported.tables.imports := by
  refine wildcards_are_expanded_exactly _ _ (List.cons_ne_nil _ _) fun file hfile => ?_
  simp only [List.mem_cons, List.not_mem_nil, or_false] at hfile
  rcases hfile with rfl | rfl | rfl | rfl
  all_goals exact FileFacts.wellFormed_of_flat (by simp) rfl

end CodeAtlas
