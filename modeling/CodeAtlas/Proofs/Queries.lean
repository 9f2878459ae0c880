import CodeAtlas.Proofs.Conservation
import CodeAtlas.Proofs.Lists
import CodeAtlas.Proofs.ModuleLevel
import CodeAtlas.Proofs.Representation

/-!
# Queries answer like scans

A graph answers some queries from its index: a bucket of edges for every record that edges lead to,
the symbols by name, and the modules by path. Others follow the lists of children that records carry.
Filling the index one record at a time keeps the order of the records, and records stand at the
position that they carry as their identity, so every such answer is what a plain scan over all
records would give, also for an identity that no record has.
-/

namespace CodeAtlas

/-- Looking up the identities of numbered records gives the records back. -/
theorem Numbered.filterMap_identities {α : Type} {identity : α → Nat} {records chosen : List α}
    (h : Numbered identity records) (hchosen : ∀ record ∈ chosen, record ∈ records) :
    (chosen.map identity).filterMap (fun id => records[id]?) = chosen := by
  rw [List.filterMap_map]
  calc chosen.filterMap ((fun id => records[id]?) ∘ identity)
      = chosen.filterMap some :=
        List.filterMap_congr fun record hrecord => h.getElem?_of_mem (hchosen record hrecord)
    _ = chosen := List.filterMap_some

/-- Numbered records are listed once each. -/
theorem Numbered.nodup {α : Type} {identity : α → Nat} {records : List α}
    (h : Numbered identity records) : records.Nodup := by
  refine h.increasing.imp ?_
  rintro record _ hless rfl
  exact absurd hless (Nat.lt_irrefl _)

namespace Index

/-- After adding records, a bucket holds what it held and then the records that belong into it. -/
theorem foldl_addTo_getElem? {α : Type} (bucket : α → Option Nat) (id : α → Nat) (records : List α)
    {buckets : List (List Nat)} {b : Nat} {held : List Nat} (hheld : buckets[b]? = some held) :
    (records.foldl (fun acc r => addTo acc (bucket r) (id r)) buckets)[b]? =
      some (held ++ (records.filter fun r => bucket r == some b).map id) := by
  induction records generalizing buckets held with
  | nil => simpa using hheld
  | cons record records ih =>
    rw [List.foldl_cons, List.filter_cons]
    by_cases hbucket : bucket record = some b
    · have hadded : (addTo buckets (bucket record) (id record))[b]? = some (held ++ [id record]) := by
        rw [addTo, hbucket, Option.elim_some, List.getElem?_modify_eq, hheld]
        rfl
      rw [ih hadded, if_pos (beq_iff_eq.mpr hbucket), List.map_cons, List.append_assoc]
      rfl
    · have hkept : (addTo buckets (bucket record) (id record))[b]? = some held := by
        cases hother : bucket record with
        | none => exact hheld
        | some other =>
          have hne : other ≠ b := fun heq => hbucket (heq ▸ hother)
          rw [addTo, Option.elim_some, List.getElem?_modify_ne _ _ hne, hheld]
      rw [ih hkept, if_neg (by simpa using hbucket)]

/-- The edges in a bucket are those that lead to it, when all edges lead to existing buckets. -/
theorem edges_in_bucket {α : Type} {id : α → Nat} {records : List α} (bucket : α → Option Nat)
    (hnumbered : Numbered id records) (size : Nat)
    (hbound : ∀ record ∈ records, ∀ b, bucket record = some b → b < size) (b : Nat) :
    (((records.foldl (fun acc r => addTo acc (bucket r) (id r))
      (List.replicate size []))[b]?).getD []).filterMap (fun i => records[i]?) =
        records.filter fun r => bucket r == some b := by
  rcases Nat.lt_or_ge b size with hb | hb
  · have hheld : (List.replicate size ([] : List Nat))[b]? = some [] := by
      rw [List.getElem?_replicate, if_pos hb]
    rw [foldl_addTo_getElem? bucket id records hheld, Option.getD_some, List.nil_append]
    exact hnumbered.filterMap_identities fun _ hrecord => (List.mem_filter.mp hrecord).1
  · have hlength := foldl_addTo_length records bucket id (List.replicate size [])
    rw [List.length_replicate] at hlength
    rw [List.getElem?_eq_none (by omega), Option.getD_none, List.filterMap_nil, eq_comm,
      List.filter_eq_nil_iff]
    intro record hrecord hbucket
    have := hbound record hrecord b (beq_iff_eq.mp hbucket)
    omega

/-- Adding an identity under a name leaves the other names alone. -/
theorem lookup_addName (name other : String) (id : Nat) (names : List (String × List Nat)) :
    ((addName name id names).lookup other).getD [] =
      (names.lookup other).getD [] ++ if name = other then [id] else [] := by
  induction names with
  | nil =>
    rw [addName, List.lookup_cons]
    by_cases hname : name = other
    · simp [hname]
    · have hne : (other == name) = false := by simpa using Ne.symm hname
      simp [hname, hne]
  | cons entry names ih =>
    obtain ⟨listed, ids⟩ := entry
    rw [addName]
    by_cases hlisted : listed = name
    · subst hlisted
      rw [if_pos rfl, List.lookup_cons, List.lookup_cons]
      by_cases hname : listed = other
      · simp [hname]
      · have hne : (other == listed) = false := by simpa using Ne.symm hname
        simp [hname, hne]
    · rw [if_neg hlisted, List.lookup_cons, List.lookup_cons]
      cases hother : other == listed with
      | true =>
        have hname : name ≠ other := fun heq => hlisted (heq ▸ (beq_iff_eq.mp hother).symm)
        simp [hname]
      | false => exact ih

/-- After adding symbols, a name leads to what it led to and then to the symbols with it. -/
theorem lookup_foldl_addName (name : String) (symbols : List Symbol)
    (names : List (String × List Nat)) :
    ((symbols.foldl (fun acc s => addName s.name s.id acc) names).lookup name).getD [] =
      (names.lookup name).getD [] ++ (symbols.filter (·.name == name)).map (·.id) := by
  induction symbols generalizing names with
  | nil => simp
  | cons s symbols ih =>
    rw [List.foldl_cons, ih, lookup_addName, List.append_assoc, List.filter_cons]
    by_cases hname : s.name = name
    · simp [hname]
    · simp [hname]

end Index

/-- A list of records that carries the identities with a property leads to the records with it. -/
theorem Enumerates.filterMap_symbols {symbols : List Symbol} (h : Numbered Symbol.id symbols)
    {ids : List Nat} {p : Symbol → Bool}
    (hids : Enumerates ids fun id => ∃ s, symbols[id]? = some s ∧ p s = true) :
    ids.filterMap (fun id => symbols[id]?) = symbols.filter p := by
  rw [hids.unique (h.enumerates_filter p)]
  exact h.filterMap_identities fun _ hs => (List.mem_filter.mp hs).1

/-- A call by a name that the language itself provides. -/
def CallTarget.isBuiltin : CallTarget → Bool
  | builtin _ => true
  | _ => false

/-- Every query that uses the index or the lists of children answers like a scan over all records,
which are in the order of their identities. -/
structure Graph.AnswersByScan (g : Graph) : Prop where
  symbolsInOrder : g.records.symbols.Pairwise fun s t => s.id < t.id
  importsInOrder : g.records.imports.Pairwise fun e f => e.id < f.id
  callsInOrder : g.records.calls.Pairwise fun c d => c.id < d.id
  callsTo : ∀ s, g.callsTo s = g.records.calls.filter fun c => c.target == .symbol s
  importersOf : ∀ m, g.importersOf m =
    g.records.imports.filter fun e => !e.isSynthetic && e.status == .resolved m
  findSymbols : ∀ name, g.findSymbols name = g.records.symbols.filter (·.name == name)
  moduleByPath : ∀ path m, g.moduleByPath? path = some m ↔
    m ∈ g.records.modules ∧ m.path.same path = true
  childrenOf : ∀ s, g.childrenOf s = g.records.symbols.filter (·.parent == some s)
  topLevelSymbols : ∀ m, g.topLevelSymbols m =
    g.records.symbols.filter fun s => s.module == m && s.parent == none
  partition : (((List.range g.records.symbols.length).flatMap g.callsTo ++ g.unresolvedCalls) ++
    g.records.calls.filter (·.target.isBuiltin)).Perm g.records.calls
  disjoint : g.records.calls.Nodup

namespace Graph

section Scans

variable {r : Snapshot} (h : r.Consistent)
include h

/-- The calls to a symbol are found by a scan. -/
theorem callsTo_ofRecords (s : Nat) :
    (ofRecords r).callsTo s = r.calls.filter fun c => c.target == .symbol s := by
  have hbucket := Index.edges_in_bucket (fun c : CallEdge => c.target.symbol?) h.calls.numbered
    r.symbols.length (fun c hc id hid => h.calls.targets c hc id (CallTarget.symbol?_eq_some.mp hid)) s
  refine hbucket.trans (List.filter_congr fun c _ => ?_)
  rw [Bool.eq_iff_iff, beq_iff_eq, beq_iff_eq, CallTarget.symbol?_eq_some]

/-- The written imports of a module are found by a scan. -/
theorem importersOf_ofRecords (m : Nat) :
    (ofRecords r).importersOf m =
      r.imports.filter fun e => !e.isSynthetic && e.status == .resolved m := by
  have hbucket := Index.edges_in_bucket (fun e : ImportEdge => e.importedModule?) h.imports.numbered
    r.modules.length (fun e he id hid =>
      h.imports.resolved e he id (ImportEdge.importedModule?_eq_some.mp hid).2) m
  refine hbucket.trans (List.filter_congr fun e _ => ?_)
  rw [Bool.eq_iff_iff, beq_iff_eq, ImportEdge.importedModule?_eq_some, Bool.and_eq_true, beq_iff_eq,
    Bool.not_eq_true']

/-- The symbols with a name are found by a scan. -/
theorem findSymbols_ofRecords (name : String) :
    (ofRecords r).findSymbols name = r.symbols.filter (·.name == name) := by
  change (((r.symbols.foldl (fun acc s => Index.addName s.name s.id acc) []).lookup name).getD
    []).filterMap (fun id => r.symbols[id]?) = _
  rw [Index.lookup_foldl_addName, List.lookup_nil, Option.getD_none, List.nil_append]
  exact h.symbols.symbolsNumbered.filterMap_identities fun _ hs => (List.mem_filter.mp hs).1

/-- The symbols directly in a symbol are found by a scan. -/
theorem childrenOf_ofRecords (s : Nat) :
    (ofRecords r).childrenOf s = r.symbols.filter (·.parent == some s) := by
  change (r.symbols[s]?.elim [] (·.children)).filterMap (fun id => r.symbols[id]?) = _
  cases hs : r.symbols[s]? with
  | none =>
    rw [Option.elim_none, List.filterMap_nil, eq_comm, List.filter_eq_nil_iff]
    intro child hchild hparent
    obtain ⟨around, haround, _⟩ := h.symbols.parents child hchild s (beq_iff_eq.mp hparent)
    rw [hs] at haround
    cases haround
  | some around =>
    refine Enumerates.filterMap_symbols h.symbols.symbolsNumbered
      ((h.symbols.children s around hs).congr fun id => ?_)
    simp only [beq_iff_eq]

/-- The symbols at the level of a module are found by a scan. -/
theorem topLevelSymbols_ofRecords (m : Nat) :
    (ofRecords r).topLevelSymbols m =
      r.symbols.filter fun s => s.module == m && s.parent == none := by
  change (r.modules[m]?.elim [] (·.symbols)).filterMap (fun id => r.symbols[id]?) = _
  cases hm : r.modules[m]? with
  | none =>
    rw [Option.elim_none, List.filterMap_nil, eq_comm, List.filter_eq_nil_iff]
    intro s hs hlevel
    have hexists := h.symbols.inModule s hs
    rw [Bool.and_eq_true, beq_iff_eq] at hlevel
    rw [List.getElem?_eq_none_iff] at hm
    omega
  | some module =>
    refine Enumerates.filterMap_symbols h.symbols.symbolsNumbered
      ((h.symbols.topLevels m module hm).congr fun id => ?_)
    simp only [Bool.and_eq_true, beq_iff_eq]

/-- The module of a path is found by a scan, when no two modules have the same path. -/
theorem moduleByPath?_ofRecords
    (hdistinct : r.modules.Pairwise fun m n => m.path.same n.path = false) (path : Path)
    (m : Module) :
    (ofRecords r).moduleByPath? path = some m ↔ m ∈ r.modules ∧ m.path.same path = true := by
  have hkeys : (r.modules.map fun m => (m.path.components, m.id)).lookup path.components =
      (r.modules.find? fun m => m.path.same path).map (·.id) := by
    generalize r.modules = modules
    induction modules with
    | nil => rfl
    | cons n modules ih =>
      rw [List.map_cons, List.lookup_cons, List.find?_cons, ih, Path.same, BEq.comm]
      cases n.path.components == path.components <;> rfl
  have hfound : (ofRecords r).moduleByPath? path = r.modules.find? fun m => m.path.same path := by
    change ((r.modules.map fun m => (m.path.components, m.id)).lookup path.components).bind
      (fun id => r.modules[id]?) = _
    rw [hkeys]
    cases hfind : r.modules.find? fun m => m.path.same path with
    | none => rfl
    | some found => exact h.symbols.modulesNumbered.getElem?_of_mem (List.mem_of_find?_eq_some hfind)
  rw [hfound]
  constructor
  · intro hfind
    exact ⟨List.mem_of_find?_eq_some hfind,
      List.find?_some (p := fun n : Module => n.path.same path) hfind⟩
  · rintro ⟨hm, hsame⟩
    obtain ⟨before, after, hsplit⟩ := List.append_of_mem hm
    refine List.find?_eq_some_iff_append.mpr ⟨hsame, before, after, hsplit, fun n hn => ?_⟩
    rw [hsplit] at hdistinct
    have hdiffer := (List.pairwise_append.mp hdistinct).2.2 n hn m List.mem_cons_self
    rw [Path.same, beq_iff_eq] at hsame
    rw [Bool.not_eq_true', Path.same, ← hsame]
    exact hdiffer

/-- The calls to symbols, the calls of the language's own names and the unresolved calls make up all
calls. -/
theorem calls_partition :
    (((List.range r.symbols.length).flatMap (ofRecords r).callsTo ++
      (ofRecords r).unresolvedCalls) ++ r.calls.filter (·.target.isBuiltin)).Perm r.calls := by
  have hsymbols : ((List.range r.symbols.length).flatMap (ofRecords r).callsTo).Perm
      (r.calls.filter fun c => c.target.symbol?.isSome) := by
    have hkeys := flatMap_filter_key_perm (fun c : CallEdge => c.target.symbol?) r.calls
      r.symbols.length
    have hscan : ((List.range r.symbols.length).flatMap (ofRecords r).callsTo) =
        (List.range r.symbols.length).flatMap fun k =>
          r.calls.filter fun c => c.target.symbol? == some k := by
      refine List.flatMap_congr fun s _ => ?_
      rw [callsTo_ofRecords h]
      refine List.filter_congr fun c _ => ?_
      rw [Bool.eq_iff_iff, beq_iff_eq, beq_iff_eq, CallTarget.symbol?_eq_some]
    have hall : (r.calls.filter fun c => c.target.symbol?.any (· < r.symbols.length)) =
        r.calls.filter fun c => c.target.symbol?.isSome := by
      refine List.filter_congr fun c hc => ?_
      cases htarget : c.target.symbol? with
      | none => rfl
      | some id =>
        simpa using h.calls.targets c hc id (CallTarget.symbol?_eq_some.mp htarget)
    rw [hscan, ← hall]
    exact hkeys
  -- What does not lead to a symbol is unresolved or one of the language's own names.
  have hrest := List.filter_append_perm (fun c : CallEdge => c.target.symbol?.isSome) r.calls
  have hother := List.filter_append_perm (fun c : CallEdge => !c.target.isResolved)
    (r.calls.filter fun c => !c.target.symbol?.isSome)
  have hunresolved : ∀ c : CallEdge, (!c.target.isResolved && !c.target.symbol?.isSome) =
      !c.target.isResolved := by
    intro c
    cases c.target <;> rfl
  have hbuiltin : ∀ c : CallEdge, (!(!c.target.isResolved) && !c.target.symbol?.isSome) =
      c.target.isBuiltin := by
    intro c
    cases c.target <;> rfl
  simp only [List.filter_filter, hunresolved, hbuiltin] at hother
  rw [List.append_assoc]
  exact (hsymbols.append hother).trans hrest

end Scans

end Graph

/-- No two modules of a unit have the same path. -/
theorem Tables.ofFiles_distinctPaths (files : List FileFacts) :
    (ofFiles files).modules.Pairwise fun m n => m.path.same n.path = false := by
  have hpaths : (ofFiles files).modules.map (·.path) = (orderedFiles files).map (·.path) := by
    rw [← List.forall₂_eq_eq_eq, List.forall₂_map_left_iff, List.forall₂_map_right_iff]
    exact (collected_ofFiles files).modules.imp fun _ _ hcarries => hcarries.path
  have hfiles : ((orderedFiles files).map (·.path)).Pairwise fun p q => p.same q = false :=
    List.pairwise_map.mpr ((orderedFiles_precedes files).imp fun h => h.2)
  rw [← hpaths] at hfiles
  exact List.pairwise_map.mp hfiles

/-- In the graph of well-formed files every query that uses the index or the lists of children answers
like a scan over all records. -/
theorem queries_answer_like_scans (config : ResolutionConfig) (files : List FileFacts)
    (hnonempty : files ≠ []) (hfiles : ∀ file ∈ files, file.WellFormed) :
    ∃ graph, resolveFacts config files = .ok graph ∧ graph.AnswersByScan := by
  have himported := Tables.linkImports_consistent (Tables.ofFiles_consistent files hfiles)
    (Tables.ofFiles_written files)
  have hcalled := Tables.linkCalls_consistent config himported
  have hdistinct := Tables.ofFiles_distinctPaths files
  exact ⟨_, (completedRun_of_ne_nil config hnonempty).resolves,
    hcalled.symbols.symbolsNumbered.increasing, hcalled.imports.numbered.increasing,
    hcalled.calls.numbered.increasing, Graph.callsTo_ofRecords hcalled,
    Graph.importersOf_ofRecords hcalled, Graph.findSymbols_ofRecords hcalled,
    Graph.moduleByPath?_ofRecords hcalled hdistinct, Graph.childrenOf_ofRecords hcalled,
    Graph.topLevelSymbols_ofRecords hcalled, Graph.calls_partition hcalled,
    hcalled.calls.numbered.nodup⟩

/-- A method and a function of one name, of which a second module imports and calls the function. -/
theorem queries_answer_like_scans_repeated_name :
    ∃ graph,
      resolveFacts {}
        [{ path := ⟨"tool.py"⟩
           language := .python
           declarations :=
            [{ name := "Tool", kind := .classLike, parent := none, visibility := .exposed },
              { name := "run", kind := .method, parent := some 0, visibility := .exposed },
              { name := "run", kind := .function, parent := none, visibility := .exposed }] },
          { path := ⟨"main.py"⟩
            language := .python
            imports := [{ target := "tool", name := .name "run", localName := "run" }]
            calls :=
              [{ callee := "run", name := "run", kind := .direct },
                { callee := "print", name := "print", kind := .direct },
                { callee := "missing", name := "missing", kind := .direct }] }] = .ok graph ∧
      graph.AnswersByScan := by
  refine queries_answer_like_scans _ _ (List.cons_ne_nil _ _) fun file hfile => ?_
  simp only [List.mem_cons, List.not_mem_nil, or_false] at hfile
  rcases hfile with rfl | rfl
  · refine ⟨by simp, by simp, by simp, ?_⟩
    intro i hi
    match i, hi with
    | 0, _ => exact ⟨[0], .step rfl .done⟩
    | 1, _ => exact ⟨[1, 0], .step rfl (.step rfl .done)⟩
    | 2, _ => exact ⟨[2], .step rfl .done⟩
  · constructor <;> simp

end CodeAtlas
