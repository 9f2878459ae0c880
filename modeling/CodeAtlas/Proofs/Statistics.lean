import CodeAtlas.Proofs.Conservation
import CodeAtlas.Proofs.Lists
import CodeAtlas.Proofs.Wildcards
import Mathlib.Algebra.BigOperators.Group.List.Basic
import Mathlib.Algebra.GroupWithZero.Nat
import Mathlib.Data.List.Induction

/-!
# Statistics add up

The statistics of a graph are what one pass over its edges counts, each edge raising several
counters at once. The counters make up the number of edges because of what linking leaves behind:
each import is decided, the edges derived from wildcards are no wildcards, and exactly the edges
that were written are not derived. Each counter that has a query of the same name is the length of
its answer.
-/

namespace CodeAtlas

/-- The place of a kind in the order in which kinds are counted. -/
def CallKind.rank (kind : CallKind) : Nat := all.idxOf kind

/-- Count one more call of a kind. The counts stay in the order of the kinds. -/
def addKind (kind : CallKind) : List (CallKind × Nat) → List (CallKind × Nat)
  | [] => [(kind, 1)]
  | (other, n) :: rest =>
    if other = kind then (other, n + 1) :: rest
    else if kind.rank < other.rank then (kind, 1) :: (other, n) :: rest
    else (other, n) :: addKind kind rest

/-- Does the import lead to a module of the unit? -/
def ImportEdge.isResolved (e : ImportEdge) : Bool :=
  match e.status with
  | .resolved _ => true
  | _ => false

namespace Stats

/-- Count an import edge. -/
def countImport (s : Stats) (e : ImportEdge) : Stats :=
  let decided := match e.status with
    | .resolved _ => { s with importsResolved := s.importsResolved + 1 }
    | .external => { s with importsExternal := s.importsExternal + 1 }
    | .unresolved => s
  let derived :=
    if e.isSynthetic then { decided with syntheticImports := decided.syntheticImports + 1 }
    else if e.isWildcard && !e.isExternal then
      { decided with wildcardsExpanded := decided.wildcardsExpanded + 1 }
    else decided
  if e.isUnexpandable then
    { derived with unexpandableWildcards := derived.unexpandableWildcards + 1 }
  else derived

/-- Count a call edge. -/
def countCall (s : Stats) (c : CallEdge) : Stats :=
  let ofKind := { s with callsByKind := addKind c.kind s.callsByKind }
  match c.target with
  | .symbol _ => { ofKind with callsResolved := ofKind.callsResolved + 1 }
  | .builtin _ => { ofKind with callsBuiltin := ofKind.callsBuiltin + 1 }
  | .external _ => { ofKind with callsExternal := ofKind.callsExternal + 1 }
  | .unresolved => { ofKind with callsUnresolved := ofKind.callsUnresolved + 1 }

/-- Count the edges of some records one after the other, starting with the sizes of the tables. -/
def ofPass (r : Snapshot) : Stats :=
  r.calls.foldl countCall (r.imports.foldl countImport
    { modules := r.modules.length, symbols := r.symbols.length, imports := r.imports.length
      calls := r.calls.length, ambiguous := r.diagnostics.length })

/-- An import edge raises each counter of imports by one or leaves it alone. -/
theorem countImport_eq (s : Stats) (e : ImportEdge) :
    s.countImport e =
      { s with
        importsResolved := s.importsResolved + if e.isResolved then 1 else 0
        importsExternal := s.importsExternal + if e.isExternal then 1 else 0
        wildcardsExpanded := s.wildcardsExpanded +
          if !e.isSynthetic && e.isWildcard && !e.isExternal then 1 else 0
        unexpandableWildcards := s.unexpandableWildcards + if e.isUnexpandable then 1 else 0
        syntheticImports := s.syntheticImports + if e.isSynthetic then 1 else 0 } := by
  unfold countImport ImportEdge.isUnexpandable ImportEdge.isExternal ImportEdge.isResolved
  cases e.status <;> cases e.isSynthetic <;> cases e.isWildcard <;> rfl

/-- The counters of imports after a pass over some edges. -/
theorem foldl_countImport (imports : List ImportEdge) (s : Stats) :
    imports.foldl countImport s =
      { s with
        importsResolved := s.importsResolved + imports.countP (·.isResolved)
        importsExternal := s.importsExternal + imports.countP (·.isExternal)
        wildcardsExpanded := s.wildcardsExpanded +
          imports.countP fun e => !e.isSynthetic && e.isWildcard && !e.isExternal
        unexpandableWildcards := s.unexpandableWildcards + imports.countP (·.isUnexpandable)
        syntheticImports := s.syntheticImports + imports.countP (·.isSynthetic) } := by
  induction imports generalizing s with
  | nil => rfl
  | cons e imports ih =>
    rw [List.foldl_cons, ih, countImport_eq]
    simp only [List.countP_cons, mk.injEq, true_and, and_true]
    omega

end Stats

section Kinds

/-- The kinds of a list that are counted at least once, with their counts. -/
def positiveCounts (kinds : List CallKind) (count : CallKind → Nat) : List (CallKind × Nat) :=
  (kinds.map fun kind => (kind, count kind)).filter fun (_, n) => n > 0

variable {kinds : List CallKind} {kind : CallKind} {count : CallKind → Nat}

/-- One more kind in front is listed if it is counted. -/
theorem positiveCounts_cons (kind : CallKind) (kinds : List CallKind) (count : CallKind → Nat) :
    positiveCounts (kind :: kinds) count =
      if 0 < count kind then (kind, count kind) :: positiveCounts kinds count
      else positiveCounts kinds count := by
  by_cases hcount : 0 < count kind <;> simp [positiveCounts, hcount]

/-- The listed kinds are those of the list that are counted. -/
theorem mem_positiveCounts {entry : CallKind × Nat} :
    entry ∈ positiveCounts kinds count ↔
      entry.1 ∈ kinds ∧ entry.2 = count entry.1 ∧ 0 < entry.2 := by
  obtain ⟨kind, n⟩ := entry
  simp only [positiveCounts, List.mem_filter, List.mem_map, Prod.mk.injEq, decide_eq_true_eq]
  constructor
  · rintro ⟨⟨other, hother, rfl, rfl⟩, hpositive⟩
    exact ⟨hother, rfl, hpositive⟩
  · rintro ⟨hkind, rfl, hpositive⟩
    exact ⟨⟨kind, hkind, rfl, rfl⟩, hpositive⟩

/-- A kind before all that are counted is put in front of them. -/
theorem addKind_of_before {counts : List (CallKind × Nat)}
    (hbefore : ∀ entry ∈ counts, kind.rank < entry.1.rank) :
    addKind kind counts = (kind, 1) :: counts := by
  cases counts with
  | nil => rfl
  | cons entry counts =>
    have hless := hbefore entry List.mem_cons_self
    have hne : entry.1 ≠ kind := by
      intro heq
      rw [heq] at hless
      omega
    rw [addKind, if_neg hne, if_pos hless]

/-- Counting one more call of a kind raises the count of that kind only. -/
theorem addKind_positiveCounts (hsorted : kinds.Pairwise fun a b => a.rank < b.rank)
    (hkind : kind ∈ kinds) (count : CallKind → Nat) :
    addKind kind (positiveCounts kinds count) =
      positiveCounts kinds fun other => count other + if other = kind then 1 else 0 := by
  induction kinds with
  | nil => cases hkind
  | cons first kinds ih =>
    have hlater := (List.pairwise_cons.mp hsorted).1
    rw [positiveCounts_cons, positiveCounts_cons]
    by_cases hfirst : first = kind
    · -- The kinds behind it are other ones, so their counts stay.
      have hrest : (positiveCounts kinds fun other => count other + if other = kind then 1 else 0) =
          positiveCounts kinds count := by
        unfold positiveCounts
        congr 1
        refine List.map_congr_left fun other hother => ?_
        have hless := hlater other hother
        have hne : other ≠ kind := by
          intro heq
          rw [hfirst, heq] at hless
          omega
        simp [hne]
      rw [hrest, if_pos hfirst, if_pos (Nat.succ_pos _)]
      by_cases hcount : 0 < count first
      · rw [if_pos hcount, addKind, if_pos hfirst]
      · rw [if_neg hcount, addKind_of_before, hfirst, show count kind = 0 by rw [← hfirst]; omega]
        intro entry hentry
        rw [← hfirst]
        exact hlater entry.1 (mem_positiveCounts.mp hentry).1
    · have hmem : kind ∈ kinds := (List.mem_cons.mp hkind).resolve_left (Ne.symm hfirst)
      have hless := hlater kind hmem
      have hnext := ih (List.pairwise_cons.mp hsorted).2 hmem
      rw [if_neg hfirst, Nat.add_zero]
      by_cases hcount : 0 < count first
      · rw [if_pos hcount, if_pos hcount, addKind, if_neg hfirst, if_neg (by omega), hnext]
      · rw [if_neg hcount, if_neg hcount, hnext]

/-- Every kind is listed. -/
theorem CallKind.mem_all (kind : CallKind) : kind ∈ all := by
  cases kind <;> decide

/-- The kinds are counted in increasing order. -/
theorem CallKind.all_increasing : all.Pairwise fun a b => a.rank < b.rank := by decide

/-- The counts of kinds after a pass over some calls. -/
theorem foldl_addKind (calls more : List CallEdge) :
    more.foldl (fun counts c => addKind c.kind counts) (countKinds calls) =
      countKinds (calls ++ more) := by
  induction more generalizing calls with
  | nil => rw [List.append_nil, List.foldl_nil]
  | cons c more ih =>
    have hnext : addKind c.kind (countKinds calls) = countKinds (calls ++ [c]) := by
      change addKind c.kind (positiveCounts _ _) = positiveCounts _ _
      rw [addKind_positiveCounts CallKind.all_increasing (CallKind.mem_all _)]
      congr 1
      funext kind
      by_cases hkind : kind = c.kind
      · simp [hkind]
      · simp [hkind, Ne.symm hkind]
    rw [List.foldl_cons, hnext, ih, List.append_assoc, List.singleton_append]

end Kinds

namespace Stats

/-- The counters of calls after a pass over some edges. -/
theorem foldl_countCall (calls : List CallEdge) (s : Stats) :
    calls.foldl countCall s =
      { s with
        callsByKind := calls.foldl (fun counts c => addKind c.kind counts) s.callsByKind
        callsResolved := s.callsResolved + calls.countP (·.target.symbol?.isSome)
        callsBuiltin := s.callsBuiltin +
          calls.countP fun c => c.target.isResolved && c.target.symbol?.isNone
        callsExternal := s.callsExternal + calls.countP (·.target.isExternal)
        callsUnresolved := s.callsUnresolved + calls.countP (·.target == .unresolved) } := by
  induction calls generalizing s with
  | nil => rfl
  | cons c calls ih =>
    rw [List.foldl_cons, ih]
    simp only [List.countP_cons, List.foldl_cons, countCall]
    cases c.target <;>
      simp [CallTarget.symbol?, CallTarget.isResolved, CallTarget.isExternal, Nat.add_assoc,
        Nat.add_comm]

/-- The statistics of tables are counted in one pass over their edges. -/
theorem stats_eq_ofPass (tables : Tables) :
    tables.stats = ofPass (Graph.ofTables tables).records := by
  have hkinds : tables.calls.foldl (fun counts c => addKind c.kind counts) [] =
      countKinds tables.calls := foldl_addKind [] tables.calls
  unfold ofPass
  rw [foldl_countImport, foldl_countCall]
  simp only [Nat.zero_add, Graph.ofTables, Graph.ofRecords, hkinds]
  rfl

end Stats

section Sums

/-- Leaving out what is not counted does not change the sum of the counts. -/
theorem sum_positiveCounts (kinds : List CallKind) (count : CallKind → Nat) :
    ((positiveCounts kinds count).map (·.2)).sum = (kinds.map count).sum := by
  induction kinds with
  | nil => rfl
  | cons kind kinds ih =>
    rw [positiveCounts_cons, List.map_cons, List.sum_cons]
    by_cases hcount : 0 < count kind
    · rw [if_pos hcount, List.map_cons, List.sum_cons, ih]
    · rw [if_neg hcount, ih]
      omega

/-- Every call is of exactly one kind. -/
theorem sum_countP_kind (calls : List CallEdge) :
    (CallKind.all.map fun kind => calls.countP (·.kind == kind)).sum = calls.length := by
  induction calls with
  | nil => rfl
  | cons c calls ih =>
    have hone : (CallKind.all.map fun kind => if c.kind == kind then 1 else 0).sum = 1 := by
      cases c.kind <;> rfl
    simp only [List.countP_cons, List.sum_map_add, ih, hone, List.length_cons]

/-- The kinds that are counted are listed once. -/
theorem nodup_countKinds (calls : List CallEdge) : ((countKinds calls).map (·.1)).Nodup := by
  have hsublist : ((countKinds calls).map (·.1)).Sublist CallKind.all := by
    have hfilter := (List.filter_sublist (p := fun entry : CallKind × Nat => entry.2 > 0)
      (l := CallKind.all.map fun kind => (kind, calls.countP (·.kind == kind)))).map (·.1)
    rw [List.map_map] at hfilter
    exact hfilter.trans (by rw [show (_ ∘ _ : CallKind → CallKind) = id from rfl, List.map_id])
  exact hsublist.nodup (by decide)

end Sums

/-- How the statistics of a graph of some files add up and agree with its queries. -/
structure Graph.StatsAddUp (g : Graph) (files : List FileFacts) : Prop where
  /-- The counters are those of one pass over the edges. -/
  onePass : g.records.stats = Stats.ofPass g.records
  modules : g.records.stats.modules = g.records.modules.length
  symbols : g.records.stats.symbols = g.records.symbols.length
  imports : g.records.stats.imports = g.records.imports.length
  decided : ∀ e ∈ g.records.imports, e.status ≠ .unresolved
  importsByStatus :
    g.records.stats.imports = g.records.stats.importsResolved + g.records.stats.importsExternal
  wildcards : g.records.stats.wildcardsExpanded + g.records.stats.unexpandableWildcards =
    g.records.imports.countP (·.isWildcard)
  syntheticImports : g.records.stats.syntheticImports ≤ g.records.stats.imports
  writtenImports : g.records.stats.imports - g.records.stats.syntheticImports =
    (files.flatMap (·.imports)).length
  calls : g.records.stats.calls = g.records.calls.length
  callsByTarget : g.records.stats.calls = g.records.stats.callsResolved +
    g.records.stats.callsBuiltin + g.records.stats.callsExternal + g.records.stats.callsUnresolved
  callsByKind : g.records.stats.calls = (g.records.stats.callsByKind.map (·.2)).sum
  /-- No kind has two counts. -/
  kindsOnce : (g.records.stats.callsByKind.map (·.1)).Nodup
  /-- Exactly the kinds that occur have a count, which is the number of calls of the kind. -/
  kindCounts : ∀ kind n, (kind, n) ∈ g.records.stats.callsByKind ↔
    (∃ c ∈ g.records.calls, c.kind = kind) ∧ n = (g.callsByKind kind).length
  unresolvedCalls : g.records.stats.callsExternal + g.records.stats.callsUnresolved =
    g.unresolvedCalls.length
  externalCalls : g.records.stats.callsExternal = g.externalCalls.length
  externalImports : g.records.stats.importsExternal = g.externalImports.length
  unexpandableImports : g.records.stats.unexpandableWildcards = g.unexpandableImports.length
  ambiguous : g.records.stats.ambiguous = g.records.diagnostics.length

namespace Tables

variable {tables : Tables}

/-- Decided imports are resolved or external. -/
theorem stats_importsByStatus (hdecided : ∀ e ∈ tables.imports, e.status ≠ .unresolved) :
    tables.stats.imports = tables.stats.importsResolved + tables.stats.importsExternal := by
  have hsplit : tables.imports.countP (fun _ => true) =
      tables.imports.countP ImportEdge.isResolved + tables.imports.countP ImportEdge.isExternal := by
    apply countP_eq_add_of_exclusive
    · intro e _ hresolved
      unfold ImportEdge.isResolved at hresolved
      unfold ImportEdge.isExternal
      cases hstatus : e.status <;> simp_all
    · intro e he
      unfold ImportEdge.isResolved ImportEdge.isExternal
      cases hstatus : e.status <;> simp_all
  exact (congrFun List.countP_true tables.imports).symm.trans hsplit

/-- A wildcard is expanded or cannot be expanded, when no derived edge is one. -/
theorem stats_wildcards (hderived : ∀ e ∈ tables.imports, e.isSynthetic → e.isWildcard = false) :
    tables.stats.wildcardsExpanded + tables.stats.unexpandableWildcards =
      tables.imports.countP (·.isWildcard) := by
  refine (countP_eq_add_of_exclusive ?_ ?_).symm
  · intro e _ hexpanded
    have hexternal : e.isExternal = false := by simpa using (Bool.and_eq_true_iff.mp hexpanded).2
    rw [ImportEdge.isUnexpandable, hexternal, Bool.and_false]
  · intro e he
    have hwritten := hderived e he
    unfold ImportEdge.isUnexpandable
    cases hsynthetic : e.isSynthetic with
    | false => cases e.isWildcard <;> cases e.isExternal <;> rfl
    | true => rw [hwritten hsynthetic]; rfl

/-- A call has one of four targets. -/
theorem stats_callsByTarget (tables : Tables) :
    tables.stats.calls = tables.stats.callsResolved + tables.stats.callsBuiltin +
      tables.stats.callsExternal + tables.stats.callsUnresolved := by
  change tables.calls.length = tables.calls.countP _ + tables.calls.countP _ +
    tables.calls.countP _ + tables.calls.countP _
  induction tables.calls with
  | nil => rfl
  | cons c calls ih =>
    simp only [List.countP_cons, List.length_cons, ih]
    cases c.target <;>
      simp [CallTarget.symbol?, CallTarget.isResolved, CallTarget.isExternal] <;> omega

/-- The calls without a target in the unit are the external and the unresolved ones. -/
theorem stats_unresolvedCalls (tables : Tables) :
    tables.stats.callsExternal + tables.stats.callsUnresolved =
      (Graph.ofTables tables).unresolvedCalls.length := by
  unfold Graph.unresolvedCalls
  rw [← List.countP_eq_length_filter]
  refine (countP_eq_add_of_exclusive ?_ ?_).symm
  · intro c _ hexternal
    cases htarget : c.target <;> simp_all [CallTarget.isExternal]
  · intro c _
    cases c.target <;> simp [CallTarget.isExternal, CallTarget.isResolved]

/-- The counts of kinds are those of the kinds that occur. -/
theorem stats_kindCounts (tables : Tables) (kind : CallKind) (n : Nat) :
    (kind, n) ∈ tables.stats.callsByKind ↔
      (∃ c ∈ tables.calls, c.kind = kind) ∧
        n = ((Graph.ofTables tables).callsByKind kind).length := by
  have hcount : ((Graph.ofTables tables).callsByKind kind).length =
      tables.calls.countP (·.kind == kind) := (List.countP_eq_length_filter).symm
  have hoccurs : 0 < tables.calls.countP (·.kind == kind) ↔ ∃ c ∈ tables.calls, c.kind = kind := by
    simp [List.countP_pos_iff]
  rw [hcount, ← hoccurs]
  refine mem_positiveCounts.trans ⟨?_, ?_⟩
  · rintro ⟨_, hn, hpositive⟩
    exact ⟨hn ▸ hpositive, hn⟩
  · rintro ⟨hpositive, hn⟩
    exact ⟨CallKind.mem_all kind, hn, hn ▸ hpositive⟩

/-- The edges that linking the imports leaves are the written ones and the derived ones. -/
theorem length_linkImports (hwritten : ∀ e ∈ tables.imports, e.expandedFrom = none) :
    tables.linkImports.imports.length =
      tables.imports.length + tables.linkImports.imports.countP (·.isSynthetic) := by
  have hnone : tables.linkedImports.countP (·.isSynthetic) = 0 := by
    refine List.countP_eq_zero.mpr fun e he hsynthetic => ?_
    obtain ⟨edge, hedge, rfl⟩ := List.mem_map.mp he
    rw [ImportEdge.isSynthetic, show (tables.linkImport edge).1.expandedFrom = none from
      hwritten edge hedge] at hsynthetic
    cases hsynthetic
  have hall := drop_linkImports tables
  rw [linkImports_imports, List.drop_left' (List.length_map _)] at hall
  rw [linkImports_imports, List.length_append, List.countP_append, List.length_map]
  change _ = _ + (tables.linkedImports.countP _ + _)
  rw [hnone, Nat.zero_add]
  exact congrArg (tables.imports.length + ·) (List.countP_eq_length.mpr hall).symm

/-- The statistics of linked tables add up, when they hold the imports of some files. -/
theorem statsAddUp_linkCalls (config : ResolutionConfig) {files : List FileFacts}
    (hwritten : ∀ e ∈ tables.imports, e.expandedFrom = none)
    (hfiles : tables.imports.length = (files.flatMap (·.imports)).length) :
    (Graph.ofTables (tables.linkImports.linkCalls config)).StatsAddUp files where
  onePass := Stats.stats_eq_ofPass _
  modules := rfl
  symbols := (Array.length_toList).symm
  imports := rfl
  decided := fun _ he => linkImports_decided hwritten he
  importsByStatus := stats_importsByStatus fun _ he => linkImports_decided hwritten he
  wildcards := by
    refine stats_wildcards fun e he hsynthetic => ?_
    have hname := linkImports_noWildcard hwritten he hsynthetic
    exact beq_eq_false_iff_ne.mpr hname
  syntheticImports := List.countP_le_length
  writtenImports := by
    change tables.linkImports.imports.length -
      tables.linkImports.imports.countP (·.isSynthetic) = _
    have hlength := length_linkImports hwritten
    omega
  calls := rfl
  callsByTarget := stats_callsByTarget _
  callsByKind := by
    refine (sum_countP_kind (tables.linkImports.linkCalls config).calls).symm.trans ?_
    exact (sum_positiveCounts CallKind.all _).symm
  kindsOnce := nodup_countKinds _
  kindCounts := stats_kindCounts _
  unresolvedCalls := stats_unresolvedCalls _
  externalCalls := List.countP_eq_length_filter
  externalImports := List.countP_eq_length_filter
  unexpandableImports := List.countP_eq_length_filter
  ambiguous := rfl

end Tables

/-- Facts in a row are as many as the files have. -/
theorem length_placed {α : Type} (facts : FileFacts → List α) (files : List FileFacts) :
    (placed facts files).length = (files.flatMap facts).length := by
  induction files using List.reverseRecOn with
  | nil => rfl
  | append_singleton files file ih =>
    rw [placed_concat, List.length_append, ih, List.flatMap_append, List.length_append,
      List.length_map, List.flatMap_singleton]

/-- In every unit the statistics of the graph are those of one pass over its edges, they add up, and
they agree with the tables, with the queries and with the imports of the collected files. -/
theorem statistics_add_up (config : ResolutionConfig) (files : List FileFacts)
    (hnonempty : files ≠ []) :
    ∃ chosen graph, Selects files chosen ∧ resolveFacts config files = .ok graph ∧
      graph.StatsAddUp chosen := by
  have hcollected := collected_ofFiles files
  refine ⟨orderedFiles files, _, selects_orderedFiles files,
    (completedRun_of_ne_nil config hnonempty).resolves, ?_⟩
  refine Tables.statsAddUp_linkCalls config (Tables.ofFiles_written files) ?_
  rw [hcollected.imports.length_eq, length_placed]

/-- A wildcard with a target in the unit beside one without, a repeated path, and calls of three
kinds. -/
theorem statistics_add_up_wildcards :
    let files : List FileFacts :=
      [{ path := ⟨"m.py"⟩
         language := .python
         imports :=
          [{ target := "lib", name := .wildcard, localName := "*" },
            { target := "math", name := .wildcard, localName := "*" },
            { target := "os", name := .whole, localName := "os" }]
         calls :=
          [{ callee := "helper", name := "helper" }, { callee := "print", name := "print" },
            { callee := "os.getcwd", name := "getcwd", receiver := some "os", kind := .method },
            { callee := "f().g", name := "g", receiver := some "f()", kind := .chained }] },
        { path := ⟨"lib.py"⟩, language := .python
          declarations :=
            [{ name := "helper", kind := .function, parent := none, visibility := .exposed }] },
        { path := ⟨"lib.py"⟩, language := .python
          imports := [{ target := "m", name := .whole, localName := "m" }] }]
    ∃ chosen graph, Selects files chosen ∧ resolveFacts {} files = .ok graph ∧
      graph.StatsAddUp chosen := by
  intro files
  exact statistics_add_up {} files (List.cons_ne_nil _ _)

end CodeAtlas
