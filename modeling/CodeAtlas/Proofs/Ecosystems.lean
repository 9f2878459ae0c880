import CodeAtlas.Proofs.Conservation
import CodeAtlas.Proofs.Restriction
import CodeAtlas.Proofs.Selection
import CodeAtlas.Proofs.Wildcards

/-!
# Ecosystems do not interfere

The graph of a unit, restricted to the modules of one ecosystem, is the graph of the files of that
ecosystem alone, up to a renumbering that keeps the order. The tables of the two units correspond
when the files have been collected. Every import and every call is judged alike in both, so linking
keeps the correspondence; only the expansions of wildcards need new numbers, which are given in the
order of the wildcards.

Since this holds for every ecosystem, no reference ever leads from one into another.
-/

namespace CodeAtlas

namespace Tables

/-! ### Doubts -/

/-- The doubts about a judgement are those of one module. -/
def DoubtsOf {α : Type} (m : Nat) (judged : Judged α) : Prop := ∀ d ∈ judged.2, d.module = m

/-- Without doubts there is nothing to show. -/
theorem doubtsOf_none {α : Type} {m : Nat} (judgement : α) : DoubtsOf m (judgement, []) := by
  intro d hd
  cases hd

variable (tables : Tables)

/-- Locating a module raises doubts of the importer only. -/
theorem locate_doubts (m depth : Nat) (segments : List String) :
    DoubtsOf m (tables.locate m depth segments) := by
  have hend (lang : Language) : DoubtsOf m (tables.locateByEnd m lang segments) := by
    intro d hd
    simp only [locateByEnd] at hd
    split at hd
    · rw [List.mem_singleton.mp hd]
    · cases hd
  rw [locate]
  generalize (if depth = 0 then none else
    (Place.base? ((tables.modules[m]?).getD default).place depth).bind fun base =>
      tables.moduleAt? ((tables.modules[m]?).getD default).language (base ++ segments)) = relative
  split
  · exact doubtsOf_none _
  · split
    · exact doubtsOf_none _
    · split
      · exact doubtsOf_none _
      · exact hend _

/-- Linking an import raises doubts of its module only. -/
theorem linkImport_doubts (e : ImportEdge) : DoubtsOf e.module (tables.linkImport e) := by
  have hlocate (segments : List String) := tables.locate_doubts e.module e.depth segments
  change DoubtsOf e.module (tables.judgeImport e)
  rw [judgeImport]
  dsimp only
  split
  · exact hlocate _
  · exact hlocate _
  · exact hlocate _
  · have hboth (first second : List String) : ∀ d ∈ (tables.locate e.module e.depth first).2 ++
        (tables.locate e.module e.depth second).2, d.module = e.module := fun d hd =>
      (List.mem_append.mp hd).elim (hlocate first d) (hlocate second d)
    split <;> exact hboth _ _
  · exact hlocate _

section Calls

variable (config : ResolutionConfig)

/-- Looking a name up raises doubts of its module only. -/
theorem lookupLocal_doubts (m : Nat) (caller : Option Nat) (name : String) :
    DoubtsOf m (tables.lookupLocal config m caller name) := by
  intro d hd
  simp only [lookupLocal] at hd
  split at hd
  · rw [List.mem_singleton.mp hd]
  · cases hd

/-- Linking a call without a receiver raises doubts of its module only. -/
theorem linkDirect_doubts (call : CallEdge) :
    DoubtsOf call.module (tables.linkDirect config call) := by
  change DoubtsOf call.module (tables.lookupName config call.module call.caller call.callee)
  have hlocal := lookupLocal_doubts tables config call.module call.caller call.callee
  rw [lookupName]
  dsimp only
  split
  · exact hlocal
  · split <;> exact hlocal

/-- Looking a qualified name up raises doubts of its module only. -/
theorem lookupPath_doubts (m : Nat) (caller : Option Nat) (path : String) :
    DoubtsOf m (tables.lookupPath config m caller path) := by
  rw [lookupPath]
  dsimp only
  split
  · exact doubtsOf_none _
  · split
    · exact doubtsOf_none _
    · split <;> exact lookupLocal_doubts tables config m caller _

/-- Linking a call by its receiver raises doubts of its module only. -/
theorem linkByReceiver_doubts (call : CallEdge) :
    DoubtsOf call.module (tables.linkByReceiver config call) := by
  rw [linkByReceiver]
  split
  · rw [linkMember]
    split
    · exact doubtsOf_none _
    · split
      · exact doubtsOf_none _
      · exact lookupPath_doubts tables config call.module call.caller _
  · exact linkDirect_doubts tables config call

/-- Linking a constructor call raises doubts of its module only. -/
theorem linkConstructor_doubts (call : CallEdge) :
    DoubtsOf call.module (tables.linkConstructor config call) := by
  have hpath := lookupPath_doubts tables config call.module call.caller call.callee
  rw [linkConstructor]
  dsimp only
  split
  · exact doubtsOf_none _
  · split
    · exact doubtsOf_none _
    · split <;> exact hpath

/-- Linking a call raises doubts of its module only. -/
theorem linkCall_doubts (call : CallEdge) : DoubtsOf call.module (tables.linkCall config call) := by
  change DoubtsOf call.module (tables.judgeCall config call)
  rw [judgeCall]
  split
  · exact linkDirect_doubts tables config call
  · exact linkByReceiver_doubts tables config call
  · exact linkConstructor_doubts tables config call
  · exact linkByReceiver_doubts tables config call
  · split <;> exact doubtsOf_none _
  · exact doubtsOf_none _

end Calls

/-! ### Linking -/

section Linking

variable {up : Renumbering} {eco : Ecosystem} {part whole : Tables}

/-- Numbering goes along with renumbering when it starts at corresponding numbers. -/
theorem numbered_renumber {small large : Nat} {edges : List ImportEdge}
    (hup : ∀ i < edges.length, up.onImports (small + i) = large + i) :
    numbered large (edges.map (ImportEdge.renumber up)) =
      (numbered small edges).map (ImportEdge.renumber up) := by
  apply List.ext_getElem?
  intro i
  simp only [numbered, List.getElem?_map, List.getElem?_zipIdx, Option.map_map]
  cases hget : edges[i]? with
  | none => rfl
  | some e =>
    have hi := hup i (List.getElem?_eq_some_iff.mp hget).1
    simp [ImportEdge.renumber, hi]

/-- The expansions of the wildcards of the ecosystem are those of the part, under other numbers. -/
theorem Restricts.numbered_expansions (h : Restricts up eco part whole)
    {linked edges : List ImportEdge} {small large : Nat}
    (hlinked : (linked.filter fun e => whole.within eco e.module) =
      edges.map (ImportEdge.renumber up))
    (hfits : Fits up.onImports small large
      (linked.map fun e => (whole.within eco e.module, (whole.expansions e).length))) :
    ((numbered large (linked.flatMap whole.expansions)).filter
        fun e => whole.within eco e.module) =
      (numbered small (edges.flatMap part.expansions)).map (ImportEdge.renumber up) := by
  have hmodule (start : Nat) (edge : ImportEdge) :
      ∀ e ∈ numbered start (whole.expansions edge), e.module = edge.module := by
    intro e he
    obtain ⟨expansion, hexpansion, id, rfl⟩ := mem_numbered he
    obtain ⟨_, _, s, _, rfl⟩ := mem_expansions hexpansion
    rfl
  -- One block after the other, the marks say which blocks the part has as well.
  induction linked generalizing edges small large with
  | nil =>
    obtain rfl := List.map_eq_nil_iff.mp hlinked.symm
    rfl
  | cons edge rest ih =>
    rw [List.map_cons] at hfits
    rw [List.flatMap_cons, numbered_append, List.filter_append, filter_chosen (hmodule large edge)]
    cases hwithin : whole.within eco edge.module with
    | true =>
      rw [List.filter_cons, if_pos hwithin] at hlinked
      rw [hwithin] at hfits
      obtain ⟨wildcard, others, rfl, rfl, hothers⟩ := List.map_eq_cons_iff.mp hlinked.symm
      have hexpansions := h.expansions wildcard
      have hlength : (whole.expansions (wildcard.renumber up)).length =
          (part.expansions wildcard).length := by
        rw [hexpansions, List.length_map]
      have hown : numbered large (whole.expansions (wildcard.renumber up)) =
          (numbered small (part.expansions wildcard)).map (ImportEdge.renumber up) := by
        rw [hexpansions]
        exact numbered_renumber fun i hi => hfits.own (hlength ▸ hi)
      rw [if_pos rfl, hown, List.flatMap_cons, numbered_append, List.map_append, ← hlength]
      exact congrArg _ (ih hothers.symm hfits.both)
    | false =>
      rw [List.filter_cons, if_neg (by simp [hwithin])] at hlinked
      rw [hwithin] at hfits
      exact ih hlinked hfits.larger

/-- Linking the imports keeps the correspondence. -/
theorem Restricts.linkImports_holds (h : Restricts up eco part whole)
    (hholds : Holds up (whole.within eco) part whole)
    (himporters : ∀ e ∈ part.imports, e.module < part.modules.length)
    (hfits : Fits up.onImports part.imports.length whole.imports.length
      (whole.linkedImports.map fun e => (whole.within eco e.module, (whole.expansions e).length))) :
    Holds up (whole.within eco) part.linkImports whole.linkImports := by
  have hlink : ∀ e ∈ part.imports, whole.linkImport (e.renumber up) =
      renumbered up (ImportEdge.renumber up) (part.linkImport e) := fun e he =>
    h.linkImport (List.getElem?_eq_getElem (himporters e he))
  have hlinked : (whole.linkedImports.filter fun e => whole.within eco e.module) =
      part.linkedImports.map (ImportEdge.renumber up) := by
    rw [linkedImports, List.filter_map]
    change ((whole.imports.filter fun e => whole.within eco e.module).map _) = _
    rw [hholds.imports, List.map_map, linkedImports, List.map_map]
    exact List.map_congr_left fun e he => congrArg Prod.fst (hlink e he)
  refine ⟨hholds.modules, hholds.symbols, ?_, hholds.calls, ?_⟩
  · rw [linkImports_imports, linkImports_imports, List.filter_append, List.map_append]
    exact congrArg₂ (· ++ ·) hlinked (h.numbered_expansions hlinked hfits)
  · have hblocks : ∀ e ∈ whole.imports, ∀ d ∈ (whole.linkImport e).2,
        whole.within eco d.module = whole.within eco e.module := fun e _ d hd =>
      congrArg _ (linkImport_doubts whole e d hd)
    simp only [linkImports, List.flatMap_map, List.filter_append, hholds.diagnostics,
      List.map_append, filter_flatMap_of_blocks hblocks, hholds.imports]
    rw [List.map_flatMap]
    exact congrArg _ (List.flatMap_congr fun e he => congrArg Prod.snd (hlink e he))

/-- After linking the imports the tables still hold those of the ecosystem. -/
theorem Restricts.linkImports (h : Restricts up eco part whole)
    (hholds : Holds up (whole.within eco) part.linkImports whole.linkImports) :
    Restricts up eco part.linkImports whole.linkImports :=
  ⟨h.modules, h.moduleAt, h.symbolAt, h.receiverAt, hholds.imports, h.climbs⟩

/-- Linking the calls keeps the correspondence. -/
theorem Restricts.linkCalls_holds (h : Restricts up eco part whole) (config : ResolutionConfig)
    (hholds : Holds up (whole.within eco) part whole)
    (hcallers : ∀ c ∈ part.calls, part.ClimbEnds c.caller) :
    Holds up (whole.within eco) (part.linkCalls config) (whole.linkCalls config) := by
  have hlink : ∀ c ∈ part.calls, whole.linkCall config (c.renumber up) =
      renumbered up (CallEdge.renumber up) (part.linkCall config c) := fun c hc =>
    h.linkCall config c (hcallers c hc)
  refine ⟨hholds.modules, hholds.symbols, hholds.imports, ?_, ?_⟩
  · rw [linkCalls_calls, List.filter_map]
    change ((whole.calls.filter fun c => whole.within eco c.module).map _) = _
    rw [hholds.calls, List.map_map, linkCalls_calls, List.map_map]
    exact List.map_congr_left fun c hc => congrArg Prod.fst (hlink c hc)
  · have hblocks : ∀ c ∈ whole.calls, ∀ d ∈ (whole.linkCall config c).2,
        whole.within eco d.module = whole.within eco c.module := fun c _ d hd =>
      congrArg _ (linkCall_doubts whole config c d hd)
    simp only [linkCalls, List.flatMap_map, List.filter_append, hholds.diagnostics,
      List.map_append, filter_flatMap_of_blocks hblocks, hholds.calls]
    rw [List.map_flatMap]
    exact congrArg _ (List.flatMap_congr fun c hc => congrArg Prod.snd (hlink c hc))

end Linking

/-- Collected tables that correspond hold those of the ecosystem. -/
theorem restricts_of_holds {up : Renumbering} {eco : Ecosystem} {keep : FileFacts → Bool}
    {derived : List (Bool × Nat)} {part whole : Tables}
    (hholds : Holds up (whole.within eco) part whole) (hreceivers : HoldsReceivers up part whole)
    (haligned : Aligned up keep derived part whole [])
    (hpart : SymbolRecords part.modules part.symbols.toList)
    (hwhole : SymbolRecords whole.modules whole.symbols.toList) (hclimbs : part.Climbs) :
    Restricts up eco part whole where
  modules := by
    rw [← hholds.modules]
    refine List.filter_congr fun m hm => ?_
    rw [within, hwhole.modulesNumbered.getElem?_of_mem hm, Option.all_some]
  moduleAt :=
    getElem?_renumbered hpart.modulesNumbered hwhole.modulesNumbered (fun _ => rfl) hholds.modules
      fun _ => haligned.modules.le_of_le
  symbolAt := by
    intro i
    rw [← Array.getElem?_toList, ← Array.getElem?_toList]
    refine getElem?_renumbered hpart.symbolsNumbered hwhole.symbolsNumbered (fun _ => rfl)
      hholds.symbols (fun j hj => ?_) i
    rw [Array.length_toList] at hj ⊢
    exact haligned.symbols.le_of_le hj
  receiverAt := by
    intro i
    cases hname : part.receiverNames[i]? with
    | some name => exact hreceivers.found i name hname
    | none =>
      rw [Array.getElem?_eq_none_iff, hreceivers.part] at hname
      rw [Array.getElem?_eq_none_iff, hreceivers.whole]
      exact haligned.symbols.le_of_le hname
  imports := hholds.imports
  climbs := hclimbs

/-- A number belongs to the ecosystem of a collected unit when the file does that gave the module. -/
theorem within_ofFiles (eco : Ecosystem) (files : List FileFacts) {i : Nat} {file : FileFacts}
    (hfile : (orderedFiles files)[i]? = some file) :
    (ofFiles files).within eco i = (file.language.ecosystem == eco) := by
  have hmodules := (collected_ofFiles files).modules
  obtain ⟨hi, rfl⟩ := List.getElem?_eq_some_iff.mp hfile
  have hlength : i < (ofFiles files).modules.length := hmodules.length_eq ▸ hi
  have hcarries := hmodules.get hlength hi
  rw [within, List.getElem?_eq_getElem hlength, Option.all_some]
  exact congrArg (fun lang : Language => lang.ecosystem == eco) hcarries.language

/-- The calls of well-formed files climb from their callers. -/
theorem climb_caller {tables : Tables} (h : tables.Climbs)
    (hcalls : CallRecords tables.modules tables.symbols.toList tables.calls) :
    ∀ c ∈ tables.calls, tables.ClimbEnds c.caller := by
  intro c hc
  cases hcaller : c.caller with
  | none => exact ⟨[], .done⟩
  | some p =>
    obtain ⟨s, hs, _⟩ := hcalls.callers c hc p hcaller
    rw [Array.getElem?_toList] at hs
    exact h p (Array.getElem?_eq_some_iff.mp hs).1

/-- The linked tables of well-formed files are consistent. -/
theorem resolved_consistent (config : ResolutionConfig) {files : List FileFacts}
    (hfiles : ∀ file ∈ files, file.WellFormed) :
    ((ofFiles files).linkImports.linkCalls config).records.Consistent :=
  linkCalls_consistent config
    (linkImports_consistent (ofFiles_consistent files hfiles) (ofFiles_written files))

/-- The linked tables of a unit correspond to those of one of its ecosystems. -/
theorem resolved_holds (config : ResolutionConfig) (eco : Ecosystem) {files : List FileFacts}
    (hfiles : ∀ file ∈ files, file.WellFormed) (hdistinct : DistinctPaths FileFacts.path files) :
    ∃ up, Holds up ((ofFiles files).within eco)
      ((ofFiles (files.filter fun file => file.language.ecosystem == eco)).linkImports.linkCalls
        config)
      ((ofFiles files).linkImports.linkCalls config) := by
  have hpartFiles : ∀ file ∈ files.filter fun file => file.language.ecosystem == eco,
      file.WellFormed := fun file hfile => hfiles file (List.mem_filter.mp hfile).1
  -- The blocks of derived imports can be given at once: they depend on the whole unit only.
  obtain ⟨hholds, hreceivers, haligned⟩ := ofFiles_holds
    ((ofFiles files).linkedImports.map fun e =>
      ((ofFiles files).within eco e.module, ((ofFiles files).expansions e).length))
    hdistinct (fun i file hfile => within_ofFiles eco files hfile) hfiles
  have hpart := ofFiles_consistent _ hpartFiles
  have hrestricts := restricts_of_holds hholds hreceivers haligned hpart.symbols
    (ofFiles_consistent files hfiles).symbols (ofFiles_climbs _ hpartFiles)
  have himported := hrestricts.linkImports_holds hholds hpart.imports.importers haligned.imports
  exact ⟨_, (hrestricts.linkImports himported).linkCalls_holds config himported
    (climb_caller hrestricts.climbs hpart.calls)⟩

end Tables

/-! ### Graphs -/

namespace Snapshot

/-- Does the module belong to the ecosystem? -/
def within (r : Snapshot) (eco : Ecosystem) (module : Nat) : Bool :=
  r.modules[module]?.any fun m => m.language.ecosystem == eco

/-- A module belongs to an ecosystem by its language. -/
theorem within_iff {r : Snapshot} {eco : Ecosystem} {m : Nat} :
    r.within eco m = true ↔ ∃ n, r.modules[m]? = some n ∧ n.language.ecosystem = eco := by
  rw [within]
  cases r.modules[m]? <;> simp

/-- The records of the ecosystem, in order, are those of another graph under other numbers. -/
structure RestrictsTo (whole : Snapshot) (eco : Ecosystem) (up : Renumbering) (part : Snapshot) :
    Prop where
  modules : (whole.modules.filter fun m => m.language.ecosystem == eco) =
    part.modules.map (Module.renumber up)
  symbols : (whole.symbols.filter fun s => whole.within eco s.module) =
    part.symbols.map (Symbol.renumber up)
  imports : (whole.imports.filter fun e => whole.within eco e.module) =
    part.imports.map (ImportEdge.renumber up)
  calls : (whole.calls.filter fun c => whole.within eco c.module) =
    part.calls.map (CallEdge.renumber up)
  diagnostics : (whole.diagnostics.filter fun d => whole.within eco d.module) =
    part.diagnostics.map (Diagnostic.renumber up)

/-- Are both modules in one ecosystem? -/
def Neighbours (r : Snapshot) (a b : Nat) : Prop :=
  ∃ m n, r.modules[a]? = some m ∧ r.modules[b]? = some n ∧
    m.language.ecosystem = n.language.ecosystem

/-- No import and no call leads into another ecosystem. -/
structure EcosystemsApart (r : Snapshot) : Prop where
  statuses : ∀ e ∈ r.imports, ∀ m, e.status = .resolved m → r.Neighbours e.module m
  boundModules : ∀ e ∈ r.imports, ∀ m, e.binding = some (.module m) → r.Neighbours e.module m
  boundSymbols : ∀ e ∈ r.imports, ∀ id, e.binding = some (.symbol id) →
    ∃ s, r.symbols[id]? = some s ∧ r.Neighbours e.module s.module
  targets : ∀ c ∈ r.calls, ∀ id, c.target = .symbol id →
    ∃ s, r.symbols[id]? = some s ∧ r.Neighbours c.module s.module

namespace RestrictsTo

variable {whole part : Snapshot} {eco : Ecosystem} {up : Renumbering}
  (h : whole.RestrictsTo eco up part)
include h

/-- A module of the part is one of the ecosystem. -/
theorem moduleAt (hwhole : whole.Consistent) (hpart : part.Consistent) {i : Nat}
    (hi : i < part.modules.length) :
    ∃ n, whole.modules[up.onModules i]? = some n ∧ n.language.ecosystem = eco := by
  have hget := List.getElem?_eq_getElem hi
  have hmem : part.modules[i].renumber up ∈
      whole.modules.filter fun m => m.language.ecosystem == eco := by
    rw [h.modules]
    exact List.mem_map_of_mem (List.getElem_mem hi)
  obtain ⟨hmem, heco⟩ := List.mem_filter.mp hmem
  have hat := hwhole.symbols.modulesNumbered.getElem?_of_mem hmem
  have hid : (part.modules[i].renumber up).id = up.onModules i :=
    congrArg up.onModules (hpart.symbols.modulesNumbered i _ hget)
  exact ⟨_, hid ▸ hat, beq_iff_eq.mp heco⟩

/-- A symbol of the part is one of the ecosystem. -/
theorem symbolAt (hwhole : whole.Consistent) (hpart : part.Consistent) {id : Nat}
    (hid : id < part.symbols.length) :
    ∃ s n, whole.symbols[up.onSymbols id]? = some s ∧ whole.modules[s.module]? = some n ∧
      n.language.ecosystem = eco := by
  have hget := List.getElem?_eq_getElem hid
  have hmem : part.symbols[id].renumber up ∈
      whole.symbols.filter fun s => whole.within eco s.module := by
    rw [h.symbols]
    exact List.mem_map_of_mem (List.getElem_mem hid)
  obtain ⟨hmem, hwithin⟩ := List.mem_filter.mp hmem
  have hat := hwhole.symbols.symbolsNumbered.getElem?_of_mem hmem
  have hsame : (part.symbols[id].renumber up).id = up.onSymbols id :=
    congrArg up.onSymbols (hpart.symbols.symbolsNumbered id _ hget)
  obtain ⟨n, hn, heco⟩ := within_iff.mp hwithin
  exact ⟨_, n, hsame ▸ hat, hn, heco⟩

/-- The status and the binding of an import of the ecosystem, and what they lead to. -/
theorem import_stays (hwhole : whole.Consistent) (hpart : part.Consistent) {e : ImportEdge}
    (he : e ∈ whole.imports) (heco : whole.within eco e.module = true) :
    (∀ m, e.status = .resolved m → whole.within eco m = true) ∧
      (∀ m, e.binding = some (.module m) → whole.within eco m = true) ∧
      ∀ id, e.binding = some (.symbol id) →
        ∃ s, whole.symbols[id]? = some s ∧ whole.within eco s.module = true := by
  have hmem : e ∈ part.imports.map (ImportEdge.renumber up) := by
    rw [← h.imports]
    exact List.mem_filter.mpr ⟨he, heco⟩
  obtain ⟨edge, hedge, rfl⟩ := List.mem_map.mp hmem
  refine ⟨fun m hm => ?_, fun m hm => ?_, fun id hid => ?_⟩
  · obtain ⟨i, hstatus, rfl⟩ := ImportStatus.renumber_eq_resolved hm
    have hi : i < part.modules.length := hpart.imports.resolved edge hedge i hstatus
    exact within_iff.mpr (h.moduleAt hwhole hpart hi)
  · obtain ⟨binding, hbinding, hm⟩ := Option.map_eq_some_iff.mp hm
    obtain ⟨i, rfl, rfl⟩ := ImportBinding.renumber_eq_module hm
    have hi : i < part.modules.length := hpart.imports.bindings edge hedge _ hbinding
    exact within_iff.mpr (h.moduleAt hwhole hpart hi)
  · obtain ⟨binding, hbinding, hid⟩ := Option.map_eq_some_iff.mp hid
    obtain ⟨i, rfl, rfl⟩ := ImportBinding.renumber_eq_symbol hid
    have hi : i < part.symbols.length := hpart.imports.bindings edge hedge _ hbinding
    obtain ⟨s, n, hs, hn⟩ := h.symbolAt hwhole hpart hi
    exact ⟨s, hs, within_iff.mpr ⟨n, hn⟩⟩

/-- The target of a call of the ecosystem is one of its symbols. -/
theorem call_stays (hwhole : whole.Consistent) (hpart : part.Consistent) {c : CallEdge}
    (hc : c ∈ whole.calls) (heco : whole.within eco c.module = true) {id : Nat}
    (hid : c.target = .symbol id) :
    ∃ s, whole.symbols[id]? = some s ∧ whole.within eco s.module = true := by
  have hmem : c ∈ part.calls.map (CallEdge.renumber up) := by
    rw [← h.calls]
    exact List.mem_filter.mpr ⟨hc, heco⟩
  obtain ⟨call, hcall, rfl⟩ := List.mem_map.mp hmem
  obtain ⟨i, htarget, rfl⟩ := CallTarget.renumber_eq_symbol hid
  have hi : i < part.symbols.length := hpart.calls.targets call hcall i htarget
  obtain ⟨s, n, hs, hn⟩ := h.symbolAt hwhole hpart hi
  exact ⟨s, hs, within_iff.mpr ⟨n, hn⟩⟩

end RestrictsTo

/-- When the graph restricts to each of its ecosystems, these are apart. -/
theorem ecosystemsApart_of_restrictsTo {whole : Snapshot} (hwhole : whole.Consistent)
    (h : ∀ eco, ∃ up part, part.Consistent ∧ whole.RestrictsTo eco up part) :
    whole.EcosystemsApart := by
  have hstart {a : Nat} (ha : a < whole.modules.length) :
      ∃ eco, whole.within eco a = true ∧ ∀ b, whole.within eco b = true → whole.Neighbours a b := by
    have hget := List.getElem?_eq_getElem ha
    refine ⟨_, within_iff.mpr ⟨_, hget, rfl⟩, fun b hb => ?_⟩
    obtain ⟨n, hn, heco⟩ := within_iff.mp hb
    exact ⟨_, n, hget, hn, heco.symm⟩
  have himport : ∀ e ∈ whole.imports, ∃ eco, (∀ b, whole.within eco b = true →
      whole.Neighbours e.module b) ∧ (∀ m, e.status = .resolved m → whole.within eco m = true) ∧
      (∀ m, e.binding = some (.module m) → whole.within eco m = true) ∧
      ∀ id, e.binding = some (.symbol id) →
        ∃ s, whole.symbols[id]? = some s ∧ whole.within eco s.module = true := by
    intro e he
    obtain ⟨eco, hown, hneighbours⟩ := hstart (hwhole.imports.importers e he)
    obtain ⟨up, part, hpart, hrestricts⟩ := h eco
    exact ⟨eco, hneighbours, hrestricts.import_stays hwhole hpart he hown⟩
  refine ⟨fun e he m hm => ?_, fun e he m hm => ?_, fun e he id hid => ?_, fun c hc id hid => ?_⟩
  · obtain ⟨eco, hneighbours, hstatus, _⟩ := himport e he
    exact hneighbours m (hstatus m hm)
  · obtain ⟨eco, hneighbours, _, hbound, _⟩ := himport e he
    exact hneighbours m (hbound m hm)
  · obtain ⟨eco, hneighbours, _, _, hbound⟩ := himport e he
    obtain ⟨s, hs, hwithin⟩ := hbound id hid
    exact ⟨s, hs, hneighbours _ hwithin⟩
  · obtain ⟨eco, hown, hneighbours⟩ := hstart (hwhole.calls.inModule c hc)
    obtain ⟨up, part, hpart, hrestricts⟩ := h eco
    obtain ⟨s, hs, hwithin⟩ := hrestricts.call_stays hwhole hpart hc hown hid
    exact ⟨s, hs, hneighbours _ hwithin⟩

end Snapshot

namespace Tables

/-- Corresponding tables give corresponding records. -/
theorem Holds.restrictsTo {up : Renumbering} {eco : Ecosystem} {part whole : Tables}
    (h : Holds up (whole.within eco) part whole) (hwhole : whole.records.Consistent)
    (hdoubts : ∀ d ∈ whole.diagnostics, d.module < whole.modules.length) :
    whole.records.RestrictsTo eco up part.records := by
  have hwithin {m : Nat} (hm : m < whole.modules.length) :
      whole.records.within eco m = whole.within eco m := by
    change whole.modules[m]?.any _ = whole.modules[m]?.all _
    rw [List.getElem?_eq_getElem hm]
    rfl
  refine ⟨?_, ?_, ?_, ?_, ?_⟩
  · refine Eq.trans (List.filter_congr fun m hm => ?_) h.modules
    have hat : whole.modules[m.id]? = some m := hwhole.symbols.modulesNumbered.getElem?_of_mem hm
    rw [Tables.within, hat, Option.all_some]
  · exact Eq.trans (List.filter_congr fun s hs => hwithin (hwhole.symbols.inModule s hs)) h.symbols
  · exact Eq.trans (List.filter_congr fun e he => hwithin (hwhole.imports.importers e he)) h.imports
  · exact Eq.trans (List.filter_congr fun c hc => hwithin (hwhole.calls.inModule c hc)) h.calls
  · exact Eq.trans (List.filter_congr fun d hd => hwithin (hdoubts d hd)) h.diagnostics

/-- The doubts about a unit are those of its modules. -/
theorem resolved_doubts (config : ResolutionConfig) {files : List FileFacts}
    (hfiles : ∀ file ∈ files, file.WellFormed) :
    ∀ d ∈ ((ofFiles files).linkImports.linkCalls config).diagnostics,
      d.module < (ofFiles files).modules.length := by
  have hconsistent := ofFiles_consistent files hfiles
  intro d hd
  simp only [linkCalls, linkImports, (collected_ofFiles files).diagnostics, List.nil_append,
    List.mem_append, List.mem_flatMap, List.mem_map] at hd
  rcases hd with ⟨_, ⟨e, he, rfl⟩, hd⟩ | ⟨_, ⟨c, hc, rfl⟩, hd⟩
  · rw [linkImport_doubts _ e d hd]
    exact hconsistent.imports.importers e he
  · rw [linkCall_doubts _ config c d hd]
    exact hconsistent.calls.inModule c hc

/-- The records of a linked unit restrict to those of each ecosystem. -/
theorem resolved_restrictsTo (config : ResolutionConfig) (eco : Ecosystem) {files : List FileFacts}
    (hfiles : ∀ file ∈ files, file.WellFormed) (hdistinct : DistinctPaths FileFacts.path files) :
    ∃ up, ((ofFiles files).linkImports.linkCalls config).records.RestrictsTo eco up
      ((ofFiles (files.filter fun file => file.language.ecosystem == eco)).linkImports.linkCalls
        config).records := by
  obtain ⟨up, hholds⟩ := resolved_holds config eco hfiles hdistinct
  exact ⟨up, hholds.restrictsTo (resolved_consistent config hfiles) (resolved_doubts config hfiles)⟩

end Tables

/-- The graph of well-formed files with distinct paths, restricted to one ecosystem, is the graph of
its files up to a renumbering that keeps the order. Nothing leads from one ecosystem into another.
-/
theorem ecosystems_do_not_interfere (config : ResolutionConfig) (files : List FileFacts)
    (eco : Ecosystem) (hfiles : ∀ file ∈ files, file.WellFormed)
    (hdistinct : DistinctPaths FileFacts.path files)
    (hnonempty : (files.filter fun file => file.language.ecosystem == eco) ≠ []) :
    ∃ whole part up,
      resolveFacts config files = .ok whole ∧
      resolveFacts config (files.filter fun file => file.language.ecosystem == eco) = .ok part ∧
      whole.records.RestrictsTo eco up part.records ∧
      whole.records.EcosystemsApart := by
  have hall : files ≠ [] := by
    rintro rfl
    exact hnonempty rfl
  have hpartFiles (other : Ecosystem) :
      ∀ file ∈ files.filter fun file => file.language.ecosystem == other, file.WellFormed :=
    fun file hfile => hfiles file (List.mem_filter.mp hfile).1
  obtain ⟨up, hrestricts⟩ := Tables.resolved_restrictsTo config eco hfiles hdistinct
  refine ⟨_, _, up, (completedRun_of_ne_nil config hall).resolves,
    (completedRun_of_ne_nil config hnonempty).resolves, hrestricts, ?_⟩
  refine Snapshot.ecosystemsApart_of_restrictsTo (Tables.resolved_consistent config hfiles)
    fun other => ?_
  obtain ⟨up, hother⟩ := Tables.resolved_restrictsTo config other hfiles hdistinct
  exact ⟨up, _, Tables.resolved_consistent config (hpartFiles other), hother⟩

/-- Two files of one name in two ecosystems, each with a class `Shape`, and a file that imports every
name from one of them. -/
def shapesInTwoEcosystems : List FileFacts :=
  let shape : Declaration :=
    { name := "Shape", kind := .classLike, parent := none, visibility := .exposed }
  [{ path := ⟨"draw/shape.ts"⟩, language := .typeScript, declarations := [shape] },
    { path := ⟨"draw/shape.py"⟩, language := .python, declarations := [shape] },
    { path := ⟨"main.py"⟩
      language := .python
      imports := [{ target := "shape", name := .wildcard, localName := "*" }]
      calls := [{ callee := "Shape", name := "Shape", receiver := none, kind := .direct }] }]

/-- Next to a script of the same name, the files of Python resolve as they do alone. -/
theorem ecosystems_do_not_interfere_same_name :
    (∀ file ∈ shapesInTwoEcosystems, file.WellFormed) ∧
    DistinctPaths FileFacts.path shapesInTwoEcosystems ∧
    (shapesInTwoEcosystems.filter fun file => file.language.ecosystem == .python) ≠ [] ∧
    ∃ whole part up,
      resolveFacts {} shapesInTwoEcosystems = .ok whole ∧
      resolveFacts {} (shapesInTwoEcosystems.filter fun file =>
        file.language.ecosystem == .python) = .ok part ∧
      whole.records.RestrictsTo .python up part.records ∧
      whole.records.EcosystemsApart := by
  have hfiles : ∀ file ∈ shapesInTwoEcosystems, file.WellFormed := by
    intro file hfile
    simp only [shapesInTwoEcosystems, List.mem_cons, List.not_mem_nil, or_false] at hfile
    rcases hfile with rfl | rfl | rfl
    · exact FileFacts.wellFormed_of_flat (by simp) rfl
    · exact FileFacts.wellFormed_of_flat (by simp) rfl
    · exact ⟨by simp, by simp, by simp, by simp⟩
  have hdistinct : DistinctPaths FileFacts.path shapesInTwoEcosystems := by
    unfold DistinctPaths
    decide
  have hnonempty : (shapesInTwoEcosystems.filter fun file =>
      file.language.ecosystem == .python) ≠ [] := by decide
  exact ⟨hfiles, hdistinct, hnonempty,
    ecosystems_do_not_interfere {} shapesInTwoEcosystems .python hfiles hdistinct hnonempty⟩

end CodeAtlas
