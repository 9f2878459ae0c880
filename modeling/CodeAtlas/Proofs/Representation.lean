import CodeAtlas.Proofs.Collection
import CodeAtlas.Proofs.Linking
import CodeAtlas.Proofs.Phases

/-!
# The representation of a unit in every phase

A session over well-formed files succeeds in all its phases. After collecting, after linking imports,
after linking calls and in the frozen graph the records are consistent, and while linking, every
position that a look-up reads exists. So no reference ever dangles, whichever names the files use
and however modules and classes refer to each other.
-/

namespace CodeAtlas

namespace Tables

/-- From existing places, every position that linking looks up exists. -/
structure LookupsExist (tables : Tables) (config : ResolutionConfig) : Prop where
  receivers : tables.receiverNames.size = tables.symbols.size
  located : ∀ origin depth segments m,
    (tables.locate origin depth segments).1 = some m → m < tables.modules.length
  steps : tables.Closed (· < tables.modules.length) (· < tables.symbols.size)
  scopes : ∀ caller, (∀ id, caller = some id → id < tables.symbols.size) →
    ∀ id ∈ tables.scopeChain caller, id < tables.symbols.size
  aliases : ∀ m < tables.modules.length, ∀ localName meaning,
    tables.aliasMeaning? m localName = some meaning →
      meaning.Within (· < tables.modules.length) (· < tables.symbols.size)
  bases : ∀ id < tables.symbols.size, ∀ base ∈ tables.baseClasses id, base < tables.symbols.size
  ancestors : ∀ id < tables.symbols.size, ∀ base ∈ tables.ancestors id, base < tables.symbols.size
  members : ∀ id < tables.symbols.size, ∀ name found,
    tables.member? config id name = some found → found < tables.symbols.size
  initializers : ∀ id < tables.symbols.size, ∀ found,
    tables.initializer? config id = some found → found < tables.symbols.size
  names : ∀ m < tables.modules.length, ∀ caller,
    (∀ id, caller = some id → id < tables.symbols.size) → ∀ name,
      (tables.lookupName config m caller name).1.Within
        (· < tables.modules.length) (· < tables.symbols.size)
  paths : ∀ m < tables.modules.length, ∀ caller,
    (∀ id, caller = some id → id < tables.symbols.size) → ∀ path,
      (tables.lookupPath config m caller path).1.Within
        (· < tables.modules.length) (· < tables.symbols.size)

/-- Consistent tables answer every look-up with existing positions. -/
theorem lookupsExist_of_consistent {tables : Tables} (config : ResolutionConfig)
    (h : tables.records.Consistent)
    (hreceivers : tables.receiverNames.size = tables.symbols.size) :
    tables.LookupsExist config := by
  have hclosed := closed_of_consistent h
  refine ⟨hreceivers, ?_, hclosed, ?_, ?_, ?_, ?_, ?_, ?_, ?_, ?_⟩
  · intro origin depth segments m hm
    exact lt_of_locate h.symbols.modulesNumbered hm
  · intro caller hcaller
    exact hclosed.scopeChain hcaller
  · intro m hm localName meaning hmeaning
    exact hclosed.aliasMeaning hm hmeaning
  · intro id hid
    exact hclosed.baseClasses hid
  · intro id hid
    exact hclosed.ancestors hid
  · intro id hid name found hfound
    exact hclosed.member hid hfound
  · intro id hid found hfound
    exact hclosed.initializer hid hfound
  · intro m hm caller hcaller name
    exact hclosed.lookupName config hm hcaller name
  · intro m hm caller hcaller path
    exact hclosed.lookupPath config hm hcaller path

end Tables

namespace Index

/-- Adding to a bucket keeps the buckets. -/
theorem addTo_length (buckets : List (List Nat)) (bucket : Option Nat) (id : Nat) :
    (addTo buckets bucket id).length = buckets.length := by
  cases bucket with
  | none => rfl
  | some b => exact List.length_modify ..

/-- Adding any number of records keeps the buckets. -/
theorem foldl_addTo_length {α : Type} (records : List α) (bucket : α → Option Nat) (id : α → Nat)
    (buckets : List (List Nat)) :
    (records.foldl (fun acc r => addTo acc (bucket r) (id r)) buckets).length = buckets.length := by
  induction records generalizing buckets with
  | nil => rfl
  | cons record records ih => rw [List.foldl_cons, ih, addTo_length]

end Index

/-- The index of a graph has a bucket for every record that an edge leads to. -/
structure Graph.BucketsExist (g : Graph) : Prop where
  calls : ∀ c ∈ g.records.calls, ∀ id, c.target.symbol? = some id → id < g.index.callsTo.length
  imports : ∀ e ∈ g.records.imports, ∀ m, e.importedModule? = some m → m < g.index.importsTo.length

/-- Consistent records are indexed without an edge left over. -/
theorem Graph.ofRecords_bucketsExist {r : Snapshot} (h : r.Consistent) :
    (Graph.ofRecords r).BucketsExist where
  calls := by
    intro c hc id hid
    change id < (r.calls.foldl (fun acc c => Index.addTo acc c.target.symbol? c.id) _).length
    rw [Index.foldl_addTo_length, List.length_replicate]
    cases htarget : c.target with
    | symbol target =>
      rw [htarget] at hid
      cases hid
      exact h.calls.targets c hc id htarget
    | unresolved | builtin _ | external _ =>
      rw [htarget] at hid
      cases hid
  imports := by
    intro e he m hm
    change m < (r.imports.foldl (fun acc e => Index.addTo acc e.importedModule? e.id) _).length
    rw [Index.foldl_addTo_length, List.length_replicate]
    rw [ImportEdge.importedModule?] at hm
    split at hm
    · rename_i found _ hstatus
      exact Option.some.inj hm ▸ h.imports.resolved e he found hstatus
    · cases hm

/-- A session over some files that succeeds in every phase and keeps its records consistent. -/
structure ConsistentRun (config : ResolutionConfig) (files : List FileFacts)
    (collected imported called : Session) (graph : Graph) : Prop
    extends CompletedRun config files collected imported called graph where
  afterCollecting : collected.tables.records.Consistent
  afterImports : imported.tables.records.Consistent
  afterCalls : called.tables.records.Consistent
  inGraph : graph.records.Consistent
  importLookups : collected.tables.LookupsExist config
  callLookups : imported.tables.LookupsExist config
  indexing : graph.BucketsExist

/-- Every non-empty list of well-formed files is resolved through consistent records in every
phase. -/
theorem resolve_keeps_records_consistent (config : ResolutionConfig) (files : List FileFacts)
    (hnonempty : files ≠ []) (hfiles : ∀ file ∈ files, file.WellFormed) :
    ∃ collected imported called graph,
      ConsistentRun config files collected imported called graph := by
  have hcollected := Tables.ofFiles_consistent files hfiles
  have hreceivers := Tables.ofFiles_receiverNames files
  have himported := Tables.linkImports_consistent hcollected (Tables.ofFiles_written files)
  have hcalled := Tables.linkCalls_consistent config himported
  exact ⟨_, _, _, _, completedRun_of_ne_nil config hnonempty, hcollected, himported, hcalled,
    hcalled, Tables.lookupsExist_of_consistent config hcollected hreceivers,
    Tables.lookupsExist_of_consistent config himported hreceivers,
    Graph.ofRecords_bucketsExist hcalled⟩

/-- A method that stands before its class, called from its own body, in a file that imports every
name of itself. -/
theorem resolve_keeps_records_consistent_forward_parent :
    ∃ collected imported called graph,
      ConsistentRun { walkBases := false }
        [{ path := ⟨"pkg/shape.rs"⟩
           language := .rust
           declarations :=
            [{ name := "area", kind := .method, parent := some 1, visibility := .exposed },
              { name := "Shape", kind := .classLike, parent := none, visibility := .exposed }]
           imports := [{ target := "crate::pkg::shape", name := .wildcard, localName := "*" }]
           calls :=
            [{ callee := "self.area", name := "area", receiver := some "self", kind := .method
               caller := some 0 }] }]
        collected imported called graph := by
  refine resolve_keeps_records_consistent _ _ (List.cons_ne_nil _ _) fun file hfile => ?_
  obtain rfl := List.mem_singleton.mp hfile
  refine ⟨by simp, by simp, by simp, ?_⟩
  intro i hi
  match i, hi with
  | 0, _ => exact ⟨[0, 1], .step rfl (.step rfl .done)⟩
  | 1, _ => exact ⟨[1], .step rfl .done⟩

end CodeAtlas
