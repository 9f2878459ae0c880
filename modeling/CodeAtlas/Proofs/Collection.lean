import CodeAtlas.Proofs.Consistency
import CodeAtlas.Proofs.FileOrder
import CodeAtlas.Proofs.Lists

/-!
# Collecting the facts of files

Adding a file appends one module, the file's symbols behind the symbols that are already there, and
its imports and calls behind theirs. Positions inside of the file move up by the number of symbols
before it, so they never meet those of another file. Adding a well-formed file therefore keeps the
records consistent, and so does adding any number of them.
-/

namespace CodeAtlas

/-- Numbers with a property, moved up by a constant. -/
theorem Enumerates.shift {ids : List Nat} {p : Nat → Prop} (base : Nat) (h : Enumerates ids p) :
    Enumerates (ids.map (base + ·)) fun id => ∃ i, p i ∧ base + i = id where
  increasing := by
    refine List.pairwise_map.mpr (h.increasing.imp ?_)
    intro a b hab
    exact Nat.add_lt_add_left hab base
  mem_iff := by
    intro id
    simp only [List.mem_map, h.mem_iff]

/-- Properties with the same extension are enumerated by the same list. -/
theorem Enumerates.congr {ids : List Nat} {p q : Nat → Prop} (h : Enumerates ids p)
    (hiff : ∀ id, p id ↔ q id) : Enumerates ids q where
  increasing := h.increasing
  mem_iff := fun id => (h.mem_iff id).trans (hiff id)

namespace Tables

/-- The declarations with a parent are listed by position. -/
theorem childrenOf_enumerates (declarations : List Declaration) (parent : Option Nat) :
    Enumerates (childrenOf declarations parent) fun i =>
      ∃ d, declarations[i]? = some d ∧ d.parent = parent where
  increasing := by
    have hsub : (childrenOf declarations parent).Sublist (declarations.zipIdx.map (·.2)) :=
      List.filter_sublist.map _
    have hrange : (declarations.zipIdx.map (·.2)).Pairwise (· < ·) := by
      rw [show (declarations.zipIdx.map (·.2)) = List.range' 0 declarations.length from
        List.zipIdx_map_snd 0 declarations]
      exact List.pairwise_lt_range'
    exact hrange.sublist hsub
  mem_iff := by
    intro i
    simp only [childrenOf, List.mem_map, List.mem_filter, beq_iff_eq]
    constructor
    · rintro ⟨⟨d, j⟩, ⟨hmem, hparent⟩, rfl⟩
      exact ⟨d, List.mem_zipIdx_iff_getElem?.mp hmem, hparent⟩
    · rintro ⟨d, hget, hparent⟩
      exact ⟨(d, i), ⟨List.mem_zipIdx_iff_getElem?.mpr hget, hparent⟩, rfl⟩

/-- The symbols of a file, when `base` symbols come before them. -/
def symbolsOf (module base : Nat) (declarations : List Declaration) : List Symbol :=
  declarations.zipIdx.map fun (d, index) => symbolOf module base declarations d index

/-- The module of a file, when `base` symbols come before its own. -/
def moduleOf (module base : Nat) (file : FileFacts) : Module where
  id := module
  path := file.path
  place := .ofPath file.path file.language
  language := file.language
  contentHash := file.contentHash
  symbols := (childrenOf file.declarations none).map (base + ·)

/-- The imports of a file, numbered from `start`. -/
def importsOf (module start : Nat) (imports : List ImportFact) : List ImportEdge :=
  (imports.zipIdx start).map fun (i, id) => importOf module id i

/-- The calls of a file, numbered from `start`. -/
def callsOf (module base start : Nat) (calls : List CallFact) : List CallEdge :=
  (calls.zipIdx start).map fun (c, id) => callOf module base id c

/-- A file's symbols stand in the order of its declarations. -/
theorem symbolsOf_getElem? (module base : Nat) (declarations : List Declaration) (i : Nat) :
    (symbolsOf module base declarations)[i]? =
      declarations[i]?.map fun d => symbolOf module base declarations d i := by
  simp [symbolsOf, List.getElem?_zipIdx, Option.map_map, Function.comp_def]

/-- A file has as many symbols as declarations. -/
@[simp] theorem symbolsOf_length (module base : Nat) (declarations : List Declaration) :
    (symbolsOf module base declarations).length = declarations.length := by
  simp [symbolsOf]

/-- A file's imports stand in the order in which it writes them. -/
theorem importsOf_getElem? (module start : Nat) (imports : List ImportFact) (i : Nat) :
    (importsOf module start imports)[i]? = imports[i]?.map (importOf module (start + i)) := by
  simp [importsOf, List.getElem?_zipIdx, Option.map_map, Function.comp_def]

/-- A file's calls stand in the order in which it makes them. -/
theorem callsOf_getElem? (module base start : Nat) (calls : List CallFact) (i : Nat) :
    (callsOf module base start calls)[i]? = calls[i]?.map (callOf module base (start + i)) := by
  simp [callsOf, List.getElem?_zipIdx, Option.map_map, Function.comp_def]

/-- Adding a file appends one module. -/
theorem addFile_modules (tables : Tables) (file : FileFacts) :
    (tables.addFile file).modules =
      tables.modules ++ [moduleOf tables.modules.length tables.symbols.size file] := rfl

/-- Adding a file appends its symbols. -/
theorem addFile_symbols (tables : Tables) (file : FileFacts) :
    (tables.addFile file).symbols.toList = tables.symbols.toList ++
      symbolsOf tables.modules.length tables.symbols.size file.declarations := by
  simp [addFile, symbolsOf]

/-- Adding a file appends a receiver entry for each of its symbols. -/
theorem addFile_receiverNames (tables : Tables) (file : FileFacts) :
    (tables.addFile file).receiverNames.toList =
      tables.receiverNames.toList ++ file.declarations.map (·.receiverName) := by
  simp [addFile]

/-- Adding a file appends its imports. -/
theorem addFile_imports (tables : Tables) (file : FileFacts) :
    (tables.addFile file).imports = tables.imports ++
      importsOf tables.modules.length tables.imports.length file.imports := rfl

/-- Adding a file appends its calls. -/
theorem addFile_calls (tables : Tables) (file : FileFacts) :
    (tables.addFile file).calls = tables.calls ++
      callsOf tables.modules.length tables.symbols.size tables.calls.length file.calls := rfl

end Tables

open Tables

/-- A symbol of an appended file is an old one, or one of the file's at its shifted position. -/
theorem getElem?_append_symbolsOf {symbols : List Symbol} {module i : Nat}
    {declarations : List Declaration} {s : Symbol}
    (h : (symbols ++ symbolsOf module symbols.length declarations)[i]? = some s) :
    symbols[i]? = some s ∨
      ∃ k d, i = symbols.length + k ∧ declarations[k]? = some d ∧
        s = symbolOf module symbols.length declarations d k := by
  rcases Nat.lt_or_ge i symbols.length with hlt | hge
  · rw [List.getElem?_append_left hlt] at h
    exact .inl h
  · rw [List.getElem?_append_right hge, symbolsOf_getElem?] at h
    obtain ⟨d, hd, hs⟩ := Option.map_eq_some_iff.mp h
    exact .inr ⟨i - symbols.length, d, by omega, hd, hs.symm⟩

/-- A declaration of an appended file is found at its shifted position. -/
theorem getElem?_append_shifted {symbols : List Symbol} {module k : Nat}
    {declarations : List Declaration} {d : Declaration} (h : declarations[k]? = some d) :
    (symbols ++ symbolsOf module symbols.length declarations)[symbols.length + k]? =
      some (symbolOf module symbols.length declarations d k) := by
  rw [List.getElem?_append_right (Nat.le_add_right _ _), Nat.add_sub_cancel_left,
    symbolsOf_getElem?, h]
  rfl

section Append

variable {modules : List Module} {symbols : List Symbol} {file : FileFacts}

/-- A position of a file leads to a symbol of the file's own module. -/
theorem shifted_leads_to_own_module {k : Nat} (hk : k < file.declarations.length) :
    ∃ s, (symbols ++ symbolsOf modules.length symbols.length file.declarations)[
      symbols.length + k]? = some s ∧ s.module = modules.length :=
  ⟨_, getElem?_append_shifted (List.getElem?_eq_getElem hk), rfl⟩

/-- Appending a file keeps the children of symbols complete: no link crosses between files. -/
theorem SymbolRecords.append_children (h : SymbolRecords modules symbols) {i : Nat} {s : Symbol}
    (hs : (symbols ++ symbolsOf modules.length symbols.length file.declarations)[i]? = some s) :
    Enumerates s.children fun c => ∃ child,
      (symbols ++ symbolsOf modules.length symbols.length file.declarations)[c]? = some child ∧
        child.parent = some i := by
  rcases getElem?_append_symbolsOf hs with hold | ⟨k, d, rfl, hd, rfl⟩
  · have hi := (List.getElem?_eq_some_iff.mp hold).1
    refine (h.children i s hold).congr fun c => ⟨?_, ?_⟩
    · rintro ⟨child, hchild, hparent⟩
      exact ⟨child, getElem?_append_of_some _ hchild, hparent⟩
    · rintro ⟨child, hchild, hparent⟩
      rcases getElem?_append_symbolsOf hchild with hchild | ⟨j, e, rfl, he, rfl⟩
      · exact ⟨child, hchild, hparent⟩
      · -- The parent of a new symbol lies behind all old ones.
        obtain ⟨p, _, hp⟩ := Option.map_eq_some_iff.mp hparent
        omega
  · refine ((childrenOf_enumerates file.declarations (some k)).shift symbols.length).congr
      fun c => ⟨?_, ?_⟩
    · rintro ⟨j, ⟨e, he, hparent⟩, rfl⟩
      exact ⟨_, getElem?_append_shifted he, by simp [symbolOf, hparent]⟩
    · rintro ⟨child, hchild, hparent⟩
      rcases getElem?_append_symbolsOf hchild with hchild | ⟨j, e, rfl, he, rfl⟩
      · obtain ⟨around, haround, _⟩ :=
          h.parents child (List.mem_of_getElem? hchild) _ hparent
        have := (List.getElem?_eq_some_iff.mp haround).1
        omega
      · obtain ⟨p, hp, hshift⟩ := Option.map_eq_some_iff.mp hparent
        have hpk : p = k := by omega
        exact ⟨j, ⟨e, he, hpk ▸ hp⟩, rfl⟩

/-- Appending a file keeps the lists of top-level symbols complete. -/
theorem SymbolRecords.append_topLevels (h : SymbolRecords modules symbols) {i : Nat} {m : Module}
    (hm : (modules ++ [moduleOf modules.length symbols.length file])[i]? = some m) :
    Enumerates m.symbols fun c => ∃ s,
      (symbols ++ symbolsOf modules.length symbols.length file.declarations)[c]? = some s ∧
        s.module = i ∧ s.parent = none := by
  rcases Nat.lt_or_ge i modules.length with hi | hi
  · rw [List.getElem?_append_left hi] at hm
    refine (h.topLevels i m hm).congr fun c => ⟨?_, ?_⟩
    · rintro ⟨s, hs, hrest⟩
      exact ⟨s, getElem?_append_of_some _ hs, hrest⟩
    · rintro ⟨s, hs, hmodule, hparent⟩
      rcases getElem?_append_symbolsOf hs with hs | ⟨j, e, rfl, he, rfl⟩
      · exact ⟨s, hs, hmodule, hparent⟩
      · exact absurd hmodule (Nat.ne_of_gt hi)
  · obtain ⟨rfl, rfl⟩ : i = modules.length ∧ m = moduleOf modules.length symbols.length file := by
      rw [List.getElem?_append_right hi, List.getElem?_singleton] at hm
      split at hm
      · exact ⟨by omega, (Option.some.inj hm).symm⟩
      · cases hm
    refine ((childrenOf_enumerates file.declarations none).shift symbols.length).congr
      fun c => ⟨?_, ?_⟩
    · rintro ⟨j, ⟨e, he, hparent⟩, rfl⟩
      exact ⟨_, getElem?_append_shifted he, rfl, by simp [symbolOf, hparent]⟩
    · rintro ⟨s, hs, hmodule, hparent⟩
      rcases getElem?_append_symbolsOf hs with hs | ⟨j, e, rfl, he, rfl⟩
      · have := h.inModule s (List.mem_of_getElem? hs)
        omega
      · exact ⟨j, ⟨e, he, Option.map_eq_none_iff.mp hparent⟩, rfl⟩

/-- Appending a well-formed file keeps modules and symbols consistent. -/
theorem SymbolRecords.append (h : SymbolRecords modules symbols) (hfile : file.WellFormed) :
    SymbolRecords (modules ++ [moduleOf modules.length symbols.length file])
      (symbols ++ symbolsOf modules.length symbols.length file.declarations) where
  modulesNumbered := by
    apply h.modulesNumbered.append
    intro i m hm
    obtain ⟨rfl, rfl⟩ : i = 0 ∧ m = moduleOf modules.length symbols.length file := by
      simpa [List.getElem?_singleton, eq_comm] using hm
    rfl
  symbolsNumbered := by
    apply h.symbolsNumbered.append
    intro i s hs
    rw [symbolsOf_getElem?] at hs
    obtain ⟨d, _, rfl⟩ := Option.map_eq_some_iff.mp hs
    rfl
  inModule := by
    intro s hs
    obtain ⟨i, hget⟩ := List.mem_iff_getElem?.mp hs
    rw [List.length_append, List.length_singleton]
    rcases getElem?_append_symbolsOf hget with hold | ⟨k, d, rfl, hd, rfl⟩
    · exact Nat.lt_succ_of_lt (h.inModule s (List.mem_of_getElem? hold))
    · exact Nat.lt_succ_self modules.length
  parents := by
    intro s hs p hp
    obtain ⟨i, hget⟩ := List.mem_iff_getElem?.mp hs
    rcases getElem?_append_symbolsOf hget with hold | ⟨k, d, rfl, hd, rfl⟩
    · obtain ⟨around, haround, hmodule⟩ := h.parents s (List.mem_of_getElem? hold) p hp
      exact ⟨around, getElem?_append_of_some _ haround, hmodule⟩
    · obtain ⟨j, hj, rfl⟩ := Option.map_eq_some_iff.mp hp
      exact shifted_leads_to_own_module (hfile.parents d (List.mem_of_getElem? hd) j hj)
  children := fun _ _ hs => h.append_children hs
  topLevels := fun _ _ hm => h.append_topLevels hm

/-- Appending a file keeps the imports consistent. -/
theorem ImportRecords.append {imports : List ImportEdge} (h : ImportRecords modules symbols imports) :
    ImportRecords (modules ++ [moduleOf modules.length symbols.length file])
      (symbols ++ symbolsOf modules.length symbols.length file.declarations)
      (imports ++ importsOf modules.length imports.length file.imports) := by
  have hnew : ∀ e ∈ importsOf modules.length imports.length file.imports,
      ∃ id i, e = importOf modules.length id i := by
    intro e he
    obtain ⟨⟨i, id⟩, _, rfl⟩ := List.mem_map.mp he
    exact ⟨id, i, rfl⟩
  refine ⟨?_, ?_, ?_, ?_, ?_⟩
  · apply h.numbered.append
    intro i e he
    rw [importsOf_getElem?] at he
    obtain ⟨_, _, rfl⟩ := Option.map_eq_some_iff.mp he
    rfl
  · intro e he
    rw [List.length_append, List.length_singleton]
    rcases List.mem_append.mp he with hold | he
    · exact Nat.lt_succ_of_lt (h.importers e hold)
    · obtain ⟨id, i, rfl⟩ := hnew e he
      exact Nat.lt_succ_self modules.length
  · intro e he m hm
    rw [List.length_append, List.length_singleton]
    rcases List.mem_append.mp he with hold | he
    · exact Nat.lt_succ_of_lt (h.resolved e hold m hm)
    · obtain ⟨id, i, rfl⟩ := hnew e he
      cases hm
  · intro e he b hb
    rcases List.mem_append.mp he with hold | he
    · have hexists := h.bindings e hold b hb
      cases b with
      | module id =>
        change id < (modules ++ [_]).length
        rw [List.length_append]
        exact Nat.lt_add_right _ hexists
      | symbol id =>
        change id < (symbols ++ symbolsOf _ _ _).length
        rw [List.length_append]
        exact Nat.lt_add_right _ hexists
    · obtain ⟨id, i, rfl⟩ := hnew e he
      cases hb
  · intro e he w hw
    rcases List.mem_append.mp he with hold | he
    · obtain ⟨wildcard, hget, hrest⟩ := h.derived e hold w hw
      exact ⟨wildcard, getElem?_append_of_some _ hget, hrest⟩
    · obtain ⟨id, i, rfl⟩ := hnew e he
      cases hw

/-- Appending a well-formed file keeps the calls consistent. -/
theorem CallRecords.append {calls : List CallEdge} (h : CallRecords modules symbols calls)
    (hfile : file.WellFormed) :
    CallRecords (modules ++ [moduleOf modules.length symbols.length file])
      (symbols ++ symbolsOf modules.length symbols.length file.declarations)
      (calls ++ callsOf modules.length symbols.length calls.length file.calls) := by
  have hnew : ∀ c ∈ callsOf modules.length symbols.length calls.length file.calls,
      ∃ id, ∃ fact ∈ file.calls, c = Tables.callOf modules.length symbols.length id fact := by
    intro c hc
    obtain ⟨⟨fact, id⟩, hmem, rfl⟩ := List.mem_map.mp hc
    exact ⟨id, fact, List.fst_mem_of_mem_zipIdx hmem, rfl⟩
  refine ⟨?_, ?_, ?_, ?_, ?_⟩
  · apply h.numbered.append
    intro i c hc
    rw [callsOf_getElem?] at hc
    obtain ⟨_, _, rfl⟩ := Option.map_eq_some_iff.mp hc
    rfl
  · intro c hc
    rw [List.length_append, List.length_singleton]
    rcases List.mem_append.mp hc with hold | hc
    · exact Nat.lt_succ_of_lt (h.inModule c hold)
    · obtain ⟨id, fact, _, rfl⟩ := hnew c hc
      exact Nat.lt_succ_self modules.length
  · intro c hc p hp
    rcases List.mem_append.mp hc with hold | hc
    · obtain ⟨s, hget, hmodule⟩ := h.callers c hold p hp
      exact ⟨s, getElem?_append_of_some _ hget, hmodule⟩
    · obtain ⟨id, fact, hfact, rfl⟩ := hnew c hc
      obtain ⟨j, hj, rfl⟩ := Option.map_eq_some_iff.mp hp
      exact shifted_leads_to_own_module (hfile.callers fact hfact j hj)
  · intro c hc p hp
    rcases List.mem_append.mp hc with hold | hc
    · obtain ⟨s, hget, hmodule⟩ := h.decorated c hold p hp
      exact ⟨s, getElem?_append_of_some _ hget, hmodule⟩
    · obtain ⟨id, fact, hfact, rfl⟩ := hnew c hc
      obtain ⟨j, hj, rfl⟩ := Option.map_eq_some_iff.mp hp
      exact shifted_leads_to_own_module (hfile.decorated fact hfact j hj)
  · intro c hc p hp
    rcases List.mem_append.mp hc with hold | hc
    · rw [List.length_append]
      exact Nat.lt_add_right _ (h.targets c hold p hp)
    · obtain ⟨id, fact, _, rfl⟩ := hnew c hc
      cases hp

end Append

namespace Tables

/-- Adding a well-formed file keeps all records consistent. -/
theorem addFile_consistent (tables : Tables) (file : FileFacts) (hfile : file.WellFormed)
    (h : tables.records.Consistent) : (tables.addFile file).records.Consistent := by
  have hsize : tables.symbols.toList.length = tables.symbols.size := Array.length_toList
  refine ⟨?_, ?_, ?_⟩
  · change SymbolRecords (tables.addFile file).modules (tables.addFile file).symbols.toList
    rw [addFile_modules, addFile_symbols, ← hsize]
    exact h.symbols.append hfile
  · change ImportRecords (tables.addFile file).modules (tables.addFile file).symbols.toList
      (tables.addFile file).imports
    rw [addFile_modules, addFile_symbols, addFile_imports, ← hsize]
    exact h.imports.append
  · change CallRecords (tables.addFile file).modules (tables.addFile file).symbols.toList
      (tables.addFile file).calls
    rw [addFile_modules, addFile_symbols, addFile_calls, ← hsize]
    exact h.calls.append hfile

/-- Tables without records are consistent. -/
theorem empty_consistent : ({} : Tables).records.Consistent where
  symbols := by constructor <;> simp [Numbered, records, Graph.ofTables, Graph.ofRecords]
  imports := by constructor <;> simp [Numbered, records, Graph.ofTables, Graph.ofRecords]
  calls := by constructor <;> simp [Numbered, records, Graph.ofTables, Graph.ofRecords]

/-- What holds without records and is kept by every file of a unit holds of its tables. -/
theorem ofFiles_induction {P : Tables → Prop} (files : List FileFacts) (hempty : P {})
    (hstep : ∀ tables, ∀ file ∈ files, P tables → P (tables.addFile file)) : P (ofFiles files) := by
  have hfold : ∀ ordered : List FileFacts, (∀ file ∈ ordered, file ∈ files) →
      ∀ tables, P tables → P (ordered.foldl addFile tables) := by
    intro ordered
    induction ordered with
    | nil => exact fun _ tables h => h
    | cons file rest ih =>
      intro hmem tables h
      exact ih (fun f hf => hmem f (List.mem_cons_of_mem _ hf)) _
        (hstep tables file (hmem file List.mem_cons_self) h)
  exact hfold _ (fun _ => mem_of_mem_orderedFiles) _ hempty

/-- The tables of well-formed files are consistent. -/
theorem ofFiles_consistent (files : List FileFacts) (hfiles : ∀ file ∈ files, file.WellFormed) :
    (ofFiles files).records.Consistent :=
  ofFiles_induction files empty_consistent fun tables file hfile h =>
    addFile_consistent tables file (hfiles file hfile) h

/-- Every symbol has a receiver entry. -/
theorem ofFiles_receiverNames (files : List FileFacts) :
    (ofFiles files).receiverNames.size = (ofFiles files).symbols.size := by
  refine ofFiles_induction (P := fun t => t.receiverNames.size = t.symbols.size) files rfl ?_
  intro tables file _ h
  rw [← Array.length_toList, ← Array.length_toList, addFile_receiverNames, addFile_symbols]
  simp [h]

/-- Collected imports are written ones. -/
theorem ofFiles_written (files : List FileFacts) :
    ∀ e ∈ (ofFiles files).imports, e.expandedFrom = none := by
  refine ofFiles_induction (P := fun t => ∀ e ∈ t.imports, e.expandedFrom = none) files
    (by simp) ?_
  intro tables file _ h e he
  rcases List.mem_append.mp he with hold | hnew
  · exact h e hold
  · obtain ⟨_, _, rfl⟩ := List.mem_map.mp hnew
    rfl

/-- Does every climb from a symbol end? -/
def Climbs (tables : Tables) : Prop :=
  ∀ id < tables.symbols.size, ∃ chain, Climb tables.parentAt (some id) chain

/-- Adding a well-formed file keeps climbs finite: old climbs stay, new ones move up as a whole. -/
theorem addFile_climbs (tables : Tables) (file : FileFacts) (hfile : file.WellFormed)
    (h : tables.Climbs) : (tables.addFile file).Climbs := by
  have hlist (id : Nat) : (tables.addFile file).parentAt id =
      (tables.symbols.toList ++ symbolsOf tables.modules.length tables.symbols.toList.length
        file.declarations)[id]?.map (·.parent) := by
    rw [parentAt, ← Array.getElem?_toList, addFile_symbols, Array.length_toList]
  intro id hid
  rcases Nat.lt_or_ge id tables.symbols.size with hold | hnew
  · obtain ⟨chain, hclimb⟩ := h id hold
    refine ⟨chain, hclimb.mono fun i parent hparent => ?_⟩
    obtain ⟨s, hs, rfl⟩ := Option.map_eq_some_iff.mp hparent
    rw [← Array.getElem?_toList] at hs
    rw [hlist, getElem?_append_of_some _ hs]
    rfl
  · obtain ⟨k, rfl⟩ := Nat.exists_eq_add_of_le hnew
    have hk : k < file.declarations.length := by
      have hsize : (tables.addFile file).symbols.size =
          tables.symbols.size + file.declarations.length := by
        rw [← Array.length_toList, addFile_symbols]
        simp
      omega
    obtain ⟨chain, hclimb⟩ := hfile.climbs k hk
    refine ⟨_, hclimb.map (tables.symbols.size + ·) fun i parent hparent => ?_⟩
    obtain ⟨d, hd, rfl⟩ := Option.map_eq_some_iff.mp hparent
    have hshifted : (tables.symbols.toList ++ symbolsOf tables.modules.length
        tables.symbols.toList.length file.declarations)[tables.symbols.toList.length + i]? =
          some _ := getElem?_append_shifted hd
    rw [hlist, ← Array.length_toList, hshifted]
    rfl

/-- Climbs from the symbols of well-formed files end. -/
theorem ofFiles_climbs (files : List FileFacts) (hfiles : ∀ file ∈ files, file.WellFormed) :
    (ofFiles files).Climbs := by
  refine ofFiles_induction files ?_ fun tables file hfile h =>
    addFile_climbs tables file (hfiles file hfile) h
  intro id hid
  simp at hid

end Tables

end CodeAtlas
