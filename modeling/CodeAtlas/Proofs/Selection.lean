import CodeAtlas.Proofs.Collection
import CodeAtlas.Proofs.Renumbering

/-!
# Collecting some of the files

Collecting the facts of some files of a unit gives the records of these files, under other numbers,
that collecting all of them gives. Files with distinct paths stand in the same order in both, so a
file adds its block of records to both tables or to the larger one only. Positions inside of a file
move up by the number of records before it, hence a block is renumbered as a whole.
-/

namespace CodeAtlas

/-- Choosing among files with distinct paths goes along with listing them. -/
theorem orderedFiles_filter {files : List FileFacts} (hdistinct : DistinctPaths FileFacts.path files)
    (keep : FileFacts → Bool) :
    orderedFiles (files.filter keep) = (orderedFiles files).filter keep := by
  have hsorted (files : List FileFacts) : SortedByPath FileFacts.path (orderedFiles files) :=
    (orderedFiles_precedes files).imp fun hbefore => hbefore.1
  have htake {l : List FileFacts} (hl : l.Pairwise fun _ _ => False) : l.take 1 = l := by
    cases l with
    | nil => rfl
    | cons first rest =>
      cases rest with
      | nil => rfl
      | cons second rest => exact (List.rel_of_pairwise_cons hl List.mem_cons_self).elim
  have hcomm (p : Path) (l : List FileFacts) :
      underPath FileFacts.path p (l.filter keep) = (underPath FileFacts.path p l).filter keep := by
    rw [underPath, underPath, List.filter_filter, List.filter_filter]
    exact List.filter_congr fun file _ => Bool.and_comm _ _
  refine (hsorted _).eq_of_underPath ((hsorted files).sublist List.filter_sublist) fun p => ?_
  have hpair := hdistinct.no_pair p
  rw [underPath_orderedFiles, hcomm, hcomm, underPath_orderedFiles, htake hpair,
    htake (hpair.filter _)]

/-- The blocks of records that several files give, marked when the file is kept. -/
def blocksOf (keep : FileFacts → Bool) (size : FileFacts → Nat) (files : List FileFacts) :
    List (Bool × Nat) :=
  files.map fun file => (keep file, size file)

/-- The first file gives the first block. -/
theorem blocksOf_cons (keep : FileFacts → Bool) (size : FileFacts → Nat) (file : FileFacts)
    (files : List FileFacts) :
    blocksOf keep size (file :: files) = (keep file, size file) :: blocksOf keep size files := rfl

/-- A record under other numbers is found at the renumbered position, and nothing behind the end. -/
theorem getElem?_renumbered {α : Type} {identity : α → Nat} {small large : List α} {up : Nat → Nat}
    {change : α → α} {keep : α → Bool} (hsmall : Numbered identity small)
    (hlarge : Numbered identity large) (hchange : ∀ a, identity (change a) = up (identity a))
    (hkept : large.filter keep = small.map change)
    (hbehind : ∀ i, small.length ≤ i → large.length ≤ up i) (i : Nat) :
    large[up i]? = small[i]?.map change := by
  cases hget : small[i]? with
  | none =>
    rw [Option.map_none, List.getElem?_eq_none_iff]
    exact hbehind i (List.getElem?_eq_none_iff.mp hget)
  | some a =>
    have hmem : change a ∈ large.filter keep := by
      rw [hkept]
      exact List.mem_map_of_mem (List.mem_of_getElem? hget)
    have hat := hlarge.getElem?_of_mem (List.mem_filter.mp hmem).1
    rwa [hchange, hsmall i a hget] at hat

namespace Tables

/-! ### The block of one file -/

/-- A file stands at two places, and its positions are renumbered from one to the other. -/
structure Moves (up : Renumbering) (file : FileFacts) (module base module' base' : Nat) : Prop where
  module : up.onModules module = module'
  symbols : ∀ i < file.declarations.length, up.onSymbols (base + i) = base' + i

namespace Moves

variable {up : Renumbering} {file : FileFacts} {module base module' base' : Nat}
  (h : Moves up file module base module' base')
include h

/-- Lists of positions in the file are moved. -/
theorem positions {ids : List Nat} (hids : ∀ i ∈ ids, i < file.declarations.length) :
    (ids.map (base + ·)).map up.onSymbols = ids.map (base' + ·) := by
  rw [List.map_map]
  exact List.map_congr_left fun i hi => h.symbols i (hids i hi)

/-- A position in the file is moved, if there is one. -/
theorem position {id : Option Nat} (hid : ∀ i, id = some i → i < file.declarations.length) :
    (id.map (base + ·)).map up.onSymbols = id.map (base' + ·) := by
  cases id with
  | none => rfl
  | some i => exact congrArg some (h.symbols i (hid i rfl))

/-- The children of a declaration are moved. -/
theorem childrenOf (parent : Option Nat) :
    ((childrenOf file.declarations parent).map (base + ·)).map up.onSymbols =
      (childrenOf file.declarations parent).map (base' + ·) := by
  refine h.positions fun i hi => ?_
  obtain ⟨d, hget, _⟩ := ((childrenOf_enumerates file.declarations parent).mem_iff i).mp hi
  exact (List.getElem?_eq_some_iff.mp hget).1

/-- The module of the file is moved. -/
theorem moduleOf : moduleOf module' base' file = (moduleOf module base file).renumber up := by
  simp only [Tables.moduleOf, Module.renumber, h.module, h.childrenOf]

/-- The symbols of the file are moved. -/
theorem symbolsOf (hfile : file.WellFormed) :
    symbolsOf module' base' file.declarations =
      (symbolsOf module base file.declarations).map (Symbol.renumber up) := by
  apply List.ext_getElem?
  intro i
  rw [List.getElem?_map, symbolsOf_getElem?, symbolsOf_getElem?, Option.map_map]
  cases hget : file.declarations[i]? with
  | none => rfl
  | some d =>
    have hi : up.onSymbols (base + i) = base' + i :=
      h.symbols i (List.getElem?_eq_some_iff.mp hget).1
    have hparent := h.position (hfile.parents d (List.mem_of_getElem? hget))
    simp only [Option.map_some, Function.comp_apply, symbolOf, Symbol.renumber, h.module, hi,
      hparent, h.childrenOf]

/-- The imports of the file are moved. -/
theorem importsOf {start start' : Nat}
    (himports : ∀ i < file.imports.length, up.onImports (start + i) = start' + i) :
    importsOf module' start' file.imports =
      (importsOf module start file.imports).map (ImportEdge.renumber up) := by
  apply List.ext_getElem?
  intro i
  rw [List.getElem?_map, importsOf_getElem?, importsOf_getElem?, Option.map_map]
  cases hget : file.imports[i]? with
  | none => rfl
  | some fact =>
    have hi := himports i (List.getElem?_eq_some_iff.mp hget).1
    simp only [Option.map_some, Function.comp_apply, importOf, ImportEdge.renumber, h.module, hi,
      ImportStatus.renumber, Option.map_none]

/-- The calls of the file are moved. -/
theorem callsOf (hfile : file.WellFormed) {start start' : Nat}
    (hcalls : ∀ i < file.calls.length, up.onCalls (start + i) = start' + i) :
    callsOf module' base' start' file.calls =
      (callsOf module base start file.calls).map (CallEdge.renumber up) := by
  apply List.ext_getElem?
  intro i
  rw [List.getElem?_map, callsOf_getElem?, callsOf_getElem?, Option.map_map]
  cases hget : file.calls[i]? with
  | none => rfl
  | some fact =>
    have hi := hcalls i (List.getElem?_eq_some_iff.mp hget).1
    have hcaller := h.position (hfile.callers fact (List.mem_of_getElem? hget))
    have hdecorates := h.position (hfile.decorated fact (List.mem_of_getElem? hget))
    simp only [Option.map_some, Function.comp_apply, callOf, CallEdge.renumber, h.module, hi,
      hcaller, hdecorates, CallTarget.renumber]

end Moves

/-! ### All blocks -/

/-- A renumbering goes on over the files that are still to come, and then over derived imports. -/
structure Aligned (up : Renumbering) (keep : FileFacts → Bool) (derived : List (Bool × Nat))
    (part whole : Tables) (files : List FileFacts) : Prop where
  modules : Fits up.onModules part.modules.length whole.modules.length
    (blocksOf keep (fun _ => 1) files)
  symbols : Fits up.onSymbols part.symbols.size whole.symbols.size
    (blocksOf keep (·.declarations.length) files)
  imports : Fits up.onImports part.imports.length whole.imports.length
    (blocksOf keep (·.imports.length) files ++ derived)
  calls : Fits up.onCalls part.calls.length whole.calls.length
    (blocksOf keep (·.calls.length) files)

/-- The records of the chosen modules are those of the smaller tables under other numbers. -/
structure Holds (up : Renumbering) (chosen : Nat → Bool) (part whole : Tables) : Prop where
  modules : (whole.modules.filter fun m => chosen m.id) = part.modules.map (Module.renumber up)
  symbols : (whole.symbols.toList.filter fun s => chosen s.module) =
    part.symbols.toList.map (Symbol.renumber up)
  imports : (whole.imports.filter fun e => chosen e.module) =
    part.imports.map (ImportEdge.renumber up)
  calls : (whole.calls.filter fun c => chosen c.module) = part.calls.map (CallEdge.renumber up)
  diagnostics : (whole.diagnostics.filter fun d => chosen d.module) =
    part.diagnostics.map (Diagnostic.renumber up)

/-- The receiver entries of the smaller tables are found at the renumbered positions. -/
structure HoldsReceivers (up : Renumbering) (part whole : Tables) : Prop where
  found : ∀ i name, part.receiverNames[i]? = some name →
    whole.receiverNames[up.onSymbols i]? = some name
  part : part.receiverNames.size = part.symbols.size
  whole : whole.receiverNames.size = whole.symbols.size

/-- The number of symbols grows by the declarations of a file. -/
theorem addFile_symbols_size (tables : Tables) (file : FileFacts) :
    (tables.addFile file).symbols.size = tables.symbols.size + file.declarations.length := by
  rw [← Array.length_toList, addFile_symbols, List.length_append, symbolsOf_length,
    Array.length_toList]

/-- The number of imports grows by those of a file. -/
theorem addFile_imports_length (tables : Tables) (file : FileFacts) :
    (tables.addFile file).imports.length = tables.imports.length + file.imports.length := by
  simp [addFile_imports, importsOf]

/-- The number of calls grows by those of a file. -/
theorem addFile_calls_length (tables : Tables) (file : FileFacts) :
    (tables.addFile file).calls.length = tables.calls.length + file.calls.length := by
  simp [addFile_calls, callsOf]

section Steps

variable {up : Renumbering} {keep : FileFacts → Bool} {derived : List (Bool × Nat)}
  {chosen : Nat → Bool} {part whole : Tables} {file : FileFacts} {files : List FileFacts}

/-- A kept file that comes next is moved from one table to the other. -/
theorem Aligned.moves (h : Aligned up keep derived part whole (file :: files))
    (hkeep : keep file = true) :
    Moves up file part.modules.length part.symbols.size whole.modules.length whole.symbols.size := by
  have hmodules := h.modules
  have hsymbols := h.symbols
  rw [blocksOf_cons, hkeep] at hmodules hsymbols
  exact ⟨hmodules.own Nat.zero_lt_one, fun i hi => hsymbols.own hi⟩

/-- The renumbering goes on behind a kept file. -/
theorem Aligned.both (h : Aligned up keep derived part whole (file :: files))
    (hkeep : keep file = true) :
    Aligned up keep derived (part.addFile file) (whole.addFile file) files := by
  obtain ⟨hmodules, hsymbols, himports, hcalls⟩ := h
  simp only [blocksOf_cons, hkeep, List.cons_append] at hmodules hsymbols himports hcalls
  constructor
  · simpa [addFile_modules] using hmodules.both
  · simpa only [addFile_symbols_size] using hsymbols.both
  · simpa only [addFile_imports_length] using himports.both
  · simpa only [addFile_calls_length] using hcalls.both

/-- The renumbering goes on behind a file that is left out. -/
theorem Aligned.larger (h : Aligned up keep derived part whole (file :: files))
    (hkeep : keep file = false) : Aligned up keep derived part (whole.addFile file) files := by
  obtain ⟨hmodules, hsymbols, himports, hcalls⟩ := h
  simp only [blocksOf_cons, hkeep, List.cons_append] at hmodules hsymbols himports hcalls
  constructor
  · simpa [addFile_modules] using hmodules.larger
  · simpa only [addFile_symbols_size] using hsymbols.larger
  · simpa only [addFile_imports_length] using himports.larger
  · simpa only [addFile_calls_length] using hcalls.larger

/-- Records of one module are all chosen or all left out. -/
theorem filter_chosen {α : Type} {records : List α} {moduleOf : α → Nat} {m : Nat}
    (h : ∀ a ∈ records, moduleOf a = m) :
    (records.filter fun a => chosen (moduleOf a)) = if chosen m then records else [] := by
  rw [List.filter_congr fun a ha => congrArg chosen (h a ha)]
  cases chosen m <;> simp

/-- Every record that a file adds is one of its module. -/
theorem records_of_addFile (module base start : Nat) (file : FileFacts) :
    (∀ s ∈ symbolsOf module base file.declarations, s.module = module) ∧
      (∀ e ∈ importsOf module start file.imports, e.module = module) ∧
      ∀ c ∈ callsOf module base start file.calls, c.module = module := by
  refine ⟨fun s hs => ?_, fun e he => ?_, fun c hc => ?_⟩
  · obtain ⟨_, _, rfl⟩ := List.mem_map.mp hs
    rfl
  · obtain ⟨_, _, rfl⟩ := List.mem_map.mp he
    rfl
  · obtain ⟨_, _, rfl⟩ := List.mem_map.mp hc
    rfl

/-- Adding a kept file to both tables keeps the correspondence. -/
theorem Holds.both (h : Holds up chosen part whole)
    (haligned : Aligned up keep derived part whole (file :: files)) (hkeep : keep file = true)
    (hchosen : chosen whole.modules.length = true) (hfile : file.WellFormed) :
    Holds up chosen (part.addFile file) (whole.addFile file) := by
  have hmoves := haligned.moves hkeep
  obtain ⟨_, _, himports, hcalls⟩ := haligned
  simp only [blocksOf_cons, hkeep, List.cons_append] at himports hcalls
  constructor
  · rw [addFile_modules, List.filter_append, h.modules, addFile_modules, List.map_append,
      hmoves.moduleOf]
    simp [Tables.moduleOf, Module.renumber, hmoves.module, hchosen]
  · rw [addFile_symbols, List.filter_append, h.symbols, addFile_symbols, List.map_append,
      filter_chosen (records_of_addFile _ _ 0 file).1, if_pos hchosen, hmoves.symbolsOf hfile]
  · rw [addFile_imports, List.filter_append, h.imports, addFile_imports, List.map_append,
      filter_chosen (records_of_addFile _ 0 _ file).2.1, if_pos hchosen,
      hmoves.importsOf fun i hi => himports.own hi]
  · rw [addFile_calls, List.filter_append, h.calls, addFile_calls, List.map_append,
      filter_chosen (records_of_addFile _ _ _ file).2.2, if_pos hchosen,
      hmoves.callsOf hfile fun i hi => hcalls.own hi]
  · exact h.diagnostics

/-- Adding a file that is left out to the larger table keeps the correspondence. -/
theorem Holds.larger (h : Holds up chosen part whole)
    (hchosen : chosen whole.modules.length = false) :
    Holds up chosen part (whole.addFile file) := by
  constructor
  · rw [addFile_modules, List.filter_append, h.modules]
    simp [Tables.moduleOf, hchosen]
  · rw [addFile_symbols, List.filter_append, h.symbols,
      filter_chosen (records_of_addFile _ _ 0 file).1, hchosen]
    simp
  · rw [addFile_imports, List.filter_append, h.imports,
      filter_chosen (records_of_addFile _ 0 _ file).2.1, hchosen]
    simp
  · rw [addFile_calls, List.filter_append, h.calls,
      filter_chosen (records_of_addFile _ _ _ file).2.2, hchosen]
    simp
  · exact h.diagnostics

/-- Adding a kept file to both tables keeps the receiver entries. -/
theorem HoldsReceivers.both (h : HoldsReceivers up part whole)
    (hmoves : Moves up file part.modules.length part.symbols.size whole.modules.length
      whole.symbols.size) :
    HoldsReceivers up (part.addFile file) (whole.addFile file) := by
  have hsize (tables : Tables) (hold : tables.receiverNames.size = tables.symbols.size) :
      (tables.addFile file).receiverNames.size = (tables.addFile file).symbols.size := by
    rw [addFile_symbols_size, ← Array.length_toList, addFile_receiverNames]
    simp [hold]
  refine ⟨fun i name hname => ?_, hsize part h.part, hsize whole h.whole⟩
  rw [← Array.getElem?_toList, addFile_receiverNames] at hname ⊢
  rcases Nat.lt_or_ge i part.receiverNames.toList.length with hi | hi
  · rw [List.getElem?_append_left hi, Array.getElem?_toList] at hname
    refine getElem?_append_of_some _ ?_
    rw [Array.getElem?_toList]
    exact h.found i name hname
  · obtain ⟨k, rfl⟩ := Nat.exists_eq_add_of_le hi
    rw [List.getElem?_append_right hi, Nat.add_sub_cancel_left] at hname
    have hk : k < file.declarations.length := by
      have := (List.getElem?_eq_some_iff.mp hname).1
      rwa [List.length_map] at this
    have hup : up.onSymbols (part.receiverNames.toList.length + k) =
        whole.receiverNames.toList.length + k := by
      rw [Array.length_toList, Array.length_toList, h.part, h.whole]
      exact hmoves.symbols k hk
    rw [hup, List.getElem?_append_right (Nat.le_add_right _ _), Nat.add_sub_cancel_left]
    exact hname

/-- Adding a file that is left out keeps the receiver entries. -/
theorem HoldsReceivers.larger (h : HoldsReceivers up part whole) :
    HoldsReceivers up part (whole.addFile file) := by
  refine ⟨fun i name hname => ?_, h.part, ?_⟩
  · have hfound := h.found i name hname
    rw [← Array.getElem?_toList] at hfound ⊢
    rw [addFile_receiverNames]
    exact getElem?_append_of_some _ hfound
  · rw [addFile_symbols_size, ← Array.length_toList, addFile_receiverNames]
    simp [h.whole]

/-- Adding the kept files to one table and all files to the other keeps the correspondence. -/
theorem Holds.foldl (h : Holds up chosen part whole) (hreceivers : HoldsReceivers up part whole)
    (haligned : Aligned up keep derived part whole files)
    (hchosen : ∀ i file, files[i]? = some file → chosen (whole.modules.length + i) = keep file)
    (hfiles : ∀ file ∈ files, file.WellFormed) :
    Holds up chosen ((files.filter keep).foldl addFile part) (files.foldl addFile whole) ∧
      HoldsReceivers up ((files.filter keep).foldl addFile part) (files.foldl addFile whole) ∧
      Aligned up keep derived ((files.filter keep).foldl addFile part)
        (files.foldl addFile whole) [] := by
  induction files generalizing part whole with
  | nil => exact ⟨h, hreceivers, haligned⟩
  | cons file rest ih =>
    have hfirst : chosen whole.modules.length = keep file := hchosen 0 file rfl
    have hlater : ∀ i other, rest[i]? = some other →
        chosen ((whole.addFile file).modules.length + i) = keep other := by
      intro i other hother
      rw [addFile_modules, List.length_append, List.length_singleton, Nat.add_assoc,
        Nat.add_comm 1 i]
      exact hchosen (i + 1) other hother
    have hrest : ∀ other ∈ rest, other.WellFormed :=
      fun other hother => hfiles other (List.mem_cons_of_mem _ hother)
    cases hkeep : keep file with
    | true =>
      rw [hkeep] at hfirst
      rw [List.filter_cons_of_pos hkeep, List.foldl_cons, List.foldl_cons]
      exact ih (h.both haligned hkeep hfirst (hfiles file List.mem_cons_self))
        (hreceivers.both (haligned.moves hkeep)) (haligned.both hkeep) hlater hrest
    | false =>
      rw [hkeep] at hfirst
      rw [List.filter_cons_of_neg (by simp [hkeep]), List.foldl_cons]
      exact ih (h.larger hfirst) hreceivers.larger (haligned.larger hkeep) hlater hrest

end Steps

/-- The renumbering of the records of some files among those of all files. -/
def selectionOf (keep : FileFacts → Bool) (derived : List (Bool × Nat)) (files : List FileFacts) :
    Renumbering :=
  .ofBlocks (blocksOf keep (fun _ => 1) files) (blocksOf keep (·.declarations.length) files)
    (blocksOf keep (·.imports.length) files ++ derived) (blocksOf keep (·.calls.length) files)

/-- Before the first file every renumbering by blocks goes on over all files. -/
theorem aligned_selectionOf (keep : FileFacts → Bool) (derived : List (Bool × Nat))
    (files : List FileFacts) :
    Aligned (selectionOf keep derived files) keep derived {} {} files := by
  constructor <;> intro i <;> simp [selectionOf, Renumbering.ofBlocks]

/-- The tables of the kept files correspond to those of all files, when paths are distinct. -/
theorem ofFiles_holds {keep : FileFacts → Bool} {chosen : Nat → Bool} (derived : List (Bool × Nat))
    {files : List FileFacts} (hdistinct : DistinctPaths FileFacts.path files)
    (hchosen : ∀ i file, (orderedFiles files)[i]? = some file → chosen i = keep file)
    (hfiles : ∀ file ∈ files, file.WellFormed) :
    Holds (selectionOf keep derived (orderedFiles files)) chosen (ofFiles (files.filter keep))
        (ofFiles files) ∧
      HoldsReceivers (selectionOf keep derived (orderedFiles files)) (ofFiles (files.filter keep))
        (ofFiles files) ∧
      Aligned (selectionOf keep derived (orderedFiles files)) keep derived
        (ofFiles (files.filter keep)) (ofFiles files) [] := by
  rw [ofFiles, orderedFiles_filter hdistinct, ofFiles]
  refine Holds.foldl ⟨rfl, rfl, rfl, rfl, rfl⟩ ⟨by simp, rfl, rfl⟩ (aligned_selectionOf _ _ _) ?_
    fun file hfile => hfiles file (mem_of_mem_orderedFiles hfile)
  intro i file hfile
  rw [List.length_nil, Nat.zero_add]
  exact hchosen i file hfile

end Tables

end CodeAtlas
