import CodeAtlas.Command.Report
import CodeAtlas.Proofs.Extraction
import CodeAtlas.Proofs.Queries

/-!
# The report of symbols

The symbols of a module are reported as a tree: each symbol on a line of its own, before those in it
and indented by one step more. The report follows the lists of children, which may point forwards and
backwards. It comes to an end because climbs along parent links do, and a symbol has as many steps of
indentation as there are symbols around it. So every symbol of the module has exactly one line, and
the lines stand in pre-order: in the lexicographic order of the ways down from the module.
-/

namespace CodeAtlas

/-! ### Orders of ways -/

/-- A way comes before those that go on from it. -/
theorem lex_append_cons (way : List Nat) (next : Nat) (rest : List Nat) :
    List.Lex (· < ·) way (way ++ next :: rest) := by
  induction way with
  | nil => exact .nil
  | cons a way ih => exact .cons ih

/-- Where ways part, the smaller next step decides. -/
theorem lex_append_of_lt (way : List Nat) {a b : Nat} (h : a < b) (rest others : List Nat) :
    List.Lex (· < ·) (way ++ a :: rest) (way ++ b :: others) := by
  induction way with
  | nil => exact .rel h
  | cons c way ih => exact .cons ih

/-- A climb is continued by a climb. -/
theorem Climb.of_append {up : Nat → Option (Option Nat)} {start : Option Nat} {below above : List Nat}
    (h : Climb up start (below ++ above)) : ∃ top, Climb up top above := by
  induction below generalizing start with
  | nil => exact ⟨start, h⟩
  | cons index below ih =>
    cases h with
    | step _ habove => exact ih habove

/-- A climb starts at its first position and goes on from the parent. -/
theorem Climb.of_cons {up : Nat → Option (Option Nat)} {start : Option Nat} {index : Nat}
    {above : List Nat} (h : Climb up start (index :: above)) :
    start = some index ∧ ∃ parent, up index = some parent ∧ Climb up parent above := by
  cases h with
  | step hparent habove => exact ⟨rfl, _, hparent, habove⟩

/-- The parent of a symbol, by position. -/
def Snapshot.parentAt (r : Snapshot) (id : Nat) : Option (Option Nat) :=
  r.symbols[id]?.map (·.parent)

/-- In records the symbols have the parents they have in the tables. -/
theorem Tables.parentAt_records (tables : Tables) : tables.records.parentAt = tables.parentAt := by
  funext id
  rw [Snapshot.parentAt, Tables.parentAt, ← Array.getElem?_toList]
  rfl

/-- So a climb that ends in the tables ends in the records. -/
theorem Tables.exists_climb {tables : Tables} (h : tables.records.Consistent)
    (hclimbs : tables.Climbs) (s : Symbol) (hs : s ∈ tables.records.symbols) :
    ∃ chain, Climb tables.records.parentAt (some s.id) chain := by
  have hbound : s.id < tables.symbols.size := h.symbols.symbolsNumbered.lt_of_mem hs
  rw [tables.parentAt_records]
  exact hclimbs s.id hbound

namespace Report

/-- A reported symbol with the symbols around it, innermost first. -/
structure Row where
  symbol : Symbol
  above : List Nat

namespace Row

/-- The line of a symbol is indented by two spaces for itself and for every symbol around it. -/
def line (row : Row) : String :=
  Text.repeatText (1 + row.above.length) "  " ++ symbolLine 0 row.symbol

/-- The way down to the symbol from the level of the module. -/
def way (row : Row) : List Nat := (row.symbol.id :: row.above).reverse

end Row

/-- A listed symbol with the symbols around it, which are those on the climb from its parent. -/
structure Stands (r : Snapshot) (above : List Nat) (s : Symbol) : Prop where
  listed : s ∈ r.symbols
  climb : Climb r.parentAt s.parent above

/-- Rows in pre-order, with siblings in the order of their identities. -/
structure InPreorder (r : Snapshot) (rows : List Row) : Prop where
  stands : ∀ row ∈ rows, Stands r row.above row.symbol
  ordered : rows.Pairwise fun a b => List.Lex (· < ·) a.way b.way

/-- Printing symbols at a depth, each before the ones in it, comes to an end with these lines. -/
inductive Prints (g : Graph) : Nat → List Symbol → List String → Prop
  | nil {depth : Nat} : Prints g depth [] []
  | cons {depth : Nat} {s : Symbol} {rest : List Symbol} {below later : List String}
      (hbelow : Prints g (depth + 1) (g.childrenOf s.id) below) (hlater : Prints g depth rest later) :
      Prints g depth (s :: rest) (symbolLine depth s :: (below ++ later))

/-- Rows in pre-order are for different symbols. -/
theorem InPreorder.nodup {r : Snapshot} {rows : List Row} (h : InPreorder r rows) :
    (rows.map Row.symbol).Nodup := by
  refine List.pairwise_map.mpr (h.ordered.imp_of_mem fun {a b} ha hb hless hsame => ?_)
  have habove : a.above = b.above := (h.stands a ha).climb.unique (hsame ▸ (h.stands b hb).climb)
  rw [Row.way, Row.way, hsame, habove] at hless
  exact List.lex_irrefl Nat.lt_irrefl _ hless

/-! ### Rows of a report -/

/-- The rows of a symbol and of those in it, nested at most `levels` deep. -/
def rows (g : Graph) : (levels : Nat) → (above : List Nat) → Symbol → List Row
  | 0, _, _ => []
  | levels + 1, above, s =>
    ⟨s, above⟩ :: (g.childrenOf s.id).flatMap (rows g levels (s.id :: above))

/-- The rows of a module. -/
def moduleRows (g : Graph) (m : Module) : List Row :=
  (g.topLevelSymbols m.id).flatMap (rows g g.records.symbols.length [])

/-- A line is indented by two spaces for each level. -/
theorem symbolLine_eq (depth : Nat) (s : Symbol) :
    symbolLine depth s = Text.repeatText depth "  " ++ symbolLine 0 s := by
  simp [symbolLine, Text.repeatText, String.append_assoc]

/-- The lines of a symbol are those of its rows. -/
theorem symbolTree_eq (g : Graph) (levels : Nat) (above : List Nat) (s : Symbol) :
    symbolTree g levels (1 + above.length) s = (rows g levels above s).map Row.line := by
  induction levels generalizing above s with
  | zero => rfl
  | succ levels ih =>
    have hbelow : (g.childrenOf s.id).flatMap (symbolTree g levels (1 + above.length + 1)) =
        ((g.childrenOf s.id).flatMap (rows g levels (s.id :: above))).map Row.line := by
      rw [List.map_flatMap]
      exact List.flatMap_congr fun t _ => ih (s.id :: above) t
    rw [symbolTree, rows, List.map_cons, hbelow, symbolLine_eq]
    rfl

/-- The lines under the header of a module are those of its rows. -/
theorem flatMap_symbolTree (g : Graph) (m : Module) :
    (g.topLevelSymbols m.id).flatMap (symbolTree g g.records.symbols.length 1) =
      (moduleRows g m).map Row.line := by
  rw [moduleRows, List.map_flatMap]
  exact List.flatMap_congr fun s _ => symbolTree_eq g _ [] s

section Forest

variable {r : Snapshot} (h : r.Consistent) {levels : Nat} {above : List Nat} {s t : Symbol}
  {m : Module} {row : Row}

/-- A climb from symbols is not longer than there are symbols. -/
theorem length_le_of_climb {start : Option Nat} {chain : List Nat}
    (hclimb : Climb r.parentAt start chain) : chain.length ≤ r.symbols.length := by
  refine hclimb.length_le fun index parent hparent => ?_
  obtain ⟨_, hget, _⟩ := Option.map_eq_some_iff.mp hparent
  exact (List.getElem?_eq_some_iff.mp hget).1

include h

/-- A symbol stands at the position of its identity. -/
theorem getElem?_of_listed (hs : s ∈ r.symbols) : r.symbols[s.id]? = some s :=
  h.symbols.symbolsNumbered.getElem?_of_mem hs

/-- From a symbol the climb goes on as from its parent. -/
theorem Stands.climb_self (hs : Stands r above s) :
    Climb r.parentAt (some s.id) (s.id :: above) := by
  refine .step ?_ hs.climb
  rw [Snapshot.parentAt, getElem?_of_listed h hs.listed]
  rfl

/-- The children of a symbol are the symbols with it as their parent. -/
theorem mem_childrenOf {id : Nat} :
    t ∈ (Graph.ofRecords r).childrenOf id ↔ t ∈ r.symbols ∧ t.parent = some id := by
  rw [Graph.childrenOf_ofRecords h, List.mem_filter, beq_iff_eq]

/-- The symbols at the level of a module are those without a parent. -/
theorem mem_topLevelSymbols :
    s ∈ (Graph.ofRecords r).topLevelSymbols m.id ↔
      s ∈ r.symbols ∧ s.module = m.id ∧ s.parent = none := by
  rw [Graph.topLevelSymbols_ofRecords h, List.mem_filter, Bool.and_eq_true, beq_iff_eq, beq_iff_eq]

/-- A symbol stands inside of those around its parent and of the parent. -/
theorem Stands.child (hs : Stands r above s) (ht : t ∈ (Graph.ofRecords r).childrenOf s.id) :
    Stands r (s.id :: above) t := by
  obtain ⟨hlisted, hparent⟩ := (mem_childrenOf h).mp ht
  exact ⟨hlisted, hparent ▸ hs.climb_self h⟩

/-- At the level of a module there is nothing around a symbol. -/
theorem stands_of_mem_topLevels (hs : s ∈ (Graph.ofRecords r).topLevelSymbols m.id) :
    Stands r [] s := by
  obtain ⟨hlisted, -, hparent⟩ := (mem_topLevelSymbols h).mp hs
  exact ⟨hlisted, hparent ▸ .done⟩

/-- The rows of a symbol are for symbols of its module inside of it. -/
theorem stands_of_mem_rows (hs : Stands r above s) (hrow : row ∈ rows (.ofRecords r) levels above s) :
    Stands r row.above row.symbol ∧ row.symbol.module = s.module ∧
      s.id :: above <:+ row.symbol.id :: row.above := by
  induction levels generalizing above s with
  | zero => cases hrow
  | succ levels ih =>
    rcases List.mem_cons.mp hrow with rfl | hrow
    · exact ⟨hs, rfl, List.suffix_rfl⟩
    · obtain ⟨t, ht, hrow⟩ := List.mem_flatMap.mp hrow
      obtain ⟨hstands, hmodule, hsuffix⟩ := ih (hs.child h ht) hrow
      obtain ⟨hlisted, hparent⟩ := (mem_childrenOf h).mp ht
      obtain ⟨around, haround, hsame⟩ := h.symbols.parents t hlisted s.id hparent
      rw [getElem?_of_listed h hs.listed] at haround
      obtain rfl := Option.some.inj haround
      exact ⟨hstands, hmodule.trans hsame.symm, (List.suffix_cons _ _).trans hsuffix⟩

/-- The row of a symbol has what stands above the symbol in its module. -/
theorem stands_of_mem_moduleRows (hrow : row ∈ moduleRows (.ofRecords r) m) :
    Stands r row.above row.symbol ∧ row.symbol.module = m.id := by
  obtain ⟨s, hs, hrow⟩ := List.mem_flatMap.mp hrow
  obtain ⟨hstands, hsame, -⟩ := stands_of_mem_rows h (stands_of_mem_topLevels h hs) hrow
  exact ⟨hstands, hsame.trans ((mem_topLevelSymbols h).mp hs).2.1⟩

/-! ### Pre-order -/

/-- The way to a row goes through the symbol whose row it is. -/
theorem exists_way_eq (hs : Stands r above s) (hrow : row ∈ rows (.ofRecords r) levels above s) :
    ∃ rest, row.way = above.reverse ++ s.id :: rest := by
  obtain ⟨_, _, front, hfront⟩ := stands_of_mem_rows h hs hrow
  refine ⟨front.reverse, ?_⟩
  rw [Row.way, ← hfront]
  simp

/-- The rows of siblings are in pre-order, if those of each one are. -/
theorem ordered_siblings {siblings : List Symbol}
    (hsiblings : siblings.Pairwise fun s t => s.id < t.id)
    (hstands : ∀ s ∈ siblings, Stands r above s)
    (heach : ∀ s ∈ siblings, (rows (.ofRecords r) levels above s).Pairwise
      fun a b => List.Lex (· < ·) a.way b.way) :
    (siblings.flatMap (rows (.ofRecords r) levels above)).Pairwise
      fun a b => List.Lex (· < ·) a.way b.way := by
  refine List.pairwise_flatMap.mpr ⟨heach, hsiblings.imp_of_mem ?_⟩
  intro s t hs ht hless a ha b hb
  obtain ⟨rest, hway⟩ := exists_way_eq h (hstands s hs) ha
  obtain ⟨others, hway'⟩ := exists_way_eq h (hstands t ht) hb
  rw [hway, hway']
  exact lex_append_of_lt _ hless _ _

/-- The symbols that pass a test are in the order of their identities. -/
theorem siblings_ordered (p : Symbol → Bool) :
    (r.symbols.filter p).Pairwise fun s t => s.id < t.id :=
  h.symbols.symbolsNumbered.increasing.sublist List.filter_sublist

/-- The rows of a symbol are in pre-order. -/
theorem ordered_rows (hs : Stands r above s) :
    (rows (.ofRecords r) levels above s).Pairwise fun a b => List.Lex (· < ·) a.way b.way := by
  induction levels generalizing above s with
  | zero => exact .nil
  | succ levels ih =>
    have hstands : ∀ t ∈ (Graph.ofRecords r).childrenOf s.id, Stands r (s.id :: above) t :=
      fun t ht => hs.child h ht
    refine List.pairwise_cons.mpr ⟨fun row hrow => ?_, ?_⟩
    · obtain ⟨t, ht, hrow⟩ := List.mem_flatMap.mp hrow
      obtain ⟨rest, hway⟩ := exists_way_eq h (hstands t ht) hrow
      rw [hway]
      exact lex_append_cons _ _ _
    · refine ordered_siblings h ?_ hstands fun t ht => ih (hstands t ht)
      rw [Graph.childrenOf_ofRecords h]
      exact siblings_ordered h _

/-- The rows of a module are in pre-order. -/
theorem inPreorder_moduleRows : InPreorder r (moduleRows (.ofRecords r) m) := by
  refine ⟨fun row hrow => (stands_of_mem_moduleRows h hrow).1, ordered_siblings h ?_ ?_ ?_⟩
  · rw [Graph.topLevelSymbols_ofRecords h]
    exact siblings_ordered h _
  · exact fun s hs => stands_of_mem_topLevels h hs
  · exact fun s hs => ordered_rows h (stands_of_mem_topLevels h hs)

/-! ### Every symbol once -/

/-- A symbol whose climb leads through another has a row below it, if there are enough levels. -/
theorem exists_row (hs : s ∈ r.symbols) {u : Symbol} (hu : u ∈ r.symbols) {below : List Nat}
    (hclimb : Climb r.parentAt (some u.id) (below ++ s.id :: above))
    (hlevels : below.length < levels) :
    ∃ row ∈ rows (.ofRecords r) levels above s, row.symbol = u := by
  induction levels generalizing above s below with
  | zero => simp at hlevels
  | succ levels ih =>
    cases List.eq_nil_or_concat below with
    | inl hnone =>
      subst hnone
      have hid : u.id = s.id := Option.some.inj hclimb.of_cons.1
      have hget := getElem?_of_listed h hu
      rw [hid, getElem?_of_listed h hs] at hget
      exact ⟨⟨s, above⟩, List.mem_cons_self, Option.some.inj hget⟩
    | inr hsome =>
      -- The climb comes to the symbol from one of its children.
      obtain ⟨front, index, rfl⟩ := hsome
      rw [List.concat_eq_append, List.append_assoc] at hclimb
      obtain ⟨top, hchild⟩ := hclimb.of_append
      obtain ⟨-, parent, hparent, habove⟩ := hchild.of_cons
      obtain ⟨t, ht, hlink⟩ := Option.map_eq_some_iff.mp hparent
      obtain rfl : t.id = index := h.symbols.symbolsNumbered index t ht
      have hlisted : t ∈ r.symbols := List.mem_of_getElem? ht
      obtain ⟨row, hrow, hsymbol⟩ := ih hlisted hclimb (by simpa using hlevels)
      refine ⟨row, List.mem_cons_of_mem _ (List.mem_flatMap.mpr ⟨t, ?_, hrow⟩), hsymbol⟩
      exact (mem_childrenOf h).mpr ⟨hlisted, hlink.trans habove.of_cons.1⟩

/-- Every symbol of a module has a row. -/
theorem exists_moduleRow {u : Symbol} (hu : u ∈ r.symbols) (hmodule : u.module = m.id)
    {chain : List Nat} (hclimb : Climb r.parentAt (some u.id) chain) :
    ∃ row ∈ moduleRows (.ofRecords r) m, row.symbol = u := by
  have hlength := length_le_of_climb hclimb
  cases List.eq_nil_or_concat chain with
  | inl hnone =>
    subst hnone
    cases hclimb
  | inr hsome =>
    -- The climb ends at a symbol without a parent.
    obtain ⟨below, index, rfl⟩ := hsome
    rw [List.concat_eq_append] at hclimb hlength
    rw [List.length_append, List.length_singleton] at hlength
    obtain ⟨top, hroot⟩ := hclimb.of_append
    obtain ⟨-, parent, hparent, hdone⟩ := hroot.of_cons
    obtain ⟨root, hget, rfl⟩ := Option.map_eq_some_iff.mp hparent
    obtain rfl : root.id = index := h.symbols.symbolsNumbered index root hget
    have hlisted : root ∈ r.symbols := List.mem_of_getElem? hget
    have hlevel : root.parent = none := by
      cases hparent : root.parent with
      | none => rfl
      | some around =>
        rw [hparent] at hdone
        cases hdone
    obtain ⟨row, hrow, rfl⟩ := exists_row h hlisted hu hclimb hlength
    obtain ⟨-, hsame, -⟩ := stands_of_mem_rows h ⟨hlisted, hdone⟩ hrow
    refine ⟨row, List.mem_flatMap.mpr ⟨root, ?_, hrow⟩, rfl⟩
    exact (mem_topLevelSymbols h).mpr ⟨hlisted, hsame.symm.trans hmodule, hlevel⟩

/-- So the rows list the symbols of the module once each. -/
theorem moduleRows_perm
    (hclimbs : ∀ u ∈ r.symbols, ∃ chain, Climb r.parentAt (some u.id) chain) :
    ((moduleRows (.ofRecords r) m).map Row.symbol).Perm
      ((Graph.ofRecords r).symbolsInModule m.id) := by
  refine (List.perm_ext_iff_of_nodup (inPreorder_moduleRows h).nodup
    (h.symbols.symbolsNumbered.nodup.sublist List.filter_sublist)).mpr fun u => ?_
  rw [List.mem_map, List.mem_filter, beq_iff_eq]
  constructor
  · rintro ⟨row, hrow, rfl⟩
    obtain ⟨hstands, hmodule⟩ := stands_of_mem_moduleRows h hrow
    exact ⟨hstands.listed, hmodule⟩
  · rintro ⟨hu, hmodule⟩
    obtain ⟨chain, hclimb⟩ := hclimbs u hu
    exact exists_moduleRow h hu hmodule hclimb

/-! ### The end of the recursion -/

/-- Printing siblings comes to an end before the levels do. -/
theorem prints_siblings {siblings : List Symbol} (hstands : ∀ s ∈ siblings, Stands r above s)
    (hlevels : r.symbols.length ≤ levels + above.length) :
    Prints (.ofRecords r) (1 + above.length) siblings
      (siblings.flatMap (symbolTree (.ofRecords r) levels (1 + above.length))) := by
  induction levels generalizing above siblings with
  | zero =>
    cases siblings with
    | nil => exact .nil
    | cons s siblings =>
      have hlength := length_le_of_climb ((hstands s List.mem_cons_self).climb_self h)
      rw [List.length_cons] at hlength
      omega
  | succ levels ih =>
    have hfewer (s : Symbol) : r.symbols.length ≤ levels + (s.id :: above).length := by
      rw [List.length_cons]
      omega
    induction siblings with
    | nil => exact .nil
    | cons s siblings ihsiblings =>
      obtain ⟨hs, hrest⟩ := List.forall_mem_cons.mp hstands
      exact .cons (ih (fun t ht => hs.child h ht) (hfewer s)) (ihsiblings hrest)

/-- The lines under the header are those of the rows, and printing them comes to an end. -/
theorem prints_moduleRows :
    Prints (.ofRecords r) 1 ((Graph.ofRecords r).topLevelSymbols m.id)
      ((moduleRows (.ofRecords r) m).map Row.line) := by
  rw [← flatMap_symbolTree]
  exact prints_siblings h (fun s hs => stands_of_mem_topLevels h hs) (Nat.le_refl r.symbols.length)

end Forest

/-- The report of a module lists its symbols. -/
structure ListsSymbols (g : Graph) (m : Module) (rows : List Row) : Prop where
  /-- Every symbol of the module has one row. -/
  once : (rows.map Row.symbol).Perm (g.symbolsInModule m.id)
  preorder : InPreorder g.records rows
  prints : Prints g 1 (g.topLevelSymbols m.id) (rows.map Row.line)
  lines : symbols g m = (m.path.text ++ " (" ++ m.logicalName ++ ")") :: rows.map Row.line

end Report

/-- In every unit of extracted files the report of a module has one line for each of its symbols, in
pre-order, with siblings in the order of their identities, indented by two spaces for each level. -/
theorem symbol_report_lists_every_symbol_once (config : ResolutionConfig) (files : List FileFacts)
    (hnonempty : files ≠ []) (hfiles : ∀ file ∈ files, file.Extracted) :
    ∃ graph, resolveFacts config files = .ok graph ∧
      ∀ m ∈ graph.records.modules, ∃ rows, Report.ListsSymbols graph m rows := by
  have hwellFormed : ∀ file ∈ files, file.WellFormed :=
    fun file hfile => (hfiles file hfile).wellFormed
  have himported := Tables.linkImports_consistent (Tables.ofFiles_consistent files hwellFormed)
    (Tables.ofFiles_written files)
  have hcalled := Tables.linkCalls_consistent config himported
  refine ⟨_, (completedRun_of_ne_nil config hnonempty).resolves, fun m _ => ?_⟩
  -- Linking leaves symbols alone, so climbs end as they do when the files are collected.
  have hclimbs : ((Tables.ofFiles files).linkImports.linkCalls config).Climbs :=
    Tables.ofFiles_climbs files hwellFormed
  exact ⟨_, Report.moduleRows_perm hcalled (Tables.exists_climb hcalled hclimbs),
    Report.inPreorder_moduleRows hcalled, Report.prints_moduleRows hcalled,
    congrArg (List.cons _) (Report.flatMap_symbolTree _ m)⟩

/-- A method that is declared before its type still has its line below that of the type. -/
theorem symbol_report_lists_every_symbol_once_method_before_type :
    ∃ facts, extractSource ⟨"s.rs"⟩ .rust "impl S{fn f(){}}struct S{}" methodBeforeType = .ok facts ∧
      ∃ graph, resolveFacts {} [facts] = .ok graph ∧
        (∀ m ∈ graph.records.modules, ∃ rows, Report.ListsSymbols graph m rows) ∧
        graph.records.modules.map (Report.symbols graph) =
          [["s.rs (s)", "  S class public :1", "    f method public :1"]] := by
  obtain ⟨facts, hfacts⟩ : ∃ facts,
      extractSource ⟨"s.rs"⟩ .rust "impl S{fn f(){}}struct S{}" methodBeforeType = .ok facts :=
    ⟨_, rfl⟩
  have hextracted : ∀ file ∈ [facts], file.Extracted := by
    intro file hfile
    obtain rfl := List.mem_singleton.mp hfile
    exact ⟨_, _, _, _, hfacts⟩
  have hnonempty : [facts] ≠ [] := List.cons_ne_nil _ _
  obtain ⟨graph, hgraph, hlists⟩ :=
    symbol_report_lists_every_symbol_once {} [facts] hnonempty hextracted
  refine ⟨facts, hfacts, graph, hgraph, hlists, ?_⟩
  obtain rfl := Except.ok.inj (hgraph.symm.trans (completedRun_of_ne_nil _ hnonempty).resolves)
  obtain rfl := Except.ok.inj hfacts
  rw [Tables.ofFiles_singleton]
  decide +kernel

end CodeAtlas
