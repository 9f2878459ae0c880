import CodeAtlas.Proofs.CallRoutes
import CodeAtlas.Proofs.Conservation
import CodeAtlas.Proofs.ScopeSearch

/-!
# Which ambiguous calls are reported

The doubts about a call come from one search along the scopes around it: for its bare callee, or for
the first segment of its receiver or of the class that it constructs. They are there exactly when
the nearest scope with the name declares rivals.

Members of classes, names of modules and imported names are not searched like that. There the first
of several rivals is taken, and nothing is reported.
-/

namespace CodeAtlas

namespace Tables

/-! ### The doubts about a call -/

/-- The first segment of a qualified name, unless a segment is more than a name. -/
def pathHead? (path : String) : Option String :=
  if (Text.segments path).any isExpression then none else (Text.segments path).head?

/-- The name that a receiver makes a call search. The instance itself and the base classes are not
searched. -/
def receiverName? (tables : Tables) (call : CallEdge) (receiver : String) : Option String :=
  let g := tables.grammar call.module
  if g.isSuper receiver then none
  else if g.isSelf receiver || tables.isOwnReceiver call.caller receiver then none
  else pathHead? receiver

/-- The name that an explicit constructor call searches. -/
def constructedName? (tables : Tables) (call : CallEdge) : Option String :=
  let g := tables.grammar call.module
  if g.isSelf call.callee then none
  else if g.isSuper call.callee then none
  else pathHead? call.callee

/-- The name that a call searches in the scopes around it, if it searches one. -/
def searchedName? (tables : Tables) (call : CallEdge) : Option String :=
  match call.kind with
  | .direct => some call.callee
  | .method | .decoratorCall => call.receiver.elim (some call.callee) (tables.receiverName? call)
  | .constructor => tables.constructedName? call
  | _ => none

/-- The doubts about a name, if there is one, as it is searched from the place of a call. -/
def doubtsAbout (tables : Tables) (config : ResolutionConfig) (call : CallEdge)
    (name : Option String) : List Diagnostic :=
  name.elim [] fun name => (tables.lookupLocal config call.module call.caller name).2

section Doubts

variable (tables : Tables) (config : ResolutionConfig) (call : CallEdge)

/-- The doubts about a bare callee are those of its search. -/
theorem linkDirect_snd :
    (tables.linkDirect config call).2 = tables.doubtsAbout config call (some call.callee) := by
  simp only [linkDirect, lookupName, doubtsAbout, Option.elim_some]
  split
  · rfl
  · split <;> rfl

/-- The doubts about a qualified name are those about its first segment. -/
theorem lookupPath_snd (path : String) :
    (tables.lookupPath config call.module call.caller path).2 =
      tables.doubtsAbout config call (pathHead? path) := by
  simp only [lookupPath, pathHead?]
  cases Text.segments path with
  | nil => rfl
  | cons first rest =>
    dsimp only
    split
    · rfl
    · split <;> rfl

/-- The doubts about a call with a receiver are those about the name that this makes it search. -/
theorem linkMember_snd (receiver : String) :
    (tables.linkMember config call receiver).2 =
      tables.doubtsAbout config call (tables.receiverName? call receiver) := by
  rw [linkMember, receiverName?]
  dsimp only
  split
  · rfl
  · split
    · rfl
    · exact lookupPath_snd tables config call receiver

/-- The doubts about a call with or without a receiver. -/
theorem linkByReceiver_snd :
    (tables.linkByReceiver config call).2 = tables.doubtsAbout config call
      (call.receiver.elim (some call.callee) (tables.receiverName? call)) := by
  rw [linkByReceiver]
  split
  · rename_i receiver hreceiver
    rw [hreceiver, linkMember_snd, Option.elim_some]
  · rename_i hreceiver
    rw [hreceiver, linkDirect_snd, Option.elim_none]

/-- The doubts about an explicit constructor call. -/
theorem linkConstructor_snd :
    (tables.linkConstructor config call).2 =
      tables.doubtsAbout config call (tables.constructedName? call) := by
  rw [linkConstructor, constructedName?]
  dsimp only
  split
  · rfl
  · split
    · rfl
    · rw [← lookupPath_snd]
      split <;> rfl

/-- The doubts about a call are those about the name that it searches. -/
theorem linkCall_snd :
    (tables.linkCall config call).2 =
      tables.doubtsAbout config call (tables.searchedName? call) := by
  change (tables.judgeCall config call).2 = _
  cases hkind : call.kind with
  | direct =>
    simp only [judgeCall, searchedName?, hkind]
    exact linkDirect_snd tables config call
  | method | decoratorCall =>
    simp only [judgeCall, searchedName?, hkind]
    exact linkByReceiver_snd tables config call
  | constructor =>
    simp only [judgeCall, searchedName?, hkind]
    exact linkConstructor_snd tables config call
  | literalReceiver =>
    simp only [judgeCall, searchedName?, hkind]
    split <;> rfl
  | static | builtin | chained =>
    simp only [judgeCall, searchedName?, hkind]
    rfl

end Doubts

/-- A call searches a name, and the nearest scope with the name declares the symbol under it. -/
def FindsNearby (tables : Tables) (config : ResolutionConfig) (call : CallEdge) (s : Symbol) :
    Prop :=
  ∃ name, tables.searchedName? call = some name ∧
    tables.DeclaresAlong config call.module name (tables.scopeChain call.caller) s

section Reports

variable {tables : Tables} {config : ResolutionConfig} {call : CallEdge}
  (h : SymbolRecords tables.modules tables.symbols.toList)
include h

/-- A call that finds one of two rivals nearby is reported, with its module. -/
theorem exists_doubt_of_rivals {s t : Symbol} (hs : s ∈ tables.symbols.toList)
    (ht : t ∈ tables.symbols.toList) (hfinds : tables.FindsNearby config call s)
    (hrivals : s.Rivals tables.modules t) :
    ∃ d ∈ (tables.linkCall config call).2, d.module = call.module := by
  obtain ⟨name, hname, hdeclares⟩ := hfinds
  have hmem := hdeclares.mem_hitsAlong h hs
  have hmem' := (hdeclares.rival hrivals).mem_hitsAlong h ht
  rw [← localHits_eq_hitsAlong] at hmem hmem'
  have hseveral : 1 < (tables.localHits config call.module call.caller name).length := by
    match hhits : tables.localHits config call.module call.caller name, hmem, hmem' with
    | [_], hmem, hmem' =>
      have hsame := (List.mem_singleton.mp hmem).trans (List.mem_singleton.mp hmem').symm
      exact absurd hsame hrivals.distinct
    | _ :: _ :: _, _, _ => exact Nat.lt_add_of_pos_left (Nat.succ_pos _)
  rw [linkCall_snd, hname, doubtsAbout, Option.elim_some, lookupLocal]
  dsimp only
  rw [if_pos hseveral]
  exact ⟨_, List.mem_singleton_self _, rfl⟩

/-- Whatever is reported about a call is reported for its module, and the call finds rivals
nearby. -/
theorem exists_rivals_of_doubt (horder : InModuleOrder tables.symbols.toList) {d : Diagnostic}
    (hd : d ∈ (tables.linkCall config call).2) :
    d.module = call.module ∧
      ∃ s ∈ tables.symbols.toList, ∃ t ∈ tables.symbols.toList,
        tables.FindsNearby config call s ∧ s.Rivals tables.modules t := by
  rw [linkCall_snd] at hd
  cases hname : tables.searchedName? call with
  | none =>
    rw [hname] at hd
    cases hd
  | some name =>
    rw [hname, doubtsAbout, Option.elim_some, lookupLocal] at hd
    dsimp only at hd
    split at hd
    · rename_i hseveral
      rw [localHits_eq_hitsAlong] at hseveral
      obtain ⟨s, hs, t, ht, hdeclares, hrivals⟩ := exists_rivals_of_hitsAlong h horder hseveral
      exact ⟨List.mem_singleton.mp hd ▸ rfl, s, hs, t, ht, ⟨name, hname, hdeclares⟩, hrivals⟩
    · cases hd

end Reports

/-! ### Routes that take the first of several rivals -/

/-- The routes on which a call takes the first of several symbols without a search for rivals:
inherited members, imported names, initializers, members of classes, names of modules, and
constructor calls whose callee is not a bare name. -/
inductive TakesFirst (tables : Tables) (config : ResolutionConfig) (call : CallEdge) (t : Nat) :
    Prop
  | inherited {name : String} {c : Nat} (hname : tables.searchedName? call = some name)
      (hscope : c ∈ tables.scopeChain call.caller) (hclass : tables.isClass c = true)
      (hinherited : tables.inherited? config c name = some t)
  | imported {name : String} (hname : tables.searchedName? call = some name)
      (hmeans : tables.aliasMeaning? call.module name = some (.symbol t))
  | initializer {c : Nat} (hinstance : tables.Instantiates config call c)
      (hinitializes : tables.Initializes config c t)
  | member {receiver : String} {kind : CallKind} (hthrough : call.GoesThrough receiver)
      (hselects : tables.SelectsMember config call receiver kind t)
  | inModule {receiver : String} {m : Nat} (hthrough : call.GoesThrough receiver)
      (hselects : tables.SelectsInModule config call receiver m t)
  | constructed (hkind : call.kind = .constructor)
      (hconstructs : tables.Constructs config call t)
      (hqualified : ∀ name, Text.segments call.callee = [name] →
        tables.searchedName? call ≠ some name)

section Meanings

variable {tables : Tables} {config : ResolutionConfig} {module : Nat} {caller : Option Nat}

/-- A bare name that means a symbol is declared around its place or imported. -/
theorem local_or_alias_of_lookupName {name : String} {id : Nat}
    (hmeans : (tables.lookupName config module caller name).1 = .symbol id) :
    (tables.lookupLocal config module caller name).1 = some id ∨
      tables.aliasMeaning? module name = some (.symbol id) := by
  rw [lookupName] at hmeans
  dsimp only at hmeans
  split at hmeans
  · rename_i found hfound
    exact .inl (hfound.trans (congrArg some (Meaning.symbol.inj hmeans)))
  · split at hmeans
    · rename_i meaning halias
      exact .inr (halias.trans (congrArg some hmeans))
    · split at hmeans <;> cases hmeans

/-- A qualified name of one segment that means a symbol is a bare name. -/
theorem local_or_alias_of_lookupPath {path first : String} {id : Nat}
    (hpath : Text.segments path = [first])
    (hmeans : (tables.lookupPath config module caller path).1 = .symbol id) :
    (tables.lookupLocal config module caller first).1 = some id ∨
      tables.aliasMeaning? module first = some (.symbol id) := by
  have halias : tables.longestAlias? module [first] =
      (tables.aliasMeaning? module first).map fun meaning => (meaning, []) := by
    have hjoined : Text.joinWith (tables.separator module) ([first].take (0 + 1)) = first := rfl
    rw [longestAlias?, List.length_singleton, longestAliasUpTo, hjoined]
    cases tables.aliasMeaning? module first <;> rfl
  rw [lookupPath, hpath] at hmeans
  dsimp only at hmeans
  split at hmeans
  · cases hmeans
  · rw [halias] at hmeans
    split at hmeans
    · rename_i found hfound
      exact .inl (hfound.trans (congrArg some (Meaning.symbol.inj hmeans)))
    · rename_i meaning rest hfound
      obtain ⟨_, hmeaning, hpair⟩ := Option.map_eq_some_iff.mp hfound
      obtain ⟨rfl, rfl⟩ := Prod.mk.inj hpair
      exact .inr (hmeaning.trans (congrArg some hmeans))
    · split at hmeans <;> cases hmeans

end Meanings

/-- A call whose callee is looked up as a bare name searches its callee. -/
theorem searchedName?_of_searchesName {tables : Tables} {call : CallEdge}
    (hname : call.SearchesName) : tables.searchedName? call = some call.callee := by
  rcases hname with hkind | ⟨hkind | hkind, hreceiver⟩
  · simp [searchedName?, hkind]
  · simp [searchedName?, hkind, hreceiver]
  · simp [searchedName?, hkind, hreceiver]

section TakingFirst

variable {tables : Tables} {config : ResolutionConfig} {call : CallEdge}
  (h : SymbolRecords tables.modules tables.symbols.toList)
include h

/-- What the name that a call searches means is found nearby, or it is inherited or imported. -/
theorem findsNearby_or_takesFirst_of_name {name : String} {id : Nat}
    (hname : tables.searchedName? call = some name)
    (hmeans : (tables.lookupLocal config call.module call.caller name).1 = some id ∨
      tables.aliasMeaning? call.module name = some (.symbol id)) :
    (∃ s, tables.symbols.toList[id]? = some s ∧ tables.FindsNearby config call s) ∨
      tables.TakesFirst config call id := by
  rcases hmeans with hlocal | halias
  · change (tables.localHits config call.module call.caller name).head? = some id at hlocal
    rw [localHits_eq_hitsAlong] at hlocal
    rcases declares_or_inherits_of_hitsAlong h hlocal with
      ⟨s, hs, hdeclares⟩ | ⟨c, hc, hclass, hinherited⟩
    · exact .inl ⟨s, hs, name, hname, hdeclares⟩
    · exact .inr (.inherited hname hc hclass hinherited)
  · exact .inr (.imported hname halias)

/-- A class that a call instantiates is found nearby, or taken without a search for rivals. -/
theorem Instantiates.findsNearby_or_takesFirst {c : Nat}
    (hinstance : tables.Instantiates config call c) :
    (∃ s, tables.symbols.toList[c]? = some s ∧ tables.FindsNearby config call s) ∨
      tables.TakesFirst config call c := by
  cases hinstance with
  | byName hname hmeans =>
    exact findsNearby_or_takesFirst_of_name h (searchedName?_of_searchesName hname)
      (local_or_alias_of_lookupName hmeans)
  | inModule hthrough hselects => exact .inr (.inModule hthrough hselects)
  | explicitly hkind hconstructs =>
    -- A callee of one segment is searched like a bare name; of others the first segment only is.
    by_cases hbare : ∃ name, Text.segments call.callee = [name] ∧
        tables.searchedName? call = some name
    · obtain ⟨name, hpath, hname⟩ := hbare
      cases hconstructs with
      | own hself => simp [searchedName?, constructedName?, hkind, hself] at hname
      | base hself hsuper => simp [searchedName?, constructedName?, hkind, hself, hsuper] at hname
      | named _ _ hmeans =>
        exact findsNearby_or_takesFirst_of_name h hname (local_or_alias_of_lookupPath hpath hmeans)
    · exact .inr (.constructed hkind hconstructs fun name hpath hname => hbare ⟨name, hpath, hname⟩)

/-- A symbol that a call leads to is found nearby, or taken without a search for rivals. -/
theorem Route.findsNearby_or_takesFirst {kind : CallKind} {id : Nat}
    (hroute : tables.Route config call kind (.symbol id)) :
    (∃ s, tables.symbols.toList[id]? = some s ∧ tables.FindsNearby config call s) ∨
      tables.TakesFirst config call id := by
  cases hroute with
  | @instantiation c hinstance =>
    rcases tables.initializer?_getD config c with ⟨hself, _⟩ | hinitializes
    · rw [hself]
      exact hinstance.findsNearby_or_takesFirst h
    · exact .inr (.initializer hinstance hinitializes)
  | name hname hmeans =>
    exact findsNearby_or_takesFirst_of_name h (searchedName?_of_searchesName hname)
      (local_or_alias_of_lookupName hmeans)
  | member hthrough hselects => exact .inr (.member hthrough hselects)
  | function hthrough hselects => exact .inr (.inModule hthrough hselects)

end TakingFirst

end Tables

/-- A completed session over some files whose graph reports the ties between rivals that its calls
find nearby, and no other ties of calls. -/
structure ObservableRun (config : ResolutionConfig) (files : List FileFacts)
    (collected imported called : Session) (graph : Graph) : Prop
    extends CompletedRun config files collected imported called graph where
  diagnostics : graph.records.diagnostics = imported.tables.diagnostics ++
    imported.tables.calls.flatMap fun call => (imported.tables.linkCall config call).2
  observable : List.Forall₂
    (fun call edge => ∀ s ∈ graph.records.symbols, ∀ t ∈ graph.records.symbols,
      edge.target = .symbol s.id → s.Rivals graph.records.modules t →
        (∃ d ∈ graph.records.diagnostics, d.module = edge.module) ∨
          imported.tables.TakesFirst config call s.id)
    imported.tables.calls graph.records.calls
  reported : ∀ call ∈ imported.tables.calls,
    ∀ s ∈ graph.records.symbols, ∀ t ∈ graph.records.symbols,
      imported.tables.FindsNearby config call s → s.Rivals graph.records.modules t →
        ∃ d ∈ (imported.tables.linkCall config call).2, d.module = call.module
  nothingElse : ∀ call ∈ imported.tables.calls, ∀ d ∈ (imported.tables.linkCall config call).2,
    d.module = call.module ∧
      ∃ s ∈ graph.records.symbols, ∃ t ∈ graph.records.symbols,
        imported.tables.FindsNearby config call s ∧ s.Rivals graph.records.modules t

/-- In every unit of well-formed files a call that leads to one of several rivals is reported, unless
its route takes the first of several symbols without a search. A call is reported exactly when it
finds rivals nearby. -/
theorem ties_found_nearby_are_observable (config : ResolutionConfig) (files : List FileFacts)
    (hnonempty : files ≠ []) (hfiles : ∀ file ∈ files, file.WellFormed) :
    ∃ collected imported called graph,
      ObservableRun config files collected imported called graph := by
  let tables := (Tables.ofFiles files).linkImports
  have hrecords : SymbolRecords tables.modules tables.symbols.toList :=
    (Tables.ofFiles_consistent files hfiles).symbols
  have horder : InModuleOrder tables.symbols.toList := Tables.ofFiles_inModuleOrder files
  have hdiagnostics := tables.linkCalls_diagnostics config
  refine ⟨_, _, _, _, completedRun_of_ne_nil config hnonempty, hdiagnostics, ?_, ?_, ?_⟩
  · change List.Forall₂ _ tables.calls (tables.linkCalls config).calls
    rw [Tables.linkCalls_calls, List.forall₂_map_right_iff, List.forall₂_same]
    intro call hcall s hs t ht htarget hrivals
    have hroute := tables.judgeCall_route config call
    rw [show (tables.judgeCall config call).1.2 = .symbol s.id from htarget] at hroute
    rcases hroute.findsNearby_or_takesFirst hrecords with ⟨s', hs', hfinds⟩ | hfirst
    · obtain rfl := Option.some.inj (hs'.symm.trans (hrecords.symbolsNumbered.getElem?_of_mem hs))
      obtain ⟨d, hd, hmodule⟩ := Tables.exists_doubt_of_rivals hrecords hs ht hfinds hrivals
      refine .inl ⟨d, ?_, hmodule⟩
      change d ∈ (tables.linkCalls config).diagnostics
      rw [hdiagnostics]
      exact List.mem_append_right _ (List.mem_flatMap.mpr ⟨call, hcall, hd⟩)
    · exact .inr hfirst
  · intro call _ s hs t ht hfinds hrivals
    exact Tables.exists_doubt_of_rivals hrecords hs ht hfinds hrivals
  · intro call _ d hd
    exact Tables.exists_rivals_of_doubt hrecords horder hd

/-- Two files of a package that declare one function each under one name; the second one calls
it. -/
def sharedPackage : List FileFacts :=
  [{ path := ⟨"pkg/one.go"⟩
     language := .go
     declarations :=
      [{ name := "f", kind := .function, parent := none, visibility := .hidden }] },
    { path := ⟨"pkg/two.go"⟩
      language := .go
      declarations :=
        [{ name := "f", kind := .function, parent := none, visibility := .hidden },
          { name := "g", kind := .function, parent := none, visibility := .hidden }]
      calls := [{ callee := "f", name := "f", kind := .direct, caller := some 1 }] }]

/-- The call in the package leads to the function of the other file, and the tie is reported. -/
theorem ties_found_nearby_are_observable_in_package :
    ∃ collected imported called graph,
      ObservableRun {} sharedPackage collected imported called graph ∧
        graph.records.calls.map (·.target) = [.symbol 0] ∧
        graph.records.diagnostics = [⟨1, "'f' matches 2 declarations in one scope"⟩] := by
  have hnonempty : sharedPackage ≠ [] := List.cons_ne_nil _ _
  have hfiles : ∀ file ∈ sharedPackage, file.WellFormed := by
    intro file hfile
    simp only [sharedPackage, List.mem_cons, List.not_mem_nil, or_false] at hfile
    have hflat : ({ file with calls := [] } : FileFacts).WellFormed :=
      FileFacts.wellFormed_of_flat (by rcases hfile with rfl | rfl <;> simp) rfl
    refine ⟨hflat.parents, ?_, ?_, hflat.climbs⟩
    all_goals rcases hfile with rfl | rfl <;> simp
  have hordered : orderedFiles sharedPackage = sharedPackage := by
    rw [orderedFiles, List.mergeSort_of_pairwise (by decide)]
    decide
  obtain ⟨collected, imported, called, graph, hrun⟩ :=
    ties_found_nearby_are_observable {} sharedPackage hnonempty hfiles
  refine ⟨collected, imported, called, graph, hrun, ?_⟩
  obtain rfl :=
    Except.ok.inj (hrun.resolves.symm.trans (completedRun_of_ne_nil {} hnonempty).resolves)
  rw [Tables.ofFiles, hordered]
  decide +kernel

/-- A function and a method that are declared twice. The function is called through its module and
as an imported name, the method through the instance and through its class. -/
def repeatedNames : List FileFacts :=
  [{ path := ⟨"lib.py"⟩
     language := .python
     declarations :=
      [{ name := "f", kind := .function, parent := none, visibility := .exposed },
        { name := "f", kind := .function, parent := none, visibility := .exposed }] },
    { path := ⟨"main.py"⟩
      language := .python
      declarations :=
        [{ name := "A", kind := .classLike, parent := none, visibility := .exposed },
          { name := "m", kind := .method, parent := some 0, visibility := .exposed },
          { name := "m", kind := .method, parent := some 0, visibility := .exposed },
          { name := "n", kind := .method, parent := some 0, visibility := .exposed }]
      imports :=
        [{ target := "lib", name := .whole, localName := "lib" },
          { target := "lib", name := .name "f", localName := "f" }]
      calls :=
        [{ callee := "self.m", name := "m", receiver := some "self", kind := .method
           caller := some 3 },
          { callee := "A.m", name := "m", receiver := some "A", kind := .method },
          { callee := "lib.f", name := "f", receiver := some "lib", kind := .method },
          { callee := "f", name := "f", kind := .direct }] }]

/-- Every call of the repeated names leads to a symbol of its name that has a rival, and nothing is
reported. -/
theorem repeated_names_are_taken_silently :
    ∃ graph, resolveFacts {} repeatedNames = .ok graph ∧
      graph.records.calls.map (fun c => (c.callee, c.target)) =
        [("self.m", .symbol 3), ("A.m", .symbol 3), ("lib.f", .symbol 0), ("f", .symbol 0)] ∧
      (∀ c ∈ graph.records.calls, ∃ s ∈ graph.records.symbols, ∃ t ∈ graph.records.symbols,
        c.target = .symbol s.id ∧ s.name = c.name ∧ s.Rivals graph.records.modules t) ∧
      graph.records.diagnostics = [] := by
  have hordered : orderedFiles repeatedNames = repeatedNames := by
    rw [orderedFiles, List.mergeSort_of_pairwise (by decide)]
    decide
  have hnonempty : repeatedNames ≠ [] := List.cons_ne_nil _ _
  refine ⟨_, (completedRun_of_ne_nil {} hnonempty).resolves, ?_⟩
  rw [Tables.ofFiles, hordered]
  decide +kernel

end CodeAtlas
