import CodeAtlas.Proofs.Attribution
import CodeAtlas.Proofs.CallRoutes
import CodeAtlas.Proofs.Conservation

/-!
# Linking refines the kinds of calls

Reading a file gives every call a kind by its syntax. Linking may refine it: a call by a bare name
may turn out to construct a class or to call a builtin, and a call through a receiver may moreover
turn out to be static. All other kinds are final. With the kind goes what the target can be, and the
statement here is that kind and target of every linked call fit together.
-/

namespace CodeAtlas

namespace CallKind

/-- Can the syntax of a call give it the kind? A method call has a receiver; static and builtin
calls are found out by linking only. -/
def isSyntactic (receiver : Option String) : CallKind → Bool
  | direct | chained | constructor | literalReceiver | decoratorCall => true
  | method => receiver.isSome
  | static | builtin => false

/-- The kinds with which a call of a kind may end. -/
def refinements : CallKind → List CallKind
  | direct => [direct, constructor, builtin]
  | method => [method, static, constructor, builtin]
  | kind => [kind]

end CallKind

/-! ### The kinds that are read -/

namespace Document

/-- The site of a node has a kind that its syntax can give. -/
theorem ownSite_isSyntactic (doc : Document) (t : Tree) (scopes : List (Nat × Nat)) :
    ∀ site ∈ doc.ownSite t scopes, site.call.kind.isSyntactic site.call.receiver = true := by
  have hkind (callee : Callee) :
      (callKind callee).isSyntactic (callee.receiver.map (·.text)) = true := by
    rcases callee with ⟨_, _, _ | ⟨_, _ | _ | _⟩⟩ <;> rfl
  intro site hsite
  rw [ownSite] at hsite
  split at hsite
  · obtain rfl := List.mem_singleton.mp hsite
    simp only [callSite, siteOf]
    split
    · rfl
    · exact hkind _
  · exact List.mem_singleton.mp hsite ▸ rfl
  · exact List.mem_singleton.mp hsite ▸ rfl
  · cases hsite

/-- The facts of a document have calls of kinds that their syntax can give. -/
theorem facts_isSyntactic (doc : Document) (path : Path) :
    ∀ c ∈ (doc.facts path).calls, c.kind.isSyntactic c.receiver = true := by
  intro c hc
  by_cases hdecorator : c.kind = .decoratorCall
  · rw [hdecorator]
    rfl
  · have hsite : c ∈ (doc.facts path).calls.filter (·.kind != .decoratorCall) :=
      List.mem_filter.mpr ⟨hc, bne_iff_ne.mpr hdecorator⟩
    rw [facts_calls_filter] at hsite
    obtain ⟨site, hmem, rfl⟩ := List.mem_map.mp hsite
    exact callSites_forall (P := fun site => site.call.kind.isSyntactic site.call.receiver = true)
      doc.ownSite_isSyntactic [] doc.tree site hmem

end Document

/-- The calls of a file that was read have kinds that their syntax can give. -/
theorem FileFacts.Extracted.isSyntactic {file : FileFacts} (h : file.Extracted) :
    ∀ c ∈ file.calls, c.kind.isSyntactic c.receiver = true := by
  obtain ⟨path, language, text, tree, hfile⟩ := h
  rw [extractSource] at hfile
  split at hfile
  · cases hfile
  · exact Except.ok.inj hfile ▸ Document.facts_isSyntactic _ path

/-! ### Kinds and targets along the routes -/

/-- What may become of a call with a kind that its syntax gave it. -/
structure CallEdge.Refines (edge : CallEdge) (tables : Tables) (config : ResolutionConfig)
    (kind : CallKind) : Prop where
  allowed : edge.kind ∈ kind.refinements
  chained : kind = .chained → edge.target = .unresolved
  literal : kind = .literalReceiver → edge.target =
    if tables.isBuiltin config edge.module edge.name then .builtin edge.name else .unresolved
  builtin_iff : edge.kind = .builtin ↔
    (kind = .direct ∨ kind = .method) ∧ ∃ name, edge.target = .builtin name
  notBuiltin : edge.kind = .constructor ∨ edge.kind = .static ∨ edge.kind = .method →
    ∀ name, edge.target ≠ .builtin name
  notExternal : edge.kind = .method → ∀ name, edge.target ≠ .external name
  notClass : edge.kind = .direct → ∀ t, edge.target = .symbol t → tables.isClass t = false
  constructed : edge.kind = .constructor → ∀ t, edge.target = .symbol t →
    tables.isClass t = true ∨ ∃ c, tables.isClass c = true ∧ tables.Initializes config c t

namespace Tables

variable {tables : Tables} {config : ResolutionConfig} {call : CallEdge}

/-- The class around a place is a class. -/
theorem isClass_of_enclosingClass? {caller : Option Nat} {c : Nat}
    (h : tables.enclosingClass? caller = some c) : tables.isClass c = true :=
  List.find?_some h

/-- The base classes of a class are classes. -/
theorem isClass_of_mem_baseClasses {c b : Nat} (h : b ∈ tables.baseClasses c) :
    tables.isClass b = true := by
  rw [baseClasses] at h
  split at h
  · cases h
  · have hboth := (List.mem_filter.mp h).2
    exact (Bool.and_eq_true_iff.mp hboth).2

/-- A constructor call names a class. -/
theorem Constructs.isClass {c : Nat} (h : tables.Constructs config call c) :
    tables.isClass c = true := by
  cases h with
  | own hself hclass => exact isClass_of_enclosingClass? hclass
  | base hself hsuper hclass hbase =>
    exact isClass_of_mem_baseClasses (List.mem_of_mem_head? hbase)
  | named hself hsuper hmeans hclass => exact hclass

/-- Only classes are instantiated. -/
theorem Instantiates.isClass {c : Nat} (h : tables.Instantiates config call c) :
    tables.isClass c = true := by
  cases h with
  | byName hname hmeans hclass => exact hclass
  | inModule hthrough hselects hclass => exact hclass
  | explicitly hkind hconstructs => exact hconstructs.isClass

/-- The syntactic kinds of the calls that instantiate a class. -/
theorem Instantiates.kind {c : Nat} (h : tables.Instantiates config call c) :
    call.kind = .direct ∨ call.kind = .method ∨ call.kind = .decoratorCall ∨
      call.kind = .constructor := by
  cases h with
  | byName hname hmeans hclass => rcases hname with h | ⟨h | h, _⟩ <;> simp [h]
  | inModule hthrough hselects hclass => rcases hthrough.1 with h | h <;> simp [h]
  | explicitly hkind hconstructs => simp [hkind]

/-- A member of a class is called as a method or statically. -/
theorem SelectsMember.kind {receiver : String} {kind : CallKind} {t : Nat}
    (h : tables.SelectsMember config call receiver kind t) : kind = .method ∨ kind = .static := by
  cases h <;> simp

/-- A call of a syntactic kind is looked up as a bare name only if it is direct or a decorator's. -/
theorem kind_of_searchesName (hsyntactic : call.kind.isSyntactic call.receiver = true)
    (hname : call.SearchesName) : call.kind = .direct ∨ call.kind = .decoratorCall := by
  rcases hname with hkind | ⟨hkind | hkind, hreceiver⟩
  · exact .inl hkind
  · rw [hkind, hreceiver] at hsyntactic
    cases hsyntactic
  · exact .inr hkind

/-- The kind that a route settles refines the call's own when it would without decorators. -/
theorem settled_mem_refinements {kind : CallKind}
    (h : call.kind ≠ .decoratorCall → kind ∈ call.kind.refinements) :
    call.settled kind ∈ call.kind.refinements := by
  rw [CallEdge.settled]
  split
  · rename_i hdecorator
    rw [hdecorator]
    exact List.mem_singleton_self _
  · exact h ‹_›

/-- Every kind refines itself. -/
theorem mem_refinements_self (kind : CallKind) : kind ∈ kind.refinements := by
  cases kind <;> exact List.mem_cons_self

namespace Route

variable {kind : CallKind} {target : CallTarget}

/-- Every route ends with a kind that refines the one it started with. -/
theorem kind_mem (h : tables.Route config call kind target) : kind ∈ call.kind.refinements := by
  have hthrough {receiver : String} {kind : CallKind} (hthrough : call.GoesThrough receiver)
      (hkind : kind ∈ CallKind.refinements .method) : call.settled kind ∈ call.kind.refinements :=
    settled_mem_refinements fun hother => hthrough.1.resolve_right hother ▸ hkind
  cases h with
  | instantiation hclass =>
    refine settled_mem_refinements fun hother => ?_
    rcases hclass.kind with h | h | h | h <;> simp_all [CallKind.refinements]
  | name | externalName | unknown => exact mem_refinements_self _
  | member hcall hselects =>
    exact hthrough hcall (by rcases hselects.kind with rfl | rfl <;> decide)
  | function hcall | externalMember hcall => exact hthrough hcall (by decide)
  | unknownMember hcall hkind => exact hthrough hcall (by rcases hkind with rfl | rfl <;> decide)
  | builtin hkind =>
    refine settled_mem_refinements fun hother => ?_
    rcases hkind with h | h | h <;> simp_all [CallKind.refinements]
  | externalClass hkind | literal hkind | unknownLiteral hkind =>
    exact hkind ▸ mem_refinements_self _

/-- Only direct and method calls, decorator calls and calls on literals have a builtin as their
target. -/
theorem kind_of_builtin {name : String} (h : tables.Route config call kind (.builtin name)) :
    (kind = .builtin ∧ (call.kind = .direct ∨ call.kind = .method)) ∨
      (kind = call.kind ∧ (call.kind = .decoratorCall ∨ call.kind = .literalReceiver)) := by
  cases h with
  | builtin hkind => rcases hkind with h | h | h <;> simp [CallEdge.settled, h]
  | literal hkind => exact .inr ⟨hkind.symm, .inr hkind⟩

/-- A call on a literal has a builtin as its target if its name is one, and none otherwise. -/
theorem target_of_literal (hliteral : call.kind = .literalReceiver)
    (h : tables.Route config call kind target) :
    target = if tables.isBuiltin config call.module call.name then .builtin call.name
      else .unresolved := by
  cases h with
  | literal _ hbuiltin => rw [if_pos hbuiltin]
  | unknownLiteral _ hbuiltin => rw [if_neg (Bool.eq_false_iff.mp hbuiltin)]
  | instantiation hclass => simpa [hliteral] using hclass.kind
  | name hname | externalName hname => simp [CallEdge.SearchesName, hliteral] at hname
  | member hthrough | function hthrough | externalMember hthrough | unknownMember hthrough =>
    simp [CallEdge.GoesThrough, hliteral] at hthrough
  | externalClass hkind | builtin hkind | unknown hkind => simp [hliteral] at hkind

/-- A chained call has no target. -/
theorem target_of_chained (hchained : call.kind = .chained)
    (h : tables.Route config call kind target) : target = .unresolved := by
  cases h with
  | unknownLiteral | unknown => rfl
  | instantiation hclass => simpa [hchained] using hclass.kind
  | name hname | externalName hname => simp [CallEdge.SearchesName, hchained] at hname
  | member hthrough | function hthrough | externalMember hthrough | unknownMember hthrough =>
    simp [CallEdge.GoesThrough, hchained] at hthrough
  | externalClass hkind | builtin hkind | literal hkind => simp [hchained] at hkind

/-- A call that ends as a builtin call has a builtin as its target. -/
theorem target_of_builtin (hsyntactic : call.kind.isSyntactic call.receiver = true)
    (h : tables.Route config call kind target) (hkind : kind = .builtin) :
    ∃ name, target = .builtin name := by
  have hcall : call.kind ≠ .builtin := by
    intro hbuiltin
    simp [hbuiltin, CallKind.isSyntactic] at hsyntactic
  cases h with
  | builtin | literal => exact ⟨_, rfl⟩
  | name | externalName | unknown => exact absurd hkind hcall
  | instantiation | function | externalMember => cases eq_of_settled hkind (by simp)
  | member _ hselects =>
    obtain rfl := eq_of_settled hkind (by simp)
    simpa using hselects.kind
  | unknownMember _ hasked =>
    obtain rfl := eq_of_settled hkind (by simp)
    simp at hasked
  | externalClass | unknownLiteral => cases hkind

/-- A call that ends as a method call does not lead outside of the unit. -/
theorem not_external_of_method (hsyntactic : call.kind.isSyntactic call.receiver = true)
    {name : String} (h : tables.Route config call kind (.external name)) : kind ≠ .method := by
  intro hkind
  cases h with
  | externalName hname =>
    rcases kind_of_searchesName hsyntactic hname with h | h <;> simp [h] at hkind
  | externalMember hthrough => cases eq_of_settled hkind (by simp)
  | externalClass => cases hkind

/-- A call that ends as a direct call leads to no class. -/
theorem isClass_of_direct {t : Nat} (h : tables.Route config call kind (.symbol t))
    (hkind : kind = .direct) : tables.isClass t = false := by
  cases h with
  | name _ _ hother => exact hother
  | function _ _ hother => exact hother
  | instantiation => cases eq_of_settled hkind (by simp)
  | member _ hselects =>
    obtain rfl := eq_of_settled hkind (by simp)
    simpa using hselects.kind

/-- A call that ends as a constructor call leads to a class or to the initializer of one. -/
theorem constructed {t : Nat} (h : tables.Route config call kind (.symbol t))
    (hkind : kind = .constructor) :
    tables.isClass t = true ∨ ∃ c, tables.isClass c = true ∧ tables.Initializes config c t := by
  cases h with
  | @instantiation c hclass =>
    rcases tables.initializer?_getD config c with ⟨hself, _⟩ | hinitializes
    · exact .inl (hself.symm ▸ hclass.isClass)
    · exact .inr ⟨c, hclass.isClass, hinitializes⟩
  | name hname =>
    rcases hname with h | ⟨h | h, _⟩ <;> simp [h] at hkind
  | member _ hselects =>
    obtain rfl := eq_of_settled hkind (by simp)
    simpa using hselects.kind
  | function => cases eq_of_settled hkind (by simp)

/-- A call of a syntactic kind that is linked along a route refines that kind. -/
theorem refines (hsyntactic : call.kind.isSyntactic call.receiver = true) {edge : CallEdge}
    (hmodule : edge.module = call.module) (hname : edge.name = call.name)
    (h : tables.Route config call edge.kind edge.target) :
    edge.Refines tables config call.kind where
  allowed := h.kind_mem
  chained := fun hchained => h.target_of_chained hchained
  literal := by
    intro hliteral
    rw [hmodule, hname]
    exact h.target_of_literal hliteral
  builtin_iff := by
    constructor
    · intro hkind
      obtain ⟨name, htarget⟩ := h.target_of_builtin hsyntactic hkind
      rcases (htarget ▸ h).kind_of_builtin with ⟨_, hcall⟩ | ⟨hsame, _⟩
      · exact ⟨hcall, name, htarget⟩
      · rw [← hsame, hkind] at hsyntactic
        cases hsyntactic
    · rintro ⟨hcall, name, htarget⟩
      rcases (htarget ▸ h).kind_of_builtin with ⟨hkind, _⟩ | ⟨_, hother⟩
      · exact hkind
      · rcases hcall with hcall | hcall <;> simp [hcall] at hother
  notBuiltin := by
    intro hkind name htarget
    rcases (htarget ▸ h).kind_of_builtin with ⟨hbuiltin, _⟩ | ⟨hsame, hother⟩
    · simp [hbuiltin] at hkind
    · rw [hsame] at hkind
      rcases hother with hother | hother <;> simp [hother] at hkind
  notExternal := fun hkind name htarget =>
    (htarget ▸ h).not_external_of_method hsyntactic hkind
  notClass := fun hkind t htarget => (htarget ▸ h).isClass_of_direct hkind
  constructed := fun hkind t htarget => (htarget ▸ h).constructed hkind

end Route

end Tables

/-! ### Whole units -/

/-- The facts of several files in a row are facts of these files. -/
theorem exists_of_mem_placed {α : Type} {facts : FileFacts → List α} {files : List FileFacts}
    {p : Placed α} (h : p ∈ placed facts files) : ∃ file ∈ files, p.fact ∈ facts file := by
  obtain ⟨⟨file, module⟩, hfile, hp⟩ := List.mem_flatMap.mp h
  obtain ⟨fact, hfact, rfl⟩ := List.mem_map.mp hp
  exact ⟨file, List.fst_mem_of_mem_zipIdx hfile, hfact⟩

/-- A completed session over some files whose calls end with kinds and targets that fit their
syntax. -/
structure RefiningRun (config : ResolutionConfig) (files : List FileFacts)
    (collected imported called : Session) (graph : Graph) : Prop
    extends CompletedRun config files collected imported called graph where
  calls : List.Forall₂
    (fun edge fact => edge.Copies fact ∧ edge.Refines imported.tables config fact.fact.kind)
    graph.records.calls (placed (·.calls) (orderedFiles files))

/-- Reading a file gives its calls syntactic kinds only, and in every unit of files with such calls
linking refines these kinds as the table of refinements allows, with targets that fit the kinds. -/
theorem call_kinds_are_refined :
    (∀ file : FileFacts, file.Extracted →
      ∀ c ∈ file.calls, c.kind.isSyntactic c.receiver = true) ∧
    ∀ (config : ResolutionConfig) (files : List FileFacts), files ≠ [] →
      (∀ file ∈ files, ∀ c ∈ file.calls, c.kind.isSyntactic c.receiver = true) →
        ∃ collected imported called graph,
          RefiningRun config files collected imported called graph := by
  refine ⟨fun file hfile => hfile.isSyntactic, fun config files hnonempty hkinds => ?_⟩
  have hcollected := (collected_ofFiles files).calls
  have hsyntactic : ∀ p ∈ placed (·.calls) (orderedFiles files),
      p.fact.kind.isSyntactic p.fact.receiver = true := by
    intro p hp
    obtain ⟨file, hfile, hfact⟩ := exists_of_mem_placed hp
    exact hkinds file (mem_of_mem_orderedFiles hfile) p.fact hfact
  refine ⟨_, _, _, _, completedRun_of_ne_nil config hnonempty, ?_⟩
  change List.Forall₂ _ ((Tables.ofFiles files).linkImports.linkCalls config).calls _
  rw [Tables.linkCalls_calls, List.forall₂_map_left_iff]
  have hboth := ((List.forall₂_and_left _ _).mpr ⟨hsyntactic, hcollected.flip⟩).flip
  refine hboth.imp fun call fact hcall => ?_
  obtain ⟨hfact, hcopies, hkind, _⟩ := hcall
  refine ⟨⟨hcopies.module, hcopies.caller, hcopies.decorates, hcopies.callee, hcopies.name,
    hcopies.receiver, hcopies.arguments, hcopies.extent⟩, ?_⟩
  rw [← hkind, ← hcopies.receiver] at hfact
  exact hkind ▸ (Tables.judgeCall_route _ config call).refines hfact rfl rfl

/-- A method call on a name, with a direct call as its argument. -/
def nestedCall : Tree :=
  let named (kind : String) (field : Option String) (start stop : Nat) (children : List Tree) :=
    Tree.node { kind := kind, named := true, field := field, start := start, stop := stop } children
  named "module" none 0 8
    [named "expression_statement" none 0 8
      [named "call" none 0 8
        [named "attribute" (some "function") 0 3
          [named "identifier" (some "object") 0 1 [], named "identifier" (some "attribute") 2 3 []],
          named "argument_list" (some "arguments") 3 8
          [named "call" none 4 7
            [named "identifier" (some "function") 4 5 [],
              named "argument_list" (some "arguments") 5 7 []]]]]]

/-- The two calls of a file that is read and then linked. -/
theorem call_kinds_are_refined_nested_call :
    ∃ facts, extractSource ⟨"a.py"⟩ .python "x.f(g())" nestedCall = .ok facts ∧
      facts.calls.map (fun c => (c.callee, c.kind)) = [("g", .direct), ("x.f", .method)] ∧
      ∃ collected imported called graph,
        RefiningRun {} [facts] collected imported called graph := by
  have hclean : nestedCall.errorOffset? = none := rfl
  have hextracts : ∃ facts, extractSource ⟨"a.py"⟩ .python "x.f(g())" nestedCall = .ok facts ∧
      facts.calls.map (fun c => (c.callee, c.kind)) = [("g", .direct), ("x.f", .method)] :=
    ⟨_, by rw [extractSource, hclean], by decide +kernel⟩
  obtain ⟨facts, hread, hcalls⟩ := hextracts
  have hextracted : ∀ file ∈ [facts], file.Extracted := by
    intro file hfile
    obtain rfl := List.mem_singleton.mp hfile
    exact ⟨_, _, _, _, hread⟩
  exact ⟨facts, hread, hcalls, call_kinds_are_refined.2 {} [facts] (List.cons_ne_nil _ _)
    fun file hfile => call_kinds_are_refined.1 file (hextracted file hfile)⟩

end CodeAtlas
