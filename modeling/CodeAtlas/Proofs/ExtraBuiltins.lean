import CodeAtlas.Proofs.Conservation

/-!
# Extra builtins never override a resolution

Every look-up asks for builtins last, after declarations and imports, and a builtin has no members.
So the names that a configuration adds to the builtins matter only to calls that would have no
target without them. Of two runs that differ in the added names, the one with more of them gives the
same records, except that some calls without a target have a builtin instead.
-/

namespace CodeAtlas

/-- A configuration differs from another one in the extra builtins only, of which it has all that
the other one has. -/
structure ResolutionConfig.AddsBuiltins (config more : ResolutionConfig) : Prop where
  walkBases : more.walkBases = config.walkBases
  extraBuiltins : config.extraBuiltins ⊆ more.extraBuiltins

/-- The names that are extra builtins of one configuration and not of another one. -/
def ResolutionConfig.Adds (config more : ResolutionConfig) (name : String) : Prop :=
  name ∈ more.extraBuiltins ∧ name ∉ config.extraBuiltins

/-- What becomes of a linked call when names are added to the builtins: nothing, or the call had no
target and now has an added builtin as its target. -/
inductive CallEdge.Gains (added : String → Prop) (c : CallEdge) : CallEdge → Prop
  | same : c.Gains added c
  | called (hkind : c.kind = .direct ∨ c.kind = .method) (htarget : c.target = .unresolved)
      (hadded : added c.callee) :
      c.Gains added { c with kind := .builtin, target := .builtin c.callee }
  | decorating (hkind : c.kind = .decoratorCall) (htarget : c.target = .unresolved)
      (hadded : added c.callee) : c.Gains added { c with target := .builtin c.callee }
  | onLiteral (hkind : c.kind = .literalReceiver) (htarget : c.target = .unresolved)
      (hadded : added c.name) : c.Gains added { c with target := .builtin c.name }

/-- What becomes of the meaning of a name when names are added to the builtins. -/
inductive Meaning.Gains (added : String → Prop) (name : String) : Meaning → Meaning → Prop
  | same (meaning : Meaning) : Gains added name meaning meaning
  | builtin (hadded : added name) : Gains added name .unknown (.builtin name)

namespace Tables

variable {tables : Tables} {config more : ResolutionConfig}

/-! ### Look-ups that do not ask for builtins -/

section Unaffected

variable (h : config.AddsBuiltins more)
include h

/-- What a class inherits does not depend on the builtins. -/
theorem inherited?_adds : tables.inherited? more = tables.inherited? config := by
  funext id name
  rw [inherited?, inherited?, h.walkBases]

/-- The members of a class do not depend on the builtins. -/
theorem member?_adds : tables.member? more = tables.member? config := by
  funext id name
  rw [member?, member?, inherited?_adds h]

/-- What constructing a class calls does not depend on the builtins. -/
theorem constructorTarget_adds :
    tables.constructorTarget more = tables.constructorTarget config := by
  funext id
  rw [constructorTarget, constructorTarget, initializer?, initializer?, member?_adds h]

/-- What a name means by declarations alone does not depend on the builtins. -/
theorem lookupLocal_adds : tables.lookupLocal more = tables.lookupLocal config := by
  have hhits : tables.scopeHits more = tables.scopeHits config := by
    funext name scope
    rw [scopeHits, scopeHits, inherited?_adds h]
  funext m caller name
  rw [lookupLocal, lookupLocal, localHits, localHits, hhits]

/-- What a segment after a meaning means does not depend on the builtins. -/
theorem pathStep_adds : tables.pathStep more = tables.pathStep config := by
  funext m meaning segment
  cases meaning <;> simp only [pathStep, member?_adds h]

end Unaffected

/-! ### Look-ups that do -/

section Affected

variable (tables) (h : config.AddsBuiltins more)
include h

/-- Builtins stay builtins, and what becomes one is an added name. -/
theorem isBuiltin_adds (m : Nat) (name : String) :
    tables.isBuiltin more m name = tables.isBuiltin config m name ∨
      tables.isBuiltin config m name = false ∧ tables.isBuiltin more m name = true ∧
        config.Adds more name := by
  cases hfew : tables.isBuiltin config m name with
  | true =>
    refine .inl ?_
    rcases Bool.or_eq_true_iff.mp hfew with hlanguage | hextra
    · rw [isBuiltin, hlanguage, Bool.true_or]
    · have hmem := h.extraBuiltins (List.contains_iff_mem.mp hextra)
      rw [isBuiltin, List.contains_iff_mem.mpr hmem, Bool.or_true]
  | false =>
    cases hmany : tables.isBuiltin more m name with
    | false => exact .inl rfl
    | true =>
      obtain ⟨hlanguage, hextra⟩ := Bool.or_eq_false_iff.mp hfew
      rw [isBuiltin, hlanguage, Bool.false_or] at hmany
      exact .inr ⟨rfl, rfl, List.contains_iff_mem.mp hmany, by simpa using hextra⟩

/-- A name that means nothing else may become an added builtin. -/
theorem builtin_gains (m : Nat) (name : String) :
    Meaning.Gains (config.Adds more) name
      (if tables.isBuiltin config m name then .builtin name else .unknown)
      (if tables.isBuiltin more m name then .builtin name else .unknown) := by
  rcases isBuiltin_adds tables h m name with hsame | ⟨hfew, hmany, hadded⟩
  · rw [hsame]
    exact .same _
  · simp only [hfew, hmany, Bool.false_eq_true, if_true, if_false]
    exact .builtin hadded

/-- A bare name means the same with more builtins, or nothing before and an added builtin then; the
doubts are the same. -/
theorem lookupName_gains (m : Nat) (caller : Option Nat) (name : String) :
    Meaning.Gains (config.Adds more) name (tables.lookupName config m caller name).1
        (tables.lookupName more m caller name).1 ∧
      (tables.lookupName more m caller name).2 = (tables.lookupName config m caller name).2 := by
  simp only [lookupName, lookupLocal_adds h]
  split
  · exact ⟨.same _, rfl⟩
  · split
    · exact ⟨.same _, rfl⟩
    · exact ⟨builtin_gains tables h m name, rfl⟩

/-- A qualified name means the same with more builtins, or nothing before and an added builtin then;
the doubts are the same. -/
theorem lookupPath_gains (m : Nat) (caller : Option Nat) (path : String) :
    (∃ first, Meaning.Gains (config.Adds more) first (tables.lookupPath config m caller path).1
        (tables.lookupPath more m caller path).1) ∧
      (tables.lookupPath more m caller path).2 = (tables.lookupPath config m caller path).2 := by
  simp only [lookupPath, lookupLocal_adds h, pathStep_adds h]
  split
  · exact ⟨⟨path, .same _⟩, rfl⟩
  · rename_i first rest _
    split
    · exact ⟨⟨first, .same _⟩, rfl⟩
    · split
      · exact ⟨⟨first, .same _⟩, rfl⟩
      · exact ⟨⟨first, .same _⟩, rfl⟩
      · exact ⟨⟨first, builtin_gains tables h m first⟩, rfl⟩

end Affected

/-! ### Linking -/

/-- What becomes of the kind and target that a call is linked with, before a decorator call takes
its kind back. -/
inductive LinkGains (added : String → Prop) (call : CallEdge) : Linked → Linked → Prop
  | same (linked : Linked) : LinkGains added call linked linked
  | builtin {kind : CallKind} (hkind : kind = call.kind ∨ kind = .method)
      (hadded : added call.callee) :
      LinkGains added call (kind, .unresolved) (.builtin, .builtin call.callee)

/-- A call that is written as a direct or method call keeps the kind that it is linked with. -/
theorem LinkGains.called {added : String → Prop} {call : CallEdge} {before after : Linked}
    (h : LinkGains added call before after) (hkind : call.kind = .direct ∨ call.kind = .method) :
    CallEdge.Gains added { call with kind := before.1, target := before.2 }
      { call with kind := after.1, target := after.2 } := by
  cases h with
  | same => exact .same
  | builtin hbefore hadded =>
    refine .called ?_ rfl hadded
    rcases hbefore with rfl | rfl
    · exact hkind
    · exact .inr rfl

/-- A decorator call stays one, whatever it gains. -/
theorem LinkGains.decorating {added : String → Prop} {call : CallEdge} {before after : Linked}
    (h : LinkGains added call before after) :
    CallEdge.Gains added { call with kind := .decoratorCall, target := before.2 }
      { call with kind := .decoratorCall, target := after.2 } := by
  cases h with
  | same => exact .same
  | builtin _ hadded => exact .decorating rfl rfl hadded

section Linking

variable (tables) (h : config.AddsBuiltins more)
include h

/-- A bare callee that means nothing may become an added builtin. -/
theorem linkDirect_gains (call : CallEdge) :
    LinkGains (config.Adds more) call (tables.linkDirect config call).1
        (tables.linkDirect more call).1 ∧
      (tables.linkDirect more call).2 = (tables.linkDirect config call).2 := by
  obtain ⟨hmeaning, hdoubts⟩ := lookupName_gains tables h call.module call.caller
    call.callee
  refine ⟨?_, hdoubts⟩
  simp only [linkDirect, constructorTarget_adds h]
  generalize (tables.lookupName config call.module call.caller call.callee).1 = before at hmeaning
  generalize (tables.lookupName more call.module call.caller call.callee).1 = after at hmeaning
  cases hmeaning with
  | same => exact .same _
  | builtin hadded => exact .builtin (.inl rfl) hadded

/-- A callee behind a receiver without members may become an added builtin, whether the receiver
became one or not. -/
theorem linkQualified_gains (call : CallEdge) {first : String} {before after : Meaning}
    (hmeaning : Meaning.Gains (config.Adds more) first before after) :
    LinkGains (config.Adds more) call (tables.linkQualified config call before)
      (tables.linkQualified more call after) := by
  -- A receiver that means nothing and one that is a builtin are treated alike: by the callee.
  have hcallee : LinkGains (config.Adds more) call (tables.linkQualified config call .unknown)
      (tables.linkQualified more call .unknown) := by
    simp only [linkQualified]
    rcases isBuiltin_adds tables h call.module call.callee with hsame | ⟨hfew, hmany, hadded⟩
    · rw [hsame]
      exact .same _
    · simp only [hfew, hmany, Bool.false_eq_true, if_true, if_false]
      exact .builtin (.inr rfl) hadded
  cases hmeaning with
  | builtin => exact hcallee
  | same =>
    cases before with
    | builtin | unknown => exact hcallee
    | symbol c =>
      simp only [linkQualified, member?_adds h]
      exact .same _
    | module m =>
      simp only [linkQualified, linkInModule, constructorTarget_adds h]
      exact .same _
    | external name => exact .same _

/-- A call with a receiver gains at most an added builtin, with the same doubts. -/
theorem linkMember_gains (call : CallEdge) (receiver : String) :
    LinkGains (config.Adds more) call (tables.linkMember config call receiver).1
        (tables.linkMember more call receiver).1 ∧
      (tables.linkMember more call receiver).2 = (tables.linkMember config call receiver).2 := by
  simp only [linkMember, inherited?_adds h, member?_adds h]
  split
  · exact ⟨.same _, rfl⟩
  · split
    · exact ⟨.same _, rfl⟩
    · obtain ⟨⟨first, hmeaning⟩, hdoubts⟩ :=
        lookupPath_gains tables h call.module call.caller receiver
      exact ⟨linkQualified_gains tables h call hmeaning, hdoubts⟩

/-- A call with or without a receiver gains at most an added builtin, with the same doubts. -/
theorem linkByReceiver_gains (call : CallEdge) :
    LinkGains (config.Adds more) call (tables.linkByReceiver config call).1
        (tables.linkByReceiver more call).1 ∧
      (tables.linkByReceiver more call).2 = (tables.linkByReceiver config call).2 := by
  rw [linkByReceiver, linkByReceiver]
  split
  · exact linkMember_gains tables h call _
  · exact linkDirect_gains tables h call

/-- Explicit constructor calls do not depend on the builtins. -/
theorem linkConstructor_adds (call : CallEdge) :
    tables.linkConstructor more call = tables.linkConstructor config call := by
  obtain ⟨⟨first, hmeaning⟩, hdoubts⟩ :=
    lookupPath_gains tables h call.module call.caller call.callee
  simp only [linkConstructor, constructorTarget_adds h, hdoubts]
  generalize (tables.lookupPath config call.module call.caller call.callee).1 = before at hmeaning
  generalize (tables.lookupPath more call.module call.caller call.callee).1 = after at hmeaning
  cases hmeaning <;> rfl

/-- A linked call gains at most an added builtin, with the same doubts. -/
theorem linkCall_gains (call : CallEdge) :
    (tables.linkCall config call).1.Gains (config.Adds more) (tables.linkCall more call).1 ∧
      (tables.linkCall more call).2 = (tables.linkCall config call).2 := by
  cases hkind : call.kind with
  | direct =>
    obtain ⟨hgains, hdoubts⟩ := linkDirect_gains tables h call
    simp only [linkCall, judgeCall, hkind]
    exact ⟨hgains.called (.inl hkind), hdoubts⟩
  | method =>
    obtain ⟨hgains, hdoubts⟩ := linkByReceiver_gains tables h call
    simp only [linkCall, judgeCall, hkind]
    exact ⟨hgains.called (.inr hkind), hdoubts⟩
  | decoratorCall =>
    obtain ⟨hgains, hdoubts⟩ := linkByReceiver_gains tables h call
    simp only [linkCall, judgeCall, hkind]
    exact ⟨hgains.decorating, hdoubts⟩
  | literalReceiver =>
    simp only [linkCall, judgeCall, hkind]
    rcases isBuiltin_adds tables h call.module call.name with hsame | ⟨hfew, hmany, hadded⟩
    · rw [hsame]
      exact ⟨.same, rfl⟩
    · simp only [hfew, hmany, Bool.false_eq_true, if_true, if_false]
      exact ⟨.onLiteral rfl rfl hadded, trivial⟩
  | constructor =>
    simp only [linkCall, judgeCall, hkind, linkConstructor_adds tables h]
    exact ⟨.same, trivial⟩
  | static | builtin | chained =>
    simp only [linkCall, judgeCall, hkind]
    exact ⟨.same, trivial⟩

end Linking

end Tables

/-! ### Whole units -/

/-- What becomes of the records of a unit when names are added to the builtins: some calls without a
target gain one. The statistics count the calls, so they are left out. -/
structure Snapshot.Gains (added : String → Prop) (r s : Snapshot) : Prop where
  modules : s.modules = r.modules
  symbols : s.symbols = r.symbols
  imports : s.imports = r.imports
  diagnostics : s.diagnostics = r.diagnostics
  calls : List.Forall₂ (CallEdge.Gains added) r.calls s.calls

/-- Linking the calls of the same tables with more builtins changes nothing but calls without a
target. -/
theorem Tables.linkCalls_gains (tables : Tables) {config more : ResolutionConfig}
    (h : config.AddsBuiltins more) :
    (Graph.ofTables (tables.linkCalls config)).records.Gains (config.Adds more)
      (Graph.ofTables (tables.linkCalls more)).records where
  -- Reflexivity is taken at the tables: the two graphs are not the same, only these parts of them.
  modules := Eq.refl tables.modules
  symbols := Eq.refl tables.symbols.toList
  imports := Eq.refl tables.imports
  diagnostics := by
    change (tables.linkCalls more).diagnostics = (tables.linkCalls config).diagnostics
    simp only [linkCalls_diagnostics, (linkCall_gains tables h _).2]
  calls := by
    change List.Forall₂ _ (tables.linkCalls config).calls (tables.linkCalls more).calls
    rw [linkCalls_calls, linkCalls_calls, List.forall₂_map_left_iff, List.forall₂_map_right_iff,
      List.forall₂_same]
    exact fun call _ => (linkCall_gains tables h call).1

/-- Of two configurations the second one adds builtins. Both refuse a list of files, or the graphs
differ only in calls without a target, which may have an added builtin as their target in the second
graph. -/
theorem extra_builtins_never_override (config more : ResolutionConfig)
    (h : config.AddsBuiltins more) (files : List FileFacts) :
    (files = [] ∧ resolveFacts config files = .error .emptyUnit ∧
        resolveFacts more files = .error .emptyUnit) ∨
      ∃ graph extended, resolveFacts config files = .ok graph ∧
        resolveFacts more files = .ok extended ∧
        graph.records.Gains (config.Adds more) extended.records := by
  by_cases hempty : files = []
  · subst hempty
    exact .inl ⟨rfl, rfl, rfl⟩
  · exact .inr ⟨_, _, (completedRun_of_ne_nil config hempty).resolves,
      (completedRun_of_ne_nil more hempty).resolves, Tables.linkCalls_gains _ h⟩

/-- A class that declares one of the names that its method calls; another name decorates the
method. -/
def tracedFile : FileFacts where
  path := ⟨"Trace.java"⟩
  language := .java
  declarations :=
    [{ name := "Trace", kind := .classLike, parent := none, visibility := .exposed },
      { name := "log", kind := .method, parent := some 0, visibility := .exposed },
      { name := "work", kind := .method, parent := some 0, visibility := .exposed }]
  calls :=
    [{ callee := "Timed", name := "Timed", receiver := none, kind := .decoratorCall
       decorates := some 2 },
      { callee := "log", name := "log", receiver := none, kind := .direct, caller := some 2 },
      { callee := "emit", name := "emit", receiver := none, kind := .direct, caller := some 2 }]

/-- Of three names that are added, the declared one keeps its meaning. -/
theorem extra_builtins_never_override_declared_name :
    let few : ResolutionConfig := { walkBases := false }
    let many : ResolutionConfig := { few with extraBuiltins := ["log", "emit", "Timed"] }
    few.AddsBuiltins many ∧
      ∃ graph extended, resolveFacts few [tracedFile] = .ok graph ∧
        resolveFacts many [tracedFile] = .ok extended ∧
        graph.records.Gains (few.Adds many) extended.records ∧
        graph.records.calls.map (fun c => (c.kind, c.target)) =
          [(.decoratorCall, .unresolved), (.direct, .symbol 1), (.direct, .unresolved)] ∧
        extended.records.calls.map (fun c => (c.kind, c.target)) =
          [(.decoratorCall, .builtin "Timed"), (.direct, .symbol 1),
            (.builtin, .builtin "emit")] := by
  intro few many
  have hadds : few.AddsBuiltins many := ⟨rfl, List.nil_subset _⟩
  rcases extra_builtins_never_override few many hadds [tracedFile] with
    ⟨hempty, _⟩ | ⟨graph, extended, hfew, hmany, hgains⟩
  · cases hempty
  · refine ⟨hadds, graph, extended, hfew, hmany, hgains, ?_⟩
    have hnonempty : [tracedFile] ≠ [] := List.cons_ne_nil _ _
    obtain rfl := Except.ok.inj (hfew.symm.trans (completedRun_of_ne_nil _ hnonempty).resolves)
    obtain rfl := Except.ok.inj (hmany.symm.trans (completedRun_of_ne_nil _ hnonempty).resolves)
    rw [Tables.ofFiles_singleton]
    decide +kernel

end CodeAtlas
