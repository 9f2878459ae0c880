import CodeAtlas.Graph.Calls

/-!
# Where looking names up can lead

Looking a name up starts at a module and a scope and moves in small steps: to the symbols at the
level of a module, to a submodule, to the children or the parent of a symbol, to the module of a
symbol, or along the binding of an import. A choice of modules and symbols that is closed under these
steps contains everything that is found from within it, the targets of calls included. The argument
never looks at which choice it is: records that exist, records of one ecosystem and records
reachable by imports are all closed.
-/

namespace CodeAtlas

/-- Does a meaning stay within the chosen modules and symbols? -/
def Meaning.Within (M S : Nat → Prop) : Meaning → Prop
  | .symbol id => S id
  | .module id => M id
  | .external _ | .builtin _ | .unknown => True

/-- Does the target of a call stay within the chosen symbols? -/
def CallTarget.Within (S : Nat → Prop) (target : CallTarget) : Prop :=
  ∀ id, target = .symbol id → S id

/-- A target that is no symbol stays within. -/
theorem within_of_no_symbol {S : Nat → Prop} {target : CallTarget} (h : target.symbol? = none) :
    target.Within S := by
  rintro id rfl
  cases h

/-- A symbol within is a target within. -/
theorem within_symbol {S : Nat → Prop} {id : Nat} (hid : S id) : (CallTarget.symbol id).Within S := by
  rintro _ ⟨⟩
  exact hid

/-- A target that may not have been found stays within. -/
theorem targetOf_within {S : Nat → Prop} {found : Option Nat}
    (hfound : ∀ id, found = some id → S id) : (Tables.targetOf found).Within S := by
  cases found with
  | none => exact within_of_no_symbol rfl
  | some id => exact within_symbol (hfound id rfl)

/-- What the first list with members offers has every property that all lists have. -/
theorem Tables.firstNonEmpty_forall {P : Nat → Prop} {lists : List (List Nat)}
    (h : ∀ hits ∈ lists, ∀ id ∈ hits, P id) : ∀ id ∈ firstNonEmpty lists, P id := by
  induction lists with
  | nil => simp [firstNonEmpty]
  | cons hits rest ih =>
    rw [firstNonEmpty]
    split
    · exact ih fun other hother => h other (List.mem_cons_of_mem _ hother)
    · exact h hits List.mem_cons_self

/-- What a search meets has every property that the stack has and that successors inherit. -/
theorem preorder_forall {P : Nat → Prop} (next : Nat → List Nat)
    (hnext : ∀ x, P x → ∀ y ∈ next x, P y) (fresh stack : List Nat) (hstack : ∀ x ∈ stack, P x) :
    ∀ x ∈ preorder next fresh stack, P x := by
  induction fresh, stack using preorder.induct next with
  | case1 fresh => simp [preorder]
  | case2 fresh x rest hfresh ih =>
    rw [preorder, if_pos hfresh]
    have hx : P x := hstack x List.mem_cons_self
    intro y hy
    rcases List.mem_cons.mp hy with rfl | hy
    · exact hx
    · refine ih (fun z hz => ?_) y hy
      rcases List.mem_append.mp hz with hz | hz
      · exact hnext x hx z hz
      · exact hstack z (List.mem_cons_of_mem _ hz)
  | case3 fresh x rest hfresh ih =>
    rw [preorder, if_neg hfresh]
    exact ih fun z hz => hstack z (List.mem_cons_of_mem _ hz)

namespace Tables

/-- The chosen modules and symbols are closed under the steps of a look-up. -/
structure Closed (tables : Tables) (M S : Nat → Prop) : Prop where
  topLevel : ∀ m, M m → ∀ id ∈ tables.topLevel m, S id
  submodule : ∀ m name sub, M m → tables.submodule? m name = some sub → M sub
  children : ∀ id s, S id → tables.symbols[id]? = some s → ∀ c ∈ s.children, S c
  parent : ∀ id s p, S id → tables.symbols[id]? = some s → s.parent = some p → S p
  ownModule : ∀ id s, S id → tables.symbols[id]? = some s → M s.module
  boundSymbol : ∀ e ∈ tables.imports, M e.module → ∀ id, e.binding = some (.symbol id) → S id
  boundModule : ∀ e ∈ tables.imports, M e.module → ∀ id, e.binding = some (.module id) → M id

namespace Closed

variable {tables : Tables} {M S : Nat → Prop} (h : tables.Closed M S)
include h

/-- Named symbols at the level of a module stay within. -/
theorem topLevelNamed {m : Nat} (hm : M m) (name : String) :
    ∀ id ∈ tables.topLevelNamed m name, S id :=
  fun id hid => h.topLevel m hm id ((List.mem_filter.mp hid).1)

/-- Named children of a symbol stay within. -/
theorem childrenNamed {id : Nat} (hid : S id) (name : String) :
    ∀ c ∈ tables.childrenNamed id name, S c := by
  intro c hc
  have hmem := (List.mem_filter.mp hc).1
  cases hs : tables.symbols[id]? with
  | none => simp [hs] at hmem
  | some s =>
    rw [hs] at hmem
    exact h.children id s hid hs c hmem

/-- The first child with a name stays within. -/
theorem childNamed {id child : Nat} (hid : S id) {name : String}
    (hchild : tables.childNamed? id name = some child) : S child := by
  have hmem : child ∈ tables.childrenNamed id name :=
    List.mem_filter.mpr ⟨List.mem_of_find?_eq_some hchild, List.find?_some hchild⟩
  exact h.childrenNamed hid name child hmem

/-- The scopes around a place stay within. -/
theorem outwards (limit : Nat) (start : Option Nat) (hstart : ∀ id, start = some id → S id) :
    ∀ id ∈ tables.outwards limit start, S id := by
  induction limit generalizing start with
  | zero => simp [Tables.outwards]
  | succ limit ih =>
    cases start with
    | none => simp [Tables.outwards]
    | some first =>
      have hfirst : S first := hstart first rfl
      intro id hid
      rcases List.mem_cons.mp hid with rfl | hid
      · exact hfirst
      · refine ih _ (fun p hp => ?_) id hid
        obtain ⟨s, hs, hparent⟩ := Option.bind_eq_some_iff.mp hp
        exact h.parent first s p hfirst hs hparent

/-- The chain of scopes around a place stays within. -/
theorem scopeChain {caller : Option Nat} (hcaller : ∀ id, caller = some id → S id) :
    ∀ id ∈ tables.scopeChain caller, S id := h.outwards _ caller hcaller

/-- The class around a place stays within. -/
theorem enclosingClass {caller : Option Nat} (hcaller : ∀ id, caller = some id → S id) {id : Nat}
    (hid : tables.enclosingClass? caller = some id) : S id :=
  h.scopeChain hcaller id (List.mem_of_find?_eq_some hid)

/-- What an alias stands for stays within. -/
theorem aliasMeaning {m : Nat} (hm : M m) {localName : String} {meaning : Meaning}
    (hmeaning : tables.aliasMeaning? m localName = some meaning) : meaning.Within M S := by
  obtain ⟨e, hedge, rfl⟩ := Option.map_eq_some_iff.mp hmeaning
  have hmem := List.mem_of_find?_eq_some hedge
  have hmodule : e.module = m := by
    have hfound := List.find?_some hedge
    simp only [Bool.and_eq_true, beq_iff_eq] at hfound
    exact hfound.1.1
  rw [meaningOf]
  split
  · exact h.boundSymbol e hmem (hmodule ▸ hm) _ ‹_›
  · exact h.boundModule e hmem (hmodule ▸ hm) _ ‹_›
  · trivial
  · trivial

/-- What the longest alias stands for stays within. -/
theorem longestAlias {m : Nat} (hm : M m) {segments rest : List String} {meaning : Meaning}
    (hfound : tables.longestAlias? m segments = some (meaning, rest)) : meaning.Within M S := by
  rw [longestAlias?] at hfound
  generalize segments.length = length at hfound
  induction length with
  | zero => simp [longestAliasUpTo] at hfound
  | succ length ih =>
    rw [longestAliasUpTo] at hfound
    split at hfound
    · obtain ⟨rfl, _⟩ := Prod.mk.inj (Option.some.inj hfound)
      exact h.aliasMeaning hm ‹_›
    · exact ih hfound

/-- A segment after a module stays within. -/
theorem memberOfModule {m : Nat} (hm : M m) (segment : String) :
    (tables.memberOfModule m segment).Within M S := by
  rw [Tables.memberOfModule]
  split
  · exact h.submodule m segment _ hm ‹_›
  · cases hhead : (tables.topLevelNamed m segment).head? with
    | none => trivial
    | some id => exact h.topLevelNamed hm segment id (List.mem_of_mem_head? hhead)

/-- A segment after the name of a base class stays within. -/
theorem baseStep {meaning : Meaning} (hmeaning : meaning.Within M S) (segment : String) :
    (tables.baseStep meaning segment).Within M S := by
  cases meaning with
  | symbol id =>
    rw [Tables.baseStep]
    split
    · cases hchild : tables.childNamed? id segment with
      | none => trivial
      | some child => exact h.childNamed hmeaning hchild
    · trivial
  | module m => exact h.memberOfModule hmeaning segment
  | external _ | builtin _ | unknown => trivial

/-- All segments after the name of a base class stay within. -/
theorem foldl_baseStep (segments : List String) {meaning : Meaning}
    (hmeaning : meaning.Within M S) : (segments.foldl tables.baseStep meaning).Within M S := by
  induction segments generalizing meaning with
  | nil => exact hmeaning
  | cons segment segments ih => exact ih (h.baseStep hmeaning segment)

/-- The symbol that the name of a base class means stays within. -/
theorem baseNamed {m : Nat} (hm : M m) {scope : Option Nat} (hscope : ∀ id, scope = some id → S id)
    {path : String} {id : Nat} (hid : tables.baseNamed? m scope path = some id) : S id := by
  rw [baseNamed?] at hid
  split at hid
  · cases hid
  · rename_i first rest _
    dsimp only at hid
    split at hid
    · cases hid
    · rename_i meaning remaining hstart
      have hmeaning : meaning.Within M S := by
        rcases Option.or_eq_some_iff.mp hstart with hlocal | ⟨_, halias⟩
        · obtain ⟨declared, hdeclared, heq⟩ := Option.map_eq_some_iff.mp hlocal
          obtain ⟨rfl, _⟩ := Prod.mk.inj heq
          rcases Option.or_eq_some_iff.mp hdeclared with haround | ⟨_, htop⟩
          · obtain ⟨s, hs, hchild⟩ := List.exists_of_findSome?_eq_some haround
            exact h.childNamed (h.scopeChain hscope s hs) hchild
          · exact h.topLevelNamed hm first declared (List.mem_of_mem_head? htop)
        · exact h.longestAlias hm halias
      have hend := h.foldl_baseStep remaining hmeaning
      split at hid
      · rename_i found hfound
        rw [hfound] at hend
        exact Option.some.inj hid ▸ hend
      · cases hid

/-- The base classes of a class stay within. -/
theorem baseClasses {id : Nat} (hid : S id) : ∀ base ∈ tables.baseClasses id, S base := by
  intro base hbase
  rw [Tables.baseClasses] at hbase
  split at hbase
  · simp at hbase
  · rename_i s hs
    obtain ⟨hmem, _⟩ := List.mem_filter.mp hbase
    obtain ⟨path, _, hpath⟩ := List.mem_filterMap.mp hmem
    exact h.baseNamed (h.ownModule id s hid hs) (fun p hp => h.parent id s p hid hs hp) hpath

/-- The classes from which a class inherits stay within. -/
theorem ancestors {id : Nat} (hid : S id) : ∀ ancestor ∈ tables.ancestors id, S ancestor :=
  preorder_forall tables.baseClasses (fun _ hx => h.baseClasses hx) _ _ (h.baseClasses hid)

/-- An inherited member stays within. -/
theorem inherited {config : ResolutionConfig} {id member : Nat} (hid : S id) {name : String}
    (hmember : tables.inherited? config id name = some member) : S member := by
  rw [inherited?] at hmember
  split at hmember
  · obtain ⟨ancestor, hancestor, hchild⟩ := List.exists_of_findSome?_eq_some hmember
    exact h.childNamed (h.ancestors hid ancestor hancestor) hchild
  · cases hmember

/-- A declared or inherited member stays within. -/
theorem member {config : ResolutionConfig} {id member : Nat} (hid : S id) {name : String}
    (hmember : tables.member? config id name = some member) : S member := by
  rcases Option.or_eq_some_iff.mp hmember with hchild | ⟨_, hinherited⟩
  · exact h.childNamed hid hchild
  · exact h.inherited hid hinherited

/-- The initializer of a class stays within. -/
theorem initializer {config : ResolutionConfig} {id found : Nat} (hid : S id)
    (hfound : tables.initializer? config id = some found) : S found := by
  obtain ⟨s, _, hnames⟩ := Option.bind_eq_some_iff.mp hfound
  obtain ⟨name, _, hmember⟩ := List.exists_of_findSome?_eq_some hnames
  exact h.member hid (Option.filter_eq_some_iff.mp hmember).1

/-- What constructing a class calls stays within. -/
theorem constructorTarget (config : ResolutionConfig) {id : Nat} (hid : S id) :
    (tables.constructorTarget config id).Within S := by
  intro target htarget
  rw [Tables.constructorTarget, CallTarget.symbol.injEq] at htarget
  cases hfound : tables.initializer? config id with
  | none => simpa [hfound, ← htarget] using hid
  | some found =>
    rw [hfound, Option.getD_some] at htarget
    exact htarget ▸ h.initializer hid hfound

/-- What a scope offers under a name stays within. -/
theorem scopeHits (config : ResolutionConfig) (name : String) {scope : Nat} (hscope : S scope) :
    ∀ id ∈ tables.scopeHits config name scope, S id := by
  intro id hid
  rw [Tables.scopeHits] at hid
  split at hid
  · exact h.inherited hscope (Option.mem_toList.mp hid)
  · exact h.childrenNamed hscope name id hid

/-- What the nearest scope with a name offers stays within. -/
theorem localHits (config : ResolutionConfig) {m : Nat} (hm : M m) {caller : Option Nat}
    (hcaller : ∀ id, caller = some id → S id) (name : String) :
    ∀ id ∈ tables.localHits config m caller name, S id := by
  refine firstNonEmpty_forall fun hits hhits => ?_
  rcases List.mem_append.mp hhits with haround | htop
  · obtain ⟨scope, hscope, rfl⟩ := List.mem_map.mp haround
    exact h.scopeHits config name (h.scopeChain hcaller scope hscope)
  · rw [List.mem_singleton.mp htop]
    exact h.topLevelNamed hm name

/-- The symbol that a name means by declarations alone stays within. -/
theorem lookupLocal (config : ResolutionConfig) {m : Nat} (hm : M m) {caller : Option Nat}
    (hcaller : ∀ id, caller = some id → S id) {name : String} {id : Nat}
    (hid : (tables.lookupLocal config m caller name).1 = some id) : S id :=
  h.localHits config hm hcaller name id (List.mem_of_mem_head? hid)

/-- What a bare name means stays within. -/
theorem lookupName (config : ResolutionConfig) {m : Nat} (hm : M m) {caller : Option Nat}
    (hcaller : ∀ id, caller = some id → S id) (name : String) :
    (tables.lookupName config m caller name).1.Within M S := by
  rw [Tables.lookupName]
  split
  rename_i found doubts hlocal
  split
  · exact h.lookupLocal config hm hcaller (congrArg Prod.fst hlocal)
  · split
    · exact h.aliasMeaning hm ‹_›
    · split <;> trivial

/-- A segment of a qualified name stays within. -/
theorem pathStep (config : ResolutionConfig) (m : Nat) {meaning : Meaning}
    (hmeaning : meaning.Within M S) (segment : String) :
    (tables.pathStep config m meaning segment).Within M S := by
  cases meaning with
  | symbol id =>
    rw [Tables.pathStep]
    split
    · cases hmember : tables.member? config id segment with
      | none => trivial
      | some member => exact h.member hmeaning hmember
    · trivial
  | module other => exact h.memberOfModule hmeaning segment
  | external _ | builtin _ | unknown => trivial

/-- All segments of a qualified name stay within. -/
theorem foldl_pathStep (config : ResolutionConfig) (m : Nat) (segments : List String)
    {meaning : Meaning} (hmeaning : meaning.Within M S) :
    (segments.foldl (tables.pathStep config m) meaning).Within M S := by
  induction segments generalizing meaning with
  | nil => exact hmeaning
  | cons segment segments ih => exact ih (h.pathStep config m hmeaning segment)

/-- What a qualified name means stays within. -/
theorem lookupPath (config : ResolutionConfig) {m : Nat} (hm : M m) {caller : Option Nat}
    (hcaller : ∀ id, caller = some id → S id) (path : String) :
    (tables.lookupPath config m caller path).1.Within M S := by
  rw [Tables.lookupPath]
  split
  · trivial
  · split
    · trivial
    · dsimp only
      split
      · exact h.foldl_pathStep config m _ (h.lookupLocal config hm hcaller ‹_›)
      · exact h.foldl_pathStep config m _ (h.longestAlias hm ‹_›)
      · split <;> trivial

/-- The target of a call without a receiver stays within. -/
theorem linkDirect (config : ResolutionConfig) (call : CallEdge) (hm : M call.module)
    (hcaller : ∀ id, call.caller = some id → S id) :
    (tables.linkDirect config call).1.2.Within S := by
  have hmeaning := h.lookupName config hm hcaller call.callee
  rw [Tables.linkDirect]
  dsimp only
  split
  · rename_i id hid
    rw [hid] at hmeaning
    split
    · exact h.constructorTarget config hmeaning
    · exact within_symbol hmeaning
  all_goals exact within_of_no_symbol rfl

/-- The target of a call of a name of a module stays within. -/
theorem linkInModule (config : ResolutionConfig) {m : Nat} (hm : M m) (name : String) :
    (tables.linkInModule config m name).2.Within S := by
  rw [Tables.linkInModule]
  split
  · rename_i id hid
    have hin : S id := h.topLevelNamed hm name id (List.mem_of_mem_head? hid)
    split
    · exact h.constructorTarget config hin
    · exact within_symbol hin
  · exact within_of_no_symbol rfl

/-- The target of a call whose receiver has a meaning within stays within. -/
theorem linkQualified (config : ResolutionConfig) (call : CallEdge) {meaning : Meaning}
    (hmeaning : meaning.Within M S) : (tables.linkQualified config call meaning).2.Within S := by
  cases meaning with
  | symbol id =>
    simp only [Tables.linkQualified]
    split
    · exact targetOf_within fun _ hmember => h.member hmeaning hmember
    · exact within_of_no_symbol rfl
  | module m => exact h.linkInModule config hmeaning call.name
  | external name => exact within_of_no_symbol rfl
  | builtin _ | unknown =>
    simp only [Tables.linkQualified]
    split <;> exact within_of_no_symbol rfl

/-- The target of a call with a receiver stays within. -/
theorem linkMember (config : ResolutionConfig) (call : CallEdge) (receiver : String)
    (hm : M call.module) (hcaller : ∀ id, call.caller = some id → S id) :
    (tables.linkMember config call receiver).1.2.Within S := by
  rw [Tables.linkMember]
  dsimp only
  split
  · refine targetOf_within fun id hid => ?_
    obtain ⟨c, hc, hinherited⟩ := Option.bind_eq_some_iff.mp hid
    exact h.inherited (h.enclosingClass hcaller hc) hinherited
  · split
    · refine targetOf_within fun id hid => ?_
      obtain ⟨c, hc, hmember⟩ := Option.bind_eq_some_iff.mp hid
      exact h.member (h.enclosingClass hcaller hc) hmember
    · exact h.linkQualified config call (h.lookupPath config hm hcaller receiver)

/-- The target of a call stays within, with or without a receiver. -/
theorem linkByReceiver (config : ResolutionConfig) (call : CallEdge) (hm : M call.module)
    (hcaller : ∀ id, call.caller = some id → S id) :
    (tables.linkByReceiver config call).1.2.Within S := by
  rw [Tables.linkByReceiver]
  split
  · exact h.linkMember config call _ hm hcaller
  · exact h.linkDirect config call hm hcaller

/-- The target of an explicit constructor call stays within. -/
theorem linkConstructor (config : ResolutionConfig) (call : CallEdge) (hm : M call.module)
    (hcaller : ∀ id, call.caller = some id → S id) :
    (tables.linkConstructor config call).1.Within S := by
  have hconstructed : ∀ found : Option Nat, (∀ id, found = some id → S id) →
      CallTarget.Within S (found.elim .unresolved (tables.constructorTarget config)) := by
    intro found hfound
    cases found with
    | none => exact within_of_no_symbol rfl
    | some id => exact h.constructorTarget config (hfound id rfl)
  have hmeaning := h.lookupPath config hm hcaller call.callee
  rw [Tables.linkConstructor]
  dsimp only
  split
  · exact hconstructed _ fun id hid => h.enclosingClass hcaller hid
  · split
    · refine hconstructed _ fun id hid => ?_
      obtain ⟨c, hc, hbase⟩ := Option.bind_eq_some_iff.mp hid
      exact h.baseClasses (h.enclosingClass hcaller hc) id (List.mem_of_mem_head? hbase)
    · split
      · rename_i id hid
        rw [hid] at hmeaning
        refine hconstructed _ fun other hother => ?_
        obtain ⟨rfl, _⟩ := by simpa using hother
        exact hmeaning
      · exact within_of_no_symbol rfl
      · exact within_of_no_symbol rfl

/-- The target of every call that starts within stays within. -/
theorem judgeCall (config : ResolutionConfig) (call : CallEdge) (hm : M call.module)
    (hcaller : ∀ id, call.caller = some id → S id) :
    (tables.judgeCall config call).1.2.Within S := by
  rw [Tables.judgeCall]
  split
  · exact h.linkDirect config call hm hcaller
  · exact h.linkByReceiver config call hm hcaller
  · exact h.linkConstructor config call hm hcaller
  · exact h.linkByReceiver config call hm hcaller
  · split
    · exact within_of_no_symbol rfl
    · exact within_of_no_symbol rfl
  · exact within_of_no_symbol rfl

end Closed

end Tables

end CodeAtlas
