import CodeAtlas.Graph.Calls

/-!
# The routes by which calls are linked

A call is linked along one of a few routes. Its callee is looked up as a bare name; or its receiver
gives access to the members of a class or to the names of a module; or it is written as a
constructor call. Each route says which kind and target the call ends with, so what holds of every
linked call is shown route by route, without opening the functions that link.

On the way to a class the routes part: a class that is found by a bare name, in a module or by a
constructor call is *instantiated*, and the call goes to its initializer. A class that is found as a
member of another class is not.
-/

namespace CodeAtlas

namespace CallEdge

/-- Is the callee of the call looked up as a bare name? -/
def SearchesName (call : CallEdge) : Prop :=
  call.kind = .direct ∨ (call.kind = .method ∨ call.kind = .decoratorCall) ∧ call.receiver = none

/-- Is the call linked through its receiver? -/
def GoesThrough (call : CallEdge) (receiver : String) : Prop :=
  (call.kind = .method ∨ call.kind = .decoratorCall) ∧ call.receiver = some receiver

/-- The kind with which a call ends when its route asks for a kind: a decorator call stays one. -/
def settled (call : CallEdge) (kind : CallKind) : CallKind :=
  if call.kind = .decoratorCall then .decoratorCall else kind

end CallEdge

namespace Tables

/-! ### Initializers -/

/-- A function or method that initializes the instances of a class, which declares or inherits it
under one of the names for initializers. -/
structure Initializes (tables : Tables) (config : ResolutionConfig) (c t : Nat) : Prop where
  found : tables.initializer? config c = some t
  callable : tables.isCallable t = true
  member : ∃ s name, tables.symbols[c]? = some s ∧ name ∈ tables.initializerNames s ∧
    tables.member? config c name = some t

section Initializers

variable {tables : Tables} {config : ResolutionConfig} {c t : Nat}

/-- Whatever is taken as the initializer of a class initializes it. -/
theorem initializes_of_initializer? (h : tables.initializer? config c = some t) :
    tables.Initializes config c t := by
  obtain ⟨s, hs, hnames⟩ := Option.bind_eq_some_iff.mp h
  obtain ⟨name, hname, hfound⟩ := List.exists_of_findSome?_eq_some hnames
  obtain ⟨hmember, hcallable⟩ := Option.filter_eq_some_iff.mp hfound
  exact ⟨h, hcallable, s, name, hs, hname, hmember⟩

/-- What can be called as a function is no class. -/
theorem isClass_eq_false_of_isCallable (h : tables.isCallable t = true) :
    tables.isClass t = false := by
  obtain ⟨s, hs, hkind⟩ := (Option.any_eq_true _ _).mp h
  rw [isClass, hs, Option.any_some, Symbol.isClass]
  cases hs : s.kind <;> simp_all

/-- Constructing a class calls the class itself when it has no initializer, and its initializer
otherwise. -/
theorem initializer?_getD (tables : Tables) (config : ResolutionConfig) (c : Nat) :
    (tables.initializer? config c).getD c = c ∧ tables.initializer? config c = none ∨
      tables.Initializes config c ((tables.initializer? config c).getD c) := by
  cases hfound : tables.initializer? config c with
  | none => exact .inl ⟨rfl, rfl⟩
  | some i => exact .inr (initializes_of_initializer? hfound)

/-- When constructing a class calls some class, it is that class, and it has no initializer. -/
theorem initializer?_eq_none_of_isClass
    (h : tables.isClass ((tables.initializer? config c).getD c) = true) :
    (tables.initializer? config c).getD c = c ∧ tables.initializer? config c = none := by
  refine (tables.initializer?_getD config c).resolve_right fun hinit => ?_
  rw [isClass_eq_false_of_isCallable hinit.callable] at h
  cases h

end Initializers

/-! ### Routes -/

section Routes

variable (tables : Tables) (config : ResolutionConfig) (call : CallEdge)

/-- The receiver stands neither for the base classes nor for the instance itself. -/
def IsPlainReceiver (receiver : String) : Prop :=
  (tables.grammar call.module).isSuper receiver = false ∧
    (tables.grammar call.module).isSelf receiver = false ∧
    tables.isOwnReceiver call.caller receiver = false

/-- A call through a receiver selects a member of a class: of the class around the call, or of the
class that the receiver names. -/
inductive SelectsMember (receiver : String) : CallKind → Nat → Prop
  | inherited {c t : Nat} (hsuper : (tables.grammar call.module).isSuper receiver = true)
      (hclass : tables.enclosingClass? call.caller = some c)
      (hmember : tables.inherited? config c call.name = some t) :
      SelectsMember receiver .method t
  | own {c t : Nat} (hsuper : (tables.grammar call.module).isSuper receiver = false)
      (hself : (tables.grammar call.module).isSelf receiver = true ∨
        tables.isOwnReceiver call.caller receiver = true)
      (hclass : tables.enclosingClass? call.caller = some c)
      (hmember : tables.member? config c call.name = some t) :
      SelectsMember receiver .method t
  | ofClass {c t : Nat} (hplain : tables.IsPlainReceiver call receiver)
      (hmeans : (tables.lookupPath config call.module call.caller receiver).1 = .symbol c)
      (hclass : tables.isClass c = true) (hmember : tables.member? config c call.name = some t) :
      SelectsMember receiver .static t

/-- A call through a receiver that names a module means the first symbol with the name there. -/
structure SelectsInModule (receiver : String) (m id : Nat) : Prop where
  plain : tables.IsPlainReceiver call receiver
  means : (tables.lookupPath config call.module call.caller receiver).1 = .module m
  first : (tables.topLevelNamed m call.name).head? = some id

/-- A constructor call names a class: the class around it, the first base class of that, or the
class that the callee means. -/
inductive Constructs : Nat → Prop
  | own {c : Nat} (hself : (tables.grammar call.module).isSelf call.callee = true)
      (hclass : tables.enclosingClass? call.caller = some c) : Constructs c
  | base {c b : Nat} (hself : (tables.grammar call.module).isSelf call.callee = false)
      (hsuper : (tables.grammar call.module).isSuper call.callee = true)
      (hclass : tables.enclosingClass? call.caller = some c)
      (hbase : (tables.baseClasses c).head? = some b) : Constructs b
  | named {c : Nat} (hself : (tables.grammar call.module).isSelf call.callee = false)
      (hsuper : (tables.grammar call.module).isSuper call.callee = false)
      (hmeans : (tables.lookupPath config call.module call.caller call.callee).1 = .symbol c)
      (hclass : tables.isClass c = true) : Constructs c

/-- A call instantiates a class: its callee means the class by a bare name, as a name of a module or
in a constructor call. -/
inductive Instantiates : Nat → Prop
  | byName {c : Nat} (hname : call.SearchesName)
      (hmeans : (tables.lookupName config call.module call.caller call.callee).1 = .symbol c)
      (hclass : tables.isClass c = true) : Instantiates c
  | inModule {receiver : String} {m c : Nat} (hthrough : call.GoesThrough receiver)
      (hselects : tables.SelectsInModule config call receiver m c)
      (hclass : tables.isClass c = true) : Instantiates c
  | explicitly {c : Nat} (hkind : call.kind = .constructor)
      (hconstructs : tables.Constructs config call c) : Instantiates c

/-- The kind and the target with which a call ends, route by route. -/
inductive Route : CallKind → CallTarget → Prop
  | instantiation {c : Nat} (hclass : tables.Instantiates config call c) :
      Route (call.settled .constructor) (.symbol ((tables.initializer? config c).getD c))
  | name {id : Nat} (hname : call.SearchesName)
      (hmeans : (tables.lookupName config call.module call.caller call.callee).1 = .symbol id)
      (hother : tables.isClass id = false) : Route call.kind (.symbol id)
  | member {receiver : String} {kind : CallKind} {t : Nat} (hthrough : call.GoesThrough receiver)
      (hselects : tables.SelectsMember config call receiver kind t) :
      Route (call.settled kind) (.symbol t)
  | function {receiver : String} {m id : Nat} (hthrough : call.GoesThrough receiver)
      (hselects : tables.SelectsInModule config call receiver m id)
      (hother : tables.isClass id = false) : Route (call.settled .static) (.symbol id)
  | externalName {name : String} (hname : call.SearchesName) : Route call.kind (.external name)
  | externalMember {receiver name : String} (hthrough : call.GoesThrough receiver) :
      Route (call.settled .static) (.external name)
  | externalClass {name : String} (hkind : call.kind = .constructor) :
      Route .constructor (.external name)
  | builtin {name : String}
      (hkind : call.kind = .direct ∨ call.kind = .method ∨ call.kind = .decoratorCall) :
      Route (call.settled .builtin) (.builtin name)
  | literal (hkind : call.kind = .literalReceiver)
      (hbuiltin : tables.isBuiltin config call.module call.name = true) :
      Route .literalReceiver (.builtin call.name)
  | unknownLiteral (hkind : call.kind = .literalReceiver)
      (hbuiltin : tables.isBuiltin config call.module call.name = false) :
      Route .literalReceiver .unresolved
  | unknownMember {receiver : String} {kind : CallKind} (hthrough : call.GoesThrough receiver)
      (hkind : kind = .method ∨ kind = .static) : Route (call.settled kind) .unresolved
  | unknown (hkind : call.kind ≠ .literalReceiver) : Route call.kind .unresolved

end Routes

section Linking

variable {tables : Tables} {config : ResolutionConfig} {call : CallEdge}

/-- A call ends with its own kind when its route asks for that. -/
theorem settled_self (call : CallEdge) : call.settled call.kind = call.kind := by
  rw [CallEdge.settled]
  split
  · exact (‹call.kind = .decoratorCall›).symm
  · rfl

/-- Only decorator calls do not end with the kind that their route asks for. -/
theorem settled_of_ne (hkind : call.kind ≠ .decoratorCall) (kind : CallKind) :
    call.settled kind = kind := if_neg hkind

/-- A call that does not end as a decorator call ends with the kind that its route asks for. -/
theorem eq_of_settled {kind ending : CallKind} (h : call.settled kind = ending)
    (hending : ending ≠ .decoratorCall) : kind = ending := by
  rw [CallEdge.settled] at h
  split at h
  · exact absurd h.symm hending
  · exact h

/-- A call whose callee is looked up as a bare name follows a route. -/
theorem linkDirect_route (tables : Tables) (config : ResolutionConfig)
    (hname : call.SearchesName) :
    tables.Route config call (call.settled (tables.linkDirect config call).1.1)
      (tables.linkDirect config call).1.2 := by
  have hkind : call.kind = .direct ∨ call.kind = .method ∨ call.kind = .decoratorCall :=
    hname.imp_right And.left
  have hliteral : call.kind ≠ .literalReceiver := by
    rcases hkind with h | h | h <;> simp [h]
  rw [linkDirect]
  dsimp only
  split
  · rename_i id hmeans
    split
    · exact .instantiation (.byName hname hmeans ‹_›)
    · rw [settled_self]
      exact .name hname hmeans (Bool.eq_false_iff.mpr ‹_›)
  · rw [settled_self]
    exact .externalName hname
  · exact .builtin hkind
  · rw [settled_self]
    exact .unknown hliteral
  · rw [settled_self]
    exact .unknown hliteral

/-- A member that may not have been found gives a route all the same. -/
theorem targetOf_route {receiver : String} {kind : CallKind} {found : Option Nat}
    (hthrough : call.GoesThrough receiver) (hkind : kind = .method ∨ kind = .static)
    (hfound : ∀ t, found = some t → tables.SelectsMember config call receiver kind t) :
    tables.Route config call (call.settled kind) (targetOf found) := by
  cases found with
  | none => exact .unknownMember hthrough hkind
  | some t => exact .member hthrough (hfound t rfl)

/-- A call through a receiver with a meaning follows a route. -/
theorem linkQualified_route {receiver : String} (hthrough : call.GoesThrough receiver)
    (hplain : tables.IsPlainReceiver call receiver) {meaning : Meaning}
    (hmeans : (tables.lookupPath config call.module call.caller receiver).1 = meaning) :
    tables.Route config call (call.settled (tables.linkQualified config call meaning).1)
      (tables.linkQualified config call meaning).2 := by
  cases meaning with
  | symbol c =>
    rw [linkQualified]
    split
    · rename_i hclass
      exact targetOf_route hthrough (.inr rfl) fun t ht => .ofClass hplain hmeans hclass ht
    · exact .unknownMember hthrough (.inl rfl)
  | module m =>
    rw [linkQualified, linkInModule]
    split
    · rename_i id hfirst
      split
      · exact .instantiation (.inModule hthrough ⟨hplain, hmeans, hfirst⟩ ‹_›)
      · exact .function hthrough ⟨hplain, hmeans, hfirst⟩ (Bool.eq_false_iff.mpr ‹_›)
    · exact .unknownMember hthrough (.inr rfl)
  | external name => exact .externalMember hthrough
  | builtin _ | unknown =>
    simp only [linkQualified]
    split
    · exact .builtin (.inr hthrough.1)
    · exact .unknownMember hthrough (.inl rfl)

/-- A call through a receiver follows a route. -/
theorem linkMember_route (tables : Tables) (config : ResolutionConfig) {receiver : String}
    (hthrough : call.GoesThrough receiver) :
    tables.Route config call (call.settled (tables.linkMember config call receiver).1.1)
      (tables.linkMember config call receiver).1.2 := by
  rw [linkMember]
  dsimp only
  split
  · rename_i hsuper
    refine targetOf_route hthrough (.inl rfl) fun t ht => ?_
    obtain ⟨c, hclass, hmember⟩ := Option.bind_eq_some_iff.mp ht
    exact .inherited hsuper hclass hmember
  · rename_i hsuper
    have hsuper := Bool.eq_false_iff.mpr hsuper
    split
    · rename_i hself
      refine targetOf_route hthrough (.inl rfl) fun t ht => ?_
      obtain ⟨c, hclass, hmember⟩ := Option.bind_eq_some_iff.mp ht
      exact .own hsuper (Bool.or_eq_true_iff.mp hself) hclass hmember
    · rename_i hself
      obtain ⟨hself, hown⟩ := Bool.or_eq_false_iff.mp (Bool.eq_false_iff.mpr hself)
      exact linkQualified_route hthrough ⟨hsuper, hself, hown⟩ rfl

/-- A call that is linked by its receiver, if it has one, follows a route. -/
theorem linkByReceiver_route (tables : Tables) (config : ResolutionConfig)
    (hkind : call.kind = .method ∨ call.kind = .decoratorCall) :
    tables.Route config call (call.settled (tables.linkByReceiver config call).1.1)
      (tables.linkByReceiver config call).1.2 := by
  rw [linkByReceiver]
  split
  · rename_i receiver hreceiver
    exact linkMember_route tables config ⟨hkind, hreceiver⟩
  · rename_i hreceiver
    exact linkDirect_route tables config (.inr ⟨hkind, hreceiver⟩)

/-- A constructor call follows a route. -/
theorem linkConstructor_route (hkind : call.kind = .constructor) :
    tables.Route config call .constructor (tables.linkConstructor config call).1 := by
  have hsettled : call.settled .constructor = .constructor := settled_of_ne (by simp [hkind]) _
  have hunknown : tables.Route config call .constructor .unresolved :=
    hkind ▸ .unknown (by simp [hkind])
  have hconstructed : ∀ found : Option Nat,
      (∀ c, found = some c → tables.Constructs config call c) →
        tables.Route config call .constructor
          (found.elim .unresolved (tables.constructorTarget config)) := by
    intro found hfound
    cases found with
    | none => exact hunknown
    | some c => exact hsettled ▸ .instantiation (.explicitly hkind (hfound c rfl))
  rw [linkConstructor]
  dsimp only
  split
  · exact hconstructed _ fun c hclass => .own ‹_› hclass
  · rename_i hself
    have hself := Bool.eq_false_iff.mpr hself
    split
    · refine hconstructed _ fun b hb => ?_
      obtain ⟨c, hclass, hbase⟩ := Option.bind_eq_some_iff.mp hb
      exact .base hself ‹_› hclass hbase
    · rename_i hsuper
      have hsuper := Bool.eq_false_iff.mpr hsuper
      split
      · rename_i id hmeans
        refine hconstructed _ fun c hc => ?_
        obtain ⟨rfl, hclass⟩ : id = c ∧ tables.isClass c = true := by
          simpa [and_comm] using hc
        exact .named hself hsuper hmeans hclass
      · exact .externalClass hkind
      · exact hunknown

/-- Every call follows a route. -/
theorem judgeCall_route (tables : Tables) (config : ResolutionConfig) (call : CallEdge) :
    tables.Route config call (tables.judgeCall config call).1.1
      (tables.judgeCall config call).1.2 := by
  rw [judgeCall]
  split
  · rename_i hkind
    have hroute := linkDirect_route tables config (.inl hkind)
    rwa [settled_of_ne (by simp [hkind])] at hroute
  · rename_i hkind
    have hroute := linkByReceiver_route tables config (.inl hkind)
    rwa [settled_of_ne (by simp [hkind])] at hroute
  · exact linkConstructor_route ‹_›
  · rename_i hkind
    have hroute := linkByReceiver_route tables config (.inr hkind)
    rwa [CallEdge.settled, if_pos hkind] at hroute
  · rename_i hkind
    split
    · exact .literal hkind ‹_›
    · exact .unknownLiteral hkind (Bool.eq_false_iff.mpr ‹_›)
  · rename_i hliteral
    exact .unknown hliteral

end Linking

end Tables

end CodeAtlas
