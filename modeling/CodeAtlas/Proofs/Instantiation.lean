import CodeAtlas.Proofs.CallKinds

/-!
# Instantiating a class

A call that means a class by a bare name, as a name of a module or in a constructor call is a
constructor call, and it leads to the initializer that the class declares or inherits. So a call
that leads to a class is a constructor call, and the class has no initializer, with one exception: a
class that is selected as a member of another class is called like any other member. There the call
keeps the kind of a member call and leads to the class itself, also past an initializer.
-/

namespace CodeAtlas

namespace Tables

variable {tables : Tables} {config : ResolutionConfig} {call : CallEdge}

/-- A bare name of a class is linked to the initializer of the class. -/
theorem linkDirect_of_class {c : Nat}
    (hmeans : (tables.lookupName config call.module call.caller call.callee).1 = .symbol c)
    (hclass : tables.isClass c = true) :
    (tables.linkDirect config call).1 =
      (.constructor, .symbol ((tables.initializer? config c).getD c)) := by
  rw [linkDirect]
  dsimp only
  rw [hmeans]
  dsimp only
  rw [if_pos hclass, constructorTarget]

/-- A plain receiver is looked up as a qualified name. -/
theorem linkMember_of_plain {receiver : String} (hplain : tables.IsPlainReceiver call receiver) :
    (tables.linkMember config call receiver).1 =
      tables.linkQualified config call
        (tables.lookupPath config call.module call.caller receiver).1 := by
  obtain ⟨hsuper, hself, hown⟩ := hplain
  simp [linkMember, hsuper, hself, hown]

/-- A class of a module is linked to the initializer of the class. -/
theorem linkMember_of_selectsInModule {receiver : String} {m c : Nat}
    (hselects : tables.SelectsInModule config call receiver m c)
    (hclass : tables.isClass c = true) :
    (tables.linkMember config call receiver).1 =
      (.constructor, .symbol ((tables.initializer? config c).getD c)) := by
  rw [linkMember_of_plain hselects.plain, hselects.means]
  simp [linkQualified, linkInModule, hselects.first, hclass, constructorTarget]

/-- A member of a class is linked to the member itself. -/
theorem linkMember_of_selectsMember {receiver : String} {kind : CallKind} {t : Nat}
    (hselects : tables.SelectsMember config call receiver kind t) :
    (tables.linkMember config call receiver).1 = (kind, .symbol t) := by
  cases hselects with
  | inherited hsuper hclass hmember =>
    simp [linkMember, hsuper, hclass, hmember, targetOf]
  | own hsuper hself hclass hmember =>
    have hself := Bool.or_eq_true_iff.mpr hself
    simp [linkMember, hsuper, hself, hclass, hmember, targetOf]
  | ofClass hplain hmeans hclass hmember =>
    rw [linkMember_of_plain hplain, hmeans]
    simp [linkQualified, hclass, hmember, targetOf]

/-- A constructor call of a class is linked to the initializer of the class. -/
theorem linkConstructor_of_constructs {c : Nat} (h : tables.Constructs config call c) :
    (tables.linkConstructor config call).1 =
      .symbol ((tables.initializer? config c).getD c) := by
  cases h with
  | own hself hclass => simp [linkConstructor, hself, hclass, constructorTarget]
  | base hself hsuper hclass hbase =>
    simp [linkConstructor, hself, hsuper, hclass, hbase, constructorTarget]
  | named hself hsuper hmeans hclass =>
    simp [linkConstructor, hself, hsuper, hmeans, Option.filter_some, hclass, constructorTarget]

/-- A call that is looked up as a bare name is linked so, up to the kind of a decorator call. -/
theorem judgeCall_of_searchesName (hname : call.SearchesName) :
    (tables.judgeCall config call).1 =
      (call.settled (tables.linkDirect config call).1.1, (tables.linkDirect config call).1.2) := by
  rcases hname with hkind | ⟨hkind | hkind, hreceiver⟩ <;>
    simp [judgeCall, linkByReceiver, CallEdge.settled, *]

/-- A call that goes through its receiver is linked so, up to the kind of a decorator call. -/
theorem judgeCall_of_goesThrough {receiver : String} (hthrough : call.GoesThrough receiver) :
    (tables.judgeCall config call).1 =
      (call.settled (tables.linkMember config call receiver).1.1,
        (tables.linkMember config call receiver).1.2) := by
  obtain ⟨hkind | hkind, hreceiver⟩ := hthrough <;>
    simp [judgeCall, linkByReceiver, CallEdge.settled, *]

/-- A call that instantiates a class is a constructor call to the initializer of the class. -/
theorem judgeCall_of_instantiates {c : Nat} (h : tables.Instantiates config call c) :
    (tables.judgeCall config call).1 =
      (call.settled .constructor, .symbol ((tables.initializer? config c).getD c)) := by
  cases h with
  | byName hname hmeans hclass =>
    rw [judgeCall_of_searchesName hname, linkDirect_of_class hmeans hclass]
  | inModule hthrough hselects hclass =>
    rw [judgeCall_of_goesThrough hthrough, linkMember_of_selectsInModule hselects hclass]
  | explicitly hkind hconstructs =>
    simp [judgeCall, hkind, linkConstructor_of_constructs hconstructs, CallEdge.settled]

/-- A call that selects a member of a class leads to that member, whatever it is. -/
theorem judgeCall_of_selectsMember {receiver : String} {kind : CallKind} {t : Nat}
    (hthrough : call.GoesThrough receiver)
    (hselects : tables.SelectsMember config call receiver kind t) :
    (tables.judgeCall config call).1 = (call.settled kind, .symbol t) := by
  rw [judgeCall_of_goesThrough hthrough, linkMember_of_selectsMember hselects]

/-- A route to a class instantiates it, and the class has no initializer, unless the class is
selected as a member. -/
theorem Route.instantiates {kind : CallKind} {t : Nat}
    (h : tables.Route config call kind (.symbol t)) (hclass : tables.isClass t = true)
    (hnoMember : ∀ receiver kind, call.GoesThrough receiver →
      ¬ tables.SelectsMember config call receiver kind t) :
    kind = call.settled .constructor ∧ tables.Instantiates config call t ∧
      tables.initializer? config t = none := by
  cases h with
  | @instantiation c hinstance =>
    obtain ⟨hself, hnone⟩ := initializer?_eq_none_of_isClass hclass
    rw [hself]
    exact ⟨rfl, hinstance, hnone⟩
  | name _ _ hother => simp [hother] at hclass
  | member hthrough hselects => exact absurd hselects (hnoMember _ _ hthrough)
  | function _ _ hother => simp [hother] at hclass

end Tables

/-- How a call of classes ends: what it instantiates is constructed, a class that it leads to was
instantiated unless it was selected as a member, and a member is called as it is. -/
structure CallEdge.CallsClasses (tables : Tables) (config : ResolutionConfig)
    (call edge : CallEdge) : Prop where
  constructed : ∀ c, tables.Instantiates config call c →
    edge.kind = call.settled .constructor ∧
      edge.target = .symbol ((tables.initializer? config c).getD c)
  ofClass : ∀ t, edge.target = .symbol t → tables.isClass t = true →
    (∀ receiver kind, call.GoesThrough receiver →
      ¬ tables.SelectsMember config call receiver kind t) →
        (edge.kind = .constructor ∨ edge.kind = .decoratorCall) ∧
          tables.initializer? config t = none
  selected : ∀ receiver kind t, call.GoesThrough receiver →
    tables.SelectsMember config call receiver kind t →
      edge.kind = call.settled kind ∧ edge.target = .symbol t

/-- Linking a call treats classes so. -/
theorem Tables.linkCall_callsClasses (tables : Tables) (config : ResolutionConfig)
    (call : CallEdge) : call.CallsClasses tables config (tables.linkCall config call).1 where
  constructed := fun _ hinstance =>
    Prod.mk.inj (Tables.judgeCall_of_instantiates hinstance)
  ofClass := by
    intro t htarget hclass hnoMember
    have hroute := tables.judgeCall_route config call
    rw [show (tables.judgeCall config call).1.2 = .symbol t from htarget] at hroute
    obtain ⟨hkind, _, hnone⟩ := hroute.instantiates hclass hnoMember
    refine ⟨?_, hnone⟩
    change (tables.judgeCall config call).1.1 = _ ∨ (tables.judgeCall config call).1.1 = _
    rw [hkind, CallEdge.settled]
    split
    · exact .inr rfl
    · exact .inl rfl
  selected := fun _ _ _ hthrough hselects =>
    Prod.mk.inj (Tables.judgeCall_of_selectsMember hthrough hselects)

/-- A completed session over some files that constructs the classes that its calls instantiate. -/
structure InstantiatingRun (config : ResolutionConfig) (files : List FileFacts)
    (collected imported called : Session) (graph : Graph) : Prop
    extends CompletedRun config files collected imported called graph where
  calls : List.Forall₂ (CallEdge.CallsClasses imported.tables config)
    imported.tables.calls graph.records.calls

/-- In every unit a call that instantiates a class is a constructor call to its initializer. A call
leads to a class only without an initializer or by selecting it as a member of another class. -/
theorem instantiations_are_constructor_calls (config : ResolutionConfig) (files : List FileFacts)
    (hnonempty : files ≠ []) :
    ∃ collected imported called graph,
      InstantiatingRun config files collected imported called graph := by
  refine ⟨_, _, _, _, completedRun_of_ne_nil config hnonempty, ?_⟩
  change List.Forall₂ _ _ ((Tables.ofFiles files).linkImports.linkCalls config).calls
  rw [Tables.linkCalls_calls, List.forall₂_map_right_iff, List.forall₂_same]
  exact fun call _ => Tables.linkCall_callsClasses _ config call

/-- A class that inherits its initializer, instantiated through an alias of its module. -/
theorem instantiations_are_constructor_calls_inherited_initializer :
    ∃ collected imported called graph,
      InstantiatingRun { walkBases := true }
        [{ path := ⟨"shapes.py"⟩
           language := .python
           declarations :=
            [{ name := "Shape", kind := .classLike, parent := none, visibility := .exposed },
              { name := "__init__", kind := .method, parent := some 0, visibility := .exposed },
              { name := "Square", kind := .classLike, parent := none, visibility := .exposed
                bases := ["Shape"] }] },
          { path := ⟨"main.py"⟩
            language := .python
            imports := [{ target := "shapes", name := .whole, localName := "s" }]
            calls :=
              [{ callee := "s.Square", name := "Square", receiver := some "s", kind := .method }] }]
        collected imported called graph :=
  instantiations_are_constructor_calls _ _ (List.cons_ne_nil _ _)

/-- A class with an initializer inside of a class, called from a method and from the module. -/
def nestedClassText : String :=
  "class A:\n class B:\n  def __init__(self): pass\n def m(self): self.B()\nA.B()\n"

/-- The tree of the nested class. -/
def nestedClass : Tree :=
  let named (kind : String) (field : Option String) (start stop : Nat) (children : List Tree) :=
    Tree.node { kind := kind, named := true, field := field, start := start, stop := stop } children
  named "module" none 0 75
    [named "class_definition" none 0 68
      [named "identifier" (some "name") 6 7 [],
        named "block" (some "body") 10 68
        [named "class_definition" none 10 45
          [named "identifier" (some "name") 16 17 [],
            named "block" (some "body") 21 45
            [named "function_definition" none 21 45
              [named "identifier" (some "name") 25 33 [],
                named "parameters" (some "parameters") 33 39
                [named "identifier" none 34 38 []],
                named "block" (some "body") 41 45
                [named "pass_statement" none 41 45 []]]]],
          named "function_definition" none 47 68
          [named "identifier" (some "name") 51 52 [],
            named "parameters" (some "parameters") 52 58
            [named "identifier" none 53 57 []],
            named "block" (some "body") 60 68
            [named "expression_statement" none 60 68
              [named "call" none 60 68
                [named "attribute" (some "function") 60 66
                  [named "identifier" (some "object") 60 64 [],
                    named "identifier" (some "attribute") 65 66 []],
                  named "argument_list" (some "arguments") 66 68 []]]]]]],
      named "expression_statement" none 69 74
      [named "call" none 69 74
        [named "attribute" (some "function") 69 72
          [named "identifier" (some "object") 69 70 [],
            named "identifier" (some "attribute") 71 72 []],
          named "argument_list" (some "arguments") 72 74 []]]]

/-- A nested class with an initializer is called as a method through the instance and statically
through its class, and both calls lead to the class itself. -/
theorem nested_class_is_called_as_member :
    ∃ facts graph,
      extractSource ⟨"a.py"⟩ .python nestedClassText nestedClass = .ok facts ∧
      resolveFacts {} [facts] = .ok graph ∧
      graph.records.symbols.map (fun s => (s.name, s.kind)) =
        [("A", .classLike), ("B", .classLike), ("__init__", .method), ("m", .method)] ∧
      graph.records.calls.map (fun c => (c.callee, c.kind, c.target)) =
        [("self.B", .method, .symbol 1), ("A.B", .static, .symbol 1)] ∧
      (Tables.ofFiles [facts]).linkImports.initializer? {} 1 = some 2 := by
  have hclean : nestedClass.errorOffset? = none := rfl
  refine ⟨_, _, by rw [extractSource, hclean],
    (completedRun_of_ne_nil {} (List.cons_ne_nil _ _)).resolves, ?_⟩
  rw [Tables.ofFiles_singleton]
  decide +kernel

end CodeAtlas
