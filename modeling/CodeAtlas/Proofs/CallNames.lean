import CodeAtlas.Proofs.CallChains
import CodeAtlas.Proofs.Segments

/-!
# Names of calls

The name of a call is cut off the text of its callee, or it is the text of a node: the name that
a member access selects. Cut off, it is the last segment. Read off a node, it is the last segment
exactly when it holds no separator itself. Where qualified names nest to the left the node is
a single identifier, at any depth. Where they nest to the right it is all that follows the first
segment, so the name of a call of depth two is qualified and its receiver too short.
-/

namespace CodeAtlas

namespace Document

variable {doc : Document} {t object : Tree} {separator name : String} {call : CallFact}

/-- How a recorded call comes by its name and its receiver. -/
inductive IsNamed (doc : Document) (t : Tree) (call : CallFact) : Prop
  /-- The name is cut off the text of the callee, and there is no receiver. -/
  | cut (hname : call.name = Text.lastSegment call.callee) (hreceiver : call.receiver = none)
  /-- The name is cut off the text of the constructed type, and the receiver is what stands before the
  separator. -/
  | constructed (hrole : doc.role t = .constructorCall)
      (hname : call.name = Text.lastSegment call.callee)
      (hreceiver : ∀ qualifier, ∀ separator ∈ [".", "::"],
        call.callee = qualifier ++ separator ++ call.name → qualifier ≠ "" →
        (∀ c ∈ qualifier.toList.getLast?, c ≠ '.' ∧ c ≠ ':') → call.receiver = some qualifier)
  /-- The name is selected of an object, which is the receiver. -/
  | selected {object : Tree} {separator : String}
      (hselects : doc.Selects t object separator call.name)
      (hreceiver : call.receiver = some (doc.normalized object))
      (hcallee : call.callee = doc.normalized object ++ separator ++ call.name)
  /-- The name is selected of nothing and is the whole callee. -/
  | alone (hcallee : call.callee = call.name) (hreceiver : call.receiver = none)

/-- The name of a plain call is selected of an object, stands alone or is cut off. -/
theorem isNamed_of_callCallee (hwritten : call.IsWrittenAs (doc.callCallee t)) :
    doc.IsNamed t call := by
  obtain ⟨htext, hname, hreceiver⟩ := hwritten
  rcases doc.callCallee_cases t with ⟨object, separator, name, hselects⟩ | ⟨name, hcallee⟩ |
    ⟨text, hcallee⟩
  · obtain ⟨rfl, hcontinues⟩ := hselects.continues
    rw [← hname] at hselects
    refine .selected hselects (hreceiver.trans hcontinues.receiver) ?_
    rw [htext, hname, hcontinues.text]
  · rw [hcallee] at htext hname hreceiver
    exact .alone (htext.trans hname.symm) hreceiver
  · rw [hcallee] at htext hname hreceiver
    exact .cut (by rw [hname, htext]) hreceiver

/-- The receiver of a constructor call is what stands before the last separator of the type. -/
theorem receiver_of_constructorCallee {qualifier : String} (hseparator : separator ∈ [".", "::"])
    (htext : (doc.constructorCallee t).text =
      qualifier ++ separator ++ (doc.constructorCallee t).name)
    (hne : qualifier ≠ "") (hlast : ∀ c ∈ qualifier.toList.getLast?, c ≠ '.' ∧ c ≠ ':') :
    (doc.constructorCallee t).receiver.map Receiver.text = some qualifier := by
  have hdrop : Text.Chars.dropEnd? (doc.constructorCallee t).name.toList
      (doc.constructorCallee t).text.toList = some (qualifier.toList ++ separator.toList) := by
    rw [Text.Chars.dropEnd?_eq_some_iff, htext]
    simp
  have hmarks : ∀ separator ∈ [".", "::"], ∀ c ∈ separator.toList,
      (c == '.' || c == ':') = true := by simp
  have htrim := Text.Chars.trimEnd_append (hmarks separator hseparator)
    (fun c hc => by simpa using hlast c hc)
  rw [constructorCallee] at hdrop ⊢
  dsimp only at hdrop ⊢
  rw [hdrop, Option.map_some, htrim]
  have hkept : qualifier.toList.isEmpty = false := by
    rw [List.isEmpty_eq_false_iff]
    exact mt String.toList_eq_nil_iff.mp hne
  simp [Option.filter, hkept]

/-- The callee of every form of call has a name of one of these ways. -/
theorem HasCallee.isNamed {callee : Callee} (h : doc.HasCallee t callee)
    (hwritten : call.IsWrittenAs callee) : doc.IsNamed t call := by
  have hcut (hname : callee.name = Text.lastSegment callee.text) :
      call.name = Text.lastSegment call.callee := by rw [hwritten.name, hwritten.text, hname]
  cases h with
  | plain => exact isNamed_of_callCallee hwritten
  | constructed hrole =>
    refine .constructed hrole (hcut (by simp only [constructorCallee])) ?_
    intro qualifier separator hseparator htext hne hlast
    rw [hwritten.text, hwritten.name] at htext
    rw [hwritten.receiver]
    exact receiver_of_constructorCallee hseparator htext hne hlast
  | macroUse => exact .cut (hcut (by simp only [macroCallee])) hwritten.receiver
  | annotated => exact .cut (hcut (by simp only [annotationCallee])) hwritten.receiver

/-- What a call selects by a name is set off from the name by a separator of qualified names. -/
def SetsOff (doc : Document) (t : Tree) (name : String) : Prop :=
  ∀ object separator, doc.Selects t object separator name →
    separator ∈ Text.separators ∧ (separator = "::" → Text.startsWith ":" name = false)

/-- A name is the last segment of the callee when it holds no separator. -/
theorem IsNamed.eq_lastSegment_iff (h : doc.IsNamed t call) (hsets : doc.SetsOff t call.name) :
    call.name = Text.lastSegment call.callee ↔ Text.isQualified call.name = false := by
  have hcut (hname : call.name = Text.lastSegment call.callee) :
      call.name = Text.lastSegment call.callee ↔ Text.isQualified call.name = false :=
    ⟨fun _ => (Text.eq_lastSegment_iff.mp hname).not_isQualified, fun _ => hname⟩
  cases h with
  | cut hname => exact hcut hname
  | constructed _ hname => exact hcut hname
  | selected hselects _ hcallee =>
    obtain ⟨hseparator, hapart⟩ := hsets _ _ hselects
    rw [hcallee]
    exact Text.eq_lastSegment_append_iff hseparator hapart
  | alone hcallee =>
    rw [hcallee]
    exact Text.eq_lastSegment_self_iff

end Document

/-- In every source whose tree has no errors, every call has the name and the receiver that its form
gives it, and its name is the last segment of the callee exactly when the name holds no separator. -/
theorem unqualified_names_are_last_segments (path : Path) {language : Language} {text : String}
    {tree : Tree} (hclean : tree.errorOffset? = none) :
    ∃ facts, extractSource path language text tree = .ok facts ∧
      ∀ call ∈ facts.calls, ∃ p t, tree.subtree? p = some t ∧
        (Document.ofSource language text tree).IsNamed t call ∧
        ((Document.ofSource language text tree).SetsOff t call.name →
          (call.name = Text.lastSegment call.callee ↔ Text.isQualified call.name = false)) := by
  refine ⟨(Document.ofSource language text tree).facts path, ?_, fun call hcall => ?_⟩
  · rw [extractSource, hclean]
    rfl
  · obtain ⟨p, t, callee, hnode, hcallee, hwritten⟩ := Document.facts_isRecorded _ path call hcall
    have hnamed := hcallee.isNamed hwritten
    exact ⟨p, t, hnode, hnamed, hnamed.eq_lastSegment_iff⟩

/-- The tree of `fn g(){a::b::c::f();}`, where paths nest to the left. -/
def deepPath : Tree :=
  let inner (kind : String) (field : Option String) (start stop : Nat) (children : List Tree) :=
    Tree.node { kind := kind, named := true, field := field, start := start, stop := stop } children
  inner "source_file" none 0 21
    [inner "function_item" none 0 21
      [inner "identifier" (some "name") 3 4 [], inner "parameters" (some "parameters") 4 6 [],
        inner "block" (some "body") 6 21
          [inner "expression_statement" none 7 20
            [inner "call_expression" none 7 19
              [inner "scoped_identifier" (some "function") 7 17
                [inner "scoped_identifier" (some "path") 7 14
                  [inner "scoped_identifier" (some "path") 7 11
                    [inner "identifier" (some "path") 7 8 [],
                      inner "identifier" (some "name") 10 11 []],
                    inner "identifier" (some "name") 13 14 []],
                  inner "identifier" (some "name") 16 17 []],
                inner "arguments" (some "arguments") 17 19 []]]]]]

/-- A path of depth three gives the last identifier as the name and all before it as the receiver. -/
theorem unqualified_names_are_last_segments_deep :
    deepPath.errorOffset? = none ∧
    ∃ facts, extractSource ⟨"a.rs"⟩ .rust "fn g(){a::b::c::f();}" deepPath = .ok facts ∧
      facts.calls.map (fun call => (call.callee, call.name, call.receiver)) =
        [("a::b::c::f", "f", some "a::b::c")] ∧
      ∀ call ∈ facts.calls, ∃ p t, deepPath.subtree? p = some t ∧
        (Document.ofSource .rust "fn g(){a::b::c::f();}" deepPath).IsNamed t call := by
  obtain ⟨facts, hfacts, hnamed⟩ := @unqualified_names_are_last_segments ⟨"a.rs"⟩ .rust
    "fn g(){a::b::c::f();}" deepPath rfl
  refine ⟨rfl, facts, hfacts, ?_, fun call hcall => ?_⟩
  · cases hfacts
    decide
  · obtain ⟨p, t, hnode, hform, _⟩ := hnamed call hcall
    exact ⟨p, t, hnode, hform⟩

/-- The tree of `void f(){ns::A::e();}`, where qualified names nest to the right. -/
def deepQualifiedName : Tree :=
  let inner (kind : String) (field : Option String) (start stop : Nat) (children : List Tree) :=
    Tree.node { kind := kind, named := true, field := field, start := start, stop := stop } children
  inner "translation_unit" none 0 21
    [inner "function_definition" none 0 21
      [inner "primitive_type" (some "type") 0 4 [],
        inner "function_declarator" (some "declarator") 5 8
          [inner "identifier" (some "declarator") 5 6 [],
            inner "parameter_list" (some "parameters") 6 8 []],
        inner "compound_statement" (some "body") 8 21
          [inner "expression_statement" none 9 20
            [inner "call_expression" none 9 19
              [inner "qualified_identifier" (some "function") 9 17
                [inner "namespace_identifier" (some "scope") 9 11 [],
                  inner "qualified_identifier" (some "name") 13 17
                    [inner "namespace_identifier" (some "scope") 13 14 [],
                      inner "identifier" (some "name") 16 17 []]],
                inner "argument_list" (some "arguments") 17 19 []]]]]]

/-- The name of the call is qualified and so not the last segment, and the receiver is too short. -/
theorem deep_qualified_name_is_no_last_segment :
    deepQualifiedName.errorOffset? = none ∧
    ∃ facts, extractSource ⟨"a.cpp"⟩ .cpp "void f(){ns::A::e();}" deepQualifiedName = .ok facts ∧
      facts.calls.map (fun call => (call.callee, call.name, call.receiver)) =
        [("ns::A::e", "A::e", some "ns")] ∧
      Text.lastSegment "ns::A::e" = "e" := by
  refine ⟨rfl, _, rfl, ?_, ?_⟩ <;> decide

end CodeAtlas
