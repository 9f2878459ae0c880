import CodeAtlas.Proofs.RecordedCalls

/-!
# Chains of calls

The callee of a call and the text of an expression are read off a tree by different functions. They
agree: the text of a call is its callee followed by `()`, whatever is called. So when a call selects
a name of the result of another call, its receiver is the callee of that call followed by `()`, and
along a chain of calls every receiver repeats the callee before it.
-/

namespace CodeAtlas

namespace Tree

/-- Going down from the tree at a position of a list. -/
theorem followAt_eq (next : Tree → Option Nat) (i : Nat) (ts : List Tree) :
    followAt next i ts = ts[i]?.map (follow next) := by
  induction ts generalizing i with
  | nil => rfl
  | cons t ts ih =>
    cases i with
    | zero => rfl
    | succ i => exact ih i

/-- Going down from a node that points to a child is going down from the child. -/
theorem follow_of_next {next : Tree → Option Nat} {t c : Tree} {i : Nat} (hnext : next t = some i)
    (hchild : t.children[i]? = some c) : t.follow next = c.follow next := by
  obtain ⟨label, children⟩ := t
  have hchild : children[i]? = some c := hchild
  rw [follow, hnext]
  dsimp only
  rw [followAt_eq, hchild]
  rfl

/-- Going down ends at a node that points to no child. -/
theorem follow_of_none {next : Tree → Option Nat} {t : Tree} (hnext : next t = none) :
    t.follow next = t := by
  obtain ⟨label, children⟩ := t
  rw [follow, hnext]

end Tree

namespace Document

variable {doc : Document} {t c f object : Tree} {separator name : String}

/-- The expression directly inside of a wrapper. -/
def wrapped? (doc : Document) (t : Tree) : Option Tree :=
  (doc.grammar.inner? t.kind).bind fun inner => t.children.find? inner.selects

/-- Looking through a wrapper is looking through what it wraps. -/
theorem unwrap_of_wrapped (h : doc.wrapped? t = some c) : doc.unwrap t = doc.unwrap c := by
  obtain ⟨inner, hinner, hfound⟩ := Option.bind_eq_some_iff.mp h
  obtain ⟨hselects, i, hi, hc, hearlier⟩ := List.find?_eq_some_iff_getElem.mp hfound
  refine Tree.follow_of_next (i := i) ?_ (by rw [List.getElem?_eq_getElem hi, hc])
  rw [innerIndex?, hinner, Option.bind_some, List.findIdx?_eq_some_iff_getElem]
  exact ⟨hi, hc ▸ hselects, fun j hj => by simpa using hearlier j hj⟩

/-- What wraps nothing is looked at itself. -/
theorem unwrap_of_not_wrapped (h : doc.wrapped? t = none) : doc.unwrap t = t := by
  refine Tree.follow_of_none ?_
  rw [innerIndex?, Option.bind_eq_none_iff]
  intro inner hinner
  rw [List.findIdx?_eq_none_iff]
  simpa using List.find?_eq_none.mp (Option.bind_eq_none_iff.mp h inner hinner)

/-- What is directly inside of a wrapper is one of its children. -/
theorem mem_children_of_wrapped (h : doc.wrapped? t = some c) : c ∈ t.children := by
  obtain ⟨_, _, hfound⟩ := Option.bind_eq_some_iff.mp h
  exact List.mem_of_find?_eq_some hfound

/-- What holds of everything that wraps nothing, and passes from what is wrapped to the wrapper, holds
of every tree. -/
theorem induction_on_wrapped {P : Tree → Prop} (hplain : ∀ t, doc.wrapped? t = none → P t)
    (hwrapper : ∀ t c, doc.wrapped? t = some c → P c → P t) (t : Tree) : P t := by
  induction t using Tree.induction_on_children with
  | hstep t ih =>
    cases h : doc.wrapped? t with
    | none => exact hplain t h
    | some c => exact hwrapper t c h (ih c (mem_children_of_wrapped h))

/-- The text of the first tree that satisfies a condition. -/
theorem normalizedFirst_eq (selects : Tree → Bool) (ts : List Tree) :
    doc.normalizedFirst selects ts = (ts.find? selects).map doc.normalized := by
  induction ts with
  | nil => rfl
  | cons t ts ih =>
    rw [normalizedFirst, List.find?_cons, ih]
    cases selects t <;> rfl

/-- The text of a wrapper is that of what it wraps. -/
theorem normalized_of_wrapped (h : doc.wrapped? t = some c) : doc.normalized t = doc.normalized c := by
  obtain ⟨label, children⟩ := t
  obtain ⟨inner, hinner, hfound⟩ := Option.bind_eq_some_iff.mp h
  have hinner : doc.grammar.inner? label.kind = some inner := hinner
  have hfound : children.find? inner.selects = some c := hfound
  rw [normalized, hinner, Option.bind_some, normalizedFirst_eq, hfound]
  rfl

/-- Wrappers do not show in the text of an expression. -/
theorem normalized_unwrap (t : Tree) : doc.normalized (doc.unwrap t) = doc.normalized t := by
  induction t using doc.induction_on_wrapped with
  | hplain t h => rw [unwrap_of_not_wrapped h]
  | hwrapper t c h ih => rw [unwrap_of_wrapped h, normalized_of_wrapped h, ih]

/-- The text of a member access. -/
theorem normalized_of_member {shape : MemberShape} (h : doc.grammar.member? t.kind = some shape) :
    doc.normalized t =
      match t.field? shape.object with
      | some object => doc.normalized object ++ doc.separatorOf t shape ++ doc.memberName t shape
      | none => doc.memberName t shape := by
  obtain ⟨label, children⟩ := t
  obtain ⟨hinner, hliteral⟩ := doc.language.of_member? h
  simp only [Tree.kind, Tree.label] at h hinner hliteral
  simp only [normalized, grammar, hinner, hliteral, Option.bind_none, normalizedFirst_eq]
  simp only [grammar] at h
  simp only [h]
  dsimp only [Tree.field?, Tree.children]
  cases children.find? (Tree.inField shape.object) <;> rfl

/-- The text of the expression that a callee denotes is the text of the callee. -/
theorem text_calleeOf (t : Tree) : (doc.calleeOf t).text = doc.normalized t := by
  rw [← normalized_unwrap t, calleeOf]
  dsimp only
  cases hmember : doc.grammar.member? (doc.unwrap t).kind with
  | none => rfl
  | some shape =>
    rw [normalized_of_member hmember]
    dsimp only
    cases (doc.unwrap t).field? shape.object <;> rfl

/-- What is no wrapper, no literal and no member access has the text that its role gives it. -/
theorem normalized_of_isPlain (h : doc.grammar.IsPlain t.kind) :
    doc.normalized t =
      match doc.role t with
      | .call =>
        if isMethodInvocation t.kind then
          match (t.field? "object").map doc.normalized with
          | some object => object ++ "." ++ (doc.fieldText? t "name").getD "" ++ "()"
          | none => (doc.fieldText? t "name").getD "" ++ "()"
        else ((t.field? "function").map doc.normalized).getD "" ++ "()"
      | .constructorCall => "new " ++ doc.constructedType t ++ "()"
      | .macroCall => doc.macroName t ++ "()"
      | _ => Text.collapse (doc.textOf t) := by
  obtain ⟨label, children⟩ := t
  obtain ⟨hinner, hliteral, hmember⟩ := h
  simp only [Tree.kind, Tree.label] at hinner hliteral hmember
  simp only [normalized, hinner, hliteral, hmember, Option.bind_none, normalizedFirst_eq]
  rfl

/-- The text of a plain call is its callee followed by `()`. -/
theorem normalized_of_call (h : doc.role t = .call) :
    doc.normalized t = (doc.callCallee t).text ++ "()" := by
  have hplain : doc.grammar.IsPlain t.kind :=
    doc.language.isPlain_of_isCall (by rw [← grammar, ← role, h]; rfl)
  rw [normalized_of_isPlain hplain, h, callCallee]
  dsimp only
  by_cases hown : isMethodInvocation t.kind = true
  · rw [if_pos hown, if_pos hown]
    cases t.field? "object" <;> rfl
  · rw [if_neg hown, if_neg hown]
    cases t.field? "function" with
    | none => rfl
    | some f => rw [Option.map_some, Option.map_some, Option.getD_some, Option.getD_some,
        text_calleeOf]

/-- The text of a constructor call is its callee after `new` and before `()`. -/
theorem normalized_of_constructorCall (h : doc.role t = .constructorCall) :
    doc.normalized t = "new " ++ (doc.constructorCallee t).text ++ "()" := by
  have hplain : doc.grammar.IsPlain t.kind :=
    doc.language.isPlain_of_isCall (by rw [← grammar, ← role, h]; rfl)
  rw [normalized_of_isPlain hplain, h]
  rfl

/-- The text of a macro invocation is its callee followed by `()`. -/
theorem normalized_of_macroCall (h : doc.role t = .macroCall) :
    doc.normalized t = (doc.macroCallee t).text ++ "()" := by
  have hplain : doc.grammar.IsPlain t.kind :=
    doc.language.isPlain_of_isCall (by rw [← grammar, ← role, h]; rfl)
  rw [normalized_of_isPlain hplain, h]
  rfl

/-- A call selects a name of an object: the object and the name are parts of the call itself, or of
the member access that it calls. -/
inductive Selects (doc : Document) (c : Tree) : Tree → String → String → Prop
  | ownParts {object : Tree} (hown : isMethodInvocation c.kind = true)
      (hobject : c.field? "object" = some object) :
      Selects doc c object "." ((doc.fieldText? c "name").getD "")
  | memberAccess {f object : Tree} {shape : MemberShape} (hown : isMethodInvocation c.kind = false)
      (hfunction : c.field? "function" = some f)
      (hmember : doc.grammar.member? (doc.unwrap f).kind = some shape)
      (hobject : (doc.unwrap f).field? shape.object = some object) :
      Selects doc c object (doc.separatorOf (doc.unwrap f) shape)
        (doc.memberName (doc.unwrap f) shape)

/-- The callee of a call that selects a name. -/
theorem Selects.callCallee_eq (h : doc.Selects c object separator name) :
    doc.callCallee c = doc.calleeOn object separator name := by
  rw [callCallee]
  cases h with
  | ownParts hown hobject => rw [if_pos hown, hobject]
  | memberAccess hown hfunction hmember hobject =>
    rw [if_neg (by simp [hown]), hfunction, Option.map_some, Option.getD_some, calleeOf]
    simp only [hmember, hobject]

/-- A call selects a name of an object, or has no receiver: its callee is a name alone, or another
expression, whose text gives the name. -/
theorem callCallee_cases (doc : Document) (c : Tree) :
    (∃ object separator name, doc.Selects c object separator name) ∨
    (∃ name, doc.callCallee c = { text := name, name := name }) ∨
    ∃ text, doc.callCallee c = { text := text, name := Text.lastSegment text } := by
  rw [callCallee]
  split
  · rename_i hown
    cases hobject : c.field? "object" with
    | some object => exact .inl ⟨object, _, _, .ownParts hown hobject⟩
    | none => exact .inr (.inl ⟨_, rfl⟩)
  · rename_i hown
    rw [Bool.not_eq_true] at hown
    cases hfunction : c.field? "function" with
    | none => exact .inr (.inl ⟨"", rfl⟩)
    | some f =>
      rw [Option.map_some, Option.getD_some, calleeOf]
      cases hmember : doc.grammar.member? (doc.unwrap f).kind with
      | none => exact .inr (.inr ⟨_, rfl⟩)
      | some shape =>
        cases hobject : (doc.unwrap f).field? shape.object with
        | some object => exact .inl ⟨object, _, _, .memberAccess hown hfunction hmember hobject⟩
        | none => exact .inr (.inl ⟨_, by simp only [hobject]; rfl⟩)

/-- A call through a member access does not call the base class itself. -/
theorem Selects.not_super (h : doc.Selects c object separator name)
    (hparts : isMethodInvocation c.kind = true → c.field? "function" = none) :
    (c.field? "function").any (·.kind == "super") = false := by
  cases h with
  | ownParts hown hobject => rw [hparts hown]; rfl
  | @memberAccess f _ shape hown hfunction hmember hobject =>
    rw [hfunction, Option.any_some, beq_eq_false_iff_ne]
    intro hsuper
    -- What is written as the base class wraps nothing and is no member access.
    have hplain : doc.grammar.IsPlain f.kind := hsuper ▸ doc.language.isPlain_super
    have hwrapped : doc.wrapped? f = none := by rw [wrapped?, hplain.inner, Option.bind_none]
    rw [unwrap_of_not_wrapped hwrapped, hplain.member] at hmember
    cases hmember

/-- What a call is made on, when it is another call, is the result of a call. -/
theorem receiverSource_of_isCallNode (h : doc.isCallNode (doc.unwrap object) = true) :
    doc.receiverSource object = .call := by
  have hrole : (doc.role (doc.unwrap object)).isCall = true := by
    rw [isCallNode] at h
    revert h
    cases doc.role (doc.unwrap object) <;> decide
  have hplain : doc.grammar.IsPlain (doc.unwrap object).kind := doc.language.isPlain_of_isCall hrole
  rw [receiverSource]
  simp only [hplain.literal, Option.isSome_none, Bool.false_eq_true, if_false]
  revert hrole
  cases doc.role (doc.unwrap object) <;> simp [Role.isCall]

/-- A callee continues an expression: its receiver is the text of the expression, and when that is
itself a call, it is the callee of this call, written as a call. -/
structure Continues (doc : Document) (callee : Callee) (object : Tree) (separator : String) :
    Prop where
  receiver : callee.receiver.map Receiver.text = some (doc.normalized object)
  text : callee.text = doc.normalized object ++ separator ++ callee.name
  ofCall : doc.role (doc.unwrap object) = .call →
    doc.normalized object = (doc.callCallee (doc.unwrap object)).text ++ "()"
  ofMacro : doc.role (doc.unwrap object) = .macroCall →
    doc.normalized object = (doc.macroCallee (doc.unwrap object)).text ++ "()"
  ofConstructor : doc.role (doc.unwrap object) = .constructorCall →
    doc.normalized object = "new " ++ (doc.constructorCallee (doc.unwrap object)).text ++ "()"

/-- A call that selects a name of an object continues it. -/
theorem Selects.continues (h : doc.Selects c object separator name) :
    (doc.callCallee c).name = name ∧ doc.Continues (doc.callCallee c) object separator := by
  rw [h.callCallee_eq]
  have hinside := doc.normalized_unwrap object
  refine ⟨rfl, rfl, rfl, ?_, ?_, ?_⟩
  · exact fun hrole => hinside.symm.trans (normalized_of_call hrole)
  · exact fun hrole => hinside.symm.trans (normalized_of_macroCall hrole)
  · exact fun hrole => hinside.symm.trans (normalized_of_constructorCall hrole)

/-- A plain call on the result of another call is a chained one, unless its receiver stands for the
base classes. A call whose parts are its own has no part for what is called. -/
theorem Selects.kind (h : doc.Selects c object separator name)
    (hcall : doc.isCallNode (doc.unwrap object) = true)
    (hparts : isMethodInvocation c.kind = true → c.field? "function" = none)
    (scopes : List (Nat × Nat)) :
    (doc.callSite c scopes).call.kind =
      if doc.grammar.isSuper (doc.normalized object) then .method else .chained := by
  have hnotBase := h.not_super hparts
  simp only [callSite, siteOf, hnotBase, Bool.false_eq_true, if_false, h.callCallee_eq, callKind,
    calleeOn, receiverSource_of_isCallNode hcall, Option.map_some]
  cases doc.grammar.isSuper (doc.normalized object) <;> rfl

/-- The site of a plain call is made of its callee. -/
theorem IsSiteOf.eq_callSite {site : CallSite} (h : doc.IsSiteOf c site) (hrole : doc.role c = .call) :
    ∃ scopes, site = doc.callSite c scopes := by
  obtain ⟨scopes, hown⟩ := h.own
  rw [ownSite, hrole] at hown
  exact ⟨scopes, (List.singleton_inj.mp hown).symm⟩

/-- A plain call that selects a name of the result of another. -/
def Follows (doc : Document) (inner outer : Tree) : Prop :=
  ∃ object separator name, doc.Selects outer object separator name ∧ doc.unwrap object = inner

/-- The receiver of a call that follows another is the callee of the other, written as a call. -/
theorem Follows.receiver {inner outer : Tree} (h : doc.Follows inner outer)
    (hinner : doc.role inner = .call) :
    (doc.callCallee outer).receiver.map Receiver.text =
      some ((doc.callCallee inner).text ++ "()") := by
  obtain ⟨object, separator, name, hselects, rfl⟩ := h
  obtain ⟨_, hcontinues⟩ := hselects.continues
  rw [hcontinues.receiver, hcontinues.ofCall hinner]

/-- Along a chain of plain calls every receiver is the callee before it, written as a call. -/
theorem receivers_of_chain {links : List Tree} (h : links.IsChain doc.Follows)
    (hplain : ∀ c ∈ links, doc.role c = .call) {calls : List CallFact}
    (hcalls : List.Forall₂ (fun c call => call.IsWrittenAs (doc.callCallee c)) links calls) :
    calls.IsChain fun a b => b.receiver = some (a.callee ++ "()") := by
  induction h generalizing calls with
  | nil =>
    cases hcalls
    exact .nil
  | singleton c =>
    cases hcalls with
    | cons _ hrest =>
      cases hrest
      exact .singleton _
  | @cons_cons inner outer rest hlink _ ih =>
    cases hcalls with
    | @cons _ a _ _ ha hrest =>
      have hchain := ih (fun c hc => hplain c (List.mem_cons_of_mem _ hc)) hrest
      cases hrest with
      | @cons _ b _ _ hb _ =>
        refine .cons_cons ?_ hchain
        rw [hb.receiver, ha.text]
        exact hlink.receiver (hplain inner List.mem_cons_self)

end Document

/-- In every document a recorded call is written as the callee of its node. One on the result of
another call is chained, and along a chain every receiver is the callee before it followed by `()`.
-/
theorem receivers_repeat_callees (doc : Document) (path : Path) :
    (∀ c, doc.role c = .call → doc.normalized c = (doc.callCallee c).text ++ "()") ∧
    (∀ c, (doc.callCallee c).receiver.isSome = true →
      ∃ object separator, doc.Selects c object separator (doc.callCallee c).name ∧
        doc.Continues (doc.callCallee c) object separator) ∧
    (∀ call ∈ (doc.facts path).calls, doc.IsRecorded call) ∧
    (∀ c site, doc.role c = .call → doc.IsSiteOf c site → ∀ object separator name,
      doc.Selects c object separator name → doc.isCallNode (doc.unwrap object) = true →
      (Document.isMethodInvocation c.kind = true → c.field? "function" = none) →
        site.call.kind =
          if doc.grammar.isSuper (doc.normalized object) then .method else .chained) ∧
    ∀ links calls, links.IsChain doc.Follows → (∀ c ∈ links, doc.role c = .call) →
      List.Forall₂ (fun c (call : CallFact) => call.IsWrittenAs (doc.callCallee c)) links calls →
        calls.IsChain fun a b => b.receiver = some (a.callee ++ "()") := by
  refine ⟨fun c => Document.normalized_of_call, ?_, doc.facts_isRecorded path, ?_,
    fun links calls h hplain => Document.receivers_of_chain h hplain⟩
  · intro c hreceiver
    rcases doc.callCallee_cases c with ⟨object, separator, name, hselects⟩ | ⟨name, hnone⟩ |
      ⟨text, hnone⟩
    · obtain ⟨rfl, hcontinues⟩ := hselects.continues
      exact ⟨object, separator, hselects, hcontinues⟩
    · rw [hnone] at hreceiver
      cases hreceiver
    · rw [hnone] at hreceiver
      cases hreceiver
  · intro c site hrole hsite object separator name hselects hcall hparts
    obtain ⟨scopes, rfl⟩ := hsite.eq_callSite hrole
    exact hselects.kind hcall hparts scopes

/-- The call `m!().f()` in `fn a(){m!().f()?.g()}`. -/
def callOnMacro : Tree :=
  let inner (kind : String) (field : Option String) (start stop : Nat) (children : List Tree) :=
    Tree.node { kind := kind, named := true, field := field, start := start, stop := stop } children
  inner "call_expression" none 7 15
    [inner "field_expression" (some "function") 7 13
      [inner "macro_invocation" (some "value") 7 11
        [inner "identifier" (some "macro") 7 8 [], inner "token_tree" none 9 11 []],
        inner "field_identifier" (some "field") 12 13 []],
      inner "arguments" (some "arguments") 13 15 []]

/-- The call `m!().f()?.g()` around it. -/
def callOnCall : Tree :=
  let inner (kind : String) (field : Option String) (start stop : Nat) (children : List Tree) :=
    Tree.node { kind := kind, named := true, field := field, start := start, stop := stop } children
  inner "call_expression" none 7 20
    [inner "field_expression" (some "function") 7 18
      [inner "try_expression" (some "value") 7 16 [callOnMacro],
        inner "field_identifier" (some "field") 17 18 []],
      inner "arguments" (some "arguments") 18 20 []]

/-- The document of both calls. -/
def chainedCalls : Document where
  language := .rust
  text := "fn a(){m!().f()?.g()}"
  tree :=
    let inner (kind : String) (field : Option String) (start stop : Nat) (children : List Tree) :=
      Tree.node { kind := kind, named := true, field := field, start := start, stop := stop }
        children
    inner "source_file" none 0 21
      [inner "function_item" none 0 21
        [inner "identifier" (some "name") 3 4 [], inner "parameters" (some "parameters") 4 6 [],
          inner "block" (some "body") 6 21 [callOnCall]]]

/-- The chain `m!().f()?.g()`: the question mark does not show in the receiver of `g`. -/
theorem receivers_repeat_callees_through_wrapper :
    [callOnMacro, callOnCall].IsChain chainedCalls.Follows ∧
    (chainedCalls.callSites [] chainedCalls.tree).map
        (fun site => (site.call.callee, site.call.receiver, site.call.kind)) =
      [("m!", none, .direct), ("m!().f", some "m!()", .chained),
        ("m!().f().g", some "m!().f()", .chained)] ∧
    [(chainedCalls.callSite callOnMacro []).call, (chainedCalls.callSite callOnCall []).call].IsChain
      fun a b => b.receiver = some (a.callee ++ "()") := by
  have hchain : [callOnMacro, callOnCall].IsChain chainedCalls.Follows :=
    .cons_cons ⟨_, _, _, .memberAccess rfl rfl rfl rfl, rfl⟩ (.singleton _)
  obtain ⟨_, _, _, _, hreceivers⟩ := receivers_repeat_callees chainedCalls ⟨"a.rs"⟩
  refine ⟨hchain, by decide, hreceivers _ _ hchain (by decide) ?_⟩
  exact .cons (Document.siteOf_isWrittenAs ..) (.cons (Document.siteOf_isWrittenAs ..) .nil)

end CodeAtlas
