import CodeAtlas.Proofs.EvaluationOrder
import Mathlib.Logic.Relation

/-!
# The walk for calls with a stack

The calls of a document can be collected with a stack of pending work. The open scopes are then no
argument that is passed down, but a state that two steps around the body of a declaration change and
change back. A call is put on the stack below its children, so that it is recorded after the calls in
its receiver and in its arguments.

A step that finds no scope to leave stops the walk. This never happens: the walk comes to its end,
outside of all scopes, and has recorded the calls of the document in the order of their evaluation.
-/

namespace CodeAtlas

/-- Work that the walk for calls has still to do. -/
inductive CallStep where
  | visit (node : Tree)
  | enterScope (range : Nat × Nat)
  | leaveScope
  | emitCall (node : Tree)
  | emitConstructor (node : Tree)
  | emitMacro (node : Tree)

/-- The walk for calls with a stack. -/
structure CallWalker where
  /-- The ranges of the open scopes, innermost first. -/
  scopes : List (Nat × Nat) := []
  /-- The calls that were recorded. -/
  sites : List CallSite := []
  /-- What is still to be done, the next step first. -/
  pending : List CallStep

namespace Document

/-- What the visit of a decorator leaves to be done. When its expression is a call, only the children
of that call are visited. -/
def decoratorSteps (doc : Document) (t : Tree) : List CallStep :=
  match t.firstProper? with
  | some call =>
    if t.kind == "decorator" && doc.role call == .call then call.proper.map .visit
    else t.proper.map .visit
  | none => t.proper.map .visit

/-- What the visit of a node leaves to be done. A declaration opens its scope between its prelude and
its body, and a call is recorded after its children. -/
def scheduled (doc : Document) (t : Tree) : List CallStep :=
  if doc.opensScope t then
    (t.proper.filter isPrelude).map .visit ++ .enterScope t.range ::
      ((t.proper.filter fun c => !isPrelude c).map .visit ++ [.leaveScope])
  else
    match doc.role t with
    | .decorator => doc.decoratorSteps t
    | .call => t.proper.map .visit ++ [.emitCall t]
    | .constructorCall => t.proper.map .visit ++ [.emitConstructor t]
    | .macroCall => t.proper.map .visit ++ [.emitMacro t]
    | _ => t.proper.map .visit

/-- One step of the walk for calls. -/
def advanceCalls (doc : Document) (w : CallWalker) : Option CallWalker :=
  match w.pending, w.scopes with
  | [], _ => none
  | .visit t :: rest, _ => some { w with pending := doc.scheduled t ++ rest }
  | .enterScope range :: rest, scopes => some { w with scopes := range :: scopes, pending := rest }
  | .leaveScope :: _, [] => none
  | .leaveScope :: rest, _ :: scopes => some { w with scopes := scopes, pending := rest }
  | .emitCall t :: rest, scopes =>
    some { w with sites := w.sites ++ [doc.callSite t scopes], pending := rest }
  | .emitConstructor t :: rest, scopes =>
    some { w with sites := w.sites ++ [doc.constructorSite t scopes], pending := rest }
  | .emitMacro t :: rest, scopes =>
    some { w with sites := w.sites ++ [doc.macroSite t scopes], pending := rest }

/-- The walk for calls comes from one state to another. -/
def CollectsTo (doc : Document) : CallWalker → CallWalker → Prop :=
  Relation.ReflTransGen fun w w' => doc.advanceCalls w = some w'

/-- Steps record calls, in the scopes around them, and leave the scopes as they were. -/
def Collects (doc : Document) (scopes : List (Nat × Nat)) (steps : List CallStep)
    (found : List CallSite) : Prop :=
  ∀ sites rest, doc.CollectsTo ⟨scopes, sites, steps ++ rest⟩ ⟨scopes, sites ++ found, rest⟩

variable {doc : Document} {scopes : List (Nat × Nat)} {t : Tree}

/-- No steps record nothing. -/
theorem collects_nil : doc.Collects scopes [] [] := by
  intro sites rest
  rw [List.append_nil]
  exact .refl

/-- What steps record is followed by what the later ones do. -/
theorem Collects.append {steps later : List CallStep} {found more : List CallSite}
    (h : doc.Collects scopes steps found) (hlater : doc.Collects scopes later more) :
    doc.Collects scopes (steps ++ later) (found ++ more) := by
  intro sites rest
  rw [List.append_assoc, ← List.append_assoc sites]
  exact (h sites (later ++ rest)).trans (hlater (sites ++ found) rest)

/-- Visits in a row record what each of them does. -/
theorem collects_visits {ts : List Tree}
    (h : ∀ t ∈ ts, doc.Collects scopes [.visit t] (doc.callSites scopes t)) :
    doc.Collects scopes (ts.map .visit) (ts.flatMap (doc.callSites scopes)) := by
  induction ts with
  | nil => exact collects_nil
  | cons t ts ih =>
    have hfirst := h t List.mem_cons_self
    exact hfirst.append (ih fun c hc => h c (List.mem_cons_of_mem t hc))

/-- Between entering a scope and leaving it, steps record calls in that scope. -/
theorem Collects.scoped {range : Nat × Nat} {steps : List CallStep} {found : List CallSite}
    (h : doc.Collects (range :: scopes) steps found) :
    doc.Collects scopes (.enterScope range :: (steps ++ [.leaveScope])) found := by
  intro sites rest
  have hbody := (h sites (.leaveScope :: rest)).tail rfl
  rw [List.append_cons] at hbody
  exact .head rfl hbody

/-- A plain call is recorded in the scopes that are open. -/
theorem collects_emitCall (t : Tree) :
    doc.Collects scopes [.emitCall t] [doc.callSite t scopes] :=
  fun _ _ => .single rfl

/-- A constructor call is recorded in the scopes that are open. -/
theorem collects_emitConstructor (t : Tree) :
    doc.Collects scopes [.emitConstructor t] [doc.constructorSite t scopes] :=
  fun _ _ => .single rfl

/-- A macro invocation is recorded in the scopes that are open. -/
theorem collects_emitMacro (t : Tree) :
    doc.Collects scopes [.emitMacro t] [doc.macroSite t scopes] :=
  fun _ _ => .single rfl

/-- The visit of a node records what the steps that it leaves do. -/
theorem Collects.visit {found : List CallSite} (h : doc.Collects scopes (doc.scheduled t) found) :
    doc.Collects scopes [.visit t] found :=
  fun sites rest => .head rfl (h sites rest)

/-- The calls among several trees are those of the trees that are kept, in a row. -/
theorem sitesAmong_eq_flatMap (scopes : List (Nat × Nat)) (keep : Tree → Bool) (ts : List Tree) :
    doc.sitesAmong scopes keep ts =
      ((ts.filter Tree.isProper).filter keep).flatMap (doc.callSites scopes) := by
  induction ts with
  | nil => rfl
  | cons t ts ih =>
    rw [sitesAmong, List.filter_cons, ih]
    cases t.isProper <;> cases hkeep : keep t <;> simp [hkeep]

/-- The calls of a node, as the walk without a stack collects them. -/
theorem callSites_node (scopes : List (Nat × Nat)) (t : Tree) :
    doc.callSites scopes t =
      if doc.opensScope t then
        doc.sitesAmong scopes isPrelude t.children ++
          doc.sitesAmong (t.range :: scopes) (fun c => !isPrelude c) t.children
      else if t.kind == "decorator" && doc.role t == .decorator then
        doc.decoratorSites scopes t.children
      else doc.sitesInside scopes t ++ doc.ownSite t scopes := by
  obtain ⟨label, children⟩ := t
  rw [callSites, sitesInside]
  rfl

/-- The calls inside of a node are those of its children. -/
theorem sitesInside_eq_flatMap (scopes : List (Nat × Nat)) (t : Tree) :
    doc.sitesInside scopes t = t.proper.flatMap (doc.callSites scopes) := by
  obtain ⟨label, children⟩ := t
  rw [sitesInside, sitesAmong_eq_flatMap, List.filter_eq_self.mpr fun _ _ => rfl]
  rfl

/-- The calls of a decorator are those inside of its first child when that is a plain call, and
otherwise those of all its children. -/
theorem decoratorSites_find (scopes : List (Nat × Nat)) (ts : List Tree) :
    doc.decoratorSites scopes ts =
      match ts.find? Tree.isProper with
      | some call =>
        if doc.role call == .call then doc.sitesInside scopes call
        else (ts.filter Tree.isProper).flatMap (doc.callSites scopes)
      | none => [] := by
  induction ts with
  | nil => rfl
  | cons t ts ih =>
    rw [decoratorSites, List.find?_cons, List.filter_cons]
    cases t.isProper with
    | false => exact ih
    | true =>
      rw [sitesAmong_eq_flatMap, List.filter_eq_self.mpr fun _ _ => rfl]
      rfl

section Children

variable (hchildren : ∀ c ∈ t.proper, ∀ scopes,
    doc.Collects scopes [.visit c] (doc.callSites scopes c))
  (hinside : ∀ c ∈ t.proper, ∀ scopes,
    doc.Collects scopes (c.proper.map .visit) (doc.sitesInside scopes c))

include hchildren

/-- The visits of the children that are kept record the calls among them. -/
theorem collects_kept (scopes : List (Nat × Nat)) (keep : Tree → Bool) :
    doc.Collects scopes ((t.proper.filter keep).map .visit)
      (doc.sitesAmong scopes keep t.children) := by
  rw [sitesAmong_eq_flatMap]
  exact collects_visits fun c hc => hchildren c (List.mem_of_mem_filter hc) scopes

/-- The visits of all children record the calls inside of the node. -/
theorem collects_inside (scopes : List (Nat × Nat)) :
    doc.Collects scopes (t.proper.map .visit) (doc.sitesInside scopes t) := by
  rw [sitesInside_eq_flatMap]
  exact collects_visits fun c hc => hchildren c hc scopes

include hinside

/-- The steps that a decorator leaves record the calls of a decorator. The annotations of other
languages are walked like other nodes. -/
theorem collects_decoratorSteps (scopes : List (Nat × Nat)) :
    doc.Collects scopes (doc.decoratorSteps t)
      (if t.kind == "decorator" then doc.decoratorSites scopes t.children
        else doc.sitesInside scopes t) := by
  have hall := collects_inside hchildren scopes
  rw [decoratorSteps, decoratorSites_find, Tree.firstProper?]
  cases hfirst : t.children.find? Tree.isProper with
  | none =>
    have hnone : t.proper = [] := List.filter_eq_nil_iff.mpr (List.find?_eq_none.mp hfirst)
    rw [sitesInside_eq_flatMap, hnone, List.flatMap_nil, ite_self]
    exact collects_nil
  | some call =>
    have hcall : call ∈ t.proper :=
      List.mem_filter.mpr ⟨List.mem_of_find?_eq_some hfirst, List.find?_some hfirst⟩
    rw [← Tree.proper, ← sitesInside_eq_flatMap]
    cases t.kind == "decorator" with
    | false => exact hall
    | true =>
      cases hrole : doc.role call == .call with
      | false => simpa [hrole] using hall
      | true => simpa [hrole] using hinside call hcall scopes

/-- The steps that a node leaves record its calls, if the visits of its children record theirs, and
so do those of their children. -/
theorem collects_scheduled (scopes : List (Nat × Nat)) :
    doc.Collects scopes (doc.scheduled t) (doc.callSites scopes t) := by
  have hall := collects_inside hchildren scopes
  have hkept := collects_kept hchildren
  have hdecorator := collects_decoratorSteps hchildren hinside scopes
  rw [scheduled, callSites_node]
  split
  · exact (hkept scopes isPrelude).append (hkept _ fun c => !isPrelude c).scoped
  · rw [ownSite]
    cases doc.role t with
    | decorator => simpa using hdecorator
    | call => simpa using hall.append (collects_emitCall _)
    | constructorCall => simpa using hall.append (collects_emitConstructor _)
    | macroCall => simpa using hall.append (collects_emitMacro _)
    | _ => simpa using hall

end Children

/-- The visit of a node records its calls, and the visits of its children those inside of it. -/
theorem collects_visit (t : Tree) : ∀ scopes,
    doc.Collects scopes [.visit t] (doc.callSites scopes t) ∧
      doc.Collects scopes (t.proper.map .visit) (doc.sitesInside scopes t) := by
  induction t using Tree.induction_on_children with
  | hstep t ih =>
    have hbelow : ∀ c ∈ t.proper, c ∈ t.children := fun c hc => List.mem_of_mem_filter hc
    have hchildren := fun c hc scopes => (ih c (hbelow c hc) scopes).1
    have hinside := fun c hc scopes => (ih c (hbelow c hc) scopes).2
    intro scopes
    exact ⟨(collects_scheduled hchildren hinside scopes).visit, collects_inside hchildren scopes⟩

/-- The walk for calls comes to its end, outside of all scopes, with the calls of the document in the
order of their evaluation. -/
theorem collectsTo_callSites (doc : Document) :
    doc.CollectsTo { pending := [.visit doc.tree] }
      { sites := doc.callSites [] doc.tree, pending := [] } :=
  (collects_visit doc.tree []).1 [] []

/-- Wherever the walk for calls stops, it has come to its end. -/
theorem eq_of_stopped {w : CallWalker} (h : doc.CollectsTo { pending := [.visit doc.tree] } w)
    (hstopped : doc.advanceCalls w = none) :
    w = { sites := doc.callSites [] doc.tree, pending := [] } := by
  have hone : Relator.RightUnique fun w w' => doc.advanceCalls w = some w' :=
    fun _ _ _ hv hw => Option.some.inj (hv.symm.trans hw)
  rcases Relation.ReflTransGen.total_of_right_unique hone h doc.collectsTo_callSites with hend | hend
  · rcases Relation.ReflTransGen.cases_head hend with heq | ⟨next, hnext, _⟩
    · exact heq
    · rw [hstopped] at hnext
      cases hnext
  · rcases Relation.ReflTransGen.cases_head hend with heq | ⟨next, hnext, _⟩
    · exact heq.symm
    · cases hnext

end Document

end CodeAtlas
