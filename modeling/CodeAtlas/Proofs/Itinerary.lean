import CodeAtlas.Proofs.EvaluationOrder
import Mathlib.Data.List.Nodup

/-!
# The itinerary of a walk

The walk that reads an outline off a tree goes from node to node. At each node it records something,
or nothing, and then goes on to some of the children in their order. Where it goes depends on the
node and its surroundings only, and not on what has been found before.

A stop is a node of the walk with its surroundings and with what has been found until then. Every
address is the place of at most one stop, and what a walk has found at its end is what it had found
at its start, followed by what was recorded at the stops in their order.
-/

namespace CodeAtlas

namespace Tree

/-- The node at an address. -/
def subtree? (t : Tree) : List Nat → Option Tree
  | [] => some t
  | i :: p => t.children[i]?.bind fun c => c.subtree? p

/-- The node at an address is found from child to child. -/
theorem subtree?_cons_eq_some {t n : Tree} {i : Nat} {p : List Nat} :
    t.subtree? (i :: p) = some n ↔ ∃ c, t.children[i]? = some c ∧ c.subtree? p = some n := by
  rw [subtree?, Option.bind_eq_some_iff]

/-- An address can be followed in two parts. -/
theorem subtree?_append (t : Tree) (p q : List Nat) :
    t.subtree? (p ++ q) = (t.subtree? p).bind fun n => n.subtree? q := by
  induction p generalizing t with
  | nil => rfl
  | cons i p ih =>
    rw [List.cons_append, subtree?, subtree?]
    cases t.children[i]? with
    | none => rfl
    | some c => exact ih c

/-- The child of the node at an address. -/
theorem subtree?_concat {t n c : Tree} {p : List Nat} {i : Nat} (hnode : t.subtree? p = some n)
    (hchild : n.children[i]? = some c) : t.subtree? (p ++ [i]) = some c := by
  rw [subtree?_append, hnode, Option.bind_some, subtree?, hchild]
  rfl

/-- What an address leads to is the node there. -/
theorem Leads.subtree? {t n : Tree} {p : List Nat} (h : t.Leads p n) : t.subtree? p = some n := by
  induction h with
  | here => rfl
  | child hchild _ _ ih => exact subtree?_cons_eq_some.mpr ⟨_, hchild, ih⟩

end Tree

/-- A child to which a walk goes on, and what the walk does there. -/
structure Leg where
  position : Nat
  child : Tree
  visit : Visit

namespace Tree

/-- All children are looked at. -/
def allLegs (t : Tree) : List Leg := t.children.zipIdx.map fun v => ⟨v.2, v.1, .look⟩

/-- The first child that satisfies a condition is visited, if there is one. -/
def firstLeg? (t : Tree) (selects : Tree → Bool) (visit : Visit) : Option Leg :=
  (t.children.zipIdx.find? fun v => selects v.1).map fun v => ⟨v.2, v.1, visit⟩

/-- The first child that satisfies a condition is visited, or else all are looked at. -/
def firstLegOrAll (t : Tree) (selects : Tree → Bool) (visit : Visit) : List Leg :=
  (t.firstLeg? selects visit).elim t.allLegs fun leg => [leg]

end Tree

/-- What a walk records at a node. -/
inductive Event where
  /-- Nothing. -/
  | passed
  /-- Nothing, and what is below has no name of its own. -/
  | hidden
  /-- A function or class. -/
  | declared (decorators : List Tree) (header : Header)
  /-- An aggregate that a type definition names. -/
  | aggregate (node : Tree) (name : String)
  /-- A script variable that holds a function. -/
  | functionValue (value : Tree) (name : String)
  /-- Variables and prototypes. -/
  | names
  /-- The trait of a block of methods. -/
  | methods

namespace Event

/-- What has been found after an event at a node. -/
def record (doc : Document) (t : Tree) (env : Surroundings) (out : Outline) : Event → Outline
  | passed | hidden => out
  | declared decorators header => doc.addDeclared t env decorators header out
  | aggregate node name => doc.addAggregate t node env name out
  | functionValue value name => doc.addFunctionValue t value env name out
  | names => doc.addVariables t env out
  | methods => doc.addTrait t out

/-- The surroundings of what is below a node, given the index of what was recorded there. -/
def inside (doc : Document) (t : Tree) (env : Surroundings) (index : Nat) : Event → Surroundings
  | passed | names => env
  | hidden => { env with anonymous := true }
  | declared _ _ => { env.inside index (doc.role t == .classLike) with owner := none }
  | aggregate _ _ => env.inside index true
  | functionValue _ _ => env.inside index false
  | methods => { env with owner := doc.simpleName? t "type" }

/-- The node whose scope is opened by an event, with its address from the node of the event. -/
def opened (t : Tree) : Event → Option (List Nat × Tree)
  | declared _ _ | functionValue _ _ => some ([], t)
  | aggregate node _ => (t.fieldIndex? "type").map fun i => ([i], node)
  | _ => none

end Event

namespace Document

/-- What a walk records at a node, and where it goes on from there. -/
def plan (doc : Document) (env : Surroundings) (visit : Visit) (t : Tree) : Event × List Leg :=
  match doc.refine t env visit with
  | .enter => (.passed, t.allLegs)
  | .enterField name => (.passed, (t.firstLeg? (Tree.inField name) .enter).toList)
  | .enterValue =>
    match doc.grammar.inner? t.kind with
    | some inner => (.passed, t.firstLegOrAll inner.selects .enterValue)
    | none => (.passed, t.allLegs)
  | .declare decorators =>
    match doc.header? t with
    | none => (.passed, t.allLegs)
    | some header => (.declared decorators header, t.allLegs)
  | .look =>
    match doc.namedAggregate? t with
    | some (node, name) =>
      (.aggregate node name, (t.firstLeg? (Tree.inField "type") (.enterField "body")).toList)
    | none =>
      match doc.role t with
      | .decorated =>
        let decorators := t.proper.filter fun n => doc.role n == .decorator
        (.passed, t.firstLegOrAll (Tree.inField "definition") (.declare decorators))
      | .implBlock => (.methods, t.firstLegOrAll (Tree.inField "body") .enter)
      | .var =>
        match doc.functionValue? t, doc.fieldText? t "name" with
        | some _, none => (.passed, [])
        | some value, some name =>
          (.functionValue value name, (t.firstLeg? (Tree.inField "value") .enterValue).toList)
        | none, _ => (.names, t.allLegs)
      | .lambda | .comprehension => (.hidden, t.allLegs)
      | _ => (.passed, t.allLegs)

variable {doc : Document}

/-- A walk over several children in a row. -/
theorem walkAll_eq (env : Surroundings) {t : Tree} (before : List Tree) {ts : List Tree}
    (hchildren : t.children = before ++ ts) (out : Outline) :
    doc.walkAll env t before.reverse ts out =
      (ts.zipIdx before.length).foldl (fun found v =>
        doc.walk (env.below t (t.children.take v.2).reverse) .look v.1 found) out := by
  induction ts generalizing before out with
  | nil => rfl
  | cons c ts ih =>
    have hearlier : t.children.take before.length = before := by rw [hchildren, List.take_left]
    have hnext : t.children = (before ++ [c]) ++ ts := by rw [hchildren, List.append_assoc]; rfl
    have hrest := ih (before ++ [c]) hnext (doc.walk (env.below t before.reverse) .look c out)
    rw [List.reverse_append, List.length_append] at hrest
    rw [walkAll, List.zipIdx_cons, List.foldl_cons]
    dsimp only
    rw [hearlier]
    exact hrest

/-- A walk over the first of several children that satisfies a condition. -/
theorem walkFirst_eq (env : Surroundings) {t : Tree} (selects : Tree → Bool) (visit : Visit)
    (before : List Tree) {ts : List Tree} (hchildren : t.children = before ++ ts) (out : Outline) :
    doc.walkFirst env t before.reverse selects visit ts out =
      ((ts.zipIdx before.length).find? fun v => selects v.1).map fun v =>
        doc.walk (env.below t (t.children.take v.2).reverse) visit v.1 out := by
  induction ts generalizing before with
  | nil => rfl
  | cons c ts ih =>
    have hearlier : t.children.take before.length = before := by rw [hchildren, List.take_left]
    have hnext : t.children = (before ++ [c]) ++ ts := by rw [hchildren, List.append_assoc]; rfl
    have hrest := ih (before ++ [c]) hnext
    rw [List.reverse_append, List.length_append] at hrest
    rw [walkFirst, List.zipIdx_cons, List.find?_cons]
    cases hselects : selects c with
    | true =>
      rw [if_pos rfl, Option.map_some]
      dsimp only
      rw [hearlier]
    | false => exact hrest

/-- A walk along legs, one after the other. -/
def walkLegs (doc : Document) (env : Surroundings) (t : Tree) (legs : List Leg) (out : Outline) :
    Outline :=
  legs.foldl (fun found leg =>
    doc.walk (env.below t (t.children.take leg.position).reverse) leg.visit leg.child found) out

/-- Looking at all children is a walk along all legs. -/
theorem walkAll_children (env : Surroundings) (t : Tree) (out : Outline) :
    doc.walkAll env t [] t.children out = doc.walkLegs env t t.allLegs out := by
  have hall := doc.walkAll_eq env [] (List.nil_append t.children).symm out
  rw [walkLegs, Tree.allLegs, List.foldl_map]
  exact hall

/-- Walking the first child that satisfies a condition is a walk along that leg. -/
theorem walkFirst_children (env : Surroundings) (t : Tree) (selects : Tree → Bool) (visit : Visit)
    (out : Outline) :
    doc.walkFirst env t [] selects visit t.children out =
      (t.firstLeg? selects visit).map fun leg => doc.walkLegs env t [leg] out := by
  have hfirst := doc.walkFirst_eq env selects visit []
    (List.nil_append t.children).symm out
  rw [List.reverse_nil, List.length_nil] at hfirst
  rw [hfirst, Tree.firstLeg?, Option.map_map]
  rfl

/-- Walking the first child that satisfies a condition, or else staying with what was found. -/
theorem walkFirst_getD (env : Surroundings) (t : Tree) (selects : Tree → Bool) (visit : Visit)
    (out : Outline) :
    (doc.walkFirst env t [] selects visit t.children out).getD out =
      doc.walkLegs env t (t.firstLeg? selects visit).toList out := by
  rw [walkFirst_children]
  cases t.firstLeg? selects visit <;> rfl

/-- Walking the first child that satisfies a condition, or else looking at all. -/
theorem walkFirst_getD_walkAll (env : Surroundings) (t : Tree) (selects : Tree → Bool)
    (visit : Visit) (out : Outline) :
    (doc.walkFirst env t [] selects visit t.children out).getD
        (doc.walkAll env t [] t.children out) =
      doc.walkLegs env t (t.firstLegOrAll selects visit) out := by
  rw [walkFirst_children, walkAll_children, Tree.firstLegOrAll]
  cases t.firstLeg? selects visit <;> rfl

/-- What a walk finds that starts with an event at a node and goes on along legs. -/
def carryOut (doc : Document) (env : Surroundings) (t : Tree) (out : Outline)
    (plan : Event × List Leg) : Outline :=
  doc.walkLegs (plan.1.inside doc t env out.next) t plan.2 (plan.1.record doc t env out)

/-- A walk carries out its plan. -/
theorem walk_eq (env : Surroundings) (visit : Visit) (t : Tree) (out : Outline) :
    doc.walk env visit t out = doc.carryOut env t out (doc.plan env visit t) := by
  obtain ⟨label, children⟩ := t
  have hall := fun env out => doc.walkAll_children env (.node label children) out
  have hfirst := fun env selects visit out =>
    doc.walkFirst_getD env (.node label children) selects visit out
  have hor := fun env selects visit out =>
    doc.walkFirst_getD_walkAll env (.node label children) selects visit out
  simp only [Tree.children] at hall hfirst hor
  rw [walk, plan]
  dsimp only
  cases doc.refine (.node label children) env visit with
  | enter => exact hall env out
  | enterField name => exact hfirst env _ .enter out
  | enterValue =>
    dsimp only [Tree.kind, Tree.label]
    cases doc.grammar.inner? label.kind with
    | none => exact hall env out
    | some inner =>
      have hwrapped := hor env inner.selects .enterValue out
      rw [Option.bind_some]
      cases hwalked : doc.walkFirst env (.node label children) [] inner.selects .enterValue children
          out with
      | none => rw [hwalked] at hwrapped; exact hwrapped
      | some walked => rw [hwalked] at hwrapped; exact hwrapped
  | declare decorators =>
    dsimp only
    cases doc.header? (.node label children) with
    | none => exact hall env out
    | some header => exact hall _ _
  | look =>
    dsimp only
    cases doc.namedAggregate? (.node label children) with
    | some found => exact hfirst _ _ _ _
    | none =>
      dsimp only
      cases doc.role (.node label children)
      case decorated => exact hor _ _ _ _
      case implBlock => exact hor _ _ _ _
      case var =>
        dsimp only
        cases doc.functionValue? (.node label children) with
        | none => exact hall _ _
        | some value =>
          cases doc.fieldText? (.node label children) "name" with
          | none => rfl
          | some name => exact hfirst _ _ _ _
      all_goals exact hall _ _

/-- Legs lead to children of a node, in their order. -/
structure LegsOf (t : Tree) (legs : List Leg) : Prop where
  children : ∀ leg ∈ legs, t.children[leg.position]? = some leg.child
  sorted : legs.Pairwise fun first second => first.position < second.position

/-- A walk goes to children, in their order. -/
theorem legsOf_plan (env : Surroundings) (visit : Visit) (t : Tree) :
    LegsOf t (doc.plan env visit t).2 := by
  have hnone : LegsOf t [] := ⟨by simp, .nil⟩
  have hall : LegsOf t t.allLegs := by
    constructor
    · intro leg hleg
      obtain ⟨v, hv, rfl⟩ := List.mem_map.mp hleg
      exact List.mem_zipIdx_iff_getElem?.mp hv
    · rw [Tree.allLegs, List.pairwise_map, ← List.pairwise_map (f := Prod.snd) (R := (· < ·)),
        List.zipIdx_map_snd]
      exact List.pairwise_lt_range'
  have hleg : ∀ selects visit leg, t.firstLeg? selects visit = some leg → LegsOf t [leg] := by
    intro selects visit leg hfound
    obtain ⟨v, hv, rfl⟩ := Option.map_eq_some_iff.mp hfound
    refine ⟨fun leg hleg => ?_, List.pairwise_singleton _ _⟩
    obtain rfl := List.mem_singleton.mp hleg
    exact List.mem_zipIdx_iff_getElem?.mp (List.mem_of_find?_eq_some hv)
  have hfirst : ∀ selects visit, LegsOf t (t.firstLeg? selects visit).toList := by
    intro selects visit
    cases hfound : t.firstLeg? selects visit with
    | none => exact hnone
    | some leg => exact hleg selects visit leg hfound
  have hor : ∀ selects visit, LegsOf t (t.firstLegOrAll selects visit) := by
    intro selects visit
    rw [Tree.firstLegOrAll]
    cases hfound : t.firstLeg? selects visit with
    | none => exact hall
    | some leg => exact hleg selects visit leg hfound
  rw [plan]
  repeat' split
  all_goals first | exact hall | exact hfirst _ _ | exact hor _ _ | exact hnone

/-- A node is declared because it was to be, or because it was looked at. -/
theorem refine_eq_declare {t : Tree} {env : Surroundings} {visit : Visit} {decorators : List Tree}
    (h : doc.refine t env visit = .declare decorators) :
    visit = .declare decorators ∨
      visit = .look ∧ decorators = doc.attachedDecorators t env.spine ∧
        (doc.role t = .function ∨ doc.role t = .classLike) := by
  cases visit with
  | look =>
    rw [refine] at h
    split at h
    · rename_i hrole
      simp only [Bool.and_eq_true, Bool.or_eq_true, beq_iff_eq] at hrole
      exact .inr ⟨rfl, (Visit.declare.inj h).symm, hrole.2⟩
    · cases h
  | declare _ => exact .inl h
  | _ => cases h

/-- Where a function or class is recorded, its node has a header. -/
theorem plan_declared {t : Tree} {env : Surroundings} {visit : Visit} {decorators : List Tree}
    {header : Header} (h : (doc.plan env visit t).1 = .declared decorators header) :
    doc.refine t env visit = .declare decorators ∧ doc.header? t = some header := by
  rw [plan] at h
  repeat' split at h
  all_goals simp_all

/-- Where an aggregate is recorded, a type definition names it and the walk enters its body. -/
theorem plan_aggregate {t node : Tree} {env : Surroundings} {visit : Visit} {name : String}
    (h : (doc.plan env visit t).1 = .aggregate node name) :
    doc.namedAggregate? t = some (node, name) ∧
      (doc.plan env visit t).2 =
        (t.firstLeg? (Tree.inField "type") (.enterField "body")).toList := by
  rw [plan] at h ⊢
  repeat' split at h
  all_goals simp_all

/-- Where the function of a script variable is recorded, the variable holds one. -/
theorem plan_functionValue {t value : Tree} {env : Surroundings} {visit : Visit} {name : String}
    (h : (doc.plan env visit t).1 = .functionValue value name) :
    doc.role t = .var ∧ doc.functionValue? t = some value := by
  rw [plan] at h
  repeat' split at h
  all_goals simp_all

/-- A node is to be declared only when it is the definition of a decorated one. -/
theorem plan_leg_declare {t : Tree} {env : Surroundings} {visit : Visit} {leg : Leg}
    {decorators : List Tree} (hleg : leg ∈ (doc.plan env visit t).2)
    (hvisit : leg.visit = .declare decorators) :
    doc.role t = .decorated ∧ leg.child.inField "definition" = true ∧
      decorators = t.proper.filter fun n => doc.role n == .decorator := by
  have hall : leg ∉ t.allLegs := by
    intro hleg
    obtain ⟨v, _, rfl⟩ := List.mem_map.mp hleg
    cases hvisit
  have hfirst : ∀ {selects visit'}, t.firstLeg? selects visit' = some leg →
      visit' = .declare decorators ∧ selects leg.child = true := by
    intro selects visit' hfound
    obtain ⟨v, hv, rfl⟩ := Option.map_eq_some_iff.mp hfound
    have hselects := List.find?_some hv
    exact ⟨hvisit, hselects⟩
  have hor : ∀ {selects visit'}, leg ∈ t.firstLegOrAll selects visit' →
      visit' = .declare decorators ∧ selects leg.child = true := by
    intro selects visit' hmem
    rw [Tree.firstLegOrAll] at hmem
    cases hfound : t.firstLeg? selects visit' with
    | none => rw [hfound] at hmem; exact absurd hmem hall
    | some first =>
      rw [hfound] at hmem
      obtain rfl := List.mem_singleton.mp hmem
      exact hfirst hfound
  rw [plan] at hleg
  repeat' split at hleg
  all_goals
    first
    | exact absurd hleg hall
    | cases hleg
    | cases (hfirst (Option.mem_toList.mp hleg)).1
    | obtain ⟨⟨⟩, hfield⟩ := hor hleg
  -- Only a decorated node has a leg of this kind.
  exact ⟨by assumption, hfield, rfl⟩

end Document

/-- A node of a walk, with its surroundings and with what has been found before it. -/
structure Stop where
  env : Surroundings
  visit : Visit
  node : Tree
  found : Outline

namespace Document

/-- The first stop of a document. -/
def start (doc : Document) : Stop := ⟨{}, .look, doc.tree, {}⟩

/-- What is recorded at a stop. -/
def eventAt (doc : Document) (s : Stop) : Event := (doc.plan s.env s.visit s.node).1

/-- Where a walk goes on from a stop. -/
def legsAt (doc : Document) (s : Stop) : List Leg := (doc.plan s.env s.visit s.node).2

/-- What has been found after a stop itself. -/
def recorded (doc : Document) (s : Stop) : Outline :=
  (doc.eventAt s).record doc s.node s.env s.found

/-- What has been found when the walk leaves the node of a stop. -/
def final (doc : Document) (s : Stop) : Outline := doc.walk s.env s.visit s.node s.found

/-- The stop at the end of a leg. -/
def toward (doc : Document) (s : Stop) (leg : Leg) (found : Outline) : Stop where
  env := ((doc.eventAt s).inside doc s.node s.env s.found.next).below s.node
    (s.node.children.take leg.position).reverse
  visit := leg.visit
  node := leg.child
  found := found

/-- The stops at the ends of several legs, with the positions of their nodes. -/
def stopsAlong (doc : Document) (s : Stop) : List Leg → Outline → List (Nat × Stop)
  | [], _ => []
  | leg :: legs, found =>
    (leg.position, doc.toward s leg found) ::
      stopsAlong doc s legs (doc.final (doc.toward s leg found))

/-- The stops directly below a stop. -/
def stopsBelow (doc : Document) (s : Stop) : List (Nat × Stop) :=
  doc.stopsAlong s (doc.legsAt s) (doc.recorded s)

/-- A walk comes from a stop to the stop at an address below it. -/
inductive Comes (doc : Document) : Stop → List Nat → Stop → Prop
  | here {s : Stop} : Comes doc s [] s
  | onward {s next last : Stop} {i : Nat} {p : List Nat} (hnext : (i, next) ∈ doc.stopsBelow s)
      (hrest : Comes doc next p last) : Comes doc s (i :: p) last

variable {doc : Document} {s next last : Stop} {i : Nat} {p : List Nat}

/-- What a walk finds below a stop, it finds leg by leg. -/
theorem final_eq (s : Stop) :
    doc.final s =
      (doc.legsAt s).foldl (fun found leg => doc.final (doc.toward s leg found))
        (doc.recorded s) :=
  walk_eq s.env s.visit s.node s.found

/-- A stop along legs is at the end of one of them. -/
theorem mem_stopsAlong {legs : List Leg} {found : Outline}
    (h : (i, next) ∈ doc.stopsAlong s legs found) :
    ∃ leg ∈ legs, ∃ before, i = leg.position ∧ next = doc.toward s leg before := by
  induction legs generalizing found with
  | nil => simp [stopsAlong] at h
  | cons leg legs ih =>
    rw [stopsAlong, List.mem_cons] at h
    rcases h with h | h
    · obtain ⟨rfl, rfl⟩ := Prod.mk.inj h
      exact ⟨leg, List.mem_cons_self, found, rfl, rfl⟩
    · obtain ⟨other, hother, before, hi, hnext⟩ := ih h
      exact ⟨other, List.mem_cons_of_mem _ hother, before, hi, hnext⟩

/-- A stop directly below another is at one of its children. -/
theorem child_of_mem_stopsBelow (h : (i, next) ∈ doc.stopsBelow s) :
    s.node.children[i]? = some next.node := by
  obtain ⟨leg, hleg, _, rfl, rfl⟩ := mem_stopsAlong h
  exact (legsOf_plan s.env s.visit s.node).children leg hleg

/-- The node of a stop is the node at its address. -/
theorem Comes.subtree? (h : doc.Comes s p last) : s.node.subtree? p = some last.node := by
  induction h with
  | here => rfl
  | onward hnext _ ih =>
    exact Tree.subtree?_cons_eq_some.mpr ⟨_, child_of_mem_stopsBelow hnext, ih⟩

/-- Every stop but the first is directly below an earlier one. -/
theorem Comes.eq_or_concat (h : doc.Comes s p last) :
    p = [] ∧ last = s ∨
      ∃ q i before, p = q ++ [i] ∧ doc.Comes s q before ∧ (i, last) ∈ doc.stopsBelow before := by
  induction h with
  | here => exact .inl ⟨rfl, rfl⟩
  | @onward s next last i p hnext _ ih =>
    rcases ih with ⟨rfl, rfl⟩ | ⟨q, j, before, rfl, hbefore, hlast⟩
    · exact .inr ⟨[], i, s, rfl, .here, hnext⟩
    · exact .inr ⟨i :: q, j, before, rfl, .onward hnext hbefore, hlast⟩

/-- The stops of a walk in their order, with their addresses. Whatever grows by what is recorded at
each stop has grown at the end by all of it. -/
structure Trace (doc : Document) (s : Stop) (stops : List (List Nat × Stop)) : Prop where
  mem_iff : ∀ p last, (p, last) ∈ stops ↔ doc.Comes s p last
  nodup : (stops.map Prod.fst).Nodup
  gathers : ∀ {α : Type} (part : Outline → List α) (new : Stop → List α),
    (∀ s, part (doc.recorded s) = part s.found ++ new s) →
      part (doc.final s) = part s.found ++ stops.flatMap fun x => new x.2

/-- The traces of the stops along legs, in a row and with the positions of the legs, are what the
walk does along the legs. -/
theorem exists_trace_along (s : Stop) {legs : List Leg} {found : Outline}
    (hsorted : legs.Pairwise fun first second => first.position < second.position)
    (htraces : ∀ x ∈ doc.stopsAlong s legs found, ∃ stops, doc.Trace x.2 stops) :
    ∃ stops : List (List Nat × Stop),
      (∀ p last, (p, last) ∈ stops ↔
        ∃ i q next, p = i :: q ∧ (i, next) ∈ doc.stopsAlong s legs found ∧ doc.Comes next q last) ∧
      (stops.map Prod.fst).Nodup ∧
      ∀ {α : Type} (part : Outline → List α) (new : Stop → List α),
        (∀ s, part (doc.recorded s) = part s.found ++ new s) →
          part (legs.foldl (fun found leg => doc.final (doc.toward s leg found)) found) =
            part found ++ stops.flatMap fun x => new x.2 := by
  induction legs generalizing found with
  | nil => exact ⟨[], by simp [stopsAlong], .nil, by simp⟩
  | cons leg legs ih =>
    obtain ⟨hfirst, hrest⟩ := List.pairwise_cons.mp hsorted
    rw [stopsAlong, List.forall_mem_cons] at htraces
    obtain ⟨own, hown⟩ := htraces.1
    obtain ⟨later, hmem, hnodup, hgathers⟩ := ih hrest htraces.2
    refine ⟨own.map (fun x => (leg.position :: x.1, x.2)) ++ later, ?_, ?_, ?_⟩
    · intro p last
      rw [List.mem_append, hmem, stopsAlong]
      constructor
      · rintro (hp | ⟨i, q, next, rfl, hnext, hcomes⟩)
        · obtain ⟨⟨q, last⟩, hq, heq⟩ := List.mem_map.mp hp
          obtain ⟨rfl, rfl⟩ := Prod.mk.inj heq
          exact ⟨_, q, _, rfl, List.mem_cons_self, (hown.mem_iff q _).mp hq⟩
        · exact ⟨i, q, next, rfl, List.mem_cons_of_mem _ hnext, hcomes⟩
      · rintro ⟨i, q, next, rfl, hnext, hcomes⟩
        rcases List.mem_cons.mp hnext with heq | hnext
        · obtain ⟨rfl, rfl⟩ := Prod.mk.inj heq
          exact .inl (List.mem_map.mpr ⟨(q, last), (hown.mem_iff q last).mpr hcomes, rfl⟩)
        · exact .inr ⟨i, q, next, rfl, hnext, hcomes⟩
    · rw [List.map_append, List.nodup_append]
      refine ⟨?_, hnodup, ?_⟩
      · rw [List.map_map]
        have hprefixed := List.Nodup.map (List.cons_injective (a := leg.position)) hown.nodup
        rwa [List.map_map] at hprefixed
      · -- The addresses of the first leg start with its position, and later legs go further right.
        intro p hp p' hp' hsame
        obtain ⟨_, hx, rfl⟩ := List.mem_map.mp hp
        obtain ⟨x, _, rfl⟩ := List.mem_map.mp hx
        obtain ⟨⟨q, last⟩, hq, rfl⟩ := List.mem_map.mp hp'
        obtain ⟨i, q', next, rfl, hnext, _⟩ := (hmem _ _).mp hq
        obtain ⟨other, hother, _, rfl, _⟩ := mem_stopsAlong hnext
        have hless := hfirst other hother
        have hequal : leg.position = other.position := (List.cons.inj hsame).1
        omega
    · intro α part new hgrows
      rw [List.foldl_cons, hgathers part new hgrows, hown.gathers part new hgrows,
        List.flatMap_append, List.flatMap_map, List.append_assoc]
      rfl

/-- Every walk has a trace. -/
theorem exists_trace (s : Stop) : ∃ stops, doc.Trace s stops := by
  obtain ⟨env, visit, node, found⟩ := s
  induction node using Tree.induction_on_children generalizing env visit found with
  | hstep t ih =>
  set s : Stop := ⟨env, visit, t, found⟩
  have hsorted : (doc.legsAt s).Pairwise fun first second => first.position < second.position :=
    (legsOf_plan env visit t).sorted
  have htraces : ∀ x ∈ doc.stopsBelow s, ∃ stops, doc.Trace x.2 stops := by
    rintro ⟨i, next⟩ hx
    exact ih next.node (List.mem_of_getElem? (child_of_mem_stopsBelow hx)) _ _ _
  obtain ⟨stops, hmem, hnodup, hgathers⟩ := exists_trace_along s hsorted htraces
  refine ⟨([], s) :: stops, ?_, ?_, ?_⟩
  · intro p last
    rw [List.mem_cons, hmem]
    constructor
    · rintro (heq | ⟨i, q, next, rfl, hnext, hcomes⟩)
      · obtain ⟨rfl, rfl⟩ := Prod.mk.inj heq
        exact .here
      · exact .onward hnext hcomes
    · intro hcomes
      cases hcomes with
      | here => exact .inl rfl
      | onward hnext hrest => exact .inr ⟨_, _, _, rfl, hnext, hrest⟩
  · rw [List.map_cons, List.nodup_cons]
    refine ⟨?_, hnodup⟩
    intro hroot
    obtain ⟨⟨p, last⟩, hx, hp⟩ := List.mem_map.mp hroot
    obtain ⟨i, q, _, rfl, _⟩ := (hmem p last).mp hx
    cases hp
  · intro α part new hgrows
    rw [final_eq, hgathers part new hgrows, hgrows s, List.flatMap_cons, List.append_assoc]

/-- An address is the place of at most one stop. -/
theorem Comes.unique {other : Stop} (h : doc.Comes s p last) (h' : doc.Comes s p other) :
    last = other := by
  obtain ⟨stops, htrace⟩ := doc.exists_trace s
  have hinj := List.inj_on_of_nodup_map htrace.nodup
    ((htrace.mem_iff p last).mpr h) ((htrace.mem_iff p other).mpr h') rfl
  exact (Prod.mk.inj hinj).2

end Document

end CodeAtlas
