import CodeAtlas.Proofs.ScopeOpenings
import Mathlib.Logic.Relation

/-!
# The walk with brackets

The walk that reads an outline off a tree can be run with a stack of pending work. What surrounds
a node is then no argument that is passed down, but a state: the open scopes, the type whose methods
are walked and the number of nodes without a name around. A node that changes it leaves a bracket on
the stack, below its children, that changes it back.

A bracket that finds no scope to leave, or no node without a name, stops the walk. This never happens:
the walk comes to its end, every bracket restores the state before its node, and the nodes are visited
in the surroundings of the stops of the walk without a stack.
-/

namespace CodeAtlas

/-- Work that a walk has still to do. -/
inductive Pending where
  | visit (spine : Tree.Spine) (visit : Visit) (node : Tree)
  | leaveScope
  | restoreOwner (owner : Option String)
  | leaveAnonymous

/-- What a walk with a stack is inside of. -/
structure Nesting where
  /-- The entries whose scopes are open, innermost first. -/
  scope : List Nat := []
  /-- The type whose methods are walked. -/
  owner : Option String := none
  /-- The number of lambdas and comprehensions around. -/
  depth : Nat := 0

/-- A walk with a stack. -/
structure Walker where
  found : Outline
  nesting : Nesting
  pending : List Pending
  /-- The nodes that were visited, with their surroundings and with what had been found before. -/
  visited : List Stop

namespace Nesting

/-- What surrounds a node. Whether the innermost scope is that of a class is read off its entry. -/
def surroundings (n : Nesting) (entries : List Entry) (spine : Tree.Spine) : Surroundings where
  enclosing := n.scope.head?
  inClass := n.scope.head?.any fun k => entries[k]?.any (·.declaration.kind == .classLike)
  owner := n.owner
  anonymous := n.depth != 0
  spine := spine

/-- The innermost scope is that of an entry. -/
def Fits (n : Nesting) (entries : List Entry) : Prop := ∀ k ∈ n.scope.head?, k < entries.length

/-- Later entries do not change the surroundings. -/
theorem surroundings_of_prefix {n : Nesting} {entries later : List Entry} (hfits : n.Fits entries)
    (hlater : entries <+: later) (spine : Tree.Spine) :
    n.surroundings later spine = n.surroundings entries spine := by
  obtain ⟨new, rfl⟩ := hlater
  rw [surroundings, surroundings]
  cases hscope : n.scope.head? with
  | none => rfl
  | some k =>
    have hk : k < entries.length := hfits k hscope
    rw [Option.any_some, Option.any_some, List.getElem?_append_left hk]

/-- A nesting that fits goes on fitting. -/
theorem Fits.later {n : Nesting} {entries later : List Entry} (hfits : n.Fits entries)
    (hlater : entries <+: later) : n.Fits later :=
  fun k hk => Nat.lt_of_lt_of_le (hfits k hk) hlater.length_le

/-- Inside of a new scope. -/
theorem surroundings_open (n : Nesting) (entries : List Entry) (spine : Tree.Spine) (index : Nat)
    (owner : Option String) :
    surroundings ⟨index :: n.scope, owner, n.depth⟩ entries spine =
      { n.surroundings entries spine with
        enclosing := some index
        inClass := entries[index]?.any (·.declaration.kind == .classLike)
        owner := owner } :=
  rfl

end Nesting

namespace Event

/-- Does the event open a scope? -/
def opensScope : Event → Bool
  | declared _ _ | aggregate _ _ | functionValue _ _ => true
  | _ => false

/-- The nesting below a node, given the index of what was recorded there. -/
def nest (doc : Document) (t : Tree) (index : Nat) (n : Nesting) : Event → Nesting
  | passed | names => n
  | hidden => { n with depth := n.depth + 1 }
  | declared _ _ => { n with scope := index :: n.scope, owner := none }
  | aggregate _ _ | functionValue _ _ => { n with scope := index :: n.scope }
  | methods => { n with owner := doc.simpleName? t "type" }

/-- What changes the nesting back, given the owner before. -/
def brackets (owner : Option String) : Event → List Pending
  | passed | names => []
  | hidden => [.leaveAnonymous]
  | declared _ _ => [.leaveScope, .restoreOwner owner]
  | aggregate _ _ | functionValue _ _ => [.leaveScope]
  | methods => [.restoreOwner owner]

end Event

namespace Document

/-- The visit of the child at the end of a leg. -/
def visitOf (t : Tree) (spine : Tree.Spine) (leg : Leg) : Pending :=
  .visit (⟨t, (t.children.take leg.position).reverse⟩ :: spine) leg.visit leg.child

/-- One step of a walk with a stack. -/
def advance (doc : Document) (w : Walker) : Option Walker :=
  match w.pending, w.nesting with
  | [], _ => none
  | .leaveScope :: _, ⟨[], _, _⟩ => none
  | .leaveScope :: rest, ⟨_ :: scope, owner, depth⟩ =>
    some { w with nesting := ⟨scope, owner, depth⟩, pending := rest }
  | .restoreOwner owner :: rest, ⟨scope, _, depth⟩ =>
    some { w with nesting := ⟨scope, owner, depth⟩, pending := rest }
  | .leaveAnonymous :: _, ⟨_, _, 0⟩ => none
  | .leaveAnonymous :: rest, ⟨scope, owner, depth + 1⟩ =>
    some { w with nesting := ⟨scope, owner, depth⟩, pending := rest }
  | .visit spine visit t :: rest, n =>
    let s : Stop := ⟨n.surroundings w.found.entries spine, visit, t, w.found⟩
    some
      { found := doc.recorded s
        nesting := (doc.eventAt s).nest doc t w.found.next n
        pending := (doc.legsAt s).map (visitOf t spine) ++ (doc.eventAt s).brackets n.owner ++ rest
        visited := w.visited ++ [s] }

/-- A walk with a stack comes from one state to another. -/
def Advances (doc : Document) : Walker → Walker → Prop :=
  Relation.ReflTransGen fun w w' => doc.advance w = some w'

variable {doc : Document} {s : Stop} {n : Nesting} {found : Outline} {rest : List Pending}
  {visited : List Stop}

/-- An entry that opens a scope is a class when what is below it is inside of a class. -/
theorem recorded_opensScope (h : (doc.eventAt s).opensScope = true) :
    ∃ e, (doc.recorded s).entries = s.found.entries ++ [e] ∧
      (e.declaration.kind == .classLike) =
        ((doc.eventAt s).inside doc s.node s.env s.found.next).inClass := by
  rw [recorded]
  cases hevent : doc.eventAt s with
  | declared decorators header =>
    refine ⟨_, rfl, ?_⟩
    simp only [declarationOf, profiled, Event.inside, Surroundings.inside]
    by_cases hclass : doc.role s.node = .classLike
    · simp [hclass]
    · simp only [hclass, if_false]
      have hother : (doc.role s.node == Role.classLike) = false := beq_eq_false_iff_ne.mpr hclass
      rw [hother]
      split <;> rfl
  | aggregate node name => exact ⟨_, rfl, rfl⟩
  | functionValue value name => exact ⟨_, rfl, rfl⟩
  | _ => rw [hevent] at h; cases h

/-- Below a node the nesting fits what has been recorded. -/
theorem fits_nest (hfits : n.Fits s.found.entries) :
    ((doc.eventAt s).nest doc s.node s.found.next n).Fits (doc.recorded s).entries := by
  have hsame : n.Fits (doc.recorded s).entries := hfits.later (recorded_entries s)
  have hopened (hopens : (doc.eventAt s).opensScope = true) :
      s.found.next < (doc.recorded s).entries.length := by
    obtain ⟨e, hentries, _⟩ := recorded_opensScope hopens
    simp [hentries, Outline.next]
  cases hevent : doc.eventAt s with
  | declared | aggregate | functionValue =>
    intro k hk
    obtain rfl := Option.some.inj hk
    exact hopened (by rw [hevent]; rfl)
  | _ => exact hsame

/-- Below a node the surroundings that the state gives are those of the walk without a stack. -/
theorem surroundings_nest (hfits : n.Fits s.found.entries)
    (henv : n.surroundings s.found.entries s.env.spine = s.env)
    (hlater : (doc.recorded s).entries <+: found.entries) (leg : Leg) :
    ((doc.eventAt s).nest doc s.node s.found.next n).surroundings found.entries
        (⟨s.node, (s.node.children.take leg.position).reverse⟩ :: s.env.spine) =
      (doc.toward s leg found).env := by
  rw [Nesting.surroundings_of_prefix (fits_nest hfits) hlater]
  have hsame (spine : Tree.Spine) :
      n.surroundings (doc.recorded s).entries spine = { s.env with spine := spine } := by
    rw [Nesting.surroundings_of_prefix hfits (recorded_entries s), ← henv]
    rfl
  have hopened (hopens : (doc.eventAt s).opensScope = true) :
      ((doc.recorded s).entries[s.found.next]?).any (·.declaration.kind == .classLike) =
        ((doc.eventAt s).inside doc s.node s.env s.found.next).inClass := by
    obtain ⟨e, hentries, hclass⟩ := recorded_opensScope hopens
    simp [hentries, Outline.next, hclass]
  set spine : Tree.Spine := ⟨s.node, (s.node.children.take leg.position).reverse⟩ :: s.env.spine
  rw [toward]
  cases hevent : doc.eventAt s with
  | passed | names => exact hsame spine
  | hidden => exact congrArg (fun env => { env with anonymous := true }) (hsame spine)
  | methods =>
    exact congrArg (fun env => { env with owner := doc.simpleName? s.node "type" }) (hsame spine)
  | declared =>
    have hclass := hopened (by rw [hevent]; rfl)
    rw [Event.nest, Nesting.surroundings_open, hsame, hclass, hevent]
    rfl
  | aggregate | functionValue =>
    have hclass := hopened (by rw [hevent]; rfl)
    have howner : n.owner = s.env.owner := congrArg Surroundings.owner henv
    rw [Event.nest, Nesting.surroundings_open, hsame, hclass, hevent, howner]
    rfl

/-- What a bracket ends is restored: from below a node the walk comes back to the nesting around it. -/
theorem advances_brackets (event : Event) (t : Tree) (index : Nat) (n : Nesting) :
    doc.Advances ⟨found, event.nest doc t index n, event.brackets n.owner ++ rest, visited⟩
      ⟨found, n, rest, visited⟩ := by
  cases event with
  | passed | names => exact .refl
  | hidden | aggregate | functionValue | methods => exact .single rfl
  | declared => exact .head rfl (.single rfl)

/-- A leg goes one node down. -/
theorem toward_spine (s : Stop) (leg : Leg) (found : Outline) :
    (doc.toward s leg found).env.spine =
      ⟨s.node, (s.node.children.take leg.position).reverse⟩ :: s.env.spine := by
  rw [toward]
  cases doc.eventAt s <;> rfl

/-- The stops to which a walk comes along legs. -/
def ComesAlong (doc : Document) (s : Stop) (legs : List Leg) (found : Outline) (last : Stop) : Prop :=
  ∃ i next p, (i, next) ∈ doc.stopsAlong s legs found ∧ doc.Comes next p last

/-- Along legs the walk with a stack finds what the walk without one finds. -/
theorem advances_along {legs : List Leg}
    (hbelow : ∀ leg ∈ legs, ∀ found rest visited, (doc.recorded s).entries <+: found.entries →
      ∃ log, doc.Advances ⟨found, n, visitOf s.node s.env.spine leg :: rest, visited⟩
          ⟨doc.final (doc.toward s leg found), n, rest, visited ++ log⟩ ∧
        ∀ last, last ∈ log ↔ ∃ p, doc.Comes (doc.toward s leg found) p last)
    (hlater : (doc.recorded s).entries <+: found.entries) (rest : List Pending)
    (visited : List Stop) :
    ∃ log, doc.Advances
        ⟨found, n, legs.map (visitOf s.node s.env.spine) ++ rest, visited⟩
        ⟨legs.foldl (fun found leg => doc.final (doc.toward s leg found)) found, n, rest,
          visited ++ log⟩ ∧
      ∀ last, last ∈ log ↔ doc.ComesAlong s legs found last := by
  induction legs generalizing found visited with
  | nil =>
    refine ⟨[], ?_, by simp [ComesAlong, stopsAlong]⟩
    rw [List.append_nil]
    exact .refl
  | cons leg legs ih =>
    obtain ⟨first, hfirst, hmem⟩ := hbelow leg List.mem_cons_self found
      (legs.map (visitOf s.node s.env.spine) ++ rest) visited hlater
    obtain ⟨later, hrest, hmem'⟩ := ih
      (fun leg hleg => hbelow leg (List.mem_cons_of_mem _ hleg))
      (hlater.trans (final_entries (doc.toward s leg found))) (visited ++ first)
    refine ⟨first ++ later, ?_, fun last => ?_⟩
    · rw [← List.append_assoc]
      exact hfirst.trans hrest
    · rw [List.mem_append, hmem, hmem']
      constructor
      · rintro (⟨p, hcomes⟩ | ⟨i, next, p, hnext, hcomes⟩)
        · exact ⟨_, _, p, List.mem_cons_self, hcomes⟩
        · exact ⟨i, next, p, List.mem_cons_of_mem _ hnext, hcomes⟩
      · rintro ⟨i, next, p, hnext, hcomes⟩
        rcases List.mem_cons.mp hnext with heq | hnext
        · obtain ⟨rfl, rfl⟩ := Prod.mk.inj heq
          exact .inl ⟨p, hcomes⟩
        · exact .inr ⟨i, next, p, hnext, hcomes⟩

/-- A stop comes to itself and to what it comes to along its legs. -/
theorem exists_comes_iff {last : Stop} :
    (∃ p, doc.Comes s p last) ↔
      last = s ∨ doc.ComesAlong s (doc.legsAt s) (doc.recorded s) last := by
  constructor
  · rintro ⟨p, hcomes⟩
    cases hcomes with
    | here => exact .inl rfl
    | onward hnext hrest => exact .inr ⟨_, _, _, hnext, hrest⟩
  · rintro (rfl | ⟨i, next, p, hnext, hcomes⟩)
    · exact ⟨[], .here⟩
    · exact ⟨i :: p, .onward hnext hcomes⟩

/-- The visit of a stop records what is found there, and leaves its legs and then its brackets to be
done. -/
theorem advance_visit (henv : n.surroundings s.found.entries s.env.spine = s.env) :
    doc.advance ⟨s.found, n, .visit s.env.spine s.visit s.node :: rest, visited⟩ =
      some ⟨doc.recorded s, (doc.eventAt s).nest doc s.node s.found.next n,
        (doc.legsAt s).map (visitOf s.node s.env.spine) ++
          ((doc.eventAt s).brackets n.owner ++ rest),
        visited ++ [s]⟩ := by
  simp only [advance, henv, List.append_assoc]

/-- From the visit of a stop the walk with a stack comes to what is pending below, with what the walk
without one finds and in the same nesting. -/
theorem advances_stop (s : Stop) (hfits : n.Fits s.found.entries)
    (henv : n.surroundings s.found.entries s.env.spine = s.env) (rest : List Pending)
    (visited : List Stop) :
    ∃ log, doc.Advances ⟨s.found, n, .visit s.env.spine s.visit s.node :: rest, visited⟩
        ⟨doc.final s, n, rest, visited ++ log⟩ ∧
      ∀ last, last ∈ log ↔ ∃ p, doc.Comes s p last := by
  obtain ⟨env, visit, node, found⟩ := s
  induction node using Tree.induction_on_children generalizing n env visit found rest visited with
  | hstep t ih =>
  set s : Stop := ⟨env, visit, t, found⟩
  have hbelow : ∀ leg ∈ doc.legsAt s, ∀ found' rest visited,
      (doc.recorded s).entries <+: found'.entries →
      ∃ log, doc.Advances
          ⟨found', (doc.eventAt s).nest doc t found.next n, visitOf t env.spine leg :: rest, visited⟩
          ⟨doc.final (doc.toward s leg found'), (doc.eventAt s).nest doc t found.next n, rest,
            visited ++ log⟩ ∧
        ∀ last, last ∈ log ↔ ∃ p, doc.Comes (doc.toward s leg found') p last := by
    intro leg hleg found' rest visited hlater
    have hchild : leg.child ∈ t.children :=
      List.mem_of_getElem? ((legsOf_plan env visit t).children leg hleg)
    have hnested := surroundings_nest (s := s) hfits henv hlater leg
    rw [visitOf, ← toward_spine s leg found']
    rw [← toward_spine s leg found'] at hnested
    exact ih leg.child hchild rest visited (doc.toward s leg found').env leg.visit found'
      ((fits_nest hfits).later hlater) hnested
  obtain ⟨log, hlegs, hmem⟩ := advances_along hbelow (List.prefix_refl (doc.recorded s).entries)
    ((doc.eventAt s).brackets n.owner ++ rest) (visited ++ [s])
  refine ⟨s :: log, ?_, fun last => ?_⟩
  · rw [← List.append_cons] at hlegs
    rw [final_eq]
    exact .head (advance_visit (s := s) henv) (hlegs.trans (advances_brackets _ _ _ _))
  · rw [List.mem_cons, hmem, exists_comes_iff]

/-- The start of a walk with a stack. -/
def outset (doc : Document) : Walker := ⟨{}, {}, [.visit [] .look doc.tree], []⟩

/-- The walk with a stack comes to its end, with the outline of the document, outside of all scopes,
blocks of methods and nodes without a name. It has visited the stops of the walk without a stack. -/
theorem advances_outline (doc : Document) :
    ∃ visited, doc.Advances doc.outset ⟨doc.outline, {}, [], visited⟩ ∧
      ∀ s, s ∈ visited ↔ ∃ p, doc.Comes doc.start p s := by
  obtain ⟨log, hlog, hmem⟩ := doc.advances_stop doc.start (n := {}) (fun k hk => nomatch hk) rfl [] []
  exact ⟨log, hlog, hmem⟩

end Document

end CodeAtlas
