import CodeAtlas.Proofs.Itinerary

/-!
# Declarations that open scopes

At a stop of a walk at most one declaration is recorded that opens a scope: for the node of the stop
itself, or for the aggregate that a type definition names. The aggregate is then only entered, so
every node opens at most one scope. The scopes of an outline are those of all stops, and the entry of
each is the one that was recorded there.
-/

namespace CodeAtlas

/-- The first child in a field has a position. -/
theorem Tree.exists_fieldIndex? {t c : Tree} {name : String} (h : t.field? name = some c) :
    ∃ i, t.fieldIndex? name = some i ∧ t.children[i]? = some c := by
  obtain ⟨hfield, i, hi, hchild, hearlier⟩ := List.find?_eq_some_iff_getElem.mp h
  refine ⟨i, List.findIdx?_eq_some_iff_getElem.mpr ⟨hi, hchild ▸ hfield, fun j hj => ?_⟩, ?_⟩
  · simpa using hearlier j hj
  · rw [List.getElem?_eq_getElem hi, hchild]

/-- Only entries have been added. -/
structure Outline.Appends (out out' : Outline) : Prop where
  entries : out.entries <+: out'.entries
  scopes : out'.scopes = out.scopes
  decoratorCalls : out'.decoratorCalls = out.decoratorCalls

namespace Document

variable {doc : Document} {s next last : Stop} {i k : Nat} {p q r : List Nat} {n : Tree}

/-- Recording variables and prototypes only adds entries. -/
theorem addVariables_appends (t : Tree) (env : Surroundings) (out : Outline) :
    out.Appends (doc.addVariables t env out) := by
  have hadd (acc : Outline) (e : Entry) (h : out.Appends acc) : out.Appends (acc.add e) :=
    ⟨h.entries.trans (List.prefix_append _ _), h.scopes, h.decoratorCalls⟩
  have hvariable (acc : Outline) (name : String) (h : out.Appends acc) :
      out.Appends (doc.addVariable t env acc name) := by
    rw [addVariable]
    split
    · exact h
    · exact hadd acc _ h
  have hdeclarator (acc : Outline) (declarator : Tree) (h : out.Appends acc) :
      out.Appends (doc.addDeclarator t env acc declarator) := by
    rw [addDeclarator]
    split
    · exact hadd acc _ h
    · split
      · cases doc.declaratorIdentifier? declarator with
        | none => exact h
        | some name => exact hvariable acc name h
      · exact h
  have hself : out.Appends out := ⟨List.prefix_refl _, rfl, rfl⟩
  have hdeclarators : out.Appends ((t.inFields "declarator").foldl (doc.addDeclarator t env) out) :=
    List.foldlRecOn _ _ hself fun acc h declarator _ => hdeclarator acc declarator h
  rw [addVariables]
  split
  · split
    · exact hdeclarators
    · exact hself
  · split
    · exact hdeclarators
    · exact hself
  · exact List.foldlRecOn _ _ hself fun acc h name _ => hvariable acc name h

/-- Recording a trait adds nothing else. -/
theorem addTrait_appends (t : Tree) (out : Outline) : out.Appends (doc.addTrait t out) := by
  rw [addTrait]
  split <;> exact ⟨List.prefix_refl _, rfl, rfl⟩

/-- The aggregate that a type definition names has a body, and is the first child in the field of the
type. -/
theorem namedAggregate?_spec {t node : Tree} {name : String}
    (h : doc.namedAggregate? t = some (node, name)) :
    t.field? "type" = some node ∧ doc.role node = .classLike ∧ (node.field? "body").isSome := by
  rw [namedAggregate?] at h
  split at h
  · cases h
  · obtain ⟨aggregate, htype, h⟩ := Option.bind_eq_some_iff.mp h
    split at h
    · cases h
    · rename_i hclass
      obtain ⟨body, hbody, h⟩ := Option.bind_eq_some_iff.mp h
      obtain ⟨declarator, _, h⟩ := Option.bind_eq_some_iff.mp h
      obtain ⟨_, _, h⟩ := Option.bind_eq_some_iff.mp h
      cases h
      simp only [ne_eq, Bool.or_eq_true, decide_eq_true_eq, not_or, not_not] at hclass
      exact ⟨htype, hclass.1, Option.isSome_of_eq_some hbody⟩

/-- Where an aggregate is recorded, its scope is that of a child. -/
theorem opened_aggregate {node : Tree} {name : String} (h : doc.eventAt s = .aggregate node name) :
    ∃ i, (doc.eventAt s).opened s.node = some ([i], node) ∧ s.node.children[i]? = some node := by
  obtain ⟨hnamed, -⟩ := plan_aggregate h
  obtain ⟨i, hi, hchild⟩ := Tree.exists_fieldIndex? (namedAggregate?_spec hnamed).1
  exact ⟨i, by rw [h, Event.opened, hi]; rfl, hchild⟩

/-- A scope is opened for the node of a stop, or for the aggregate among its children. -/
theorem opened_cases (h : (doc.eventAt s).opened s.node = some (r, n)) :
    (∃ decorators header, doc.eventAt s = .declared decorators header ∧ r = [] ∧ n = s.node) ∨
      (∃ value name, doc.eventAt s = .functionValue value name ∧ r = [] ∧ n = s.node) ∨
      ∃ i name, doc.eventAt s = .aggregate n name ∧ r = [i] ∧ s.node.children[i]? = some n := by
  cases hevent : doc.eventAt s with
  | declared decorators header =>
    rw [hevent] at h
    cases h
    exact .inl ⟨decorators, header, rfl, rfl, rfl⟩
  | functionValue value name =>
    rw [hevent] at h
    cases h
    exact .inr (.inl ⟨value, name, rfl, rfl, rfl⟩)
  | aggregate node name =>
    obtain ⟨i, hopened, hchild⟩ := opened_aggregate hevent
    obtain ⟨rfl, rfl⟩ := Prod.mk.inj (Option.some.inj (hopened.symm.trans h))
    exact .inr (.inr ⟨i, name, rfl, rfl, hchild⟩)
  | _ => rw [hevent] at h; cases h

/-- What is recorded at a stop opens the scopes that its event tells. -/
theorem recorded_scopes (s : Stop) :
    (doc.recorded s).scopes =
      ((doc.eventAt s).opened s.node).toList.map (fun x => (x.2.range, s.found.next)) ++
        s.found.scopes := by
  have hopening (e : Entry) (t : Tree) :
      ((s.found.add e).opening t).scopes = (t.range, s.found.next) :: s.found.scopes := by
    simp [Outline.opening, Outline.add, Outline.next]
  rw [recorded]
  cases hevent : doc.eventAt s with
  | passed | hidden => rfl
  | declared | functionValue => exact hopening _ _
  | aggregate node name =>
    obtain ⟨i, hopened, _⟩ := opened_aggregate hevent
    rw [← hevent, hopened]
    rw [hevent]
    exact hopening _ _
  | names => exact (addVariables_appends s.node s.env s.found).scopes
  | methods => exact (addTrait_appends s.node s.found).scopes

/-- A stop only adds entries. -/
theorem recorded_entries (s : Stop) : s.found.entries <+: (doc.recorded s).entries := by
  rw [recorded]
  cases doc.eventAt s with
  | passed | hidden => exact List.prefix_refl _
  | declared | functionValue | aggregate => exact List.prefix_append _ _
  | names => exact (addVariables_appends s.node s.env s.found).entries
  | methods => exact (addTrait_appends s.node s.found).entries

/-- The entry that opens a scope is a function or a class with a body of its own, and has the extent
of the node whose scope it opens. -/
theorem recorded_opened (h : (doc.eventAt s).opened s.node = some (r, n)) :
    ∃ e, (doc.recorded s).entries = s.found.entries ++ [e] ∧ e.isPrototype = false ∧
      e.declaration.kind ≠ .var ∧ e.declaration.extent = doc.extent n := by
  rw [recorded]
  obtain ⟨_, _, hevent, rfl, rfl⟩ | ⟨_, _, hevent, rfl, rfl⟩ | ⟨_, _, hevent, rfl, _⟩ :=
    opened_cases h <;> rw [hevent]
  · refine ⟨_, rfl, rfl, ?_, rfl⟩
    simp only [declarationOf, profiled]
    split
    · simp
    · split <;> simp
  · exact ⟨_, rfl, rfl, by simp [profiled], rfl⟩
  · exact ⟨_, rfl, rfl, by simp [profiled], rfl⟩

/-- A walk only adds entries. -/
theorem final_entries (s : Stop) : s.found.entries <+: (doc.final s).entries := by
  obtain ⟨stops, htrace⟩ := doc.exists_trace s
  rw [htrace.gathers (·.entries) (fun s => (doc.recorded s).entries.drop s.found.entries.length)
    fun s => (List.prefix_iff_eq_append.mp (doc.recorded_entries s)).symm]
  exact List.prefix_append _ _

/-- A walk along legs only adds entries. -/
theorem entries_along (s : Stop) (legs : List Leg) (found : Outline) :
    found.entries <+:
      (legs.foldl (fun found leg => doc.final (doc.toward s leg found)) found).entries := by
  induction legs generalizing found with
  | nil => exact List.prefix_refl _
  | cons leg legs ih => exact (doc.final_entries (doc.toward s leg found)).trans (ih _)

/-- What has been found at the end of a leg is there when all legs have been walked. -/
theorem final_entries_of_mem_stopsAlong {legs : List Leg} {found : Outline}
    (h : (i, next) ∈ doc.stopsAlong s legs found) :
    (doc.final next).entries <+:
      (legs.foldl (fun found leg => doc.final (doc.toward s leg found)) found).entries := by
  induction legs generalizing found with
  | nil => simp [stopsAlong] at h
  | cons leg legs ih =>
    rw [stopsAlong, List.mem_cons] at h
    rcases h with h | h
    · obtain ⟨rfl, rfl⟩ := Prod.mk.inj h
      exact doc.entries_along s legs (doc.final (doc.toward s leg found))
    · exact ih h

/-- What has been recorded at a stop is there at the end of the walk. -/
theorem Comes.entries (h : doc.Comes s p last) :
    (doc.recorded last).entries <+: (doc.final s).entries := by
  induction h with
  | @here s =>
    rw [final_eq]
    exact doc.entries_along s (doc.legsAt s) (doc.recorded s)
  | @onward s next last i p hnext _ ih =>
    rw [final_eq]
    exact ih.trans (final_entries_of_mem_stopsAlong hnext)

/-- The node at an address opens a scope for the entry with an index. -/
def Declares (doc : Document) (address : List Nat) (n : Tree) (index : Nat) : Prop :=
  ∃ p s r, doc.Comes doc.start p s ∧ (doc.eventAt s).opened s.node = some (r, n) ∧
    address = p ++ r ∧ index = s.found.next

/-- What opens a scope is a node of the tree. -/
theorem Declares.subtree? (h : doc.Declares q n k) : doc.tree.subtree? q = some n := by
  obtain ⟨p, s, r, hcomes, hopened, rfl, _⟩ := h
  have hnode : doc.tree.subtree? p = some s.node := hcomes.subtree?
  obtain ⟨_, _, _, rfl, rfl⟩ | ⟨_, _, _, rfl, rfl⟩ | ⟨_, _, _, rfl, hchild⟩ := opened_cases hopened
  · rwa [List.append_nil]
  · rwa [List.append_nil]
  · exact Tree.subtree?_concat hnode hchild

/-- Where a scope is opened for a child, none is opened at the child itself, which is only
entered. -/
theorem opened_below_aggregate (h : (doc.eventAt s).opened s.node = some ([i], n))
    (hnext : (i, next) ∈ doc.stopsBelow s) : (doc.eventAt next).opened next.node = none := by
  obtain ⟨_, _, _, hr, _⟩ | ⟨_, _, _, hr, _⟩ | ⟨_, _, hevent, _, _⟩ := opened_cases h
  · cases hr
  · cases hr
  · obtain ⟨leg, hleg, _, rfl, rfl⟩ := mem_stopsAlong hnext
    rw [legsAt, (plan_aggregate hevent).2, Option.mem_toList] at hleg
    obtain ⟨v, _, rfl⟩ := Option.map_eq_some_iff.mp hleg
    rfl

/-- The scope of a child is not opened at the child. -/
theorem opened_clash {s' : Stop} {n' : Tree} (hcomes : doc.Comes doc.start (p ++ [i]) s)
    (hopened : (doc.eventAt s).opened s.node = some ([], n)) (hcomes' : doc.Comes doc.start p s')
    (hopened' : (doc.eventAt s').opened s'.node = some ([i], n')) : False := by
  rcases hcomes.eq_or_concat with ⟨hroot, _⟩ | ⟨q, j, before, haddress, hbefore, hlast⟩
  · simp at hroot
  · obtain ⟨rfl, hj⟩ := List.append_inj' haddress rfl
    obtain rfl := List.singleton_inj.mp hj
    obtain rfl := hbefore.unique hcomes'
    cases (opened_below_aggregate hopened' hlast).symm.trans hopened

/-- A scope is opened for a node at its own address or directly below it. -/
theorem opened_address (h : (doc.eventAt s).opened s.node = some (r, n)) :
    r = [] ∨ ∃ i, r = [i] := by
  obtain ⟨_, _, _, hr, _⟩ | ⟨_, _, _, hr, _⟩ | ⟨i, _, _, hr, _⟩ := opened_cases h
  · exact .inl hr
  · exact .inl hr
  · exact .inr ⟨i, hr⟩

/-- A node opens at most one scope. -/
theorem Declares.unique {n' : Tree} {k' : Nat} (h : doc.Declares q n k)
    (h' : doc.Declares q n' k') : k = k' := by
  obtain ⟨p, s, r, hcomes, hopened, rfl, rfl⟩ := h
  obtain ⟨p', s', r', hcomes', hopened', haddress, rfl⟩ := h'
  have hstop : p = p' → s.found.next = s'.found.next := by
    rintro rfl
    rw [hcomes.unique hcomes']
  -- A node is declared at its own stop or at that of its parent, but never at both.
  rcases opened_address hopened with rfl | ⟨i, rfl⟩ <;>
    rcases opened_address hopened' with rfl | ⟨j, rfl⟩
  · exact hstop (List.append_cancel_right haddress)
  · rw [List.append_nil] at haddress
    exact (opened_clash (haddress ▸ hcomes) hopened hcomes' hopened').elim
  · rw [List.append_nil] at haddress
    exact (opened_clash (haddress ▸ hcomes') hopened' hcomes hopened).elim
  · exact hstop (List.append_inj' haddress rfl).1

/-- The scopes of an outline are those that nodes open. -/
theorem mem_scopes_outline {range : Nat × Nat} :
    (range, k) ∈ doc.outline.scopes ↔ ∃ q n, doc.Declares q n k ∧ n.range = range := by
  obtain ⟨stops, htrace⟩ := doc.exists_trace doc.start
  have hscopes := htrace.gathers (fun out => out.scopes.reverse)
    (fun s => ((doc.eventAt s).opened s.node).toList.map fun x => (x.2.range, s.found.next)) ?_
  · have houtline : doc.outline.scopes = (doc.final doc.start).scopes := rfl
    rw [houtline, ← List.mem_reverse, hscopes]
    change _ ∈ List.flatMap _ stops ↔ _
    constructor
    · intro hmem
      obtain ⟨⟨p, s⟩, hstop, hscope⟩ := List.mem_flatMap.mp hmem
      obtain ⟨⟨r, n⟩, hopened, heq⟩ := List.mem_map.mp hscope
      obtain ⟨rfl, rfl⟩ := Prod.mk.inj heq
      exact ⟨p ++ r, n, ⟨p, s, r, (htrace.mem_iff p s).mp hstop, Option.mem_toList.mp hopened, rfl,
        rfl⟩, rfl⟩
    · rintro ⟨q, n, ⟨p, s, r, hcomes, hopened, rfl, rfl⟩, rfl⟩
      refine List.mem_flatMap.mpr ⟨(p, s), (htrace.mem_iff p s).mpr hcomes, ?_⟩
      exact List.mem_map.mpr ⟨(r, n), Option.mem_toList.mpr hopened, rfl⟩
  · intro s
    rw [recorded_scopes, List.reverse_append]
    cases (doc.eventAt s).opened s.node <;> rfl

/-- The entry of a node that opens a scope is a function or a class with a body of its own, and has
the extent of the node. -/
theorem Declares.entry (h : doc.Declares q n k) :
    ∃ e, doc.outline.entries[k]? = some e ∧ e.isPrototype = false ∧ e.declaration.kind ≠ .var ∧
      e.declaration.extent = doc.extent n := by
  obtain ⟨p, s, r, hcomes, hopened, rfl, rfl⟩ := h
  obtain ⟨e, hentries, hbody, hkind, hextent⟩ := recorded_opened hopened
  obtain ⟨later, hlater⟩ := hcomes.entries
  refine ⟨e, ?_, hbody, hkind, hextent⟩
  have houtline : doc.outline.entries = (s.found.entries ++ [e]) ++ later := by
    rw [← hentries, hlater]
    rfl
  simp [houtline, Outline.next]

/-- What opens a scope has a header, holds a function, or is an aggregate with a body. -/
theorem Declares.declarable (h : doc.Declares q n k) :
    (doc.header? n).isSome ∨ (doc.functionValue? n).isSome ∨
      doc.role n = .classLike ∧ (n.field? "body").isSome := by
  obtain ⟨p, s, r, _, hopened, _, _⟩ := h
  obtain ⟨_, _, hevent, _, rfl⟩ | ⟨_, _, hevent, _, rfl⟩ | ⟨_, _, hevent, _, _⟩ :=
    opened_cases hopened
  · exact .inl (Option.isSome_of_eq_some (plan_declared hevent).2)
  · exact .inr (.inl (Option.isSome_of_eq_some (plan_functionValue hevent).2))
  · exact .inr (.inr (namedAggregate?_spec (plan_aggregate hevent).1).2)

/-- The node at an address is a declaration: its kind can open a scope, or it is what a decorated
definition defines. -/
def IsDeclaration (doc : Document) (address : List Nat) (n : Tree) : Prop :=
  doc.tree.subtree? address = some n ∧
    (doc.opensScope n = true ∨
      ∃ p i d, address = p ++ [i] ∧ doc.tree.subtree? p = some d ∧ doc.role d = .decorated ∧
        n.inField "definition" = true)

/-- A stop that is to be declared is the definition of a decorated node. -/
theorem decorated_of_visit_declare {decorators : List Tree} (hcomes : doc.Comes doc.start p s)
    (hvisit : s.visit = .declare decorators) :
    ∃ q i before, p = q ++ [i] ∧ doc.Comes doc.start q before ∧ (i, s) ∈ doc.stopsBelow before ∧
      doc.role before.node = .decorated ∧ s.node.inField "definition" = true ∧
      decorators = before.node.proper.filter fun n => doc.role n == .decorator := by
  rcases hcomes.eq_or_concat with ⟨_, rfl⟩ | ⟨q, i, before, rfl, hbefore, hlast⟩
  · cases hvisit
  · obtain ⟨leg, hleg, _, rfl, rfl⟩ := mem_stopsAlong hlast
    exact ⟨q, _, before, rfl, hbefore, hlast, plan_leg_declare hleg hvisit⟩

/-- What opens a scope is a declaration. -/
theorem Declares.isDeclaration (h : doc.Declares q n k) : doc.IsDeclaration q n := by
  refine ⟨h.subtree?, ?_⟩
  obtain ⟨p, s, r, hcomes, hopened, rfl, _⟩ := h
  obtain ⟨_, _, hevent, rfl, rfl⟩ | ⟨_, _, hevent, rfl, rfl⟩ | ⟨_, _, hevent, rfl, _⟩ :=
    opened_cases hopened
  · rcases refine_eq_declare (plan_declared hevent).1 with hvisit | ⟨_, _, hrole⟩
    · obtain ⟨q, i, before, rfl, hbefore, _, hrole, hfield, _⟩ :=
        decorated_of_visit_declare hcomes hvisit
      exact .inr ⟨q, i, before.node, List.append_nil _, hbefore.subtree?, hrole, hfield⟩
    · refine .inl ?_
      rw [opensScope]
      rcases hrole with hrole | hrole <;> rw [hrole]
  · obtain ⟨hrole, hvalue⟩ := plan_functionValue hevent
    exact .inl (by rw [opensScope, hrole, hvalue]; rfl)
  · have hrole := (namedAggregate?_spec (plan_aggregate hevent).1).2.1
    exact .inl (by rw [opensScope, hrole])

/-- The calls that the decorators of a declaration make, as they are recorded at its stop. -/
def decoratorCallsAt (doc : Document) (s : Stop) : List CallFact :=
  match doc.eventAt s with
  | .declared decorators _ =>
    ((decorators.map doc.decoratorFact).filterMap (·.2)).map fun call =>
      { call with caller := s.env.enclosing, decorates := some s.found.next }
  | _ => []

/-- What is recorded at a stop has the calls of its decorators. -/
theorem recorded_decoratorCalls (s : Stop) :
    (doc.recorded s).decoratorCalls = s.found.decoratorCalls ++ doc.decoratorCallsAt s := by
  rw [recorded, decoratorCallsAt]
  cases doc.eventAt s with
  | declared => rfl
  | names =>
    rw [List.append_nil]
    exact (addVariables_appends s.node s.env s.found).decoratorCalls
  | methods =>
    rw [List.append_nil]
    exact (addTrait_appends s.node s.found).decoratorCalls
  | _ => exact (List.append_nil _).symm

/-- The decorator calls of an outline are those recorded at the stops, in their order. -/
theorem Trace.outline_decoratorCalls {stops : List (List Nat × Stop)}
    (h : doc.Trace doc.start stops) :
    doc.outline.decoratorCalls = stops.flatMap fun x => doc.decoratorCallsAt x.2 :=
  h.gathers (·.decoratorCalls) doc.decoratorCallsAt recorded_decoratorCalls

/-- The call that a decorator makes is a decorator call. -/
theorem kind_of_decoratorFact {t : Tree} {call : CallFact} (h : (doc.decoratorFact t).2 = some call) :
    call.kind = .decoratorCall := by
  rw [decoratorFact] at h
  split at h
  · rw [annotationFact] at h
    dsimp only at h
    split at h
    · exact Option.some.inj h ▸ rfl
    · cases h
  · split at h
    · cases h
    · split at h
      · exact Option.some.inj h ▸ rfl
      · cases h

/-- All decorator calls of an outline are of that kind. -/
theorem outline_decoratorCalls_kind :
    ∀ call ∈ doc.outline.decoratorCalls, call.kind = .decoratorCall := by
  obtain ⟨stops, htrace⟩ := doc.exists_trace doc.start
  intro call hcall
  rw [htrace.outline_decoratorCalls] at hcall
  obtain ⟨⟨p, s⟩, _, hcall⟩ := List.mem_flatMap.mp hcall
  rw [decoratorCallsAt] at hcall
  split at hcall
  · obtain ⟨made, hmade, rfl⟩ := List.mem_map.mp hcall
    obtain ⟨fact, hfact, hmade⟩ := List.mem_filterMap.mp hmade
    obtain ⟨decorator, _, rfl⟩ := List.mem_map.mp hfact
    have hkind := kind_of_decoratorFact hmade
    exact hkind
  · cases hcall

end Document

end CodeAtlas
