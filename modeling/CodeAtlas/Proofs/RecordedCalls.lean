import CodeAtlas.Proofs.DecoratorCalls

/-!
# How recorded calls are written

Every call in the facts of a document is written as the callee of a node of its tree: of a plain
call, a constructor call or a macro invocation, or of an annotation with arguments. Who makes the
call, and what it decorates, is found elsewhere and does not show in how it is written.
-/

namespace CodeAtlas

/-- A recorded call is written as a callee. -/
structure CallFact.IsWrittenAs (call : CallFact) (callee : Callee) : Prop where
  text : call.callee = callee.text
  name : call.name = callee.name
  receiver : call.receiver = callee.receiver.map Receiver.text

namespace Document

variable {doc : Document} {t : Tree} {p : List Nat} {call : CallFact}

/-- What an annotation calls. -/
def annotationCallee (doc : Document) (t : Tree) : Callee :=
  let name := (doc.fieldText? t "name").getD ""
  { text := name, name := Text.lastSegment name }

/-- A node has a callee by its form. -/
inductive HasCallee (doc : Document) (t : Tree) : Callee → Prop
  | plain (hrole : doc.role t = .call) : HasCallee doc t (doc.callCallee t)
  | constructed (hrole : doc.role t = .constructorCall) : HasCallee doc t (doc.constructorCallee t)
  | macroUse (hrole : doc.role t = .macroCall) : HasCallee doc t (doc.macroCallee t)
  | annotated (hkind : t.kind = "annotation") : HasCallee doc t (doc.annotationCallee t)

/-- A recorded call is written as the callee of a node of the document. -/
def IsRecorded (doc : Document) (call : CallFact) : Prop :=
  ∃ p t callee, doc.tree.subtree? p = some t ∧ doc.HasCallee t callee ∧ call.IsWrittenAs callee

/-- Who makes a call and what it decorates does not show in how it is written. -/
theorem IsRecorded.assigned (h : doc.IsRecorded call) (caller decorates : Option Nat) :
    doc.IsRecorded { call with caller := caller, decorates := decorates } := by
  obtain ⟨p, t, callee, hnode, hcallee, hwritten⟩ := h
  exact ⟨p, t, callee, hnode, hcallee, hwritten.text, hwritten.name, hwritten.receiver⟩

/-- A site is written as the callee that it is made of. -/
theorem siteOf_isWrittenAs (t : Tree) (scopes : List (Nat × Nat)) (callee : Callee) (kind : CallKind)
    (arguments : Option Tree) :
    (doc.siteOf t scopes callee kind arguments).call.IsWrittenAs callee :=
  ⟨rfl, rfl, rfl⟩

/-- The site of a node is written as the callee of the node. -/
theorem IsSiteOf.exists_hasCallee {site : CallSite} (h : doc.IsSiteOf t site) :
    ∃ callee, doc.HasCallee t callee ∧ site.call.IsWrittenAs callee := by
  obtain ⟨scopes, hown⟩ := h.own
  rw [ownSite] at hown
  split at hown
  · rename_i hrole
    obtain rfl := List.singleton_inj.mp hown
    exact ⟨_, .plain hrole, siteOf_isWrittenAs ..⟩
  · rename_i hrole
    obtain rfl := List.singleton_inj.mp hown
    exact ⟨_, .constructed hrole, siteOf_isWrittenAs ..⟩
  · rename_i hrole
    obtain rfl := List.singleton_inj.mp hown
    exact ⟨_, .macroUse hrole, siteOf_isWrittenAs ..⟩
  · cases hown

/-- The sites of a document are written as the callees of its nodes. -/
theorem callSites_isRecorded :
    ∀ site ∈ doc.callSites [] doc.tree, doc.IsRecorded site.call := by
  intro site hsite
  obtain ⟨addresses, _, hsited⟩ := (doc.exists_sited doc.tree []).1
  obtain ⟨p, -, hp⟩ := exists_mem_of_forall₂ hsited.flip hsite
  obtain ⟨t, ht, hown⟩ := hp.evaluates
  obtain ⟨callee, hcallee, hwritten⟩ := hown.exists_hasCallee
  exact ⟨p, t, callee, ht.leads.subtree?, hcallee, hwritten⟩

/-- The call that a decorator makes is written as the callee of its expression, or is that of an
annotation. -/
theorem decoratorFact_isRecorded (hnode : doc.tree.subtree? p = some t)
    (h : (doc.decoratorFact t).2 = some call) : doc.IsRecorded call := by
  rw [decoratorFact] at h
  split at h
  · rw [annotationFact] at h
    dsimp only at h
    split at h
    · rename_i hkind
      obtain rfl := Option.some.inj h
      exact ⟨p, t, _, hnode, .annotated (beq_iff_eq.mp hkind), rfl, rfl, rfl⟩
    · cases h
  · split at h
    · cases h
    · rename_i expression hfirst
      obtain ⟨i, hi⟩ := Tree.exists_firstProper hfirst
      split at h
      · rename_i hrole
        obtain rfl := Option.some.inj h
        exact ⟨p ++ [i], expression, _, Tree.subtree?_concat hnode hi.child, .plain hrole, rfl, rfl,
          rfl⟩
      · cases h

/-- The decorator calls of an outline are written as the callees of nodes of the document. -/
theorem decoratorCalls_isRecorded :
    ∀ call ∈ doc.outline.decoratorCalls, doc.IsRecorded call := by
  obtain ⟨stops, htrace⟩ := doc.exists_trace doc.start
  intro call hcall
  rw [htrace.outline_decoratorCalls] at hcall
  obtain ⟨⟨p, s⟩, hstop, hcall⟩ := List.mem_flatMap.mp hcall
  have hcomes := (htrace.mem_iff p s).mp hstop
  rw [decoratorCallsAt] at hcall
  split at hcall
  · rename_i decorators header hevent
    obtain ⟨made, hmade, rfl⟩ := List.mem_map.mp hcall
    obtain ⟨fact, hfact, hmade⟩ := List.mem_filterMap.mp hmade
    obtain ⟨decorator, hdecorator, rfl⟩ := List.mem_map.mp hfact
    -- The decorators of a declaration are nodes of the document.
    obtain ⟨addressed, haddressed⟩ := exists_addressed_adorns hcomes hevent
    rw [← haddressed.trees] at hdecorator
    obtain ⟨⟨a, d⟩, hd, rfl⟩ := List.mem_map.mp hdecorator
    have hnode := ((haddressed.mem_iff a d).mp hd).subtree? hcomes
    exact (decoratorFact_isRecorded hnode hmade).assigned _ _
  · cases hcall

/-- Every call in the facts of a document is written as the callee of one of its nodes. -/
theorem facts_isRecorded (doc : Document) (path : Path) :
    ∀ call ∈ (doc.facts path).calls, doc.IsRecorded call := by
  intro call hcall
  rw [facts] at hcall
  rcases List.mem_append.mp hcall with hcall | hcall
  · obtain ⟨site, hsite, rfl⟩ := List.mem_map.mp hcall
    exact (callSites_isRecorded site hsite).assigned _ _
  · rw [Outline.finish] at hcall
    split at hcall
    · obtain ⟨made, hmade, rfl⟩ := List.mem_map.mp hcall
      exact (decoratorCalls_isRecorded made hmade).assigned _ _
    · exact decoratorCalls_isRecorded call hcall

end Document

end CodeAtlas
