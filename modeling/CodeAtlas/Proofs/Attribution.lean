import CodeAtlas.Proofs.Extraction
import CodeAtlas.Proofs.Lists
import CodeAtlas.Proofs.ScopeOpenings

/-!
# Calls belong to the innermost declaration

Two walks read a tree. One collects calls, each with the ranges of the nodes around it that can open
a scope; the other records declarations, with the ranges of the nodes that do open one. They meet in
these ranges only. When different declarations have different ranges, a call is given to the
declaration of the innermost node around it that opens a scope, and to none if there is no such node.

The walks agree on what opens a scope as far as decorators are put on functions and classes only: the
definition in a decorated node is declared whatever it is.

A node is not around a call in its decorators or modifiers, which are evaluated outside of it. In C
and C++ a declaration that was folded into another stands for that one.
-/

namespace CodeAtlas

namespace Tree

mutual

/-- The nodes of a tree, with their addresses. -/
def nodes : Tree → List (List Nat × Tree)
  | .node label children => ([], .node label children) :: nodesFrom 0 children

/-- The nodes of several trees in a row, the first of which has the given position. -/
def nodesFrom (i : Nat) : List Tree → List (List Nat × Tree)
  | [] => []
  | t :: ts => (nodes t).map (fun x => (i :: x.1, x.2)) ++ nodesFrom (i + 1) ts

end

/-- A node of one of several trees is among their nodes. -/
theorem mem_nodesFrom {c n : Tree} {p : List Nat} {ts : List Tree} {i : Nat}
    (hn : (p, n) ∈ c.nodes) (hc : ts[i]? = some c) (k : Nat) :
    ((k + i) :: p, n) ∈ nodesFrom k ts := by
  induction ts generalizing i k with
  | nil => cases hc
  | cons t ts ih =>
    rw [nodesFrom, List.mem_append]
    cases i with
    | zero =>
      obtain rfl := Option.some.inj hc
      exact .inl (List.mem_map.mpr ⟨(p, n), hn, rfl⟩)
    | succ i =>
      have hrest := ih hc (k + 1)
      rw [Nat.add_assoc, Nat.add_comm 1] at hrest
      exact .inr hrest

/-- The node at an address is among the nodes. -/
theorem mem_nodes {t n : Tree} {p : List Nat} (h : t.subtree? p = some n) : (p, n) ∈ t.nodes := by
  induction p generalizing t with
  | nil =>
    obtain rfl := Option.some.inj h
    obtain ⟨label, children⟩ := t
    rw [nodes]
    exact List.mem_cons_self
  | cons i p ih =>
    obtain ⟨c, hchild, hrest⟩ := subtree?_cons_eq_some.mp h
    obtain ⟨label, children⟩ := t
    rw [nodes]
    have hbelow := mem_nodesFrom (ih hrest) hchild 0
    rw [Nat.zero_add] at hbelow
    exact List.mem_cons_of_mem _ hbelow

/-- A node is around an address below it when the way goes on through a child that is evaluated inside
of the node. -/
def Encloses (root : Tree) (q : List Nat) (n : Tree) (p : List Nat) : Prop :=
  ∃ i r c, p = q ++ i :: r ∧ root.subtree? q = some n ∧ n.children[i]? = some c ∧
    isPrelude c = false

/-- A node that is around an address is where it says. -/
theorem Encloses.subtree? {root n : Tree} {p q : List Nat} (h : root.Encloses q n p) :
    root.subtree? q = some n := by
  obtain ⟨_, _, _, _, hnode, _⟩ := h
  exact hnode

end Tree

namespace Document

variable {doc : Document} {t c n : Tree} {i : Nat} {p q : List Nat} {scopes : List (Nat × Nat)}
  {site : CallSite}

/-- The nodes on the way to an address that can open a scope around it, innermost first, with their
addresses. -/
def scopesAround (doc : Document) (t : Tree) : List Nat → List (List Nat × Tree)
  | [] => []
  | i :: p =>
    match t.children[i]? with
    | none => []
    | some c =>
      (scopesAround doc c p).map (fun x => (i :: x.1, x.2)) ++
        if doc.opensScope t && !isPrelude c then [([], t)] else []

/-- The scopes that the children of a node are in. -/
def scopesWithin (doc : Document) (t c : Tree) (scopes : List (Nat × Nat)) : List (Nat × Nat) :=
  if doc.opensScope t && !isPrelude c then t.range :: scopes else scopes

/-- The scopes around an address are the nodes that enclose it and can open a scope. -/
theorem mem_scopesAround (hnode : (t.subtree? p).isSome) :
    (q, n) ∈ doc.scopesAround t p ↔ t.Encloses q n p ∧ doc.opensScope n = true := by
  induction p generalizing t q with
  | nil => simp [scopesAround, Tree.Encloses]
  | cons i p ih =>
    obtain ⟨below, hbelow⟩ := Option.isSome_iff_exists.mp hnode
    obtain ⟨c, hchild, hrest⟩ := Tree.subtree?_cons_eq_some.mp hbelow
    rw [scopesAround, hchild]
    dsimp only
    rw [List.mem_append, List.mem_map]
    constructor
    · rintro (⟨⟨q, n⟩, hx, heq⟩ | hroot)
      · obtain ⟨rfl, rfl⟩ := Prod.mk.inj heq
        obtain ⟨⟨j, r, d, rfl, hq, hd⟩, hopens⟩ := (ih (Option.isSome_of_eq_some hrest)).mp hx
        exact ⟨⟨j, r, d, rfl, Tree.subtree?_cons_eq_some.mpr ⟨c, hchild, hq⟩, hd⟩, hopens⟩
      · split at hroot
        · rename_i hopens
          simp only [Bool.and_eq_true, Bool.not_eq_true'] at hopens
          obtain ⟨rfl, rfl⟩ := Prod.mk.inj (List.mem_singleton.mp hroot)
          exact ⟨⟨i, p, c, rfl, rfl, hchild, hopens.2⟩, hopens.1⟩
        · cases hroot
    · rintro ⟨⟨j, r, d, haddress, hq, hd, hbody⟩, hopens⟩
      cases q with
      | nil =>
        obtain ⟨rfl, rfl⟩ := List.cons.inj haddress
        obtain rfl := Option.some.inj hq
        obtain rfl := Option.some.inj (hchild.symm.trans hd)
        exact .inr (by simp [hopens, hbody])
      | cons k q =>
        obtain ⟨rfl, rfl⟩ := List.cons.inj haddress
        obtain ⟨c', hchild', hq⟩ := Tree.subtree?_cons_eq_some.mp hq
        obtain rfl := Option.some.inj (hchild.symm.trans hchild')
        have hx := (ih (Option.isSome_of_eq_some hrest)).mpr ⟨⟨j, r, d, rfl, hq, hd, hbody⟩, hopens⟩
        exact .inl ⟨(q, n), hx, rfl⟩

/-- Scopes further in are further down. -/
theorem scopesAround_sorted (t : Tree) (p : List Nat) :
    (doc.scopesAround t p).Pairwise fun x y => y.1.length < x.1.length := by
  induction p generalizing t with
  | nil => exact .nil
  | cons i p ih =>
    rw [scopesAround]
    split
    · exact .nil
    · rename_i c _
      refine List.pairwise_append.mpr ⟨?_, ?_, ?_⟩
      · rw [List.pairwise_map]
        exact (ih c).imp fun h => by simpa using h
      · split
        · exact List.pairwise_singleton _ _
        · exact .nil
      · intro x hx y hy
        obtain ⟨x, _, rfl⟩ := List.mem_map.mp hx
        split at hy
        · obtain rfl := List.mem_singleton.mp hy
          simp
        · cases hy

/-- A site is at an address: it is that of a call there, in the scopes around the address. -/
structure SitedAt (doc : Document) (t : Tree) (scopes : List (Nat × Nat)) (site : CallSite)
    (p : List Nat) : Prop where
  evaluates : ∃ n, doc.Evaluates t p n ∧ doc.IsSiteOf n site
  scopes : site.scopes = (doc.scopesAround t p).map (·.2.range) ++ scopes

/-- A site in a child is a site in the node, unless a decorator applies it. -/
theorem SitedAt.child (hchild : t.children[i]? = some c) (hproper : c.isProper = true)
    (h : doc.SitedAt c (doc.scopesWithin t c scopes) site p)
    (hplain : ¬ (p = [] ∧ doc.isDecorator t = true ∧ t.FirstProper i c ∧ doc.role c = .call)) :
    doc.SitedAt t scopes site (i :: p) := by
  obtain ⟨n, hn, hsite⟩ := h.evaluates
  refine ⟨⟨n, evaluates_cons_iff.mpr ⟨c, hchild, hproper, hn, hplain⟩, hsite⟩, ?_⟩
  rw [h.scopes, scopesWithin, scopesAround, hchild]
  dsimp only
  split <;> simp [Function.comp_def]

/-- Sites at different addresses, in a row. -/
def Sited (doc : Document) (t : Tree) (scopes : List (Nat × Nat)) (sites : List CallSite)
    (addresses : List (List Nat)) : Prop :=
  addresses.Nodup ∧ List.Forall₂ (doc.SitedAt t scopes) sites addresses

/-- The sites in several children, in a row. -/
theorem exists_sited_flatMap {visits : List (Tree × Nat)} {block : Tree × Nat → List CallSite}
    (hpositions : (visits.map Prod.snd).Nodup)
    (hblocks : ∀ v ∈ visits, ∃ addresses : List (List Nat), addresses.Nodup ∧
      List.Forall₂ (fun site p => doc.SitedAt t scopes site (v.2 :: p)) (block v) addresses) :
    ∃ addresses, doc.Sited t scopes (visits.flatMap block) addresses ∧
      ∀ p ∈ addresses, ∃ v ∈ visits, ∃ q, p = v.2 :: q := by
  induction visits with
  | nil => exact ⟨[], ⟨.nil, .nil⟩, by simp⟩
  | cons v rest ih =>
    obtain ⟨hnew, hrest⟩ := List.nodup_cons.mp hpositions
    obtain ⟨own, hown, hsites⟩ := hblocks v List.mem_cons_self
    obtain ⟨later, ⟨hlater, hlaterSites⟩, hstart⟩ :=
      ih hrest fun w hw => hblocks w (List.mem_cons_of_mem _ hw)
    refine ⟨own.map (v.2 :: ·) ++ later, ⟨?_, ?_⟩, ?_⟩
    · refine List.nodup_append.mpr ⟨List.Nodup.map List.cons_injective hown, hlater, ?_⟩
      rintro p hp p' hp' rfl
      obtain ⟨_, _, rfl⟩ := List.mem_map.mp hp
      obtain ⟨w, hw, _, heq⟩ := hstart _ hp'
      exact hnew (List.mem_map.mpr ⟨w, hw, (List.cons.inj heq).1.symm⟩)
    · rw [List.flatMap_cons]
      exact List.rel_append (List.forall₂_map_right_iff.mpr hsites) hlaterSites
    · intro p hp
      rcases List.mem_append.mp hp with hp | hp
      · obtain ⟨q, _, rfl⟩ := List.mem_map.mp hp
        exact ⟨v, List.mem_cons_self, q, rfl⟩
      · obtain ⟨w, hw, q, rfl⟩ := hstart p hp
        exact ⟨w, List.mem_cons_of_mem _ hw, q, rfl⟩

/-- Children are visited at different positions. -/
theorem visits_positions (t : Tree) : ((doc.visits t).map Prod.snd).Nodup := by
  refine List.pairwise_map.mpr ((visits_sorted t).imp_of_mem ?_)
  intro v w hv hw hbefore hsame
  have hchild := (mem_visits.mp hw).1
  rw [← hsame, (mem_visits.mp hv).1] at hchild
  obtain rfl : v = w := Prod.ext (Option.some.inj hchild) hsame
  exact hbefore.asymm hbefore

/-- The site of a node is in the scopes that it was given. -/
theorem scopes_of_ownSite (h : doc.ownSite t scopes = [site]) : site.scopes = scopes := by
  rw [ownSite] at h
  split at h
  · exact List.singleton_inj.mp h ▸ rfl
  · exact List.singleton_inj.mp h ▸ rfl
  · exact List.singleton_inj.mp h ▸ rfl
  · cases h

/-- After the sites below a node comes its own. -/
theorem Sited.concat_own {sites : List CallSite} {addresses : List (List Nat)}
    (h : doc.Sited t scopes sites addresses) (hbelow : [] ∉ addresses) :
    ∃ all, doc.Sited t scopes (sites ++ doc.ownSite t scopes) all := by
  rcases doc.ownSite_cases t scopes with ⟨hcall, site, hown, hsite⟩ | ⟨_, hown⟩
  · rw [hown]
    refine ⟨addresses ++ [[]], ?_, List.rel_append h.2 (.cons ⟨?_, ?_⟩ .nil)⟩
    · refine List.nodup_append.mpr ⟨h.1, List.nodup_singleton _, ?_⟩
      rintro p hp _ hroot rfl
      exact hbelow (List.mem_singleton.mp hroot ▸ hp)
    · exact ⟨t, evaluates_nil_iff.mpr ⟨rfl, hcall⟩, hsite⟩
    · exact scopes_of_ownSite hown
  · rw [hown, List.append_nil]
    exact ⟨addresses, h⟩

/-- The calls of a decorator are those inside of its expression when that is a plain call, and
otherwise those of all its children. -/
theorem decoratorSites_cases (scopes : List (Nat × Nat)) (ts : List Tree) (k : Nat) :
    doc.decoratorSites scopes ts =
      match (ts.zipIdx k).filter fun v => v.1.isProper with
      | [] => []
      | v :: rest =>
        if doc.role v.1 == .call then doc.sitesInside scopes v.1
        else (v :: rest).flatMap fun v => doc.callSites scopes v.1 := by
  induction ts generalizing k with
  | nil => rfl
  | cons t ts ih =>
    rw [decoratorSites, List.zipIdx_cons, List.filter_cons]
    cases hproper : t.isProper with
    | false => simpa using ih (k + 1)
    | true =>
      rw [sitesAmong_all scopes ts (k + 1)]
      rfl

/-- The first child that is visited is the first that carries meaning, and no other child is. -/
theorem firstProper_of_visits {v : Tree × Nat} {rest : List (Tree × Nat)}
    (hcloses : doc.opensScope t = false) (hvisits : doc.visits t = v :: rest) :
    ∀ w ∈ rest, ¬ t.FirstProper w.2 w.1 := by
  intro w hw hfirst
  have hsorted := doc.visits_sorted t
  rw [hvisits] at hsorted
  have hbefore := (List.pairwise_cons.mp hsorted).1 w hw
  rw [VisitedBefore, hcloses] at hbefore
  have hless : v.2 < w.2 := by simpa using hbefore
  have hv := mem_visits.mp (hvisits ▸ List.mem_cons_self : v ∈ doc.visits t)
  have hnot := hfirst.first v.2 hless v.1 hv.1
  rw [hv.2] at hnot
  cases hnot

/-- The sites of children that are walked as a whole, in a row. -/
theorem exists_sited_children {visits : List (Tree × Nat)} (hsub : visits ⊆ doc.visits t)
    (hpositions : (visits.map Prod.snd).Nodup)
    (hplain : ∀ v ∈ visits,
      ¬ (doc.isDecorator t = true ∧ t.FirstProper v.2 v.1 ∧ doc.role v.1 = .call))
    (hchildren : ∀ v ∈ visits, ∀ scopes,
      ∃ addresses, doc.Sited v.1 scopes (doc.callSites scopes v.1) addresses)
    (scopes : List (Nat × Nat)) :
    ∃ addresses, doc.Sited t scopes
      (visits.flatMap fun v => doc.callSites (doc.scopesWithin t v.1 scopes) v.1) addresses ∧
      [] ∉ addresses := by
  have hblocks : ∀ v ∈ visits, ∃ addresses : List (List Nat), addresses.Nodup ∧
      List.Forall₂ (fun site p => doc.SitedAt t scopes site (v.2 :: p))
        (doc.callSites (doc.scopesWithin t v.1 scopes) v.1) addresses := by
    intro v hv
    obtain ⟨hchild, hproper⟩ := mem_visits.mp (hsub hv)
    obtain ⟨own, hnodup, hsites⟩ := hchildren v hv (doc.scopesWithin t v.1 scopes)
    refine ⟨own, hnodup, hsites.imp fun site p hsite => ?_⟩
    exact hsite.child hchild hproper fun h => hplain v hv h.2
  obtain ⟨addresses, hsited, hstart⟩ := exists_sited_flatMap hpositions hblocks
  refine ⟨addresses, hsited, fun hroot => ?_⟩
  obtain ⟨v, _, q, hq⟩ := hstart [] hroot
  cases hq

/-- The calls of a decorator are at addresses of their own. -/
theorem exists_sited_decorator (hdecorator : doc.isDecorator t = true)
    (hchildren : ∀ v ∈ doc.visits t, ∀ scopes,
      (∃ addresses, doc.Sited v.1 scopes (doc.callSites scopes v.1) addresses) ∧
        (doc.role v.1 = .call → ∃ addresses,
          doc.Sited v.1 scopes (doc.sitesInside scopes v.1) addresses ∧ [] ∉ addresses))
    (scopes : List (Nat × Nat)) :
    ∃ addresses, doc.Sited t scopes (doc.callSites scopes t) addresses := by
  have hcloses : doc.opensScope t = false := by
    by_contra hopens
    rw [Bool.not_eq_false] at hopens
    rw [(role_of_opensScope hopens).2] at hdecorator
    cases hdecorator
  have hwithin : ∀ c, doc.scopesWithin t c scopes = scopes := by simp [scopesWithin, hcloses]
  have hsites : doc.callSites scopes t = doc.decoratorSites scopes t.children := by
    obtain ⟨label, children⟩ := t
    rw [callSites, hcloses]
    exact if_pos hdecorator
  have hpositions := doc.visits_positions t
  have hvisits : doc.visits t = t.children.zipIdx.filter fun v => v.1.isProper := by
    rw [visits, hcloses]
    rfl
  rw [hsites, decoratorSites_cases scopes t.children 0, ← hvisits]
  cases hcases : doc.visits t with
  | nil => exact ⟨[], .nil, .nil⟩
  | cons v rest =>
    rw [hcases] at hpositions
    have hlater := firstProper_of_visits hcloses hcases
    have hv : v ∈ doc.visits t := hcases ▸ List.mem_cons_self
    dsimp only
    split
    -- The expression is a call: only what is inside of it is collected, so no address is its own.
    · rename_i hcall
      obtain ⟨addresses, ⟨hnodup, hsited⟩, hroot⟩ := (hchildren v hv scopes).2 (beq_iff_eq.mp hcall)
      obtain ⟨hchild, hproper⟩ := mem_visits.mp hv
      have hinside := (List.forall₂_and_left (p := (· ≠ [])) _ _).mpr
        ⟨fun p hp hempty => hroot (hempty ▸ hp), hsited.flip⟩
      refine ⟨addresses.map (v.2 :: ·), List.Nodup.map List.cons_injective hnodup, ?_⟩
      refine List.forall₂_map_right_iff.mpr (hinside.flip.imp ?_)
      rintro site p ⟨hbelow, hsite⟩
      exact SitedAt.child hchild hproper ((hwithin v.1).symm ▸ hsite) fun h => hbelow h.1
    · rename_i hother
      have hplain : ∀ w ∈ v :: rest,
          ¬ (doc.isDecorator t = true ∧ t.FirstProper w.2 w.1 ∧ doc.role w.1 = .call) := by
        intro w hw h
        rcases List.mem_cons.mp hw with rfl | hw
        · exact hother (beq_iff_eq.mpr h.2.2)
        · exact hlater w hw h.2.1
      obtain ⟨addresses, hsited, _⟩ := exists_sited_children (hcases ▸ List.Subset.refl _) hpositions
        hplain (fun w hw scopes => (hchildren w (hcases ▸ hw) scopes).1) scopes
      simp only [hwithin] at hsited
      exact ⟨addresses, hsited⟩

/-- Every call that a walk finds is at an address of its own, in the scopes around it. -/
theorem exists_sited (t : Tree) (scopes : List (Nat × Nat)) :
    (∃ addresses, doc.Sited t scopes (doc.callSites scopes t) addresses) ∧
      (doc.role t = .call → ∃ addresses, doc.Sited t scopes (doc.sitesInside scopes t) addresses ∧
        [] ∉ addresses) := by
  induction t using Tree.induction_on_children generalizing scopes with
  | hstep t ih =>
  have hchildren := fun (v : Tree × Nat) (hv : v ∈ doc.visits t) scopes =>
    ih v.1 (List.mem_of_getElem? (mem_visits.mp hv).1) scopes
  have hwhole := fun hplain => exists_sited_children (List.Subset.refl _) (doc.visits_positions t)
    hplain (fun v hv scopes => (hchildren v hv scopes).1) scopes
  constructor
  · cases hdecorator : doc.isDecorator t with
    | false =>
      obtain ⟨addresses, hsited, hroot⟩ := hwhole fun v _ h => by simp [hdecorator] at h
      have hbelow : doc.sitesBelow scopes t =
          fun v => doc.callSites (doc.scopesWithin t v.1 scopes) v.1 := by
        funext v
        simp [sitesBelow, scopesWithin, hdecorator]
      rw [callSites_eq scopes t fun h => by simp [hdecorator] at h, hbelow]
      exact hsited.concat_own hroot
    | true => exact exists_sited_decorator hdecorator hchildren scopes
  · intro hcall
    have hcloses : doc.opensScope t = false := by rw [opensScope, hcall]
    obtain ⟨addresses, hsited, hroot⟩ := hwhole fun v _ h => by simp [isDecorator, hcall] at h
    refine ⟨addresses, ?_, hroot⟩
    rw [sitesInside_eq scopes hcloses]
    simpa [scopesWithin, hcloses] using hsited

/-- Decorators are put on functions and classes: the definition in a decorated node is one. -/
def DecoratesDeclarations (doc : Document) : Prop :=
  ∀ p d c, doc.tree.subtree? p = some d → doc.role d = .decorated → c ∈ d.children →
    c.inField "definition" = true → doc.role c = .function ∨ doc.role c = .classLike

/-- Different declarations have different ranges. -/
def DistinctDeclarations (doc : Document) : Prop :=
  ∀ q q' n n', doc.IsDeclaration q n → doc.IsDeclaration q' n' → n.range = n'.range → q = q'

/-- The nodes of a document that may be declarations, with their addresses. -/
def declarationNodes (doc : Document) : List (List Nat × Tree) :=
  doc.tree.nodes.filter fun x => doc.opensScope x.2 || x.2.inField "definition"

/-- It is enough to compare the nodes that may be declarations. -/
theorem distinctDeclarations_of_listed
    (h : ∀ x ∈ doc.declarationNodes, ∀ y ∈ doc.declarationNodes, x.2.range = y.2.range →
      x.1 = y.1) : doc.DistinctDeclarations := by
  have hlisted : ∀ {q n}, doc.IsDeclaration q n → (q, n) ∈ doc.declarationNodes := by
    rintro q n ⟨hnode, hkind⟩
    refine List.mem_filter.mpr ⟨Tree.mem_nodes hnode, ?_⟩
    rcases hkind with hopens | ⟨_, _, _, _, _, _, hfield⟩
    · simp [hopens]
    · simp [hfield]
  intro q q' n n' hq hq' hrange
  exact h (q, n) (hlisted hq) (q', n') (hlisted hq') hrange

/-- It is enough to look at the nodes in a list of all. -/
theorem decoratesDeclarations_of_listed
    (h : ∀ x ∈ doc.tree.nodes, doc.role x.2 = .decorated → ∀ c ∈ x.2.children,
      c.inField "definition" = true → doc.role c = .function ∨ doc.role c = .classLike) :
    doc.DecoratesDeclarations :=
  fun p d c hnode hrole hchild => h (p, d) (Tree.mem_nodes hnode) hrole c hchild

/-- Then whatever is declared with a scope of its own can open a scope. -/
theorem Declares.opensScope {k : Nat} (hdecorated : doc.DecoratesDeclarations)
    (h : doc.Declares q n k) : doc.opensScope n = true := by
  obtain ⟨hnode, hopens | ⟨p, i, d, rfl, hparent, hrole, hfield⟩⟩ := h.isDeclaration
  · exact hopens
  · have hchild : d.children[i]? = some n := by
      rw [Tree.subtree?_append, hparent, Option.bind_some] at hnode
      obtain ⟨_, hc, hend⟩ := Tree.subtree?_cons_eq_some.mp hnode
      exact Option.some.inj hend ▸ hc
    rw [Document.opensScope]
    rcases hdecorated p d n hparent hrole (List.mem_of_getElem? hchild) hfield with hkind | hkind <;>
      rw [hkind]

/-- The declaration around an address, by its index in the outline: the one that the innermost node
around the address opens a scope for. -/
def IsInnermost (doc : Document) (p : List Nat) : Option Nat → Prop
  | none => ∀ q n k, doc.tree.Encloses q n p → ¬ doc.Declares q n k
  | some k => ∃ q n, doc.tree.Encloses q n p ∧ doc.Declares q n k ∧
      ∀ q' n' k', doc.tree.Encloses q' n' p → doc.Declares q' n' k' → q'.length ≤ q.length

/-- The index that the scopes of an outline have for the range of a declaration is that of the
declaration. -/
theorem lookup_scopes_eq_some {k : Nat} (hdistinct : doc.DistinctDeclarations)
    (hnode : doc.tree.subtree? q = some n) (hopens : doc.opensScope n = true) :
    doc.outline.scopes.lookup n.range = some k ↔ doc.Declares q n k := by
  have hfound : ∀ {k}, (n.range, k) ∈ doc.outline.scopes → doc.Declares q n k := by
    intro k hmem
    obtain ⟨q', n', hdeclares, hrange⟩ := mem_scopes_outline.mp hmem
    obtain rfl := hdistinct q' q n' n hdeclares.isDeclaration ⟨hnode, .inl hopens⟩ hrange
    obtain rfl := Option.some.inj (hdeclares.subtree?.symm.trans hnode)
    exact hdeclares
  have hmem : ∀ {k}, doc.outline.scopes.lookup n.range = some k →
      (n.range, k) ∈ doc.outline.scopes := by
    intro k hlookup
    obtain ⟨before, after, hscopes, _⟩ := List.lookup_eq_some_iff.mp hlookup
    simp [hscopes]
  constructor
  · exact fun hlookup => hfound (hmem hlookup)
  · intro hdeclares
    have hscope := mem_scopes_outline.mpr ⟨q, n, hdeclares, rfl⟩
    cases hlookup : doc.outline.scopes.lookup n.range with
    | none => simpa using List.lookup_eq_none_iff.mp hlookup _ hscope
    | some k' => rw [hdeclares.unique (hfound (hmem hlookup))]

/-- The first of the scopes around an address that the outline knows is the innermost. -/
theorem isInnermost_findSome? (hdistinct : doc.DistinctDeclarations)
    (hdecorated : doc.DecoratesDeclarations) (hnode : (doc.tree.subtree? p).isSome) :
    doc.IsInnermost p
      ((doc.scopesAround doc.tree p).findSome? fun x => doc.outline.scopes.lookup x.2.range) := by
  have hlookup : ∀ {q n k}, doc.tree.Encloses q n p → doc.Declares q n k →
      (q, n) ∈ doc.scopesAround doc.tree p ∧ doc.outline.scopes.lookup n.range = some k := by
    intro q n k hencloses hdeclares
    have hopens := hdeclares.opensScope hdecorated
    exact ⟨(mem_scopesAround hnode).mpr ⟨hencloses, hopens⟩,
      (lookup_scopes_eq_some hdistinct hdeclares.subtree? hopens).mpr hdeclares⟩
  cases hfound : (doc.scopesAround doc.tree p).findSome? fun x =>
      doc.outline.scopes.lookup x.2.range with
  | none =>
    intro q n k hencloses hdeclares
    obtain ⟨hmem, hk⟩ := hlookup hencloses hdeclares
    cases (List.findSome?_eq_none_iff.mp hfound _ hmem).symm.trans hk
  | some k =>
    -- What is listed before the hit opens no scope, and what is listed after it is further out.
    obtain ⟨inner, ⟨q, n⟩, outer, hsplit, hk, hinner⟩ := List.findSome?_eq_some_iff.mp hfound
    obtain ⟨hencloses, hopens⟩ : doc.tree.Encloses q n p ∧ doc.opensScope n = true :=
      (mem_scopesAround hnode).mp (by rw [hsplit]; simp)
    have hdeclares := (lookup_scopes_eq_some hdistinct hencloses.subtree? hopens).mp hk
    refine ⟨q, n, hencloses, hdeclares, ?_⟩
    intro q' n' k' hother hdeclares
    obtain ⟨hmem, hk'⟩ := hlookup hother hdeclares
    rw [hsplit, List.mem_append, List.mem_cons] at hmem
    rcases hmem with hmem | hsame | hmem
    · cases (hinner _ hmem).symm.trans hk'
    · obtain ⟨rfl, _⟩ := Prod.mk.inj hsame
      exact Nat.le_refl _
    · have hsorted := doc.scopesAround_sorted doc.tree p
      rw [hsplit] at hsorted
      have hless := (List.pairwise_cons.mp (List.pairwise_append.mp hsorted).2.1).1 _ hmem
      exact Nat.le_of_lt hless

/-- The index among the declarations of a file of what remains for an entry of its outline. -/
def finalIndex (doc : Document) (k : Nat) : Nat :=
  if doc.language.isCFamily then Outline.newIndex doc.outline.attached k else k

/-- The index in the outline of what remains for an entry. -/
def survivor (doc : Document) (k : Nat) : Nat :=
  if doc.language.isCFamily then Outline.remaining doc.outline.attached k else k

/-- Finishing an outline sends its scopes to what remains. -/
theorem finish_scopes (doc : Document) :
    (doc.outline.finish doc.language).2.1 =
      doc.outline.scopes.map fun scope => (scope.1, doc.finalIndex scope.2) := by
  simp only [Outline.finish, finalIndex]
  split
  · rfl
  · exact (List.map_id _).symm

/-- A call is given to what remains for the innermost declaration. -/
theorem attributed_caller_isInnermost (hdistinct : doc.DistinctDeclarations)
    (hdecorated : doc.DecoratesDeclarations) (h : doc.SitedAt doc.tree [] site p) :
    ∃ caller, doc.IsInnermost p caller ∧
      (site.attributed (doc.outline.finish doc.language).2.1).caller =
        caller.map doc.finalIndex := by
  obtain ⟨n, hn, _⟩ := h.evaluates
  have hnode := Option.isSome_of_eq_some hn.leads.subtree?
  refine ⟨_, isInnermost_findSome? hdistinct hdecorated hnode, ?_⟩
  rw [CallSite.attributed, h.scopes, List.append_nil, finish_scopes, List.findSome?_map,
    List.map_findSome?]
  simp only [lookup_map_snd]
  rfl

/-- The site of a node is no decorator call. -/
theorem ownSite_kind (t : Tree) (scopes : List (Nat × Nat)) :
    ∀ site ∈ doc.ownSite t scopes, site.call.kind ≠ .decoratorCall := by
  have hkind (callee : Callee) : callKind callee ≠ .decoratorCall := by
    rw [callKind]
    split <;> simp
  intro site hsite
  rw [ownSite] at hsite
  split at hsite
  · obtain rfl := List.mem_singleton.mp hsite
    simp only [callSite, siteOf]
    split
    · simp
    · exact hkind _
  · exact List.mem_singleton.mp hsite ▸ by simp [constructorSite, siteOf]
  · exact List.mem_singleton.mp hsite ▸ by simp [macroSite, siteOf]
  · cases hsite

/-- The calls of a file that no decorator makes are those of its sites. -/
theorem facts_calls_filter (doc : Document) (path : Path) :
    (doc.facts path).calls.filter (·.kind != .decoratorCall) =
      (doc.callSites [] doc.tree).map
        (·.attributed (doc.outline.finish doc.language).2.1) := by
  have hsites : ∀ call ∈ (doc.callSites [] doc.tree).map
      (·.attributed (doc.outline.finish doc.language).2.1), call.kind != .decoratorCall := by
    intro call hcall
    obtain ⟨site, hsite, rfl⟩ := List.mem_map.mp hcall
    have hkind := callSites_forall (P := fun site => site.call.kind ≠ .decoratorCall) ownSite_kind
      [] doc.tree site hsite
    exact bne_iff_ne.mpr hkind
  have hdecorators : ∀ call ∈ (doc.outline.finish doc.language).2.2,
      ¬ (call.kind != .decoratorCall) = true := by
    intro call hcall
    have hkind : call.kind = .decoratorCall := by
      rw [Outline.finish] at hcall
      split at hcall
      · obtain ⟨made, hmade, rfl⟩ := List.mem_map.mp hcall
        have hkind := outline_decoratorCalls_kind made hmade
        exact hkind
      · exact outline_decoratorCalls_kind call hcall
    simp [hkind]
  rw [facts]
  dsimp only
  rw [List.filter_append, List.filter_eq_self.mpr hsites, List.filter_eq_nil_iff.mpr hdecorators,
    List.append_nil]

end Document

namespace Outline

/-- An entry without its parent and its bases. -/
def unattached (e : Entry) : Entry :=
  { e with declaration := { e.declaration with parent := none, bases := [] } }

/-- Attaching owners and traits changes parents and bases only. -/
theorem unattached_attached (out : Outline) :
    out.attached.map unattached = out.entries.map unattached := by
  have hbase (entries : List Entry) (i : Nat) (base : String) :
      (addBase entries i base).map unattached = entries.map unattached := by
    apply List.ext_getElem?
    intro j
    rw [addBase, List.getElem?_map, List.getElem?_modify, List.getElem?_map]
    cases entries[j]? with
    | none => rfl
    | some e =>
      simp only [Option.map_eq_map, Option.map_some, Option.some.injEq]
      split
      · split <;> rfl
      · rfl
  have howner (e : Entry) : unattached (attachOwner out.entries e) = unattached e := by
    rw [attachOwner]
    split
    · rfl
    · split <;> rfl
  have hentries : (out.entries.map (attachOwner out.entries)).map unattached =
      out.entries.map unattached := by
    rw [List.map_map]
    exact List.map_congr_left fun e _ => howner e
  rw [attached, attachTraits]
  refine List.foldlRecOn out.traits _
    (motive := fun acc : List Entry => acc.map unattached = out.entries.map unattached) hentries ?_
  intro acc hacc pair _
  dsimp only
  split
  · rw [hbase, hacc]
  · exact hacc

/-- An attached entry has the name, the kind and the extent of that of the outline. -/
theorem exists_of_attached {out : Outline} {i : Nat} {a : Entry} (h : out.attached[i]? = some a) :
    ∃ e, out.entries[i]? = some e ∧ a.declaration.name = e.declaration.name ∧
      a.declaration.kind = e.declaration.kind ∧ a.declaration.extent = e.declaration.extent := by
  have hmap := congrArg (fun entries : List Entry => entries[i]?) (unattached_attached out)
  simp only [List.getElem?_map, h, Option.map_some] at hmap
  obtain ⟨e, he, heq⟩ := Option.map_eq_some_iff.mp hmap.symm
  simp only [unattached, Entry.mk.injEq, Declaration.mk.injEq] at heq
  obtain ⟨⟨hname, hkind, -, -, -, -, -, -, -, -, hextent, -⟩, -⟩ := heq
  exact ⟨e, he, hname.symm, hkind.symm, hextent.symm⟩

end Outline

/-- A declaration gets a stable identity and is otherwise left as it is. -/
theorem exists_withStableIds (path : Path) {declarations : List Declaration} {i : Nat}
    {d : Declaration} (h : declarations[i]? = some d) :
    ∃ id, (withStableIds path declarations)[i]? =
      some { d with profile := { d.profile with stableId := id } } := by
  refine ⟨stableId path declarations i d, ?_⟩
  rw [withStableIds, List.getElem?_map, List.getElem?_zipIdx, h, Nat.zero_add]
  rfl

namespace Document

variable {doc : Document}

/-- A declaration of a file stands for an entry of its outline: it has the name of the entry, and the
name, the kind and the extent of what remains for it. -/
def StandsFor (doc : Document) (d : Declaration) (k : Nat) : Prop :=
  ∃ e s, doc.outline.entries[k]? = some e ∧ doc.outline.entries[doc.survivor k]? = some s ∧
    d.name = e.declaration.name ∧ d.name = s.declaration.name ∧ d.kind = s.declaration.kind ∧
    d.extent = s.declaration.extent

/-- Outside of C and C++ every entry remains for itself. -/
theorem standsFor_plain (hplain : doc.language.isCFamily = false) {k : Nat} {a : Entry}
    (ha : doc.outline.attached[k]? = some a) :
    ∃ d, (doc.outline.finish doc.language).1[doc.finalIndex k]? = some d ∧ doc.StandsFor d k := by
  obtain ⟨e, he, hname, hkind, hextent⟩ := Outline.exists_of_attached ha
  have hsurvivor : doc.survivor k = k := by
    rw [survivor, hplain]
    rfl
  refine ⟨a.declaration, ?_, e, e, he, hsurvivor.symm ▸ he, hname, hname, hkind, hextent⟩
  rw [Outline.finish, finalIndex, hplain]
  change (doc.outline.attached.map _)[k]? = _
  rw [List.getElem?_map, ha]
  rfl

/-- In C and C++ what remains for an entry stands at its new index. -/
theorem standsFor_folded (hfamily : doc.language.isCFamily = true) {k : Nat} {a : Entry}
    (ha : doc.outline.attached[k]? = some a) :
    ∃ d, (doc.outline.finish doc.language).1[doc.finalIndex k]? = some d ∧ doc.StandsFor d k := by
  obtain ⟨e, he, hname, _, _⟩ := Outline.exists_of_attached ha
  obtain ⟨s, hs, _, hkept⟩ := Outline.keptIndexed_newIndex ha
  have hplace : doc.outline.attached[Outline.remaining doc.outline.attached k]? = some s :=
    List.mk_mem_zipIdx_iff_getElem?.mp (List.mem_filter.mp (List.mem_of_getElem? hs)).1
  obtain ⟨e', he', hname', hkind', hextent'⟩ := Outline.exists_of_attached hplace
  have hsurvivor : doc.survivor k = Outline.remaining doc.outline.attached k := by
    rw [survivor, hfamily]
    rfl
  refine ⟨{ s.declaration with
      parent := s.declaration.parent.map (Outline.newIndex doc.outline.attached) }, ?_,
    e, e', he, hsurvivor ▸ he', hkept.trans hname, hname', hkind', hextent'⟩
  rw [Outline.finish, finalIndex, hfamily]
  change ((Outline.keptIndexed doc.outline.attached).map _)[_]? = _
  rw [List.getElem?_map]
  change ((Outline.keptIndexed _)[Outline.newIndex _ k]?).map _ = _
  rw [hs]
  rfl

/-- At the final index of an entry stands the declaration that stands for it. -/
theorem exists_standsFor (doc : Document) (path : Path) {k : Nat}
    (hk : k < doc.outline.entries.length) :
    ∃ d, (doc.facts path).declarations[doc.finalIndex k]? = some d ∧ doc.StandsFor d k := by
  obtain ⟨a, ha⟩ : ∃ a, doc.outline.attached[k]? = some a :=
    ⟨_, List.getElem?_eq_getElem (Outline.length_attached doc.outline ▸ hk)⟩
  obtain ⟨d, hd, hstands⟩ : ∃ d,
      (doc.outline.finish doc.language).1[doc.finalIndex k]? = some d ∧ doc.StandsFor d k := by
    cases hfamily : doc.language.isCFamily with
    | false => exact standsFor_plain hfamily ha
    | true => exact standsFor_folded hfamily ha
  obtain ⟨id, hid⟩ := exists_withStableIds path hd
  exact ⟨_, hid, hstands⟩

/-- The facts of a document give its calls to declarations. -/
structure AttributesCalls (doc : Document) (facts : FileFacts) : Prop where
  /-- Each call that no decorator makes is that of a call node, and is given to what remains for the
  declaration around the node, if there is one. -/
  callers : ∃ addresses : List (List Nat), addresses.Nodup ∧
    List.Forall₂ (fun call p => ∃ n caller, doc.tree.Leads p n ∧ doc.isCallNode n = true ∧
        call.extent = doc.extent n ∧ doc.IsInnermost p caller ∧
        call.caller = caller.map doc.finalIndex)
      (facts.calls.filter (·.kind != .decoratorCall)) addresses
  /-- Only what can be declared is, and never as a variable or a prototype. -/
  declarable : ∀ q n k, doc.Declares q n k →
    ((doc.header? n).isSome ∨ (doc.functionValue? n).isSome ∨
      doc.role n = .classLike ∧ (n.field? "body").isSome) ∧
    ∃ e, doc.outline.entries[k]? = some e ∧ e.isPrototype = false ∧ e.declaration.kind ≠ .var ∧
      e.declaration.extent = doc.extent n
  /-- The index by which calls refer to a declaration is that of what remains for it. -/
  indices : ∀ q n k, doc.Declares q n k →
    ∃ d, facts.declarations[doc.finalIndex k]? = some d ∧ doc.StandsFor d k

/-- The facts of a document whose declarations have different ranges give its calls to
declarations. -/
theorem facts_attributesCalls (path : Path) (hdistinct : doc.DistinctDeclarations)
    (hdecorated : doc.DecoratesDeclarations) :
    doc.AttributesCalls (doc.facts path) := by
  refine ⟨?_, fun q n k h => ⟨h.declarable, h.entry⟩, fun q n k h => ?_⟩
  · obtain ⟨addresses, hnodup, hsites⟩ := (doc.exists_sited doc.tree []).1
    refine ⟨addresses, hnodup, ?_⟩
    rw [facts_calls_filter, List.forall₂_map_left_iff]
    refine hsites.imp fun site p hsite => ?_
    obtain ⟨n, hn, hown⟩ := hsite.evaluates
    obtain ⟨caller, hcaller, hsame⟩ := attributed_caller_isInnermost hdistinct hdecorated hsite
    exact ⟨n, caller, hn.leads, hn.isCall, hown.extent, hcaller, hsame⟩
  · obtain ⟨e, he, _⟩ := h.entry
    exact doc.exists_standsFor path (List.getElem?_eq_some_iff.mp he).1

/-- The document of a source. -/
def ofSource (language : Language) (text : String) (tree : Tree) : Document :=
  { language := language, text := text, tree := tree }

end Document

/-- In a source without errors whose declarations have different ranges, and that decorates functions
and classes only, each call that no decorator makes belongs to the innermost declaration around it. -/
theorem calls_belong_to_innermost_declaration (path : Path) {language : Language} {text : String}
    {tree : Tree} (hclean : tree.errorOffset? = none)
    (hdistinct : (Document.ofSource language text tree).DistinctDeclarations)
    (hdecorated : (Document.ofSource language text tree).DecoratesDeclarations) :
    ∃ facts, extractSource path language text tree = .ok facts ∧
      (Document.ofSource language text tree).AttributesCalls facts := by
  refine ⟨_, ?_, Document.facts_attributesCalls path hdistinct hdecorated⟩
  rw [extractSource, hclean]
  rfl

/-- The tree of `class A{void f();};void A::f(){g();}`. -/
def methodOutsideOfClass : Tree :=
  let inner (kind : String) (field : Option String) (start stop : Nat) (children : List Tree) :=
    Tree.node { kind := kind, named := true, field := field, start := start, stop := stop } children
  inner "translation_unit" none 0 36
    [inner "class_specifier" none 0 18
      [inner "type_identifier" (some "name") 6 7 [],
        inner "field_declaration_list" (some "body") 7 18
          [inner "field_declaration" none 8 17
            [inner "primitive_type" (some "type") 8 12 [],
              inner "function_declarator" (some "declarator") 13 16
                [inner "field_identifier" (some "declarator") 13 14 [],
                  inner "parameter_list" (some "parameters") 14 16 []]]]],
      inner "function_definition" none 19 36
        [inner "primitive_type" (some "type") 19 23 [],
          inner "function_declarator" (some "declarator") 24 30
            [inner "qualified_identifier" (some "declarator") 24 28
              [inner "namespace_identifier" (some "scope") 24 25 [],
                inner "identifier" (some "name") 27 28 []],
              inner "parameter_list" (some "parameters") 28 30 []],
          inner "compound_statement" (some "body") 30 36
            [inner "expression_statement" none 31 35
              [inner "call_expression" none 31 34
                [inner "identifier" (some "function") 31 32 [],
                  inner "argument_list" (some "arguments") 32 34 []]]]]]

/-- A call in a method that is defined outside of its class: the definition, the third entry of the
outline, is folded into the prototype in the class. -/
theorem calls_belong_to_innermost_declaration_folded :
    methodOutsideOfClass.errorOffset? = none ∧
      (Document.ofSource .cpp "class A{void f();};void A::f(){g();}"
        methodOutsideOfClass).DistinctDeclarations ∧
      (Document.ofSource .cpp "class A{void f();};void A::f(){g();}"
        methodOutsideOfClass).DecoratesDeclarations ∧
      ∃ facts, extractSource ⟨"a.cpp"⟩ .cpp "class A{void f();};void A::f(){g();}"
          methodOutsideOfClass = .ok facts ∧
        facts.declarations.map (·.name) = ["A", "f"] ∧ facts.calls.map (·.caller) = [some 1] ∧
        (Document.ofSource .cpp "class A{void f();};void A::f(){g();}"
          methodOutsideOfClass).AttributesCalls facts := by
  have hdistinct : (Document.ofSource .cpp "class A{void f();};void A::f(){g();}"
      methodOutsideOfClass).DistinctDeclarations :=
    Document.distinctDeclarations_of_listed (by decide)
  have hdecorated : (Document.ofSource .cpp "class A{void f();};void A::f(){g();}"
      methodOutsideOfClass).DecoratesDeclarations :=
    Document.decoratesDeclarations_of_listed (by decide)
  obtain ⟨facts, hfacts, hattributes⟩ :=
    calls_belong_to_innermost_declaration ⟨"a.cpp"⟩ rfl hdistinct hdecorated
  refine ⟨rfl, hdistinct, hdecorated, facts, hfacts, ?_, ?_, hattributes⟩
  · cases hfacts
    decide
  · cases hfacts
    decide

end CodeAtlas
