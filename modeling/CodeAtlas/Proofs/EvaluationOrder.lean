import CodeAtlas.Facts.Calls
import Mathlib.Data.List.Forall2

/-!
# Calls in the order of their evaluation

A node of a tree has an address, the positions of the children through which it is reached. Evaluation
visits what is below a node before the node itself, and the children of a node in the order of the
text, except that the decorators and modifiers of a declaration come before its other children. This
orders the addresses of a tree strictly.

The calls of a document are its call nodes in this order, each once. Left out are exactly the calls
that are the expression of a decorator, which belong to the declaration that they decorate.
-/

namespace CodeAtlas

namespace Tree

/-- An address leads from a node, through children that carry meaning, to a node. -/
inductive Leads : Tree → List Nat → Tree → Prop
  | here {t : Tree} : Leads t [] t
  | child {t c n : Tree} {i : Nat} {p : List Nat} (hchild : t.children[i]? = some c)
      (hproper : c.isProper = true) (hrest : Leads c p n) : Leads t (i :: p) n

/-- The child at a position is the first that carries meaning. -/
structure FirstProper (t : Tree) (i : Nat) (c : Tree) : Prop where
  child : t.children[i]? = some c
  proper : c.isProper = true
  first : ∀ j < i, ∀ d, t.children[j]? = some d → d.isProper = false

/-- An only child that carries meaning is the first one. -/
theorem firstProper_of_only {t c : Tree} {i : Nat} (hone : t.proper.length ≤ 1)
    (hchild : t.children[i]? = some c) (hproper : c.isProper = true) : t.FirstProper i c := by
  refine ⟨hchild, hproper, fun j hless d hearlier => ?_⟩
  rw [proper, ← List.countP_eq_length_filter, ← List.take_append_drop i t.children,
    List.countP_append] at hone
  have hc : c ∈ t.children.drop i := List.mem_iff_getElem?.mpr ⟨0, by rwa [List.getElem?_drop]⟩
  have hafter : 0 < (t.children.drop i).countP isProper := List.countP_pos_iff.mpr ⟨c, hc, hproper⟩
  have hbefore : (t.children.take i).countP isProper = 0 := by omega
  have hd : d ∈ t.children.take i := List.mem_of_getElem? (by rwa [List.getElem?_take_of_lt hless])
  simpa using List.countP_eq_zero.mp hbefore d hd

/-- What every node inherits from its children holds of every tree. -/
theorem induction_on_children {P : Tree → Prop}
    (hstep : ∀ t : Tree, (∀ c ∈ t.children, P c) → P t) : ∀ t : Tree, P t
  | .node label children => hstep (.node label children) fun c _ => induction_on_children hstep c
termination_by t => sizeOf t
decreasing_by
  rename_i hc
  have hless : sizeOf c < sizeOf children := List.sizeOf_lt_of_mem hc
  simp only [node.sizeOf_spec]
  omega

/-- The root leads to itself only by the empty address. -/
theorem leads_nil_iff {t n : Tree} : t.Leads [] n ↔ n = t := by
  constructor
  · intro h
    cases h
    rfl
  · rintro rfl
    exact .here

/-- An address starts at one of the children that carry meaning. -/
theorem leads_cons_iff {t n : Tree} {i : Nat} {p : List Nat} :
    t.Leads (i :: p) n ↔ ∃ c, t.children[i]? = some c ∧ c.isProper = true ∧ c.Leads p n := by
  constructor
  · intro h
    cases h with
    | child hchild hproper hrest => exact ⟨_, hchild, hproper, hrest⟩
  · rintro ⟨c, hchild, hproper, hrest⟩
    exact .child hchild hproper hrest

/-- What holds of a node and of all that its children lead to holds of all that it leads to. -/
theorem forall_leads {P : Tree → Prop} {label : Label} {children : List Tree}
    (hroot : P (.node label children))
    (hbelow : ∀ c ∈ children, ∀ p d, c.Leads p d → P d) :
    ∀ p d, (Tree.node label children).Leads p d → P d := by
  rintro _ d (_ | ⟨hchild, -, hrest⟩)
  · exact hroot
  · exact hbelow _ (List.mem_of_getElem? hchild) _ d hrest

end Tree

namespace Document

variable {doc : Document}

/-- Is the node a call of any form? -/
def isCallNode (doc : Document) (t : Tree) : Bool :=
  match doc.role t with
  | .call | .constructorCall | .macroCall => true
  | _ => false

/-- Is the node a decorator, whose expression is applied to a declaration? The annotations of other
languages are of other kinds and hold no such expression. -/
def isDecorator (doc : Document) (t : Tree) : Bool :=
  t.kind == "decorator" && doc.role t == .decorator

/-- The node at an address is a plain call that is the expression of a decorator. -/
def IsDecoratorCall (doc : Document) (root : Tree) (address : List Nat) : Prop :=
  ∃ p i d c, address = p ++ [i] ∧ root.Leads p d ∧ doc.isDecorator d = true ∧ d.FirstProper i c ∧
    doc.role c = .call

/-- The node at an address is a call, and not the expression of a decorator. -/
structure Evaluates (doc : Document) (root : Tree) (address : List Nat) (n : Tree) : Prop where
  leads : root.Leads address n
  isCall : doc.isCallNode n = true
  notDecorator : ¬ doc.IsDecoratorCall root address

/-- Of two children of a node, with their positions, the first is visited before the second: the
prelude of a declaration comes first, and otherwise the order is that of the text. -/
def VisitedBefore (doc : Document) (t : Tree) (v w : Tree × Nat) : Prop :=
  if doc.opensScope t && isPrelude v.1 != isPrelude w.1 then isPrelude v.1 = true else v.2 < w.2

/-- The node at the first address is evaluated before the one at the second. -/
inductive Precedes (doc : Document) : Tree → List Nat → List Nat → Prop
  | inside {t : Tree} {i : Nat} {p : List Nat} : Precedes doc t (i :: p) []
  | apart {t c d : Tree} {i j : Nat} {p q : List Nat} (hc : t.children[i]? = some c)
      (hd : t.children[j]? = some d) (hbefore : doc.VisitedBefore t (c, i) (d, j)) :
      Precedes doc t (i :: p) (j :: q)
  | deeper {t c : Tree} {i : Nat} {p q : List Nat} (hc : t.children[i]? = some c)
      (hrest : Precedes doc c p q) : Precedes doc t (i :: p) (i :: q)

/-- Neither of two children is visited before the other and after it. -/
theorem VisitedBefore.asymm {t : Tree} {v w : Tree × Nat} (h : doc.VisitedBefore t v w) :
    ¬ doc.VisitedBefore t w v := by
  unfold VisitedBefore at *
  rw [bne_comm (a := isPrelude w.1)]
  split at h
  · rename_i hdiffer
    rw [if_pos hdiffer]
    simp only [Bool.and_eq_true, bne_iff_ne] at hdiffer
    exact fun hw => hdiffer.2 (h.trans hw.symm)
  · rename_i hsame
    rw [if_neg hsame]
    omega

/-- Nothing comes before itself, nor before what comes before it. -/
theorem Precedes.asymm {t : Tree} {p q : List Nat} (h : doc.Precedes t p q) :
    ¬ doc.Precedes t q p := by
  induction h with
  | inside => rintro ⟨⟩
  | apart hc hd hbefore =>
    intro hback
    cases hback with
    | apart hd' hc' hback =>
      obtain rfl := Option.some.inj (hc.symm.trans hc')
      obtain rfl := Option.some.inj (hd.symm.trans hd')
      exact hbefore.asymm hback
    | deeper hd' _ =>
      obtain rfl := Option.some.inj (hc.symm.trans hd)
      exact hbefore.asymm hbefore
  | deeper hc _ ih =>
    intro hback
    cases hback with
    | apart hd' hc' hback =>
      obtain rfl := Option.some.inj (hd'.symm.trans hc')
      exact hback.asymm hback
    | deeper hc' hrest =>
      obtain rfl := Option.some.inj (hc.symm.trans hc')
      exact ih hrest

/-- What is reached through a node is evaluated before it. -/
theorem precedes_of_leads {t n : Tree} {q r : List Nat} (h : t.Leads (q ++ r) n) (hne : r ≠ []) :
    doc.Precedes t (q ++ r) q := by
  induction q generalizing t with
  | nil =>
    obtain ⟨i, rest, rfl⟩ := List.exists_cons_of_ne_nil hne
    exact .inside
  | cons i q ih =>
    obtain ⟨c, hchild, _, hrest⟩ := Tree.leads_cons_iff.mp h
    exact .deeper hchild (ih hrest)

/-- The root is no expression of a decorator. -/
theorem not_isDecoratorCall_nil {t : Tree} : ¬ doc.IsDecoratorCall t [] := by
  rintro ⟨p, i, _, _, hp, _⟩
  simp at hp

/-- An expression of a decorator stands directly below the root or below one of its children. -/
theorem isDecoratorCall_cons_iff {t : Tree} {i : Nat} {p : List Nat} :
    doc.IsDecoratorCall t (i :: p) ↔
      (p = [] ∧ doc.isDecorator t = true ∧ ∃ c, t.FirstProper i c ∧ doc.role c = .call) ∨
        ∃ c, t.children[i]? = some c ∧ c.isProper = true ∧ doc.IsDecoratorCall c p := by
  constructor
  · rintro ⟨q, j, d, c, haddress, hleads, hdecorator, hfirst, hcall⟩
    cases q with
    | nil =>
      obtain ⟨rfl, rfl⟩ := List.cons.inj haddress
      obtain rfl := Tree.leads_nil_iff.mp hleads
      exact .inl ⟨rfl, hdecorator, c, hfirst, hcall⟩
    | cons k q =>
      obtain ⟨rfl, rfl⟩ := List.cons.inj haddress
      obtain ⟨below, hchild, hproper, hrest⟩ := Tree.leads_cons_iff.mp hleads
      exact .inr ⟨below, hchild, hproper, q, j, d, c, rfl, hrest, hdecorator, hfirst, hcall⟩
  · rintro (⟨rfl, hdecorator, c, hfirst, hcall⟩ | ⟨below, hchild, hproper, q, j, d, c, rfl, hrest⟩)
    · exact ⟨[], i, t, c, rfl, .here, hdecorator, hfirst, hcall⟩
    · exact ⟨i :: q, j, d, c, rfl, .child hchild hproper hrest.1, hrest.2⟩

/-- The root is evaluated as a call exactly when it is one. -/
theorem evaluates_nil_iff {t n : Tree} :
    doc.Evaluates t [] n ↔ n = t ∧ doc.isCallNode t = true := by
  constructor
  · intro h
    obtain rfl := Tree.leads_nil_iff.mp h.leads
    exact ⟨rfl, h.isCall⟩
  · rintro ⟨rfl, hcall⟩
    exact ⟨.here, hcall, not_isDecoratorCall_nil⟩

/-- Below the root a call is evaluated when it is in a child, unless it is that child and the
expression of the root. -/
theorem evaluates_cons_iff {t n : Tree} {i : Nat} {p : List Nat} :
    doc.Evaluates t (i :: p) n ↔
      ∃ c, t.children[i]? = some c ∧ c.isProper = true ∧ doc.Evaluates c p n ∧
        ¬ (p = [] ∧ doc.isDecorator t = true ∧ t.FirstProper i c ∧ doc.role c = .call) := by
  constructor
  · rintro ⟨hleads, hcall, hnot⟩
    obtain ⟨c, hchild, hproper, hrest⟩ := Tree.leads_cons_iff.mp hleads
    rw [isDecoratorCall_cons_iff, not_or] at hnot
    refine ⟨c, hchild, hproper, ⟨hrest, hcall, fun h => hnot.2 ⟨c, hchild, hproper, h⟩⟩, ?_⟩
    rintro ⟨rfl, hdecorator, hfirst, hrole⟩
    exact hnot.1 ⟨rfl, hdecorator, c, hfirst, hrole⟩
  · rintro ⟨c, hchild, hproper, h, hnot⟩
    refine ⟨.child hchild hproper h.leads, h.isCall, ?_⟩
    rw [isDecoratorCall_cons_iff]
    rintro (⟨rfl, hdecorator, d, hfirst, hrole⟩ | ⟨d, hchild', _, hbelow⟩)
    · obtain rfl := Option.some.inj (hchild.symm.trans hfirst.child)
      exact hnot ⟨rfl, hdecorator, hfirst, hrole⟩
    · obtain rfl := Option.some.inj (hchild.symm.trans hchild')
      exact h.notDecorator hbelow

/-- A site that a node is by itself. -/
structure IsSiteOf (doc : Document) (n : Tree) (site : CallSite) : Prop where
  own : ∃ scopes, doc.ownSite n scopes = [site]
  extent : site.call.extent = doc.extent n

/-- The sites are those of the nodes at the wanted addresses, in the order of evaluation. -/
structure Listed (doc : Document) (root : Tree) (wanted : List Nat → Prop) (sites : List CallSite)
    (addresses : List (List Nat)) : Prop where
  sorted : addresses.Pairwise (doc.Precedes root)
  mem_iff : ∀ p, p ∈ addresses ↔ wanted p
  nodes : List.Forall₂ (fun site p => ∃ n, root.Leads p n ∧ doc.IsSiteOf n site) sites addresses

/-- The order of evaluation lists no address twice. -/
theorem Listed.nodup {t : Tree} {wanted : List Nat → Prop} {sites : List CallSite}
    {addresses : List (List Nat)} (h : doc.Listed t wanted sites addresses) : addresses.Nodup := by
  refine h.sorted.imp ?_
  rintro p _ hbefore rfl
  exact hbefore.asymm hbefore

/-- Of two listed addresses the one that comes before the other is listed before it. -/
theorem Listed.pair_sublist {t : Tree} {wanted : List Nat → Prop} {sites : List CallSite}
    {addresses : List (List Nat)} (h : doc.Listed t wanted sites addresses) {p q : List Nat}
    (hp : p ∈ addresses) (hq : q ∈ addresses) (hbefore : doc.Precedes t p q) :
    [p, q].Sublist addresses := by
  obtain ⟨earlier, later, rfl⟩ := List.append_of_mem hq
  have hafter := (List.pairwise_cons.mp (List.pairwise_append.mp h.sorted).2.1).1
  have hp : p ∈ earlier := by
    rcases List.mem_append.mp hp with hp | hp
    · exact hp
    · rcases List.mem_cons.mp hp with rfl | hp
      · exact absurd hbefore hbefore.asymm
      · exact absurd (hafter p hp) hbefore.asymm
  exact (List.singleton_sublist.mpr hp).append (.cons_cons q (List.nil_sublist later))

/-- A node is one site when it is a call, and none otherwise. -/
theorem ownSite_cases (doc : Document) (t : Tree) (scopes : List (Nat × Nat)) :
    (doc.isCallNode t = true ∧ ∃ site, doc.ownSite t scopes = [site] ∧ doc.IsSiteOf t site) ∨
      doc.isCallNode t = false ∧ doc.ownSite t scopes = [] := by
  have hself : ∀ site, doc.ownSite t scopes = [site] → site.call.extent = doc.extent t →
      doc.IsSiteOf t site := fun site hown hextent => ⟨⟨scopes, hown⟩, hextent⟩
  rw [isCallNode]
  cases hrole : doc.role t
  case call => exact .inl ⟨rfl, _, by rw [ownSite, hrole], hself _ (by rw [ownSite, hrole]) rfl⟩
  case constructorCall =>
    exact .inl ⟨rfl, _, by rw [ownSite, hrole], hself _ (by rw [ownSite, hrole]) rfl⟩
  case macroCall =>
    exact .inl ⟨rfl, _, by rw [ownSite, hrole], hself _ (by rw [ownSite, hrole]) rfl⟩
  all_goals exact .inr ⟨rfl, by rw [ownSite, hrole]⟩

/-- The listings of several children, put in a row and prefixed with their positions, are a listing
of what lies below the node. -/
theorem exists_listed_flatMap {t : Tree} {visits : List (Tree × Nat)}
    {block : Tree × Nat → List CallSite} {wanted : Tree × Nat → List Nat → Prop}
    (hchildren : ∀ v ∈ visits, t.children[v.2]? = some v.1 ∧ v.1.isProper = true)
    (hsorted : visits.Pairwise (doc.VisitedBefore t))
    (hblocks : ∀ v ∈ visits, ∃ addresses, doc.Listed v.1 (wanted v) (block v) addresses) :
    ∃ addresses, doc.Listed t (fun p => ∃ v ∈ visits, ∃ q, p = v.2 :: q ∧ wanted v q)
      (visits.flatMap block) addresses := by
  induction visits with
  | nil => exact ⟨[], .nil, by simp, .nil⟩
  | cons v rest ih =>
    obtain ⟨hchild, hproper⟩ := hchildren v List.mem_cons_self
    obtain ⟨hfirst, hrest⟩ := List.pairwise_cons.mp hsorted
    obtain ⟨own, hown⟩ := hblocks v List.mem_cons_self
    obtain ⟨later, hlater⟩ := ih (fun w hw => hchildren w (List.mem_cons_of_mem _ hw)) hrest
      fun w hw => hblocks w (List.mem_cons_of_mem _ hw)
    refine ⟨own.map (v.2 :: ·) ++ later, ?_, ?_, ?_⟩
    · refine List.pairwise_append.mpr ⟨?_, hlater.sorted, ?_⟩
      · exact List.pairwise_map.mpr (hown.sorted.imp (.deeper hchild))
      · intro p hp q hq
        obtain ⟨below, _, rfl⟩ := List.mem_map.mp hp
        obtain ⟨w, hw, _, rfl, _⟩ := (hlater.mem_iff q).mp hq
        exact .apart hchild (hchildren w (List.mem_cons_of_mem _ hw)).1 (hfirst w hw)
    · intro p
      simp only [List.mem_append, List.mem_map, hown.mem_iff, hlater.mem_iff, List.mem_cons,
        exists_eq_or_imp]
      refine or_congr_left (exists_congr fun q => ?_)
      rw [and_comm, eq_comm]
    · rw [List.flatMap_cons]
      refine List.rel_append ?_ hlater.nodes
      refine List.forall₂_map_right_iff.mpr (hown.nodes.imp ?_)
      rintro site q ⟨n, hleads, hsite⟩
      exact ⟨n, .child hchild hproper hleads, hsite⟩

/-- The children of a node that carry meaning, with their positions, in the order of evaluation. -/
def visits (doc : Document) (t : Tree) : List (Tree × Nat) :=
  let below := t.children.zipIdx.filter fun v => v.1.isProper
  if doc.opensScope t then
    (below.filter fun v => isPrelude v.1) ++ below.filter fun v => !isPrelude v.1
  else below

/-- Every child that carries meaning is visited, and nothing else. -/
theorem mem_visits {t : Tree} {v : Tree × Nat} :
    v ∈ doc.visits t ↔ t.children[v.2]? = some v.1 ∧ v.1.isProper = true := by
  have hbelow : v ∈ t.children.zipIdx.filter (fun v => v.1.isProper) ↔
      t.children[v.2]? = some v.1 ∧ v.1.isProper = true := by
    rw [List.mem_filter, List.mem_zipIdx_iff_getElem?]
  rw [← hbelow, visits]
  split
  · simp only [List.mem_append, List.mem_filter]
    cases isPrelude v.1 <;> simp
  · rfl

/-- Children are visited in the order of evaluation. -/
theorem visits_sorted (t : Tree) : (doc.visits t).Pairwise (doc.VisitedBefore t) := by
  have htext : (t.children.zipIdx.filter fun v => v.1.isProper).Pairwise fun v w => v.2 < w.2 := by
    refine List.Pairwise.filter _ ?_
    rw [← List.pairwise_map (f := Prod.snd) (R := (· < ·)), List.zipIdx_map_snd]
    exact List.pairwise_lt_range'
  have halike : ∀ {v w : Tree × Nat}, isPrelude v.1 = isPrelude w.1 → v.2 < w.2 →
      doc.VisitedBefore t v w := by
    intro v w hsame hless
    rw [VisitedBefore, hsame]
    simpa using hless
  rw [visits]
  split
  · rename_i hopens
    refine List.pairwise_append.mpr ⟨?_, ?_, ?_⟩
    · refine (htext.filter _).imp_of_mem fun hv hw => halike ?_
      rw [(List.mem_filter.mp hv).2, (List.mem_filter.mp hw).2]
    · refine (htext.filter _).imp_of_mem fun hv hw => halike ?_
      have hv := (List.mem_filter.mp hv).2
      have hw := (List.mem_filter.mp hw).2
      rw [Bool.not_eq_true'] at hv hw
      rw [hv, hw]
    · intro v hv w hw
      have hv := (List.mem_filter.mp hv).2
      have hw := (List.mem_filter.mp hw).2
      rw [Bool.not_eq_true'] at hw
      simp [VisitedBefore, hopens, hv, hw]
  · rename_i hplain
    refine htext.imp fun {v w} hless => ?_
    simpa [VisitedBefore, hplain] using hless

/-- A declaration that opens a scope is neither a call nor a decorator. -/
theorem role_of_opensScope {t : Tree} (h : doc.opensScope t = true) :
    doc.isCallNode t = false ∧ doc.isDecorator t = false := by
  rw [opensScope] at h
  rw [isCallNode, isDecorator]
  cases hrole : doc.role t <;> simp_all

/-- A decorator is no call. -/
theorem isCallNode_of_isDecorator {t : Tree} (h : doc.isDecorator t = true) :
    doc.isCallNode t = false := by
  simp only [isDecorator, Bool.and_eq_true, beq_iff_eq] at h
  rw [isCallNode, h.2]

/-- The calls among several trees are those of the trees that are kept, in a row. -/
theorem sitesAmong_eq (scopes : List (Nat × Nat)) (keep : Tree → Bool) (ts : List Tree) (k : Nat) :
    doc.sitesAmong scopes keep ts =
      (((ts.zipIdx k).filter fun v => v.1.isProper).filter fun v => keep v.1).flatMap
        fun v => doc.callSites scopes v.1 := by
  induction ts generalizing k with
  | nil => rfl
  | cons t ts ih =>
    rw [sitesAmong, List.zipIdx_cons, List.filter_cons, ih (k + 1)]
    cases t.isProper <;> cases hkeep : keep t <;> simp [hkeep]

/-- The calls among several trees, when all are kept. -/
theorem sitesAmong_all (scopes : List (Nat × Nat)) (ts : List Tree) (k : Nat) :
    doc.sitesAmong scopes (fun _ => true) ts =
      ((ts.zipIdx k).filter fun v => v.1.isProper).flatMap fun v => doc.callSites scopes v.1 := by
  rw [sitesAmong_eq scopes _ ts k, List.filter_eq_self.mpr fun _ _ => rfl]

/-- The calls of the only child of a decorator are those inside of it when it is a plain call. -/
theorem decoratorSites_eq (scopes : List (Nat × Nat)) (ts : List Tree) (k : Nat)
    (hone : (ts.filter Tree.isProper).length ≤ 1) :
    doc.decoratorSites scopes ts =
      ((ts.zipIdx k).filter fun v => v.1.isProper).flatMap fun v =>
        if doc.role v.1 == .call then doc.sitesInside scopes v.1 else doc.callSites scopes v.1 := by
  induction ts generalizing k with
  | nil => rfl
  | cons t ts ih =>
    rw [decoratorSites, List.zipIdx_cons, List.filter_cons]
    cases hproper : t.isProper with
    | false =>
      rw [List.filter_cons, hproper] at hone
      simpa using ih (k + 1) (by simpa using hone)
    | true =>
      rw [List.filter_cons, hproper] at hone
      have hnone : ts.filter Tree.isProper = [] := by simpa using hone
      have hrest : ((ts.zipIdx (k + 1)).filter fun v => v.1.isProper) = [] := by
        rw [List.filter_eq_nil_iff] at hnone ⊢
        exact fun v hv => hnone v.1 (List.fst_mem_of_mem_zipIdx hv)
      rw [sitesAmong_all scopes ts (k + 1), hrest]
      simp

/-- The calls that a child adds to those of a node: for the expression of a decorator only those
inside of it, and for what a declaration holds those in its scope. -/
def sitesBelow (doc : Document) (scopes : List (Nat × Nat)) (t : Tree) (v : Tree × Nat) :
    List CallSite :=
  if doc.isDecorator t && doc.role v.1 == .call then doc.sitesInside scopes v.1
  else doc.callSites (if doc.opensScope t && !isPrelude v.1 then t.range :: scopes else scopes) v.1

/-- The calls of a node are those that its children add, in the order of the visits, and then its
own. -/
theorem callSites_eq (scopes : List (Nat × Nat)) (t : Tree)
    (hone : doc.isDecorator t = true → t.proper.length ≤ 1) :
    doc.callSites scopes t =
      (doc.visits t).flatMap (doc.sitesBelow scopes t) ++ doc.ownSite t scopes := by
  have hown := doc.ownSite_cases t scopes
  obtain ⟨label, children⟩ := t
  have hdecorator : (label.kind == "decorator" && doc.role (.node label children) == .decorator) =
      doc.isDecorator (.node label children) := rfl
  rw [callSites]
  simp only [hdecorator]
  by_cases hopens : doc.opensScope (.node label children) = true
  · obtain ⟨hcall, hplain⟩ := role_of_opensScope hopens
    have hnone : doc.ownSite (.node label children) scopes = [] := by simpa [hcall] using hown
    rw [if_pos hopens, hnone, List.append_nil, visits, if_pos hopens, List.flatMap_append,
      sitesAmong_eq _ _ _ 0, sitesAmong_eq _ _ _ 0]
    congr 1
    · refine List.flatMap_congr fun v hv => ?_
      have hprelude := (List.mem_filter.mp hv).2
      simp [sitesBelow, hplain, hprelude]
    · refine List.flatMap_congr fun v hv => ?_
      have hbody := (List.mem_filter.mp hv).2
      simp [sitesBelow, hplain, hopens, hbody]
  · rw [if_neg hopens, visits, if_neg hopens]
    cases hplain : doc.isDecorator (.node label children) with
    | true =>
      have hcall := isCallNode_of_isDecorator hplain
      have hnone : doc.ownSite (.node label children) scopes = [] := by simpa [hcall] using hown
      rw [if_pos rfl, hnone, List.append_nil, decoratorSites_eq scopes children 0 (hone hplain)]
      refine List.flatMap_congr fun v _ => ?_
      simp [sitesBelow, hplain, hopens]
    | false =>
      rw [if_neg Bool.false_ne_true, sitesAmong_all scopes children 0]
      congr 1
      refine List.flatMap_congr fun v _ => ?_
      simp [sitesBelow, hplain, hopens]

/-- The calls inside of a node that opens no scope are those of its children. -/
theorem sitesInside_eq (scopes : List (Nat × Nat)) {t : Tree} (hplain : doc.opensScope t = false) :
    doc.sitesInside scopes t = (doc.visits t).flatMap fun v => doc.callSites scopes v.1 := by
  obtain ⟨label, children⟩ := t
  rw [sitesInside, sitesAmong_all scopes children 0, visits, hplain]
  rfl

/-- A listing does not depend on how the wanted addresses are described. -/
theorem Listed.congr {t : Tree} {wanted wanted' : List Nat → Prop} {sites : List CallSite}
    {addresses : List (List Nat)} (h : doc.Listed t wanted sites addresses)
    (hsame : ∀ p, wanted p ↔ wanted' p) : doc.Listed t wanted' sites addresses :=
  ⟨h.sorted, fun p => (h.mem_iff p).trans (hsame p), h.nodes⟩

/-- After a listing of what lies below a node comes the node itself. -/
theorem Listed.concat_own {t : Tree} {wanted : List Nat → Prop} {sites : List CallSite}
    {addresses : List (List Nat)} (h : doc.Listed t wanted sites addresses)
    (hbelow : ¬ wanted []) (scopes : List (Nat × Nat)) :
    ∃ all, doc.Listed t (fun p => wanted p ∨ p = [] ∧ doc.isCallNode t = true)
      (sites ++ doc.ownSite t scopes) all := by
  rcases doc.ownSite_cases t scopes with ⟨hcall, site, hown, hsite⟩ | ⟨hcall, hown⟩
  · refine ⟨addresses ++ [[]], ?_, ?_, ?_⟩
    · refine List.pairwise_append.mpr ⟨h.sorted, List.pairwise_singleton _ _, fun p hp q hq => ?_⟩
      obtain rfl := List.mem_singleton.mp hq
      cases p with
      | nil => exact absurd ((h.mem_iff []).mp hp) hbelow
      | cons => exact .inside
    · intro p
      rw [List.mem_append, h.mem_iff, List.mem_singleton, hcall, eq_self, and_true]
    · rw [hown]
      exact List.rel_append h.nodes (.cons ⟨t, .here, hsite⟩ .nil)
  · rw [hown, List.append_nil]
    exact ⟨addresses, h.congr fun p => by simp [hcall]⟩

/-- Below a node a call is evaluated when a child evaluates it, unless it is that child and the
node applies it as a decorator. -/
theorem evaluates_below_iff {t : Tree} {p : List Nat} :
    (p ≠ [] ∧ ∃ n, doc.Evaluates t p n) ↔
      ∃ v ∈ doc.visits t, ∃ q, p = v.2 :: q ∧ (∃ n, doc.Evaluates v.1 q n) ∧
        ¬ (q = [] ∧ doc.isDecorator t = true ∧ t.FirstProper v.2 v.1 ∧ doc.role v.1 = .call) := by
  constructor
  · rintro ⟨hne, n, h⟩
    cases p with
    | nil => exact absurd rfl hne
    | cons i p =>
      obtain ⟨c, hchild, hproper, hc, hnot⟩ := evaluates_cons_iff.mp h
      exact ⟨(c, i), mem_visits.mpr ⟨hchild, hproper⟩, p, rfl, ⟨n, hc⟩, hnot⟩
  · rintro ⟨⟨c, i⟩, hvisited, q, rfl, ⟨n, hc⟩, hnot⟩
    obtain ⟨hchild, hproper⟩ := mem_visits.mp hvisited
    exact ⟨List.cons_ne_nil _ _, n, evaluates_cons_iff.mpr ⟨c, hchild, hproper, hc, hnot⟩⟩

/-- The calls of a tree are listed in the order of evaluation, and so are those inside of it when it
is a call. -/
theorem exists_listed (t : Tree)
    (hone : ∀ p d, t.Leads p d → doc.isDecorator d = true → d.proper.length ≤ 1)
    (scopes : List (Nat × Nat)) :
    (∃ addresses, doc.Listed t (fun p => ∃ n, doc.Evaluates t p n) (doc.callSites scopes t)
      addresses) ∧
    (doc.role t = .call → ∃ addresses, doc.Listed t (fun p => p ≠ [] ∧ ∃ n, doc.Evaluates t p n)
      (doc.sitesInside scopes t) addresses) := by
  induction t using Tree.induction_on_children generalizing scopes with
  | hstep t ih =>
  have hvisited : ∀ v ∈ doc.visits t, t.children[v.2]? = some v.1 ∧ v.1.isProper = true :=
    fun _ => mem_visits.mp
  have hchild := fun v hv => ih v.1 (List.mem_of_getElem? (hvisited v hv).1) fun p d hleads =>
    hone (v.2 :: p) d (.child (hvisited v hv).1 (hvisited v hv).2 hleads)
  have hone := hone [] t .here
  constructor
  · -- What a child adds is what it evaluates, less the child itself when a decorator applies it.
    have hblocks : ∀ v ∈ doc.visits t, ∃ addresses, doc.Listed v.1
        (fun q => (∃ n, doc.Evaluates v.1 q n) ∧ ¬ (q = [] ∧ doc.isDecorator t = true ∧
          t.FirstProper v.2 v.1 ∧ doc.role v.1 = .call)) (doc.sitesBelow scopes t v) addresses := by
      intro v hv
      rw [sitesBelow]
      split
      · rename_i happlied
        simp only [Bool.and_eq_true, beq_iff_eq] at happlied
        have hfirst := Tree.firstProper_of_only (hone happlied.1) (hvisited v hv).1
          (hvisited v hv).2
        obtain ⟨addresses, hlisted⟩ := (hchild v hv scopes).2 happlied.2
        refine ⟨addresses, hlisted.congr fun q => ?_⟩
        simp only [happlied, hfirst, and_true, true_and, ne_eq, and_comm]
      · rename_i hother
        obtain ⟨addresses, hlisted⟩ := (hchild v hv _).1
        refine ⟨addresses, hlisted.congr fun q => (and_iff_left ?_).symm⟩
        rintro ⟨-, hdecorator, -, hcall⟩
        exact hother (by simp [hdecorator, hcall])
    obtain ⟨below, hbelow⟩ := exists_listed_flatMap hvisited (visits_sorted t) hblocks
    obtain ⟨all, hall⟩ := (hbelow.congr fun _ => evaluates_below_iff.symm).concat_own (by simp) scopes
    rw [callSites_eq scopes t hone]
    refine ⟨all, hall.congr fun p => ?_⟩
    cases p with
    | nil => simp [evaluates_nil_iff]
    | cons i p => simp
  · intro hcall
    have hplain : doc.isDecorator t = false := by simp [isDecorator, hcall]
    have hcloses : doc.opensScope t = false := by rw [opensScope, hcall]
    obtain ⟨below, hbelow⟩ := exists_listed_flatMap hvisited (visits_sorted t)
      fun v hv => (hchild v hv scopes).1
    rw [sitesInside_eq scopes hcloses]
    refine ⟨below, hbelow.congr fun p => ?_⟩
    rw [evaluates_below_iff]
    simp [hplain]

end Document

/-- The calls of a document are listed in the order of their evaluation, one for each call node that
is not the expression of a decorator, with the extent of that node. -/
theorem calls_are_listed_in_evaluation_order (doc : Document)
    (hone : ∀ p d, doc.tree.Leads p d → doc.isDecorator d = true → d.proper.length ≤ 1) :
    ∃ addresses : List (List Nat),
      addresses.Nodup ∧
      addresses.Pairwise (doc.Precedes doc.tree) ∧
      (∀ p, p ∈ addresses ↔ ∃ n, doc.Evaluates doc.tree p n) ∧
      List.Forall₂ (fun site p => ∃ n, doc.tree.Leads p n ∧ doc.IsSiteOf n site)
        (doc.callSites [] doc.tree) addresses ∧
      ∀ q r, r ≠ [] → q ∈ addresses → q ++ r ∈ addresses → [q ++ r, q].Sublist addresses := by
  obtain ⟨addresses, hlisted⟩ := (Document.exists_listed doc.tree hone []).1
  refine ⟨addresses, hlisted.nodup, hlisted.sorted, hlisted.mem_iff, hlisted.nodes, ?_⟩
  intro q r hne hq hr
  obtain ⟨n, hn⟩ := (hlisted.mem_iff _).mp hr
  exact hlisted.pair_sublist hr hq (Document.precedes_of_leads hn.leads hne)

/-- `@route(path())` on a function `view` whose body is `f(g(x))`. -/
def decoratedView : Document :=
  let inner (kind : String) (start stop : Nat) (children : List Tree) : Tree :=
    .node { kind := kind, named := true, start := start, stop := stop } children
  let token (kind : String) (start stop : Nat) : Tree :=
    .node { kind := kind, named := false, start := start, stop := stop } []
  let call (start split stop : Nat) (arguments : List Tree) : Tree :=
    inner "call" start stop
      [inner "identifier" start split [], inner "argument_list" split stop arguments]
  { language := .python
    text := "@route(path())\ndef view():\n    f(g(x))\n"
    tree :=
      inner "module" 0 39
        [inner "decorated_definition" 0 38
          [inner "decorator" 0 14 [token "@" 0 1, call 1 6 14 [call 7 11 13 []]],
           inner "function_definition" 15 38
            [token "def" 15 18, inner "identifier" 19 23 [], inner "parameters" 23 25 [],
             token ":" 25 26,
             inner "block" 31 38
              [inner "expression_statement" 31 38
                [call 31 32 38 [call 33 34 37 [inner "identifier" 35 36 []]]]]]]] }

/-- The call `route(..)` is left out, but not the one in its argument, and `g(x)` comes before `f`. -/
theorem calls_are_listed_in_evaluation_order_decorated :
    (∀ p d, decoratedView.tree.Leads p d → decoratedView.isDecorator d = true →
      d.proper.length ≤ 1) ∧
    (decoratedView.callSites [] decoratedView.tree).map (fun site => site.call.extent.startByte) =
      [7, 33, 31] ∧
    ∃ addresses : List (List Nat),
      (∀ p, p ∈ addresses ↔ ∃ n, decoratedView.Evaluates decoratedView.tree p n) ∧
      List.Forall₂ (fun site p => ∃ n, decoratedView.tree.Leads p n ∧ decoratedView.IsSiteOf n site)
        (decoratedView.callSites [] decoratedView.tree) addresses := by
  have hone : ∀ p d, decoratedView.tree.Leads p d → decoratedView.isDecorator d = true →
      d.proper.length ≤ 1 := by
    repeat'
      first
      | refine Tree.forall_leads ?_ ?_
      | refine List.forall_mem_cons.mpr ⟨?_, ?_⟩
      | exact List.forall_mem_nil _
    all_goals decide
  obtain ⟨addresses, -, -, hmem, hnodes, -⟩ := calls_are_listed_in_evaluation_order decoratedView hone
  exact ⟨hone, by decide, addresses, hmem, hnodes⟩

end CodeAtlas
