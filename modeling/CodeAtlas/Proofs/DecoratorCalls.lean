import CodeAtlas.Proofs.Attribution
import CodeAtlas.Proofs.GrammarTables
import CodeAtlas.Proofs.Lists

/-!
# Calls of decorators

A decorator with call syntax is left out when calls are collected, since the outline records its call
with the declaration that it adorns. The outline finds decorators from the declaration: those that a
decorated definition wraps together with it, those directly before it, and those among its children
and modifiers.

So the call of a decorator is recorded once for every declaration that finds the decorator. It is
recorded exactly once when one declaration does, and it is lost when none does: on a field or a
parameter, or when a comment stands between two decorators of a declaration.
-/

namespace CodeAtlas

namespace Tree

/-- The first child that carries meaning has a position. -/
theorem exists_firstProper {t c : Tree} (h : t.firstProper? = some c) : ∃ i, t.FirstProper i c := by
  obtain ⟨hproper, i, hi, hc, hearlier⟩ := List.find?_eq_some_iff_getElem.mp h
  refine ⟨i, by rw [List.getElem?_eq_getElem hi, hc], hproper, fun j hj d hd => ?_⟩
  obtain ⟨_, rfl⟩ := List.getElem?_eq_some_iff.mp hd
  simpa using hearlier j hj

/-- Only one child is the first that carries meaning. -/
theorem FirstProper.unique {t c c' : Tree} {i i' : Nat} (h : t.FirstProper i c)
    (h' : t.FirstProper i' c') : i = i' ∧ c = c' := by
  rcases Nat.lt_trichotomy i i' with hless | rfl | hless
  · exact absurd h.proper (by simp [h'.first i hless c h.child])
  · exact ⟨rfl, Option.some.inj (h.child.symm.trans h'.child)⟩
  · exact absurd h'.proper (by simp [h.first i' hless c' h'.child])

/-- The children that satisfy a condition, with their positions. -/
def picked (t : Tree) (keep : Tree → Bool) : List (Tree × Nat) :=
  t.children.zipIdx.filter fun v => keep v.1

/-- What is picked are the children that satisfy the condition. -/
theorem map_fst_picked (t : Tree) (keep : Tree → Bool) :
    (t.picked keep).map Prod.fst = t.children.filter keep := by
  conv_rhs => rw [← List.zipIdx_map_fst 0 t.children, List.filter_map]
  rfl

/-- Children are picked at different positions. -/
theorem nodup_picked (t : Tree) (keep : Tree → Bool) : ((t.picked keep).map Prod.snd).Nodup := by
  refine List.Nodup.sublist (List.Sublist.map _ List.filter_sublist) ?_
  rw [List.zipIdx_map_snd]
  exact List.nodup_range'

/-- A child is picked at its position. -/
theorem mem_picked {t d : Tree} {keep : Tree → Bool} {j : Nat} :
    (d, j) ∈ t.picked keep ↔ t.children[j]? = some d ∧ keep d = true := by
  rw [picked, List.mem_filter, List.mk_mem_zipIdx_iff_getElem?]

end Tree

/-- An address leads somewhere after each of its parts. -/
theorem Tree.Leads.of_append {t n : Tree} {p q : List Nat} (h : t.Leads (p ++ q) n) :
    ∃ m, t.Leads p m := by
  induction p generalizing t with
  | nil => exact ⟨t, .here⟩
  | cons i p ih =>
    obtain ⟨c, hchild, hproper, hrest⟩ := Tree.leads_cons_iff.mp h
    obtain ⟨m, hm⟩ := ih hrest
    exact ⟨m, .child hchild hproper hm⟩

/-- Trees in a row are those at the addresses with a property, each once. -/
structure Addressed (wanted : List Nat → Tree → Prop) (trees : List Tree)
    (addressed : List (List Nat × Tree)) : Prop where
  trees : addressed.map Prod.snd = trees
  nodup : (addressed.map Prod.fst).Nodup
  mem_iff : ∀ a d, (a, d) ∈ addressed ↔ wanted a d

namespace Addressed

variable {wanted wanted' : List Nat → Tree → Prop} {trees trees' : List Tree}
  {addressed addressed' : List (List Nat × Tree)}

/-- Addresses do not depend on how they are described. -/
theorem congr (h : Addressed wanted trees addressed) (hsame : ∀ a d, wanted a d ↔ wanted' a d) :
    Addressed wanted' trees addressed :=
  ⟨h.trees, h.nodup, fun a d => (h.mem_iff a d).trans (hsame a d)⟩

/-- Two rows of trees at different addresses are one row. -/
theorem append (h : Addressed wanted trees addressed) (h' : Addressed wanted' trees' addressed')
    (hapart : ∀ a d d', wanted a d → ¬ wanted' a d') :
    Addressed (fun a d => wanted a d ∨ wanted' a d) (trees ++ trees') (addressed ++ addressed') := by
  refine ⟨by rw [List.map_append, h.trees, h'.trees], ?_, ?_⟩
  · rw [List.map_append]
    refine List.nodup_append.mpr ⟨h.nodup, h'.nodup, ?_⟩
    rintro a ha _ ha' rfl
    obtain ⟨⟨_, d⟩, hd, rfl⟩ := List.mem_map.mp ha
    obtain ⟨⟨_, d'⟩, hd', rfl⟩ := List.mem_map.mp ha'
    exact hapart _ d d' ((h.mem_iff _ _).mp hd) ((h'.mem_iff _ _).mp hd')
  · intro a d
    rw [List.mem_append, h.mem_iff, h'.mem_iff]

/-- Nothing is at no address. -/
theorem nil (hnone : ∀ a d, ¬ wanted a d) : Addressed wanted [] [] :=
  ⟨rfl, .nil, fun a d => by simpa using hnone a d⟩

/-- Trees with positions have their addresses below an address. -/
theorem of_positions (b : List Nat) {picked : List (Tree × Nat)}
    (hpositions : (picked.map Prod.snd).Nodup) :
    Addressed (fun a d => ∃ j, a = b ++ [j] ∧ (d, j) ∈ picked) (picked.map Prod.fst)
      (picked.map fun v => (b ++ [v.2], v.1)) := by
  refine ⟨by rw [List.map_map]; rfl, ?_, ?_⟩
  · have hinjective : Function.Injective fun j : Nat => b ++ [j] := fun i j h => by simpa using h
    have hnodup := List.Nodup.map hinjective hpositions
    rw [List.map_map] at hnodup ⊢
    exact hnodup
  · intro a d
    constructor
    · intro hmem
      obtain ⟨⟨c, j⟩, hv, heq⟩ := List.mem_map.mp hmem
      obtain ⟨rfl, rfl⟩ := Prod.mk.inj heq
      exact ⟨j, rfl, hv⟩
    · rintro ⟨j, rfl, hv⟩
      exact List.mem_map.mpr ⟨(d, j), hv, rfl⟩

/-- The children of a node that satisfy a condition have their addresses below that of the node. -/
theorem exists_children (b : List Nat) (t : Tree) (keep : Tree → Bool) :
    ∃ addressed, Addressed
      (fun a d => ∃ j, a = b ++ [j] ∧ t.children[j]? = some d ∧ keep d = true)
      (t.children.filter keep) addressed := by
  have hall := of_positions b (t.nodup_picked keep)
  rw [t.map_fst_picked keep] at hall
  exact ⟨_, hall.congr fun a d => exists_congr fun j => and_congr_right fun _ => Tree.mem_picked⟩

/-- A node stands before the child at a position of another, and from there on up to the child all
that is named are decorators. -/
def RunsUpTo (b : List Nat) (t : Tree) (i : Nat) (a : List Nat) (d : Tree) : Prop :=
  ∃ j, a = b ++ [j] ∧ j < i ∧ t.children[j]? = some d ∧ d.label.named = true ∧
    ∀ l c, j ≤ l → l < i → t.children[l]? = some c → c.label.named = true → c.kind = "decorator"

/-- The decorators directly before a child have their addresses below that of the parent. -/
theorem exists_before (b : List Nat) (t : Tree) (i : Nat) (above : Tree.Spine) :
    ∃ addressed, Addressed (RunsUpTo b t i)
      (decoratorsBefore (⟨t, (t.children.take i).reverse⟩ :: above)) addressed := by
  -- The earlier siblings are read backwards, so their positions decrease along the run.
  set named := (t.children.take i).zipIdx.reverse.filter fun v => v.1.label.named with hnamed
  have hdown : named.Pairwise fun v w => w.2 < v.2 := by
    refine List.Pairwise.filter _ (List.pairwise_reverse.mpr ?_)
    rw [← List.pairwise_map (f := Prod.snd) (R := (· < ·)), List.zipIdx_map_snd]
    exact List.pairwise_lt_range'
  have hmem : ∀ {c l}, (c, l) ∈ named ↔
      l < i ∧ t.children[l]? = some c ∧ c.label.named = true := by
    intro c l
    rw [hnamed, List.mem_filter, List.mem_reverse, List.mk_mem_zipIdx_iff_getElem?,
      List.getElem?_take, ← and_assoc]
    refine and_congr_left fun _ => ?_
    split <;> simp_all
  set run := named.takeWhile fun v => v.1.kind == "decorator" with hrun
  have hpositions : (run.reverse.map Prod.snd).Nodup := by
    rw [List.map_reverse, List.nodup_reverse]
    refine List.pairwise_map.mpr ((hdown.sublist (List.takeWhile_sublist _)).imp ?_)
    intro v w hless
    omega
  have htrees : run.reverse.map Prod.fst =
      decoratorsBefore (⟨t, (t.children.take i).reverse⟩ :: above) := by
    have hearlier : (t.children.take i).reverse.filter (·.label.named) = named.map Prod.fst := by
      rw [hnamed, ← List.zipIdx_map_fst 0 (t.children.take i), ← List.map_reverse, List.filter_map,
        List.zipIdx_map_fst]
      rfl
    rw [decoratorsBefore, List.map_reverse]
    dsimp only [List.head?, Option.elim]
    rw [hearlier, List.takeWhile_map]
    rfl
  have hall := of_positions b hpositions
  rw [htrees] at hall
  refine ⟨_, hall.congr fun a d => exists_congr fun j => and_congr_right fun _ => ?_⟩
  rw [List.mem_reverse, hrun, mem_takeWhile_of_sorted hdown, hmem, and_assoc, and_assoc]
  refine and_congr_right fun _ => and_congr_right fun _ => and_congr_right fun _ => ?_
  constructor
  · intro hgood l c hle hless hc hnamed
    exact beq_iff_eq.mp (hgood (c, l) (hmem.mpr ⟨hless, hc, hnamed⟩) hle)
  · rintro hgood ⟨c, l⟩ hc hle
    obtain ⟨hless, hc, hnamed⟩ := hmem.mp hc
    exact beq_iff_eq.mpr (hgood l c hle hless hc hnamed)

/-- Rows of trees below different children are one row. -/
theorem exists_flatMap {picked : List (Tree × Nat)} (block : Tree → List Tree)
    {wanted : Tree × Nat → List Nat → Tree → Prop} (b : List Nat)
    (hpositions : (picked.map Prod.snd).Nodup)
    (hbelow : ∀ v a d, wanted v a d → ∃ r, a = b ++ v.2 :: r)
    (hblocks : ∀ v ∈ picked, ∃ addressed, Addressed (wanted v) (block v.1) addressed) :
    ∃ addressed, Addressed (fun a d => ∃ v ∈ picked, wanted v a d)
      ((picked.map Prod.fst).flatMap block) addressed := by
  induction picked with
  | nil => exact ⟨[], nil (by simp)⟩
  | cons v picked ih =>
    obtain ⟨hnew, hrest⟩ := List.nodup_cons.mp hpositions
    obtain ⟨own, hown⟩ := hblocks v List.mem_cons_self
    obtain ⟨later, hlater⟩ := ih hrest fun w hw => hblocks w (List.mem_cons_of_mem _ hw)
    have hapart : ∀ a d d', wanted v a d → ¬ ∃ w ∈ picked, wanted w a d' := by
      rintro a d d' hd ⟨w, hw, hd'⟩
      obtain ⟨r, rfl⟩ := hbelow v a d hd
      obtain ⟨r', heq⟩ := hbelow w _ d' hd'
      have hsame : v.2 = w.2 := (List.cons.inj (List.append_cancel_left heq)).1
      exact hnew (List.mem_map.mpr ⟨w, hw, hsame.symm⟩)
    refine ⟨own ++ later, (hown.append hlater hapart).congr fun a d => ?_⟩
    simp

end Addressed

/-- The languages whose decorators are expressions. -/
def Language.decorating : List Language := [.python, .javaScript, .typeScript, .tsx]

namespace Document

variable {doc : Document} {s : Stop} {a e p : List Nat} {d x : Tree} {k : Nat}

/-- A decorator is a child of a node. -/
def IsDecoratorOf (doc : Document) (b : List Nat) (t : Tree) (a : List Nat) (d : Tree) : Prop :=
  ∃ j, a = b ++ [j] ∧ t.children[j]? = some d ∧ d.isProper = true ∧ doc.role d = .decorator

/-- A decorator is among the children or the modifiers of a node. -/
def IsDecoratorIn (doc : Document) (b : List Nat) (t : Tree) (a : List Nat) (d : Tree) : Prop :=
  (∃ j, a = b ++ [j] ∧ t.children[j]? = some d ∧ d.isProper = true ∧ d.kind = "decorator") ∨
    ∃ j m, t.children[j]? = some m ∧ m.isProper = true ∧ m.kind = "modifiers" ∧
      doc.IsDecoratorOf (b ++ [j]) m a d

/-- A decorator at an address is found from the stop of a declaration at another: it stands in the
same decorated definition, directly before the declaration, or inside of it. -/
inductive Adorns (doc : Document) (a : List Nat) (d : Tree) (p : List Nat) (s : Stop) : Prop
  | wrapped {q : List Nat} {i : Nat} {parent : Tree} {decorators : List Tree}
      (hvisit : s.visit = .declare decorators) (hp : p = q ++ [i])
      (hparent : doc.tree.subtree? q = some parent) (hd : doc.IsDecoratorOf q parent a d)
  | before {q : List Nat} {i : Nat} {parent : Tree} (hvisit : s.visit = .look)
      (hp : p = q ++ [i]) (hparent : doc.tree.subtree? q = some parent)
      (hd : Addressed.RunsUpTo q parent i a d)
  | inside (hvisit : s.visit = .look) (hd : doc.IsDecoratorIn p s.node a d)

/-- The decorators of a decorated node, with their addresses. -/
theorem exists_addressed_decorators (b : List Nat) (t : Tree) :
    ∃ addressed, Addressed (doc.IsDecoratorOf b t)
      (t.proper.filter fun n => doc.role n == .decorator) addressed := by
  obtain ⟨addressed, h⟩ :=
    Addressed.exists_children b t fun n => doc.role n == .decorator && n.isProper
  rw [Tree.proper, List.filter_filter]
  refine ⟨addressed, h.congr fun a d => exists_congr fun j => ?_⟩
  simp [and_comm]

/-- The decorators that a child of a declaration is or has. -/
def decoratorsFrom (doc : Document) (c : Tree) : List Tree :=
  if c.kind == "modifiers" then c.proper.filter fun n => doc.role n == .decorator
  else if c.kind == "decorator" then [c]
  else []

/-- The decorators that a child is or has, with their addresses. -/
theorem exists_addressed_child (b : List Nat) (c : Tree) (j : Nat) :
    ∃ addressed, Addressed
      (fun a d => (c.kind = "decorator" ∧ a = b ++ [j] ∧ d = c) ∨
        c.kind = "modifiers" ∧ doc.IsDecoratorOf (b ++ [j]) c a d)
      (doc.decoratorsFrom c) addressed := by
  rw [decoratorsFrom]
  split
  · rename_i hkind
    rw [beq_iff_eq] at hkind
    obtain ⟨addressed, h⟩ := doc.exists_addressed_decorators (b ++ [j]) c
    exact ⟨addressed, h.congr fun a d => by simp [hkind]⟩
  · rename_i hother
    rw [beq_iff_eq] at hother
    split
    · rename_i hkind
      rw [beq_iff_eq] at hkind
      exact ⟨[(b ++ [j], c)], rfl, List.nodup_singleton _, fun a d => by simp [hkind]⟩
    · rename_i hneither
      rw [beq_iff_eq] at hneither
      exact ⟨[], .nil fun a d => by simp [hother, hneither]⟩

/-- The decorators inside of a node, with their addresses. -/
theorem exists_addressed_inside (b : List Nat) (t : Tree) :
    ∃ addressed, Addressed (doc.IsDecoratorIn b t) (t.proper.flatMap doc.decoratorsFrom)
      addressed := by
  have hbelow : ∀ (v : Tree × Nat) (a : List Nat) (d : Tree),
      ((v.1.kind = "decorator" ∧ a = b ++ [v.2] ∧ d = v.1) ∨
        v.1.kind = "modifiers" ∧ doc.IsDecoratorOf (b ++ [v.2]) v.1 a d) →
      ∃ r, a = b ++ v.2 :: r := by
    rintro v a d (⟨_, rfl, _⟩ | ⟨_, l, rfl, _⟩)
    · exact ⟨[], rfl⟩
    · exact ⟨[l], by simp⟩
  obtain ⟨addressed, h⟩ := Addressed.exists_flatMap doc.decoratorsFrom b
    (t.nodup_picked Tree.isProper) hbelow fun v _ => exists_addressed_child b v.1 v.2
  rw [t.map_fst_picked] at h
  refine ⟨addressed, h.congr fun a d => ⟨?_, ?_⟩⟩
  · rintro ⟨⟨c, j⟩, hc, ⟨hkind, ha, rfl⟩ | ⟨hkind, hd⟩⟩
    · obtain ⟨hchild, hproper⟩ := Tree.mem_picked.mp hc
      exact .inl ⟨j, ha, hchild, hproper, hkind⟩
    · obtain ⟨hchild, hproper⟩ := Tree.mem_picked.mp hc
      exact .inr ⟨j, c, hchild, hproper, hkind, hd⟩
  · rintro (⟨j, ha, hchild, hproper, hkind⟩ | ⟨j, m, hchild, hproper, hkind, hd⟩)
    · exact ⟨(d, j), Tree.mem_picked.mpr ⟨hchild, hproper⟩, .inl ⟨hkind, ha, rfl⟩⟩
    · exact ⟨(m, j), Tree.mem_picked.mpr ⟨hchild, hproper⟩, .inr ⟨hkind, hd⟩⟩

/-- What is inside of a node has a longer address. -/
theorem IsDecoratorIn.length_lt {b : List Nat} {t : Tree} (h : doc.IsDecoratorIn b t a d) :
    b.length < a.length := by
  rcases h with ⟨j, rfl, _⟩ | ⟨j, m, _, _, _, l, rfl, _⟩
  · simp
  · simp

/-- The decorators that a decorated node wraps together with a declaration are those that adorn
it. -/
theorem exists_addressed_wrapped {decorators : List Tree} (hcomes : doc.Comes doc.start p s)
    (hvisit : s.visit = .declare decorators) :
    ∃ addressed, Addressed (fun a d => doc.Adorns a d p s) decorators addressed := by
  obtain ⟨q, i, before, rfl, hbefore, _, _, _, rfl⟩ := decorated_of_visit_declare hcomes hvisit
  obtain ⟨addressed, h⟩ := doc.exists_addressed_decorators q before.node
  refine ⟨addressed, h.congr fun a d => ⟨.wrapped hvisit rfl hbefore.subtree?, ?_⟩⟩
  intro hadorns
  cases hadorns with
  | wrapped _ hp hparent hd =>
    obtain ⟨rfl, _⟩ := List.append_inj' hp rfl
    obtain rfl := Option.some.inj (hparent.symm.trans hbefore.subtree?)
    exact hd
  | before hlook | inside hlook => cases hvisit.symm.trans hlook

/-- The decorators attached to a declaration that the walk looks at are those that adorn it. -/
theorem exists_addressed_attached (hcomes : doc.Comes doc.start p s) (hvisit : s.visit = .look) :
    ∃ addressed, Addressed (fun a d => doc.Adorns a d p s)
      (doc.attachedDecorators s.node s.env.spine) addressed := by
  obtain ⟨inside, hinside⟩ := doc.exists_addressed_inside p s.node
  have hattached : doc.attachedDecorators s.node s.env.spine =
      decoratorsBefore s.env.spine ++ s.node.proper.flatMap doc.decoratorsFrom := rfl
  rw [hattached]
  -- Nothing stands before the root, and every other stop was come to along a leg of its parent.
  rcases hcomes.eq_or_concat with ⟨rfl, rfl⟩ | ⟨q, i, before, rfl, hbefore, hlast⟩
  · refine ⟨inside, hinside.congr fun a d => ⟨.inside hvisit, fun hadorns => ?_⟩⟩
    cases hadorns with
    | wrapped hdeclare => cases hvisit.symm.trans hdeclare
    | before _ hp => simp at hp
    | inside _ hd => exact hd
  · obtain ⟨leg, _, found, rfl, hs⟩ := mem_stopsAlong hlast
    obtain ⟨above, hspine⟩ : ∃ above, s.env.spine =
        ⟨before.node, (before.node.children.take leg.position).reverse⟩ :: above :=
      ⟨_, by rw [hs]; rfl⟩
    obtain ⟨earlier, hearlier⟩ := Addressed.exists_before q before.node leg.position above
    rw [hspine]
    refine ⟨earlier ++ inside, (hearlier.append hinside ?_).congr fun a d => ⟨?_, ?_⟩⟩
    · rintro a d d' ⟨j, rfl, _⟩ hd'
      have hlonger := hd'.length_lt
      simp at hlonger
    · rintro (hd | hd)
      · exact .before hvisit rfl hbefore.subtree? hd
      · exact .inside hvisit hd
    · intro hadorns
      cases hadorns with
      | wrapped hdeclare => cases hvisit.symm.trans hdeclare
      | before _ hp hparent hd =>
        obtain ⟨rfl, hposition⟩ := List.append_inj' hp rfl
        obtain rfl := Option.some.inj (hparent.symm.trans hbefore.subtree?)
        exact .inl (List.singleton_inj.mp hposition ▸ hd)
      | inside _ hd => exact .inr hd

/-- The decorators with which a declaration is recorded are those that adorn it. -/
theorem exists_addressed_adorns {decorators : List Tree} {header : Header}
    (hcomes : doc.Comes doc.start p s) (hevent : doc.eventAt s = .declared decorators header) :
    ∃ addressed, Addressed (fun a d => doc.Adorns a d p s) decorators addressed := by
  rcases refine_eq_declare (plan_declared hevent).1 with hvisit | ⟨hvisit, rfl, _⟩
  · exact exists_addressed_wrapped hcomes hvisit
  · exact exists_addressed_attached hcomes hvisit

/-- In these languages decorators are of one kind. -/
theorem role_eq_decorator_iff (hlanguage : doc.language ∈ Language.decorating) {t : Tree} :
    doc.role t = .decorator ↔ t.kind = "decorator" := by
  have hgrammar : doc.grammar = .python ∨ doc.grammar = .script := by
    rw [grammar]
    simp only [Language.decorating, List.mem_cons, List.not_mem_nil, or_false] at hlanguage
    rcases hlanguage with h | h | h | h <;> simp [h, Language.grammar]
  rw [role]
  constructor
  · intro h
    obtain ⟨kinds, hkinds, hkind⟩ := Grammar.exists_of_role h (by decide)
    have hone : kinds = ["decorator"] := by
      rcases hgrammar with hg | hg
      · simpa [hg, Grammar.python] using hkinds
      · simpa [hg, Grammar.script] using hkinds
    rw [hone] at hkind
    exact List.mem_singleton.mp hkind
  · intro h
    rw [h]
    rcases hgrammar with hg | hg <;> rw [hg] <;> decide

/-- The node at an address is a plain call that is the expression of a decorator, wherever the
decorator stands. -/
def IsDecoratorExpression (doc : Document) (e : List Nat) (x : Tree) : Prop :=
  ∃ a i d, e = a ++ [i] ∧ doc.tree.subtree? a = some d ∧ doc.isDecorator d = true ∧
    d.FirstProper i x ∧ doc.role x = .call

/-- A decorator is the call that is its first child, or makes none. -/
theorem decoratorFact_cases {d : Tree} (hkind : d.kind = "decorator") :
    (∃ i x, d.FirstProper i x ∧ doc.role x = .call ∧
      (doc.decoratorFact d).2 = some (doc.decoratorCall x)) ∨
    (doc.decoratorFact d).2 = none ∧ ∀ i x, d.FirstProper i x → doc.role x ≠ .call := by
  have hplain : (d.kind == "annotation" || d.kind == "marker_annotation") = false := by
    rw [hkind]
    decide
  simp only [decoratorFact, hplain, Bool.false_eq_true, if_false]
  cases hfirst : d.firstProper? with
  | none =>
    refine .inr ⟨rfl, fun i x hx => ?_⟩
    have hnone := List.find?_eq_none.mp hfirst x (List.mem_of_getElem? hx.child)
    exact absurd hx.proper hnone
  | some x =>
    obtain ⟨i, hx⟩ := Tree.exists_firstProper hfirst
    dsimp only
    split
    · rename_i hcall
      exact .inl ⟨i, x, hx, hcall, rfl⟩
    · rename_i hother
      refine .inr ⟨rfl, fun j y hy => ?_⟩
      rw [(hy.unique hx).2]
      exact hother

/-- The calls that decorators in a row make are those of their expressions. -/
theorem exists_expressions {decorators : List (List Nat × Tree)}
    (hkinds : ∀ y ∈ decorators, y.2.kind = "decorator") (hnodup : (decorators.map Prod.fst).Nodup) :
    ∃ expressions : List (List Nat × Tree),
      ((decorators.map Prod.snd).map doc.decoratorFact).filterMap (·.2) =
        expressions.map (fun y => doc.decoratorCall y.2) ∧
      (expressions.map Prod.fst).Nodup ∧
      ∀ e x, (e, x) ∈ expressions ↔ ∃ a d i, (a, d) ∈ decorators ∧ e = a ++ [i] ∧
        d.FirstProper i x ∧ doc.role x = .call := by
  induction decorators with
  | nil => exact ⟨[], rfl, .nil, by simp⟩
  | cons y decorators ih =>
    obtain ⟨b, d⟩ := y
    obtain ⟨hnew, hrest⟩ := List.nodup_cons.mp hnodup
    obtain ⟨later, hcalls, hlater, hmem⟩ :=
      ih (fun y hy => hkinds y (List.mem_cons_of_mem _ hy)) hrest
    rw [List.map_cons, List.map_cons]
    rcases doc.decoratorFact_cases (hkinds (b, d) List.mem_cons_self) with
      ⟨i, x, hx, hcall, hfact⟩ | ⟨hfact, hnone⟩
    · refine ⟨(b ++ [i], x) :: later, ?_, ?_, ?_⟩
      · rw [List.filterMap_cons_some hfact, hcalls]
        rfl
      · refine List.nodup_cons.mpr ⟨fun hold => ?_, hlater⟩
        obtain ⟨⟨e, x'⟩, hold, heq⟩ := List.mem_map.mp hold
        obtain ⟨a, d', i', hdecorator, rfl, _⟩ := (hmem e x').mp hold
        obtain ⟨rfl, _⟩ := List.append_inj' heq rfl
        exact hnew (List.mem_map.mpr ⟨(a, d'), hdecorator, rfl⟩)
      · intro e x'
        rw [List.mem_cons, hmem]
        constructor
        · rintro (heq | ⟨a, d', i', hdecorator, hrest⟩)
          · obtain ⟨rfl, rfl⟩ := Prod.mk.inj heq
            exact ⟨b, d, i, List.mem_cons_self, rfl, hx, hcall⟩
          · exact ⟨a, d', i', List.mem_cons_of_mem _ hdecorator, hrest⟩
        · rintro ⟨a, d', i', hdecorator, rfl, hx', hcall'⟩
          rcases List.mem_cons.mp hdecorator with heq | hdecorator
          · obtain ⟨rfl, rfl⟩ := Prod.mk.inj heq
            obtain ⟨rfl, rfl⟩ := hx'.unique hx
            exact .inl rfl
          · exact .inr ⟨a, d', i', hdecorator, rfl, hx', hcall'⟩
    · refine ⟨later, ?_, hlater, fun e x => ?_⟩
      · rw [List.filterMap_cons_none hfact, hcalls]
      · rw [hmem]
        constructor
        · rintro ⟨a, d', i, hdecorator, hrest⟩
          exact ⟨a, d', i, List.mem_cons_of_mem _ hdecorator, hrest⟩
        · rintro ⟨a, d', i, hdecorator, rfl, hx, hcall⟩
          rcases List.mem_cons.mp hdecorator with heq | hdecorator
          · obtain ⟨rfl, rfl⟩ := Prod.mk.inj heq
            exact absurd hcall (hnone i x hx)
          · exact ⟨a, d', i, hdecorator, rfl, hx, hcall⟩

/-- The call at an address is the expression of a decorator that adorns the declaration at another
address, which is recorded with an index. -/
def Decorates (doc : Document) (e : List Nat) (x : Tree) (p : List Nat) (k : Nat) : Prop :=
  ∃ s a d i, doc.Comes doc.start p s ∧ (∃ decorators header,
      doc.eventAt s = .declared decorators header) ∧ k = s.found.next ∧ doc.Adorns a d p s ∧
    e = a ++ [i] ∧ d.FirstProper i x ∧ doc.role x = .call

/-- What adorns a declaration is a decorator by its kind. -/
theorem Adorns.kind (hlanguage : doc.language ∈ Language.decorating) (h : doc.Adorns a d p s) :
    d.kind = "decorator" := by
  cases h with
  | wrapped _ _ _ hd =>
    obtain ⟨_, _, _, _, hrole⟩ := hd
    exact (role_eq_decorator_iff hlanguage).mp hrole
  | before _ _ _ hd =>
    obtain ⟨j, _, hless, hd, hnamed, hrun⟩ := hd
    exact hrun j d (Nat.le_refl _) hless hd hnamed
  | inside _ hd =>
    rcases hd with ⟨_, _, _, _, hkind⟩ | ⟨_, _, _, _, _, _, _, _, _, hrole⟩
    · exact hkind
    · exact (role_eq_decorator_iff hlanguage).mp hrole

/-- What adorns a declaration is the node at its address. -/
theorem Adorns.subtree? (hcomes : doc.Comes doc.start p s) (h : doc.Adorns a d p s) :
    doc.tree.subtree? a = some d := by
  have hnode : doc.tree.subtree? p = some s.node := hcomes.subtree?
  cases h with
  | wrapped _ _ hparent hd =>
    obtain ⟨_, rfl, hd, _⟩ := hd
    exact Tree.subtree?_concat hparent hd
  | before _ _ hparent hd =>
    obtain ⟨_, rfl, _, hd, _⟩ := hd
    exact Tree.subtree?_concat hparent hd
  | inside _ hd =>
    rcases hd with ⟨_, rfl, hd, _⟩ | ⟨_, _, hmodifiers, _, _, _, rfl, hd, _⟩
    · exact Tree.subtree?_concat hnode hd
    · exact Tree.subtree?_concat (Tree.subtree?_concat hnode hmodifiers) hd

/-- What decorates a declaration is the expression of a decorator. -/
theorem Decorates.isDecoratorExpression (hlanguage : doc.language ∈ Language.decorating)
    (h : doc.Decorates e x p k) : doc.IsDecoratorExpression e x := by
  obtain ⟨s, a, d, i, hcomes, _, _, hadorns, rfl, hx, hcall⟩ := h
  have hkind := hadorns.kind hlanguage
  refine ⟨a, i, d, rfl, hadorns.subtree? hcomes, ?_, hx, hcall⟩
  rw [isDecorator, (role_eq_decorator_iff hlanguage).mpr hkind, hkind]
  rfl

/-- The calls that are recorded at a stop are those that decorate its declaration. -/
theorem exists_expressions_at (hlanguage : doc.language ∈ Language.decorating)
    (hcomes : doc.Comes doc.start p s) :
    ∃ expressions : List (List Nat × Tree),
      doc.decoratorCallsAt s = expressions.map (fun y =>
        { doc.decoratorCall y.2 with caller := s.env.enclosing, decorates := some s.found.next }) ∧
      (expressions.map Prod.fst).Nodup ∧
      ∀ e x, (e, x) ∈ expressions ↔ doc.Decorates e x p s.found.next := by
  by_cases hdeclared : ∃ decorators header, doc.eventAt s = .declared decorators header
  · obtain ⟨decorators, header, hevent⟩ := hdeclared
    obtain ⟨addressed, haddressed⟩ := exists_addressed_adorns hcomes hevent
    have hkinds : ∀ y ∈ addressed, y.2.kind = "decorator" := fun y hy =>
      ((haddressed.mem_iff y.1 y.2).mp hy).kind hlanguage
    obtain ⟨expressions, hcalls, hnodup, hmem⟩ :=
      doc.exists_expressions hkinds haddressed.nodup
    refine ⟨expressions, ?_, hnodup, fun e x => ?_⟩
    · rw [decoratorCallsAt, hevent]
      dsimp only
      rw [← haddressed.trees, hcalls, List.map_map]
      rfl
    · rw [hmem]
      constructor
      · rintro ⟨a, d, i, hd, hrest⟩
        exact ⟨s, a, d, i, hcomes, ⟨_, _, hevent⟩, rfl, (haddressed.mem_iff a d).mp hd, hrest⟩
      · rintro ⟨s', a, d, i, hcomes', _, _, hadorns, hrest⟩
        obtain rfl := hcomes'.unique hcomes
        exact ⟨a, d, i, (haddressed.mem_iff a d).mpr hadorns, hrest⟩
  · refine ⟨[], ?_, .nil, fun e x => ⟨fun h => absurd h List.not_mem_nil, ?_⟩⟩
    · rw [decoratorCallsAt]
      split
      · rename_i decorators header hevent
        exact absurd ⟨decorators, header, hevent⟩ hdeclared
      · rfl
    · rintro ⟨s', _, _, _, hcomes', hdeclared', _⟩
      obtain rfl := hcomes'.unique hcomes
      exact absurd hdeclared' hdeclared

/-- A call is recorded for the expression at an address, which decorates the declaration at
another. -/
def IsRecordedFor (doc : Document) (call : CallFact) (y : List Nat × List Nat) : Prop :=
  ∃ x k, doc.Decorates y.1 x y.2 k ∧
    call = { doc.decoratorCall x with caller := call.caller, decorates := some k }

/-- The calls that are recorded at stops are those that decorate their declarations, each once. -/
theorem exists_recorded (hlanguage : doc.language ∈ Language.decorating)
    {stops : List (List Nat × Stop)} (hstops : ∀ y ∈ stops, doc.Comes doc.start y.1 y.2)
    (hnodup : (stops.map Prod.fst).Nodup) :
    ∃ pairs : List (List Nat × List Nat),
      List.Forall₂ doc.IsRecordedFor (stops.flatMap fun y => doc.decoratorCallsAt y.2) pairs ∧
      pairs.Nodup ∧
      ∀ e p, (e, p) ∈ pairs ↔ p ∈ stops.map Prod.fst ∧ ∃ x k, doc.Decorates e x p k := by
  induction stops with
  | nil => exact ⟨[], .nil, .nil, by simp⟩
  | cons y stops ih =>
    obtain ⟨p, s⟩ := y
    obtain ⟨hnew, hrest⟩ := List.nodup_cons.mp hnodup
    have hcomes := hstops (p, s) List.mem_cons_self
    obtain ⟨later, hlater, hlaterNodup, hlaterMem⟩ :=
      ih (fun y hy => hstops y (List.mem_cons_of_mem _ hy)) hrest
    obtain ⟨own, hcalls, hown, hmem⟩ := exists_expressions_at hlanguage hcomes
    -- There is one stop at an address, so the index of the declaration is that of this stop.
    have hk : ∀ {e x k}, doc.Decorates e x p k → k = s.found.next := by
      rintro e x k ⟨s', _, _, _, hcomes', _, rfl, _⟩
      rw [hcomes'.unique hcomes]
    refine ⟨own.map (fun z => (z.1, p)) ++ later, ?_, ?_, ?_⟩
    · rw [List.flatMap_cons]
      refine List.rel_append ?_ hlater
      rw [hcalls, List.forall₂_map_left_iff, List.forall₂_map_right_iff, List.forall₂_same]
      exact fun z hz => ⟨z.2, s.found.next, (hmem z.1 z.2).mp hz, rfl⟩
    · refine List.nodup_append.mpr ⟨?_, hlaterNodup, ?_⟩
      · have hpaired := List.Nodup.map (f := fun e : List Nat => (e, p))
          (fun e e' h => (Prod.mk.inj h).1) hown
        rwa [List.map_map] at hpaired
      · rintro y hy _ hy' rfl
        obtain ⟨z, _, rfl⟩ := List.mem_map.mp hy
        exact hnew ((hlaterMem _ _).mp hy').1
    · intro e q
      rw [List.mem_append, hlaterMem, List.map_cons, List.mem_cons]
      constructor
      · rintro (hy | ⟨hq, hdecorates⟩)
        · obtain ⟨⟨e', x⟩, hz, heq⟩ := List.mem_map.mp hy
          obtain ⟨rfl, rfl⟩ := Prod.mk.inj heq
          exact ⟨.inl rfl, x, _, (hmem _ x).mp hz⟩
        · exact ⟨.inr hq, hdecorates⟩
      · rintro ⟨rfl | hq, x, k, hdecorates⟩
        · refine .inl (List.mem_map.mpr ⟨(e, x), (hmem e x).mpr ?_, rfl⟩)
          exact hk hdecorates ▸ hdecorates
        · exact .inr ⟨hq, x, k, hdecorates⟩

/-- A call comes from the node at an address: a decorator call from the expression of a decorator
that adorns a declaration, and any other from a call that is evaluated there. -/
def ComesFrom (doc : Document) (call : CallFact) (e : List Nat) : Prop :=
  (call.kind ≠ .decoratorCall ∧ ∃ n, doc.Evaluates doc.tree e n ∧ call.extent = doc.extent n) ∨
    ∃ x p k, doc.IsDecoratorExpression e x ∧ doc.Decorates e x p k ∧
      call = { doc.decoratorCall x with caller := call.caller, decorates := some k }

/-- The expression of a decorator yields exactly one call when it decorates exactly one declaration,
and none when it decorates none. -/
def RecordsDecoratorCalls (doc : Document) (facts : FileFacts) : Prop :=
  ∃ origins : List (List Nat), List.Forall₂ doc.ComesFrom facts.calls origins ∧
    ∀ e x, doc.IsDecoratorExpression e x →
      (origins.count e = 1 ↔ ∃! p, ∃ k, doc.Decorates e x p k) ∧
      (origins.count e = 0 ↔ ∀ p k, ¬ doc.Decorates e x p k)

/-- The expression of a decorator is not evaluated as a call of its own. -/
theorem Evaluates.not_isDecoratorExpression {n : Tree} (h : doc.Evaluates doc.tree e n) :
    ¬ doc.IsDecoratorExpression e x := by
  rintro ⟨a, i, d, rfl, hd, hdecorator, hx, hcall⟩
  obtain ⟨m, hm⟩ := h.leads.of_append
  obtain rfl := Option.some.inj (hm.subtree?.symm.trans hd)
  exact h.notDecorator ⟨a, i, m, x, rfl, hm, hdecorator, hx, hcall⟩

/-- An expression decorates the node that it is. -/
theorem Decorates.subtree? (h : doc.Decorates e x p k) : doc.tree.subtree? e = some x := by
  obtain ⟨s, a, d, i, hcomes, _, _, hadorns, rfl, hx, _⟩ := h
  exact Tree.subtree?_concat (hadorns.subtree? hcomes) hx.child

/-- The decorator calls of an outline are those that decorate declarations, each once. -/
theorem exists_recorded_outline (hlanguage : doc.language ∈ Language.decorating) :
    ∃ pairs : List (List Nat × List Nat),
      List.Forall₂ doc.IsRecordedFor doc.outline.decoratorCalls pairs ∧ pairs.Nodup ∧
      ∀ e p, (e, p) ∈ pairs ↔ ∃ x k, doc.Decorates e x p k := by
  obtain ⟨stops, htrace⟩ := doc.exists_trace doc.start
  obtain ⟨pairs, hrecorded, hnodup, hmem⟩ := exists_recorded hlanguage
    (fun y hy => (htrace.mem_iff y.1 y.2).mp hy) htrace.nodup
  refine ⟨pairs, htrace.outline_decoratorCalls ▸ hrecorded, hnodup, fun e p => ?_⟩
  rw [hmem]
  refine ⟨fun h => h.2, fun h => ⟨?_, h⟩⟩
  obtain ⟨x, k, s, _, _, _, hcomes, _⟩ := h
  exact List.mem_map.mpr ⟨(p, s), (htrace.mem_iff p s).mpr hcomes, rfl⟩

/-- Where calls come from, when the addresses of the sites and the pairs of expressions and
declarations are known. -/
theorem facts_comesFrom (path : Path) (hlanguage : doc.language ∈ Language.decorating)
    {addresses : List (List Nat)} {pairs : List (List Nat × List Nat)}
    (hsites : List.Forall₂ (doc.SitedAt doc.tree []) (doc.callSites [] doc.tree) addresses)
    (hrecorded : List.Forall₂ doc.IsRecordedFor doc.outline.decoratorCalls pairs) :
    List.Forall₂ doc.ComesFrom (doc.facts path).calls (addresses ++ pairs.map Prod.fst) := by
  have hfinish : (doc.outline.finish doc.language).2.2 = doc.outline.decoratorCalls := by
    have hfamily : doc.language.isCFamily = false := by
      simp only [Language.decorating, List.mem_cons, List.not_mem_nil, or_false] at hlanguage
      rcases hlanguage with h | h | h | h <;> rw [h] <;> rfl
    rw [Outline.finish, hfamily]
    rfl
  rw [facts]
  dsimp only
  rw [hfinish]
  refine List.rel_append ?_ ?_
  · rw [List.forall₂_map_left_iff]
    refine hsites.imp fun site e hsite => .inl ?_
    obtain ⟨n, hn, ⟨scopes, hown⟩, hextent⟩ := hsite.evaluates
    have hkind := doc.ownSite_kind n scopes site (by rw [hown]; exact List.mem_singleton_self _)
    exact ⟨hkind, n, hn, hextent⟩
  · rw [List.forall₂_map_right_iff]
    refine hrecorded.imp fun call y hcall => .inr ?_
    obtain ⟨x, k, hdecorates, hcall⟩ := hcall
    exact ⟨x, y.2, k, hdecorates.isDecoratorExpression hlanguage, hdecorates, hcall⟩

/-- The facts of a document record the calls of its decorators. -/
theorem facts_recordsDecoratorCalls {doc : Document} (path : Path)
    (hlanguage : doc.language ∈ Language.decorating) :
    doc.RecordsDecoratorCalls (doc.facts path) := by
  obtain ⟨pairs, hrecorded, hnodup, hpairs⟩ := exists_recorded_outline hlanguage
  obtain ⟨addresses, _, hsites⟩ := (doc.exists_sited doc.tree []).1
  refine ⟨_, facts_comesFrom path hlanguage hsites hrecorded, fun e x hx => ?_⟩
  -- No site of the other walk is at this address, so only the pairs count.
  have hsite : addresses.count e = 0 := by
    refine List.count_eq_zero.mpr fun he => ?_
    obtain ⟨site, -, hsite⟩ := exists_mem_of_forall₂ hsites he
    obtain ⟨n, hn, _⟩ := hsite.evaluates
    exact hn.not_isDecoratorExpression hx
  have hpartner : ∀ p, (e, p) ∈ pairs ↔ ∃ k, doc.Decorates e x p k := by
    intro p
    rw [hpairs]
    refine ⟨fun ⟨x', k, h⟩ => ⟨k, ?_⟩, fun ⟨k, h⟩ => ⟨x, k, h⟩⟩
    obtain ⟨a, i, d, rfl, hd, _, hfirst, _⟩ := hx
    have hnode := Tree.subtree?_concat hd hfirst.child
    obtain rfl := Option.some.inj (h.subtree?.symm.trans hnode)
    exact h
  rw [List.count_append, hsite, Nat.zero_add]
  constructor
  · rw [count_map_fst_eq_one hnodup]
    exact existsUnique_congr hpartner
  · rw [List.count_eq_zero]
    simp only [List.mem_map, Prod.exists, exists_and_right, exists_eq_right, not_exists, hpartner]

end Document

/-- In every file of a language with decorators, the expression of a decorator that is a call yields
one decorator call for every declaration that finds the decorator, and no other call. -/
theorem decorator_calls_are_recorded_with_declarations (path : Path) {language : Language}
    (text : String) {tree : Tree} (hlanguage : language ∈ Language.decorating)
    (hclean : tree.errorOffset? = none) :
    ∃ facts, extractSource path language text tree = .ok facts ∧
      (Document.ofSource language text tree).RecordsDecoratorCalls facts := by
  refine ⟨_, ?_, Document.facts_recordsDecoratorCalls path hlanguage⟩
  rw [extractSource, hclean]
  rfl

/-- The named nodes of `class A { @d() x = 1; @e() f() {} }`. -/
def decoratedMembers : Tree :=
  let inner (kind : String) (field : Option String) (start stop : Nat) (children : List Tree) :=
    Tree.node { kind := kind, named := true, field := field, start := start, stop := stop } children
  let decorator (start : Nat) : Tree :=
    inner "decorator" (some "decorator") start (start + 4)
      [inner "call_expression" none (start + 1) (start + 4)
        [inner "identifier" (some "function") (start + 1) (start + 2) [],
          inner "arguments" (some "arguments") (start + 2) (start + 4) []]]
  inner "program" none 0 35
    [inner "class_declaration" none 0 35
      [inner "identifier" (some "name") 6 7 [],
        inner "class_body" (some "body") 8 35
          [inner "field_definition" (some "member") 10 20
            [decorator 10, inner "property_identifier" (some "property") 15 16 [],
              inner "number" (some "value") 19 20 []],
            inner "method_definition" (some "member") 22 33
              [decorator 22, inner "property_identifier" (some "name") 27 28 [],
                inner "formal_parameters" (some "parameters") 28 30 [],
                inner "statement_block" (some "body") 31 33 []]]]]

/-- Both members have a decorator that is a call. The one of the method is recorded, and the one of
the field is lost. -/
theorem decorator_calls_are_recorded_with_declarations_members :
    .javaScript ∈ Language.decorating ∧ decoratedMembers.errorOffset? = none ∧
      (∃ d, (Document.ofSource .javaScript "class A { @d() x = 1; @e() f() {} }"
        decoratedMembers).IsDecoratorExpression [0, 1, 0, 0, 0] d) ∧
      (∃ e, (Document.ofSource .javaScript "class A { @d() x = 1; @e() f() {} }"
        decoratedMembers).IsDecoratorExpression [0, 1, 1, 0, 0] e) ∧
      ∃ facts, extractSource ⟨"a.js"⟩ .javaScript "class A { @d() x = 1; @e() f() {} }"
          decoratedMembers = .ok facts ∧
        facts.calls.map (fun call => (call.name, call.decorates)) = [("e", some 1)] ∧
        (Document.ofSource .javaScript "class A { @d() x = 1; @e() f() {} }"
          decoratedMembers).RecordsDecoratorCalls facts := by
  have hlanguage : .javaScript ∈ Language.decorating := by decide
  have hclean : decoratedMembers.errorOffset? = none := rfl
  obtain ⟨facts, hfacts, hrecords⟩ := decorator_calls_are_recorded_with_declarations ⟨"a.js"⟩
    "class A { @d() x = 1; @e() f() {} }" hlanguage hclean
  refine ⟨hlanguage, hclean, ?_, ?_, facts, hfacts, ?_, hrecords⟩
  · exact ⟨_, [0, 1, 0, 0], 0, _, rfl, rfl, by decide, ⟨rfl, rfl, by simp⟩, by decide⟩
  · exact ⟨_, [0, 1, 1, 0], 0, _, rfl, rfl, by decide, ⟨rfl, rfl, by simp⟩, by decide⟩
  · cases hfacts
    decide

end CodeAtlas
