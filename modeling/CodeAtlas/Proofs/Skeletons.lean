import CodeAtlas.Facts.Fingerprint
import CodeAtlas.Proofs.EvaluationOrder
import Mathlib.Logic.Relation

/-!
# Skeletons of declarations

The walk that gathers a skeleton reads a node and goes down, leaves a node to the right or up, and
stops when it is done with the node where it started. On its way it stands below its start, by as
many levels as it counts, so it never sees what surrounds the declaration. What it gathers are the
kinds of the named nodes in pre-order, without comments and scalar literals and what is below them.
-/

namespace CodeAtlas

open Relation (ReflTransGen)

/-! ### The walk -/

namespace SkeletonWalk

/-- One walk comes to the other in some steps. -/
def Comes : SkeletonWalk → SkeletonWalk → Prop := ReflTransGen fun w next => w.step? = some next

variable {w next : SkeletonWalk}

/-- A pruned node is done at once. -/
theorem enter_of_pruned (h : isPrunedKind w.cursor.focus.kind = true) :
    w.enter = { w with entering := false } := if_pos h

/-- A leaf is done when it is read. -/
theorem enter_of_leaf (h : isPrunedKind w.cursor.focus.kind = false)
    (hchild : w.cursor.firstChild? = none) :
    w.enter = { w with
      kinds := if w.cursor.focus.label.named then w.cursor.focus.kind :: w.kinds else w.kinds
      entering := false } := by
  rw [enter, h, if_neg Bool.false_ne_true, hchild]

/-- Any other node is read, and the walk goes down. -/
theorem enter_of_child {child : Tree.Cursor} (h : isPrunedKind w.cursor.focus.kind = false)
    (hchild : w.cursor.firstChild? = some child) :
    w.enter = { w with
      cursor := child
      depth := w.depth + 1
      kinds := if w.cursor.focus.label.named then w.cursor.focus.kind :: w.kinds else w.kinds } := by
  rw [enter, h, if_neg Bool.false_ne_true, hchild]

/-- A walk that comes to a node enters it. -/
theorem comes_of_entering (h : w.entering = true) : w.Comes w.enter :=
  .single (by rw [step?, if_pos h])

/-- A walk that is done with a node below its start leaves it. -/
theorem comes_of_done {depth : Nat} (h : w.entering = false) (hdepth : w.depth = depth + 1) :
    w.Comes (w.leave depth) :=
  .single (by rw [step?, h, if_neg Bool.false_ne_true, hdepth])

/-- A walk that is over has gathered its kinds. -/
theorem gathered_of_over (h : w.step? = none) : w.gathered = w.kinds.reverse := by
  rw [gathered]
  split
  · rfl
  · rename_i hstep
    rw [h] at hstep
    cases hstep

/-- A step has no effect on what is gathered in the end. -/
theorem gathered_of_step (h : w.step? = some next) : w.gathered = next.gathered := by
  rw [gathered]
  split
  · rename_i hstep
    rw [h] at hstep
    cases hstep
  · rename_i hstep
    rw [h] at hstep
    rw [Option.some.inj hstep]

/-- Steps have no effect on what is gathered in the end. -/
theorem Comes.gathered_eq (h : w.Comes next) : w.gathered = next.gathered := by
  induction h with
  | refl => rfl
  | tail _ hstep ih => rw [ih, gathered_of_step hstep]

/-- Wherever a walk comes to the tree, it leaves it at the same place, with these kinds added. -/
def ReadsOff (t : Tree) (kinds : List String) : Prop :=
  ∀ later above depth before, Comes ⟨⟨t, later, above⟩, depth, before, true⟩
    ⟨⟨t, later, above⟩, depth, kinds.reverse ++ before, false⟩

/-- A walk that reads off a tree gathers what it reads. -/
theorem ReadsOff.skeleton_eq {t : Tree} {kinds : List String} (h : ReadsOff t kinds) :
    t.skeleton = kinds := by
  rw [Tree.skeleton, (h [] [] 0 []).gathered_eq, gathered_of_over rfl]
  simp

/-- A walk reads off siblings one by one and then goes up. -/
theorem comes_along {t : Tree} {ts : List Tree}
    (hread : ∀ child ∈ t :: ts, ReadsOff child child.skeleton) (level : Tree.Cursor.Level)
    (above : List Tree.Cursor.Level) (depth : Nat) (before : List String) :
    Comes ⟨⟨t, ts, level :: above⟩, depth + 1, before, true⟩
      ⟨⟨level.node, level.later, above⟩, depth,
        ((t :: ts).flatMap Tree.skeleton).reverse ++ before, false⟩ := by
  induction ts generalizing t before with
  | nil =>
    have hown := hread t List.mem_cons_self [] (level :: above) (depth + 1) before
    refine hown.trans ?_
    rw [List.flatMap_singleton]
    exact comes_of_done rfl rfl
  | cons next ts ih =>
    have hown := hread t List.mem_cons_self (next :: ts) (level :: above) (depth + 1) before
    have hrest := ih (fun child hchild => hread child (List.mem_cons_of_mem _ hchild))
      (t.skeleton.reverse ++ before)
    rw [List.flatMap_cons, List.reverse_append, List.append_assoc]
    exact hown.trans (.trans (comes_of_done rfl rfl) hrest)

/-- What a walk reads off a tree, if it reads the skeletons off its children. -/
theorem readsOff_of_children {t : Tree} (hread : ∀ child ∈ t.children, ReadsOff child child.skeleton) :
    ReadsOff t (if isPrunedKind t.kind then []
      else (if t.label.named then [t.kind] else []) ++ t.children.flatMap Tree.skeleton) := by
  intro later above depth before
  obtain ⟨label, children⟩ := t
  refine .trans (comes_of_entering rfl) ?_
  cases hpruned : isPrunedKind (Tree.node label children).kind with
  | true =>
    rw [enter_of_pruned hpruned]
    exact .refl
  | false =>
    have hkinds : (if label.named then label.kind :: before else before) =
        (if label.named then [label.kind] else []).reverse ++ before := by
      split <;> rfl
    rw [if_neg Bool.false_ne_true, List.reverse_append, List.append_assoc]
    cases children with
    | nil =>
      rw [enter_of_leaf hpruned rfl]
      change Comes ⟨_, depth, if label.named then label.kind :: before else before, false⟩ _
      rw [hkinds]
      exact .refl
    | cons child rest =>
      rw [enter_of_child hpruned rfl]
      change Comes ⟨_, depth + 1, if label.named then label.kind :: before else before, true⟩ _
      rw [hkinds]
      exact comes_along hread ⟨.node label (child :: rest), later⟩ above depth _

/-- A walk reads the skeleton off every tree. -/
theorem readsOff (t : Tree) : ReadsOff t t.skeleton := by
  induction t using Tree.induction_on_children with
  | hstep t ih =>
    have hread := readsOff_of_children ih
    rwa [hread.skeleton_eq]

end SkeletonWalk

/-- The skeleton of a tree: nothing if it is pruned, and else its own kind, if it is named, in front
of the skeletons of its children. -/
theorem Tree.skeleton_eq (t : Tree) :
    t.skeleton = if isPrunedKind t.kind then []
      else (if t.label.named then [t.kind] else []) ++ t.children.flatMap skeleton :=
  (SkeletonWalk.readsOff_of_children fun child _ => SkeletonWalk.readsOff child).skeleton_eq

/-- Nothing is read off a node of a kind that is left out. -/
theorem Tree.skeleton_of_pruned {t : Tree} (h : isPrunedKind t.kind = true) : t.skeleton = [] := by
  rw [skeleton_eq, if_pos h]

namespace Tree

/-! ### Staying below the start -/

/-- One cursor stands a number of levels below another. -/
inductive Cursor.Below (start : Cursor) : (depth : Nat) → Cursor → Prop
  | here : Below start 0 start
  | down {depth : Nat} {c : Cursor} {child : Tree} {earlier later : List Tree}
      (h : Below start depth c) (hchildren : c.focus.children = earlier ++ child :: later) :
      Below start (depth + 1) ⟨child, later, ⟨c.focus, c.later⟩ :: c.above⟩

variable {start c child : Cursor} {depth : Nat}

/-- A first child is one level further down. -/
theorem Cursor.Below.firstChild (h : start.Below depth c) (hchild : c.firstChild? = some child) :
    start.Below (depth + 1) child := by
  unfold firstChild? at hchild
  split at hchild
  · cases hchild
  · rename_i first later hchildren
    cases hchild
    have hfirst : c.focus.children = [] ++ first :: later := hchildren
    exact .down h hfirst

end Tree

namespace SkeletonWalk

variable {start : Tree.Cursor} {w next : SkeletonWalk}

/-- Reading a node stays below the start and counts the levels. -/
theorem below_enter (h : start.Below w.depth w.cursor) :
    start.Below w.enter.depth w.enter.cursor := by
  cases hpruned : isPrunedKind w.cursor.focus.kind with
  | true => rwa [enter_of_pruned hpruned]
  | false =>
    cases hchild : w.cursor.firstChild? with
    | none => rwa [enter_of_leaf hpruned hchild]
    | some child =>
      rw [enter_of_child hpruned hchild]
      exact h.firstChild hchild

/-- So does leaving one, since the walk has gone down before it goes to the right or up. -/
theorem below_leave {depth : Nat} (h : start.Below (depth + 1) w.cursor)
    (hdepth : w.depth = depth + 1) : start.Below (w.leave depth).depth (w.leave depth).cursor := by
  obtain ⟨cursor, _, kinds, entering⟩ := w
  obtain rfl := hdepth
  cases h with
  | @down _ c child earlier later habove hchildren =>
    cases later with
    | nil => exact habove
    | cons next later =>
      have hnext : c.focus.children = (earlier ++ [child]) ++ next :: later := by
        rw [hchildren, List.append_assoc, List.singleton_append]
      exact .down habove hnext

/-- Every step stays below the start. -/
theorem below_step (h : start.Below w.depth w.cursor) (hstep : w.step? = some next) :
    start.Below next.depth next.cursor := by
  unfold step? at hstep
  split at hstep
  · exact Option.some.inj hstep ▸ below_enter h
  · split at hstep
    · cases hstep
    · rename_i depth hdepth
      rw [hdepth] at h
      exact Option.some.inj hstep ▸ below_leave h hdepth

/-- A walk that starts at a place comes to an end there, and reads the skeleton of the node at the
place without seeing anything around it. -/
structure StaysBelow (start : Tree.Cursor) : Prop where
  ends : ∃ last : SkeletonWalk, Comes { cursor := start } last ∧ last.step? = none ∧
    last.cursor = start ∧ last.kinds.reverse = start.focus.skeleton
  inside : ∀ w, Comes { cursor := start } w → start.Below w.depth w.cursor

/-- Every walk stays below its start and ends there. -/
theorem staysBelow (start : Tree.Cursor) : StaysBelow start where
  ends :=
    ⟨_, readsOff start.focus start.later start.above 0 [], rfl, rfl, by simp⟩
  inside := by
    intro w h
    induction h with
    | refl => exact .here
    | tail _ hstep ih => exact below_step ih hstep

end SkeletonWalk

/-! ### The order of the nodes -/

namespace Tree

/-- An address leads to a node that is kept: neither it nor a node on the way to it is pruned. -/
inductive Keeps : Tree → List Nat → Tree → Prop
  | here {t : Tree} (hkept : isPrunedKind t.kind = false) : Keeps t [] t
  | child {t c n : Tree} {i : Nat} {p : List Nat} (hkept : isPrunedKind t.kind = false)
      (hchild : t.children[i]? = some c) (hrest : Keeps c p n) : Keeps t (i :: p) n

/-- An address leads to a node that is kept in one of several trees, counted from a number on. -/
def KeepsAmong (first : Nat) (ts : List Tree) (p : List Nat) (n : Tree) : Prop :=
  ∃ i q c, p = (first + i) :: q ∧ ts[i]? = some c ∧ c.Keeps q n

/-- The kinds are those of the named nodes that some addresses lead to, in pre-order: a node comes
before what is below it, and what is below one child before what is below a later one. -/
structure InPreorder (leads : List Nat → Tree → Prop) (kinds : List String)
    (addresses : List (List Nat)) : Prop where
  sorted : addresses.Pairwise (· < ·)
  mem_iff : ∀ p, p ∈ addresses ↔ ∃ n, leads p n ∧ n.label.named = true
  kinds : List.Forall₂ (fun kind p => ∃ n, leads p n ∧ n.kind = kind) kinds addresses

/-- The kept nodes of several trees are those of the first and those of the others. -/
theorem keepsAmong_cons_iff {first : Nat} {t n : Tree} {ts : List Tree} {p : List Nat} :
    KeepsAmong first (t :: ts) p n ↔
      (∃ q, first :: q = p ∧ t.Keeps q n) ∨ KeepsAmong (first + 1) ts p n := by
  constructor
  · rintro ⟨i, q, c, rfl, hc, hkept⟩
    cases i with
    | zero =>
      obtain rfl : t = c := Option.some.inj hc
      exact .inl ⟨q, rfl, hkept⟩
    | succ i => exact .inr ⟨i, q, c, congrArg (· :: q) (by omega), hc, hkept⟩
  · rintro (⟨q, rfl, hkept⟩ | ⟨i, q, c, rfl, hc, hkept⟩)
    · exact ⟨0, q, t, rfl, rfl, hkept⟩
    · exact ⟨i + 1, q, c, congrArg (· :: q) (by omega), hc, hkept⟩

/-- The skeletons of several trees in a row. -/
theorem exists_inPreorder_among {ts : List Tree}
    (h : ∀ t ∈ ts, ∃ addresses, InPreorder t.Keeps t.skeleton addresses) (first : Nat) :
    ∃ addresses, InPreorder (KeepsAmong first ts) (ts.flatMap skeleton) addresses := by
  induction ts generalizing first with
  | nil => exact ⟨[], .nil, by simp [KeepsAmong], .nil⟩
  | cons t ts ih =>
    obtain ⟨own, hown⟩ := h t List.mem_cons_self
    obtain ⟨rest, hrest⟩ := ih (fun t ht => h t (List.mem_cons_of_mem _ ht)) (first + 1)
    refine ⟨own.map (first :: ·) ++ rest, ?_, ?_, ?_⟩
    · refine List.pairwise_append.mpr ⟨?_, hrest.sorted, ?_⟩
      · exact List.pairwise_map.mpr (hown.sorted.imp fun hless => List.cons_lt_cons_self.mpr hless)
      · intro p hp q hq
        obtain ⟨below, _, rfl⟩ := List.mem_map.mp hp
        obtain ⟨n, ⟨i, q, c, rfl, _⟩, _⟩ := (hrest.mem_iff q).mp hq
        exact List.Lex.rel (by omega)
    · intro p
      simp only [List.mem_append, List.mem_map, hown.mem_iff, hrest.mem_iff, keepsAmong_cons_iff,
        or_and_right, exists_or]
      refine or_congr_left ⟨?_, ?_⟩
      · rintro ⟨q, ⟨n, hkept, hnamed⟩, rfl⟩
        exact ⟨n, ⟨q, rfl, hkept⟩, hnamed⟩
      · rintro ⟨n, ⟨q, rfl, hkept⟩, hnamed⟩
        exact ⟨q, ⟨n, hkept, hnamed⟩, rfl⟩
    · rw [List.flatMap_cons]
      refine List.rel_append ?_ ?_
      · refine List.forall₂_map_right_iff.mpr (hown.kinds.imp ?_)
        rintro kind q ⟨n, hkept, hkind⟩
        exact ⟨n, keepsAmong_cons_iff.mpr (.inl ⟨q, rfl, hkept⟩), hkind⟩
      · refine hrest.kinds.imp ?_
        rintro kind q ⟨n, hkept, hkind⟩
        exact ⟨n, keepsAmong_cons_iff.mpr (.inr hkept), hkind⟩

/-- Below a kept node an address leads on through a child. -/
theorem keeps_iff {t n : Tree} {p : List Nat} :
    t.Keeps p n ↔ isPrunedKind t.kind = false ∧ (p = [] ∧ n = t ∨ KeepsAmong 0 t.children p n) := by
  constructor
  · intro h
    cases h with
    | here hkept => exact ⟨hkept, .inl ⟨rfl, rfl⟩⟩
    | @child _ c _ i q hkept hchild hrest =>
      exact ⟨hkept, .inr ⟨i, q, c, congrArg (· :: q) (Nat.zero_add i).symm, hchild, hrest⟩⟩
  · rintro ⟨hkept, ⟨rfl, rfl⟩ | ⟨i, q, c, rfl, hchild, hrest⟩⟩
    · exact .here hkept
    · exact .child hkept (by rwa [Nat.zero_add]) hrest

/-- The skeleton of a tree holds the kinds of its kept named nodes in pre-order. -/
theorem exists_inPreorder (t : Tree) :
    ∃ addresses, InPreorder t.Keeps t.skeleton addresses := by
  induction t using induction_on_children with
  | hstep t ih =>
    obtain ⟨below, hbelow⟩ := exists_inPreorder_among ih 0
    rw [skeleton_eq]
    cases hpruned : isPrunedKind t.kind with
    | true => exact ⟨[], .nil, by simp [keeps_iff, hpruned], .nil⟩
    | false =>
      have hmem : ∀ p, (∃ n, t.Keeps p n ∧ n.label.named = true) ↔
          p = [] ∧ t.label.named = true ∨ p ∈ below := by
        intro p
        rw [hbelow.mem_iff]
        simp [keeps_iff, hpruned, or_and_right, exists_or, and_assoc]
      have hkinds : List.Forall₂ (fun kind p => ∃ n, t.Keeps p n ∧ n.kind = kind)
          (t.children.flatMap skeleton) below := by
        refine hbelow.kinds.imp ?_
        rintro kind p ⟨n, hkept, hkind⟩
        exact ⟨n, keeps_iff.mpr ⟨hpruned, .inr hkept⟩, hkind⟩
      rw [if_neg Bool.false_ne_true]
      cases hnamed : t.label.named with
      | false =>
        refine ⟨below, hbelow.sorted, fun p => ?_, hkinds⟩
        rw [hmem, hnamed]
        simp
      | true =>
        refine ⟨[] :: below, List.pairwise_cons.mpr ⟨?_, hbelow.sorted⟩, fun p => ?_, ?_⟩
        · intro p hp
          obtain ⟨n, ⟨i, q, c, rfl, _⟩, _⟩ := (hbelow.mem_iff p).mp hp
          exact List.nil_lt_cons _ _
        · rw [hmem, hnamed, List.mem_cons, eq_self, and_true]
        · exact .cons ⟨t, .here hpruned, rfl⟩ hkinds

end Tree

end CodeAtlas
