import CodeAtlas.Proofs.ImportCycles
import CodeAtlas.Proofs.Instantiation
import CodeAtlas.Proofs.ScopeSearch
import Mathlib.Data.Set.Insert
import Mathlib.Order.Bounds.Basic

/-!
# The order in which base classes are searched

Inherited members are searched with a stack: the class on top is taken off, passed over if it was
met before, and otherwise replaced by its base classes. `DepthFirst` describes the search that calls
itself for the base classes of each class and marks classes as it meets them. Both meet the same
classes in the same order: the base classes that stand above the rest of the stack are searched to
the end before the rest, with everything marked that they have met.

The search ends whatever the classes inherit from, and meets exactly the classes that can be reached
from the start, the start itself apart. So a class that inherits from itself in a circle never finds
its own members as inherited ones.
-/

namespace CodeAtlas

/-! ### Depth-first search -/

/-- A depth-first search that calls itself, from pending nodes and with some nodes marked, meets
exactly these nodes in this order and ends. -/
inductive DepthFirst (next : Nat → List Nat) : (marked : Set Nat) → (pending met : List Nat) → Prop
  | done {marked : Set Nat} : DepthFirst next marked [] []
  | skip {marked : Set Nat} {x : Nat} {rest met : List Nat} (hmarked : x ∈ marked)
      (hrest : DepthFirst next marked rest met) : DepthFirst next marked (x :: rest) met
  /-- A new node is marked, its successors are searched, and then what was pending. -/
  | visit {marked : Set Nat} {x : Nat} {rest below after : List Nat} (hnew : x ∉ marked)
      (hbelow : DepthFirst next (insert x marked) (next x) below)
      (hafter : DepthFirst next (insert x marked ∪ {y | y ∈ below}) rest after) :
      DepthFirst next marked (x :: rest) (x :: (below ++ after))

namespace DepthFirst

variable {next : Nat → List Nat} {marked : Set Nat} {pending met : List Nat}

/-- A search meets one list of nodes only. -/
theorem unique {other : List Nat} (h : DepthFirst next marked pending met)
    (hother : DepthFirst next marked pending other) : met = other := by
  induction h generalizing other with
  | done =>
    cases hother
    rfl
  | skip hmarked _ ih =>
    cases hother with
    | skip _ hrest => exact ih hrest
    | visit hnew _ _ => exact absurd hmarked hnew
  | visit hnew _ _ ihbelow ihafter =>
    cases hother with
    | skip hmarked _ => exact absurd hmarked hnew
    | visit _ hbelow hafter =>
      obtain rfl := ihbelow hbelow
      rw [ihafter hafter]

/-- A search meets no node twice, and no node that was marked before. -/
theorem nodup_and_unmarked (h : DepthFirst next marked pending met) :
    met.Nodup ∧ ∀ x ∈ met, x ∉ marked := by
  induction h with
  | done => simp
  | skip _ _ ih => exact ih
  | @visit marked x rest below after hnew _ _ ihbelow ihafter =>
    obtain ⟨hbelow, hbelowNew⟩ := ihbelow
    obtain ⟨hafter, hafterNew⟩ := ihafter
    have hbelowNe : ∀ y ∈ below, y ≠ x ∧ y ∉ marked := by
      intro y hy
      simpa only [Set.mem_insert_iff, not_or] using hbelowNew y hy
    have hafterNe : ∀ y ∈ after, (y ≠ x ∧ y ∉ marked) ∧ y ∉ below := by
      intro y hy
      simpa only [Set.mem_union, Set.mem_insert_iff, Set.mem_ofPred_eq, not_or] using hafterNew y hy
    constructor
    · refine List.nodup_cons.mpr ⟨?_, List.nodup_append'.mpr ⟨hbelow, hafter, ?_⟩⟩
      · intro hx
        rcases List.mem_append.mp hx with hx | hx
        · exact (hbelowNe x hx).1 rfl
        · exact (hafterNe x hx).1.1 rfl
      · intro y hy hagain
        exact (hafterNe y hagain).2 hy
    · intro y hy
      rcases List.mem_cons.mp hy with rfl | hy
      · exact hnew
      · rcases List.mem_append.mp hy with hy | hy
        · exact (hbelowNe y hy).2
        · exact (hafterNe y hy).1.2

/-- A search from a list finishes the first part of the list before the second one. -/
theorem append {first second : List Nat} (h : DepthFirst next marked (first ++ second) met) :
    ∃ below after, met = below ++ after ∧ DepthFirst next marked first below ∧
      DepthFirst next (marked ∪ {y | y ∈ below}) second after := by
  generalize hpending : first ++ second = pending at h
  induction h generalizing first with
  | done =>
    obtain ⟨rfl, rfl⟩ := List.append_eq_nil_iff.mp hpending
    exact ⟨[], [], rfl, .done, .done⟩
  | @skip marked x rest met hmarked hrest ih =>
    cases first with
    | nil =>
      subst hpending
      exact ⟨[], met, rfl, .done, by simpa using DepthFirst.skip hmarked hrest⟩
    | cons y first =>
      obtain ⟨rfl, rfl⟩ := List.cons.inj hpending
      obtain ⟨below, after, rfl, hfirst, hsecond⟩ := ih rfl
      exact ⟨below, after, rfl, .skip hmarked hfirst, hsecond⟩
  | @visit marked x rest inside after hnew hinside hafter _ ih =>
    cases first with
    | nil =>
      subst hpending
      exact ⟨[], _, rfl, .done, by simpa using DepthFirst.visit hnew hinside hafter⟩
    | cons y first =>
      obtain ⟨rfl, rfl⟩ := List.cons.inj hpending
      obtain ⟨below, after, rfl, hfirst, hsecond⟩ := ih rfl
      refine ⟨y :: (inside ++ below), after, by simp, .visit hnew hinside hfirst, ?_⟩
      -- What is marked now was marked before, or met in the first part.
      have hmarks : insert y marked ∪ {z | z ∈ inside} ∪ {z | z ∈ below} =
          marked ∪ {z | z ∈ y :: (inside ++ below)} := by
        ext z
        simp only [Set.mem_union, Set.mem_insert_iff, Set.mem_ofPred_eq, List.mem_cons,
          List.mem_append]
        tauto
      rwa [hmarks] at hsecond

end DepthFirst

/-- The search with a stack is the search that calls itself, when the fresh nodes are those that are
not marked. -/
theorem preorder_depthFirst {next : Nat → List Nat} {fresh stack : List Nat} {marked : Set Nat}
    (hnodup : fresh.Nodup)
    (hfresh : ∀ x, (x ∈ stack ∨ ∃ y, x ∈ next y) → (x ∈ fresh ↔ x ∉ marked)) :
    DepthFirst next marked stack (preorder next fresh stack) := by
  induction fresh, stack using preorder.induct next generalizing marked with
  | case1 fresh =>
    rw [preorder]
    exact .done
  | case2 fresh x rest hx ih =>
    have hnew : x ∉ marked := (hfresh x (.inl List.mem_cons_self)).mp hx
    have hbelowFresh : ∀ z, (z ∈ next x ++ rest ∨ ∃ y, z ∈ next y) →
        (z ∈ fresh.erase x ↔ z ∉ insert x marked) := by
      intro z hz
      have hbefore : z ∈ x :: rest ∨ ∃ y, z ∈ next y := by
        rcases hz with hz | hz
        · rcases List.mem_append.mp hz with hz | hz
          · exact .inr ⟨x, hz⟩
          · exact .inl (List.mem_cons_of_mem _ hz)
        · exact .inr hz
      rw [hnodup.mem_erase_iff, hfresh z hbefore, Set.mem_insert_iff, not_or]
    obtain ⟨below, after, hmet, hbelow, hafter⟩ := (ih (hnodup.erase x) hbelowFresh).append
    rw [preorder, if_pos hx, hmet]
    exact .visit hnew hbelow hafter
  | case3 fresh x rest hx ih =>
    have hmarked : x ∈ marked := by
      by_contra hnew
      exact hx ((hfresh x (.inl List.mem_cons_self)).mpr hnew)
    rw [preorder, if_neg hx]
    exact .skip hmarked (ih hnodup fun z hz => hfresh z (hz.imp_left (List.mem_cons_of_mem _)))

/-- A search meets fresh nodes only. -/
theorem mem_fresh_of_mem_preorder {next : Nat → List Nat} {fresh stack : List Nat} {x : Nat}
    (hx : x ∈ preorder next fresh stack) : x ∈ fresh := by
  induction fresh, stack using preorder.induct next with
  | case1 fresh => simp [preorder] at hx
  | case2 fresh y rest hy ih =>
    rw [preorder, if_pos hy] at hx
    rcases List.mem_cons.mp hx with rfl | hx
    · exact hy
    · exact List.mem_of_mem_erase (ih hx)
  | case3 fresh y rest hy ih =>
    rw [preorder, if_neg hy] at hx
    exact ih hx

namespace Tables

/-! ### Declared members -/

/-- A symbol with the name is declared directly in a scope. -/
def Declares (tables : Tables) (scope : Nat) (name : String) (id : Nat) : Prop :=
  ∃ s, tables.symbols.toList[id]? = some s ∧ s.name = name ∧ s.parent = some scope

section Declared

variable {tables : Tables} (h : SymbolRecords tables.modules tables.symbols.toList)
include h

/-- The symbols of a name directly in a scope are those that it declares. -/
theorem enumerates_childrenNamed (scope : Nat) (name : String) :
    Enumerates (tables.childrenNamed scope name) (tables.Declares scope name) :=
  ⟨childrenNamed_increasing h, fun _ => mem_childrenNamed_iff h⟩

/-- The member that a scope gives for a name is the first one that it declares. -/
theorem childNamed?_eq_some_iff {scope id : Nat} {name : String} :
    tables.childNamed? scope name = some id ↔ IsLeast {t | tables.Declares scope name t} id := by
  rw [childNamed?, ← List.head?_filter]
  exact (enumerates_childrenNamed h scope name).head?_eq_some_iff

/-- A scope gives no member for a name exactly when it declares none. -/
theorem childNamed?_eq_none_iff {scope : Nat} {name : String} :
    tables.childNamed? scope name = none ↔ ∀ t, ¬ tables.Declares scope name t := by
  rw [childNamed?, ← List.head?_filter, List.head?_eq_none_iff]
  exact (enumerates_childrenNamed h scope name).eq_nil_iff

end Declared

/-! ### Base classes -/

/-- A class names another one among its base classes. -/
def Extends (tables : Tables) (c base : Nat) : Prop := base ∈ tables.baseClasses c

/-- A class inherits from another one, in any number of steps. -/
def InheritsFrom (tables : Tables) : Nat → Nat → Prop := Relation.ReflTransGen tables.Extends

section Ancestors

variable {tables : Tables} {c : Nat}

/-- A base class is a class of the unit, and another one. -/
theorem Extends.spec {base : Nat} (h : tables.Extends c base) :
    base ≠ c ∧ base < tables.symbols.size := by
  rw [Extends, baseClasses] at h
  split at h
  · simp at h
  · obtain ⟨_, hbase⟩ := List.mem_filter.mp h
    obtain ⟨hne, hclass⟩ := Bool.and_eq_true_iff.mp hbase
    obtain ⟨s, hs, _⟩ := (Option.any_eq_true _ _).mp hclass
    exact ⟨bne_iff_ne.mp hne, (Array.getElem?_eq_some_iff.mp hs).1⟩

/-- The classes that are still to be met at the start are all but the class itself. -/
theorem mem_fresh_iff {a : Nat} (ha : a < tables.symbols.size) :
    a ∈ (List.range tables.symbols.size).erase c ↔ a ≠ c := by
  rw [List.nodup_range.mem_erase_iff, List.mem_range]
  exact and_iff_left ha

/-- The classes in which inherited members are searched are met by a depth-first search that calls
itself, with the class itself marked. -/
theorem ancestors_depthFirst (tables : Tables) (c : Nat) :
    DepthFirst tables.baseClasses {c} (tables.baseClasses c) (tables.ancestors c) := by
  refine preorder_depthFirst (List.nodup_range.erase c) fun a ha => ?_
  have hsize : a < tables.symbols.size := by
    rcases ha with ha | ⟨b, ha⟩
    · exact (Extends.spec ha).2
    · exact (Extends.spec ha).2
  rw [mem_fresh_iff hsize, Set.mem_singleton_iff]

/-- Inherited members are searched in the classes from which a class inherits, itself apart. -/
theorem mem_ancestors_iff {a : Nat} :
    a ∈ tables.ancestors c ↔ a ≠ c ∧ tables.InheritsFrom c a := by
  constructor
  · intro ha
    refine ⟨(List.nodup_range.mem_erase_iff.mp (mem_fresh_of_mem_preorder ha)).1, ?_⟩
    refine preorder_forall tables.baseClasses (P := tables.InheritsFrom c) ?_ _ _ ?_ a ha
    · exact fun _ hreach _ hbase => hreach.tail hbase
    · exact fun _ hbase => .single hbase
  · rintro ⟨hne, hreach⟩
    -- A path may pass through the class itself, but then it starts anew there.
    have hmet : a = c ∨ a ∈ tables.ancestors c := by
      clear hne
      induction hreach with
      | refl => exact .inl rfl
      | @tail b a _ hbase ih =>
        by_cases hac : a = c
        · exact .inl hac
        · have hfresh := (mem_fresh_iff (Extends.spec hbase).2).mpr hac
          rcases ih with rfl | hb
          · exact .inr (mem_preorder_of_mem_stack hbase hfresh)
          · exact .inr (mem_preorder_of_mem_next hb hbase hfresh)
    exact hmet.resolve_left hne

end Ancestors

/-! ### Inherited members -/

/-- How inherited members are found: by a depth-first search of the base classes, from left to right
and with every class met once, which ends also when classes inherit from each other in a circle. -/
structure InheritsDepthFirst (tables : Tables) (config : ResolutionConfig) : Prop where
  /-- The search ends, and there is one order in which it meets classes. -/
  searches : ∀ c, ∃! met, DepthFirst tables.baseClasses {c} (tables.baseClasses c) met
  /-- No class is met twice, and the class itself is not met. -/
  once : ∀ c met, DepthFirst tables.baseClasses {c} (tables.baseClasses c) met →
    met.Nodup ∧ c ∉ met
  /-- The inherited member is the first one of the name in the first class that declares one. -/
  found : config.walkBases = true → ∀ c name met,
    DepthFirst tables.baseClasses {c} (tables.baseClasses c) met → ∀ t,
      tables.inherited? config c name = some t ↔
        ∃ before a after, met = before ++ a :: after ∧
          (∀ b ∈ before, ∀ u, ¬ tables.Declares b name u) ∧
          IsLeast {u | tables.Declares a name u} t
  /-- Nothing is inherited exactly when no other class that is inherited from declares the name. -/
  missing : config.walkBases = true → ∀ c name,
    tables.inherited? config c name = none ↔
      ∀ a, a ≠ c → tables.InheritsFrom c a → ∀ u, ¬ tables.Declares a name u
  /-- A class does not inherit its own members. -/
  proper : ∀ c name t s, tables.inherited? config c name = some t →
    tables.symbols.toList[t]? = some s → s.parent ≠ some c
  /-- A call through the base classes does not lead to a member of the class around it. -/
  throughBases : ∀ (call : CallEdge) receiver t s, call.GoesThrough receiver →
    (tables.grammar call.module).isSuper receiver = true →
    (tables.judgeCall config call).1.2 = .symbol t → tables.symbols.toList[t]? = some s →
      ∃ c, tables.enclosingClass? call.caller = some c ∧ s.parent ≠ some c
  /-- Without the search nothing is inherited. -/
  switchedOff : config.walkBases = false → ∀ c name, tables.inherited? config c name = none

section Inherited

variable {tables : Tables} {config : ResolutionConfig}

/-- A call through the base classes leads to what the class around it inherits. -/
theorem inherited_of_goesThrough {call : CallEdge} {receiver : String} {t : Nat}
    (hthrough : call.GoesThrough receiver)
    (hsuper : (tables.grammar call.module).isSuper receiver = true)
    (htarget : (tables.judgeCall config call).1.2 = .symbol t) :
    ∃ c, tables.enclosingClass? call.caller = some c ∧
      tables.inherited? config c call.name = some t := by
  rw [judgeCall_of_goesThrough hthrough, linkMember] at htarget
  simp only [hsuper, if_true] at htarget
  cases hfound : (tables.enclosingClass? call.caller).bind fun c =>
      tables.inherited? config c call.name with
  | none =>
    rw [hfound] at htarget
    cases htarget
  | some u =>
    rw [hfound] at htarget
    cases htarget
    exact Option.bind_eq_some_iff.mp hfound

variable (h : SymbolRecords tables.modules tables.symbols.toList)
include h

/-- The inherited member is the first one in the first ancestor that declares the name. -/
theorem inherited?_eq_some_iff (hwalk : config.walkBases = true) {c t : Nat} {name : String} :
    tables.inherited? config c name = some t ↔
      ∃ before a after, tables.ancestors c = before ++ a :: after ∧
        (∀ b ∈ before, ∀ u, ¬ tables.Declares b name u) ∧
        IsLeast {u | tables.Declares a name u} t := by
  rw [inherited?, if_pos hwalk, List.findSome?_eq_some_iff]
  refine exists_congr fun before => exists_congr fun a => exists_congr fun after =>
    and_congr_right fun _ => ?_
  rw [childNamed?_eq_some_iff h, and_comm]
  exact and_congr_left fun _ => forall₂_congr fun b _ => childNamed?_eq_none_iff h

/-- Nothing is inherited exactly when no ancestor declares the name. -/
theorem inherited?_eq_none_iff (hwalk : config.walkBases = true) {c : Nat} {name : String} :
    tables.inherited? config c name = none ↔
      ∀ a, a ≠ c → tables.InheritsFrom c a → ∀ u, ¬ tables.Declares a name u := by
  rw [inherited?, if_pos hwalk, List.findSome?_eq_none_iff]
  simp only [mem_ancestors_iff, childNamed?_eq_none_iff h, and_imp]

/-- A class does not inherit its own members, also when it inherits from itself in a circle. -/
theorem parent_ne_of_inherited? {c t : Nat} {name : String} {s : Symbol}
    (ht : tables.inherited? config c name = some t) (hs : tables.symbols.toList[t]? = some s) :
    s.parent ≠ some c := by
  rw [inherited?] at ht
  split at ht
  · obtain ⟨a, ha, hchild⟩ := List.exists_of_findSome?_eq_some ht
    obtain ⟨s', hs', _, hparent⟩ := ((childNamed?_eq_some_iff h).mp hchild).1
    obtain rfl := Option.some.inj (hs.symm.trans hs')
    rw [hparent]
    exact fun hsame => (mem_ancestors_iff.mp ha).1 (Option.some.inj hsame)
  · cases ht

end Inherited

end Tables

/-- In consistent tables inherited members are found by a depth-first search of the base classes,
which ends, is complete, and never comes back to the class itself. -/
theorem inherited_members_are_found_depth_first {tables : Tables}
    (h : tables.records.Consistent) (config : ResolutionConfig) :
    tables.InheritsDepthFirst config where
  searches := fun c =>
    ⟨tables.ancestors c, tables.ancestors_depthFirst c, fun _ hother =>
      hother.unique (tables.ancestors_depthFirst c)⟩
  once := by
    intro c met hmet
    obtain ⟨hnodup, hunmarked⟩ := hmet.nodup_and_unmarked
    exact ⟨hnodup, fun hc => hunmarked c hc rfl⟩
  found := by
    intro hwalk c name met hmet t
    obtain rfl := hmet.unique (tables.ancestors_depthFirst c)
    exact Tables.inherited?_eq_some_iff h.symbols hwalk
  missing := fun hwalk _ _ => Tables.inherited?_eq_none_iff h.symbols hwalk
  proper := fun _ _ _ _ => Tables.parent_ne_of_inherited? h.symbols
  throughBases := by
    intro call receiver t s hthrough hsuper htarget hs
    obtain ⟨c, hclass, hfound⟩ := Tables.inherited_of_goesThrough hthrough hsuper htarget
    exact ⟨c, hclass, Tables.parent_ne_of_inherited? h.symbols hfound hs⟩
  switchedOff := by
    intro hoff c name
    simp [Tables.inherited?, hoff]

/-- Four classes with a circle: `A` extends `B` and `C`, both of these extend `D`, and `D` extends
`A`. All but `B` declare `m`. -/
def circularClasses : FileFacts where
  path := ⟨"shapes.py"⟩
  language := .python
  declarations :=
    [{ name := "A", kind := .classLike, parent := none, visibility := .exposed
       bases := ["B", "C"] },
      { name := "m", kind := .method, parent := some 0, visibility := .exposed },
      { name := "B", kind := .classLike, parent := none, visibility := .exposed, bases := ["D"] },
      { name := "C", kind := .classLike, parent := none, visibility := .exposed, bases := ["D"] },
      { name := "m", kind := .method, parent := some 3, visibility := .exposed },
      { name := "D", kind := .classLike, parent := none, visibility := .exposed, bases := ["A"] },
      { name := "m", kind := .method, parent := some 5, visibility := .exposed }]

/-- Through `B` the search comes to `D` before it comes to `C`, so `A` inherits the member of
`D`. -/
theorem inherited_members_are_found_depth_first_circular :
    (Tables.ofFiles [circularClasses]).records.Consistent ∧
      (Tables.ofFiles [circularClasses]).InheritsDepthFirst {} ∧
      (Tables.ofFiles [circularClasses]).inherited? {} 0 "m" = some 6 := by
  have hfile : circularClasses.WellFormed :=
    FileFacts.wellFormed_of_shallow (by simp [circularClasses, parentAt]) rfl
  have hconsistent : (Tables.ofFiles [circularClasses]).records.Consistent :=
    Tables.ofFiles_consistent _ fun file hmem => List.mem_singleton.mp hmem ▸ hfile
  have hinherits := inherited_members_are_found_depth_first hconsistent {}
  have hbases : [0, 2, 3, 5].map (Tables.ofFiles [circularClasses]).baseClasses =
      [[2, 3], [5], [5], [0]] := by
    rw [Tables.ofFiles_singleton]
    decide +kernel
  have hmembers : [2, 5].map ((Tables.ofFiles [circularClasses]).childNamed? · "m") =
      [none, some 6] := by
    rw [Tables.ofFiles_singleton]
    decide +kernel
  simp only [List.map_cons, List.map_nil, List.cons.injEq, and_true] at hbases hmembers
  obtain ⟨hA, hB, hC, hD⟩ := hbases
  have hsearch : DepthFirst (Tables.ofFiles [circularClasses]).baseClasses {0} [2, 3]
      (2 :: ((5 :: ([] ++ [])) ++ (3 :: ([] ++ [])))) := by
    refine .visit (by simp) ?_ (.visit (by simp) ?_ .done)
    · rw [hB]
      refine .visit (by simp) ?_ .done
      rw [hD]
      exact .skip (by simp) .done
    · rw [hC]
      exact .skip (by simp) .done
  refine ⟨hconsistent, hinherits, ?_⟩
  refine (hinherits.found rfl 0 "m" _ (hA ▸ hsearch) 6).mpr ⟨[2], 5, [3], rfl, ?_, ?_⟩
  · intro b hb
    rw [List.mem_singleton.mp hb]
    exact (Tables.childNamed?_eq_none_iff hconsistent.symbols).mp hmembers.1
  · exact (Tables.childNamed?_eq_some_iff hconsistent.symbols).mp hmembers.2

end CodeAtlas
