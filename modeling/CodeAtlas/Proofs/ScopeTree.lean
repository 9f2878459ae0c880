import CodeAtlas.Proofs.Attribution
import CodeAtlas.Proofs.GrammarTables
import CodeAtlas.Proofs.NewEntries
import Mathlib.Order.Bounds.Basic

/-!
# The scope tree of a source

The outline of a source is its scope tree: the parent of an entry is that of the nearest node above it
that opens a scope, the owner at a node is the type of the nearest block of methods around it that no
scope separates from it, and variables are recorded at the level of the module only, each name once.
The walk with brackets reads it off with balanced brackets. Afterwards methods that were found outside
of their class are put under it.
-/

namespace CodeAtlas

/-- The first child in a field is where the walk to it goes. -/
theorem Tree.fieldIndex?_of_firstLeg? {t : Tree} {name : String} {visit : Visit} {leg : Leg}
    (h : t.firstLeg? (Tree.inField name) visit = some leg) :
    t.fieldIndex? name = some leg.position := by
  obtain ⟨v, hv, rfl⟩ := Option.map_eq_some_iff.mp h
  obtain ⟨hfield, i, hi, hplace, hearlier⟩ := List.find?_eq_some_iff_getElem.mp hv
  rw [List.length_zipIdx] at hi
  rw [List.getElem_zipIdx, Nat.zero_add] at hplace
  subst hplace
  refine List.findIdx?_eq_some_iff_getElem.mpr ⟨hi, hfield, fun j hj => ?_⟩
  simpa using hearlier j hj

namespace Document

variable {doc : Document} {s a : Stop} {p q r : List Nat} {k : Nat} {e : Entry} {n : Tree}

/-- An address below another is walked to in two parts. -/
theorem Comes.split {first last : Stop} (h : doc.Comes first (p ++ q) last) :
    ∃ mid, doc.Comes first p mid ∧ doc.Comes mid q last := by
  induction p generalizing first with
  | nil => exact ⟨first, .here, h⟩
  | cons i p ih =>
    cases h with
    | onward hnext hrest =>
      obtain ⟨mid, hmid, hlast⟩ := ih hrest
      exact ⟨mid, .onward hnext hmid, hlast⟩

/-- A stop opens a scope when it opens one for some node. -/
theorem opens_iff : doc.Opens s ↔ ∃ r n, (doc.eventAt s).opened s.node = some (r, n) := by
  constructor
  · intro h
    rw [Opens] at h
    cases hevent : doc.eventAt s with
    | declared | functionValue => exact ⟨[], s.node, rfl⟩
    | aggregate node name =>
      obtain ⟨i, hopened, _⟩ := opened_aggregate hevent
      exact ⟨[i], node, hevent ▸ hopened⟩
    | _ => rw [hevent] at h; cases h
  · rintro ⟨r, n, h⟩
    obtain ⟨_, _, hevent, _⟩ | ⟨_, _, hevent, _⟩ | ⟨_, _, hevent, _⟩ := opened_cases h <;>
      rw [Opens, hevent] <;> rfl

/-- A node opens a scope around an address below it. -/
structure IsAround (doc : Document) (q : List Nat) (n : Tree) (k : Nat) (p : List Nat) : Prop where
  declares : doc.Declares q n k
  below : q <+: p
  proper : q ≠ p

/-- The entry of the nearest node that opens a scope around an address. -/
def IsNearestScope (doc : Document) (p : List Nat) : Option Nat → Prop
  | none => ∀ q n k, ¬ doc.IsAround q n k p
  | some k => ∃ q n, doc.IsAround q n k p ∧
      ∀ q' n' k', doc.IsAround q' n' k' p → q'.length ≤ q.length

/-- Below an aggregate the walk goes through it, and nothing is recorded at the aggregate itself. -/
theorem IsAbove.opened_below (habove : doc.IsAbove q a p) (h : doc.RecordedAt k e p s)
    (hopened : (doc.eventAt a).opened a.node = some (r, n)) : q ++ r <+: p ∧ q ++ r ≠ p := by
  obtain ⟨_, _, _, rfl, _⟩ | ⟨_, _, _, rfl, _⟩ | ⟨i, name, hevent, rfl, _⟩ := opened_cases hopened
  · rw [List.append_nil]
    exact ⟨habove.below, habove.proper⟩
  · rw [List.append_nil]
    exact ⟨habove.below, habove.proper⟩
  · obtain ⟨way, rfl⟩ := habove.below
    obtain ⟨mid, hmid, hway⟩ := h.comes.split
    obtain rfl := hmid.unique habove.comes
    cases hway with
    | here => exact absurd (List.append_nil q).symm habove.proper
    | @onward _ next _ j way hnext hrest =>
      obtain ⟨leg, hleg, _, rfl, rfl⟩ := mem_stopsAlong hnext
      rw [legsAt, (plan_aggregate hevent).2, Option.mem_toList] at hleg
      have hposition := Tree.fieldIndex?_of_firstLeg? hleg
      rw [hevent, Event.opened, hposition] at hopened
      obtain ⟨hi, _⟩ := Prod.mk.inj (Option.some.inj hopened)
      obtain rfl := List.singleton_inj.mp hi
      refine ⟨⟨way, by simp⟩, fun heq => ?_⟩
      obtain rfl : way = [] := by simpa using heq
      -- The way ends at the aggregate, which is only entered.
      cases hrest
      obtain ⟨v, _, rfl⟩ := Option.map_eq_some_iff.mp hleg
      exact Nat.not_lt.mpr h.after (List.getElem?_eq_some_iff.mp h.entry).1

/-- A scope around an address is opened at a stop above it, or directly below such a stop. -/
theorem IsAround.exists_isAbove (h : doc.IsAround q n k p) :
    ∃ q' a r, doc.IsAbove q' a p ∧ (doc.eventAt a).opened a.node = some (r, n) ∧ q = q' ++ r ∧
      k = a.found.next := by
  obtain ⟨⟨q', a, r, hcomes, hopened, rfl, hk⟩, hbelow, hproper⟩ := h
  refine ⟨q', a, r, ⟨hcomes, (List.prefix_append _ _).trans hbelow, ?_⟩, hopened, rfl, hk⟩
  rintro rfl
  have hlength := hbelow.length_le
  rw [List.length_append] at hlength
  obtain rfl : r = [] := List.eq_nil_of_length_eq_zero (by omega)
  exact hproper (List.append_nil q')

/-- Stops above an address that are equally far up are the same. -/
theorem IsAbove.eq_of_length {q' : List Nat} {a' : Stop} (h : doc.IsAbove q a p)
    (h' : doc.IsAbove q' a' p) (hlength : q.length = q'.length) : q = q' ∧ a = a' := by
  have hq : q = q' :=
    (List.prefix_of_prefix_length_le h.below h'.below (Nat.le_of_eq hlength)).eq_of_length hlength
  subst hq
  exact ⟨rfl, h.comes.unique h'.comes⟩

/-- What is recorded at a stop has the declaration around the stop as its parent. -/
theorem IsNew.parent {env : Surroundings} {earlier : List Entry} (h : doc.IsNew env earlier e) :
    e.declaration.parent = env.enclosing := by
  cases h with
  | declared _ hentry => rw [hentry]; rfl
  | moduleVariable hlevel _ _ hparent =>
    simp only [Surroundings.atModuleLevel, Bool.and_eq_true, Option.isNone_iff_eq_none] at hlevel
    rw [hparent, hlevel.1.1]
  | prototype _ _ _ hparent => exact hparent
  | functionValue _ _ hparent => exact hparent
  | aggregate _ _ hparent => exact hparent

/-- The parent of an entry is that of the nearest node that opens a scope around it. -/
theorem RecordedAt.parent (h : doc.RecordedAt k e p s) :
    doc.IsNearestScope p e.declaration.parent := by
  rw [h.isNew.parent]
  rcases h.comes.enclosing with ⟨q, a, _, hnearest, henclosing, _⟩ | ⟨hnone, henclosing, _⟩
  · obtain ⟨r, n, hopened⟩ := opens_iff.mp hnearest.holds
    obtain ⟨hbelow, hproper⟩ := hnearest.above.opened_below h hopened
    rw [henclosing]
    refine ⟨q ++ r, n, ⟨⟨q, a, r, hnearest.above.comes, hopened, rfl, rfl⟩, hbelow, hproper⟩, ?_⟩
    intro q' n' k' haround
    obtain ⟨q'', a', r', habove, hopened', rfl, _⟩ := haround.exists_isAbove
    have hfar := hnearest.nearest q'' a' habove (opens_iff.mpr ⟨r', n', hopened'⟩)
    rcases Nat.lt_or_eq_of_le hfar with hless | hequal
    · -- Further up, the node can be one below its stop, but not two.
      have hshort : r'.length ≤ 1 := by
        rcases opened_address hopened' with rfl | ⟨_, rfl⟩ <;> simp
      simp only [List.length_append]
      omega
    · obtain ⟨rfl, rfl⟩ := habove.eq_of_length hnearest.above hequal
      obtain ⟨rfl, _⟩ := Prod.mk.inj (Option.some.inj (hopened'.symm.trans hopened))
      exact Nat.le_refl _
  · rw [henclosing]
    intro q n k haround
    obtain ⟨q', a, r, habove, hopened, _, _⟩ := haround.exists_isAbove
    exact hnone q' a habove (opens_iff.mpr ⟨r, n, hopened⟩)

/-- A stop is a block of methods. -/
def IsBlock (doc : Document) (a : Stop) : Prop := doc.eventAt a = .methods

/-- A block of methods is so by its role. -/
theorem plan_methods {t : Tree} {env : Surroundings} {visit : Visit}
    (h : (doc.plan env visit t).1 = .methods) : doc.role t = .implBlock := by
  rw [plan] at h
  repeat' split at h
  all_goals simp_all

/-- Type definitions occur in C and C++ only. -/
def DefinesTypesInC (doc : Document) : Prop :=
  ∀ p n, doc.tree.subtree? p = some n → n.kind = "type_definition" → doc.language.isCFamily = true

/-- A language with blocks of methods has no other nodes that open scopes than functions and
classes. -/
theorem IsBlock.declared_of_opens {b : Stop} (hblock : doc.IsBlock a) (htypes : doc.DefinesTypesInC)
    (hcomes : doc.Comes doc.start q b) (hopens : doc.Opens b) :
    ∃ decorators header, doc.eventAt b = .declared decorators header := by
  obtain ⟨hscript, hfamily⟩ := doc.language.of_implBlock (plan_methods hblock)
  rw [Opens] at hopens
  cases hevent : doc.eventAt b with
  | declared decorators header => exact ⟨decorators, header, rfl⟩
  | functionValue value name =>
    obtain ⟨hrole, hvalue⟩ := plan_functionValue hevent
    have hkind : b.node.kind = "variable_declarator" := by
      rw [functionValue?] at hvalue
      split at hvalue
      · rename_i hkind
        exact beq_iff_eq.mp hkind
      · cases hvalue
    rw [role, hkind] at hrole
    exact absurd hrole hscript
  | aggregate node name =>
    have hnamed := (plan_aggregate hevent).1
    have hkind : b.node.kind = "type_definition" := by
      rw [namedAggregate?] at hnamed
      split at hnamed
      · cases hnamed
      · rename_i hkind
        exact not_not.mp hkind
    have htype := htypes q b.node hcomes.subtree? hkind
    rw [hfamily] at htype
    cases htype
  | _ => rw [hevent] at hopens; cases hopens

/-- The owner at an address is the type of the nearest block of methods above, if no scope is opened in
between, and there is none otherwise. -/
structure IsOwnerAt (doc : Document) (p : List Nat) (owner : Option String) : Prop where
  ofBlock : ∀ q a, doc.IsNearest doc.IsBlock q a p →
    (∀ q' n k, doc.IsAround q' n k p → q'.length ≤ q.length) →
      owner = doc.simpleName? a.node "type"
  none : (∀ q a, doc.IsNearest doc.IsBlock q a p →
    ∃ q' n k, doc.IsAround q' n k p ∧ q.length < q'.length) → owner = none

/-- What sets the owner is a block of methods, a function or a class. -/
theorem ownerSet?_cases {owner : Option String} (h : doc.ownerSet? a = some owner) :
    doc.IsBlock a ∧ owner = doc.simpleName? a.node "type" ∨
      (∃ decorators header, doc.eventAt a = .declared decorators header) ∧ owner = none := by
  rw [ownerSet?] at h
  split at h
  · rename_i hevent
    exact .inl ⟨hevent, (Option.some.inj h).symm⟩
  · rename_i hevent
    exact .inr ⟨⟨_, _, hevent⟩, (Option.some.inj h).symm⟩
  · cases h

/-- A block of methods sets the owner. -/
theorem IsBlock.ownerSet? (h : doc.IsBlock a) :
    doc.ownerSet? a = some (doc.simpleName? a.node "type") := by
  rw [Document.ownerSet?, h]

/-- A function or class above an address is around it. -/
theorem IsAbove.isAround {decorators : List Tree} {header : Header} (h : doc.IsAbove q a p)
    (hevent : doc.eventAt a = .declared decorators header) :
    doc.IsAround q a.node a.found.next p :=
  ⟨⟨q, a, [], h.comes, by rw [hevent]; rfl, (List.append_nil q).symm, rfl⟩, h.below, h.proper⟩

/-- The owner that the walk has at a stop. -/
theorem Comes.isOwnerAt (h : doc.Comes doc.start p s) (htypes : doc.DefinesTypesInC) :
    doc.IsOwnerAt p s.env.owner := by
  rcases h.owner with ⟨q₀, a₀, hnearest, hvalue⟩ | ⟨hnone, hstart⟩
  · have hcases := ownerSet?_cases hvalue
    constructor
    · intro q a hblock hclear
      have hle := hnearest.nearest q a hblock.above (by rw [hblock.holds.ownerSet?]; rfl)
      have hge : q₀.length ≤ q.length := by
        rcases hcases with ⟨hblock₀, _⟩ | ⟨⟨_, _, hevent⟩, _⟩
        · exact hblock.nearest q₀ a₀ hnearest.above hblock₀
        · exact hclear q₀ a₀.node a₀.found.next (hnearest.above.isAround hevent)
      obtain ⟨rfl, rfl⟩ := hnearest.above.eq_of_length hblock.above (Nat.le_antisymm hge hle)
      exact Option.some.inj (hvalue.symm.trans hblock.holds.ownerSet?)
    · intro hhidden
      rcases hcases with ⟨hblock₀, _⟩ | ⟨_, howner⟩
      · have hself : doc.IsNearest doc.IsBlock q₀ a₀ p :=
          ⟨hnearest.above, hblock₀, fun q a habove hblock =>
            hnearest.nearest q a habove (by rw [hblock.ownerSet?]; rfl)⟩
        obtain ⟨q', n, k, haround, hless⟩ := hhidden q₀ a₀ hself
        obtain ⟨q'', b, r, habove, hopened, rfl, _⟩ := haround.exists_isAbove
        obtain ⟨_, _, hevent⟩ := hblock₀.declared_of_opens htypes habove.comes
          (opens_iff.mpr ⟨r, n, hopened⟩)
        rw [hevent] at hopened
        obtain ⟨rfl, _⟩ := Prod.mk.inj (Option.some.inj hopened)
        have hfar := hnearest.nearest q'' b habove (by rw [Document.ownerSet?, hevent]; rfl)
        rw [List.append_nil] at hless
        omega
      · exact howner
  · refine ⟨fun q a hblock _ => ?_, fun _ => hstart⟩
    have hset := hnone q a hblock.above
    rw [hblock.holds.ownerSet?] at hset
    cases hset

/-- When a stop above satisfies a condition, one of those that do is the nearest. -/
theorem IsAbove.exists_isNearest {P : Stop → Prop} (habove : doc.IsAbove q a p) (ha : P a)
    (h : doc.Comes doc.start p s) : ∃ q a, doc.IsNearest P q a p := by
  classical
  have hinherited : doc.IsInherited (fun _ => ()) (fun a => if P a then some () else none) p s :=
    isInherited (fun _ _ _ _ => rfl) h
  rcases hinherited with ⟨q, a, hnearest, _⟩ | ⟨hnone, _⟩
  · refine ⟨q, a, hnearest.congr fun a => ?_⟩
    dsimp only
    split <;> simp_all
  · have hset := hnone q a habove
    dsimp only at hset
    rw [if_pos ha] at hset
    cases hset

/-- An address is at the level of the module: no scope is around it, no lambda or comprehension, and
the nearest block of methods around it, if there is one, has no type. -/
structure IsAtModuleLevel (doc : Document) (p : List Nat) : Prop where
  scopes : doc.IsNearestScope p none
  named : ∀ q a, doc.IsAbove q a p → ¬ doc.Hides a
  blocks : ∀ q a, doc.IsNearest doc.IsBlock q a p → doc.simpleName? a.node "type" = none

/-- Every block of methods has the type that it is for. -/
def TypesItsBlocks (doc : Document) : Prop :=
  ∀ p n, doc.tree.subtree? p = some n → doc.role n = .implBlock → (n.field? "type").isSome = true

/-- Then no block of methods is around an address at the level of the module. -/
theorem IsAtModuleLevel.not_isBlock (hlevel : doc.IsAtModuleLevel p) (htyped : doc.TypesItsBlocks)
    (h : doc.Comes doc.start p s) (habove : doc.IsAbove q a p) : ¬ doc.IsBlock a := by
  intro hblock
  obtain ⟨q', a', hnearest⟩ := habove.exists_isNearest hblock h
  obtain ⟨type, htype⟩ := Option.isSome_iff_exists.mp <|
    htyped q' a'.node hnearest.above.comes.subtree? (plan_methods hnearest.holds)
  have hnone := hlevel.blocks q' a' hnearest
  rw [simpleName?, fieldText?, htype] at hnone
  cases hnone

/-- A variable is recorded at the level of the module, without a parent and under a new name. -/
theorem IsNew.of_var {env : Surroundings} {earlier : List Entry} (h : doc.IsNew env earlier e)
    (hvar : e.declaration.kind = .var) :
    env.atModuleLevel = true ∧ e.declaration.parent = none ∧
      ∀ other ∈ earlier, other.declaration.kind = .var →
        other.declaration.name ≠ e.declaration.name := by
  cases h with
  | declared _ hentry =>
    rw [hentry] at hvar
    simp only [declarationOf, profiled] at hvar
    split at hvar
    · cases hvar
    · split at hvar <;> cases hvar
  | moduleVariable hlevel _ _ hparent _ hfresh => exact ⟨hlevel, hparent, hfresh⟩
  | prototype _ _ hkind =>
    rw [hkind] at hvar
    split at hvar <;> cases hvar
  | functionValue _ hkind => cases hkind.symm.trans hvar
  | aggregate _ hkind => cases hkind.symm.trans hvar

/-- Variables are at the level of the module. -/
theorem RecordedAt.isAtModuleLevel (h : doc.RecordedAt k e p s) (hvar : e.declaration.kind = .var)
    (htypes : doc.DefinesTypesInC) : e.declaration.parent = none ∧ doc.IsAtModuleLevel p := by
  obtain ⟨hlevel, hparent, _⟩ := h.isNew.of_var hvar
  simp only [Surroundings.atModuleLevel, Bool.and_eq_true, Option.isNone_iff_eq_none,
    Bool.not_eq_true'] at hlevel
  obtain ⟨⟨_, howner⟩, hnamed⟩ := hlevel
  have hscopes := h.parent
  rw [hparent] at hscopes
  refine ⟨hparent, hscopes, fun q a habove => h.comes.not_hides hnamed habove, ?_⟩
  intro q a hnearest
  have htype := (h.comes.isOwnerAt htypes).ofBlock q a hnearest
    fun q n k haround => (hscopes q n k haround).elim
  exact htype.symm.trans howner

/-- Different variables have different names. -/
theorem variable_names_distinct {i j : Nat} {e e' : Entry} (he : doc.outline.entries[i]? = some e)
    (he' : doc.outline.entries[j]? = some e') (hvar : e.declaration.kind = .var)
    (hvar' : e'.declaration.kind = .var) (hname : e.declaration.name = e'.declaration.name) :
    i = j := by
  have hearlier {i j : Nat} {e e' : Entry} (he : doc.outline.entries[i]? = some e)
      (he' : doc.outline.entries[j]? = some e') (hvar : e.declaration.kind = .var)
      (hvar' : e'.declaration.kind = .var) (hless : i < j) :
      e.declaration.name ≠ e'.declaration.name := by
    obtain ⟨p, s, hrecorded⟩ := exists_recordedAt he'
    refine (hrecorded.isNew.of_var hvar').2.2 e (List.mem_of_getElem? (i := i) ?_) hvar
    rw [List.getElem?_take_of_lt hless]
    exact he
  rcases Nat.lt_trichotomy i j with hless | hequal | hless
  · exact absurd hname (hearlier he he' hvar hvar' hless)
  · exact hequal
  · exact absurd hname.symm (hearlier he' he hvar' hvar hless)

end Document

namespace Outline

/-- The entry at an index is a class of the module with a name. -/
def IsClassNamed (entries : List Entry) (name : String) (i : Nat) : Prop :=
  ∃ c, entries[i]? = some c ∧ c.declaration.kind = .classLike ∧ c.declaration.parent = none ∧
    c.declaration.name = name

/-- A class is found by its name when it is the first one. -/
theorem classNamed?_eq_some_iff {entries : List Entry} {name : String} {i : Nat} :
    classNamed? entries name = some i ↔ IsLeast {j | IsClassNamed entries name j} i := by
  have hnamed (j : Nat) : IsClassNamed entries name j ↔ ∃ c, entries[j]? = some c ∧
      (c.declaration.kind == .classLike && c.declaration.parent.isNone &&
        c.declaration.name == name) = true := by
    simp [IsClassNamed, and_assoc]
  rw [classNamed?, firstIndex?, List.findIdx?_eq_some_iff_getElem]
  constructor
  · rintro ⟨hi, hfound, hearlier⟩
    refine ⟨(hnamed i).mpr ⟨entries[i], List.getElem?_eq_getElem hi, hfound⟩, fun j hj => ?_⟩
    by_contra hless
    obtain ⟨c, hc, hclass⟩ := (hnamed j).mp hj
    obtain ⟨hlength, rfl⟩ := List.getElem?_eq_some_iff.mp hc
    exact hearlier j (Nat.lt_of_not_le hless) hclass
  · rintro ⟨hi, hleast⟩
    obtain ⟨c, hc, hclass⟩ := (hnamed i).mp hi
    obtain ⟨hlength, rfl⟩ := List.getElem?_eq_some_iff.mp hc
    refine ⟨hlength, hclass, fun j hj hother => ?_⟩
    have hle := hleast ((hnamed j).mpr ⟨entries[j], List.getElem?_eq_getElem (hj.trans hlength), hother⟩)
    omega

/-- Owners are attached: an entry without a parent that is no class, and whose owner names a class
of the module, gets the first such class as its parent. Other parents stay as they were. -/
structure Attaches (entries : List Entry) (e a : Entry) : Prop where
  rest : unattached a = unattached e
  owned : ∀ name i, e.declaration.parent = none → e.declaration.kind ≠ .classLike →
    e.declaration.owner = some name → IsLeast {j | IsClassNamed entries name j} i →
      a.declaration.parent = some i
  other : (e.declaration.parent = none → e.declaration.kind ≠ .classLike →
    ∀ name, e.declaration.owner = some name → ∀ j, ¬ IsClassNamed entries name j) →
      a.declaration.parent = e.declaration.parent

/-- Every entry of an outline is attached. -/
theorem exists_attached {out : Outline} {k : Nat} {e : Entry} (h : out.entries[k]? = some e) :
    ∃ a, out.attached[k]? = some a ∧ Attaches out.entries e a := by
  have hless := (List.getElem?_eq_some_iff.mp h).1
  obtain ⟨a, ha⟩ : ∃ a, out.attached[k]? = some a :=
    ⟨_, List.getElem?_eq_getElem (length_attached out ▸ hless)⟩
  have hrest := congrArg (fun entries : List Entry => entries[k]?) (unattached_attached out)
  have hparent := parentAt_attached out k
  simp only [List.getElem?_map, h, ha, Option.map_some, Option.some.injEq] at hrest
  simp only [parentAt, List.getElem?_map, h, ha, Option.map_some, Option.some.injEq] at hparent
  refine ⟨a, ha, hrest, ?_, ?_⟩
  · intro name i hfree hkind howner hleast
    rw [hparent, attachOwner]
    simp [hfree, hkind, howner, classNamed?_eq_some_iff.mpr hleast]
  · intro hnone
    rw [hparent, attachOwner]
    split
    · rfl
    · rename_i hfree
      simp only [Bool.or_eq_true, Option.isSome_iff_ne_none, beq_iff_eq, not_or, ne_eq, not_not]
        at hfree
      split
      · rename_i i hfound
        obtain ⟨name, howner, hclass⟩ := Option.bind_eq_some_iff.mp hfound
        exact absurd (classNamed?_eq_some_iff.mp hclass).1 (hnone hfree.1 hfree.2 name howner i)
      · rfl

end Outline

/-- What the outline of a document says about the scopes of its source. -/
structure Document.IsScopeTree (doc : Document) : Prop where
  /-- With a stack of pending work the walk comes to its end outside of everything, and visits the
  stops. -/
  balanced : ∃ visited, doc.Advances doc.outset ⟨doc.outline, {}, [], visited⟩ ∧
    ∀ s, s ∈ visited ↔ ∃ p, doc.Comes doc.start p s
  /-- What opens a scope is neither a variable nor a prototype. -/
  opened : ∀ q n k, doc.Declares q n k → ∃ e, doc.outline.entries[k]? = some e ∧
    e.isPrototype = false ∧ e.declaration.kind ≠ .var
  /-- Every entry is recorded at a stop. -/
  recorded : ∀ k e, doc.outline.entries[k]? = some e → ∃ p s, doc.RecordedAt k e p s
  /-- The parent of an entry is that of the nearest node around its stop that opens a scope. -/
  parents : ∀ k e p s, doc.RecordedAt k e p s → doc.IsNearestScope p e.declaration.parent
  /-- The owner at a stop is that of the nearest block of methods that no scope hides. -/
  owners : ∀ p s, doc.Comes doc.start p s → doc.IsOwnerAt p s.env.owner
  /-- Variables have no parent and are recorded at the level of the module. -/
  moduleLevel : ∀ k e p s, doc.RecordedAt k e p s → e.declaration.kind = .var →
    e.declaration.parent = none ∧ doc.IsAtModuleLevel p
  /-- When all blocks of methods have types, variables are outside of them. -/
  outsideBlocks : doc.TypesItsBlocks → ∀ k e p s, doc.RecordedAt k e p s →
    e.declaration.kind = .var → ∀ q a, doc.IsAbove q a p → ¬ doc.IsBlock a
  /-- Different variables have different names. -/
  distinct : ∀ (i j : Nat) (e e' : Entry), doc.outline.entries[i]? = some e →
    doc.outline.entries[j]? = some e' → e.declaration.kind = .var → e'.declaration.kind = .var →
      e.declaration.name = e'.declaration.name → i = j
  /-- Methods outside of their class are put under it. -/
  attached : ∀ (k : Nat) (e : Entry), doc.outline.entries[k]? = some e →
    ∃ a, doc.outline.attached[k]? = some a ∧ Outline.Attaches doc.outline.entries e a

/-- The outline of every document whose type definitions are those of C and C++ is the scope tree of
its source. -/
theorem outline_is_scope_tree (doc : Document) (htypes : doc.DefinesTypesInC) : doc.IsScopeTree where
  balanced := doc.advances_outline
  opened := fun q n k h => by
    obtain ⟨e, he, hbody, hkind, _⟩ := h.entry
    exact ⟨e, he, hbody, hkind⟩
  recorded := fun k e h => Document.exists_recordedAt h
  parents := fun k e p s h => h.parent
  owners := fun p s h => h.isOwnerAt htypes
  moduleLevel := fun k e p s h hvar => h.isAtModuleLevel hvar htypes
  outsideBlocks := fun htyped k e p s h hvar q a =>
    (h.isAtModuleLevel hvar htypes).2.not_isBlock htyped h.comes
  distinct := fun i j e e' he he' => Document.variable_names_distinct he he'
  attached := fun k e h => Outline.exists_attached h

/-- The document of `const C:u8=1;impl A{const D:u8=2;fn f(){fn g(){}}}struct A;const C:u8=3;`. -/
def methodsBeforeType : Document :=
  let inner (kind : String) (field : Option String) (start stop : Nat) (children : List Tree) :=
    Tree.node { kind := kind, named := true, field := field, start := start, stop := stop } children
  { language := .rust
    text := "const C:u8=1;impl A{const D:u8=2;fn f(){fn g(){}}}struct A;const C:u8=3;"
    tree :=
      inner "source_file" none 0 72
        [inner "const_item" none 0 13 [inner "identifier" (some "name") 6 7 []],
          inner "impl_item" none 13 50
            [inner "type_identifier" (some "type") 18 19 [],
              inner "declaration_list" (some "body") 19 50
                [inner "const_item" none 20 33 [inner "identifier" (some "name") 26 27 []],
                  inner "function_item" none 33 49
                    [inner "identifier" (some "name") 36 37 [],
                      inner "parameters" (some "parameters") 37 39 [],
                      inner "block" (some "body") 39 49
                        [inner "function_item" none 40 48
                          [inner "identifier" (some "name") 43 44 [],
                            inner "parameters" (some "parameters") 44 46 [],
                            inner "block" (some "body") 46 48 []]]]]],
          inner "struct_item" none 50 59 [inner "type_identifier" (some "name") 57 58 []],
          inner "const_item" none 59 72 [inner "identifier" (some "name") 65 66 []]] }

/-- The constant in the block and the second one of its name are no variables; the method is put under
the class that comes after it, and the function in the method has no owner. -/
theorem outline_is_scope_tree_methods_first :
    methodsBeforeType.DefinesTypesInC ∧ methodsBeforeType.TypesItsBlocks ∧
    methodsBeforeType.outline.entries.map (fun e =>
        (e.declaration.name, e.declaration.kind, e.declaration.parent, e.declaration.owner)) =
      [("C", .var, none, none), ("f", .method, none, some "A"), ("g", .function, some 1, none),
        ("A", .classLike, none, none)] ∧
    methodsBeforeType.outline.attached.map (·.declaration.parent) = [none, some 3, some 1, none] ∧
    methodsBeforeType.IsScopeTree := by
  have htypes : methodsBeforeType.DefinesTypesInC := by
    have hnodes : ∀ x ∈ methodsBeforeType.tree.nodes, x.2.kind ≠ "type_definition" := by decide
    exact fun p n hnode hkind => absurd hkind (hnodes (p, n) (Tree.mem_nodes hnode))
  have htyped : methodsBeforeType.TypesItsBlocks := by
    have hnodes : ∀ x ∈ methodsBeforeType.tree.nodes, methodsBeforeType.role x.2 = .implBlock →
      (x.2.field? "type").isSome = true := by decide
    exact fun p n hnode => hnodes (p, n) (Tree.mem_nodes hnode)
  exact ⟨htypes, htyped, by decide, by decide, outline_is_scope_tree methodsBeforeType htypes⟩

end CodeAtlas
