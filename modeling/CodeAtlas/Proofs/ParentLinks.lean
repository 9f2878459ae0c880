import CodeAtlas.Facts.Folding
import CodeAtlas.Proofs.Climb
import CodeAtlas.Proofs.OutlineSteps

/-!
# Parent links of an outline

While a tree is walked, parents come before their children. Attaching methods to their owners breaks
this: a method may come before its class. But only declarations without a parent are attached, and
only to classes without a parent, so climbs still end.
-/

namespace CodeAtlas

namespace Outline

/-- Entries refer to earlier entries, and all else that was found to existing ones. -/
structure Sound (out : Outline) : Prop where
  parents : ∀ (i : Nat) (e : Entry), out.entries[i]? = some e →
    ∀ p, e.declaration.parent = some p → p < i
  scopes : ∀ scope ∈ out.scopes, scope.2 < out.entries.length
  callers : ∀ c ∈ out.decoratorCalls, ∀ p, c.caller = some p → p < out.entries.length
  decorated : ∀ c ∈ out.decoratorCalls, ∀ p, c.decorates = some p → p < out.entries.length

/-- Adding an entry below an existing one keeps an outline sound. -/
theorem Sound.add {out : Outline} (h : out.Sound) (e : Entry)
    (hparent : ∀ p, e.declaration.parent = some p → p < out.entries.length) :
    (out.add e).Sound := by
  have hlength : (out.add e).entries.length = out.entries.length + 1 := by simp [Outline.add]
  refine ⟨?_, ?_, ?_, ?_⟩
  · intro i other hother p hp
    rcases Nat.lt_or_ge i out.entries.length with hi | hi
    · rw [Outline.add, List.getElem?_append_left hi] at hother
      exact h.parents i other hother p hp
    · have hlast : other = e := by
        rw [Outline.add, List.getElem?_append_right hi] at hother
        exact List.mem_singleton.mp (List.mem_of_getElem? hother)
      exact Nat.lt_of_lt_of_le (hparent p (hlast ▸ hp)) hi
  · intro scope hscope
    exact hlength ▸ Nat.lt_succ_of_lt (h.scopes scope hscope)
  · intro c hc p hp
    exact hlength ▸ Nat.lt_succ_of_lt (h.callers c hc p hp)
  · intro c hc p hp
    exact hlength ▸ Nat.lt_succ_of_lt (h.decorated c hc p hp)

/-- Letting the latest entry open a scope keeps an outline sound. -/
theorem Sound.opening {out : Outline} (h : out.Sound) (t : Tree) (hpos : 0 < out.entries.length) :
    (out.opening t).Sound := by
  refine ⟨h.parents, ?_, h.callers, h.decorated⟩
  intro scope hscope
  rcases List.mem_cons.mp hscope with rfl | hscope
  · exact Nat.sub_lt hpos Nat.one_pos
  · exact h.scopes scope hscope

/-- Adding an entry that opens a scope keeps an outline sound. -/
theorem Sound.add_opening {out : Outline} (h : out.Sound) (e : Entry) (t : Tree)
    (hparent : ∀ p, e.declaration.parent = some p → p < out.entries.length) :
    ((out.add e).opening t).Sound :=
  (h.add e hparent).opening t (by simp [Outline.add])

/-- Every kind of step keeps an outline sound. -/
theorem Sound.step {doc : Document} {out out' : Outline} (h : out.Sound)
    (hstep : doc.Step out out') : out'.Sound := by
  obtain ⟨env, hfits, hrecords⟩ := hstep
  cases hrecords with
  | declared t decorators header =>
    have hadded := h.add_opening
      ⟨doc.declarationOf t env ((decorators.map doc.decoratorFact).map (·.1)) header, false⟩ t
      hfits
    refine ⟨hadded.parents, hadded.scopes, ?_, ?_⟩
    · intro c hc p hp
      rcases List.mem_append.mp hc with hc | hc
      · exact hadded.callers c hc p hp
      · obtain ⟨call, _, rfl⟩ := List.mem_map.mp hc
        have := hfits p hp
        simp only [Document.addDeclared, Outline.opening, Outline.add, List.length_append]
        omega
    · intro c hc p hp
      rcases List.mem_append.mp hc with hc | hc
      · exact hadded.decorated c hc p hp
      · obtain ⟨call, _, rfl⟩ := List.mem_map.mp hc
        obtain rfl : out.next = p := Option.some.inj hp
        simp [Document.addDeclared, Outline.opening, Outline.add, Outline.next]
  | moduleVariable t name =>
    rw [Document.addVariable]
    split
    · exact h
    · exact h.add _ fun p hp => by cases hp
  | prototype t function declared => exact h.add _ hfits
  | functionValue t value name => exact h.add_opening _ t hfits
  | aggregate t aggregate name => exact h.add_opening _ aggregate hfits
  | trait t =>
    rw [Document.addTrait]
    split
    · exact ⟨h.parents, h.scopes, h.callers, h.decorated⟩
    · exact h

/-- A whole walk keeps an outline sound. -/
theorem Sound.steps {doc : Document} {out out' : Outline} (h : out.Sound)
    (hsteps : doc.Steps out out') : out'.Sound := by
  induction hsteps with
  | refl => exact h
  | tail _ hstep ih => exact ih.step hstep

/-- The outline of every document is sound. -/
theorem sound_outline (doc : Document) : doc.outline.Sound :=
  Sound.steps (by constructor <;> simp) doc.outline_steps

/-- A first index leads to an entry that satisfies the condition. -/
theorem firstIndex?_eq_some {entries : List Entry} {p : Entry → Bool} {i : Nat}
    (h : firstIndex? entries p = some i) : ∃ e, entries[i]? = some e ∧ p e = true := by
  obtain ⟨hi, hp, _⟩ := List.findIdx?_eq_some_iff_getElem.mp h
  exact ⟨entries[i], List.getElem?_eq_getElem hi, hp⟩

/-- Is the entry a class of the module? -/
def isModuleClass (e : Entry) : Bool :=
  e.declaration.kind == .classLike && e.declaration.parent.isNone

/-- A class that is found by its name is a class of the module. -/
theorem isModuleClass_of_classNamed? {entries : List Entry} {name : String} {i : Nat}
    (h : classNamed? entries name = some i) : ∃ e, entries[i]? = some e ∧ isModuleClass e := by
  obtain ⟨e, he, hclass⟩ := firstIndex?_eq_some h
  exact ⟨e, he, (Bool.and_eq_true_iff.mp hclass).1⟩

/-- Attaching an owner keeps the parent, or puts what has none and is no class under a class of the
module. -/
theorem parent_attachOwner (entries : List Entry) (e : Entry) :
    (attachOwner entries e).declaration.parent = e.declaration.parent ∨
      isModuleClass e = false ∧ ∃ i owner, (attachOwner entries e).declaration.parent = some i ∧
        entries[i]? = some owner ∧ isModuleClass owner := by
  rw [attachOwner]
  split
  · exact .inl rfl
  · rename_i hfree
    split
    · rename_i i hfound
      obtain ⟨name, _, hnamed⟩ := Option.bind_eq_some_iff.mp hfound
      obtain ⟨owner, howner, hclass⟩ := isModuleClass_of_classNamed? hnamed
      refine .inr ⟨?_, i, owner, rfl, howner, hclass⟩
      simp only [Bool.or_eq_true, not_or, Bool.not_eq_true] at hfree
      rw [isModuleClass, hfree.2, Bool.false_and]
    · exact .inl rfl

/-- Adding a base keeps all parents. -/
theorem parents_addBase (entries : List Entry) (i : Nat) (base : String) :
    (addBase entries i base).map (·.declaration.parent) =
      entries.map (·.declaration.parent) := by
  apply List.ext_getElem?
  intro j
  rw [addBase, List.getElem?_map, List.getElem?_modify, List.getElem?_map]
  cases entries[j]? with
  | none => rfl
  | some e =>
    simp only [Option.map_eq_map, Option.map_some, Option.some.injEq]
    split
    · split <;> rfl
    · rfl

/-- Attaching traits keeps all parents. -/
theorem parents_attachTraits (entries : List Entry) (traits : List (String × String)) :
    (attachTraits entries traits).map (·.declaration.parent) =
      entries.map (·.declaration.parent) := by
  rw [attachTraits]
  refine List.foldlRecOn traits _
    (motive := fun acc : List Entry =>
      acc.map (·.declaration.parent) = entries.map (·.declaration.parent))
    rfl ?_
  intro acc hacc pair _
  dsimp only
  split
  · rw [parents_addBase, hacc]
  · exact hacc

/-- The parents of the attached entries are those that attaching owners gives. -/
theorem parentAt_attached (out : Outline) (i : Nat) :
    parentAt (out.attached.map (·.declaration)) i =
      out.entries[i]?.map fun e => (attachOwner out.entries e).declaration.parent := by
  have hparents := congrArg (fun parents : List (Option Nat) => parents[i]?)
    (parents_attachTraits (out.entries.map (attachOwner out.entries)) out.traits)
  simp only [List.getElem?_map, Option.map_map] at hparents
  simp only [parentAt, attached, List.getElem?_map, Option.map_map]
  exact hparents

/-- Attaching keeps the number of entries. -/
theorem length_attached (out : Outline) : out.attached.length = out.entries.length := by
  have hparents := congrArg List.length
    (parents_attachTraits (out.entries.map (attachOwner out.entries)) out.traits)
  simpa [attached] using hparents

/-- A rank that falls along the links of attached entries: classes of the module have the least, and
all other entries are ranked by their position. -/
def linkRank (entries : List Entry) (i : Nat) : Nat :=
  if entries[i]?.any isModuleClass then 0 else i + 1

/-- A rank is at most the position after the entry. -/
theorem linkRank_le (entries : List Entry) (i : Nat) : linkRank entries i ≤ i + 1 := by
  rw [linkRank]
  split <;> omega

/-- Attached entries of a sound outline have finite climbs, although methods may come before their
class. -/
theorem Sound.attached_climbs {out : Outline} (h : out.Sound) {i : Nat}
    (hi : i < out.attached.length) :
    ∃ chain, Climb (parentAt (out.attached.map (·.declaration))) (some i) chain := by
  have hexists (j : Nat) (hj : j < out.entries.length) :
      ∃ parent, parentAt (out.attached.map (·.declaration)) j = some parent := by
    rw [parentAt_attached, List.getElem?_eq_getElem hj]
    exact ⟨_, rfl⟩
  obtain ⟨parent, hparent⟩ := hexists i (length_attached out ▸ hi)
  refine Climb.exists_of_rank (linkRank out.entries) ?_ hparent
  intro j p hlink
  rw [parentAt_attached] at hlink
  obtain ⟨e, he, hp⟩ := Option.map_eq_some_iff.mp hlink
  have hj := (List.getElem?_eq_some_iff.mp he).1
  rcases parent_attachOwner out.entries e with hkept | ⟨hother, k, owner, hk, howner, hclass⟩
  · -- A link of the walk leads to an earlier entry, and what has a parent is no class of the module.
    rw [hkept] at hp
    have hless := h.parents j e he p hp
    have hrank : linkRank out.entries j = j + 1 := by
      simp [linkRank, he, isModuleClass, hp]
    have hle := linkRank_le out.entries p
    exact ⟨by omega, hexists p (by omega)⟩
  · obtain rfl : k = p := Option.some.inj (hk.symm.trans hp)
    have hrank : linkRank out.entries j = j + 1 := by simp [linkRank, he, hother]
    have hzero : linkRank out.entries k = 0 := by simp [linkRank, howner, hclass]
    exact ⟨by omega, hexists k (List.getElem?_eq_some_iff.mp howner).1⟩

end Outline

end CodeAtlas
