import CodeAtlas.Proofs.ScopeTree

/-!
# Folding is sound

In C and C++ folding drops the repeated declarations of a thing and keeps one. What is kept keeps its
order, and every reference goes to the place of what remains for the entry that it meant. Afterwards
a prototype of the module is the only function of the module with its name, and no definition outside
of a class stands beside a prototype of it in the class. The last holds because prototypes are members
of classes only, and classes are never folded.
-/

namespace CodeAtlas

namespace Outline

variable {entries : List Entry} {i t : Nat} {e : Entry}

/-- The old indices of the kept entries, in order. -/
def places (entries : List Entry) : List Nat :=
  (List.range entries.length).filter (isKept entries)

/-- An entry with its parent renumbered. -/
def renumbered (entries : List Entry) (e : Entry) : Entry :=
  { e with declaration :=
    { e.declaration with parent := e.declaration.parent.map (newIndex entries) } }

/-- The kept entries, with their parents renumbered. -/
def folded (entries : List Entry) : List Entry :=
  (keptIndexed entries).map fun x => renumbered entries x.1

/-- The declarations that remain are those of the kept entries. -/
theorem map_declaration_folded (entries : List Entry) :
    (folded entries).map (·.declaration) = kept entries := by
  rw [folded, kept, List.map_map]
  rfl

/-- Kept entries are listed with their old indices. -/
theorem map_snd_keptIndexed (entries : List Entry) :
    (keptIndexed entries).map Prod.snd = places entries := by
  rw [keptIndexed, places, List.range_eq_range', ← List.zipIdx_map_snd 0 entries, List.filter_map]
  rfl

/-- A kept entry is one of the entries, and is not dropped. -/
theorem getElem?_of_keptIndexed {k : Nat} (h : (keptIndexed entries)[k]? = some (e, i)) :
    entries[i]? = some e ∧ survivor? entries i = none := by
  obtain ⟨hmem, hkept⟩ := List.mem_filter.mp (List.mem_of_getElem? h)
  exact ⟨List.mk_mem_zipIdx_iff_getElem?.mp hmem, Option.isNone_iff_eq_none.mp hkept⟩

/-- A new index stands for an old one: it is the place of what remains for the entry there. -/
structure Redirects (entries : List Entry) (old new : Nat) : Prop where
  inRange : old < entries.length
  place : (places entries)[new]? = some (remaining entries old)

/-- The new index of an entry stands for its old one. -/
theorem redirects_newIndex (h : i < entries.length) :
    Redirects entries i (newIndex entries i) := by
  obtain ⟨s, hs, _⟩ := keptIndexed_newIndex (List.getElem?_eq_getElem h)
  refine ⟨h, ?_⟩
  rw [← map_snd_keptIndexed, List.getElem?_map, hs]
  rfl

/-- Renumbering redirects a reference. -/
theorem rel_map_newIndex {reference : Option Nat}
    (h : ∀ i, reference = some i → i < entries.length) :
    Option.Rel (Redirects entries) reference (reference.map (newIndex entries)) := by
  cases reference with
  | none => exact .none
  | some i => exact .some (redirects_newIndex (h i rfl))

/-- Kept entries have different places. -/
theorem eq_of_places {k l : Nat} (hk : (places entries)[k]? = some i)
    (hl : (places entries)[l]? = some i) : k = l := by
  have hnodup : (places entries).Nodup := List.nodup_range.filter _
  exact (List.getElem?_inj (List.getElem?_eq_some_iff.mp hk).1 hnodup).mp (hk.trans hl.symm)

/-- Something that satisfies a condition has a first index. -/
theorem firstIndex?_isSome {q : Entry → Bool} (he : entries[i]? = some e) (hq : q e = true) :
    (firstIndex? entries q).isSome = true := by
  rw [firstIndex?, List.findIdx?_isSome, List.any_eq_true]
  exact ⟨e, List.mem_of_getElem? he, hq⟩

/-- A kept prototype of the module is what remains for the functions of its name. -/
theorem functionSurvivor?_of_kept (he : entries[i]? = some e) (hkept : survivor? entries i = none)
    (hprototype : e.isPrototype = true) (hmodule : isModuleFunction e = true) :
    functionSurvivor? entries e.declaration.name = some i := by
  have hfound : (functionSurvivor? entries e.declaration.name).isSome = true := by
    rw [functionSurvivor?, Option.isSome_or, Bool.or_eq_true]
    exact .inr (firstIndex?_isSome he (by simp [hprototype, hmodule]))
  obtain ⟨t, ht⟩ := Option.isSome_iff_exists.mp hfound
  simp only [survivor?, he, hprototype, hmodule, if_true, ht, Option.filter_some] at hkept
  split at hkept
  · cases hkept
  · rename_i hsame
    rw [ht, not_not.mp (mt bne_iff_ne.mpr hsame)]

/-- A kept prototype of the module is the only kept function of the module with its name. -/
theorem eq_of_module_prototype {j : Nat} {f : Entry} (he : entries[i]? = some e)
    (hkept : survivor? entries i = none) (hprototype : e.isPrototype = true)
    (hmodule : isModuleFunction e = true) (hf : entries[j]? = some f)
    (hkept' : survivor? entries j = none) (hmodule' : isModuleFunction f = true)
    (hname : f.declaration.name = e.declaration.name) : i = j := by
  have hsurvivor := functionSurvivor?_of_kept he hkept hprototype hmodule
  cases hbody : f.isPrototype with
  | true =>
    have hother := functionSurvivor?_of_kept hf hkept' hbody hmodule'
    rw [hname] at hother
    exact Option.some.inj (hsurvivor.symm.trans hother)
  | false =>
    -- A definition would remain in the place of the prototype.
    obtain ⟨d, hd⟩ := Option.isSome_iff_exists.mp
      (firstIndex?_isSome (q := fun e' => isModuleFunction e' &&
        e'.declaration.name == e.declaration.name && !e'.isPrototype) hf
        (by simp [hmodule', hname, hbody]))
    obtain ⟨definition, hdefinition, hnamed⟩ := firstIndex?_eq_some hd
    rw [functionSurvivor?, hd, Option.some_or] at hsurvivor
    obtain rfl := Option.some.inj hsurvivor
    obtain rfl := Option.some.inj (hdefinition.symm.trans he)
    simp [hprototype] at hnamed

/-- A kept definition outside of its class has no prototype in the class. -/
theorem no_prototype_of_kept {j p : Nat} {f : Entry} (he : entries[i]? = some e)
    (hkept : survivor? entries i = none) (hbody : e.isPrototype = false)
    (howner : e.declaration.owner.isSome = true) (hparent : e.declaration.parent = some p)
    (hf : entries[j]? = some f) (hprototype : f.isPrototype = true)
    (hparent' : f.declaration.parent = some p) : f.declaration.name ≠ e.declaration.name := by
  intro hname
  have hmember : (memberSurvivor? entries p e.declaration.name).isSome = true :=
    firstIndex?_isSome hf (by simp [hparent', hprototype, hname])
  simp only [survivor?, he, hbody, howner, hparent, Bool.false_eq_true, if_false, if_true,
    Option.bind_some] at hkept
  rw [hkept] at hmember
  cases hmember

/-- What remains for a dropped entry is a prototype or a function of the module. -/
theorem survivor?_form (h : survivor? entries i = some t) {s : Entry} (hs : entries[t]? = some s) :
    s.isPrototype = true ∨ s.declaration.kind = .function := by
  have hform {q : Entry → Bool} (hfound : firstIndex? entries q = some t) : q s = true := by
    obtain ⟨s', hs', hq⟩ := firstIndex?_eq_some hfound
    rwa [Option.some.inj (hs'.symm.trans hs)] at hq
  rw [survivor?] at h
  split at h
  · cases h
  · split at h
    · split at h
      · -- The first function of the module with the name, with or without a body.
        have hfunction : isModuleFunction s = true := by
          rcases Option.or_eq_some_iff.mp (Option.filter_eq_some_iff.mp h).1 with hfound | ⟨_, hfound⟩
          · exact (Bool.and_eq_true_iff.mp (Bool.and_eq_true_iff.mp (hform hfound)).1).1
          · exact (Bool.and_eq_true_iff.mp (Bool.and_eq_true_iff.mp (hform hfound)).1).1
        exact .inr (beq_iff_eq.mp (Bool.and_eq_true_iff.mp hfunction).2)
      · cases h
    · split at h
      · obtain ⟨parent, _, hfound⟩ := Option.bind_eq_some_iff.mp h
        exact .inl (Bool.and_eq_true_iff.mp (Bool.and_eq_true_iff.mp (hform hfound)).1).2
      · cases h

/-- Prototypes are members of classes or of nothing, and classes have bodies and no owner. -/
structure KeepsClasses (entries : List Entry) : Prop where
  prototypes : ∀ (j p : Nat) (f : Entry), entries[j]? = some f → f.isPrototype = true →
    f.declaration.parent = some p → ∃ c, entries[p]? = some c ∧ c.declaration.kind = .classLike
  classes : ∀ (p : Nat) (c : Entry), entries[p]? = some c → c.declaration.kind = .classLike →
    c.isPrototype = false ∧ c.declaration.owner = none

/-- Nothing else is folded into a class. -/
theorem KeepsClasses.eq_of_newIndex (h : KeepsClasses entries) {p : Nat} {c : Entry}
    (hi : i < entries.length) (hc : entries[p]? = some c) (hclass : c.declaration.kind = .classLike)
    (hsame : newIndex entries i = newIndex entries p) : i = p := by
  obtain ⟨hbody, howner⟩ := h.classes p c hc hclass
  have hkept : survivor? entries p = none := by simp [survivor?, hc, hbody, howner]
  have hplace := (redirects_newIndex hi).place
  rw [hsame, (redirects_newIndex (List.getElem?_eq_some_iff.mp hc).1).place] at hplace
  have hremaining : remaining entries i = p := by
    rw [← Option.some.inj hplace, remaining, hkept, Option.getD_none]
  rw [remaining] at hremaining
  cases hsurvivor : survivor? entries i with
  | none => rwa [hsurvivor, Option.getD_none] at hremaining
  | some t =>
    rw [hsurvivor, Option.getD_some] at hremaining
    obtain rfl := hremaining
    rcases survivor?_form hsurvivor hc with hprototype | hfunction
    · cases hbody.symm.trans hprototype
    · cases hclass.symm.trans hfunction

/-- An attached entry is an entry with another parent and other bases; a new parent is a class of the
module. -/
theorem attached_cases {out : Outline} {k : Nat} {a : Entry} (h : out.attached[k]? = some a) :
    ∃ e, out.entries[k]? = some e ∧ a.isPrototype = e.isPrototype ∧
      a.declaration.kind = e.declaration.kind ∧ a.declaration.owner = e.declaration.owner ∧
      (a.declaration.parent = e.declaration.parent ∨
        ∃ i c, a.declaration.parent = some i ∧ out.entries[i]? = some c ∧
          c.declaration.kind = .classLike) := by
  have hsame := congrArg (fun entries : List Entry => entries[k]?) (unattached_attached out)
  have hparent := parentAt_attached out k
  simp only [List.getElem?_map, h, Option.map_some] at hsame
  obtain ⟨e, he, heq⟩ := Option.map_eq_some_iff.mp hsame.symm
  simp only [parentAt, List.getElem?_map, he, h, Option.map_some, Option.some.injEq] at hparent
  simp only [unattached, Entry.mk.injEq, Declaration.mk.injEq] at heq
  obtain ⟨⟨_, hkind, _, _, _, _, _, _, howner, _⟩, hbody⟩ := heq
  refine ⟨e, he, hbody.symm, hkind.symm, howner.symm, ?_⟩
  rw [hparent]
  rcases parent_attachOwner out.entries e with hkept | ⟨_, i, c, hi, hc, hclass⟩
  · exact .inl hkept
  · exact .inr ⟨i, c, hi, hc, beq_iff_eq.mp (Bool.and_eq_true_iff.mp hclass).1⟩

/-- The parents of attached entries are entries. -/
theorem Sound.attached_parents {out : Outline} (h : out.Sound) {k p : Nat} {a : Entry}
    (ha : out.attached[k]? = some a) (hp : a.declaration.parent = some p) :
    p < out.attached.length := by
  rw [length_attached]
  obtain ⟨e, he, _, _, _, hsame | ⟨i, c, hi, hc, _⟩⟩ := attached_cases ha
  · have hless := h.parents k e he p (hsame ▸ hp)
    have hk := (List.getElem?_eq_some_iff.mp he).1
    omega
  · obtain rfl := Option.some.inj (hi.symm.trans hp)
    exact (List.getElem?_eq_some_iff.mp hc).1

end Outline

namespace Document

variable {doc : Document} {s : Stop} {p : List Nat} {k : Nat} {e : Entry} {env : Surroundings}
  {earlier : List Entry}

/-- C and C++ have no blocks of methods, and so no owners from them. -/
theorem Comes.owner_eq_none (h : doc.Comes doc.start p s) (hfamily : doc.language.isCFamily = true) :
    s.env.owner = none := by
  rcases h.owner with ⟨q, a, _, hvalue⟩ | ⟨_, hstart⟩
  · rcases ownerSet?_cases hvalue with ⟨hblock, _⟩ | ⟨_, howner⟩
    · have hother := (doc.language.of_implBlock (plan_methods hblock)).2
      rw [hfamily] at hother
      cases hother
    · exact howner
  · exact hstart

/-- A class of C and C++ has a body and no owner. -/
theorem IsNew.of_class (h : doc.IsNew env earlier e) (hfamily : doc.language.isCFamily = true)
    (howner : env.owner = none) (hclass : e.declaration.kind = .classLike) :
    e.isPrototype = false ∧ e.declaration.owner = none := by
  cases h with
  | @declared t decorators header hheader hentry =>
    have hrole : doc.role t = .classLike := by
      by_contra hother
      rw [hentry] at hclass
      simp only [declarationOf, profiled, hother, if_false] at hclass
      split at hclass <;> cases hclass
    have hnone : header.owner = none := by
      simp only [header?, hfamily, hrole, if_true] at hheader
      obtain ⟨_, _, hheader⟩ := Option.bind_eq_some_iff.mp hheader
      obtain ⟨_, _, hheader⟩ := Option.bind_eq_some_iff.mp hheader
      rw [← Option.some.inj hheader]
    refine ⟨by rw [hentry], ?_⟩
    rw [hentry]
    simp [declarationOf, profiled, hnone, howner]
  | moduleVariable _ hbody _ _ hnone => exact ⟨hbody, hnone⟩
  | prototype _ _ hkind =>
    rw [hkind] at hclass
    split at hclass <;> cases hclass
  | functionValue hbody _ _ hnone => exact ⟨hbody, hnone⟩
  | aggregate hbody _ _ hnone => exact ⟨hbody, hnone⟩

/-- A prototype is recorded in a class or at the level of the module. -/
theorem RecordedAt.parent_of_prototype {q : Nat} (h : doc.RecordedAt k e p s)
    (hprototype : e.isPrototype = true) (hparent : e.declaration.parent = some q) :
    ∃ c, doc.outline.entries[q]? = some c ∧ c.declaration.kind = .classLike := by
  have henclosing : s.env.enclosing = some q := h.isNew.parent.symm.trans hparent
  have hinClass : s.env.inClass = true := by
    cases h.isNew with
    | declared _ hentry => rw [hentry] at hprototype; cases hprototype
    | prototype hplace =>
      simpa [Surroundings.atModuleLevel, henclosing] using hplace
    | moduleVariable _ hbody => cases hbody.symm.trans hprototype
    | functionValue hbody => cases hbody.symm.trans hprototype
    | aggregate hbody => cases hbody.symm.trans hprototype
  rcases h.comes.enclosing with ⟨q', a, c, hnearest, hsome, hentries, hclass⟩ | ⟨_, hnone, _⟩
  · obtain rfl := Option.some.inj (hsome.symm.trans henclosing)
    refine ⟨c, ?_, beq_iff_eq.mp (hclass.symm.trans hinClass)⟩
    obtain ⟨later, houtline⟩ := hnearest.above.comes.exists_later
    simp [houtline, hentries, Outline.next]
  · cases hnone.symm.trans henclosing

/-- In C and C++ prototypes are members of classes, and classes are kept. -/
theorem keepsClasses_attached (hfamily : doc.language.isCFamily = true) :
    Outline.KeepsClasses doc.outline.attached := by
  have hattached {i : Nat} {c : Entry} (hc : doc.outline.entries[i]? = some c)
      (hclass : c.declaration.kind = .classLike) :
      ∃ a, doc.outline.attached[i]? = some a ∧ a.declaration.kind = .classLike := by
    obtain ⟨a, ha⟩ : ∃ a, doc.outline.attached[i]? = some a :=
      ⟨_, List.getElem?_eq_getElem (Outline.length_attached _ ▸ (List.getElem?_eq_some_iff.mp hc).1)⟩
    obtain ⟨c', hc', _, hkind, _⟩ := Outline.attached_cases ha
    obtain rfl := Option.some.inj (hc'.symm.trans hc)
    exact ⟨a, ha, hkind.trans hclass⟩
  constructor
  · intro j p f hf hprototype hparent
    obtain ⟨e, he, hbody, _, _, hsame | ⟨i, c, hi, hc, hclass⟩⟩ := Outline.attached_cases hf
    · obtain ⟨q, s, hrecorded⟩ := exists_recordedAt he
      obtain ⟨c, hc, hclass⟩ :=
        hrecorded.parent_of_prototype (hbody ▸ hprototype) (hsame ▸ hparent)
      exact hattached hc hclass
    · obtain rfl := Option.some.inj (hi.symm.trans hparent)
      exact hattached hc hclass
  · intro p c hc hclass
    obtain ⟨e, he, hbody, hkind, howner, _⟩ := Outline.attached_cases hc
    obtain ⟨q, s, hrecorded⟩ := exists_recordedAt he
    rw [hbody, howner]
    exact hrecorded.isNew.of_class hfamily (hrecorded.comes.owner_eq_none hfamily)
      (hkind ▸ hclass)

end Document

namespace Outline

variable {entries : List Entry}

/-- A folded entry is a kept one with its parent renumbered, in the place of that one. -/
theorem exists_of_folded {k : Nat} {f : Entry} (h : (folded entries)[k]? = some f) :
    ∃ i e, (places entries)[k]? = some i ∧ entries[i]? = some e ∧ survivor? entries i = none ∧
      f = renumbered entries e := by
  rw [folded, List.getElem?_map] at h
  obtain ⟨⟨e, i⟩, hplace, rfl⟩ := Option.map_eq_some_iff.mp h
  obtain ⟨he, hkept⟩ := getElem?_of_keptIndexed hplace
  refine ⟨i, e, ?_, he, hkept, rfl⟩
  rw [← map_snd_keptIndexed, List.getElem?_map, hplace]
  rfl

/-- Renumbering keeps the functions of the module. -/
theorem isModuleFunction_renumbered (e : Entry) :
    isModuleFunction (renumbered entries e) = isModuleFunction e := by
  simp [isModuleFunction, renumbered]

/-- A folded prototype of the module is the only folded function of the module with its name. -/
theorem eq_of_folded_prototype {k l : Nat} {e f : Entry} (he : (folded entries)[k]? = some e)
    (hf : (folded entries)[l]? = some f) (hprototype : e.isPrototype = true)
    (hmodule : isModuleFunction e = true) (hmodule' : isModuleFunction f = true)
    (hname : f.declaration.name = e.declaration.name) : k = l := by
  obtain ⟨i, old, hi, hold, hkept, rfl⟩ := exists_of_folded he
  obtain ⟨j, old', hj, hold', hkept', rfl⟩ := exists_of_folded hf
  rw [isModuleFunction_renumbered] at hmodule hmodule'
  obtain rfl := eq_of_module_prototype hold hkept hprototype hmodule hold' hkept' hmodule' hname
  exact eq_of_places hi hj

/-- A folded definition outside of its class has no folded prototype in the class. -/
theorem KeepsClasses.no_folded_prototype (h : KeepsClasses entries)
    (hparents : ∀ (i p : Nat) (e : Entry), entries[i]? = some e → e.declaration.parent = some p →
      p < entries.length)
    {k l p : Nat} {e f : Entry} (he : (folded entries)[k]? = some e)
    (hf : (folded entries)[l]? = some f) (hbody : e.isPrototype = false)
    (howner : e.declaration.owner.isSome = true) (hprototype : f.isPrototype = true)
    (hparent : e.declaration.parent = some p) (hparent' : f.declaration.parent = some p) :
    f.declaration.name ≠ e.declaration.name := by
  obtain ⟨i, old, _, hold, hkept, rfl⟩ := exists_of_folded he
  obtain ⟨j, old', _, hold', _, rfl⟩ := exists_of_folded hf
  obtain ⟨q, hq, hnew⟩ := Option.map_eq_some_iff.mp hparent
  obtain ⟨c, hc, hnew'⟩ := Option.map_eq_some_iff.mp hparent'
  -- The parent of a prototype is a class, so both parents were the same before folding.
  obtain ⟨_, hentry, hclass⟩ := h.prototypes j c old' hold' hprototype hc
  obtain rfl := h.eq_of_newIndex (hparents i q old hold hq) hentry hclass (hnew.trans hnew'.symm)
  exact no_prototype_of_kept (e := old) (f := old') hold hkept hbody howner hq hold' hprototype hc

/-- An entry is another one with its parent redirected. -/
structure IsRenumbered (entries : List Entry) (old new : Entry) : Prop where
  same : new = { old with declaration :=
    { old.declaration with parent := new.declaration.parent } }
  parent : Option.Rel (Redirects entries) old.declaration.parent new.declaration.parent

/-- A call is another one with its references to declarations redirected. -/
structure IsRedirected (entries : List Entry) (old new : CallFact) : Prop where
  same : new = { old with caller := new.caller, decorates := new.decorates }
  caller : Option.Rel (Redirects entries) old.caller new.caller
  decorates : Option.Rel (Redirects entries) old.decorates new.decorates

/-- Declarations, scopes and calls of decorators are those of an outline with its repeated
declarations folded. -/
structure IsSoundFolding (out : Outline)
    (result : List Declaration × List ((Nat × Nat) × Nat) × List CallFact) : Prop where
  /-- What remains for a dropped entry is kept, and has its name and its parent. -/
  survivors : ∀ i t, survivor? out.attached i = some t → survivor? out.attached t = none ∧
    ∃ e s, out.attached[i]? = some e ∧ out.attached[t]? = some s ∧
      s.declaration.name = e.declaration.name ∧ s.declaration.parent = e.declaration.parent
  declarations : result.1 = (folded out.attached).map (·.declaration)
  /-- The kept entries stay in order, and their parents are redirected. -/
  inOrder : List.Forall₂ (fun i new => ∃ old, out.attached[i]? = some old ∧
    IsRenumbered out.attached old new) (places out.attached) (folded out.attached)
  scopes : List.Forall₂ (fun old new => new.1 = old.1 ∧ Redirects out.attached old.2 new.2)
    out.scopes result.2.1
  calls : List.Forall₂ (IsRedirected out.attached) out.decoratorCalls result.2.2
  /-- A prototype of the module is the only function of the module with its name. -/
  functions : ∀ (k l : Nat) (e f : Entry), (folded out.attached)[k]? = some e →
    (folded out.attached)[l]? = some f → e.isPrototype = true → isModuleFunction e = true →
      isModuleFunction f = true → f.declaration.name = e.declaration.name → k = l
  /-- A definition outside of its class has no prototype in the class. -/
  members : ∀ (k l p : Nat) (e f : Entry), (folded out.attached)[k]? = some e →
    (folded out.attached)[l]? = some f → e.isPrototype = false →
      e.declaration.owner.isSome = true → f.isPrototype = true → e.declaration.parent = some p →
        f.declaration.parent = some p → f.declaration.name ≠ e.declaration.name

/-- Folding keeps the order of the kept entries and redirects their parents. -/
theorem forall₂_places_folded
    (hparents : ∀ (i p : Nat) (e : Entry), entries[i]? = some e → e.declaration.parent = some p →
      p < entries.length) :
    List.Forall₂ (fun i new => ∃ old, entries[i]? = some old ∧ IsRenumbered entries old new)
      (places entries) (folded entries) := by
  rw [← map_snd_keptIndexed, folded, List.forall₂_map_left_iff, List.forall₂_map_right_iff,
    List.forall₂_same]
  rintro ⟨e, i⟩ hmem
  obtain ⟨k, hplace⟩ := List.mem_iff_getElem?.mp hmem
  have he := (getElem?_of_keptIndexed hplace).1
  exact ⟨e, he, rfl, rel_map_newIndex fun p hp => hparents i p e he hp⟩

/-- Folding redirects the scopes of a sound outline. -/
theorem Sound.forall₂_scopes {out : Outline} (h : out.Sound) :
    List.Forall₂ (fun old new => new.1 = old.1 ∧ Redirects out.attached old.2 new.2)
      out.scopes (fold out.attached out).2.1 := by
  rw [fold, List.forall₂_map_right_iff, List.forall₂_same]
  intro scope hscope
  exact ⟨rfl, redirects_newIndex (length_attached out ▸ h.scopes scope hscope)⟩

/-- Folding redirects the calls of decorators of a sound outline. -/
theorem Sound.forall₂_calls {out : Outline} (h : out.Sound) :
    List.Forall₂ (IsRedirected out.attached) out.decoratorCalls (fold out.attached out).2.2 := by
  rw [fold, List.forall₂_map_right_iff, List.forall₂_same]
  intro call hcall
  refine ⟨rfl, rel_map_newIndex fun i hi => ?_, rel_map_newIndex fun i hi => ?_⟩
  · exact length_attached out ▸ h.callers call hcall i hi
  · exact length_attached out ▸ h.decorated call hcall i hi

/-- Folding a sound outline whose classes are kept is sound. -/
theorem Sound.isSoundFolding {out : Outline} (h : out.Sound) (hclasses : KeepsClasses out.attached) :
    out.IsSoundFolding (fold out.attached out) where
  survivors := fun i t hsurvivor => by
    obtain ⟨e, s, he, hs, hparent, hname, hkept⟩ := survivor?_spec hsurvivor
    exact ⟨Option.isNone_iff_eq_none.mp hkept, e, s, he, hs, hname, hparent⟩
  declarations := (map_declaration_folded out.attached).symm
  inOrder := forall₂_places_folded fun _ _ _ he hp => h.attached_parents he hp
  scopes := h.forall₂_scopes
  calls := h.forall₂_calls
  functions := fun _ _ _ _ he hf => eq_of_folded_prototype he hf
  members := fun _ _ _ _ _ he hf =>
    hclasses.no_folded_prototype (fun _ _ _ he hp => h.attached_parents he hp) he hf

end Outline

/-- In C and C++ the declarations of a document are those of its outline with the repeated ones folded
soundly; in other languages nothing is folded. -/
theorem folding_is_sound_compaction (doc : Document) :
    (doc.language.isCFamily = true →
      doc.outline.IsSoundFolding (doc.outline.finish doc.language)) ∧
    (doc.language.isCFamily = false →
      doc.outline.finish doc.language = (doc.outline.attached.map (·.declaration),
        doc.outline.scopes, doc.outline.decoratorCalls)) := by
  refine ⟨fun hfamily => ?_, fun hother => by rw [Outline.finish, hother]; rfl⟩
  have hfold : doc.outline.finish doc.language =
      Outline.fold doc.outline.attached doc.outline := by
    rw [Outline.finish, hfamily]
    rfl
  rw [hfold]
  exact (Outline.sound_outline doc).isSoundFolding (Document.keepsClasses_attached hfamily)

/-- The document of `void g();class A{void f();};void A::f(){struct B{};}void g(){}`. -/
def repeatedDeclarations : Document :=
  let inner (kind : String) (field : Option String) (start stop : Nat) (children : List Tree) :=
    Tree.node { kind := kind, named := true, field := field, start := start, stop := stop } children
  { language := .cpp
    text := "void g();class A{void f();};void A::f(){struct B{};}void g(){}"
    tree :=
      inner "translation_unit" none 0 62
        [inner "declaration" none 0 9
          [inner "primitive_type" (some "type") 0 4 [],
            inner "function_declarator" (some "declarator") 5 8
              [inner "identifier" (some "declarator") 5 6 [],
                inner "parameter_list" (some "parameters") 6 8 []]],
          inner "class_specifier" none 9 27
            [inner "type_identifier" (some "name") 15 16 [],
              inner "field_declaration_list" (some "body") 16 27
                [inner "field_declaration" none 17 26
                  [inner "primitive_type" (some "type") 17 21 [],
                    inner "function_declarator" (some "declarator") 22 25
                      [inner "field_identifier" (some "declarator") 22 23 [],
                        inner "parameter_list" (some "parameters") 23 25 []]]]],
          inner "function_definition" none 28 52
            [inner "primitive_type" (some "type") 28 32 [],
              inner "function_declarator" (some "declarator") 33 39
                [inner "qualified_identifier" (some "declarator") 33 37
                  [inner "namespace_identifier" (some "scope") 33 34 [],
                    inner "identifier" (some "name") 36 37 []],
                  inner "parameter_list" (some "parameters") 37 39 []],
              inner "compound_statement" (some "body") 39 52
                [inner "struct_specifier" none 40 50
                  [inner "type_identifier" (some "name") 47 48 [],
                    inner "field_declaration_list" (some "body") 48 50 []]]],
          inner "function_definition" none 52 62
            [inner "primitive_type" (some "type") 52 56 [],
              inner "function_declarator" (some "declarator") 57 60
                [inner "identifier" (some "declarator") 57 58 [],
                  inner "parameter_list" (some "parameters") 58 60 []],
              inner "compound_statement" (some "body") 60 62 []]] }

/-- The prototype of the function is folded into its definition, and the definition of the method into
its prototype, which the class in the body of the method is moved under. -/
theorem folding_is_sound_compaction_repeated :
    repeatedDeclarations.language.isCFamily = true ∧
    repeatedDeclarations.outline.attached.map (fun e =>
        (e.declaration.name, e.isPrototype, e.declaration.parent)) =
      [("g", true, none), ("A", false, none), ("f", true, some 1), ("f", false, some 1),
        ("B", false, some 3), ("g", false, none)] ∧
    (repeatedDeclarations.outline.finish .cpp).1.map (fun d => (d.name, d.parent)) =
      [("A", none), ("f", some 0), ("B", some 1), ("g", none)] ∧
    repeatedDeclarations.outline.IsSoundFolding (repeatedDeclarations.outline.finish .cpp) :=
  ⟨rfl, by decide, by decide, (folding_is_sound_compaction repeatedDeclarations).1 rfl⟩

end CodeAtlas
