import CodeAtlas.Proofs.Enclosure

/-!
# What is recorded at a stop

Every entry of an outline was recorded at one stop, and there are five forms of it: a function or
class, a variable of the module, a prototype, a script variable that holds a function and a named
aggregate. What is said here of each form, with the conditions under which it is recorded, is all that
later proofs need to know of the walk.
-/

namespace CodeAtlas

namespace Document

variable {doc : Document} {s : Stop} {p : List Nat} {k : Nat} {e : Entry} {env : Surroundings}
  {out out' : Outline} {earlier : List Entry}

/-- What an entry can be that is recorded in given surroundings after earlier ones. -/
inductive IsNew (doc : Document) (env : Surroundings) (earlier : List Entry) (e : Entry) : Prop
  | declared {t : Tree} {decorators : List Decorator} {header : Header}
      (hheader : doc.header? t = some header)
      (hentry : e = ⟨doc.declarationOf t env decorators header, false⟩)
  | moduleVariable (hlevel : env.atModuleLevel = true) (hbody : e.isPrototype = false)
      (hkind : e.declaration.kind = .var) (hparent : e.declaration.parent = none)
      (howner : e.declaration.owner = none)
      (hfresh : ∀ other ∈ earlier, other.declaration.kind = .var →
        other.declaration.name ≠ e.declaration.name)
  | prototype {declared : DeclaredName} (hplace : (env.inClass || env.atModuleLevel) = true)
      (hbody : e.isPrototype = true)
      (hkind : e.declaration.kind =
        if env.inClass || declared.owner.isSome then .method else .function)
      (hparent : e.declaration.parent = env.enclosing)
      (howner : e.declaration.owner = declared.owner)
  | functionValue (hbody : e.isPrototype = false) (hkind : e.declaration.kind = .function)
      (hparent : e.declaration.parent = env.enclosing) (howner : e.declaration.owner = none)
  | aggregate (hbody : e.isPrototype = false) (hkind : e.declaration.kind = .classLike)
      (hparent : e.declaration.parent = env.enclosing) (howner : e.declaration.owner = none)

/-- An outline grows in given surroundings. -/
structure Grows (doc : Document) (env : Surroundings) (out out' : Outline) : Prop where
  prior : out.entries <+: out'.entries
  new : ∀ k e, out.next ≤ k → out'.entries[k]? = some e →
    doc.IsNew env (out'.entries.take k) e

/-- An outline with the same entries has not grown. -/
theorem Grows.of_same (h : out'.entries = out.entries) : doc.Grows env out out' := by
  refine ⟨⟨[], by rw [List.append_nil, h]⟩, fun k e hk he => ?_⟩
  have hless := (List.getElem?_eq_some_iff.mp he).1
  rw [h] at hless
  exact absurd hless (Nat.not_lt.mpr hk)

/-- Growing by one more entry. -/
theorem Grows.add {last : Outline} (h : doc.Grows env out out')
    (hentries : last.entries = out'.entries ++ [e]) (he : doc.IsNew env out'.entries e) :
    doc.Grows env out last := by
  refine ⟨hentries ▸ h.prior.trans (List.prefix_append _ _), fun k other hk hother => ?_⟩
  rw [hentries] at hother ⊢
  rcases Nat.lt_or_ge k out'.entries.length with hless | hge
  · rw [List.getElem?_append_left hless] at hother
    rw [List.take_append_of_le_length (Nat.le_of_lt hless)]
    exact h.new k other hk hother
  · have hlast := (List.getElem?_eq_some_iff.mp hother).1
    rw [List.length_append, List.length_singleton] at hlast
    obtain rfl : k = out'.entries.length := by omega
    rw [List.getElem?_concat_length] at hother
    rw [List.take_left, ← Option.some.inj hother]
    exact he

/-- A variable is recorded at the level of the module, under a name that is not taken. -/
theorem Grows.addVariable (h : doc.Grows env out out') (t : Tree) (name : String) :
    doc.Grows env out (doc.addVariable t env out' name) := by
  rw [Document.addVariable]
  split
  · exact h
  · rename_i hguard
    simp only [Bool.or_eq_true, Bool.not_eq_true', not_or, Bool.not_eq_false, Bool.not_eq_true]
      at hguard
    refine h.add rfl (.moduleVariable hguard.1 rfl rfl rfl rfl fun other hother hkind hname => ?_)
    have htaken : out'.hasVariable name = true := by
      rw [Outline.hasVariable, List.any_eq_true]
      exact ⟨other, hother, by simp [hkind, hname, profiled]⟩
    cases hguard.2.symm.trans htaken

/-- A declarator is recorded as a prototype or as a variable. -/
theorem Grows.addDeclarator (h : doc.Grows env out out') (t declarator : Tree)
    (hplace : (env.inClass || env.atModuleLevel) = true) :
    doc.Grows env out (doc.addDeclarator t env out' declarator) := by
  rw [Document.addDeclarator]
  split
  · exact h.add rfl (.prototype hplace rfl rfl rfl rfl)
  · split
    · cases doc.declaratorIdentifier? declarator with
      | none => exact h
      | some name => exact h.addVariable t name
    · exact h

/-- Recording the variables and prototypes of a node lets the outline grow. -/
theorem grows_addVariables (t : Tree) (env : Surroundings) (out : Outline) :
    doc.Grows env out (doc.addVariables t env out) := by
  have hsame : doc.Grows env out out := .of_same rfl
  have hdeclarators (hplace : (env.inClass || env.atModuleLevel) = true) :
      doc.Grows env out ((t.inFields "declarator").foldl (doc.addDeclarator t env) out) :=
    List.foldlRecOn _ _ hsame fun acc h declarator _ => h.addDeclarator t declarator hplace
  rw [addVariables]
  split
  · split
    · exact hdeclarators (by assumption)
    · exact hsame
  · split
    · exact hdeclarators (by assumption)
    · exact hsame
  · exact List.foldlRecOn _ _ hsame fun acc h name _ => h.addVariable t name

/-- At a stop the outline grows in its surroundings. -/
theorem grows_recorded (s : Stop) : doc.Grows s.env s.found (doc.recorded s) := by
  have hsame : doc.Grows s.env s.found s.found := .of_same rfl
  rw [recorded]
  cases hevent : doc.eventAt s with
  | passed | hidden => exact hsame
  | declared decorators header =>
    exact hsame.add rfl (.declared (plan_declared hevent).2 rfl)
  | aggregate => exact hsame.add rfl (.aggregate rfl rfl rfl rfl)
  | functionValue => exact hsame.add rfl (.functionValue rfl rfl rfl rfl)
  | names => exact grows_addVariables s.node s.env s.found
  | methods =>
    refine .of_same ?_
    rw [Event.record, addTrait]
    split <;> rfl

/-- An entry is recorded at a stop. -/
structure RecordedAt (doc : Document) (k : Nat) (e : Entry) (p : List Nat) (s : Stop) : Prop where
  comes : doc.Comes doc.start p s
  after : s.found.next ≤ k
  entry : (doc.recorded s).entries[k]? = some e

/-- The outline starts with what had been found after a stop. -/
theorem Comes.exists_later (h : doc.Comes doc.start p s) :
    ∃ later, doc.outline.entries = (doc.recorded s).entries ++ later := by
  obtain ⟨later, hlater⟩ := h.entries
  exact ⟨later, hlater.symm⟩

/-- What is recorded at a stop is an entry of the outline. -/
theorem RecordedAt.getElem? (h : doc.RecordedAt k e p s) : doc.outline.entries[k]? = some e := by
  obtain ⟨later, houtline⟩ := h.comes.exists_later
  have hless := (List.getElem?_eq_some_iff.mp h.entry).1
  rw [houtline, List.getElem?_append_left hless]
  exact h.entry

/-- What is recorded at a stop is new there. -/
theorem RecordedAt.isNew (h : doc.RecordedAt k e p s) :
    doc.IsNew s.env (doc.outline.entries.take k) e := by
  obtain ⟨later, houtline⟩ := h.comes.exists_later
  have hless := (List.getElem?_eq_some_iff.mp h.entry).1
  rw [houtline, List.take_append_of_le_length (Nat.le_of_lt hless)]
  exact (grows_recorded s).new k e h.after h.entry

/-- What is found along legs is found on one of them. -/
theorem exists_leg_found {legs : List Leg} {found : Outline} (hafter : found.next ≤ k)
    (hbefore : k < (legs.foldl (fun found leg => doc.final (doc.toward s leg found)) found).next) :
    ∃ i next, (i, next) ∈ doc.stopsAlong s legs found ∧ next.found.next ≤ k ∧
      k < (doc.final next).next := by
  induction legs generalizing found with
  | nil => exact absurd hbefore (Nat.not_lt.mpr hafter)
  | cons leg legs ih =>
    rcases Nat.lt_or_ge k (doc.final (doc.toward s leg found)).next with hless | hge
    · exact ⟨_, _, List.mem_cons_self, hafter, hless⟩
    · obtain ⟨i, next, hnext, hfound⟩ := ih hge hbefore
      exact ⟨i, next, List.mem_cons_of_mem _ hnext, hfound⟩

/-- What is found below a stop is recorded at a stop below it. -/
theorem exists_stop_found (s : Stop) (hafter : s.found.next ≤ k) (hbefore : k < (doc.final s).next) :
    ∃ p last, doc.Comes s p last ∧ last.found.next ≤ k ∧ k < (doc.recorded last).next := by
  obtain ⟨env, visit, node, found⟩ := s
  induction node using Tree.induction_on_children generalizing env visit found with
  | hstep t ih =>
  set s : Stop := ⟨env, visit, t, found⟩
  rcases Nat.lt_or_ge k (doc.recorded s).next with hless | hge
  · exact ⟨[], s, .here, hafter, hless⟩
  · rw [final_eq] at hbefore
    obtain ⟨i, next, hnext, hstart, hend⟩ := exists_leg_found hge hbefore
    obtain ⟨p, last, hcomes, hfound⟩ := ih next.node
      (List.mem_of_getElem? (child_of_mem_stopsBelow hnext)) next.env next.visit next.found hstart hend
    exact ⟨i :: p, last, .onward hnext hcomes, hfound⟩

/-- Every entry of an outline is recorded at a stop. -/
theorem exists_recordedAt (h : doc.outline.entries[k]? = some e) : ∃ p s, doc.RecordedAt k e p s := by
  have hless := (List.getElem?_eq_some_iff.mp h).1
  obtain ⟨p, s, hcomes, hafter, hbefore⟩ := exists_stop_found doc.start (Nat.zero_le k) hless
  refine ⟨p, s, hcomes, hafter, ?_⟩
  obtain ⟨other, hother⟩ : ∃ other, (doc.recorded s).entries[k]? = some other :=
    ⟨_, List.getElem?_eq_getElem hbefore⟩
  have hsame := RecordedAt.getElem? ⟨hcomes, hafter, hother⟩
  rw [hother, ← hsame, h]

end Document

end CodeAtlas
