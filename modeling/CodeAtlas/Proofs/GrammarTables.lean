import CodeAtlas.Language.Grammar

/-!
# What the grammar tables keep apart

The tables of the languages are data, and a few proofs rest on what they do not contain: a kind of
call is no wrapper, no literal and no member access; a kind of member access is no literal; only one
language has blocks of methods, and that one has no variables that hold functions. Each is checked
once for all entries of the tables.
-/

namespace CodeAtlas

/-- A kind with a role is listed for it. -/
theorem Grammar.exists_of_role {g : Grammar} {kind : String} {r : Role} (h : g.role kind = r)
    (hrole : r ≠ .other) : ∃ kinds, (r, kinds) ∈ g.roles ∧ kind ∈ kinds := by
  rw [Grammar.role] at h
  cases hfound : g.roles.find? fun entry => entry.2.contains kind with
  | none =>
    rw [hfound] at h
    exact absurd h.symm hrole
  | some entry =>
    rw [hfound] at h
    obtain rfl : entry.1 = r := h
    have hlisted := List.find?_some hfound
    exact ⟨entry.2, List.mem_of_find?_eq_some hfound, List.contains_iff_mem.mp hlisted⟩

/-- A kind that is looked at for its role only. -/
structure Grammar.IsPlain (g : Grammar) (kind : String) : Prop where
  inner : g.inner? kind = none
  literal : g.literal? kind = none
  member : g.member? kind = none

/-- Is this the role of a call of some form? -/
def Role.isCall (r : Role) : Bool := r == .call || r == .constructorCall || r == .macroCall

namespace Language

/-- Calls are no wrappers, no literals and no member accesses. -/
theorem isPlain_of_isCall (lang : Language) {kind : String}
    (h : (lang.grammar.role kind).isCall = true) : lang.grammar.IsPlain kind := by
  have htable : ∀ entry ∈ lang.grammar.roles, entry.1.isCall = true → ∀ kind ∈ entry.2,
      (lang.grammar.inner? kind).isNone = true ∧ (lang.grammar.literal? kind).isNone = true ∧
        (lang.grammar.member? kind).isNone = true := by
    cases lang <;> decide
  have hrole : lang.grammar.role kind ≠ .other := by
    intro hother
    rw [hother] at h
    cases h
  obtain ⟨kinds, hkinds, hkind⟩ := Grammar.exists_of_role rfl hrole
  simp only [Option.isNone_iff_eq_none] at htable
  obtain ⟨hinner, hliteral, hmember⟩ := htable _ hkinds h kind hkind
  exact ⟨hinner, hliteral, hmember⟩

/-- The base class itself is no wrapper, no literal and no member access. -/
theorem isPlain_super (lang : Language) : lang.grammar.IsPlain "super" := by
  cases lang <;> exact ⟨rfl, rfl, rfl⟩

/-- Member accesses are no wrappers and no literals. -/
theorem of_member? (lang : Language) {kind : String} {shape : MemberShape}
    (h : lang.grammar.member? kind = some shape) :
    lang.grammar.inner? kind = none ∧ lang.grammar.literal? kind = none := by
  have htable : ∀ shape ∈ lang.grammar.members,
      (lang.grammar.inner? shape.kind).isNone = true ∧
        (lang.grammar.literal? shape.kind).isNone = true := by
    cases lang <;> decide
  have hkind := List.find?_some h
  obtain rfl : shape.kind = kind := beq_iff_eq.mp hkind
  simpa only [Option.isNone_iff_eq_none] using htable shape (List.mem_of_find?_eq_some h)

/-- A language with blocks of methods has no script variables and is none of the C family. -/
theorem of_implBlock (lang : Language) {kind : String} (h : lang.grammar.role kind = .implBlock) :
    lang.grammar.role "variable_declarator" ≠ .var ∧ lang.isCFamily = false := by
  have htable : ∀ entry ∈ lang.grammar.roles, entry.1 = .implBlock →
      lang.grammar.role "variable_declarator" ≠ .var ∧ lang.isCFamily = false := by
    cases lang <;> decide
  obtain ⟨kinds, hkinds, _⟩ := Grammar.exists_of_role h (by decide)
  exact htable _ hkinds rfl

end Language

end CodeAtlas
