import CodeAtlas.Graph.Query
import CodeAtlas.Proofs.Climb

/-!
# Well-formed facts and consistent records

The facts of a file are well formed when every position they mention is one of the file's own
declarations and every climb along parent links ends.

The records of a unit are consistent when each record stands at the position it carries as its
identity, every reference leads to an existing record of the right module, and the lists of
children and of top-level symbols hold exactly the symbols that name their parent, in increasing
order. Linking adds two demands: a derived import points back to a written wildcard of the same
module that has been resolved, and a call that leads to a symbol leads to an existing one.
-/

namespace CodeAtlas

/-- The positions in the facts of a file lead to its own declarations, and climbs end. -/
structure FileFacts.WellFormed (file : FileFacts) : Prop where
  parents : ∀ d ∈ file.declarations, ∀ p, d.parent = some p → p < file.declarations.length
  callers : ∀ c ∈ file.calls, ∀ p, c.caller = some p → p < file.declarations.length
  decorated : ∀ c ∈ file.calls, ∀ p, c.decorates = some p → p < file.declarations.length
  climbs : ∀ i < file.declarations.length,
    ∃ chain, Climb (parentAt file.declarations) (some i) chain

/-- A file whose declarations have parentless parents, and that has no calls, is well formed. -/
theorem FileFacts.wellFormed_of_shallow {file : FileFacts}
    (hparents : ∀ d ∈ file.declarations, ∀ p, d.parent = some p →
      parentAt file.declarations p = some none) (hcalls : file.calls = []) : file.WellFormed where
  parents := fun d hd p hp => lt_of_parentAt (hparents d hd p hp)
  callers := by simp [hcalls]
  decorated := by simp [hcalls]
  climbs := by
    intro i hi
    have hget : parentAt file.declarations i = some file.declarations[i].parent := by
      rw [parentAt, List.getElem?_eq_getElem hi, Option.map_some]
    cases hparent : file.declarations[i].parent with
    | none => exact ⟨[i], .step (hparent ▸ hget) .done⟩
    | some p =>
      have hnone := hparents _ (List.getElem_mem hi) p hparent
      exact ⟨[i, p], .step (hparent ▸ hget) (.step hnone .done)⟩

/-- A file of parentless declarations and no calls is well formed. -/
theorem FileFacts.wellFormed_of_flat {file : FileFacts}
    (hparents : ∀ d ∈ file.declarations, d.parent = none) (hcalls : file.calls = []) :
    file.WellFormed :=
  wellFormed_of_shallow (fun d hd p hp => by simp [hparents d hd] at hp) hcalls

/-- A list holds exactly the numbers with a property, in increasing order. -/
structure Enumerates (ids : List Nat) (p : Nat → Prop) : Prop where
  increasing : ids.Pairwise (· < ·)
  mem_iff : ∀ id, id ∈ ids ↔ p id

/-- Every record stands at the position that it carries as its identity. -/
def Numbered {α : Type} (identity : α → Nat) (records : List α) : Prop :=
  ∀ i record, records[i]? = some record → identity record = i

/-- Modules and symbols refer to each other consistently. -/
structure SymbolRecords (modules : List Module) (symbols : List Symbol) : Prop where
  modulesNumbered : Numbered Module.id modules
  symbolsNumbered : Numbered Symbol.id symbols
  inModule : ∀ s ∈ symbols, s.module < modules.length
  parents : ∀ s ∈ symbols, ∀ p, s.parent = some p →
    ∃ around, symbols[p]? = some around ∧ around.module = s.module
  children : ∀ i s, symbols[i]? = some s → Enumerates s.children fun c =>
    ∃ child, symbols[c]? = some child ∧ child.parent = some i
  topLevels : ∀ i m, modules[i]? = some m → Enumerates m.symbols fun c =>
    ∃ s, symbols[c]? = some s ∧ s.module = i ∧ s.parent = none

/-- Does the binding of an import lead to an existing record? -/
def ImportBinding.Exists (modules : List Module) (symbols : List Symbol) : ImportBinding → Prop
  | .module id => id < modules.length
  | .symbol id => id < symbols.length

/-- Imports refer to existing records, and derived ones to the wildcard they come from. -/
structure ImportRecords (modules : List Module) (symbols : List Symbol)
    (imports : List ImportEdge) : Prop where
  numbered : Numbered ImportEdge.id imports
  importers : ∀ e ∈ imports, e.module < modules.length
  resolved : ∀ e ∈ imports, ∀ m, e.status = .resolved m → m < modules.length
  bindings : ∀ e ∈ imports, ∀ b, e.binding = some b → b.Exists modules symbols
  derived : ∀ e ∈ imports, ∀ w, e.expandedFrom = some w →
    ∃ wildcard, imports[w]? = some wildcard ∧ wildcard.expandedFrom = none ∧
      wildcard.name = .wildcard ∧ (∃ m, wildcard.status = .resolved m) ∧
      wildcard.module = e.module

/-- Calls refer to symbols of their own module, and lead to existing symbols. -/
structure CallRecords (modules : List Module) (symbols : List Symbol)
    (calls : List CallEdge) : Prop where
  numbered : Numbered CallEdge.id calls
  inModule : ∀ c ∈ calls, c.module < modules.length
  callers : ∀ c ∈ calls, ∀ p, c.caller = some p →
    ∃ s, symbols[p]? = some s ∧ s.module = c.module
  decorated : ∀ c ∈ calls, ∀ p, c.decorates = some p →
    ∃ s, symbols[p]? = some s ∧ s.module = c.module
  targets : ∀ c ∈ calls, ∀ p, c.target = .symbol p → p < symbols.length

/-- All records of a unit refer to each other consistently. -/
structure Snapshot.Consistent (r : Snapshot) : Prop where
  symbols : SymbolRecords r.modules r.symbols
  imports : ImportRecords r.modules r.symbols r.imports
  calls : CallRecords r.modules r.symbols r.calls

/-- The records that a graph frozen now would hold. -/
def Tables.records (tables : Tables) : Snapshot := (Graph.ofTables tables).records

/-- Appended records keep the numbering when their own starts where the old one ends. -/
theorem Numbered.append {α : Type} {identity : α → Nat} {old new : List α}
    (hold : Numbered identity old)
    (hnew : ∀ i record, new[i]? = some record → identity record = old.length + i) :
    Numbered identity (old ++ new) := by
  intro i record hget
  rcases Nat.lt_or_ge i old.length with hlt | hge
  · rw [List.getElem?_append_left hlt] at hget
    exact hold i record hget
  · rw [List.getElem?_append_right hge] at hget
    rw [hnew _ record hget]
    omega

/-- Changing records without their identities keeps the numbering. -/
theorem Numbered.map {α : Type} {identity : α → Nat} {records : List α} (change : α → α)
    (hsame : ∀ record, identity (change record) = identity record)
    (h : Numbered identity records) : Numbered identity (records.map change) := by
  intro i record hget
  rw [List.getElem?_map] at hget
  obtain ⟨old, hold, rfl⟩ := Option.map_eq_some_iff.mp hget
  rw [hsame]
  exact h i old hold

/-- A record of a numbered list is found at its identity. -/
theorem Numbered.getElem?_of_mem {α : Type} {identity : α → Nat} {records : List α}
    (h : Numbered identity records) {record : α} (hmem : record ∈ records) :
    records[identity record]? = some record := by
  obtain ⟨i, hget⟩ := List.mem_iff_getElem?.mp hmem
  rw [h i record hget]
  exact hget

/-- The identity of a record of a numbered list is in range. -/
theorem Numbered.lt_of_mem {α : Type} {identity : α → Nat} {records : List α}
    (h : Numbered identity records) {record : α} (hmem : record ∈ records) :
    identity record < records.length :=
  (List.getElem?_eq_some_iff.mp (h.getElem?_of_mem hmem)).1

end CodeAtlas
