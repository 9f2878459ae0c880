import CodeAtlas.Graph.Calls
import Mathlib.Order.Hom.Basic

/-!
# Renumbering records

Two tables are laid out in blocks, one with all blocks and one with some of them. The position of a
record in the smaller table determines the one in the larger table: the blocks that were left out
before it are added. Positions behind all blocks correspond as well, so a renumbering is defined on
every number, and it keeps the order strictly.

Records refer to each other by number, so renumbering a record means renumbering all that it refers
to.
-/

namespace CodeAtlas

/-- The position among all blocks that corresponds to a position among the marked ones. A block is a
mark and a length. -/
def spread : List (Bool × Nat) → Nat → Nat
  | [], i => i
  | (true, n) :: rest, i => if i < n then i else n + spread rest (i - n)
  | (false, n) :: rest, i => n + spread rest i

/-- Positions are spread in their order. -/
theorem spread_strictMono (blocks : List (Bool × Nat)) : StrictMono (spread blocks) := by
  induction blocks with
  | nil => exact strictMono_id
  | cons block rest ih =>
    obtain ⟨marked, n⟩ := block
    intro i j hless
    cases marked with
    | false => exact Nat.add_lt_add_left (ih hless) n
    | true =>
      have hrest : ¬ i < n → spread rest (i - n) < spread rest (j - n) := fun hi => ih (by omega)
      simp only [spread]
      split <;> split <;> omega

/-- From the ends of two tables on, positions are spread over the blocks that are still to come. -/
def Fits (up : Nat → Nat) (small large : Nat) (blocks : List (Bool × Nat)) : Prop :=
  ∀ i, up (small + i) = large + spread blocks i

namespace Fits

variable {up : Nat → Nat} {small large n : Nat} {rest : List (Bool × Nat)}

/-- A block that comes next to both tables is moved as a whole. -/
theorem own (h : Fits up small large ((true, n) :: rest)) {i : Nat} (hi : i < n) :
    up (small + i) = large + i := by
  rw [h i, spread, if_pos hi]

/-- A block can be added to both tables. -/
theorem both (h : Fits up small large ((true, n) :: rest)) :
    Fits up (small + n) (large + n) rest := by
  intro i
  rw [Nat.add_assoc, h (n + i), spread, if_neg (by omega), Nat.add_sub_cancel_left]
  omega

/-- A block can be added to the larger table only. -/
theorem larger (h : Fits up small large ((false, n) :: rest)) : Fits up small (large + n) rest := by
  intro i
  rw [h i, spread]
  omega

/-- Positions behind the smaller table are behind the larger one. -/
theorem le_of_le {blocks : List (Bool × Nat)} (h : Fits up small large blocks) {i : Nat}
    (hi : small ≤ i) : large ≤ up i := by
  obtain ⟨k, rfl⟩ := Nat.exists_eq_add_of_le hi
  rw [h k]
  exact Nat.le_add_right _ _

end Fits

/-- An order-preserving renumbering of modules, symbols, imports and calls. -/
structure Renumbering where
  onModules : Nat ↪o Nat
  onSymbols : Nat ↪o Nat
  onImports : Nat ↪o Nat
  onCalls : Nat ↪o Nat

/-- The renumbering of records in blocks. -/
def Renumbering.ofBlocks (modules symbols imports calls : List (Bool × Nat)) : Renumbering where
  onModules := .ofStrictMono (spread modules) (spread_strictMono modules)
  onSymbols := .ofStrictMono (spread symbols) (spread_strictMono symbols)
  onImports := .ofStrictMono (spread imports) (spread_strictMono imports)
  onCalls := .ofStrictMono (spread calls) (spread_strictMono calls)

variable (up : Renumbering)

/-- A module under other numbers. -/
def Module.renumber (m : Module) : Module :=
  { m with id := up.onModules m.id, symbols := m.symbols.map up.onSymbols }

/-- A symbol under other numbers. -/
def Symbol.renumber (s : Symbol) : Symbol :=
  { s with
    id := up.onSymbols s.id
    module := up.onModules s.module
    parent := s.parent.map up.onSymbols
    children := s.children.map up.onSymbols }

/-- The status of an import under other numbers. -/
def ImportStatus.renumber : ImportStatus → ImportStatus
  | .resolved m => .resolved (up.onModules m)
  | .unresolved => .unresolved
  | .external => .external

/-- The binding of an import under other numbers. -/
def ImportBinding.renumber : ImportBinding → ImportBinding
  | .module id => .module (up.onModules id)
  | .symbol id => .symbol (up.onSymbols id)

/-- An import under other numbers. -/
def ImportEdge.renumber (e : ImportEdge) : ImportEdge :=
  { e with
    id := up.onImports e.id
    module := up.onModules e.module
    status := e.status.renumber up
    binding := e.binding.map (ImportBinding.renumber up)
    expandedFrom := e.expandedFrom.map up.onImports }

/-- The target of a call under other numbers. -/
def CallTarget.renumber : CallTarget → CallTarget
  | .symbol id => .symbol (up.onSymbols id)
  | .unresolved => .unresolved
  | .builtin name => .builtin name
  | .external name => .external name

/-- A call under other numbers. -/
def CallEdge.renumber (c : CallEdge) : CallEdge :=
  { c with
    id := up.onCalls c.id
    module := up.onModules c.module
    caller := c.caller.map up.onSymbols
    target := c.target.renumber up
    decorates := c.decorates.map up.onSymbols }

/-- A diagnostic under other numbers. -/
def Diagnostic.renumber (d : Diagnostic) : Diagnostic := { d with module := up.onModules d.module }

/-- A meaning under other numbers. -/
def Meaning.renumber : Meaning → Meaning
  | .symbol id => .symbol (up.onSymbols id)
  | .module id => .module (up.onModules id)
  | .external name => .external name
  | .builtin name => .builtin name
  | .unknown => .unknown

/-- The kind and the target of a call under other numbers. -/
def Tables.Linked.renumber (linked : Tables.Linked) : Tables.Linked :=
  (linked.1, linked.2.renumber up)

/-- What has been judged under other numbers, with the doubts about it. -/
def Tables.renumbered {α β : Type} (change : α → β) (judged : Judged α) : Judged β :=
  (change judged.1, judged.2.map (Diagnostic.renumber up))

variable {up}

/-- Only a resolved status is renumbered into one. -/
theorem ImportStatus.renumber_eq_resolved {status : ImportStatus} {m : Nat}
    (h : status.renumber up = .resolved m) : ∃ i, status = .resolved i ∧ up.onModules i = m := by
  cases status with
  | resolved i => exact ⟨i, rfl, ImportStatus.resolved.inj h⟩
  | unresolved => cases h
  | external => cases h

/-- Only the binding of a module is renumbered into one. -/
theorem ImportBinding.renumber_eq_module {binding : ImportBinding} {m : Nat}
    (h : binding.renumber up = .module m) : ∃ i, binding = .module i ∧ up.onModules i = m := by
  cases binding with
  | module i => exact ⟨i, rfl, ImportBinding.module.inj h⟩
  | symbol i => cases h

/-- Only the binding of a symbol is renumbered into one. -/
theorem ImportBinding.renumber_eq_symbol {binding : ImportBinding} {id : Nat}
    (h : binding.renumber up = .symbol id) : ∃ i, binding = .symbol i ∧ up.onSymbols i = id := by
  cases binding with
  | module i => cases h
  | symbol i => exact ⟨i, rfl, ImportBinding.symbol.inj h⟩

/-- Only a symbol is renumbered into one. -/
theorem CallTarget.renumber_eq_symbol {target : CallTarget} {id : Nat}
    (h : target.renumber up = .symbol id) : ∃ i, target = .symbol i ∧ up.onSymbols i = id := by
  cases target with
  | symbol i => exact ⟨i, rfl, CallTarget.symbol.inj h⟩
  | unresolved => cases h
  | builtin name => cases h
  | external name => cases h

end CodeAtlas
