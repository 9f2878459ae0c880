import CodeAtlas.Path
import Mathlib.Data.List.Lex
import Mathlib.Data.Prod.Lex
import Mathlib.Data.String.Basic

/-!
# The order of paths

Paths are compared by their components alone. A component is determined by its rank, ranks are
ordered lexicographically, and so are lists of them; the comparison of paths is that linear order
read back. It is total and transitive, and two paths that precede each other have the same
components.
-/

namespace CodeAtlas.Path

/-- The rank of a component as a member of a linear order. -/
def Component.key (c : Component) : ℕ ×ₗ String := toLex c.rank

/-- Components with the same rank are the same. -/
theorem Component.key_injective : Function.Injective Component.key := by
  intro a b h
  have hrank : a.rank = b.rank := toLex.injective h
  cases a <;> cases b <;> simp_all [Component.rank]

/-- One component comes before another exactly when its rank does. -/
theorem Component.before_iff (a b : Component) : a.before b = true ↔ a.key < b.key := by
  simp [Component.before, Component.key, Prod.Lex.toLex_lt_toLex]

/-- Comparing lists of components compares the lists of their ranks. -/
theorem componentsLe_iff (as bs : List Component) :
    componentsLe as bs = true ↔ as.map Component.key ≤ bs.map Component.key := by
  induction as generalizing bs with
  | nil =>
    cases bs with
    | nil => simp [componentsLe]
    | cons b bs => simp [componentsLe, le_iff_lt_or_eq]
  | cons a as ih =>
    cases bs with
    | nil => simp [componentsLe]
    | cons b bs =>
      simp only [componentsLe, Bool.or_eq_true, Bool.and_eq_true, beq_iff_eq, ih,
        Component.before_iff, List.map_cons, le_iff_lt_or_eq, List.cons_lt_cons_iff,
        List.cons.injEq, Component.key_injective.eq_iff]
      tauto

/-- The components of a path as a member of a linear order. -/
def key (p : Path) : List (ℕ ×ₗ String) := p.components.map Component.key

/-- Comparing paths compares their keys. -/
theorem le_iff (p q : Path) : p.le q = true ↔ p.key ≤ q.key := componentsLe_iff _ _

/-- Paths have the same components exactly when they have the same key. -/
theorem same_iff (p q : Path) : p.same q = true ↔ p.key = q.key := by
  rw [same, beq_iff_eq, key, key, (List.map_injective_iff.mpr Component.key_injective).eq_iff]

/-- The order of paths is total. -/
theorem le_total (p q : Path) : (p.le q || q.le p) = true := by
  rw [Bool.or_eq_true, le_iff, le_iff]
  exact LinearOrder.le_total p.key q.key

/-- The order of paths is transitive. -/
theorem le_trans (p q r : Path) (hpq : p.le q = true) (hqr : q.le r = true) : p.le r = true := by
  rw [le_iff] at *
  exact Preorder.le_trans _ _ _ hpq hqr

end CodeAtlas.Path
