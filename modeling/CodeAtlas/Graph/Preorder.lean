/-!
# Depth-first order

The order in which a depth-first search meets the nodes of a finite directed graph. The nodes that
have not been met yet are listed, which bounds the search: each step either meets one of them or
takes a node off the stack.
-/

namespace CodeAtlas

/-- The nodes met from a stack of pending nodes, in pre-order; the successors of a node come before
what was pending, and only nodes that are still `fresh` are met. -/
def preorder (next : Nat → List Nat) (fresh stack : List Nat) : List Nat :=
  match stack with
  | [] => []
  | x :: rest =>
    if x ∈ fresh then x :: preorder next (fresh.erase x) (next x ++ rest)
    else preorder next fresh rest
termination_by (fresh.length, stack.length)
decreasing_by
  · rename_i h
    have := List.length_pos_of_mem h
    rw [List.length_erase_of_mem h]
    exact Prod.Lex.left _ _ (by omega)
  · exact Prod.Lex.right _ (by simp)

end CodeAtlas
