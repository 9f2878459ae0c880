import CodeAtlas.Facts.Extract
import CodeAtlas.Proofs.EvaluationOrder

/-!
# The first error of a tree

Document order lists a node before what is below it, and what is below one child before what is below
a later one. A tree whose nodes are marked exactly when there is an error at or below them shows at
every node in which child the first error lies, so the search goes down from child to child and never
back. It ends at the first node in document order that is an error or missing, errors inside of
errors and missing leaves included.
-/

namespace CodeAtlas

namespace Tree

mutual

/-- The nodes of a tree in document order. -/
def inDocumentOrder : Tree → List Tree
  | node label children => node label children :: rowInDocumentOrder children

/-- The nodes of several trees in document order. -/
def rowInDocumentOrder : List Tree → List Tree
  | [] => []
  | t :: ts => inDocumentOrder t ++ rowInDocumentOrder ts

end

/-- Is the node an error, or inserted where something is missing? -/
def isFaulty (t : Tree) : Bool := t.label.isError || t.label.isMissing

/-- The nodes that are marked are exactly those with an error or missing node at or below them. -/
def MarksErrors (t : Tree) : Prop :=
  ∀ n ∈ t.inDocumentOrder, n.label.hasError = true ↔ ∃ m ∈ n.inDocumentOrder, m.isFaulty = true

variable {t : Tree} {ts : List Tree}

/-- A tree comes before everything below it. -/
theorem inDocumentOrder_eq (t : Tree) :
    t.inDocumentOrder = t :: rowInDocumentOrder t.children := by
  cases t
  rw [inDocumentOrder]
  rfl

/-- The descent ends at a faulty node and otherwise goes on below the node, if there is an error. -/
theorem firstErrorOffset_eq (t : Tree) :
    t.firstErrorOffset = if t.isFaulty then t.label.start
      else (firstErrorBelow t.children).getD t.label.start := by
  cases t
  rw [firstErrorOffset]
  rfl

/-- The nodes of trees in a row are those of the single trees. -/
theorem mem_rowInDocumentOrder {n : Tree} :
    n ∈ rowInDocumentOrder ts ↔ ∃ t ∈ ts, n ∈ t.inDocumentOrder := by
  induction ts with
  | nil => simp [rowInDocumentOrder]
  | cons t ts ih => simp [rowInDocumentOrder, ih]

/-- What is marked exactly in a tree is so below its children. -/
theorem MarksErrors.child {c : Tree} (h : t.MarksErrors) (hc : c ∈ t.children) : c.MarksErrors := by
  intro n hn
  refine h n ?_
  rw [inDocumentOrder_eq]
  exact List.mem_cons_of_mem _ (mem_rowInDocumentOrder.mpr ⟨c, hc, hn⟩)

/-- A root is marked when one of its nodes is faulty. -/
theorem MarksErrors.root (h : t.MarksErrors) :
    t.label.hasError = true ↔ ∃ m ∈ t.inDocumentOrder, m.isFaulty = true := by
  refine h t ?_
  rw [inDocumentOrder_eq]
  exact List.mem_cons_self

/-- The start of the first faulty node of a list. -/
def firstFault? (nodes : List Tree) : Option Nat := (nodes.find? isFaulty).map (·.label.start)

/-- A search of several trees goes on in the first one that is marked. -/
theorem firstErrorBelow_eq (hmarks : ∀ t ∈ ts, t.MarksErrors)
    (hfirst : ∀ t ∈ ts, t.label.hasError = true →
      firstFault? t.inDocumentOrder = some t.firstErrorOffset) :
    firstErrorBelow ts = firstFault? (rowInDocumentOrder ts) := by
  induction ts with
  | nil => rfl
  | cons t ts ih =>
    obtain ⟨hmarked, hmarks⟩ := List.forall_mem_cons.mp hmarks
    obtain ⟨hown, hfirst⟩ := List.forall_mem_cons.mp hfirst
    rw [firstErrorBelow, rowInDocumentOrder, firstFault?, List.find?_append]
    cases hhere : t.label.hasError with
    | true =>
      have hfault := hown hhere
      obtain ⟨n, hn, -⟩ := Option.map_eq_some_iff.mp hfault
      rw [if_pos rfl, ← hfault, firstFault?, hn, Option.some_or]
    | false =>
      have hnone : t.inDocumentOrder.find? isFaulty = none := by
        refine List.find?_eq_none.mpr fun m hm hfaulty => ?_
        have herror := hmarked.root.mpr ⟨m, hm, hfaulty⟩
        rw [hhere] at herror
        cases herror
      rw [if_neg Bool.false_ne_true, ih hmarks hfirst, hnone, Option.none_or, firstFault?]

/-- A search from a marked node ends at the first faulty node at or below it. -/
theorem firstFault?_of_marked (hmarks : t.MarksErrors) (herror : t.label.hasError = true) :
    firstFault? t.inDocumentOrder = some t.firstErrorOffset := by
  induction t using induction_on_children with
  | hstep t ih =>
    have hsearch : firstErrorBelow t.children = firstFault? (rowInDocumentOrder t.children) :=
      firstErrorBelow_eq (fun c hc => hmarks.child hc) fun c hc => ih c hc (hmarks.child hc)
    rw [firstErrorOffset_eq, firstFault?, inDocumentOrder_eq]
    cases hfaulty : t.isFaulty with
    | true => rw [List.find?_cons_of_pos hfaulty, if_pos rfl, Option.map_some]
    | false =>
      -- The error that the node is marked for lies below it, so the search goes on in a child.
      obtain ⟨m, hm, hmfaulty⟩ := hmarks.root.mp herror
      have hbelow : m ∈ rowInDocumentOrder t.children := by
        rw [inDocumentOrder_eq, List.mem_cons] at hm
        refine hm.resolve_left ?_
        rintro rfl
        exact absurd (hfaulty.symm.trans hmfaulty) Bool.false_ne_true
      obtain ⟨n, hn⟩ := Option.isSome_iff_exists.mp (List.find?_isSome.mpr ⟨m, hbelow, hmfaulty⟩)
      rw [List.find?_cons_of_neg (by simp [hfaulty]), if_neg Bool.false_ne_true, hsearch, firstFault?,
        hn]
      rfl

/-- The offset that a tree reports is the start of its first faulty node. -/
theorem errorOffset?_eq (hmarks : t.MarksErrors) :
    t.errorOffset? = firstFault? t.inDocumentOrder := by
  rw [errorOffset?]
  split
  · rename_i herror
    exact (firstFault?_of_marked hmarks herror).symm
  · rename_i herror
    rw [hmarks.root] at herror
    have hnone : t.inDocumentOrder.find? isFaulty = none :=
      List.find?_eq_none.mpr fun m hm hfaulty => herror ⟨m, hm, hfaulty⟩
    rw [firstFault?, hnone, Option.map_none]

end Tree

/-- In a tree that is marked above its errors, extraction fails with the start of the first faulty
node in document order, and reports no offset when no node is faulty. -/
theorem errors_are_reported_where_they_start {t : Tree} (hmarks : t.MarksErrors) :
    (t.errorOffset? = none ↔ ∀ n ∈ t.inDocumentOrder, n.isFaulty = false) ∧
    (∀ offset, t.errorOffset? = some offset ↔ ∃ earlier n later,
      t.inDocumentOrder = earlier ++ n :: later ∧ (∀ m ∈ earlier, m.isFaulty = false) ∧
      n.isFaulty = true ∧ n.label.start = offset) ∧
    (∀ path language text offset, t.errorOffset? = some offset →
      extractSource path language text t = .error (.parse path offset)) ∧
    (∀ path language text, t.errorOffset? = none →
      ∃ facts, extractSource path language text t = .ok facts) := by
  refine ⟨?_, fun offset => ?_, fun path language text offset h => ?_, fun path language text h => ?_⟩
  · rw [Tree.errorOffset?_eq hmarks, Tree.firstFault?, Option.map_eq_none_iff, List.find?_eq_none]
    simp only [Bool.not_eq_true]
  · rw [Tree.errorOffset?_eq hmarks, Tree.firstFault?, Option.map_eq_some_iff]
    simp only [List.find?_eq_some_iff_append, Bool.not_eq_eq_eq_not, Bool.not_true]
    constructor
    · rintro ⟨n, ⟨hfaulty, earlier, later, horder, hearlier⟩, hstart⟩
      exact ⟨earlier, n, later, horder, hearlier, hfaulty, hstart⟩
    · rintro ⟨earlier, n, later, horder, hearlier, hfaulty, hstart⟩
      exact ⟨n, ⟨hfaulty, earlier, later, horder, hearlier⟩, hstart⟩
  · rw [extractSource, h]
  · exact ⟨_, by rw [extractSource, h]⟩

/-- An error inside of an error, behind it a missing token, and one more error. -/
def nestedErrors : Tree :=
  let error (start stop : Nat) := Tree.node
    { kind := "ERROR", named := true, start := start, stop := stop, hasError := true, isError := true }
  let name (start stop : Nat) := Tree.node
    { kind := "identifier", named := true, start := start, stop := stop } []
  .node { kind := "program", named := true, start := 0, stop := 13, hasError := true }
    [name 0 1,
      .node { kind := "expression_statement", named := true, start := 2, stop := 9, hasError := true }
        [name 2 3, error 4 9 [name 5 6, error 7 8 []],
          .node { kind := ";", named := false, start := 9, stop := 9, hasError := true,
                  isMissing := true } []],
      error 10 13 []]

/-- Of nested errors the outer one is reported, which starts first. -/
theorem errors_are_reported_where_they_start_nested :
    nestedErrors.MarksErrors ∧ nestedErrors.errorOffset? = some 4 ∧
      extractSource ⟨"a.js"⟩ .javaScript "a b (c @) %%%" nestedErrors =
        .error (.parse ⟨"a.js"⟩ 4) := by
  have hmarks : nestedErrors.MarksErrors := by
    unfold Tree.MarksErrors
    decide
  obtain ⟨_, hsome, hfails, _⟩ := errors_are_reported_where_they_start hmarks
  have hoffset : nestedErrors.errorOffset? = some 4 :=
    (hsome 4).mpr ⟨nestedErrors.inDocumentOrder.take 4, _, nestedErrors.inDocumentOrder.drop 5, rfl,
      by decide, rfl, rfl⟩
  exact ⟨hmarks, hoffset, hfails _ _ _ _ hoffset⟩

end CodeAtlas
