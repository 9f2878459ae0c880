import CodeAtlas.Facts.Outline
import Mathlib.Logic.Relation

/-!
# What a walk records

A walk over a tree changes its outline in single steps, and there are only six kinds of them: a
function or class, a variable, a prototype, a script variable that holds a function, a named
aggregate, and an implemented trait. Every step is taken in surroundings whose enclosing declaration
has been recorded before. What each kind of step keeps is therefore kept by the whole walk.
-/

namespace CodeAtlas

/-- The enclosing declaration has been recorded. -/
def Surroundings.Fits (env : Surroundings) (out : Outline) : Prop :=
  ∀ index, env.enclosing = some index → index < out.entries.length

namespace Document

/-- What can be recorded at a node. -/
inductive Records (doc : Document) (env : Surroundings) (out : Outline) : Outline → Prop
  | declared (t : Tree) (decorators : List Tree) (header : Header) :
      Records doc env out (doc.addDeclared t env decorators header out)
  | moduleVariable (t : Tree) (name : String) :
      Records doc env out (doc.addVariable t env out name)
  | prototype (t function : Tree) (declared : DeclaredName) :
      Records doc env out (doc.addPrototype t env function declared out)
  | functionValue (t value : Tree) (name : String) :
      Records doc env out (doc.addFunctionValue t value env name out)
  | aggregate (t aggregate : Tree) (name : String) :
      Records doc env out (doc.addAggregate t aggregate env name out)
  | trait (t : Tree) : Records doc env out (doc.addTrait t out)

/-- One step of a walk, in surroundings that fit what has been found. -/
def Step (doc : Document) (out out' : Outline) : Prop :=
  ∃ env : Surroundings, env.Fits out ∧ doc.Records env out out'

/-- Any number of steps of a walk. -/
def Steps (doc : Document) : Outline → Outline → Prop := Relation.ReflTransGen doc.Step

variable {doc : Document} {env : Surroundings} {out out' : Outline}

/-- A step only appends entries. -/
theorem Records.entries (h : doc.Records env out out') :
    ∃ new, out'.entries = out.entries ++ new := by
  cases h with
  | declared | prototype | functionValue | aggregate => exact ⟨_, rfl⟩
  | moduleVariable t name =>
    rw [addVariable]
    split
    · exact ⟨[], (List.append_nil _).symm⟩
    · exact ⟨_, rfl⟩
  | trait t =>
    rw [addTrait]
    split <;> exact ⟨[], (List.append_nil _).symm⟩

/-- Steps only append entries. -/
theorem Steps.entries (h : doc.Steps out out') : ∃ new, out'.entries = out.entries ++ new := by
  induction h with
  | refl => exact ⟨[], (List.append_nil _).symm⟩
  | tail _ hstep ih =>
    obtain ⟨first, hfirst⟩ := ih
    obtain ⟨_, _, hrecords⟩ := hstep
    obtain ⟨second, hsecond⟩ := hrecords.entries
    exact ⟨first ++ second, by rw [hsecond, hfirst, List.append_assoc]⟩

/-- Surroundings that fit go on fitting. -/
theorem fits_mono (hfits : env.Fits out) (h : doc.Steps out out') : env.Fits out' := by
  intro index hindex
  obtain ⟨new, hnew⟩ := h.entries
  have hold := hfits index hindex
  rw [hnew, List.length_append]
  omega

/-- Inside of an entry that has just been recorded, the surroundings fit. -/
theorem fits_inside (e : Entry) (hentries : out'.entries = out.entries ++ [e])
    {env' : Surroundings} (henclosing : env'.enclosing = some out.next) : env'.Fits out' := by
  intro index hindex
  have hlast : index = out.entries.length := Option.some.inj (hindex.symm.trans henclosing)
  rw [hentries, hlast, List.length_append]
  exact Nat.lt_succ_self _

/-- Recording in fitting surroundings is a step. -/
theorem Records.steps (hfits : env.Fits out) (h : doc.Records env out out') : doc.Steps out out' :=
  Relation.ReflTransGen.single ⟨env, hfits, h⟩

/-- Folding over recordings takes steps. -/
theorem steps_foldl {α : Type} (record : Outline → α → Outline)
    (hrecord : ∀ out a, env.Fits out → doc.Steps out (record out a)) (items : List α)
    (hfits : env.Fits out) : doc.Steps out (items.foldl record out) := by
  induction items generalizing out with
  | nil => exact Relation.ReflTransGen.refl
  | cons a items ih =>
    have hfirst := hrecord out a hfits
    exact hfirst.trans (ih (fits_mono hfits hfirst))

/-- Recording the variables and prototypes of a node takes steps. -/
theorem addVariables_steps (t : Tree) (hfits : env.Fits out) :
    doc.Steps out (doc.addVariables t env out) := by
  have hvariable (name : String) (out : Outline) (hfits : env.Fits out) :
      doc.Steps out (doc.addVariable t env out name) := (Records.moduleVariable t name).steps hfits
  have hdeclarator (out : Outline) (declarator : Tree) (hfits : env.Fits out) :
      doc.Steps out (doc.addDeclarator t env out declarator) := by
    rw [addDeclarator]
    split
    · exact (Records.prototype t _ _).steps hfits
    · split
      · cases doc.declaratorIdentifier? declarator with
        | none => exact Relation.ReflTransGen.refl
        | some name => exact hvariable name out hfits
      · exact Relation.ReflTransGen.refl
  have hfold := steps_foldl (doc.addDeclarator t env) hdeclarator (t.inFields "declarator") hfits
  rw [addVariables]
  split
  · split
    · exact hfold
    · exact Relation.ReflTransGen.refl
  · split
    · exact hfold
    · exact Relation.ReflTransGen.refl
  · exact steps_foldl (doc.addVariable t env) (fun out name => hvariable name out) _ hfits

/-- A walk that may not happen takes steps if it and what replaces it do. -/
theorem getD_steps {walked : Option Outline} {fallback : Outline}
    (hwalked : ∀ out', walked = some out' → doc.Steps out out')
    (hfallback : doc.Steps out fallback) : doc.Steps out (walked.getD fallback) := by
  cases walked with
  | none => exact hfallback
  | some out' => exact hwalked out' rfl

mutual

/-- A walk takes steps. -/
theorem walk_steps (doc : Document) (env : Surroundings) (visit : Visit) :
    ∀ (t : Tree) (out : Outline), env.Fits out → doc.Steps out (doc.walk env visit t out)
  | .node label children, out, hfits => by
    rw [walk]
    dsimp only
    split
    · exact walkAll_steps doc env _ [] children out hfits
    · exact getD_steps (walkFirst_steps doc env _ _ _ [] children out hfits)
        Relation.ReflTransGen.refl
    · split
      · rename_i walked hwalked
        obtain ⟨inner, _, hwalked⟩ := Option.bind_eq_some_iff.mp hwalked
        exact walkFirst_steps doc env _ _ _ [] children out hfits walked hwalked
      · exact walkAll_steps doc env _ [] children out hfits
    · split
      · exact walkAll_steps doc env _ [] children out hfits
      · rename_i decorators _ _ header _
        have hadded : doc.Steps out (doc.addDeclared _ env decorators header out) :=
          (Records.declared (.node label children) decorators header).steps hfits
        exact hadded.trans (walkAll_steps doc _ _ [] children _ (fits_inside _ rfl rfl))
    · split
      · rename_i aggregate name _
        have hadded : doc.Steps out (doc.addAggregate _ aggregate env name out) :=
          (Records.aggregate (.node label children) aggregate name).steps hfits
        refine getD_steps (fun out' hwalked => hadded.trans ?_) hadded
        exact walkFirst_steps doc _ _ _ _ [] children _ (fits_inside _ rfl rfl) out' hwalked
      · split
        · exact getD_steps (walkFirst_steps doc env _ _ _ [] children out hfits)
            (walkAll_steps doc env _ [] children out hfits)
        · have hadded : doc.Steps out (doc.addTrait _ out) :=
            (Records.trait (.node label children)).steps hfits
          have hinner (owner : Option String) : Surroundings.Fits { env with owner := owner } _ :=
            fits_mono hfits hadded
          refine getD_steps (fun out' hwalked => hadded.trans ?_) (hadded.trans ?_)
          · exact walkFirst_steps doc _ _ _ _ [] children _ (hinner _) out' hwalked
          · exact walkAll_steps doc _ _ [] children _ (hinner _)
        · split
          · exact Relation.ReflTransGen.refl
          · rename_i value name _ _
            have hadded : doc.Steps out (doc.addFunctionValue _ value env name out) :=
              (Records.functionValue (.node label children) value name).steps hfits
            refine getD_steps (fun out' hwalked => hadded.trans ?_) hadded
            exact walkFirst_steps doc _ _ _ _ [] children _ (fits_inside _ rfl rfl) out' hwalked
          · have hadded : doc.Steps out (doc.addVariables _ env out) :=
              addVariables_steps (.node label children) hfits
            exact hadded.trans (walkAll_steps doc env _ [] children _ (fits_mono hfits hadded))
        · exact walkAll_steps doc _ _ [] children out hfits
        · exact walkAll_steps doc _ _ [] children out hfits
        · exact walkAll_steps doc env _ [] children out hfits

/-- Looking at several trees takes steps. -/
theorem walkAll_steps (doc : Document) (env : Surroundings) (parent : Tree) :
    ∀ (earlier ts : List Tree) (out : Outline), env.Fits out →
      doc.Steps out (doc.walkAll env parent earlier ts out)
  | _, [], _, _ => Relation.ReflTransGen.refl
  | earlier, t :: ts, out, hfits => by
    have hfirst := walk_steps doc (env.below parent earlier) .look t out hfits
    exact hfirst.trans (walkAll_steps doc env parent (t :: earlier) ts _ (fits_mono hfits hfirst))

/-- Walking the first tree that satisfies a condition takes steps. -/
theorem walkFirst_steps (doc : Document) (env : Surroundings) (parent : Tree)
    (selects : Tree → Bool) (visit : Visit) :
    ∀ (earlier ts : List Tree) (out : Outline), env.Fits out → ∀ out',
      doc.walkFirst env parent earlier selects visit ts out = some out' → doc.Steps out out'
  | _, [], _, _, _, hwalked => by cases hwalked
  | earlier, t :: ts, out, hfits, out', hwalked => by
    rw [walkFirst] at hwalked
    split at hwalked
    · exact Option.some.inj hwalked ▸ walk_steps doc (env.below parent earlier) visit t out hfits
    · exact walkFirst_steps doc env parent selects visit (t :: earlier) ts out hfits out' hwalked

end

/-- The outline of a document is reached in steps. -/
theorem outline_steps (doc : Document) : doc.Steps {} doc.outline :=
  walk_steps doc {} .look doc.tree {} fun _ hindex => by cases hindex

end Document

end CodeAtlas
