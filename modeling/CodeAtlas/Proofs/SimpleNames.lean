import CodeAtlas.Proofs.ImportedClasses
import CodeAtlas.Proofs.Splitting

/-!
# Simple names

A text without separators is its own and only segment. So a qualified name of one segment goes
through the same tiers as a bare name: the declarations around the place with their doubts, the
aliases, where the longest beginning is the name as a whole, and the builtins. Nothing is left to be
selected from what is found.

Constructing by such a name and calling it directly then rest on one look-up. Both lead to the
initializer of the class that the name means, or to the same name outside of the unit.
-/

namespace CodeAtlas

/-- A name without separators and without anything that makes it an expression. -/
structure IsSimpleName (name : String) : Prop where
  nonempty : name ≠ ""
  unqualified : Text.isQualified name = false
  noExpression : Tables.isExpression name = false

namespace Tables

variable {tables : Tables} {config : ResolutionConfig}

/-! ### Looking up -/

/-- Looked up as a qualified name or as a bare one, a simple name has the same meaning and raises
the same doubts. -/
theorem lookupPath_eq_lookupName {name : String} (h : IsSimpleName name) (module : Nat)
    (caller : Option Nat) :
    tables.lookupPath config module caller name = tables.lookupName config module caller name := by
  have hsegments := Text.segments_of_unqualified h.nonempty h.unqualified
  rw [lookupPath, lookupName, hsegments]
  simp only [List.any_cons, List.any_nil, h.noExpression, Bool.or_false, Bool.false_eq_true,
    if_false, longestAlias?_singleton]
  cases (tables.lookupLocal config module caller name).1 with
  | some id => rfl
  | none => cases tables.aliasMeaning? module name <;> rfl

/-! ### Calling -/

/-- What constructing by a name comes to, given what the name means. -/
def constructionOf (tables : Tables) (config : ResolutionConfig) : Meaning → CallTarget
  | .symbol id => if tables.isClass id then tables.constructorTarget config id else .unresolved
  | .external name => .external name
  | _ => .unresolved

/-- Constructing by a simple name rests on the look-up of the name by itself. -/
theorem judgeCall_of_construction {call : CallEdge} (hkind : call.kind = .constructor)
    (hname : IsSimpleName call.callee)
    (hself : (tables.grammar call.module).isSelf call.callee = false)
    (hsuper : (tables.grammar call.module).isSuper call.callee = false) :
    tables.judgeCall config call =
      ((.constructor, tables.constructionOf config
        (tables.lookupName config call.module call.caller call.callee).1),
        (tables.lookupName config call.module call.caller call.callee).2) := by
  simp only [judgeCall, hkind, linkConstructor, hself, hsuper, Bool.false_eq_true, if_false,
    lookupPath_eq_lookupName hname]
  cases (tables.lookupName config call.module call.caller call.callee).1 with
  | symbol id =>
    by_cases hclass : tables.isClass id = true <;> simp [constructionOf, Option.filter, hclass]
  | module _ | external _ | builtin _ | unknown => rfl

/-- A constructor call and a direct call at one place, by one name. -/
structure CalledAlike (construction direct : CallEdge) (name : String) : Prop where
  constructs : construction.kind = .constructor
  calls : direct.kind = .direct
  constructed : construction.callee = name
  called : direct.callee = name
  module : construction.module = direct.module
  caller : construction.caller = direct.caller

/-- What the two calls have in common: the class that they instantiate, the name outside of the unit
and the doubts. -/
structure LinkedAlike (tables : Tables) (config : ResolutionConfig)
    (construction direct : CallEdge) : Prop where
  instantiated : ∀ t, (tables.judgeCall config construction).1 = (.constructor, .symbol t) ↔
    (tables.judgeCall config direct).1 = (.constructor, .symbol t)
  external : ∀ name, (tables.judgeCall config construction).1.2 = .external name ↔
    (tables.judgeCall config direct).1.2 = .external name
  doubts : (tables.judgeCall config construction).2 = (tables.judgeCall config direct).2

/-- Constructing by a simple name and calling it directly come to the same. -/
theorem CalledAlike.linkedAlike {construction direct : CallEdge} {name : String}
    (h : CalledAlike construction direct name) (hname : IsSimpleName name)
    (hself : (tables.grammar direct.module).isSelf name = false)
    (hsuper : (tables.grammar direct.module).isSuper name = false) :
    tables.LinkedAlike config construction direct := by
  obtain ⟨hconstructs, hcalls, hconstructed, rfl, hmodule, hcaller⟩ := h
  have hconstruction : tables.judgeCall config construction = _ :=
    judgeCall_of_construction hconstructs (hconstructed ▸ hname)
      (by rw [hmodule, hconstructed, hself]) (by rw [hmodule, hconstructed, hsuper])
  rw [hmodule, hcaller, hconstructed] at hconstruction
  have hdirect : tables.judgeCall config direct = tables.linkDirect config direct := by
    rw [judgeCall, hcalls]
  rw [linkDirect, hcalls] at hdirect
  generalize tables.lookupName config direct.module direct.caller direct.callee = found
    at hconstruction hdirect
  -- A direct call keeps its kind unless it instantiates a class or calls a builtin.
  obtain ⟨meaning, doubts⟩ := found
  cases meaning with
  | symbol id =>
    by_cases hclass : tables.isClass id = true <;>
      constructor <;>
      simp [hconstruction, hdirect, constructionOf, hclass, constructorTarget]
  | module _ | external _ | builtin _ | unknown =>
    constructor <;> simp [hconstruction, hdirect, constructionOf]

end Tables

/-- In any tables a simple name means the same as a qualified name and as a bare one, with the same
doubts. Unless it is a keyword, constructing by it and calling it lead to the same class. -/
theorem simple_names_have_one_meaning (tables : Tables) (config : ResolutionConfig) {name : String}
    (hname : IsSimpleName name) :
    (∀ module caller, tables.lookupPath config module caller name =
      tables.lookupName config module caller name) ∧
    ∀ construction direct, Tables.CalledAlike construction direct name →
      (tables.grammar direct.module).isSelf name = false →
      (tables.grammar direct.module).isSuper name = false →
        tables.LinkedAlike config construction direct :=
  ⟨Tables.lookupPath_eq_lookupName hname, fun _ _ h => h.linkedAlike hname⟩

/-- A class that is declared twice, and two calls of it. -/
def repeatedClass : FileFacts where
  path := ⟨"shapes.js"⟩
  language := .javaScript
  declarations :=
    [{ name := "Shape", kind := .classLike, parent := none, visibility := .exposed },
      { name := "constructor", kind := .method, parent := some 0, visibility := .exposed },
      { name := "Shape", kind := .classLike, parent := none, visibility := .exposed }]
  calls :=
    [{ callee := "Shape", name := "Shape", kind := .constructor },
      { callee := "Shape", name := "Shape", kind := .direct }]

/-- Both calls go to the initializer of the first class, with the doubt that there are two. -/
theorem simple_names_have_one_meaning_repeated :
    IsSimpleName "Shape" ∧ ∃ construction direct,
      (Tables.ofFiles [repeatedClass]).calls = [construction, direct] ∧
        Tables.CalledAlike construction direct "Shape" ∧
        (Tables.ofFiles [repeatedClass]).LinkedAlike {} construction direct ∧
        (Tables.ofFiles [repeatedClass]).judgeCall {} direct =
          ((.constructor, .symbol 1), [⟨0, "'Shape' matches 2 declarations in one scope"⟩]) := by
  have hname : IsSimpleName "Shape" := ⟨by decide, by decide, by decide⟩
  rw [Tables.ofFiles_singleton]
  generalize htables : Tables.addFile {} repeatedClass = tables
  refine ⟨hname, tables.calls[0]?.getD default, tables.calls[1]?.getD default, ?_, ?_, ?_, ?_⟩
  · rw [← htables]
    decide
  · rw [← htables]
    constructor <;> decide
  · refine (simple_names_have_one_meaning tables {} hname).2 _ _ ?_ ?_ ?_
    · rw [← htables]
      constructor <;> decide
    · rw [← htables]
      decide
    · rw [← htables]
      decide
  · rw [← htables]
    decide +kernel

end CodeAtlas
