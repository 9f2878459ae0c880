import CodeAtlas.Facts.Profile
import CodeAtlas.Proofs.Skeletons

/-!
# Fingerprints ignore comments, literals and layout

A fingerprint digests the header of a declaration, the kinds of its children as far as they are
modifiers, and its skeleton. A comment and a scalar literal have no skeleton and are no modifiers, so
none of this changes when comments come and go at any place below the declaration, when literals are
replaced by others, or when everything is moved to other places in the text.
-/

namespace CodeAtlas

namespace Tree

/-- Rows of trees that differ only in layout, comments and scalar literals. -/
inductive AlikeRows : List Tree → List Tree → Prop
  | nil : AlikeRows [] []
  | node {label label' : Label} {children children' ts ts' : List Tree}
      (hkind : label.kind = label'.kind) (hnamed : label.named = label'.named)
      (hbelow : AlikeRows children children') (hrest : AlikeRows ts ts') :
      AlikeRows (.node label children :: ts) (.node label' children' :: ts')
  | literals {t t' : Tree} {ts ts' : List Tree} (hliteral : isScalarLiteralKind t.kind = true)
      (hliteral' : isScalarLiteralKind t'.kind = true) (hrest : AlikeRows ts ts') :
      AlikeRows (t :: ts) (t' :: ts')
  | commentLeft {t : Tree} {ts ts' : List Tree} (hcomment : t.isComment = true)
      (hrest : AlikeRows ts ts') : AlikeRows (t :: ts) ts'
  | commentRight {t' : Tree} {ts ts' : List Tree} (hcomment : t'.isComment = true)
      (hrest : AlikeRows ts ts') : AlikeRows ts (t' :: ts')

/-- Nodes of one kind that differ only in layout and in the comments and scalar literals below
them. -/
structure Alike (t t' : Tree) : Prop where
  sameKind : t.kind = t'.kind
  sameNamed : t.label.named = t'.label.named
  below : AlikeRows t.children t'.children

/-- Literals are left out of skeletons. -/
theorem isPruned_of_literal {kind : String} (h : isScalarLiteralKind kind = true) :
    isPrunedKind kind = true := by
  rw [isPrunedKind, h, Bool.or_true]

/-- Comments are left out of skeletons. -/
theorem isPruned_of_isComment {t : Tree} (h : t.isComment = true) : isPrunedKind t.kind = true := by
  rw [isPrunedKind, ← isComment, h, Bool.true_or]

variable {t t' : Tree} {ts ts' : List Tree}

/-- The skeleton of a node depends on its kind and on the skeletons below it. -/
theorem skeleton_congr (hkind : t.kind = t'.kind) (hnamed : t.label.named = t'.label.named)
    (hbelow : t.children.flatMap skeleton = t'.children.flatMap skeleton) :
    t.skeleton = t'.skeleton := by
  rw [skeleton_eq, skeleton_eq t', hkind, hnamed, hbelow]

/-- Rows of trees that differ so have the same skeletons. -/
theorem AlikeRows.skeletons_eq (h : AlikeRows ts ts') :
    ts.flatMap skeleton = ts'.flatMap skeleton := by
  induction h with
  | nil => rfl
  | @node label label' children children' ts ts' hkind hnamed hbelow hrest ihbelow ihrest =>
    have hown : (Tree.node label children).skeleton = (Tree.node label' children').skeleton :=
      skeleton_congr hkind hnamed ihbelow
    rw [List.flatMap_cons, List.flatMap_cons, hown, ihrest]
  | literals hliteral hliteral' hrest ih =>
    rw [List.flatMap_cons, List.flatMap_cons, skeleton_of_pruned (isPruned_of_literal hliteral),
      skeleton_of_pruned (isPruned_of_literal hliteral'), ih]
  | commentLeft hcomment hrest ih =>
    rw [List.flatMap_cons, skeleton_of_pruned (isPruned_of_isComment hcomment), ih, List.nil_append]
  | commentRight hcomment hrest ih =>
    rw [List.flatMap_cons, skeleton_of_pruned (isPruned_of_isComment hcomment), ih, List.nil_append]

/-- One of the trees has a property, if comments and literals cannot have it. -/
theorem AlikeRows.exists_iff {P : Tree → Prop} (hpruned : ∀ t, P t → isPrunedKind t.kind = false)
    (hkept : ∀ t t', t.kind = t'.kind → AlikeRows t.children t'.children → (P t ↔ P t'))
    (h : AlikeRows ts ts') : (∃ t ∈ ts, P t) ↔ ∃ t ∈ ts', P t := by
  have hnot {t : Tree} (ht : isPrunedKind t.kind = true) : ¬ P t := by
    intro hp
    rw [hpruned t hp] at ht
    cases ht
  induction h with
  | nil => rfl
  | node hkind hnamed hbelow hrest _ ih =>
    simp only [List.mem_cons, exists_eq_or_imp, hkept (.node _ _) (.node _ _) hkind hbelow, ih]
  | literals hliteral hliteral' hrest ih =>
    simp only [List.mem_cons, exists_eq_or_imp, hnot (isPruned_of_literal hliteral),
      hnot (isPruned_of_literal hliteral'), false_or, ih]
  | commentLeft hcomment hrest ih =>
    simp only [List.mem_cons, exists_eq_or_imp, hnot (isPruned_of_isComment hcomment), false_or, ih]
  | commentRight hcomment hrest ih =>
    simp only [List.mem_cons, exists_eq_or_imp, hnot (isPruned_of_isComment hcomment), false_or, ih]

namespace Alike

variable (h : t.Alike t')
include h

/-- Trees that are alike have the same skeleton. -/
theorem skeleton_eq : t.skeleton = t'.skeleton :=
  skeleton_congr h.sameKind h.sameNamed h.below.skeletons_eq

/-- The same words are modifiers, unless they are the kind of a comment or a literal. -/
theorem mem_modifierKinds_iff {word : String} (hword : isPrunedKind word = false) :
    word ∈ t.modifierKinds ↔ word ∈ t'.modifierKinds := by
  have hlist {ts ts' : List Tree} (hrows : AlikeRows ts ts') :
      word ∈ ts.map kind ↔ word ∈ ts'.map kind := by
    rw [List.mem_map, List.mem_map]
    refine hrows.exists_iff ?_ ?_
    · rintro t rfl
      exact hword
    · rintro t t' hkind -
      rw [hkind]
  rw [modifierKinds, modifierKinds, List.mem_flatMap, List.mem_flatMap]
  refine h.below.exists_iff ?_ ?_
  · intro child hchild
    split at hchild
    · rename_i hmodifiers
      rw [beq_iff_eq.mp hmodifiers]
      decide
    · rwa [← List.mem_singleton.mp hchild]
  · intro child child' hkind hbelow
    rw [hkind]
    split
    · exact hlist hbelow
    · rfl

/-- So the headers of the fingerprints are the same. -/
theorem headerParts_eq (name : String) (parameters : Nat) (hasReturnType : Bool) :
    t.headerParts name parameters hasReturnType =
      t'.headerParts name parameters hasReturnType := by
  have hfilter (words : List String) (hwords : ∀ word ∈ words, isPrunedKind word = false) :
      words.filter t.modifierKinds.contains = words.filter t'.modifierKinds.contains := by
    refine List.filter_congr fun word hword => ?_
    rw [Bool.eq_iff_iff, List.contains_iff_mem, List.contains_iff_mem]
    exact h.mem_modifierKinds_iff (hwords word hword)
  have hflags := hfilter ["async", "static"] (by decide)
  have haccess := congrArg List.head? (hfilter ["public", "private", "protected"] (by decide))
  rw [List.head?_filter, List.head?_filter] at haccess
  rw [headerParts, headerParts, hflags, haccess, h.sameKind]

end Alike

end Tree

/-- The fingerprint that a profile holds digests the header and a digest of the skeleton. -/
theorem profileOf_fingerprint (doc : Document) (t : Tree) (spine : Tree.Spine) (d : Declaration) :
    (doc.profileOf t spine d).fingerprint = contentHash (Text.joinWith "|"
      (t.headerParts d.name d.parameters.length d.returnType.isSome ++
        ["subtree:" ++ contentHash (Text.joinWith "," t.skeleton)])) := rfl

/-- Declarations that differ only in layout, comments and scalar literals have the same fingerprint.
It digests their header and their skeleton: the named nodes in pre-order, less those pruned. The walk
that gathers it never leaves its start. -/
theorem fingerprints_ignore_comments_literals_and_layout :
    (∀ t t' : Tree, t.Alike t' → ∀ d d' : Declaration, d.name = d'.name →
      d.parameters.length = d'.parameters.length →
      d.returnType.isSome = d'.returnType.isSome →
      ∀ (doc doc' : Document) (spine spine' : Tree.Spine),
        (doc.profileOf t spine d).fingerprint = (doc'.profileOf t' spine' d').fingerprint) ∧
    (∀ (doc : Document) (t : Tree) (spine : Tree.Spine) (d : Declaration),
      (doc.profileOf t spine d).fingerprint = contentHash (Text.joinWith "|"
        (t.headerParts d.name d.parameters.length d.returnType.isSome ++
          ["subtree:" ++ contentHash (Text.joinWith "," t.skeleton)]))) ∧
    (∀ t : Tree, ∃ addresses, Tree.InPreorder t.Keeps t.skeleton addresses) ∧
    ∀ start : Tree.Cursor, SkeletonWalk.StaysBelow start := by
  refine ⟨?_, profileOf_fingerprint, Tree.exists_inPreorder, SkeletonWalk.staysBelow⟩
  intro t t' h d d' hname hparameters hreturns doc doc' spine spine'
  rw [profileOf_fingerprint, profileOf_fingerprint, h.headerParts_eq, h.skeleton_eq, hname,
    hparameters, hreturns]

/-- The tree of `public static int area() { return 3; }` -/
def plainMethod : Tree :=
  let inner (kind : String) (start stop : Nat) (children : List Tree) : Tree :=
    .node { kind := kind, named := true, start := start, stop := stop } children
  let token (kind : String) (start stop : Nat) : Tree :=
    .node { kind := kind, named := false, start := start, stop := stop } []
  inner "method_declaration" 0 37
    [inner "modifiers" 0 13 [token "public" 0 6, token "static" 7 13],
      inner "integral_type" 14 17 [token "int" 14 17], inner "identifier" 18 22 [],
      inner "formal_parameters" 22 24 [token "(" 22 23, token ")" 23 24],
      inner "block" 25 37
        [token "\x7b" 25 26,
          inner "return_statement" 27 36
            [token "return" 27 33, inner "decimal_integer_literal" 34 35 [], token ";" 35 36],
          token "\x7d" 36 37]]

/-- The tree of the same method on two lines, with a comment between its modifiers and one in its
body, and with a hexadecimal literal. -/
def annotatedMethod : Tree :=
  let inner (kind : String) (start stop : Nat) (children : List Tree) : Tree :=
    .node { kind := kind, named := true, start := start, stop := stop } children
  let token (kind : String) (start stop : Nat) : Tree :=
    .node { kind := kind, named := false, start := start, stop := stop } []
  inner "method_declaration" 0 62
    [inner "modifiers" 0 21
        [token "public" 0 6, inner "block_comment" 7 14 [], token "static" 15 21],
      inner "integral_type" 22 25 [token "int" 22 25], inner "identifier" 26 30 [],
      inner "formal_parameters" 30 32 [token "(" 30 31, token ")" 31 32],
      inner "block" 33 62
        [token "\x7b" 33 34, inner "line_comment" 35 44 [],
          inner "return_statement" 47 60
            [token "return" 47 53, inner "hex_integer_literal" 54 58 [], token ";" 58 59],
          token "\x7d" 60 61]]

/-- Neither the comments nor the literal show. -/
theorem fingerprints_ignore_comments_literals_and_layout_method :
    plainMethod.Alike annotatedMethod ∧
      plainMethod.modifierKinds ≠ annotatedMethod.modifierKinds ∧
      annotatedMethod.skeleton = ["method_declaration", "modifiers", "integral_type", "identifier",
        "formal_parameters", "block", "return_statement"] ∧
      ∀ (doc doc' : Document) (spine spine' : Tree.Spine),
        let d : Declaration :=
          { name := "area", kind := .method, parent := none, visibility := .exposed
            returnType := some "int" }
        (doc.profileOf plainMethod spine d).fingerprint =
          (doc'.profileOf annotatedMethod spine' d).fingerprint := by
  have halike : plainMethod.Alike annotatedMethod := by
    refine ⟨rfl, rfl, .node rfl rfl ?_ <| .node rfl rfl ?_ <| .node rfl rfl .nil <|
      .node rfl rfl ?_ <| .node rfl rfl ?_ .nil⟩
    · exact .node rfl rfl .nil <| .commentRight rfl <| .node rfl rfl .nil .nil
    · exact .node rfl rfl .nil .nil
    · exact .node rfl rfl .nil <| .node rfl rfl .nil .nil
    · refine .node rfl rfl .nil <| .commentRight rfl <| .node rfl rfl ?_ <| .node rfl rfl .nil .nil
      exact .node rfl rfl .nil <| .literals (by decide) (by decide) <| .node rfl rfl .nil .nil
  have hskeleton : annotatedMethod.skeleton = ["method_declaration", "modifiers", "integral_type",
      "identifier", "formal_parameters", "block", "return_statement"] := by
    simp +decide [annotatedMethod, Tree.skeleton_eq, Tree.kind, Tree.label, Tree.children]
  refine ⟨halike, by decide, hskeleton, ?_⟩
  intro doc doc' spine spine' d
  exact fingerprints_ignore_comments_literals_and_layout.1 plainMethod annotatedMethod halike d d
    rfl rfl rfl doc doc' spine spine'

end CodeAtlas
