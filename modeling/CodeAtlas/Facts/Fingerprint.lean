import CodeAtlas.Digest.Sha256
import CodeAtlas.Facts.Basic
import CodeAtlas.Tree.Cursor

/-!
# Fingerprints and stable identities

The fingerprint of a declaration digests its header and the kinds of the nodes below it. Comments,
scalar literals and layout have no part in it. The stable identity adds the path, the kind and the
qualified name.
-/

namespace CodeAtlas

/-- Is this the kind of a literal without structure? -/
def isScalarLiteralKind (kind : String) : Bool :=
  ["string", "number", "integer", "float", "char_literal", "character_literal", "rune_literal",
    "boolean"].any (Text.contains · kind) ||
  ["true", "false", "null", "none", "nil", "undefined", "null_literal"].contains kind

/-- Is a node of this kind left out of skeletons, with all below it? -/
def isPrunedKind (kind : String) : Bool := isCommentKind kind || isScalarLiteralKind kind

/-- A walk that gathers the kinds of the nodes below its start. -/
structure SkeletonWalk where
  cursor : Tree.Cursor
  /-- The number of levels from the start down to the cursor. -/
  depth : Nat := 0
  /-- The kinds met so far, the last one first. -/
  kinds : List String := []
  /-- Is the node at the cursor still to be read? Otherwise it is done, with all below it. -/
  entering : Bool := true

namespace SkeletonWalk

/-- Read the node at the cursor, and go down unless it is pruned. -/
def enter (w : SkeletonWalk) : SkeletonWalk :=
  let t := w.cursor.focus
  if isPrunedKind t.kind then { w with entering := false }
  else
    let kinds := if t.label.named then t.kind :: w.kinds else w.kinds
    match w.cursor.firstChild? with
    | some child => { w with cursor := child, depth := w.depth + 1, kinds := kinds }
    | none => { w with kinds := kinds, entering := false }

/-- Leave a node that is done, to the right if possible and else up, given the depth above it. -/
def leave (w : SkeletonWalk) (depth : Nat) : SkeletonWalk :=
  match w.cursor.nextSibling? with
  | some next => { w with cursor := next, entering := true }
  | none => { w with cursor := w.cursor.parent?.getD w.cursor, depth := depth }

/-- One step of a walk, unless it is back at its start. -/
def step? (w : SkeletonWalk) : Option SkeletonWalk :=
  if w.entering then some w.enter
  else
    match w.depth with
    | 0 => none
    | depth + 1 => some (w.leave depth)

/-- What a walk has left to do: nodes to read and to leave, and the way up. -/
def weight (w : SkeletonWalk) : Nat :=
  (if w.entering then 2 * w.cursor.focus.size else 1) + 2 * w.cursor.sizeAhead + w.depth

/-- Reading a node does some of it. -/
theorem weight_enter_lt {w : SkeletonWalk} (hentering : w.entering = true) :
    w.enter.weight < w.weight := by
  obtain ⟨⟨⟨label, children⟩, later, above⟩, depth, kinds, entering⟩ := w
  obtain rfl : entering = true := hentering
  rw [enter]
  split
  · simp only [weight, Tree.size, if_true, Bool.false_eq_true, if_false]
    omega
  · cases children with
    | nil =>
      simp only [weight, Tree.Cursor.firstChild?, Tree.children, Tree.size, Tree.sizes, if_true,
        Bool.false_eq_true, if_false]
      omega
    | cons child rest =>
      simp only [weight, Tree.Cursor.firstChild?, Tree.children, Tree.Cursor.sizeAhead, Tree.size,
        Tree.sizes, if_true, List.foldr_cons]
      omega

/-- Leaving a node does some of it. -/
theorem weight_leave_lt {w : SkeletonWalk} {depth : Nat} (hdone : w.entering = false)
    (hdepth : w.depth = depth + 1) : (w.leave depth).weight < w.weight := by
  obtain ⟨⟨focus, later, above⟩, _, kinds, entering⟩ := w
  obtain rfl : entering = false := hdone
  obtain rfl := hdepth
  cases later with
  | cons next rest =>
    simp only [leave, Tree.Cursor.nextSibling?, weight, Tree.Cursor.sizeAhead, Tree.sizes, if_true,
      Bool.false_eq_true, if_false]
    omega
  | nil =>
    cases above with
    | nil =>
      simp only [leave, Tree.Cursor.nextSibling?, Tree.Cursor.parent?, Option.getD_none, weight,
        Bool.false_eq_true, if_false]
      omega
    | cons level above =>
      simp only [leave, Tree.Cursor.nextSibling?, Tree.Cursor.parent?, Option.getD_some, weight,
        Tree.Cursor.sizeAhead, Tree.sizes, Bool.false_eq_true, if_false, List.foldr_cons]
      omega

/-- Every step does some of it. -/
theorem weight_lt {w next : SkeletonWalk} (h : w.step? = some next) : next.weight < w.weight := by
  unfold step? at h
  split at h
  · rename_i hentering
    exact Option.some.inj h ▸ weight_enter_lt hentering
  · rename_i hdone
    split at h
    · cases h
    · rename_i depth hdepth
      exact Option.some.inj h ▸ weight_leave_lt (Bool.eq_false_iff.mpr hdone) hdepth

/-- The kinds that a walk has gathered when it is over, in the order in which it met them. -/
def gathered (w : SkeletonWalk) : List String :=
  match _hstep : w.step? with
  | none => w.kinds.reverse
  | some next => next.gathered
termination_by w.weight
decreasing_by exact weight_lt _hstep

end SkeletonWalk

namespace Tree

/-- The kinds of the named nodes in pre-order, comments and scalar literals left out. -/
def skeleton (t : Tree) : List String := { cursor := { focus := t } : SkeletonWalk }.gathered

/-- The kinds of the children, with those of a modifier list in its place. -/
def modifierKinds (t : Tree) : List String :=
  t.children.flatMap fun child =>
    if child.kind == "modifiers" then child.children.map kind else [child.kind]

/-- The parts of a fingerprint that say what the declaration is: its kind, name and number of
parameters, its modifiers, and whether it returns anything. -/
def headerParts (t : Tree) (name : String) (parameters : Nat) (hasReturnType : Bool) :
    List String :=
  let modifiers := t.modifierKinds
  let flags := (["async", "static"].filter modifiers.contains).map (· ++ ":true")
  let access := (["public", "private", "protected"].find? modifiers.contains).toList.map
    ("visibility:" ++ ·)
  ["type:" ++ t.kind, "name:" ++ name, "params:" ++ Nat.repr parameters] ++ flags ++ access ++
    if hasReturnType then ["returnType:true"] else []

/-- The parts of a fingerprint before they are digested, a digest of the skeleton last. -/
def fingerprintParts (t : Tree) (name : String) (parameters : Nat) (hasReturnType : Bool) :
    List String :=
  t.headerParts name parameters hasReturnType ++
    ["subtree:" ++ contentHash (Text.joinWith "," t.skeleton)]

/-- The fingerprint of a declaration node. -/
def fingerprint (t : Tree) (name : String) (parameters : Nat) (hasReturnType : Bool) : String :=
  contentHash (Text.joinWith "|" (t.fingerprintParts name parameters hasReturnType))

end Tree

/-- The names from a declaration outwards, at most `limit` of them. -/
def namesOutwards (declarations : List Declaration) : (limit : Nat) → Option Nat → List String
  | 0, _ => []
  | _, none => []
  | limit + 1, some index =>
    match declarations[index]? with
    | none => []
    | some d => d.name :: namesOutwards declarations limit d.parent

/-- The names of a declaration and of those around it, outermost first. -/
def qualifiedName (declarations : List Declaration) (index : Nat) : String :=
  Text.joinWith "." (namesOutwards declarations declarations.length (some index)).reverse

/-- The stable identity of the declaration at an index. -/
def stableId (path : Path) (declarations : List Declaration) (index : Nat) (d : Declaration) :
    String :=
  let path := String.ofList (path.text.toList.map fun c => if c = '\\' then '/' else c)
  contentHash (path ++ ":" ++ d.kind.word ++ ":" ++ qualifiedName declarations index ++ ":" ++
    d.profile.fingerprint)

/-- Every declaration with its stable identity. -/
def withStableIds (path : Path) (declarations : List Declaration) : List Declaration :=
  declarations.zipIdx.map fun (d, index) =>
    { d with profile := { d.profile with stableId := stableId path declarations index d } }

end CodeAtlas
