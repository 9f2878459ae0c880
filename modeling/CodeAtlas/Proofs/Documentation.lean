import CodeAtlas.Facts.Extract
import CodeAtlas.Facts.Profile
import CodeAtlas.Proofs.Attribution
import CodeAtlas.Proofs.Lists
import CodeAtlas.Proofs.Splitting
import Mathlib.Data.List.Chain

/-!
# Documentation is the run of comments above

A walk up the earlier siblings of a declaration, or of the statement that wraps it, collects marked
comments as long as each ends no more than one line above what follows it, and passes over attributes
and decorators. What it collects is the longest such run.

The walk looks only at the comments themselves. A comment behind another statement, on the last line
of that statement, is taken like one on a line of its own when the declaration starts on the next
line. Such comments are the farthest of the run, so the documentation starts with their text.
-/

namespace CodeAtlas

/-- A sibling that is neither a comment nor stands between comments and a declaration. -/
def Tree.isStatement (t : Tree) : Bool := !t.isComment && !isDocGap t.kind

/-- A node, or the outermost of the statements that wrap it, with the siblings before, nearest
first. -/
def Tree.AnchoredAt (t : Tree) (spine : Tree.Spine) (anchor : Tree) (earlier : List Tree) : Prop :=
  ∃ wrappers above, spine = wrappers ++ above ∧
    (∀ frame ∈ wrappers, isDocWrapper frame.parent.kind = true) ∧
    (∀ frame ∈ above.head?, isDocWrapper frame.parent.kind = false) ∧
    anchor = (wrappers.getLast?.map Tree.Frame.parent).getD t ∧
    earlier = above.head?.elim [] Tree.Frame.earlier

/-- Siblings, nearest first, that follow one another in the text. -/
structure InTextOrder (siblings : List Tree) : Prop where
  startsFirst : ∀ s ∈ siblings, s.label.start ≤ s.label.stop
  apart : siblings.Pairwise fun nearer farther => farther.label.stop ≤ nearer.label.start

/-- Where the comments of a node are looked for. -/
theorem docAnchor_anchoredAt (t : Tree) (spine : Tree.Spine) :
    t.AnchoredAt spine (docAnchor t spine).1
      ((docAnchor t spine).2.head?.elim [] Tree.Frame.earlier) := by
  induction spine generalizing t with
  | nil => exact ⟨[], [], rfl, by simp, by simp, rfl, rfl⟩
  | cons frame spine ih =>
    cases hwrapper : isDocWrapper frame.parent.kind with
    | false =>
      rw [docAnchor, if_neg (by simp [hwrapper])]
      exact ⟨[], frame :: spine, rfl, by simp, by simpa using hwrapper, rfl, rfl⟩
    | true =>
      rw [docAnchor, if_pos hwrapper]
      obtain ⟨wrappers, above, rfl, hwrappers, habove, hanchor, hearlier⟩ := ih frame.parent
      refine ⟨frame :: wrappers, above, rfl, ?_, habove, ?_, hearlier⟩
      · exact List.forall_mem_cons.mpr ⟨hwrapper, hwrappers⟩
      · rw [hanchor, List.getLast?_cons]
        cases wrappers.getLast? <;> rfl

namespace Document

variable {doc : Document} {anchor c : Tree} {earlier run : List Tree}

/-- A sibling goes on the run of comments above what follows it. -/
def Adjoins (doc : Document) (next sibling : Tree) : Prop :=
  isDocGap sibling.kind = true ∨
    sibling.isComment = true ∧ isDocComment doc.language (doc.textOf sibling) = true ∧
      doc.row next.label.start ≤ doc.row sibling.label.stop + 1

/-- The longest run of comments directly above a node, with the gaps in it. -/
structure IsRunAbove (doc : Document) (anchor : Tree) (earlier run : List Tree) : Prop where
  nearest : run <+: earlier
  linked : (anchor :: run).IsChain doc.Adjoins
  longest : ∀ other, other <+: earlier → (anchor :: other).IsChain doc.Adjoins → other <+: run

/-- A comment starts on the line on which a statement before it ends. -/
def StandsBehind (doc : Document) (siblings : List Tree) (c : Tree) : Prop :=
  ∃ s ∈ siblings, s.isStatement = true ∧ s.label.stop ≤ c.label.start ∧
    doc.row s.label.stop = doc.row c.label.start

/-- The lines of comments, nearest first, as they document a declaration. -/
def docLines (doc : Document) (comments : List Tree) : List String :=
  (comments.reverse.flatMap fun c => Text.lines (doc.textOf c)).filterMap cleanCommentLine

/-- The lines depend on the texts of the comments only. -/
theorem docLines_eq (doc : Document) (comments : List Tree) :
    doc.docLines comments =
      ((comments.map doc.textOf).reverse.flatMap Text.lines).filterMap cleanCommentLine := by
  rw [docLines, ← List.map_reverse, List.flatMap_map]

/-- The lines of nearer comments come later. -/
theorem docLines_append (doc : Document) (nearer farther : List Tree) :
    doc.docLines (nearer ++ farther) = doc.docLines farther ++ doc.docLines nearer := by
  rw [docLines, List.reverse_append, List.flatMap_append, List.filterMap_append, docLines, docLines]

/-- What may stand between comments and a declaration is no comment. -/
theorem isComment_of_isDocGap {t : Tree} (h : isDocGap t.kind = true) : t.isComment = false := by
  rw [isDocGap, Bool.or_eq_true, beq_iff_eq, beq_iff_eq] at h
  rw [Tree.isComment]
  rcases h with h | h <;> rw [h] <;> decide

/-- A sibling on the run is collected if it is a comment, and the walk goes on above it. -/
theorem docComments_of_adjoins {s : Tree} (h : doc.Adjoins anchor s) (earlier : List Tree) :
    doc.docComments (doc.row anchor.label.start) (s :: earlier) =
      ([s].filter Tree.isComment).map doc.textOf ++
        doc.docComments (doc.row s.label.start) earlier := by
  rcases h with hgap | ⟨hcomment, hmarked, hnear⟩
  · rw [docComments, if_pos hgap, List.filter_cons_of_neg (by simp [isComment_of_isDocGap hgap])]
    rfl
  · have hgap : ¬ isDocGap s.kind = true := by
      intro hgap
      rw [isComment_of_isDocGap hgap] at hcomment
      cases hcomment
    rw [docComments, if_neg hgap, if_neg (by simpa [hcomment] using hnear),
      if_neg (by simp [hmarked]), List.filter_cons_of_pos hcomment]
    rfl

/-- Any other sibling ends the walk. -/
theorem docComments_of_not_adjoins {s : Tree} (h : ¬ doc.Adjoins anchor s)
    (earlier : List Tree) :
    doc.docComments (doc.row anchor.label.start) (s :: earlier) = [] := by
  have hgap : ¬ isDocGap s.kind = true := fun hgap => h (.inl hgap)
  rw [docComments, if_neg hgap]
  split
  · rfl
  · rename_i hnear
    obtain ⟨hcomment, hnear⟩ : s.isComment = true ∧
        doc.row anchor.label.start ≤ doc.row s.label.stop + 1 := by simpa using hnear
    rw [if_pos]
    by_contra hmarked
    exact h (.inr ⟨hcomment, by simpa using hmarked, hnear⟩)

/-- The walk collects the comments of the longest run. -/
theorem exists_isRunAbove (doc : Document) (anchor : Tree) (earlier : List Tree) :
    ∃ run, doc.IsRunAbove anchor earlier run ∧
      doc.docComments (doc.row anchor.label.start) earlier =
        (run.filter Tree.isComment).map doc.textOf := by
  induction earlier generalizing anchor with
  | nil => exact ⟨[], ⟨List.nil_prefix, .singleton anchor, fun other hother _ => hother⟩, rfl⟩
  | cons s earlier ih =>
    by_cases hadjoins : doc.Adjoins anchor s
    · obtain ⟨run, hrun, hcomments⟩ := ih s
      refine ⟨s :: run, ⟨?_, ?_, ?_⟩, ?_⟩
      · exact List.cons_prefix_cons.mpr ⟨rfl, hrun.nearest⟩
      · exact List.isChain_cons_cons.mpr ⟨hadjoins, hrun.linked⟩
      · intro other hother hlinked
        cases other with
        | nil => exact List.nil_prefix
        | cons first other =>
          obtain ⟨rfl, hbelow⟩ := List.cons_prefix_cons.mp hother
          have hrest := hrun.longest other hbelow (List.isChain_cons_cons.mp hlinked).2
          exact List.cons_prefix_cons.mpr ⟨rfl, hrest⟩
      · rw [docComments_of_adjoins hadjoins, hcomments, ← List.map_append, ← List.filter_append]
        rfl
    · refine ⟨[], ⟨List.nil_prefix, .singleton anchor, ?_⟩, docComments_of_not_adjoins hadjoins _⟩
      intro other hother hlinked
      cases other with
      | nil => exact List.nil_prefix
      | cons first other =>
        obtain ⟨rfl, -⟩ := List.cons_prefix_cons.mp hother
        exact absurd (List.isChain_cons_cons.mp hlinked).1 hadjoins

/-- Lines of a text come one after another. -/
theorem row_mono {a b : Nat} (h : a ≤ b) : doc.row a ≤ doc.row b := by
  refine Nat.sub_le_sub_right (List.countP_mono_left fun n _ hn => ?_) 1
  exact decide_eq_true (Nat.le_trans (of_decide_eq_true hn) h)

/-- A run holds comments and gaps only. -/
theorem isStatement_of_isChain (h : (anchor :: run).IsChain doc.Adjoins) :
    ∀ s ∈ run, s.isStatement = false := by
  induction run generalizing anchor with
  | nil => simp
  | cons s run ih =>
    obtain ⟨hadjoins, hlinked⟩ := List.isChain_cons_cons.mp h
    refine List.forall_mem_cons.mpr ⟨?_, ih hlinked⟩
    rcases hadjoins with hgap | ⟨hcomment, -, -⟩
    · rw [Tree.isStatement, hgap, Bool.not_true, Bool.and_false]
    · rw [Tree.isStatement, hcomment, Bool.not_true, Bool.false_and]

namespace IsRunAbove

variable (h : doc.IsRunAbove anchor earlier run)
include h

/-- The statements among the earlier siblings stand before the run. -/
theorem mem_rest {rest : List Tree} (hsplit : run ++ rest = earlier) {s : Tree} (hs : s ∈ earlier)
    (hstatement : s.isStatement = true) : s ∈ rest := by
  rw [← hsplit] at hs
  refine (List.mem_append.mp hs).resolve_left fun hs => ?_
  rw [isStatement_of_isChain h.linked s hs] at hstatement
  cases hstatement

variable (horder : InTextOrder earlier)
include horder

/-- They end before the comments of the run start. -/
theorem stop_le_start {s : Tree} (hs : s ∈ earlier) (hstatement : s.isStatement = true)
    (hc : c ∈ run) : s.label.stop ≤ c.label.start := by
  obtain ⟨rest, hsplit⟩ := h.nearest
  have hapart := horder.apart
  rw [← hsplit] at hapart
  exact (List.pairwise_append.mp hapart).2.2 c hc s (h.mem_rest hsplit hs hstatement)

/-- A comment of the run stands behind a statement when the nearest statement ends on the line where
the comment starts. -/
theorem standsBehind_iff (hc : c ∈ run) :
    doc.StandsBehind earlier c ↔
      ∃ s ∈ earlier.find? Tree.isStatement, doc.row s.label.stop = doc.row c.label.start := by
  constructor
  · rintro ⟨s, hs, hstatement, -, hrow⟩
    obtain ⟨nearest, hnearest⟩ :=
      Option.isSome_iff_exists.mp (List.find?_isSome.mpr ⟨s, hs, hstatement⟩)
    have hmem := List.mem_of_find?_eq_some hnearest
    have hstop := h.stop_le_start horder hmem (List.find?_some hnearest) hc
    refine ⟨nearest, hnearest, Nat.le_antisymm (row_mono hstop) ?_⟩
    -- No statement stands between the nearest one and the comment, so the other one is before both.
    rw [← hrow]
    refine row_mono ?_
    obtain ⟨-, newer, older, rfl, hnone⟩ := List.find?_eq_some_iff_append.mp hnearest
    have hpairwise := (List.pairwise_append.mp horder.apart).2.1
    rcases List.mem_append.mp hs with hs | hs
    · have hnot := hnone s hs
      rw [hstatement] at hnot
      cases hnot
    · rcases List.mem_cons.mp hs with rfl | hs
      · exact Nat.le_refl _
      · exact Nat.le_trans ((List.pairwise_cons.mp hpairwise).1 s hs)
          (horder.startsFirst nearest hmem)
  · rintro ⟨s, hs, hrow⟩
    have hmem := List.mem_of_find?_eq_some hs
    have hstatement := List.find?_some hs
    exact ⟨s, hmem, hstatement, h.stop_le_start horder hmem hstatement hc, hrow⟩

/-- With a comment, those before it in the run stand behind the statement too. -/
theorem pairwise_standsBehind :
    run.Pairwise fun nearer farther =>
      doc.StandsBehind earlier nearer → doc.StandsBehind earlier farther := by
  have hrun : run.Pairwise fun nearer farther => farther.label.stop ≤ nearer.label.start :=
    horder.apart.sublist h.nearest.sublist
  refine hrun.imp_of_mem ?_
  rintro nearer farther - hfarther hapart ⟨s, hs, hstatement, -, hrow⟩
  have hstop := h.stop_le_start horder hs hstatement hfarther
  have hwell := horder.startsFirst farther (h.nearest.subset hfarther)
  refine ⟨s, hs, hstatement, hstop, Nat.le_antisymm (row_mono hstop) ?_⟩
  rw [hrow]
  exact row_mono (Nat.le_trans hwell hapart)

end IsRunAbove

end Document

/-- Joined lines tell whether there are lines in front. -/
theorem joinedLines_append_eq_iff (first last : List String) :
    joinedLines (first ++ last) = joinedLines last ↔ first = [] := by
  constructor
  · intro h
    by_contra hfirst
    cases last with
    | nil => simp [joinedLines, hfirst] at h
    | cons line last =>
      have hlength := Text.length_joinWith_lt "\n" (by decide) hfirst (List.cons_ne_nil line last)
      have hsame : Text.joinWith "\n" (first ++ line :: last) = Text.joinWith "\n" (line :: last) := by
        simpa [joinedLines] using h
      rw [hsame] at hlength
      exact Nat.lt_irrefl _ hlength
  · rintro rfl
    rfl

namespace Document

/-- The comments of a run, nearest first, are some that stand behind no statement and then some that
stand behind the nearest one, on its last line. -/
structure PartedBehind (doc : Document) (earlier comments above behind : List Tree) : Prop where
  comments_eq : comments = above ++ behind
  clear : ∀ c ∈ above, ¬ doc.StandsBehind earlier c
  trailing : ∀ c ∈ behind, doc.StandsBehind earlier c
  nearest : ∀ c ∈ comments, doc.StandsBehind earlier c ↔
    ∃ s ∈ earlier.find? Tree.isStatement, doc.row s.label.stop = doc.row c.label.start
  harmless : joinedLines (doc.docLines comments) = joinedLines (doc.docLines above) ↔
    doc.docLines behind = []

/-- A node is documented by the comments of the longest run above its anchor, and its summary and its
stated conditions are read off their text. -/
structure DocumentedBy (doc : Document) (t : Tree) (spine : Tree.Spine) (anchor : Tree)
    (earlier run : List Tree) : Prop where
  anchored : t.AnchoredAt spine anchor earlier
  longest : doc.IsRunAbove anchor earlier run
  collected : doc.docComments (doc.row anchor.label.start) earlier =
    (run.filter Tree.isComment).map doc.textOf
  profile : ∀ d : Declaration,
    (doc.profileOf t spine d).doc = joinedLines (doc.docLines (run.filter Tree.isComment)) ∧
    (doc.profileOf t spine d).summary =
      summaryOf d (joinedLines (doc.docLines (run.filter Tree.isComment))) ∧
    (doc.profileOf t spine d).invariants =
      conditionsOf (joinedLines (doc.docLines (run.filter Tree.isComment))) (doc.textOf t)
  parted : InTextOrder earlier →
    ∃ above behind, doc.PartedBehind earlier (run.filter Tree.isComment) above behind

end Document

/-- In every language but Python a declaration is documented by the longest run of marked comments
directly above it or the statements that wrap it. The farthest of these may stand behind the statement
before, on its last line. -/
theorem documentation_is_the_run_above {doc : Document} (hlanguage : doc.language ≠ .python)
    (t : Tree) (spine : Tree.Spine) :
    ∃ run, doc.DocumentedBy t spine (docAnchor t spine).1
      ((docAnchor t spine).2.head?.elim [] Tree.Frame.earlier) run := by
  set anchor := (docAnchor t spine).1
  set earlier := (docAnchor t spine).2.head?.elim [] Tree.Frame.earlier
  obtain ⟨run, hrun, hcomments⟩ := doc.exists_isRunAbove anchor earlier
  refine ⟨run, docAnchor_anchoredAt t spine, hrun, hcomments, ?_, ?_⟩
  · have hdoc : doc.docOf t spine = joinedLines (doc.docLines (run.filter Tree.isComment)) := by
      rw [Document.docOf, if_neg hlanguage]
      change joinedLines (((doc.docComments _ earlier).reverse.flatMap _).filterMap _) = _
      rw [hcomments, Document.docLines_eq]
    intro d
    rw [← hdoc]
    exact ⟨rfl, rfl, rfl⟩
  · intro horder
    obtain ⟨above, behind, hsplit, habove, hbehind⟩ := exists_append_of_pairwise
      ((hrun.pairwise_standsBehind horder).sublist List.filter_sublist)
    refine ⟨above, behind, hsplit, habove, hbehind, fun c hc => ?_, ?_⟩
    · exact hrun.standsBehind_iff horder (List.mem_of_mem_filter hc)
    · rw [hsplit, Document.docLines_append, joinedLines_append_eq_iff]

/-- The tree of `int a; // must be even`, `// Next.` and `int b;` on three lines. -/
def trailedDeclarations : Tree :=
  let inner (kind : String) (field : Option String) (start stop : Nat) (children : List Tree) :=
    Tree.node { kind := kind, named := true, field := field, start := start, stop := stop } children
  let semicolon (start : Nat) : Tree :=
    .node { kind := ";", named := false, start := start, stop := start + 1 } []
  inner "translation_unit" none 0 39
    [inner "declaration" none 0 6
      [inner "primitive_type" (some "type") 0 3 [], inner "identifier" (some "declarator") 4 5 [],
        semicolon 5],
      inner "comment" none 7 22 [], inner "comment" none 23 31 [],
      inner "declaration" none 32 38
        [inner "primitive_type" (some "type") 32 35 [],
          inner "identifier" (some "declarator") 36 37 [], semicolon 37]]

/-- The document with this tree. -/
def trailedSource : Document :=
  .ofSource .c "int a; // must be even\n// Next.\nint b;\n" trailedDeclarations

/-- The comment in the first line stands behind a statement and documents the declaration in the
third line all the same. -/
theorem documentation_is_the_run_above_trailed :
    let t := trailedDeclarations.children[3]
    let earlier := (trailedDeclarations.children.take 3).reverse
    trailedSource.language ≠ .python ∧ InTextOrder earlier ∧
      ∃ run above behind, trailedSource.IsRunAbove t earlier run ∧
        run.filter Tree.isComment = above ++ behind ∧
        (∀ c ∈ above, ¬ trailedSource.StandsBehind earlier c) ∧
        (∀ c ∈ behind, trailedSource.StandsBehind earlier c) ∧
        trailedSource.docLines behind ++ trailedSource.docLines above = ["must be even", "Next."] := by
  intro t earlier
  have hlanguage : trailedSource.language ≠ .python := by decide
  have horder : InTextOrder earlier := ⟨by decide, by decide⟩
  obtain ⟨run, hdocumented⟩ :=
    documentation_is_the_run_above hlanguage t [⟨trailedDeclarations, earlier⟩]
  obtain ⟨above, behind, hparted⟩ := hdocumented.parted horder
  refine ⟨hlanguage, horder, run, above, behind, hdocumented.longest, hparted.comments_eq,
    hparted.clear, hparted.trailing, ?_⟩
  rw [← Document.docLines_append, ← hparted.comments_eq, Document.docLines_eq,
    ← hdocumented.collected]
  decide

/-- So a comment behind a declaration becomes the documentation of the next one. -/
theorem trailing_comment_documents_next_declaration :
    trailedDeclarations.errorOffset? = none ∧
    trailedSource.StandsBehind (trailedDeclarations.children.take 3).reverse
      trailedDeclarations.children[1] ∧
    ∃ facts, extractSource ⟨"m.c"⟩ trailedSource.language trailedSource.text trailedSource.tree =
        .ok facts ∧
      facts.declarations.map (fun d => (d.name, d.profile.doc, d.profile.summary)) =
        [("a", none, "A"), ("b", some "must be even\nNext.", "must be even Next")] := by
  have hmem : trailedDeclarations.children[0] ∈ (trailedDeclarations.children.take 3).reverse :=
    .tail _ (.tail _ (.head _))
  refine ⟨rfl, ⟨trailedDeclarations.children[0], hmem, by decide, by decide, by decide⟩, _, rfl, ?_⟩
  decide

end CodeAtlas
