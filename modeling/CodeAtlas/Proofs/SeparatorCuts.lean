import CodeAtlas.Proofs.Splitting

/-!
# Cutting names at their separators

A qualified name is cut at its leftmost separator, what is behind it is cut again, and the last piece
has no separator left. There is one way of doing this: where the leftmost separator starts decides
what stands before it, and its first character tells which of the three it is. The scan from the left
finds these cuts. It keeps in mind the characters since the last separator, and no separator of the
whole text starts among them, so neither `a:::b` nor `a-->b` is cut too late or inside of a piece.
-/

namespace CodeAtlas.Text

/-- A text is cut at a separator, and none starts further left. -/
structure IsLeftmostCut (s before sep after : String) : Prop where
  text_eq : s = before ++ sep ++ after
  separator : sep ∈ separators
  leftmost : ∀ before' sep' after', sep' ∈ separators → s = before' ++ sep' ++ after' →
    before.length ≤ before'.length

/-- A text is cut at its leftmost separator, and what is behind it in the same way, until a last
piece has none. Every piece but the last is listed with the separator behind it. -/
inductive IsCut : String → List (String × String) → String → Prop
  | last {s : String} (hfree : isQualified s = false) : IsCut s [] s
  | next {s piece sep rest last : String} {cuts : List (String × String)}
      (hcut : IsLeftmostCut s piece sep rest) (hrest : IsCut rest cuts last) :
      IsCut s ((piece, sep) :: cuts) last

variable {s before sep after last : String} {cuts : List (String × String)}

/-- Separators are not empty, and the first character tells them apart. -/
theorem separators_apart : (∀ sep ∈ separators, 0 < sep.length) ∧
    ∀ sep ∈ separators, ∀ sep' ∈ separators, sep.toList.head? = sep'.toList.head? → sep = sep' := by
  decide

/-- No separator occurs in front of the leftmost one. -/
theorem IsLeftmostCut.not_isQualified (h : IsLeftmostCut s before sep after) :
    isQualified before = false := by
  refine Bool.eq_false_iff.mpr fun hqualified => ?_
  obtain ⟨after', before', sep', hsep', rfl⟩ := isQualified_iff.mp hqualified
  have hle := h.leftmost before' sep' (after' ++ sep ++ after) hsep' (by
    rw [h.text_eq]
    simp only [String.append_assoc])
  have hpositive := separators_apart.1 sep' hsep'
  rw [String.length_append, String.length_append] at hle
  omega

/-- A text has one leftmost cut at most. -/
theorem IsLeftmostCut.unique {before' sep' after' : String} (h : IsLeftmostCut s before sep after)
    (h' : IsLeftmostCut s before' sep' after') : before = before' ∧ sep = sep' ∧ after = after' := by
  have hlength : before.length = before'.length :=
    Nat.le_antisymm (h.leftmost _ _ _ h'.separator h'.text_eq)
      (h'.leftmost _ _ _ h.separator h.text_eq)
  have hchars : before.toList ++ (sep.toList ++ after.toList) =
      before'.toList ++ (sep'.toList ++ after'.toList) := by
    simpa using congrArg String.toList (h.text_eq.symm.trans h'.text_eq)
  rw [← String.length_toList, ← String.length_toList] at hlength
  obtain ⟨hbefore, hbehind⟩ := List.append_inj hchars hlength
  have hnonempty {sep : String} (hsep : sep ∈ separators) : sep.toList ≠ [] := by
    have hpositive := separators_apart.1 sep hsep
    rw [← String.length_toList] at hpositive
    exact List.ne_nil_of_length_pos hpositive
  have hhead : sep.toList.head? = sep'.toList.head? := by
    rw [← List.head?_append_of_ne_nil _ (hnonempty h.separator), hbehind,
      List.head?_append_of_ne_nil _ (hnonempty h'.separator)]
  obtain rfl := separators_apart.2 sep h.separator sep' h'.separator hhead
  exact ⟨String.toList_inj.mp hbefore, rfl, String.toList_inj.mp (List.append_cancel_left hbehind)⟩

/-- A text with a leftmost cut has a separator. -/
theorem IsLeftmostCut.isQualified (h : IsLeftmostCut s before sep after) : isQualified s = true :=
  isQualified_iff.mpr ⟨after, before, sep, h.separator, h.text_eq⟩

namespace IsCut

/-- There is one way to cut a text. -/
theorem unique {last' : String} {cuts' : List (String × String)} (h : IsCut s cuts last)
    (h' : IsCut s cuts' last') : cuts = cuts' ∧ last = last' := by
  induction h generalizing cuts' last' with
  | last hfree =>
    cases h' with
    | last => exact ⟨rfl, rfl⟩
    | next hcut' => exact absurd (hfree.symm.trans hcut'.isQualified) Bool.false_ne_true
  | next hcut _ ih =>
    cases h' with
    | last hfree' => exact absurd (hfree'.symm.trans hcut.isQualified) Bool.false_ne_true
    | next hcut' hrest' =>
      obtain ⟨rfl, rfl, rfl⟩ := hcut.unique hcut'
      obtain ⟨rfl, rfl⟩ := ih hrest'
      exact ⟨rfl, rfl⟩

/-- The pieces and the separators make up the text. -/
theorem text_eq (h : IsCut s cuts last) :
    s = String.join (cuts.map fun cut => cut.1 ++ cut.2) ++ last := by
  induction h with
  | last => simp
  | next hcut _ ih =>
    rw [hcut.text_eq, List.map_cons, String.join_cons, @String.append_assoc _ (String.join _), ← ih]

/-- The pieces hold no separator, and separators stand between them. -/
theorem forall_cuts (h : IsCut s cuts last) :
    (∀ cut ∈ cuts, isQualified cut.1 = false ∧ cut.2 ∈ separators) ∧ isQualified last = false := by
  induction h with
  | last hfree => exact ⟨List.forall_mem_nil _, hfree⟩
  | next hcut _ ih =>
    exact ⟨List.forall_mem_cons.mpr ⟨⟨hcut.not_isQualified, hcut.separator⟩, ih.1⟩, ih.2⟩

end IsCut

/-! ### The scan from the left -/

variable {piece rest : List Char}

/-- No separator of the text starts among the characters that a scan has gathered. -/
def Gathers (piece rest : List Char) : Prop :=
  ∀ sep ∈ separators, ∀ before after, piece.reverse ++ rest = before ++ sep.toList ++ after →
    piece.length ≤ before.length

/-- Some pieces are those of a cut text that are not empty. -/
def ArePieces (found : List String) (s : String) : Prop :=
  ∃ cuts last, IsCut s cuts last ∧ found = (cuts.map (·.1) ++ [last]).filter (· ≠ "")

/-- A finished piece counts unless it is empty. -/
theorem addSegment_filter (piece : List Char) (later : List String) :
    addSegment piece (later.filter (· ≠ "")) =
      (String.ofList piece.reverse :: later).filter (· ≠ "") := by
  cases piece with
  | nil => rfl
  | cons c piece => simp [addSegment]

/-- At the end of the text, what was gathered is the last piece. -/
theorem Gathers.arePieces_end (h : Gathers piece []) :
    ArePieces (addSegment piece []) (.ofList piece.reverse) := by
  refine ⟨[], _, .last (Bool.eq_false_iff.mpr fun hqualified => ?_), addSegment_filter piece []⟩
  obtain ⟨after, before, sep, hsep, htext⟩ := isQualified_iff.mp hqualified
  have hchars : piece.reverse = before.toList ++ sep.toList ++ after.toList := by
    simpa using congrArg String.toList htext
  have hle := h sep hsep before.toList after.toList (by rw [List.append_nil, hchars])
  have hlength := congrArg List.length hchars
  have hpositive := separators_apart.1 sep hsep
  rw [List.length_reverse, List.length_append, List.length_append,
    String.length_toList (s := sep)] at hlength
  omega

/-- At a separator, what was gathered is a piece, and the others are those of the rest. -/
theorem Gathers.arePieces_append {found : List String} (sep : String) (hsep : sep ∈ separators)
    (h : Gathers piece (sep.toList ++ rest)) (hrest : ArePieces found (.ofList rest)) :
    ArePieces (addSegment piece found) (.ofList (piece.reverse ++ (sep.toList ++ rest))) := by
  obtain ⟨cuts, last, hcut, rfl⟩ := hrest
  refine ⟨(.ofList piece.reverse, sep) :: cuts, last, .next ⟨?_, hsep, ?_⟩ hcut,
    addSegment_filter piece _⟩
  · simp [← String.toList_inj]
  · intro before' sep' after' hsep' htext
    have hle := h sep' hsep' before'.toList after'.toList (by
      simpa using congrArg String.toList htext)
    rwa [String.length_toList, ← List.length_reverse, ← String.length_ofList] at hle

/-- A character with which no separator starts is gathered. -/
theorem Gathers.cons {c : Char} (h : Gathers piece (c :: rest))
    (hnone : ∀ sep ∈ separators, ∀ after, c :: rest ≠ sep.toList ++ after) :
    Gathers (c :: piece) rest := by
  intro sep hsep before after htext
  have hsame : piece.reverse ++ c :: rest = before ++ (sep.toList ++ after) := by
    rw [← List.append_assoc, ← htext]
    simp
  have hle := h sep hsep before after (by rw [hsame, List.append_assoc])
  rcases Nat.lt_or_eq_of_le hle with hless | hequal
  · exact hless
  · have hbehind := (List.append_inj hsame (by rw [List.length_reverse, hequal])).2
    exact absurd hbehind (hnone sep hsep after)

/-- A scan finds the pieces of the text from the last separator on. -/
theorem Gathers.arePieces (h : Gathers piece rest) :
    ArePieces (segmentsFrom piece rest) (.ofList (piece.reverse ++ rest)) := by
  have hstart (rest : List Char) : Gathers [] rest := fun _ _ _ _ _ => Nat.zero_le _
  -- Behind a separator the scan starts afresh; any other character joins the piece.
  fun_induction segmentsFrom piece rest with
  | case1 piece =>
    rw [List.append_nil]
    exact h.arePieces_end
  | case2 piece s ih => exact Gathers.arePieces_append "." (by decide) h (ih (hstart s))
  | case3 piece s ih => exact Gathers.arePieces_append "::" (by decide) h (ih (hstart s))
  | case4 piece s ih => exact Gathers.arePieces_append "->" (by decide) h (ih (hstart s))
  | case5 piece c s hdot hcolons harrow ih =>
    have hnone : ∀ sep ∈ separators, ∀ after, c :: s ≠ sep.toList ++ after := by
      intro sep hsep after heq
      simp only [separators, List.mem_cons, List.not_mem_nil, or_false] at hsep
      rcases hsep with rfl | rfl | rfl
      · exact hdot (List.cons.inj heq).1
      · exact hcolons after (List.cons.inj heq).1 (List.cons.inj heq).2
      · exact harrow after (List.cons.inj heq).1 (List.cons.inj heq).2
    have hgathered := ih (h.cons hnone)
    rwa [List.reverse_cons, List.append_assoc] at hgathered

/-- A text is cut into pieces at its leftmost separators, and its segments are the pieces that are not
empty. -/
structure CutsIntoSegments (s : String) (cuts : List (String × String)) (last : String) : Prop where
  isCut : IsCut s cuts last
  unique : ∀ cuts' last', IsCut s cuts' last' → cuts' = cuts ∧ last' = last
  text_eq : s = String.join (cuts.map fun cut => cut.1 ++ cut.2) ++ last
  pieces : ∀ cut ∈ cuts, isQualified cut.1 = false ∧ cut.2 ∈ separators
  lastPiece : isQualified last = false
  segments_eq : segments s = (cuts.map (·.1) ++ [last]).filter (· ≠ "")
  solid : ∀ segment ∈ segments s, segment ≠ "" ∧ isQualified segment = false
  unqualified : isQualified s = false → segments s = if s = "" then [] else [s]

/-- Every text is cut at its leftmost separators in exactly one way. The pieces and the separators
between them make up the text, and the segments are the pieces that are not empty, in their order. -/
theorem segments_are_pieces_between_separators (s : String) :
    ∃ cuts last, CutsIntoSegments s cuts last := by
  have hscan : ArePieces (segments s) s := by
    have hgathered : ArePieces (segmentsFrom [] s.toList) (.ofList ([].reverse ++ s.toList)) :=
      Gathers.arePieces fun _ _ _ _ _ => Nat.zero_le _
    rwa [List.reverse_nil, List.nil_append, String.ofList_toList] at hgathered
  obtain ⟨cuts, last, hcut, hsegments⟩ := hscan
  obtain ⟨hpieces, hlast⟩ := hcut.forall_cuts
  refine ⟨cuts, last, hcut, fun _ _ h => h.unique hcut, hcut.text_eq, hpieces, hlast, hsegments,
    fun segment hsegment => ?_, fun hfree => ?_⟩
  · rw [hsegments, List.mem_filter, List.mem_append, List.mem_map, List.mem_singleton] at hsegment
    obtain ⟨⟨cut, hmem, rfl⟩ | rfl, hnonempty⟩ := hsegment
    · exact ⟨of_decide_eq_true hnonempty, (hpieces cut hmem).1⟩
    · exact ⟨of_decide_eq_true hnonempty, hlast⟩
  · split
    · rename_i hempty
      rw [hempty]
      rfl
    · rename_i hnonempty
      exact segments_of_unqualified hnonempty hfree

example : segments "a:::b-->c.::d" = ["a", ":b-", "c", "d"] := by decide

end CodeAtlas.Text
