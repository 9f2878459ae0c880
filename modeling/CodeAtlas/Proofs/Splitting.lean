import CodeAtlas.Proofs.Segments
import Mathlib.Data.List.TakeWhile

/-!
# Splitting what was joined

Joining pieces with a separator and splitting the text again gives the pieces back, as long as no
piece holds the separator. With a single character this is all there is to it. A longer separator
can be found too early: `a:` and `b` joined with `::` give `a:::b`, where the leftmost separator
starts inside of the first piece. So a piece that is followed by a separator must not make up
another one together with its beginning.

Qualified names have separators of several kinds. A name with none of them is one segment, and a dot
parts the segments before it from those behind it, whatever stands around it.
-/

namespace CodeAtlas.Text

namespace Chars

variable {p : Char → Bool}

/-! ### Characters as separators -/

/-- A text without the characters at which it is split is one piece. -/
theorem splitBy_of_none {s : List Char} (h : ∀ c ∈ s, p c = false) :
    splitBy p s = [s] := by
  induction s with
  | nil => rfl
  | cons c s ih =>
    obtain ⟨hc, hs⟩ := List.forall_mem_cons.mp h
    rw [splitBy, hc, ih hs]
    rfl

/-- The first piece ends where the text is first split. -/
theorem splitBy_append_cons {s : List Char} {c : Char} (rest : List Char)
    (h : ∀ d ∈ s, p d = false) (hc : p c = true) :
    splitBy p (s ++ c :: rest) = s :: splitBy p rest := by
  induction s with
  | nil => rw [List.nil_append, splitBy, if_pos hc]
  | cons d s ih =>
    obtain ⟨hd, hs⟩ := List.forall_mem_cons.mp h
    rw [List.cons_append, splitBy, hd, ih hs]
    rfl

/-- There is always a piece. -/
theorem splitBy_ne_nil (p : Char → Bool) (s : List Char) : splitBy p s ≠ [] := by
  fun_induction splitBy p s <;> simp_all

/-- A separator parts the pieces before it from those behind it. -/
theorem splitBy_append (s rest : List Char) {c : Char} (hc : p c = true) :
    splitBy p (s ++ c :: rest) = splitBy p s ++ splitBy p rest := by
  induction s with
  | nil => simp [splitBy, hc]
  | cons d s ih =>
    obtain ⟨piece, pieces, hpieces⟩ := List.exists_cons_of_ne_nil (splitBy_ne_nil p s)
    rw [List.cons_append, splitBy, ih, splitBy, hpieces]
    cases p d <;> rfl

/-- The pieces of a text are made of its characters. -/
theorem mem_of_mem_splitBy {s piece : List Char} (hpiece : piece ∈ splitBy p s) {c : Char}
    (hc : c ∈ piece) : c ∈ s ∧ p c = false := by
  induction s generalizing piece with
  | nil =>
    obtain rfl : piece = [] := by simpa [splitBy] using hpiece
    cases hc
  | cons d s ih =>
    obtain ⟨first, pieces, hpieces⟩ := List.exists_cons_of_ne_nil (splitBy_ne_nil p s)
    rw [splitBy, hpieces] at hpiece
    have hlater {other : List Char} (hother : other ∈ first :: pieces) (hc : c ∈ other) :
        c ∈ d :: s ∧ p c = false :=
      (ih (hpieces ▸ hother) hc).imp_left (List.mem_cons_of_mem d)
    cases hd : p d with
    | true =>
      rw [if_pos hd] at hpiece
      rcases List.mem_cons.mp hpiece with rfl | hpiece
      · cases hc
      · exact hlater hpiece hc
    | false =>
      rw [hd, if_neg Bool.false_ne_true] at hpiece
      rcases List.mem_cons.mp hpiece with rfl | hpiece
      · rcases List.mem_cons.mp hc with rfl | hc
        · exact ⟨List.mem_cons_self, hd⟩
        · exact hlater List.mem_cons_self hc
      · exact hlater (List.mem_cons_of_mem _ hpiece) hc

/-- Every character of a text satisfies the condition or is left by trimming. -/
theorem mem_trim_of_mem {s : List Char} {c : Char} (hc : c ∈ s) : p c = true ∨ c ∈ trim p s := by
  have hside {l : List Char} (hl : c ∈ l) : p c = true ∨ c ∈ l.dropWhile p := by
    rw [← l.takeWhile_append_dropWhile (p := p)] at hl
    exact (List.mem_append.mp hl).imp_left List.mem_takeWhile_imp
  rcases hside hc with hp | hc
  · exact .inl hp
  · apply (hside (List.mem_reverse.mpr hc)).imp_right
    intro hlast
    exact List.mem_reverse.mpr hlast

/-- Nothing is left of a text whose characters all satisfy the condition. -/
theorem trim_eq_nil {s : List Char} (h : ∀ c ∈ s, p c = true) : trim p s = [] := by
  have hstart : trimStart p s = [] := List.dropWhile_eq_nil_iff.mpr h
  rw [trim, hstart]
  rfl

/-! ### Texts as separators -/

/-- Behind a text that makes up no other separator, the separator is the leftmost one. -/
theorem breakAt?_append {sep s : List Char} (rest : List Char)
    (h : ∀ before after, s ++ sep = before ++ sep ++ after → after = []) :
    breakAt? sep (s ++ sep ++ rest) = some (s, rest) := by
  obtain ⟨⟨before, after⟩, hbroken⟩ := Option.isSome_iff_exists.mp (breakAt?_isSome s sep rest)
  obtain ⟨hcut, hleast⟩ := breakAt?_eq_some hbroken
  have hle := hleast s rest rfl
  -- An earlier separator would end in front of the given one and so stand inside of it.
  have hends : ∃ more, s ++ sep = before ++ sep ++ more := by
    rcases List.append_eq_append_iff.mp hcut with ⟨more, hlonger, _⟩ | ⟨more, hshorter, _⟩
    · have hlength := congrArg List.length hlonger
      simp only [List.length_append] at hlength
      have hmore : more = [] := List.eq_nil_of_length_eq_zero (by omega)
      exact ⟨[], by rw [hlonger, hmore]; simp⟩
    · exact ⟨more, hshorter⟩
  obtain ⟨more, hmore⟩ := hends
  obtain rfl := h before more hmore
  rw [List.append_nil, List.append_cancel_right_eq] at hmore
  subst hmore
  rw [hbroken]
  simpa using hcut.symm

/-- While a separator is being passed, its characters are left out. -/
theorem splitAtGo_skip (sep : List Char) (skip : Nat) (piece s : List Char) :
    splitAtGo sep skip piece s = splitAtGo sep 0 piece (s.drop skip) := by
  induction s generalizing skip with
  | nil => rw [List.drop_nil, splitAtGo, splitAtGo]
  | cons c s ih =>
    cases skip with
    | zero => rfl
    | succ skip => rw [splitAtGo, ih, List.drop_succ_cons]

/-- Without a separator what was read and what is left make one piece. -/
theorem splitAtGo_of_none {sep s : List Char} (piece : List Char) (h : breakAt? sep s = none) :
    splitAtGo sep 0 piece s = [piece.reverse ++ s] := by
  induction s generalizing piece with
  | nil => rw [splitAtGo, List.append_nil]
  | cons c s ih =>
    rw [breakAt?] at h
    split at h
    · cases h
    · rename_i hstart
      rw [splitAtGo, startsWith, hstart, Option.isSome_none, if_neg Bool.false_ne_true,
        ih _ (Option.map_eq_none_iff.mp h)]
      simp

/-- A piece ends at the leftmost separator. -/
theorem splitAtGo_of_some {sep s before after : List Char} (hsep : sep ≠ []) (piece : List Char)
    (h : breakAt? sep s = some (before, after)) :
    splitAtGo sep 0 piece s = (piece.reverse ++ before) :: splitAt sep after := by
  induction s generalizing piece before with
  | nil =>
    rw [breakAt?, if_neg (by simpa using hsep)] at h
    cases h
  | cons c s ih =>
    rw [breakAt?] at h
    split at h
    · rename_i rest hstart
      cases h
      have hrest : s.drop (sep.length - 1) = after := by
        have hs := dropStart?_eq_some_iff.mp hstart
        cases sep with
        | nil => exact absurd rfl hsep
        | cons d sep =>
          rw [(List.cons.inj hs).2, List.length_cons, Nat.add_sub_cancel]
          exact List.drop_left
      rw [splitAtGo, startsWith, hstart, Option.isSome_some, if_pos rfl, splitAtGo_skip, hrest,
        List.append_nil]
      rfl
    · rename_i hstart
      obtain ⟨⟨before', after'⟩, hbelow, heq⟩ := Option.map_eq_some_iff.mp h
      cases heq
      rw [splitAtGo, startsWith, hstart, Option.isSome_none, if_neg Bool.false_ne_true,
        ih _ hbelow]
      simp

/-- A character that is not in a text has the text on one of its sides. -/
theorem append_cons_eq_append {c : Char} {s rest before part after : List Char} (hc : c ∉ part)
    (hpart : part ≠ []) (h : s ++ c :: rest = before ++ part ++ after) :
    (∃ x, s = before ++ part ++ x) ∨ ∃ x, rest = x ++ part ++ after := by
  rw [List.append_assoc] at h
  rcases List.append_eq_append_iff.mp h with ⟨x, rfl, hx⟩ | ⟨x, rfl, hx⟩
  · cases x with
    | nil =>
      obtain ⟨d, part, rfl⟩ := List.exists_cons_of_ne_nil hpart
      rw [List.nil_append, List.cons_append, List.cons.injEq] at hx
      exact absurd hx.1 (List.ne_of_not_mem_cons hc)
    | cons d x =>
      rw [List.cons_append, List.cons.injEq] at hx
      exact .inr ⟨x, by rw [hx.2, List.append_assoc]⟩
  · rcases List.append_eq_append_iff.mp hx with ⟨y, rfl, _⟩ | ⟨y, rfl, hy⟩
    · exact .inl ⟨y, by rw [List.append_assoc]⟩
    · cases y with
      | nil => exact .inl ⟨[], by simp⟩
      | cons d y =>
        rw [List.cons_append, List.cons.injEq] at hy
        rw [hy.1] at hc
        exact absurd (List.mem_append_right x List.mem_cons_self) hc

end Chars

variable {pieces : List String} {sep : String}

/-! ### Occurring or not -/

/-- A text that does not occur. -/
theorem contains_eq_false_iff {part s : String} :
    contains part s = false ↔ ∀ before after, s ≠ before ++ part ++ after := by
  rw [Bool.eq_false_iff, Ne, contains_iff]
  simp only [not_exists, ne_eq]

/-- A single character that does not occur in a text. -/
theorem not_mem_of_contains_eq_false {c : Char} {s : String} (hsep : sep = String.singleton c)
    (h : contains sep s = false) : ∀ d ∈ s.toList, (d == c) = false := by
  subst hsep
  intro d hd
  rw [beq_eq_false_iff_ne]
  rintro rfl
  obtain ⟨before, after, hs⟩ := List.append_of_mem hd
  refine contains_eq_false_iff.mp h (.ofList before) (.ofList after) (String.toList_inj.mp ?_)
  rw [hs]
  simp

/-- How a text ends. -/
theorem endsWith_append (before tail : String) : endsWith tail (before ++ tail) = true := by
  rw [endsWith, Chars.endsWith, String.toList_append, Chars.dropEnd?_eq_some_iff.mpr rfl]
  rfl

/-- A text with an ending is a beginning and then the ending. -/
theorem exists_of_endsWith {tail s : String} (h : endsWith tail s = true) :
    ∃ before, s = before ++ tail := by
  obtain ⟨before, hbefore⟩ := Option.isSome_iff_exists.mp h
  refine ⟨.ofList before, String.toList_inj.mp ?_⟩
  rw [Chars.dropEnd?_eq_some_iff.mp hbefore, String.toList_append, String.toList_ofList]

/-- The text is broken at one of the separators. -/
theorem breakAtLast?_eq_some {s before after : String}
    (h : breakAtLast? sep s = some (before, after)) : s = before ++ sep ++ after := by
  rw [breakAtLast?, Chars.breakAtLast?, Option.map_map, Option.map_eq_some_iff] at h
  obtain ⟨⟨flippedAfter, flippedBefore⟩, hbroken, heq⟩ := h
  obtain ⟨rfl, rfl⟩ := Prod.mk.inj heq
  rw [← String.toList_inj, ← List.reverse_inj, (Chars.breakAt?_eq_some hbroken).1]
  simp

/-- Two colons behind a text are the first ones, unless the text has two or ends in one. -/
theorem eq_empty_of_append_colons {s before after : String} (hfree : contains "::" s = false)
    (hend : endsWith ":" s = false) (h : s ++ "::" = before ++ "::" ++ after) : after = "" := by
  rw [contains_eq_false_iff] at hfree
  by_contra hafter
  rcases append_eq_append h with ⟨x, hs, hx⟩ | ⟨x, rfl, _⟩
  · by_cases hempty : x = ""
    · exact hfree before "" (by rw [String.append_empty, hs, hempty, String.append_empty])
    · have hcut : x ++ after ∈ separators := hx ▸ by decide
      rcases cut_separator hcut hempty hafter with ⟨rfl, _⟩ | rfl
      · have hcolon : s = before ++ ":" := by
          have hchars : s.toList ++ [':'] = (before ++ ":").toList ++ [':'] := by
            simpa using congrArg String.toList hs.symm
          exact String.toList_inj.mp (List.append_cancel_right hchars)
        rw [hcolon, endsWith_append] at hend
        cases hend
      · have hhead := congrArg (fun t : String => t.toList.head?) hx
        simp at hhead
  · exact hfree before x rfl

/-! ### Joined pieces -/

/-- Joined pieces are the first one and then the others behind separators. -/
theorem toList_joinWith_cons (sep piece : String) (pieces : List String) :
    (joinWith sep (piece :: pieces)).toList =
      piece.toList ++ pieces.flatMap fun p => sep.toList ++ p.toList := by
  induction pieces generalizing piece with
  | nil => simp [joinWith]
  | cons next pieces ih => simp [joinWith, ih]

/-- Joined pieces start with the first one. -/
theorem exists_joinWith_cons (sep piece : String) (rest : List String) :
    ∃ more, joinWith sep (piece :: rest) = piece ++ more := by
  cases rest with
  | nil => exact ⟨"", String.append_empty.symm⟩
  | cons next rest => exact ⟨sep ++ joinWith sep (next :: rest), String.append_assoc⟩

/-- The first joined pieces are a beginning of the text. -/
theorem exists_joinWith_append (sep : String) {front : List String} (hfront : front ≠ [])
    (back : List String) : ∃ more, joinWith sep (front ++ back) = joinWith sep front ++ more := by
  obtain ⟨piece, front, rfl⟩ := List.exists_cons_of_ne_nil hfront
  refine ⟨.ofList (back.flatMap fun p => sep.toList ++ p.toList), ?_⟩
  rw [← String.toList_inj, String.toList_append, List.cons_append, toList_joinWith_cons,
    toList_joinWith_cons, List.flatMap_append, String.toList_ofList, List.append_assoc]

/-- A path of segments without its last one, and the last one. -/
theorem joinWith_concat (sep last : String) {path : List String} (hpath : path ≠ []) :
    joinWith sep (path ++ [last]) = joinWith sep path ++ sep ++ last := by
  induction path with
  | nil => exact absurd rfl hpath
  | cons s path ih =>
    cases path with
    | nil => rfl
    | cons t path =>
      change s ++ sep ++ joinWith sep (t :: path ++ [last]) = _
      rw [ih (List.cons_ne_nil _ _)]
      simp [joinWith, String.append_assoc]

/-- More pieces make a longer text. -/
theorem length_joinWith_lt (sep : String) (hsep : sep ≠ "") {first last : List String}
    (hfirst : first ≠ []) (hlast : last ≠ []) :
    (joinWith sep last).length < (joinWith sep (first ++ last)).length := by
  have hpositive : 0 < sep.length := by
    rw [← String.length_toList, List.length_pos_iff]
    simpa using hsep
  have hcons (piece : String) {rest : List String} (hrest : rest ≠ []) :
      (joinWith sep rest).length < (joinWith sep (piece :: rest)).length := by
    obtain ⟨next, rest, rfl⟩ := List.exists_cons_of_ne_nil hrest
    change _ < (piece ++ sep ++ joinWith sep (next :: rest)).length
    rw [String.length_append, String.length_append]
    omega
  induction first with
  | nil => exact absurd rfl hfirst
  | cons piece first ih =>
    cases first with
    | nil => exact hcons piece hlast
    | cons next first =>
      exact Nat.lt_trans (ih (List.cons_ne_nil next first))
        (hcons piece (List.cons_ne_nil next (first ++ last)))

/-- A way of splitting that takes off the pieces in front one by one gives all pieces back. -/
theorem split_joinWith {split : String → List String} (hpieces : pieces ≠ [])
    (hfront : ∀ s ∈ pieces.dropLast, ∀ rest, split (s ++ sep ++ rest) = s :: split rest)
    (hlast : ∀ s ∈ pieces, split s = [s]) : split (joinWith sep pieces) = pieces := by
  induction pieces with
  | nil => exact absurd rfl hpieces
  | cons piece rest ih =>
    cases rest with
    | nil => exact hlast piece List.mem_cons_self
    | cons next rest =>
      rw [List.dropLast_cons_cons] at hfront
      obtain ⟨hpiece, hfront⟩ := List.forall_mem_cons.mp hfront
      change split (piece ++ sep ++ joinWith sep (next :: rest)) = _
      rw [hpiece, ih (List.cons_ne_nil _ _) hfront fun s hs => hlast s (List.mem_cons_of_mem _ hs)]

/-- A separator parts the pieces of a text. -/
theorem splitChar_append {c : Char} {sep : String} (hsep : sep = String.singleton c)
    (s rest : String) : splitChar c (s ++ sep ++ rest) = splitChar c s ++ splitChar c rest := by
  have hchars : (s ++ sep ++ rest).toList = s.toList ++ c :: rest.toList := by simp [hsep]
  rw [splitChar, splitBy, hchars, Chars.splitBy_append (p := (· == c)) _ _ (beq_self_eq_true c),
    List.map_append]
  rfl

/-- Pieces that were joined with a character none of them holds are split again. -/
theorem splitChar_joinWith {c : Char} (hsep : sep = String.singleton c) (hpieces : pieces ≠ [])
    (hfree : ∀ s ∈ pieces, contains sep s = false) :
    splitChar c (joinWith sep pieces) = pieces := by
  refine split_joinWith hpieces (fun s hs rest => ?_) fun s hs => ?_
  · have hchars : (s ++ sep ++ rest).toList = s.toList ++ c :: rest.toList := by simp [hsep]
    have hnone := not_mem_of_contains_eq_false hsep (hfree s (List.dropLast_subset _ hs))
    rw [splitChar, splitBy, hchars, Chars.splitBy_append_cons _ hnone (beq_self_eq_true c)]
    simp [splitChar, splitBy]
  · rw [splitChar, splitBy, Chars.splitBy_of_none (not_mem_of_contains_eq_false hsep (hfree s hs))]
    simp

/-- Pieces that were split at a character and are joined with it again make up the text. -/
theorem joinWith_splitChar {c : Char} {sep : String} (hsep : sep = String.singleton c) (s : String) :
    joinWith sep (splitChar c s) = s := by
  rw [hsep, ← String.toList_inj, splitChar, splitBy]
  induction s.toList with
  | nil => rfl
  | cons d chars ih =>
    obtain ⟨piece, pieces, hpieces⟩ := List.exists_cons_of_ne_nil (Chars.splitBy_ne_nil (· == c) chars)
    rw [hpieces, List.map_cons, toList_joinWith_cons, String.toList_ofList] at ih
    rw [Chars.splitBy, hpieces, ← ih]
    by_cases hd : (d == c) = true
    · rw [if_pos hd, List.map_cons, List.map_cons, toList_joinWith_cons, beq_iff_eq.mp hd]
      simp
    · rw [if_neg hd, List.map_cons, toList_joinWith_cons]
      simp

/-- The pieces between the occurrences of a character do not hold it. -/
theorem contains_of_mem_splitChar {c : Char} {sep s piece : String}
    (hsep : sep = String.singleton c) (h : piece ∈ splitChar c s) : contains sep piece = false := by
  subst hsep
  obtain ⟨chars, hchars, rfl⟩ := List.mem_map.mp h
  refine contains_eq_false_iff.mpr fun before after heq => ?_
  have hmem : c ∈ chars := by
    rw [← String.toList_ofList (l := chars), heq]
    simp
  have hnot := (Chars.mem_of_mem_splitBy hchars hmem).2
  rw [beq_self_eq_true] at hnot
  cases hnot

/-- Pieces that were joined with a text are split again when none of them holds it, and none but the
last makes it up together with the separator behind. -/
theorem splitAt_joinWith (hpieces : pieces ≠ []) (hsep : sep ≠ "")
    (hfree : ∀ s ∈ pieces, contains sep s = false)
    (hclear : ∀ s ∈ pieces.dropLast, ∀ before after, s ++ sep = before ++ sep ++ after →
      after = "") :
    splitAt sep (joinWith sep pieces) = pieces := by
  refine split_joinWith hpieces (fun s hs rest => ?_) fun s hs => ?_
  · have hbroken : Chars.breakAt? sep.toList (s.toList ++ sep.toList ++ rest.toList) =
        some (s.toList, rest.toList) := by
      refine Chars.breakAt?_append _ fun before after hcut => ?_
      have htext : s ++ sep = .ofList before ++ sep ++ .ofList after := by
        rw [← String.toList_inj]
        simpa using hcut
      simpa using hclear s hs _ _ htext
    rw [splitAt, Chars.splitAt, String.toList_append, String.toList_append,
      Chars.splitAtGo_of_some (by simpa using hsep) [] hbroken]
    simp [splitAt]
  · have hnone : Chars.breakAt? sep.toList s.toList = none := by
      have hmissing := hfree s hs
      rwa [contains, Chars.contains, Option.isSome_eq_false_iff,
        Option.isNone_iff_eq_none] at hmissing
    rw [splitAt, Chars.splitAt, Chars.splitAtGo_of_none [] hnone]
    simp

/-- Joined pieces hold a text only where one of them does, if the character between them is not in
it. -/
theorem contains_joinWith {c : Char} {part : String} (hsep : sep = String.singleton c)
    (hpart : part ≠ "") (hc : c ∉ part.toList) (hfree : ∀ s ∈ pieces, contains part s = false) :
    contains part (joinWith sep pieces) = false := by
  induction pieces with
  | nil =>
    refine contains_eq_false_iff.mpr fun before after h => hpart ?_
    have hchars := congrArg String.toList h
    simp only [joinWith, String.toList_append, String.toList_empty, List.nil_eq,
      List.append_eq_nil_iff, String.toList_eq_nil_iff] at hchars
    exact hchars.1.2
  | cons piece rest ih =>
    obtain ⟨hpiece, hrest⟩ := List.forall_mem_cons.mp hfree
    cases rest with
    | nil => exact hpiece
    | cons next rest =>
      have hbelow := ih hrest
      rw [contains_eq_false_iff] at hpiece hbelow ⊢
      intro before after h
      have hchars : piece.toList ++ c :: (joinWith sep (next :: rest)).toList =
          before.toList ++ part.toList ++ after.toList := by
        simpa [joinWith, hsep] using congrArg String.toList h
      rcases Chars.append_cons_eq_append hc (by simpa using hpart) hchars with
        ⟨x, hx⟩ | ⟨x, hx⟩
      · exact hpiece before (.ofList x) (String.toList_inj.mp (by simpa using hx))
      · exact hbelow (.ofList x) after (String.toList_inj.mp (by simpa using hx))

/-! ### Segments of qualified names -/

/-- Scanning a text without separators gathers it into one piece. -/
theorem segmentsFrom_of_unqualified (piece s : List Char)
    (h : ∀ sep ∈ separators, ¬ sep.toList <:+: s) :
    segmentsFrom piece s = addSegment (s.reverse ++ piece) [] := by
  fun_induction segmentsFrom piece s with
  | case1 piece => rfl
  | case2 piece s ih => exact absurd ⟨[], s, rfl⟩ (h "." (by decide))
  | case3 piece s ih => exact absurd ⟨[], s, rfl⟩ (h "::" (by decide))
  | case4 piece s ih => exact absurd ⟨[], s, rfl⟩ (h "->" (by decide))
  | case5 piece c s hdot hcolons harrow ih =>
    rw [ih fun sep hsep hinside => h sep hsep (hinside.trans (List.infix_cons List.infix_rfl))]
    simp

/-- A text without separators is its own segment. -/
theorem segments_of_unqualified {s : String} (hs : s ≠ "") (h : isQualified s = false) :
    segments s = [s] := by
  have hfree : ∀ sep ∈ separators, ¬ sep.toList <:+: s.toList := by
    rintro sep hsep ⟨before, after, hinside⟩
    have hqualified : isQualified s = true := by
      refine isQualified_iff.mpr ⟨.ofList after, .ofList before, sep, hsep, ?_⟩
      rw [← String.toList_inj, ← hinside]
      simp
    rw [h] at hqualified
    cases hqualified
  rw [segments, segmentsFrom_of_unqualified [] s.toList hfree, addSegment,
    if_neg (by simpa using hs)]
  simp

/-- A finished piece is put in front of all later ones. -/
theorem addSegment_append (piece : List Char) (before after : List String) :
    addSegment piece (before ++ after) = addSegment piece before ++ after := by
  rw [addSegment, addSegment]
  split <;> rfl

/-- A dot ends a segment wherever it stands. -/
theorem segmentsFrom_append_dot (piece s rest : List Char) :
    segmentsFrom piece (s ++ '.' :: rest) = segmentsFrom piece s ++ segmentsFrom [] rest := by
  fun_induction segmentsFrom piece s with
  | case1 piece => exact addSegment_append piece [] _
  | case2 piece s ih => simp only [List.cons_append, segmentsFrom, ih, addSegment_append]
  | case3 piece s ih => simp only [List.cons_append, segmentsFrom, ih, addSegment_append]
  | case4 piece s ih => simp only [List.cons_append, segmentsFrom, ih, addSegment_append]
  | case5 piece c s hdot hcolons harrow ih =>
    -- The dot is no second half of a separator, so the character before it stays in its piece.
    rw [← ih, List.cons_append, segmentsFrom]
    · exact hdot
    · intro s' hcolon hrest
      cases s with
      | nil => cases hrest
      | cons d s => exact hcolons s hcolon (by rw [(List.cons.inj hrest).1])
    · intro s' hdash hrest
      cases s with
      | nil => cases hrest
      | cons d s => exact harrow s hdash (by rw [(List.cons.inj hrest).1])

/-- The segments of two texts with a dot between them. -/
theorem segments_append_dot (s rest : String) :
    segments (s ++ "." ++ rest) = segments s ++ segments rest := by
  have hchars : (s ++ "." ++ rest).toList = s.toList ++ '.' :: rest.toList := by simp
  rw [segments, hchars, segmentsFrom_append_dot]
  rfl

end CodeAtlas.Text
