import CodeAtlas.Path
import CodeAtlas.Proofs.RelativeDepth

/-!
# Directories of files

The directory of a file is found by cutting its path behind the last step but one, and its names are
read from the text that is left. This text has all steps but the last, however the path is written:
the names on the way to a file are those of its directories, followed by its own.
-/

namespace CodeAtlas

namespace Path

/-- A step ends with a piece, and the pieces up to there have the steps up to there. -/
theorem exists_front {first : Bool} {start : Nat} {pieces : List String} {before after : List Step}
    {step : Step} (h : stepsOf first start pieces = before ++ step :: after) :
    ∃ front back, front ≠ [] ∧ pieces = front ++ back ∧
      stepsOf first start front = before ++ [step] ∧
      step.stop = start + (Text.joinWith "/" front).length := by
  induction pieces generalizing first start before with
  | nil => cases before <;> cases h
  | cons piece rest ih =>
    have hlength {front : List String} (hfront : front ≠ []) :
        (Text.joinWith "/" (piece :: front)).length =
          piece.length + 1 + (Text.joinWith "/" front).length := by
      obtain ⟨next, front, rfl⟩ := List.exists_cons_of_ne_nil hfront
      change (piece ++ "/" ++ Text.joinWith "/" (next :: front)).length = _
      rw [String.length_append, String.length_append]
      rfl
    rw [stepsOf] at h
    cases hcomponent : component? first piece with
    | none =>
      simp only [hcomponent] at h
      obtain ⟨front, back, hfront, rfl, hsteps, hstop⟩ := ih h
      refine ⟨piece :: front, back, List.cons_ne_nil _ _, rfl, ?_, ?_⟩
      · simp only [stepsOf, hcomponent, hsteps]
      · rw [hlength hfront, hstop]
        omega
    | some c =>
      simp only [hcomponent] at h
      cases before with
      | nil =>
        obtain ⟨rfl, -⟩ := List.cons.inj h
        exact ⟨[piece], rest, List.cons_ne_nil _ _, rfl, by simp only [stepsOf, hcomponent]; rfl, rfl⟩
      | cons s before =>
        obtain ⟨rfl, hrest⟩ := List.cons.inj h
        obtain ⟨front, back, hfront, rfl, hsteps, hstop⟩ := ih hrest
        refine ⟨piece :: front, back, List.cons_ne_nil _ _, rfl, ?_, ?_⟩
        · simp only [stepsOf, hcomponent, hsteps]
          rfl
        · rw [hlength hfront, hstop]
          omega

/-- A path starts at the root when its first character is a slash. -/
theorem isAbsolute_iff (p : Path) : p.isAbsolute = true ↔ p.text.toList.head? = some '/' := by
  rw [isAbsolute, Text.startsWith, Text.Chars.startsWith]
  cases p.text.toList with
  | nil => simp [Text.Chars.dropStart?]
  | cons c chars =>
    change (if '/' = c then some chars else none).isSome = true ↔ some c = some '/'
    rw [Option.some.injEq]
    split
    · rename_i hslash
      exact ⟨fun _ => hslash.symm, fun _ => rfl⟩
    · rename_i hother
      exact ⟨fun h => absurd h Bool.false_ne_true, fun h => absurd h.symm hother⟩

/-- The first pieces of a path are those of a beginning of its text. -/
theorem exists_text_eq {p : Path} {front back : List String} (hfront : front ≠ [])
    (hsplit : Text.splitChar '/' p.text = front ++ back) :
    Text.splitChar '/' (Text.joinWith "/" front) = front ∧
      ∃ more, p.text = Text.joinWith "/" front ++ more := by
  have hslash : "/" = String.singleton '/' := rfl
  constructor
  · refine Text.splitChar_joinWith hslash hfront fun s hs => ?_
    exact Text.contains_of_mem_splitChar hslash (hsplit ▸ List.mem_append_left back hs)
  · obtain ⟨more, hmore⟩ := Text.exists_joinWith_append "/" hfront back
    exact ⟨more, by rw [← hmore, ← hsplit, Text.joinWith_splitChar hslash]⟩

/-- A beginning with a step in it starts at the root if the path does. -/
theorem isAbsolute_front {p : Path} {front : List String} {first : Bool} {more : String}
    (htext : p.text = Text.joinWith "/" front ++ more)
    (hsplit : Text.splitChar '/' (Text.joinWith "/" front) = front)
    (hsteps : stepsOf first 0 front ≠ []) :
    (Path.mk (Text.joinWith "/" front)).isAbsolute = p.isAbsolute := by
  have hnonempty : (Text.joinWith "/" front).toList ≠ [] := by
    intro hempty
    rw [String.toList_eq_nil_iff.mp hempty] at hsplit
    rw [← hsplit] at hsteps
    exact hsteps rfl
  rw [Bool.eq_iff_iff, isAbsolute_iff, isAbsolute_iff, htext, String.toList_append,
    List.head?_append_of_ne_nil _ hnonempty]

/-- Cut behind a step, a path has the steps up to there. -/
theorem steps_cut {p : Path} {before after : List Step} {step : Step}
    (h : p.steps = before ++ step :: after) :
    (Path.mk (.ofList (p.text.toList.take step.stop))).steps = before ++ [step] := by
  have hcut {first : Bool} {before after : List Step}
      (h : stepsOf first 0 (Text.splitChar '/' p.text) = before ++ step :: after) :
      let q : Path := ⟨.ofList (p.text.toList.take step.stop)⟩
      stepsOf first 0 (Text.splitChar '/' q.text) = before ++ [step] ∧
        q.isAbsolute = p.isAbsolute := by
    obtain ⟨front, back, hfront, hsplit, hsteps, hstop⟩ := exists_front h
    obtain ⟨hagain, more, htext⟩ := exists_text_eq hfront hsplit
    have htaken : String.ofList (p.text.toList.take step.stop) = Text.joinWith "/" front := by
      rw [hstop, Nat.zero_add, htext, String.toList_append, ← String.length_toList, List.take_left,
        String.ofList_toList]
    rw [htaken]
    exact ⟨by rw [hagain, hsteps], isAbsolute_front htext hagain (by rw [hsteps]; simp)⟩
  cases habsolute : p.isAbsolute with
  | false =>
    rw [steps, habsolute, if_neg Bool.false_ne_true] at h
    obtain ⟨hsteps, hsame⟩ := hcut h
    rw [steps, hsame, habsolute, if_neg Bool.false_ne_true, hsteps]
  | true =>
    rw [steps, habsolute, if_pos rfl] at h
    cases before with
    | nil =>
      obtain ⟨rfl, -⟩ := List.cons.inj h
      obtain ⟨chars, hchars⟩ : ∃ chars, p.text.toList = '/' :: chars :=
        List.head?_eq_some_iff.mp ((isAbsolute_iff p).mp habsolute)
      have hroot : (Path.mk "/").steps = [⟨.root, 1⟩] := by rfl
      rw [hchars]
      exact hroot
    | cons root before =>
      obtain ⟨rfl, hrest⟩ := List.cons.inj h
      obtain ⟨hsteps, hsame⟩ := hcut hrest
      rw [steps, hsame, habsolute, if_pos rfl, hsteps]
      rfl

/-- The directory of a file has the components of its path but the last. -/
theorem components_parent? {p : Path} {components : List Component} {last : Component}
    (h : p.components = components ++ [last]) (hlast : last ≠ .root) :
    ∃ d, p.parent? = some d ∧ d.components = components := by
  obtain ⟨before, lasts, hsteps, rfl, hlasts⟩ := List.map_eq_append_iff.mp h
  obtain ⟨step, rfl, rfl⟩ := List.map_eq_singleton_iff.mp hlasts
  have hparent : p.parent? =
      some ⟨.ofList (p.text.toList.take (before.getLast?.elim 0 (·.stop)))⟩ := by
    rw [parent?, hsteps, List.reverse_append, List.getLast?_eq_head?_reverse]
    exact if_neg hlast
  refine ⟨_, hparent, ?_⟩
  cases List.eq_nil_or_concat before with
  | inl hnone =>
    rw [hnone]
    rfl
  | inr hsome =>
    obtain ⟨front, previous, rfl⟩ := hsome
    rw [List.concat_eq_append, List.append_assoc] at hsteps
    rw [List.concat_eq_append, List.getLast?_concat, components]
    exact congrArg _ (steps_cut hsteps)

/-- The names of a path are those of its pieces that are names. -/
theorem namesOf_stepsOf (first : Bool) (start : Nat) (pieces : List String) :
    namesOf ((stepsOf first start pieces).map (·.component)) =
      pieces.filter fun s => s ≠ "" && s ≠ "." && s ≠ ".." := by
  induction pieces generalizing first start with
  | nil => rfl
  | cons piece pieces ih =>
    rw [stepsOf, component?]
    by_cases hempty : piece = ""
    · simp [hempty, ih]
    · by_cases hdot : piece = "."
      · cases first with
        | true => simpa [hdot, namesOf] using ih false _
        | false => simp [hdot, ih]
      · by_cases hup : piece = ".."
        · simpa [hup, namesOf] using ih false _
        · simpa [hempty, hdot, hup, namesOf] using ih false _

/-- The names of a path are the pieces of its text that are not empty and do not stand for a
directory. -/
theorem namesOf_components (p : Path) :
    namesOf p.components =
      (Text.splitChar '/' p.text).filter fun s => s ≠ "" && s ≠ "." && s ≠ ".." := by
  rw [components, steps]
  split
  · exact namesOf_stepsOf false 0 _
  · exact namesOf_stepsOf true 0 _

/-- The names of a path are those of the directories and that of the file. -/
theorem namesOf_eq {p : Path} {name : String} (h : p.fileName? = some name) :
    namesOf p.components = p.directories ++ [name] := by
  rw [fileName?] at h
  split at h
  · rename_i text hlast
    obtain rfl : text = name := Option.some.inj h
    obtain ⟨front, hcomponents⟩ := List.getLast?_eq_some_iff.mp hlast
    obtain ⟨d, hparent, hd⟩ := components_parent? hcomponents nofun
    rw [directories, hparent, Option.map_some, Option.getD_some, hd, hcomponents, namesOf,
      List.filterMap_append]
    rfl
  · cases h

end Path

end CodeAtlas
