import CodeAtlas.Text.Qualified
import Mathlib.Data.List.Basic

/-!
# Last segments

The last segment of a qualified name is the shortest text that stands after one of its separators,
or all of it when it has none. So it holds no separator itself. A name that is put after a separator
is the last segment of the whole exactly when it holds none.
-/

namespace CodeAtlas.Text

namespace Chars

/-- What follows a beginning. -/
theorem dropStart?_eq_some_iff {start s rest : List Char} :
    dropStart? start s = some rest ↔ s = start ++ rest := by
  induction start generalizing s with
  | nil => exact Option.some_inj
  | cons c start ih =>
    cases s with
    | nil => exact ⟨nofun, nofun⟩
    | cons d s =>
      rw [dropStart?, List.cons_append, List.cons.injEq, ← ih]
      split
      · rename_i hcd
        exact ⟨fun h => ⟨hcd.symm, h⟩, And.right⟩
      · rename_i hcd
        exact ⟨nofun, fun h => absurd h.1.symm hcd⟩

/-- What precedes an end. -/
theorem dropEnd?_eq_some_iff {tail s rest : List Char} :
    dropEnd? tail s = some rest ↔ s = rest ++ tail := by
  rw [dropEnd?, Option.map_eq_some_iff]
  simp only [dropStart?_eq_some_iff]
  constructor
  · rintro ⟨flipped, hflipped, rfl⟩
    rw [← List.reverse_inj, hflipped]
    simp
  · rintro rfl
    exact ⟨rest.reverse, by simp, by simp⟩

/-- The text is broken at an occurrence of the separator, and none is further left. -/
theorem breakAt?_eq_some {sep s before after : List Char}
    (h : breakAt? sep s = some (before, after)) :
    s = before ++ sep ++ after ∧
      ∀ before' after', s = before' ++ sep ++ after' → before.length ≤ before'.length := by
  induction s generalizing before with
  | nil =>
    rw [breakAt?] at h
    split at h
    · rename_i hsep
      obtain ⟨rfl, rfl⟩ := Prod.mk.inj (Option.some.inj h)
      simp [List.isEmpty_iff.mp hsep]
    · cases h
  | cons c s ih =>
    rw [breakAt?] at h
    split at h
    · rename_i rest hrest
      obtain ⟨rfl, rfl⟩ := Prod.mk.inj (Option.some.inj h)
      exact ⟨dropStart?_eq_some_iff.mp hrest, fun _ _ _ => Nat.zero_le _⟩
    · rename_i hnone
      obtain ⟨⟨earlier, after⟩, hbelow, heq⟩ := Option.map_eq_some_iff.mp h
      obtain ⟨rfl, rfl⟩ := Prod.mk.inj heq
      obtain ⟨rfl, hleast⟩ := ih hbelow
      refine ⟨rfl, fun before' after' hother => ?_⟩
      cases before' with
      | nil =>
        rw [List.nil_append] at hother
        rw [dropStart?_eq_some_iff.mpr hother] at hnone
        cases hnone
      | cons d before' =>
        exact Nat.succ_le_succ (hleast before' after' (List.cons.inj hother).2)

/-- A text that has the separator is broken. -/
theorem breakAt?_isSome (before sep after : List Char) :
    (breakAt? sep (before ++ sep ++ after)).isSome = true := by
  induction before with
  | nil =>
    have hstart : dropStart? sep (sep ++ after) = some after := dropStart?_eq_some_iff.mpr rfl
    rw [List.nil_append]
    cases hs : sep ++ after with
    | nil => simp [breakAt?, (List.append_eq_nil_iff.mp hs).1]
    | cons c s =>
      rw [hs] at hstart
      rw [breakAt?, hstart]
      rfl
  | cons c before ih =>
    rw [List.cons_append, List.cons_append, breakAt?]
    split
    · rfl
    · rw [Option.isSome_map]
      exact ih

/-- Only what satisfies the condition is removed from the end. -/
theorem trimEnd_append {p : Char → Bool} {s tail : List Char} (htail : ∀ c ∈ tail, p c = true)
    (hlast : ∀ c ∈ s.getLast?, p c = false) : trimEnd p (s ++ tail) = s := by
  rw [trimEnd, List.reverse_append, List.dropWhile_append_of_pos (by simpa using htail)]
  rw [List.getLast?_eq_head?_reverse] at hlast
  cases hs : s.reverse with
  | nil => simpa using hs.symm
  | cons c rest =>
    rw [hs] at hlast
    rw [List.dropWhile_cons_of_neg (by simpa using hlast c rfl), ← hs, List.reverse_reverse]

end Chars

variable {s n sep : String}

/-- Does one of the separators occur in the text? -/
def isQualified (s : String) : Bool := separators.any fun sep => contains sep s

/-- Occurring in a text. -/
theorem contains_iff {part : String} :
    contains part s = true ↔ ∃ before after, s = before ++ part ++ after := by
  rw [contains, Chars.contains]
  constructor
  · intro h
    obtain ⟨⟨before, after⟩, hbroken⟩ := Option.isSome_iff_exists.mp h
    refine ⟨.ofList before, .ofList after, String.toList_inj.mp ?_⟩
    simpa using (Chars.breakAt?_eq_some hbroken).1
  · rintro ⟨before, after, rfl⟩
    rw [String.toList_append, String.toList_append]
    exact Chars.breakAt?_isSome _ _ _

/-- Two ways to cut a text: one of the cuts is not after the other. -/
theorem append_eq_append {a n b m : String} (h : a ++ n = b ++ m) :
    (∃ x, b = a ++ x ∧ n = x ++ m) ∨ ∃ x, a = b ++ x ∧ m = x ++ n := by
  have hchars : a.toList ++ n.toList = b.toList ++ m.toList := by
    rw [← String.toList_append, h, String.toList_append]
  simp only [← String.toList_inj, String.toList_append]
  rcases List.append_eq_append_iff.mp hchars with ⟨x, hb, hn⟩ | ⟨x, ha, hm⟩
  · exact .inl ⟨.ofList x, by simpa using hb, by simpa using hn⟩
  · exact .inr ⟨.ofList x, by simpa using ha, by simpa using hm⟩

/-- Of two ends of a text the shorter one is an end of the other. -/
theorem exists_of_size_le {a n b m : String} (h : a ++ n = b ++ m)
    (hsize : n.utf8ByteSize ≤ m.utf8ByteSize) : ∃ x, a = b ++ x ∧ m = x ++ n := by
  rcases append_eq_append h with ⟨x, rfl, rfl⟩ | hlater
  · rw [String.utf8ByteSize_append] at hsize
    have hempty : x = "" := String.utf8ByteSize_eq_zero_iff.mp (by omega)
    exact ⟨"", by simp [hempty], by simp [hempty]⟩
  · exact hlater

/-- A text stands directly after one of some separators. -/
def StandsAfter (seps : List String) (s n : String) : Prop :=
  ∃ before, ∃ sep ∈ seps, s = before ++ sep ++ n

/-- The shortest text that stands after one of some separators, or the whole text. -/
structure IsShortest (seps : List String) (s n : String) : Prop where
  stands : n = s ∨ StandsAfter seps s n
  least : ∀ m, StandsAfter seps s m → n.utf8ByteSize ≤ m.utf8ByteSize

/-- There is one shortest text. -/
theorem IsShortest.unique {seps : List String} {n m : String} (hn : IsShortest seps s n)
    (hm : IsShortest seps s m) : n = m := by
  have hend {k : String} (hk : IsShortest seps s k) :
      (∃ a, s = a ++ k) ∧ k.utf8ByteSize ≤ s.utf8ByteSize := by
    rcases hk.stands with rfl | ⟨before, sep, _, rfl⟩
    · exact ⟨⟨"", by simp⟩, Nat.le_refl _⟩
    · exact ⟨⟨_, rfl⟩, by rw [String.utf8ByteSize_append]; omega⟩
  have hsize {k l : String} (hk : IsShortest seps s k) (hl : IsShortest seps s l) :
      k.utf8ByteSize ≤ l.utf8ByteSize := by
    rcases hl.stands with rfl | hl
    · exact (hend hk).2
    · exact hk.least l hl
  obtain ⟨a, ha⟩ := (hend hn).1
  obtain ⟨b, hb⟩ := (hend hm).1
  obtain ⟨x, _, rfl⟩ := exists_of_size_le (ha.symm.trans hb) (hsize hn hm)
  have hzero := hsize hm hn
  rw [String.utf8ByteSize_append] at hzero
  have hempty : x = "" := String.utf8ByteSize_eq_zero_iff.mp (by omega)
  simp [hempty]

/-- What comes after the last occurrence of one separator. -/
theorem afterLast_isShortest (sep s : String) : IsShortest [sep] s (afterLast sep s) := by
  rw [afterLast, breakAtLast?, Chars.breakAtLast?]
  have hreverse (before after : String) (h : s = before ++ sep ++ after) :
      s.toList.reverse = after.toList.reverse ++ sep.toList.reverse ++ before.toList.reverse := by
    simp [h]
  cases hbroken : Chars.breakAt? sep.toList.reverse s.toList.reverse with
  | none =>
    refine ⟨.inl rfl, fun m ⟨before, sep', hsep, h⟩ => ?_⟩
    obtain rfl := List.mem_singleton.mp hsep
    have hsome := Chars.breakAt?_isSome m.toList.reverse sep'.toList.reverse before.toList.reverse
    rw [← hreverse _ _ h, hbroken] at hsome
    cases hsome
  | some parts =>
    obtain ⟨after, before⟩ := parts
    obtain ⟨hcut, hleast⟩ := Chars.breakAt?_eq_some hbroken
    have hs : s = .ofList before.reverse ++ sep ++ .ofList after.reverse := by
      rw [← String.toList_inj, ← List.reverse_inj, hcut]
      simp
    refine ⟨.inr ⟨_, sep, List.mem_singleton_self _, hs⟩, fun m ⟨before', sep', hsep, h⟩ => ?_⟩
    obtain rfl := List.mem_singleton.mp hsep
    have hshort := hleast _ _ (hreverse _ _ h)
    -- The end with fewer characters is an end of the other one.
    rcases append_eq_append (hs.symm.trans h) with ⟨x, _, hx⟩ | ⟨x, _, rfl⟩
    · have hlength := congrArg (fun t : String => t.toList.length) hx
      simp only [String.toList_ofList, String.toList_append, List.length_append,
        List.length_reverse] at hlength hshort
      have hempty : x = "" := by
        rw [← String.toList_inj]
        exact List.eq_nil_of_length_eq_zero (by omega)
      simp [hx, hempty]
    · simp only [Option.map_some, Option.getD_some]
      rw [String.utf8ByteSize_append]
      omega

/-- One more separator: the shorter of the two texts. -/
theorem IsShortest.step {seps : List String} {best : String} (h : IsShortest seps s best)
    (sep : String) :
    IsShortest (seps ++ [sep]) s
      (if (afterLast sep s).utf8ByteSize < best.utf8ByteSize then afterLast sep s else best) := by
  have hnew := afterLast_isShortest sep s
  have hstands {some : List String} {n : String} (hsub : some ⊆ seps ++ [sep])
      (h : n = s ∨ StandsAfter some s n) : n = s ∨ StandsAfter (seps ++ [sep]) s n :=
    h.imp_right fun ⟨before, sep', hsep, hs⟩ => ⟨before, sep', hsub hsep, hs⟩
  have hleast (m : String) (hm : StandsAfter (seps ++ [sep]) s m) :
      best.utf8ByteSize ≤ m.utf8ByteSize ∨ (afterLast sep s).utf8ByteSize ≤ m.utf8ByteSize := by
    obtain ⟨before, sep', hsep, hs⟩ := hm
    rcases List.mem_append.mp hsep with hsep | hsep
    · exact .inl (h.least m ⟨before, sep', hsep, hs⟩)
    · exact .inr (hnew.least m ⟨before, sep', hsep, hs⟩)
  split
  · refine ⟨hstands (List.subset_append_right _ _) hnew.stands, fun m hm => ?_⟩
    have := hleast m hm
    omega
  · refine ⟨hstands (List.subset_append_left _ _) h.stands, fun m hm => ?_⟩
    have := hleast m hm
    omega

/-- Going through separators. -/
theorem IsShortest.foldl {done : List String} {best : String} (h : IsShortest done s best)
    (seps : List String) :
    IsShortest (done ++ seps) s (seps.foldl (fun best sep =>
      let rest := afterLast sep s
      if rest.utf8ByteSize < best.utf8ByteSize then rest else best) best) := by
  induction seps generalizing done best with
  | nil => rwa [List.append_nil]
  | cons sep seps ih =>
    rw [← List.singleton_append, ← List.append_assoc, List.singleton_append, List.foldl_cons]
    exact ih (h.step sep)

/-- The last segment is the shortest text after a separator. -/
theorem lastSegment_isShortest (s : String) : IsShortest separators s (lastSegment s) := by
  have hstart : IsShortest [] s s := ⟨.inl rfl, fun _ ⟨_, _, hsep, _⟩ => by cases hsep⟩
  exact hstart.foldl separators

/-- The last segment is known by what it is. -/
theorem eq_lastSegment_iff : n = lastSegment s ↔ IsShortest separators s n :=
  ⟨fun h => h ▸ lastSegment_isShortest s, fun h => h.unique (lastSegment_isShortest s)⟩

/-- A text is qualified when something stands after one of its separators. -/
theorem isQualified_iff : isQualified s = true ↔ ∃ m, StandsAfter separators s m := by
  rw [isQualified, List.any_eq_true]
  simp only [contains_iff]
  constructor
  · rintro ⟨sep, hsep, before, after, hs⟩
    exact ⟨after, before, sep, hsep, hs⟩
  · rintro ⟨after, before, sep, hsep, hs⟩
    exact ⟨sep, hsep, before, after, hs⟩

/-- What stands after a separator is shorter than the whole. -/
theorem StandsAfter.size_lt {m : String} (h : StandsAfter separators s m) :
    m.utf8ByteSize < s.utf8ByteSize := by
  obtain ⟨before, sep, hsep, rfl⟩ := h
  have hpositive : ∀ sep ∈ separators, 0 < sep.utf8ByteSize := by decide
  have := hpositive sep hsep
  rw [String.utf8ByteSize_append, String.utf8ByteSize_append]
  omega

/-- What stands after a separator of an end of a text stands after one of the text. -/
theorem StandsAfter.append {m : String} (h : StandsAfter separators n m) (a : String) :
    StandsAfter separators (a ++ n) m := by
  obtain ⟨before, sep, hsep, rfl⟩ := h
  exact ⟨a ++ before, sep, hsep, by simp [String.append_assoc]⟩

/-- A shortest text holds no separator. -/
theorem IsShortest.not_isQualified (h : IsShortest separators s n) : isQualified n = false := by
  rw [Bool.eq_false_iff, Ne, isQualified_iff]
  rintro ⟨m, hm⟩
  have hs : ∃ a, s = a ++ n := by
    rcases h.stands with rfl | ⟨before, sep, _, rfl⟩
    · exact ⟨"", by simp⟩
    · exact ⟨_, rfl⟩
  obtain ⟨a, rfl⟩ := hs
  have hleast := h.least m (hm.append a)
  have hless := hm.size_lt
  omega

/-- A name by itself is its last segment when it holds no separator. -/
theorem eq_lastSegment_self_iff : n = lastSegment n ↔ isQualified n = false := by
  rw [eq_lastSegment_iff]
  refine ⟨IsShortest.not_isQualified, fun h => ⟨.inl rfl, fun m hm => ?_⟩⟩
  rw [isQualified_iff.mpr ⟨m, hm⟩] at h
  cases h

/-- A separator that is cut in two is cut between two colons or inside of an arrow. -/
theorem cut_separator {y x : String} (h : y ++ x ∈ separators) (hy : y ≠ "") (hx : x ≠ "") :
    y = ":" ∧ x = ":" ∨ y = "-" := by
  obtain ⟨c, ys, hy⟩ := List.exists_cons_of_ne_nil (mt String.toList_eq_nil_iff.mp hy)
  obtain ⟨d, xs, hx⟩ := List.exists_cons_of_ne_nil (mt String.toList_eq_nil_iff.mp hx)
  simp only [separators, List.mem_cons, List.not_mem_nil, or_false, ← String.toList_inj,
    String.toList_append, hy, hx] at h ⊢
  cases ys with
  | nil =>
    rcases h with h | h | h
    · simp at h
    · exact .inl (by simpa using h)
    · exact .inr (by simpa using congrArg List.head? h)
  | cons e ys => simp at h

/-- Two ways to cut a text in front of its last character leave the same last character. -/
theorem getLast?_eq_of_append {a n b m : String} (h : a ++ n = b ++ m) (hn : n ≠ "") (hm : m ≠ "") :
    n.toList.getLast? = m.toList.getLast? := by
  have hlast := congrArg (fun t : String => t.toList.getLast?) h
  simp only [String.toList_append] at hlast
  rwa [List.getLast?_append_of_ne_nil _ (mt String.toList_eq_nil_iff.mp hn),
    List.getLast?_append_of_ne_nil _ (mt String.toList_eq_nil_iff.mp hm)] at hlast

/-- A name that is put after a separator is the last segment when it holds no separator and does not
make another one together with it. -/
theorem eq_lastSegment_append_iff {r : String} (hsep : sep ∈ separators)
    (hapart : sep = "::" → startsWith ":" n = false) :
    n = lastSegment (r ++ sep ++ n) ↔ isQualified n = false := by
  rw [eq_lastSegment_iff]
  refine ⟨IsShortest.not_isQualified, fun h => ⟨.inr ⟨r, sep, hsep, rfl⟩, fun m hm => ?_⟩⟩
  obtain ⟨before, sep', hsep', hs⟩ := hm
  by_contra hless
  obtain ⟨x, hcut, rfl⟩ := exists_of_size_le hs.symm (by omega)
  have hinside (y : String) (hx : x = y ++ sep') : False := by
    rw [isQualified_iff.mpr ⟨m, y, sep', hsep', by rw [hx]⟩] at h
    cases h
  -- The other separator ends inside of the name, so it starts before the name or in it.
  rcases append_eq_append hcut with ⟨y, hy, rfl⟩ | ⟨y, _, hx⟩
  · by_cases hempty : y = ""
    · exact hinside "" (by simp [hempty])
    have hx : x ≠ "" := by
      rintro rfl
      simp at hless
    have hends : ∀ sep ∈ separators, sep ≠ "" ∧ sep.toList.getLast? ≠ some '-' ∧
        (sep.toList.getLast? = some ':' → sep = "::") := by decide
    obtain ⟨hne, hdash, hcolon⟩ := hends sep hsep
    have hlast := getLast?_eq_of_append hy hne hempty
    rcases cut_separator hsep' hempty hx with ⟨rfl, rfl⟩ | rfl
    · have hstart : startsWith ":" (":" ++ m) = true := by
        rw [startsWith, Chars.startsWith, String.toList_append,
          Chars.dropStart?_eq_some_iff.mpr rfl]
        rfl
      rw [hapart (hcolon hlast)] at hstart
      cases hstart
    · exact hdash hlast
  · exact hinside y hx

end CodeAtlas.Text
