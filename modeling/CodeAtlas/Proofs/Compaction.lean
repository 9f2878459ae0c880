import CodeAtlas.Facts.Folding
import CodeAtlas.Proofs.Lists
import CodeAtlas.Proofs.ParentLinks

/-!
# Folding is a compaction

Folding drops the repeated declarations of C and C++ and renumbers the rest. What remains for a
dropped entry is never dropped itself, and it has the name and the parent of the entry. The new
index of an entry is the place of what remains for it among the kept entries, so renumbering
respects parent links and every kept place is the new index of some entry.
-/

namespace CodeAtlas

namespace Outline

variable {entries : List Entry} {i t : Nat}

/-- What remains for a function of the module is kept and has its name. -/
theorem functionSurvivor?_spec {name : String} (h : functionSurvivor? entries name = some t) :
    ∃ s, entries[t]? = some s ∧ s.declaration.parent = none ∧ s.declaration.name = name ∧
      isKept entries t := by
  have hparent {s : Entry} (hmodule : isModuleFunction s) : s.declaration.parent = none :=
    Option.isNone_iff_eq_none.mp (Bool.and_eq_true_iff.mp hmodule).1
  rcases Option.or_eq_some_iff.mp h with hdefinition | ⟨_, hprototype⟩
  · obtain ⟨s, hs, hnamed⟩ := firstIndex?_eq_some hdefinition
    simp only [Bool.and_eq_true, Bool.not_eq_true', beq_iff_eq] at hnamed
    obtain ⟨⟨hmodule, hname⟩, hbody⟩ := hnamed
    refine ⟨s, hs, hparent hmodule, hname, ?_⟩
    -- A definition is dropped in favour of a member of its parent only, and it has no parent.
    simp [isKept, survivor?, hs, hbody, hparent hmodule]
  · obtain ⟨s, hs, hnamed⟩ := firstIndex?_eq_some hprototype
    simp only [Bool.and_eq_true, beq_iff_eq] at hnamed
    obtain ⟨⟨hmodule, rfl⟩, hproto⟩ := hnamed
    refine ⟨s, hs, hparent hmodule, rfl, ?_⟩
    simp [isKept, survivor?, hs, hproto, hmodule, h]

/-- What remains for a member of a class is kept and has its name and parent. -/
theorem memberSurvivor?_spec {parent : Nat} {name : String}
    (h : memberSurvivor? entries parent name = some t) :
    ∃ s, entries[t]? = some s ∧ s.declaration.parent = some parent ∧ s.declaration.name = name ∧
      isKept entries t := by
  obtain ⟨s, hs, hnamed⟩ := firstIndex?_eq_some h
  simp only [Bool.and_eq_true, beq_iff_eq] at hnamed
  obtain ⟨⟨hparent, hproto⟩, hname⟩ := hnamed
  refine ⟨s, hs, hparent, hname, ?_⟩
  simp [isKept, survivor?, hs, hproto, isModuleFunction, hparent]

/-- What remains for a dropped entry is kept and has its name and parent. -/
theorem survivor?_spec (h : survivor? entries i = some t) :
    ∃ e s, entries[i]? = some e ∧ entries[t]? = some s ∧
      s.declaration.parent = e.declaration.parent ∧ s.declaration.name = e.declaration.name ∧
      isKept entries t := by
  rw [survivor?] at h
  split at h
  · cases h
  · rename_i e he
    split at h
    · split at h
      · rename_i hmodule
        obtain ⟨s, hs, hparent, hname, hkept⟩ :=
          functionSurvivor?_spec (Option.filter_eq_some_iff.mp h).1
        have hnone := Option.isNone_iff_eq_none.mp (Bool.and_eq_true_iff.mp hmodule).1
        exact ⟨e, s, he, hs, hparent.trans hnone.symm, hname, hkept⟩
      · cases h
    · split at h
      · obtain ⟨parent, hp, hmember⟩ := Option.bind_eq_some_iff.mp h
        obtain ⟨s, hs, hparent, hname, hkept⟩ := memberSurvivor?_spec hmember
        exact ⟨e, s, he, hs, hparent.trans hp.symm, hname, hkept⟩
      · cases h

/-- The index of what remains for the entry at an index. -/
def remaining (entries : List Entry) (i : Nat) : Nat := (survivor? entries i).getD i

/-- What remains for an entry is kept and has its name and parent. -/
theorem remaining_spec {e : Entry} (h : entries[i]? = some e) :
    ∃ s, entries[remaining entries i]? = some s ∧ s.declaration.parent = e.declaration.parent ∧
      s.declaration.name = e.declaration.name ∧ isKept entries (remaining entries i) := by
  rw [remaining]
  cases hsurvivor : survivor? entries i with
  | none => exact ⟨e, h, rfl, rfl, by simp [isKept, hsurvivor]⟩
  | some t =>
    obtain ⟨e', s, he, hs, hparent, hname, hkept⟩ := survivor?_spec hsurvivor
    obtain rfl : e' = e := Option.some.inj (he.symm.trans h)
    exact ⟨s, hs, hparent, hname, hkept⟩

/-- Counting the kept positions before an index counts the kept entries before it. -/
theorem countP_isKept (ht : t ≤ entries.length) :
    (entries.zipIdx.take t).countP (fun x => isKept entries x.2) =
      (List.range t).countP (isKept entries) := by
  have hsnd : (entries.zipIdx.take t).map Prod.snd = List.range t := by
    rw [List.map_take, List.zipIdx_map_snd, List.range_eq_range', List.take_range'_of_length_ge ht]
  rw [← hsnd, List.countP_map]
  rfl

/-- The kept entries with their old indices. -/
def keptIndexed (entries : List Entry) : List (Entry × Nat) :=
  entries.zipIdx.filter fun x => isKept entries x.2

/-- What remains for an entry stands at the entry's new index. -/
theorem keptIndexed_newIndex {e : Entry} (h : entries[i]? = some e) :
    ∃ s, (keptIndexed entries)[newIndex entries i]? = some (s, remaining entries i) ∧
      s.declaration.parent = e.declaration.parent ∧ s.declaration.name = e.declaration.name := by
  obtain ⟨s, hs, hparent, hname, hkept⟩ := remaining_spec h
  have hlt := (List.getElem?_eq_some_iff.mp hs).1
  have hindexed : entries.zipIdx[remaining entries i]? = some (s, remaining entries i) := by
    simp [List.getElem?_zipIdx, hs]
  have hplace := getElem?_filter_countP (p := fun x => isKept entries x.2) hindexed hkept
  rw [countP_isKept (Nat.le_of_lt hlt)] at hplace
  exact ⟨s, hplace, hparent, hname⟩

/-- Renumbering respects parent links. -/
theorem parentAt_kept {e : Entry} (h : entries[i]? = some e) :
    parentAt (kept entries) (newIndex entries i) =
      some (e.declaration.parent.map (newIndex entries)) := by
  obtain ⟨s, hs, hparent, _⟩ := keptIndexed_newIndex h
  rw [parentAt, kept, List.getElem?_map]
  change (((keptIndexed entries)[newIndex entries i]?).map _).map _ = _
  rw [hs, ← hparent]
  rfl

/-- New indices are in range. -/
theorem newIndex_lt (hi : i < entries.length) : newIndex entries i < (kept entries).length :=
  lt_of_parentAt (parentAt_kept (List.getElem?_eq_getElem hi))

/-- Every place among the kept entries is the new index of an entry. -/
theorem exists_newIndex {k : Nat} (hk : k < (kept entries).length) :
    ∃ i, i < entries.length ∧ newIndex entries i = k := by
  have hlength : (kept entries).length = (keptIndexed entries).length := List.length_map ..
  obtain ⟨⟨e, i⟩, hplace⟩ : ∃ x, (keptIndexed entries)[k]? = some x :=
    ⟨_, List.getElem?_eq_getElem (hlength ▸ hk)⟩
  obtain ⟨hmem, hkept⟩ := List.mem_filter.mp (List.mem_of_getElem? hplace)
  have he := List.mk_mem_zipIdx_iff_getElem?.mp hmem
  obtain ⟨s, hs, _⟩ := keptIndexed_newIndex he
  refine ⟨i, (List.getElem?_eq_some_iff.mp he).1, ?_⟩
  -- The entry is kept, so it remains for itself, and a kept entry stands at one place only.
  have hself : remaining entries i = i := by
    rw [remaining, Option.isNone_iff_eq_none.mp hkept, Option.getD_none]
  have hnodup : ((keptIndexed entries).map Prod.snd).Nodup := by
    refine List.Nodup.sublist (List.Sublist.map _ List.filter_sublist) ?_
    rw [List.zipIdx_map_snd]
    exact List.nodup_range'
  refine (List.getElem?_inj ?_ hnodup).mp ?_
  · rw [List.length_map]
    exact (List.getElem?_eq_some_iff.mp hs).1
  · rw [List.getElem?_map, List.getElem?_map, hs, hplace, hself]
    rfl

/-- Folding keeps climbs finite. -/
theorem kept_climbs
    (h : ∀ i < entries.length,
      ∃ chain, Climb (parentAt (entries.map (·.declaration))) (some i) chain)
    {k : Nat} (hk : k < (kept entries).length) :
    ∃ chain, Climb (parentAt (kept entries)) (some k) chain := by
  obtain ⟨i, hi, rfl⟩ := exists_newIndex hk
  obtain ⟨chain, hclimb⟩ := h i hi
  refine ⟨chain.map (newIndex entries), hclimb.map (newIndex entries) ?_⟩
  intro index parent hlink
  rw [parentAt, List.getElem?_map, Option.map_map] at hlink
  obtain ⟨e, he, rfl⟩ := Option.map_eq_some_iff.mp hlink
  exact parentAt_kept he

end Outline

end CodeAtlas
