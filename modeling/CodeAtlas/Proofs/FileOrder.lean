import CodeAtlas.Graph.Tables
import CodeAtlas.Proofs.PathOrder

/-!
# Sorting by path

Sorting by path is stable: the items of one path keep their relative order. A sorted list is
determined by what it holds under each path, so two lists that hold the same items in the same
order under every path are sorted into the same list, however the paths are mixed.

The files of a unit are sorted and of each path only the first is kept. What remains is strictly
increasing and holds, for every path of the unit, exactly the first file with that path.
-/

namespace CodeAtlas

section Sorting

variable {α : Type} (path : α → Path)

/-- The items of a list with a path, in their order. -/
def underPath (p : Path) (items : List α) : List α := items.filter fun a => (path a).same p

/-- Are the items in the order of their paths? -/
def SortedByPath (items : List α) : Prop := items.Pairwise fun a b => (path a).le (path b) = true

/-- The items sorted by path. -/
def sortByPath (items : List α) : List α := items.mergeSort fun a b => (path a).le (path b)

/-- Do no two items have the same path? -/
def DistinctPaths (items : List α) : Prop :=
  items.Pairwise fun a b => (path a).same (path b) = false

/-- Two lists hold the same items, and those of one path in the same order. -/
structure Rearranges (items others : List α) : Prop where
  perm : items.Perm others
  sameOrder : ∀ p, underPath path p items = underPath path p others

/-- Sorting by path sorts. -/
theorem sortByPath_sorted (items : List α) : SortedByPath path (sortByPath path items) :=
  @List.pairwise_mergeSort α (fun a b => (path a).le (path b))
    (fun a b c => Path.le_trans (path a) (path b) (path c))
    (fun a b => Path.le_total (path a) (path b)) items

/-- Sorting by path keeps the items of one path in their order. -/
theorem underPath_sortByPath (p : Path) (items : List α) :
    underPath path p (sortByPath path items) = underPath path p items := by
  -- The items of one path are a sorted sublist, and a stable sort keeps those.
  have hsorted : (underPath path p items).Pairwise fun a b => (path a).le (path b) = true := by
    refine List.pairwise_filter.mpr (List.pairwise_of_forall ?_)
    intro a b ha hb
    rw [Path.le_iff, (Path.same_iff _ _).mp ha, (Path.same_iff _ _).mp hb]
  have hsub : (underPath path p items).Sublist (sortByPath path items) :=
    @List.sublist_mergeSort α (fun a b => (path a).le (path b)) items
      (fun a b c => Path.le_trans (path a) (path b) (path c))
      (fun a b => Path.le_total (path a) (path b)) _ hsorted List.filter_sublist
  have hfiltered : (underPath path p items).Sublist (underPath path p (sortByPath path items)) := by
    have hself := hsub.filter fun a => (path a).same p
    simpa [underPath, List.filter_filter] using hself
  have hlength := ((List.mergeSort_perm items fun a b => (path a).le (path b)).filter
    fun a => (path a).same p).length_eq
  exact (hfiltered.eq_of_length hlength.symm).symm

/-- An item stands among those of its own path. -/
theorem mem_underPath_self {a : α} {items : List α} :
    a ∈ underPath path (path a) items ↔ a ∈ items := by
  simp [underPath, Path.same_iff]

variable {path}

/-- Filtering by a path drops or keeps the head. -/
theorem underPath_cons (p : Path) (a : α) (items : List α) :
    underPath path p (a :: items) =
      if (path a).same p then a :: underPath path p items else underPath path p items := by
  simp [underPath, List.filter_cons]

/-- The head of a sorted list precedes all items, itself included. -/
theorem SortedByPath.head_le {a b : α} {items : List α} (h : SortedByPath path (a :: items))
    (hb : b ∈ a :: items) : (path a).le (path b) = true := by
  rcases List.mem_cons.mp hb with rfl | hb
  · exact (Path.le_iff _ _).mpr le_rfl
  · exact List.rel_of_pairwise_cons h hb

/-- Sorted lists that hold the same items in the same order under every path are equal. -/
theorem SortedByPath.eq_of_underPath {items others : List α} (hitems : SortedByPath path items)
    (hothers : SortedByPath path others)
    (hsame : ∀ p, underPath path p items = underPath path p others) : items = others := by
  induction items generalizing others with
  | nil =>
    cases others with
    | nil => rfl
    | cons b others =>
      have hb := (mem_underPath_self path).mpr (List.mem_cons_self (a := b) (l := others))
      rw [← hsame] at hb
      simp [underPath] at hb
  | cons a items ih =>
    cases others with
    | nil =>
      have ha := (mem_underPath_self path).mpr (List.mem_cons_self (a := a) (l := items))
      rw [hsame] at ha
      simp [underPath] at ha
    | cons b others =>
      -- Each head occurs in the other list, so the heads precede each other.
      have hba : (path b).le (path a) = true := by
        apply hothers.head_le
        rw [← mem_underPath_self path, ← hsame, mem_underPath_self]
        exact List.mem_cons_self
      have hab : (path a).le (path b) = true := by
        apply hitems.head_le
        rw [← mem_underPath_self path, hsame, mem_underPath_self]
        exact List.mem_cons_self
      have hkey : (path a).key = (path b).key :=
        le_antisymm ((Path.le_iff _ _).mp hab) ((Path.le_iff _ _).mp hba)
      have hhead : a = b := by
        have h := hsame (path a)
        rw [underPath_cons, underPath_cons, if_pos ((Path.same_iff _ _).mpr rfl),
          if_pos ((Path.same_iff _ _).mpr hkey.symm)] at h
        exact (List.cons.inj h).1
      subst hhead
      congr 1
      refine ih hitems.of_cons hothers.of_cons fun p => ?_
      have h := hsame p
      rw [underPath_cons, underPath_cons] at h
      split at h
      · exact (List.cons.inj h).2
      · exact h

/-- Rearranged items are sorted into the same list. -/
theorem sortByPath_eq_of_rearranges {items others : List α} (h : Rearranges path items others) :
    sortByPath path items = sortByPath path others := by
  refine (sortByPath_sorted path items).eq_of_underPath (sortByPath_sorted path others) fun p => ?_
  rw [underPath_sortByPath, underPath_sortByPath, h.sameOrder]

/-- Paths with the same components hold the same items. -/
theorem underPath_congr {p q : Path} (h : p.same q = true) (items : List α) :
    underPath path p items = underPath path q items := by
  refine List.filter_congr fun a _ => ?_
  rw [Bool.eq_iff_iff, Path.same_iff, Path.same_iff, (Path.same_iff _ _).mp h]

/-- An item with another path does not show under a path. -/
theorem underPath_append_cons_of_ne {p : Path} {a : α} (h : (path a).same p = false)
    (before after : List α) :
    underPath path p (before ++ a :: after) = underPath path p (before ++ after) := by
  rw [underPath, underPath, List.filter_append, List.filter_append, List.filter_cons, h]
  rfl

/-- One more item is sorted in between the others, which stay as they are. -/
theorem exists_sortByPath_insert (before after : List α) (a : α) :
    ∃ earlier later, sortByPath path (before ++ after) = earlier ++ later ∧
      sortByPath path (before ++ a :: after) = earlier ++ a :: later := by
  -- The items of its own path tell which place among equal items is the right one.
  have hunder : underPath path (path a) (sortByPath path (before ++ a :: after)) =
      underPath path (path a) before ++ a :: underPath path (path a) after := by
    have hself : (path a).same (path a) = true := (Path.same_iff _ _).mpr rfl
    rw [underPath_sortByPath, underPath, List.filter_append, List.filter_cons, if_pos hself]
    rfl
  obtain ⟨earlier, rest, hsplit, hearlier, hrest⟩ := List.filter_eq_append_iff.mp hunder
  obtain ⟨between, later, hlater, hbetween, _, hafter⟩ := List.filter_eq_cons_iff.mp hrest
  have hnone : underPath path (path a) between = [] :=
    List.filter_eq_nil_iff.mpr fun b hb => hbetween b hb
  have hsorted : sortByPath path (before ++ a :: after) = (earlier ++ between) ++ a :: later := by
    rw [hsplit, hlater, List.append_assoc]
  refine ⟨earlier ++ between, later, ?_, hsorted⟩
  refine (sortByPath_sorted path _).eq_of_underPath ?_ fun p => ?_
  · have hall := sortByPath_sorted path (before ++ a :: after)
    rw [hsorted] at hall
    exact hall.sublist ((List.sublist_cons_self a later).append_left _)
  · rw [underPath_sortByPath]
    cases hp : (path a).same p with
    | true =>
      rw [← underPath_congr hp, ← underPath_congr hp]
      simp only [underPath, List.filter_append] at hearlier hnone hafter ⊢
      rw [hearlier, hnone, hafter, List.append_nil]
    | false =>
      rw [← underPath_append_cons_of_ne hp, ← underPath_append_cons_of_ne hp (earlier ++ between),
        ← hsorted, underPath_sortByPath]

/-- Under one path, items with distinct paths leave no pair. -/
theorem DistinctPaths.no_pair {items : List α} (h : DistinctPaths path items) (p : Path) :
    (underPath path p items).Pairwise fun _ _ => False := by
  refine List.pairwise_filter.mpr (h.imp ?_)
  intro a b hdiffer ha hb
  have hsame := ((Path.same_iff _ _).mp ha).trans ((Path.same_iff _ _).mp hb).symm
  rw [(Path.same_iff _ _).mpr hsame] at hdiffer
  cases hdiffer

/-- Distinct paths stay distinct in any order. -/
theorem DistinctPaths.perm {items others : List α} (h : DistinctPaths path items)
    (hperm : items.Perm others) : DistinctPaths path others := by
  refine hperm.pairwise h ?_
  intro a b hdiffer
  rw [Bool.eq_false_iff, ne_eq, Path.same_iff] at hdiffer ⊢
  exact fun hsame => hdiffer hsame.symm

/-- What is made of items with distinct paths and keeps the path has distinct paths. -/
theorem DistinctPaths.filterMap {β : Type} {path' : β → Path} {items : List α}
    (h : DistinctPaths path items) (f : α → Option β)
    (hpath : ∀ a b, f a = some b → path' b = path a) :
    DistinctPaths path' (items.filterMap f) := by
  refine List.pairwise_filterMap.mpr (h.imp ?_)
  intro a a' hdiffer b hb b' hb'
  rw [hpath a b hb, hpath a' b' hb']
  exact hdiffer

/-- Any permutation of items with distinct paths keeps the order under each path. -/
theorem Rearranges.of_distinct {items others : List α} (hperm : items.Perm others)
    (hdistinct : DistinctPaths path items) : Rearranges path items others := by
  refine ⟨hperm, fun p => ?_⟩
  exact (hperm.filter _).eq_of_pairwise (fun _ _ _ _ h _ => h.elim)
    (hdistinct.no_pair p) ((hdistinct.perm hperm).no_pair p)

/-- Rearranging two parts of a list rearranges the list. -/
theorem Rearranges.append {items others items' others' : List α}
    (h : Rearranges path items others) (h' : Rearranges path items' others') :
    Rearranges path (items ++ items') (others ++ others') := by
  refine ⟨h.perm.append h'.perm, fun p => ?_⟩
  rw [underPath, List.filter_append, underPath, List.filter_append]
  exact congrArg₂ (· ++ ·) (h.sameOrder p) (h'.sameOrder p)

end Sorting

/-- Does one file come strictly before another in the order of paths? -/
def FileFacts.Precedes (file later : FileFacts) : Prop :=
  file.path.le later.path = true ∧ file.path.same later.path = false

section Distinct

variable {previous : FileFacts} {files : List FileFacts}

/-- Dropping repetitions of a path only drops. -/
theorem dropSamePath_sublist (previous : FileFacts) (files : List FileFacts) :
    (dropSamePath previous files).Sublist files := by
  induction files generalizing previous with
  | nil => exact List.Sublist.refl _
  | cons file rest ih =>
    rw [dropSamePath]
    split
    · exact (ih previous).cons _
    · exact (ih file).cons_cons _

/-- In a sorted list, what follows a file with another path never returns to the earlier path. -/
theorem SortedByPath.not_same_of_mem {file later : FileFacts} {rest : List FileFacts}
    (h : SortedByPath FileFacts.path (previous :: file :: rest))
    (hfile : file.path.same previous.path = false) (hlater : later ∈ file :: rest) :
    previous.path.same later.path = false := by
  have hup : previous.path.key ≤ file.path.key :=
    (Path.le_iff _ _).mp (h.head_le (List.mem_cons_of_mem _ List.mem_cons_self))
  have hon : file.path.key ≤ later.path.key :=
    (Path.le_iff _ _).mp (SortedByPath.head_le h.of_cons hlater)
  rw [Bool.eq_false_iff, ne_eq, Path.same_iff] at hfile ⊢
  intro hsame
  exact hfile (le_antisymm (hsame ▸ hon) hup)

/-- Dropping repetitions leaves a strictly increasing list. -/
theorem dropSamePath_precedes (h : SortedByPath FileFacts.path (previous :: files)) :
    (previous :: dropSamePath previous files).Pairwise FileFacts.Precedes := by
  induction files generalizing previous with
  | nil => exact List.pairwise_singleton _ _
  | cons file rest ih =>
    rw [dropSamePath]
    split
    · exact ih (h.sublist (List.Sublist.cons_cons _ (List.sublist_cons_self _ _)))
    · rename_i hother
      refine List.pairwise_cons.mpr ⟨?_, ih h.of_cons⟩
      intro later hlater
      have hmem : later ∈ file :: rest :=
        ((dropSamePath_sublist file rest).cons_cons file).subset hlater
      exact ⟨h.head_le (List.mem_cons_of_mem _ hmem),
        h.not_same_of_mem (Bool.eq_false_iff.mpr hother) hmem⟩

/-- Dropping repetitions keeps the first file of every path. -/
theorem underPath_dropSamePath (h : SortedByPath FileFacts.path (previous :: files)) (p : Path) :
    underPath FileFacts.path p (previous :: dropSamePath previous files) =
      (underPath FileFacts.path p (previous :: files)).take 1 := by
  induction files generalizing previous with
  | nil =>
    rw [dropSamePath, underPath_cons]
    split <;> simp [underPath]
  | cons file rest ih =>
    rw [dropSamePath]
    split
    · rename_i hsame
      have hrest := ih (h.sublist (List.Sublist.cons_cons _ (List.sublist_cons_self _ _)))
      rw [hrest, underPath_cons, underPath_cons, underPath_cons]
      have hagree : file.path.same p = previous.path.same p := by
        rw [Bool.eq_iff_iff, Path.same_iff, Path.same_iff, (Path.same_iff _ _).mp hsame]
      rw [hagree]
      split <;> rfl
    · rename_i hother
      rw [underPath_cons, ih h.of_cons, underPath_cons p previous]
      split
      · rename_i hp
        -- No later file has the path of the head.
        have hnone : underPath FileFacts.path p (file :: rest) = [] := by
          refine List.filter_eq_nil_iff.mpr fun later hlater hsame => ?_
          have hdiffer := h.not_same_of_mem (Bool.eq_false_iff.mpr hother) hlater
          rw [Bool.eq_false_iff, ne_eq, Path.same_iff] at hdiffer
          exact hdiffer (((Path.same_iff _ _).mp hp).trans ((Path.same_iff _ _).mp hsame).symm)
        rw [hnone]
        rfl
      · rfl

end Distinct

/-- The files of a unit are listed in strictly increasing order of their paths. -/
theorem orderedFiles_precedes (files : List FileFacts) :
    (orderedFiles files).Pairwise FileFacts.Precedes := by
  have hsorted := sortByPath_sorted FileFacts.path files
  change (distinctPaths (sortByPath FileFacts.path files)).Pairwise _
  cases hlist : sortByPath FileFacts.path files with
  | nil => exact List.Pairwise.nil
  | cons file rest =>
    rw [hlist] at hsorted
    exact dropSamePath_precedes hsorted

/-- Of the files with one path exactly the first is listed. -/
theorem underPath_orderedFiles (p : Path) (files : List FileFacts) :
    underPath FileFacts.path p (orderedFiles files) = (underPath FileFacts.path p files).take 1 := by
  have hsorted := sortByPath_sorted FileFacts.path files
  rw [← underPath_sortByPath FileFacts.path p files]
  change underPath FileFacts.path p (distinctPaths (sortByPath FileFacts.path files)) = _
  cases hlist : sortByPath FileFacts.path files with
  | nil => rfl
  | cons file rest =>
    rw [hlist] at hsorted
    exact underPath_dropSamePath hsorted p

/-- A listed file is the first of the unit with its path. -/
theorem find?_of_mem_orderedFiles {files : List FileFacts} {file : FileFacts}
    (h : file ∈ orderedFiles files) :
    files.find? (fun other => other.path.same file.path) = some file := by
  have hunder := (mem_underPath_self FileFacts.path).mpr h
  rw [underPath_orderedFiles] at hunder
  rw [← List.head?_filter]
  change (underPath FileFacts.path file.path files).head? = some file
  cases hlist : underPath FileFacts.path file.path files with
  | nil => simp [hlist] at hunder
  | cons first rest =>
    rw [hlist] at hunder
    simp only [List.take_succ_cons, List.take_zero, List.mem_singleton] at hunder
    rw [hunder, List.head?_cons]

/-- Every path of the unit is listed. -/
theorem exists_mem_orderedFiles {files : List FileFacts} {file : FileFacts} (h : file ∈ files) :
    ∃ listed ∈ orderedFiles files, listed.path.same file.path = true := by
  have hunder := underPath_orderedFiles file.path files
  have hmem := (mem_underPath_self FileFacts.path).mpr h
  cases hlist : underPath FileFacts.path file.path files with
  | nil => simp [hlist] at hmem
  | cons first rest =>
    rw [hlist, List.take_succ_cons, List.take_zero] at hunder
    have hfirst : first ∈ underPath FileFacts.path file.path (orderedFiles files) := by
      rw [hunder]
      exact List.mem_singleton_self first
    exact ⟨first, List.mem_filter.mp hfirst⟩

/-- Listed files are files of the unit. -/
theorem mem_of_mem_orderedFiles {files : List FileFacts} {file : FileFacts}
    (h : file ∈ orderedFiles files) : file ∈ files :=
  List.mem_of_find?_eq_some (find?_of_mem_orderedFiles h)

/-- Rearranged files are listed alike. -/
theorem orderedFiles_eq_of_rearranges {files others : List FileFacts}
    (h : Rearranges FileFacts.path files others) : orderedFiles files = orderedFiles others := by
  change distinctPaths (sortByPath FileFacts.path files) =
    distinctPaths (sortByPath FileFacts.path others)
  rw [sortByPath_eq_of_rearranges h]

end CodeAtlas
