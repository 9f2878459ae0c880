import CodeAtlas.Proofs.Collection
import Mathlib.Data.List.Sort
import Mathlib.Order.Bounds.Basic

/-!
# The level of a module

The symbols at the level of a module are its parentless symbols; the files of a Go package share one
level. Symbols are numbered module by module and in the order of declaration, so the level of a
package, which is put together file by file, lists its symbols in the order of their identities.
-/

namespace CodeAtlas

/-- Do two modules share one level? The files of a Go package do, and every module does with
itself. -/
def sharesLevel (modules : List Module) (a b : Nat) : Bool :=
  a == b || modules[a]?.any fun m => modules[b]?.any fun n =>
    m.language == .go && n.language == .go && m.key == n.key

/-- Two modules share one level exactly when they are the same or files of one Go package. -/
theorem sharesLevel_iff {modules : List Module} {a b : Nat} :
    sharesLevel modules a b = true ↔
      a = b ∨ ∃ m n, modules[a]? = some m ∧ modules[b]? = some n ∧
        m.language = .go ∧ n.language = .go ∧ m.key = n.key := by
  rw [sharesLevel, Bool.or_eq_true, beq_iff_eq, Option.any_eq_true]
  simp only [Option.any_eq_true, Bool.and_eq_true, beq_iff_eq]
  refine or_congr_right ⟨?_, ?_⟩
  · rintro ⟨m, hm, n, hn, ⟨hgo, hgo'⟩, hkey⟩
    exact ⟨m, n, hm, hn, hgo, hgo', hkey⟩
  · rintro ⟨m, n, hm, hn, hgo, hgo', hkey⟩
    exact ⟨m, hm, n, hn, ⟨hgo, hgo'⟩, hkey⟩

/-- To share one level is symmetric. -/
theorem sharesLevel_symm {modules : List Module} {a b : Nat}
    (h : sharesLevel modules a b = true) : sharesLevel modules b a = true := by
  rw [sharesLevel_iff] at h ⊢
  rcases h with rfl | ⟨m, n, hm, hn, hgo, hgo', hkey⟩
  · exact .inl rfl
  · exact .inr ⟨n, m, hn, hm, hgo', hgo, hkey.symm⟩

/-- To share one level is transitive. -/
theorem sharesLevel_trans {modules : List Module} {a b c : Nat}
    (h : sharesLevel modules a b = true) (hnext : sharesLevel modules b c = true) :
    sharesLevel modules a c = true := by
  rw [sharesLevel_iff] at h hnext ⊢
  rcases h with rfl | ⟨m, n, hm, hn, hgo, hgo', hkey⟩
  · exact hnext
  · rcases hnext with rfl | ⟨n', k, hn', hk, _, hgo'', hkey'⟩
    · exact .inr ⟨m, n, hm, hn, hgo, hgo', hkey⟩
    · obtain rfl := Option.some.inj (hn.symm.trans hn')
      exact .inr ⟨m, k, hm, hk, hgo, hgo'', hkey.trans hkey'⟩

/-- Are the symbols listed module by module? -/
def InModuleOrder (symbols : List Symbol) : Prop := symbols.Pairwise fun s t => s.module ≤ t.module

/-- Two lists of the numbers with one property are the same. -/
theorem Enumerates.unique {ids others : List Nat} {p : Nat → Prop} (h : Enumerates ids p)
    (hothers : Enumerates others p) : ids = others :=
  h.increasing.eq_of_mem_iff hothers.increasing fun id =>
    (h.mem_iff id).trans (hothers.mem_iff id).symm

/-- The first of the listed numbers is the least one with the property. -/
theorem Enumerates.head?_eq_some_iff {ids : List Nat} {p : Nat → Prop} (h : Enumerates ids p)
    {id : Nat} : ids.head? = some id ↔ IsLeast {t | p t} id := by
  constructor
  · intro hfirst
    obtain ⟨rest, rfl⟩ := List.head?_eq_some_iff.mp hfirst
    refine ⟨(h.mem_iff id).mp List.mem_cons_self, fun other hother => ?_⟩
    rcases List.mem_cons.mp ((h.mem_iff other).mpr hother) with rfl | hrest
    · exact le_rfl
    · exact (List.rel_of_pairwise_cons h.increasing hrest).le
  · rintro ⟨hid, hleast⟩
    cases ids with
    | nil => cases (h.mem_iff id).mpr hid
    | cons first rest =>
      have hle : id ≤ first := hleast ((h.mem_iff first).mp List.mem_cons_self)
      rcases List.mem_cons.mp ((h.mem_iff id).mpr hid) with rfl | hrest
      · rfl
      · exact absurd (List.rel_of_pairwise_cons h.increasing hrest) (by omega)

/-- Nothing is listed exactly when no number has the property. -/
theorem Enumerates.eq_nil_iff {ids : List Nat} {p : Nat → Prop} (h : Enumerates ids p) :
    ids = [] ↔ ∀ id, ¬ p id := by
  rw [List.eq_nil_iff_forall_not_mem]
  exact forall_congr' fun id => not_congr (h.mem_iff id)

/-- The identities of numbered records increase. -/
theorem Numbered.increasing {α : Type} {identity : α → Nat} {records : List α}
    (h : Numbered identity records) : records.Pairwise fun a b => identity a < identity b := by
  rw [List.pairwise_iff_getElem]
  intro i j hi hj hij
  rw [h i _ (List.getElem?_eq_getElem hi), h j _ (List.getElem?_eq_getElem hj)]
  exact hij

/-- The first record with a property is the one with the least identity. -/
theorem Numbered.find?_eq_some_iff {α : Type} {identity : α → Nat} {records : List α}
    (h : Numbered identity records) {p : α → Bool} {record : α} :
    records.find? p = some record ↔ record ∈ records ∧ p record = true ∧
      ∀ other ∈ records, p other = true → identity record ≤ identity other := by
  have hleast {first : α} (hfirst : records.find? p = some first) :
      ∀ other ∈ records, p other = true → identity first ≤ identity other := by
    intro other hother hp
    obtain ⟨_, before, after, rfl, hbefore⟩ := List.find?_eq_some_iff_append.mp hfirst
    obtain ⟨_, hafter, _⟩ := List.pairwise_append.mp h.increasing
    rcases List.mem_append.mp hother with hother | hother
    · have hnot := hbefore other hother
      simp [hp] at hnot
    · rcases List.mem_cons.mp hother with rfl | hother
      · exact le_rfl
      · exact (List.rel_of_pairwise_cons hafter hother).le
  constructor
  · intro hfirst
    exact ⟨List.mem_of_find?_eq_some hfirst, List.find?_some hfirst, hleast hfirst⟩
  · rintro ⟨hmem, hp, hrecord⟩
    cases hfind : records.find? p with
    | none => exact absurd hp (List.find?_eq_none.mp hfind record hmem)
    | some first =>
      have hfirst := List.mem_of_find?_eq_some hfind
      have hsame : identity first = identity record :=
        le_antisymm (hleast hfind record hmem hp) (hrecord first hfirst (List.find?_some hfind))
      have hget := h.getElem?_of_mem hfirst
      rw [hsame, h.getElem?_of_mem hmem] at hget
      exact hget.symm

/-- The identities of the records with a property, listed in the order of the table. -/
theorem Numbered.enumerates_filter {α : Type} {identity : α → Nat} {records : List α}
    (h : Numbered identity records) (p : α → Bool) :
    Enumerates ((records.filter p).map identity) fun id =>
      ∃ record, records[id]? = some record ∧ p record = true where
  increasing := List.pairwise_map.mpr (h.increasing.sublist List.filter_sublist)
  mem_iff := by
    intro id
    rw [List.mem_map]
    constructor
    · rintro ⟨record, hrecord, rfl⟩
      obtain ⟨hmem, hp⟩ := List.mem_filter.mp hrecord
      exact ⟨record, h.getElem?_of_mem hmem, hp⟩
    · rintro ⟨record, hrecord, hp⟩
      exact ⟨record, List.mem_filter.mpr ⟨List.mem_of_getElem? hrecord, hp⟩, h id record hrecord⟩

namespace Tables

/-- Adding files keeps the symbols in the order of their modules. -/
theorem ofFiles_inModuleOrder (files : List FileFacts) :
    InModuleOrder (ofFiles files).symbols.toList := by
  have hboth : InModuleOrder (ofFiles files).symbols.toList ∧
      ∀ s ∈ (ofFiles files).symbols.toList, s.module < (ofFiles files).modules.length := by
    refine ofFiles_induction (P := fun t => InModuleOrder t.symbols.toList ∧
      ∀ s ∈ t.symbols.toList, s.module < t.modules.length) files ⟨.nil, by simp⟩ ?_
    rintro tables file - ⟨horder, hmodules⟩
    have hnew : ∀ s ∈ symbolsOf tables.modules.length tables.symbols.size file.declarations,
        s.module = tables.modules.length := by
      intro s hs
      obtain ⟨⟨d, i⟩, _, rfl⟩ := List.mem_map.mp hs
      rfl
    rw [addFile_symbols, addFile_modules]
    constructor
    · refine List.pairwise_append.mpr ⟨horder, ?_, ?_⟩
      · refine List.Pairwise.imp_of_mem ?_ (List.pairwise_of_forall fun _ _ => trivial)
        intro s t hs ht _
        rw [hnew s hs, hnew t ht]
      · intro s hs t ht
        rw [hnew t ht]
        exact (hmodules s hs).le
    · intro s hs
      rw [List.length_append, List.length_singleton]
      rcases List.mem_append.mp hs with hold | hs
      · exact Nat.lt_succ_of_lt (hmodules s hold)
      · exact hnew s hs ▸ Nat.lt_succ_self _
  exact hboth.1

/-- A symbol stands at the level of a module when it has no parent and its module shares the
level. -/
def atLevel (tables : Tables) (module : Nat) (s : Symbol) : Bool :=
  s.isTopLevel && sharesLevel tables.modules module s.module

/-- A symbol stands at the level of a module exactly when it has no parent and its module shares
the level. -/
theorem atLevel_iff {tables : Tables} {m : Nat} {s : Symbol} :
    tables.atLevel m s = true ↔ s.parent = none ∧ sharesLevel tables.modules m s.module = true := by
  simp only [atLevel, Symbol.isTopLevel, Bool.and_eq_true, Option.isNone_iff_eq_none]

section Consistent

variable {tables : Tables} (h : SymbolRecords tables.modules tables.symbols.toList)
include h

/-- The symbols that a module lists are its own parentless ones. -/
theorem mem_symbols_iff {n : Module} (hn : n ∈ tables.modules) {id : Nat} :
    id ∈ n.symbols ↔
      ∃ s, tables.symbols.toList[id]? = some s ∧ s.module = n.id ∧ s.parent = none :=
  (h.topLevels n.id n (h.modulesNumbered.getElem?_of_mem hn)).mem_iff id

/-- The level of a module holds exactly the symbols that stand at it. -/
theorem mem_topLevel_iff {m id : Nat} :
    id ∈ tables.topLevel m ↔
      ∃ s, tables.symbols.toList[id]? = some s ∧ tables.atLevel m s = true := by
  simp only [atLevel_iff]
  rw [topLevel]
  split
  · rename_i hnone
    refine ⟨fun hid => by simp at hid, ?_⟩
    rintro ⟨s, hs, _, hshare⟩
    have hmodule := h.inModule s (List.mem_of_getElem? hs)
    rcases sharesLevel_iff.mp hshare with rfl | ⟨k, _, hk, _⟩
    · rw [List.getElem?_eq_none_iff] at hnone
      omega
    · rw [hnone] at hk
      cases hk
  · rename_i n hn
    have hnid : n.id = m := h.modulesNumbered m n hn
    split
    · rename_i hgo
      rw [List.mem_flatMap]
      constructor
      · rintro ⟨k, hk, hid⟩
        obtain ⟨hmem, hlang⟩ := List.mem_filter.mp hk
        simp only [Bool.and_eq_true, beq_iff_eq] at hlang
        obtain ⟨s, hs, hmodule, hparent⟩ := (mem_symbols_iff h hmem).mp hid
        have hget := hmodule ▸ h.modulesNumbered.getElem?_of_mem hmem
        exact ⟨s, hs, hparent,
          sharesLevel_iff.mpr (.inr ⟨n, k, hn, hget, hgo, hlang.1, hlang.2.symm⟩)⟩
      · rintro ⟨s, hs, hparent, hshare⟩
        obtain ⟨k, hk, hlang, hkey⟩ :
            ∃ k, tables.modules[s.module]? = some k ∧ k.language = .go ∧ k.key = n.key := by
          rcases sharesLevel_iff.mp hshare with rfl | ⟨n', k, hn', hk, _, hlang, hkey⟩
          · exact ⟨n, hn, hgo, rfl⟩
          · obtain rfl : n' = n := Option.some.inj (hn'.symm.trans hn)
            exact ⟨k, hk, hlang, hkey.symm⟩
        have hmem := List.mem_of_getElem? hk
        refine ⟨k, List.mem_filter.mpr ⟨hmem, by simp [hlang, hkey]⟩, ?_⟩
        exact (mem_symbols_iff h hmem).mpr ⟨s, hs, (h.modulesNumbered _ k hk).symm, hparent⟩
    · rename_i hgo
      rw [mem_symbols_iff h (List.mem_of_getElem? hn), hnid]
      refine exists_congr fun s => and_congr_right fun _ => ?_
      constructor
      · rintro ⟨rfl, hparent⟩
        exact ⟨hparent, sharesLevel_iff.mpr (.inl rfl)⟩
      · rintro ⟨hparent, hshare⟩
        rcases sharesLevel_iff.mp hshare with rfl | ⟨n', _, hn', _, hgo', _⟩
        · exact ⟨rfl, hparent⟩
        · obtain rfl : n' = n := Option.some.inj (hn'.symm.trans hn)
          exact absurd hgo' hgo

variable (horder : InModuleOrder tables.symbols.toList)
include horder

/-- The symbols of an earlier module stand before those of a later one. -/
theorem lt_of_mem_symbols {n k : Module} (hn : n ∈ tables.modules) (hk : k ∈ tables.modules)
    (hlt : n.id < k.id) {id other : Nat} (hid : id ∈ n.symbols) (hother : other ∈ k.symbols) :
    id < other := by
  obtain ⟨s, hs, hmodule, _⟩ := (mem_symbols_iff h hn).mp hid
  obtain ⟨t, ht, hmodule', _⟩ := (mem_symbols_iff h hk).mp hother
  obtain ⟨hidlt, rfl⟩ := List.getElem?_eq_some_iff.mp hs
  obtain ⟨hotherlt, rfl⟩ := List.getElem?_eq_some_iff.mp ht
  by_contra hnot
  rcases Nat.lt_or_ge other id with hless | hge
  · have hle := List.pairwise_iff_getElem.mp horder other id hotherlt hidlt hless
    omega
  · obtain rfl : id = other := by omega
    omega

/-- The level of a module is listed in increasing order, also when several files share it. -/
theorem topLevel_increasing (m : Nat) : (tables.topLevel m).Pairwise (· < ·) := by
  have hlists : ∀ n ∈ tables.modules, n.symbols.Pairwise (· < ·) := fun n hn =>
    (h.topLevels n.id n (h.modulesNumbered.getElem?_of_mem hn)).increasing
  rw [topLevel]
  split
  · exact List.Pairwise.nil
  · rename_i n hn
    split
    · refine List.pairwise_flatMap.mpr ⟨fun n hn => hlists n (List.mem_filter.mp hn).1, ?_⟩
      refine List.Pairwise.imp_of_mem ?_
        (h.modulesNumbered.increasing.sublist List.filter_sublist)
      intro n k hn hk hlt id hid other hother
      exact lt_of_mem_symbols h horder (List.mem_filter.mp hn).1 (List.mem_filter.mp hk).1 hlt
        hid hother
    · exact hlists n (List.mem_of_getElem? hn)

/-- The level of a module lists the symbols that stand at it, in the order of their identities. -/
theorem topLevel_eq_filter (m : Nat) :
    tables.topLevel m = (tables.symbols.toList.filter (tables.atLevel m)).map (·.id) :=
  Enumerates.unique ⟨topLevel_increasing h horder m, fun _ => mem_topLevel_iff h⟩
    (h.symbolsNumbered.enumerates_filter (tables.atLevel m))

end Consistent

end Tables

end CodeAtlas
