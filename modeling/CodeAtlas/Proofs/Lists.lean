import Mathlib.Data.List.Forall2
import Mathlib.Data.Option.Basic
import Mathlib.Data.Set.Card

/-!
# Lists and optional values

Facts about lists and optional values that the proofs use and that know nothing of the program.
-/

namespace CodeAtlas

/-! ### Optional values -/

/-- What is appended to a list leaves the positions of its elements alone. -/
theorem getElem?_append_of_some {α : Type} {old : List α} {i : Nat} {x : α} (new : List α)
    (h : old[i]? = some x) : (old ++ new)[i]? = some x := by
  rw [List.getElem?_append_left (List.getElem?_eq_some_iff.mp h).1]
  exact h

/-- An element that passes a filter stands behind those before it that pass. -/
theorem getElem?_filter_countP {α : Type} {l : List α} {p : α → Bool} {a : α} {t : Nat}
    (h : l[t]? = some a) (hp : p a) : (l.filter p)[(l.take t).countP p]? = some a := by
  obtain ⟨ht, rfl⟩ := List.getElem?_eq_some_iff.mp h
  have hsplit : l.filter p = (l.take t).filter p ++ l[t] :: (l.drop (t + 1)).filter p := by
    rw [← List.filter_cons_of_pos hp, ← List.filter_append, ← List.drop_eq_getElem_cons ht,
      List.take_append_drop]
  rw [hsplit, List.countP_eq_length_filter, List.getElem?_append_right (Nat.le_refl _),
    Nat.sub_self, List.getElem?_cons_zero]

/-- A condition that holds of all or none of what each member of a list gives is a condition on the
members. -/
theorem filter_flatMap_of_blocks {α β : Type} {f : α → List β} {p : β → Bool} {q : α → Bool}
    {l : List α} (h : ∀ a ∈ l, ∀ b ∈ f a, p b = q a) :
    (l.flatMap f).filter p = (l.filter q).flatMap f := by
  induction l with
  | nil => rfl
  | cons a l ih =>
    rw [List.flatMap_cons, List.filter_append, ih fun b hb => h b (List.mem_cons_of_mem _ hb)]
    have hblock : (f a).filter p = if q a then f a else [] := by
      rw [List.filter_congr (h a List.mem_cons_self)]
      cases q a <;> simp
    rw [hblock, List.filter_cons]
    cases q a <;> simp

/-- Items with a key below a bound are those of the single keys taken together. -/
theorem flatMap_filter_key_perm {α : Type} (key : α → Option Nat) (items : List α) (bound : Nat) :
    ((List.range bound).flatMap fun k => items.filter fun a => key a == some k).Perm
      (items.filter fun a => (key a).any (· < bound)) := by
  induction bound with
  | zero =>
    have hnone : (items.filter fun a => (key a).any (· < 0)) = [] := by simp
    rw [hnone]
    exact List.Perm.nil
  | succ bound ih =>
    have hsplit := List.filter_append_perm (fun a => (key a).any (· < bound))
      (items.filter fun a => (key a).any (· < bound + 1))
    have hbelow : ∀ a, ((key a).any (· < bound) && (key a).any (· < bound + 1)) =
        (key a).any (· < bound) := by
      intro a
      cases key a with
      | none => rfl
      | some k =>
        rw [Bool.eq_iff_iff]
        simp only [Option.any_some, Bool.and_eq_true, decide_eq_true_eq]
        omega
    have hlast : ∀ a, (!(key a).any (· < bound) && (key a).any (· < bound + 1)) =
        (key a == some bound) := by
      intro a
      cases key a with
      | none => rfl
      | some k =>
        rw [Bool.eq_iff_iff]
        simp only [Option.any_some, Bool.and_eq_true, Bool.not_eq_true', decide_eq_false_iff_not,
          decide_eq_true_eq, beq_iff_eq, Option.some.injEq]
        omega
    simp only [List.filter_filter, hbelow, hlast] at hsplit
    rw [List.range_succ, List.flatMap_append, List.flatMap_singleton]
    exact (ih.append_right _).trans hsplit

/-- Choosing values of some elements only is to choose the elements first. -/
theorem filterMap_eq_map_filter {α β : Type} {f : α → Option β} {p : α → Bool} {g : α → β}
    (h : ∀ a, f a = if p a then some (g a) else none) (l : List α) :
    l.filterMap f = (l.filter p).map g := by
  rw [← List.filterMap_eq_map, List.filterMap_filter]
  exact List.filterMap_congr fun a _ => h a

/-- A class among the elements that an equivalence does not connect with a node is one among all. -/
theorem class_of_apart {R : Nat → Nat → Prop} (hR : Equivalence R) {nodes others c : List Nat}
    {node : Nat} (hothers : ∀ b, b ∈ others ↔ b ∈ nodes ∧ ¬ R node b)
    (hwithin : ∀ x ∈ c, x ∈ others) (hclass : ∀ a ∈ c, ∀ b ∈ others, b ∈ c ↔ R a b) :
    ∀ a ∈ c, ∀ b ∈ nodes, b ∈ c ↔ R a b := by
  intro a ha b hb
  have hapart := ((hothers a).mp (hwithin a ha)).2
  by_cases hconnected : R node b
  · refine ⟨fun hbc => absurd hconnected ((hothers b).mp (hwithin b hbc)).2, fun h => ?_⟩
    exact absurd (hR.trans hconnected (hR.symm h)) hapart
  · exact hclass a ha b ((hothers b).mpr ⟨hb, hconnected⟩)

/-- The classes of an equivalence among the elements of a list. -/
theorem exists_classes {R : Nat → Nat → Prop} (hR : Equivalence R) (nodes : List Nat) :
    ∃ classes : List (List Nat), classes.flatten.Perm nodes ∧ [] ∉ classes ∧
      ∀ c ∈ classes, ∀ a ∈ c, ∀ b ∈ nodes, b ∈ c ↔ R a b := by
  classical
  induction hlength : nodes.length using Nat.strongRecOn generalizing nodes with
  | ind length ih =>
  cases nodes with
  | nil => exact ⟨[], .refl _, List.not_mem_nil, fun c hc => nomatch hc⟩
  | cons first rest =>
    -- The class of the first element is split off.
    set own := (first :: rest).filter fun b => R first b
    set others := (first :: rest).filter fun b => !decide (R first b)
    have hsplit : (own ++ others).Perm (first :: rest) := List.filter_append_perm _ _
    have hown : ∀ b, b ∈ own ↔ b ∈ first :: rest ∧ R first b := by simp [own]
    have hothers : ∀ b, b ∈ others ↔ b ∈ first :: rest ∧ ¬ R first b := by simp [others]
    have hfirst : first ∈ own := (hown first).mpr ⟨List.mem_cons_self, hR.refl first⟩
    have hfewer : others.length < length := by
      have := hsplit.length_eq
      have := List.length_pos_of_mem hfirst
      rw [List.length_append] at *
      omega
    obtain ⟨classes, hcovers, hinhabited, hclasses⟩ := ih _ hfewer others rfl
    refine ⟨own :: classes, (hcovers.append_left own).trans hsplit, ?_, ?_⟩
    · rintro hempty
      rcases List.mem_cons.mp hempty with hempty | hempty
      · exact List.ne_nil_of_mem hfirst hempty.symm
      · exact hinhabited hempty
    · intro c hc
      rcases List.mem_cons.mp hc with rfl | hc
      · intro a ha b hb
        have hfirsta := ((hown a).mp ha).2
        rw [hown]
        exact ⟨fun h => hR.trans (hR.symm hfirsta) h.2, fun h => ⟨hb, hR.trans hfirsta h⟩⟩
      · have hwithin : ∀ x ∈ c, x ∈ others := fun x hx =>
          hcovers.mem_iff.mp (List.mem_flatten.mpr ⟨c, hc, hx⟩)
        exact class_of_apart hR hothers hwithin (hclasses c hc)

/-! ### Counting and repetitions -/

/-- An item counts once under a condition that two exclusive ones make up. -/
theorem countP_eq_add_of_exclusive {α : Type} {p q r : α → Bool} {items : List α}
    (hexclusive : ∀ a ∈ items, p a = true → q a = false)
    (hunion : ∀ a ∈ items, r a = (p a || q a)) :
    items.countP r = items.countP p + items.countP q := by
  induction items with
  | nil => rfl
  | cons a items ih =>
    have hrest := ih (fun b hb => hexclusive b (List.mem_cons_of_mem a hb))
      (fun b hb => hunion b (List.mem_cons_of_mem a hb))
    have hfirst := hexclusive a List.mem_cons_self
    simp only [List.countP_cons, hrest, hunion a List.mem_cons_self]
    cases hp : p a with
    | false =>
      simp
      omega
    | true =>
      rw [hfirst hp]
      simp
      omega

/-- A list without repetitions whose elements are all equal has one of them. -/
theorem eq_singleton_of_nodup {α : Type} {l : List α} {a : α} (hnodup : l.Nodup) (ha : a ∈ l)
    (hall : ∀ b ∈ l, b = a) : l = [a] := by
  cases l with
  | nil => cases ha
  | cons b rest =>
    obtain rfl := hall b List.mem_cons_self
    have hrest : rest = [] := by
      refine List.eq_nil_iff_forall_not_mem.mpr fun c hc => (List.nodup_cons.mp hnodup).1 ?_
      rwa [hall c (List.mem_cons_of_mem _ hc)] at hc
    rw [hrest]

/-- Among different pairs a first component occurs once exactly when it has one partner. -/
theorem count_map_fst_eq_one {α β : Type} [BEq α] [LawfulBEq α] {pairs : List (α × β)}
    (hnodup : pairs.Nodup) {a : α} :
    (pairs.map Prod.fst).count a = 1 ↔ ∃! b, (a, b) ∈ pairs := by
  have hcount : (pairs.map Prod.fst).count a = (pairs.filter fun y => y.1 == a).length := by
    rw [List.count, List.countP_map, List.countP_eq_length_filter]
    rfl
  have hmem : ∀ y, y ∈ pairs.filter (fun y => y.1 == a) ↔ y ∈ pairs ∧ y.1 = a := by
    simp [List.mem_filter]
  rw [hcount, List.length_eq_one_iff]
  constructor
  · rintro ⟨⟨a', b⟩, hone⟩
    obtain ⟨hb, rfl⟩ := (hmem (a', b)).mp (by rw [hone]; exact List.mem_singleton_self _)
    refine ⟨b, hb, fun b' hb' => ?_⟩
    have hother := (hmem (a', b')).mpr ⟨hb', rfl⟩
    rw [hone] at hother
    exact (Prod.mk.inj (List.mem_singleton.mp hother)).2
  · rintro ⟨b, hb, hunique⟩
    refine ⟨(a, b), eq_singleton_of_nodup (hnodup.filter _) ((hmem _).mpr ⟨hb, rfl⟩) ?_⟩
    rintro ⟨a', b'⟩ hy
    obtain ⟨hb', rfl⟩ := (hmem _).mp hy
    rw [hunique b' hb']

/-- In a list that is sorted downwards, the elements up to the first that violates a condition are
those from which on upwards none does. -/
theorem mem_takeWhile_of_sorted {α : Type} {l : List (α × Nat)} {good : α × Nat → Bool}
    (hsorted : l.Pairwise fun v w => w.2 < v.2) {v : α × Nat} :
    v ∈ l.takeWhile good ↔ v ∈ l ∧ ∀ w ∈ l, v.2 ≤ w.2 → good w = true := by
  induction l with
  | nil => simp
  | cons u l ih =>
    obtain ⟨hfirst, hrest⟩ := List.pairwise_cons.mp hsorted
    cases hgood : good u with
    | true =>
      rw [List.takeWhile_cons_of_pos hgood, List.mem_cons, List.mem_cons, ih hrest]
      constructor
      · rintro (rfl | ⟨hv, hall⟩)
        · refine ⟨.inl rfl, fun w hw hle => ?_⟩
          rcases List.mem_cons.mp hw with rfl | hw
          · exact hgood
          · exact absurd (hfirst w hw) (by omega)
        · refine ⟨.inr hv, fun w hw hle => ?_⟩
          rcases List.mem_cons.mp hw with rfl | hw
          · exact hgood
          · exact hall w hw hle
      · rintro ⟨rfl | hv, hall⟩
        · exact .inl rfl
        · exact .inr ⟨hv, fun w hw => hall w (List.mem_cons_of_mem _ hw)⟩
    | false =>
      rw [List.takeWhile_cons_of_neg (by simp [hgood])]
      refine ⟨fun h => absurd h List.not_mem_nil, fun ⟨hv, hall⟩ => ?_⟩
      have hle : v.2 ≤ u.2 := by
        rcases List.mem_cons.mp hv with rfl | hv
        · exact Nat.le_refl _
        · exact Nat.le_of_lt (hfirst v hv)
      rw [hall u List.mem_cons_self hle] at hgood
      cases hgood

/-- Elements with a property that passes on to all later elements are the last ones. -/
theorem exists_append_of_pairwise {α : Type} {P : α → Prop} {l : List α}
    (h : l.Pairwise fun a b => P a → P b) :
    ∃ first last, l = first ++ last ∧ (∀ a ∈ first, ¬ P a) ∧ ∀ a ∈ last, P a := by
  induction l with
  | nil => exact ⟨[], [], rfl, by simp, by simp⟩
  | cons a l ih =>
    obtain ⟨hpasses, hrest⟩ := List.pairwise_cons.mp h
    by_cases ha : P a
    · exact ⟨[], a :: l, rfl, by simp, List.forall_mem_cons.mpr ⟨ha, fun b hb => hpasses b hb ha⟩⟩
    · obtain ⟨first, last, rfl, hfirst, hlast⟩ := ih hrest
      exact ⟨a :: first, last, rfl, List.forall_mem_cons.mpr ⟨ha, hfirst⟩, hlast⟩

/-- Erasing the repetitions of a list leaves none. -/
theorem nodup_eraseDups {α : Type} [BEq α] [LawfulBEq α] (l : List α) : l.eraseDups.Nodup := by
  cases l with
  | nil => exact List.nodup_nil
  | cons a l =>
    rw [List.eraseDups_cons, List.nodup_cons, List.mem_eraseDups, List.mem_filter]
    exact ⟨by simp, nodup_eraseDups _⟩
termination_by l.length
decreasing_by exact Nat.lt_succ_of_le (List.length_filter_le _ _)

/-- Without its repetitions a list is as long as it has elements. -/
theorem length_eraseDups {α : Type} [BEq α] [LawfulBEq α] (l : List α) :
    l.eraseDups.length = {a | a ∈ l}.ncard := by
  classical
  have hset : {a | a ∈ l} = ↑l.eraseDups.toFinset := by
    ext a
    simp
  rw [hset, Set.ncard_coe_finset, List.toFinset_card_of_nodup (nodup_eraseDups l)]

/-! ### Searching -/

/-- What is found in a row of blocks is found in the first block that has it. -/
theorem find?_flatMap_eq_bind {α β : Type} (f : α → List β) (p : β → Bool) (l : List α) :
    (l.flatMap f).find? p = (l.find? fun a => (f a).any p).bind fun a => (f a).find? p := by
  induction l with
  | nil => rfl
  | cons a l ih =>
    rw [List.flatMap_cons, List.find?_append, ih, List.find?_cons]
    cases hany : (f a).any p with
    | true =>
      have hsome : ((f a).find? p).isSome = true := List.find?_isSome.mpr (List.any_eq_true.mp hany)
      obtain ⟨b, hb⟩ := Option.isSome_iff_exists.mp hsome
      simp [hb]
    | false =>
      have hnone : (f a).find? p = none := by
        rw [List.find?_eq_none]
        intro b hb hp
        rw [List.any_eq_true.mpr ⟨b, hb, hp⟩] at hany
        cases hany
      simp [hnone]

/-- Looking up a value that was changed is changing the value that is looked up. -/
theorem lookup_map_snd {α β γ : Type} [BEq α] (f : β → γ) (pairs : List (α × β)) (a : α) :
    (pairs.map fun x => (x.1, f x.2)).lookup a = (pairs.lookup a).map f := by
  induction pairs with
  | nil => rfl
  | cons x pairs ih =>
    obtain ⟨key, value⟩ := x
    rw [List.map_cons, List.lookup_cons, List.lookup_cons, ih]
    cases a == key <;> rfl

/-! ### Related lists -/

/-- A member of the second of two related lists is related to a member of the first. -/
theorem exists_mem_of_forall₂ {α β : Type} {R : α → β → Prop} {as : List α} {bs : List β}
    (h : List.Forall₂ R as bs) {b : β} (hb : b ∈ bs) : ∃ a ∈ as, R a b := by
  induction h with
  | nil => cases hb
  | @cons a c as bs hac _ ih =>
    rcases List.mem_cons.mp hb with rfl | hb
    · exact ⟨a, List.mem_cons_self, hac⟩
    · obtain ⟨other, hother, hrelated⟩ := ih hb
      exact ⟨other, List.mem_cons_of_mem _ hother, hrelated⟩

/-- Lists whose members are related are searched with related results. -/
theorem rel_find?_of_forall₂ {α β : Type} {R : α → β → Prop} {p : α → Bool} {q : β → Bool}
    {as : List α} {bs : List β} (h : List.Forall₂ R as bs) (hpq : ∀ a b, R a b → p a = q b) :
    Option.Rel R (as.find? p) (bs.find? q) := by
  induction h with
  | nil => exact .none
  | @cons a b as bs hab _ ih =>
    rw [List.find?_cons, List.find?_cons, hpq a b hab]
    cases q b with
    | true => exact .some hab
    | false => exact ih

/-- Related lists have the same blocks in a row if related members have the same block. -/
theorem flatMap_eq_of_forall₂ {α β γ : Type} {R : α → β → Prop} {f : α → List γ} {g : β → List γ}
    {as : List α} {bs : List β} (h : List.Forall₂ R as bs)
    (hblocks : ∀ a ∈ as, ∀ b, R a b → f a = g b) : as.flatMap f = bs.flatMap g := by
  induction h with
  | nil => rfl
  | @cons a b as bs hab _ ih =>
    obtain ⟨hfirst, hrest⟩ := List.forall_mem_cons.mp hblocks
    rw [List.flatMap_cons, List.flatMap_cons, hfirst b hab, ih hrest]

/-- Numbering a list does not change what its members are related to. -/
theorem forall₂_map_zipIdx {α β γ : Type} {R : β → γ → Prop} {f : α × Nat → β} {g : α → γ}
    (hrelated : ∀ a i, R (f (a, i)) (g a)) (l : List α) (start : Nat) :
    List.Forall₂ R ((l.zipIdx start).map f) (l.map g) := by
  induction l generalizing start with
  | nil => exact .nil
  | cons a l ih => exact .cons (hrelated a start) (ih (start + 1))

end CodeAtlas
